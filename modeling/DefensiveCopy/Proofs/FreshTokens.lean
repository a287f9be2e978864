import DefensiveCopy.Proofs.RegistrationCall

/-!
# What a registration changes

A successful call hands out a token that nobody had: the kind of the new symbol in its high byte and
the next row in its low bits.  From then on the token resolves to the symbol.  All other tokens
resolve to what they did, in all tables, up to the links back to the new symbol.

`SymbolTable.Gains` says this table by table.  Types may have gained a member, methods a parameter
or the property or event that they belong to; the records of the seven other kinds are the same.

## Key results

- `SymbolTable.tokenAfter?_eq_some_iff`: the token that a symbol gets
- `SymbolTable.Registers.gains`: registering a symbol changes what `Gains` says and nothing else
- `RegistrationCall.gains_of_run`: all calls that register a symbol
-/

namespace DefensiveCopy

namespace SymbolTable

variable {t : SymbolTable} {kind : SymbolKind} {symbol : Symbol kind} {token : Token}

/-! ## The next token -/

/-- There is a next token exactly while rows last. -/
theorem tokenAfter?_eq_some_iff {count : Nat} :
    tokenAfter? kind count = some token ↔
      count + 1 < Token.rowLimit ∧ token = .ofParts kind (count + 1) := by
  unfold tokenAfter?
  split
  · next hlt => simp [hlt, eq_comm]
  · next hnot => simp [hnot]

/-- While rows last, the token of a symbol has the byte of its kind and the row behind the rows that
    are taken. -/
theorem parts_of_tokenAfter? (h : tokenAfter? kind (t.count kind) = some token) :
    token.table = kind.tableByte ∧ token.row = t.count kind + 1 ∧ token.row < Token.rowLimit := by
  obtain ⟨hlt, rfl⟩ := tokenAfter?_eq_some_iff.1 h
  -- The row is small enough to be kept by the 24 bits that it gets.
  have hrow : (Token.ofParts kind (t.count kind + 1)).row = t.count kind + 1 := by
    rw [Token.row_ofParts, Nat.mod_eq_of_lt hlt]
  refine ⟨Token.table_ofParts kind _, hrow, ?_⟩
  omega

/-! ## The gain of a table -/

/-- The table has gained a symbol under a token, with the links back to it, and has not changed
    otherwise. -/
structure Gains (t : SymbolTable) (kind : SymbolKind) (symbol : Symbol kind) (token : Token)
    (after : SymbolTable) : Prop where
  /-- The high byte of the token names the kind of the symbol. -/
  table_eq : token.table = kind.tableByte
  /-- The row of the token is the one behind the last row of the kind. -/
  row_eq : token.row = t.count kind + 1
  /-- The row fits into 24 bits. -/
  row_lt : token.row < 0x1000000
  /-- The token was not in use. -/
  unresolved_before : ∀ other, t.get? other token = none
  /-- The token resolves to the symbol. -/
  resolved : after.get? kind token = some symbol
  /-- The token resolves to nothing else. -/
  unresolved_elsewhere : ∀ other, other ≠ kind → after.get? other token = none
  /-- There is one more symbol of the kind. -/
  count_eq : ∀ other, after.count other = t.count other + if other = kind then 1 else 0
  /-- The type that declares the symbol has it as its last member; other types are as they were. -/
  type?_eq : ∀ place, place ≠ token → after.type? place =
    (t.type? place).map fun type =>
      if symbol.home kind = some place then { type with members := type.members ++ [token] }
      else type
  /-- The method that has the symbol as a parameter has it as the last one, and the accessors of the
      symbol belong to it; other methods are as they were. -/
  method?_eq : ∀ place, place ≠ token → after.method? place =
    (t.method? place).map fun method =>
      if symbol.owner kind = some place then
        { method with parameters := method.parameters ++ [token] }
      else if place ∈ symbol.accessors kind then { method with associated := some token }
      else method
  /-- All symbols of other kinds are as they were. -/
  get?_eq : ∀ other, other ≠ .type → other ≠ .method → ∀ place, place ≠ token →
    after.get? other place = t.get? other place

/-- Appending a symbol makes one more of its kind. -/
private theorem count_push {other : SymbolKind} :
    (t.push kind symbol).count other = t.count other + if other = kind then 1 else 0 := by
  by_cases heq : other = kind
  · subst heq
    simp [push, count]
  · simp [push, count, arena_setArena_other t _ (Ne.symm heq), heq]

/-- No symbol is both a parameter and something with accessors. -/
private theorem accessors_eq_nil_of_owner {place : Token} (h : symbol.owner kind = some place) :
    symbol.accessors kind = [] := by
  cases kind <;> first | rfl | cases h

/-- Registering a symbol changes the table as `Gains` says. -/
theorem Registers.gains (h : t.Registers kind symbol token) :
    t.Gains kind symbol token (t.registered kind symbol token) := by
  have htoken := h.token_eq
  obtain ⟨htable, hrow, hlt⟩ := parts_of_tokenAfter? htoken
  exact
    { table_eq := htable
      row_eq := hrow
      row_lt := hlt
      unresolved_before := get?_of_tokenAfter? htoken
      resolved := get?_registered_new htoken
      unresolved_elsewhere := by
        intro other hne
        -- The token has no place in the arena of another kind, whatever is stored there.
        have hindex := Token.index?_eq_none_of_ne (index?_of_tokenAfter? htoken) (Ne.symm hne)
        rw [get?, hindex, Option.bind_none]
      count_eq := by
        intro other
        rw [registered, count_push, owned, count_modifyAt, joined, count_modifyAt, count_linked]
      type?_eq := by
        intro place hne
        have hget : (t.registered kind symbol token).get? .type place = _ :=
          get?_registered_old htoken hne
        refine hget.trans ?_
        congr 1
        funext type
        dsimp only [linkedBack]
        split <;> rfl
      method?_eq := by
        intro place hne
        have hget : (t.registered kind symbol token).get? .method place = _ :=
          get?_registered_old htoken hne
        refine hget.trans ?_
        congr 1
        funext method
        dsimp only [linkedBack]
        split
        · next howner =>
          -- A parameter has no accessors, so only one of the two links back is made.
          rw [accessors_eq_nil_of_owner howner]
          rfl
        · split <;> rfl
      get?_eq := by
        intro other htype hmethod place hne
        -- Symbols that are neither types nor methods have no links back.
        have hself : linkedBack kind symbol token place other = id := by
          cases other <;> first | rfl | contradiction
        rw [get?_registered_old htoken hne, hself, Option.map_id]
        rfl }

end SymbolTable

namespace RegistrationCall

variable {t after : SymbolTable} {token : Token}

/-- A successful call, of whatever kind and in whatever table, registers its symbol under a token
    that was not in use, and changes nothing but the links back to it. -/
theorem gains_of_run {call : RegistrationCall} (h : call.run t = .ok token after) :
    ∃ kind symbol, call.symbol? t = some ⟨kind, symbol⟩ ∧ t.Gains kind symbol token after := by
  obtain ⟨kind, symbol, hsymbol, hregisters, rfl⟩ := registers_of_run h
  exact ⟨kind, symbol, hsymbol, hregisters.gains⟩

/-- A type with the accessors of a property to come. -/
def meterTable : SymbolTable where
  types := #[{ name := "Meter", kind := .structType,
               members := [.ofParts .method 1, .ofParts .method 2] }]
  methods := #[{ name := "get_Level", kind := .propertyGet,
                 containingType := some (.ofParts .type 1) },
               { name := "set_Level", kind := .propertySet,
                 containingType := some (.ofParts .type 1) }]

/-- The property that the accessors are for. -/
def levelProperty : PropertySymbol :=
  { name := "Level", getter := some (.ofParts .method 1), setter := some (.ofParts .method 2),
    containingType := some (.ofParts .type 1) }

/-- The type and the accessors when the property is there. -/
def meterTableAfter : SymbolTable where
  types := #[{ name := "Meter", kind := .structType,
               members := [.ofParts .method 1, .ofParts .method 2, .ofParts .property 1] }]
  methods := #[{ name := "get_Level", kind := .propertyGet,
                 containingType := some (.ofParts .type 1),
                 associated := some (.ofParts .property 1) },
               { name := "set_Level", kind := .propertySet,
                 containingType := some (.ofParts .type 1),
                 associated := some (.ofParts .property 1) }]
  properties := #[levelProperty]

/-- The property becomes a member of the type, and both accessors belong to it. -/
theorem gains_of_run_levelProperty :
    (addProperty levelProperty).run meterTable = .ok (.ofParts .property 1) meterTableAfter ∧
      meterTable.Gains .property levelProperty (.ofParts .property 1) meterTableAfter := by
  have hrun : (addProperty levelProperty).run meterTable =
      .ok (.ofParts .property 1) meterTableAfter := rfl
  obtain ⟨kind, symbol, hsymbol, hgains⟩ := gains_of_run hrun
  cases hsymbol
  exact ⟨hrun, hgains⟩

end RegistrationCall

end DefensiveCopy
