import DefensiveCopy.Proofs.FreshTokens

/-!
# Looking up a type by its name

A lookup by name finds the first type of the table that is declared with the name.  What matters
for it about a type is a single bit (`TypeSymbol.isDeclaredAs`), and the links that registration
fills in have no part in it.  So a lookup that succeeds keeps its answer while symbols are
registered, and one that fails finds the next type that is declared with the name.

## Key results

- `SymbolTable.resolves_of_findType?`: what is found is a type of the table
- `SymbolTable.findType?_modify`: edits that keep names keep the answer
- `SymbolTable.findType?_registered`: the first type that is declared with the name stays the answer
-/

namespace DefensiveCopy

/-- A lookup of the name may end at the type: it is neither constructed nor a type parameter. -/
def TypeSymbol.isDeclaredAs (namespaceName name : String) (type : TypeSymbol) : Bool :=
  type.namespaceName == namespaceName && type.name == name && type.definition.isNone &&
    type.kind != .typeParameter

/-- A symbol of any kind is declared as a type of the given name. -/
def Symbol.isDeclaredAs (namespaceName name : String) : (kind : SymbolKind) → Symbol kind → Bool
  | .type, symbol => TypeSymbol.isDeclaredAs namespaceName name symbol
  | .module, _ | .field, _ | .method, _ | .parameter, _ | .slot, _ | .event, _ | .property, _
  | .assembly, _ => false

namespace SymbolTable

variable {t : SymbolTable} {kind : SymbolKind} {symbol : Symbol kind} {token : Token}
  {namespaceName name : String}

/-- A lookup by name goes through the arena of the types in order. -/
private theorem findType?_eq :
    t.findType? namespaceName name =
      ((t.arena .type).findIdx? (TypeSymbol.isDeclaredAs namespaceName name)).bind
        (tokenAfter? .type) := rfl

/-- A lookup by name ends at a type of the table. -/
theorem resolves_of_findType? (h : t.findType? namespaceName name = some token) :
    t.resolves .type token := by
  rw [findType?_eq] at h
  obtain ⟨i, hfound, htoken⟩ := Option.bind_eq_some_iff.1 h
  obtain ⟨hlt, -⟩ := Array.findIdx?_eq_some_iff_getElem.1 hfound
  obtain ⟨hrow, rfl⟩ := tokenAfter?_eq_some_iff.1 htoken
  simp [resolves, get?, Token.index?_ofParts hrow, hlt]

/-- A lookup by name reads one bit of each type. -/
private theorem findType?_congr {other : SymbolTable}
    (h : (t.arena .type).map (TypeSymbol.isDeclaredAs namespaceName name) =
      (other.arena .type).map (TypeSymbol.isDeclaredAs namespaceName name)) :
    t.findType? namespaceName name = other.findType? namespaceName name := by
  have hbits (u : SymbolTable) :
      (u.arena .type).findIdx? (TypeSymbol.isDeclaredAs namespaceName name) =
        ((u.arena .type).map (TypeSymbol.isDeclaredAs namespaceName name)).findIdx? id := by
    rw [Array.findIdx?_map, Function.id_comp]
  rw [findType?_eq, findType?_eq, hbits, hbits, h]

/-- Symbols of other kinds make no difference to a lookup by name. -/
private theorem findType?_setArena_other (hne : kind ≠ .type) {records : Array (Symbol kind)} :
    (t.setArena kind records).findType? namespaceName name = t.findType? namespaceName name := by
  rw [findType?_eq, findType?_eq, arena_setArena_other t records hne]

/-- An edit that makes no difference to how a type is declared keeps the answer. -/
theorem findType?_modify {place : Token} {f : Symbol kind → Symbol kind}
    (h : ∀ found, (f found).isDeclaredAs namespaceName name kind =
      found.isDeclaredAs namespaceName name kind) :
    (t.modify kind place f).findType? namespaceName name = t.findType? namespaceName name := by
  unfold modify
  split
  · next i hi =>
    by_cases hne : kind = .type
    · subst hne
      apply findType?_congr
      rw [arena_setArena_same]
      -- At the edited place the bit is the same by assumption, elsewhere the type is.
      apply Array.ext_getElem?
      intro j
      rw [Array.getElem?_map, Array.getElem?_map, Array.getElem?_modify]
      split
      · rw [Option.map_map]
        exact congrArg (Option.map · _) (funext h)
      · rfl
    · exact findType?_setArena_other hne
  · rfl

/-- A member that a type lists makes no difference to a lookup by name. -/
private theorem findType?_joined {type : Option Token} {member : Token} :
    (t.joined type member).findType? namespaceName name = t.findType? namespaceName name := by
  cases type
  · rfl
  · exact findType?_modify fun _ => rfl

/-- A parameter that a method lists makes no difference to a lookup by name. -/
private theorem findType?_owned {method : Option Token} {parameter : Token} :
    (t.owned method parameter).findType? namespaceName name =
      t.findType? namespaceName name := by
  cases method
  · rfl
  · exact findType?_modify fun _ => rfl

/-- Accessors that learn their owner make no difference to a lookup by name. -/
private theorem findType?_linked {accessors : List Token} {owner : Token} :
    (t.linked accessors owner).findType? namespaceName name = t.findType? namespaceName name := by
  unfold linked
  induction accessors generalizing t with
  | nil => rfl
  | cons accessor rest ih =>
    rw [List.foldl_cons, ih]
    exact findType?_modify fun _ => rfl

/-- A type that is stored last is found if no other type is. -/
private theorem findType?_push (h : tokenAfter? kind (t.count kind) = some token) :
    (t.push kind symbol).findType? namespaceName name =
      (t.findType? namespaceName name).or
        (if symbol.isDeclaredAs namespaceName name kind then some token else none) := by
  by_cases hne : kind = .type
  · subst hne
    rw [findType?_eq, findType?_eq, push, arena_setArena_same, Array.findIdx?_push]
    cases hfound : (t.arena .type).findIdx? (TypeSymbol.isDeclaredAs namespaceName name) with
    | none =>
      rw [Option.none_or, Option.bind_none, Option.none_or]
      by_cases hdeclared : TypeSymbol.isDeclaredAs namespaceName name symbol
      · simpa [Symbol.isDeclaredAs, hdeclared, count] using h
      · simp [Symbol.isDeclaredAs, hdeclared]
    | some i =>
      -- The row that is found lies before the new one, so a token has room for it.
      obtain ⟨hlt, -⟩ := Array.findIdx?_eq_some_iff_getElem.1 hfound
      have hrow : i + 1 < Token.rowLimit :=
        Nat.lt_trans (Nat.add_lt_add_right hlt 1) (tokenAfter?_eq_some_iff.1 h).1
      rw [Option.some_or, Option.bind_some, tokenAfter?_eq_some_iff.2 ⟨hrow, rfl⟩, Option.some_or]
  · have hnot : symbol.isDeclaredAs namespaceName name kind = false := by
      cases kind <;> first | rfl | contradiction
    rw [push, findType?_setArena_other hne, hnot, if_neg Bool.false_ne_true, Option.or_none]

/-- After a registration, a lookup finds what it found before; a lookup that found nothing finds the
    new symbol if it is a type declared with the name. -/
theorem findType?_registered (h : tokenAfter? kind (t.count kind) = some token) :
    (t.registered kind symbol token).findType? namespaceName name =
      (t.findType? namespaceName name).or
        (if symbol.isDeclaredAs namespaceName name kind then some token else none) := by
  have hcount : (((t.linked (symbol.accessors kind) token).joined (symbol.home kind) token).owned
      (symbol.owner kind) token).count kind = t.count kind := by
    rw [owned, count_modifyAt, joined, count_modifyAt, count_linked]
  rw [registered, findType?_push (hcount.symm ▸ h), findType?_owned, findType?_joined,
    findType?_linked]

end SymbolTable

end DefensiveCopy
