import DefensiveCopy.Proofs.TypeLookup

/-!
# Extending a table

Installing a library is to add symbols to a table and to leave the ones that are there alone.  Here
this is said about any two tables (`SymbolTable.Extends`): every symbol of the start is as it was,
and the tokens that are stored in the other symbols were added along with them.  All fields of a
symbol count (`Symbol.stored`), also the ones that registration neither looks up nor keeps.

There is one exception.  The parameter of a comparison may be of the first object type that the
table had at the start (`SymbolTable.Borrows`).

Registration extends a table if the symbols that learn of the new one (`Symbol.informed`) are new
themselves.

## Key results

- `SymbolTable.Extends.registered`: registering a symbol
- `SymbolTable.Extends.modifyType`: editing a type
-/

namespace DefensiveCopy

/-! ## What is stored in a symbol -/

namespace Symbol

/-- All tokens that are stored in a symbol, field by field. -/
def stored : (kind : SymbolKind) → Symbol kind → List Token
  | .module, (symbol : ModuleSymbol) => symbol.assembly.toList ++ symbol.attributes
  | .type, (symbol : TypeSymbol) =>
    symbol.base.toList ++ symbol.containingType.toList ++ symbol.module.toList ++
      symbol.interfaces ++ symbol.members ++ symbol.typeArguments ++ symbol.definition.toList ++
      (symbol.parameterInfo.toList.flatMap fun info =>
        info.owner.toList ++ info.constraintTypes) ++
      symbol.pointee.toList ++ symbol.attributes
  | .field, (symbol : FieldSymbol) =>
    symbol.type.toList ++ symbol.containingType.toList ++ symbol.associated.toList ++
      symbol.attributes
  | .method, (symbol : MethodSymbol) =>
    symbol.returnType.toList ++ symbol.parameters ++ symbol.containingType.toList ++
      symbol.containingMethod.toList ++ symbol.associated.toList ++ symbol.overridden.toList ++
      symbol.implements ++ symbol.definition.toList ++ symbol.attributes
  | .parameter, (symbol : ParameterSymbol) =>
    symbol.type.toList ++ symbol.containingMethod.toList ++ symbol.attributes
  | .slot, (symbol : SlotSymbol) => symbol.type.toList
  | .event, (symbol : EventSymbol) =>
    symbol.type.toList ++ symbol.adder.toList ++ symbol.remover.toList ++
      symbol.containingType.toList ++ symbol.attributes
  | .property, (symbol : PropertySymbol) =>
    symbol.type.toList ++ symbol.getter.toList ++ symbol.setter.toList ++
      symbol.containingType.toList ++ symbol.attributes
  | .assembly, (symbol : AssemblySymbol) => symbol.attributes

/-- The symbols that learn of a symbol when it is registered. -/
def informed (kind : SymbolKind) (symbol : Symbol kind) : List (SymbolKind × Token) :=
  (symbol.home kind).toList.map (.type, ·) ++
    ((symbol.owner kind).toList ++ symbol.accessors kind).map (.method, ·)

/-- Only symbols that are named in links learn of a symbol. -/
theorem informed_subset_links {kind : SymbolKind} (symbol : Symbol kind) :
    informed kind symbol ⊆ links kind symbol := by
  intro link hlink
  cases kind <;> grind [informed, links, home, owner, accessors]

end Symbol

namespace SymbolTable

section

variable {kind : SymbolKind} {symbol : Symbol kind} {token place : Token} {other : SymbolKind}

/-- Links back change no name. -/
theorem name_linkedBack (found : Symbol other) :
    (linkedBack kind symbol token place other found).name = found.name := by
  cases other <;> rfl

/-- Links back move no symbol to another type. -/
theorem home_linkedBack (found : Symbol other) :
    (linkedBack kind symbol token place other found).home other = found.home other := by
  cases other <;> rfl

/-- A symbol that does not learn of a registration stays as it is. -/
private theorem linkedBack_of_not_informed (h : (other, place) ∉ symbol.informed kind)
    (found : Symbol other) : linkedBack kind symbol token place other found = found := by
  cases other with
  | type =>
    have hhome : symbol.home kind ≠ some place := by
      intro heq
      simp [Symbol.informed, heq] at h
    simp [linkedBack, hhome]
  | method =>
    -- A method may be informed as an owner or as an accessor.
    have howner : symbol.owner kind ≠ some place := by
      intro heq
      simp [Symbol.informed, heq] at h
    have haccessors : place ∉ symbol.accessors kind := by
      intro hmem
      simp [Symbol.informed, hmem] at h
    simp [linkedBack, howner, haccessors]
  | module | field | parameter | slot | event | property | assembly => rfl

/-- A registration adds nothing but the new token to what is stored in a symbol. -/
private theorem mem_stored_linkedBack {found : Symbol other} {stored : Token}
    (h : stored ∈ (linkedBack kind symbol token place other found).stored other) :
    stored ∈ found.stored other ∨ stored = token := by
  cases other with
  | type =>
    simp only [linkedBack, Symbol.stored, List.mem_append] at h ⊢
    split at h <;> grind
  | method =>
    simp only [linkedBack, Symbol.stored, List.mem_append] at h ⊢
    -- A method may learn its owner and a parameter, which are both the new token.
    split at h <;> split at h <;> grind
  | module | field | parameter | slot | event | property | assembly => exact .inl h

end

/-! ## Extending a table -/

section

variable {start t : SymbolTable} {kind : SymbolKind} {symbol : Symbol kind} {token : Token}

/-- The token resolves now and did not resolve at the start. -/
def Added (start t : SymbolTable) (token : Token) : Prop :=
  ∃ kind, t.resolves kind token ∧ ¬start.resolves kind token

/-- What is stored under the token is the first object type of the start, as the type of a parameter
    of a comparison. -/
def Borrows (start t : SymbolTable) (token stored : Token) : Prop :=
  start.findType? "System" "Object" = some stored ∧
    ∃ (parameter : ParameterSymbol) (method : Token) (owner : MethodSymbol),
      t.parameter? token = some parameter ∧ parameter.type = some stored ∧
        parameter.containingMethod = some method ∧ t.method? method = some owner ∧
          owner.name = "Equals"

/-- The table has all symbols of the start unchanged, and what is stored in its other symbols are
    tokens that were added as well, or borrowed. -/
structure Extends (start t : SymbolTable) : Prop where
  unchanged : ∀ {kind : SymbolKind} {token : Token} {symbol : Symbol kind},
    start.get? kind token = some symbol → t.get? kind token = some symbol
  closed : ∀ {kind : SymbolKind} {token : Token} {symbol : Symbol kind},
    t.get? kind token = some symbol → ¬start.resolves kind token →
      ∀ stored ∈ symbol.stored kind, Added start t stored ∨ Borrows start t token stored

/-- A table extends itself. -/
theorem extends_refl : Extends start start where
  unchanged h := h
  closed h hnew := absurd (resolves_of_get? h) hnew

/-- What resolved at the start still resolves. -/
theorem Extends.resolves (h : Extends start t) (hstart : start.resolves kind token) :
    t.resolves kind token := by
  obtain ⟨symbol, hget⟩ := Option.isSome_iff_exists.1 hstart
  exact resolves_of_get? (h.unchanged hget)

/-- The next token of a table is none of the start. -/
theorem Extends.not_resolves_next (h : Extends start t)
    (htoken : tokenAfter? kind (t.count kind) = some token) (other : SymbolKind) :
    ¬start.resolves other token := by
  intro hstart
  have hold := h.resolves hstart
  simp [SymbolTable.resolves, get?_of_tokenAfter? htoken] at hold

/-- What was added stays added. -/
theorem Added.registered {stored : Token} (h : Added start t stored)
    (htoken : tokenAfter? kind (t.count kind) = some token) :
    Added start (t.registered kind symbol token) stored := by
  obtain ⟨other, hresolves, hnew⟩ := h
  exact ⟨other, resolves_registered htoken hresolves, hnew⟩

/-- What was borrowed stays borrowed: no registration changes the parameter or the name of its
    method. -/
theorem Borrows.registered {place stored : Token} (h : Borrows start t place stored)
    (htoken : tokenAfter? kind (t.count kind) = some token) :
    Borrows start (t.registered kind symbol token) place stored := by
  obtain ⟨hfirst, parameter, method, owner, hparameter, htype, hmethod, howner, hname⟩ := h
  exact ⟨hfirst, parameter, method, _, get?_registered_of_get? htoken hparameter, htype, hmethod,
    get?_registered_of_get? htoken howner, hname⟩

/-- Registering a symbol extends the table, if only new symbols learn of it and it stores nothing
    else. -/
theorem Extends.registered (h : Extends start t) (hregisters : t.Registers kind symbol token)
    (hinformed : ∀ link ∈ symbol.informed kind, ¬start.resolves link.1 link.2)
    (hstored : ∀ stored ∈ symbol.stored kind,
      Added start t stored ∨ Borrows start (t.registered kind symbol token) token stored) :
    Extends start (t.registered kind symbol token) := by
  have htoken := hregisters.token_eq
  constructor
  · intro other place found hfound
    -- A symbol of the start does not learn of the new one.
    have hsame : (other, place) ∉ symbol.informed kind := fun hmem =>
      hinformed _ hmem (resolves_of_get? hfound)
    rw [get?_registered_of_get? htoken (h.unchanged hfound), linkedBack_of_not_informed hsame]
  · intro other place found hfound hnew stored hmem
    rcases get?_registered_cases htoken hfound with ⟨rfl, rfl, rfl⟩ | ⟨old, -, hold, rfl⟩
    · exact (hstored stored hmem).imp (·.registered htoken) id
    · rcases mem_stored_linkedBack hmem with hmem | rfl
      · exact (h.closed hold hnew stored hmem).imp (·.registered htoken) (·.registered htoken)
      · -- The only token that a symbol may have gained is the new one.
        exact .inl ⟨kind, resolves_of_get? (get?_registered_new htoken),
          h.not_resolves_next htoken kind⟩

/-- Editing a new type extends the table, if the edit brings in new tokens only. -/
theorem Extends.modifyType {type : Token} {f : TypeSymbol → TypeSymbol} (h : Extends start t)
    (hnew : ¬start.resolves .type type)
    (hstored : ∀ (symbol : TypeSymbol), ∀ stored ∈ Symbol.stored .type (f symbol),
      stored ∈ Symbol.stored .type symbol ∨ Added start t stored) :
    Extends start (t.modify .type type f) := by
  have hadded {stored : Token} (hstored : Added start t stored) :
      Added start (t.modify .type type f) stored := by
    obtain ⟨kind, hresolves, hnot⟩ := hstored
    exact ⟨kind, by rwa [resolves_modify], hnot⟩
  -- A borrowed type is read off a parameter and its method, which no edit of a type changes.
  have hborrows {place stored : Token} (hborrows : Borrows start t place stored) :
      Borrows start (t.modify .type type f) place stored := by
    obtain ⟨hfirst, parameter, method, owner, hparameter, htype, hmethod, howner, hname⟩ := hborrows
    exact ⟨hfirst, parameter, method, owner,
      (get?_modify_other _ _ _ (by decide) _).trans hparameter, htype, hmethod,
      (get?_modify_other _ _ _ (by decide) _).trans howner, hname⟩
  constructor
  · intro kind token symbol hget
    by_cases hkind : .type = kind
    · subst hkind
      -- The type was added, so it is none of the start.
      have hne : token ≠ type := by
        rintro rfl
        exact hnew (resolves_of_get? hget)
      rw [get?_modify_same, if_neg hne]
      exact h.unchanged hget
    · rw [get?_modify_other _ _ _ hkind]
      exact h.unchanged hget
  · intro kind token symbol hget hnot stored hmem
    by_cases hkind : .type = kind
    · subst hkind
      rw [get?_modify_same] at hget
      split at hget
      · obtain ⟨old, hold, rfl⟩ := Option.map_eq_some_iff.1 hget
        -- What the edited type stores was stored before, or is added.
        rcases hstored old stored hmem with hmem | hnew
        · exact (h.closed hold hnot stored hmem).imp hadded hborrows
        · exact .inl (hadded hnew)
      · exact (h.closed hget hnot stored hmem).imp hadded hborrows
    · rw [get?_modify_other _ _ _ hkind] at hget
      exact (h.closed hget hnot stored hmem).imp hadded hborrows

end

end SymbolTable

end DefensiveCopy
