import DefensiveCopy.CoreLibrary
import DefensiveCopy.Proofs.Registration

/-!
# Calls that register symbols

The eleven calls that register one symbol, as data (`RegistrationCall`), and what they have in
common.  Each call has a symbol to register, which names other symbols in its links.  When the call
succeeds, all links resolve, the symbol gets the next token of its kind, and the table is the old
one with the symbol stored and with links back to it (`SymbolTable.registered`): the type that
declares it has one member more, the method that it is a parameter of has one parameter more, and
its accessors know what they belong to.

What a lookup finds after a call is said once for all kinds of symbols
(`SymbolTable.get?_registered_cases`).

A call that finds all symbols that it names has nothing left to fail for but a lack of rows, or of
ordinals for a parameter (`RegistrationCall.run_eq_register`).

## Key results

- `RegistrationCall.registers_of_run`: a successful call registers its symbol
- `RegistrationCall.run_eq_register`: a call that finds what it names registers its symbol
- `SymbolTable.get?_registered_new`, `SymbolTable.get?_registered_old`,
  `SymbolTable.get?_registered_of_get?`: lookups after a call
- `SymbolTable.Reachable`: the tables that sequences of calls lead to
-/

namespace DefensiveCopy

/-! ## The links of a symbol -/

namespace Symbol

/-- The type that lists the symbol as a member. -/
def home : (kind : SymbolKind) → Symbol kind → Option Token
  | .method, symbol => MethodSymbol.containingType symbol
  | .field, symbol => FieldSymbol.containingType symbol
  | .property, symbol => PropertySymbol.containingType symbol
  | .event, symbol => EventSymbol.containingType symbol
  | .module, _ | .type, _ | .parameter, _ | .slot, _ | .assembly, _ => none

/-- The method that lists the symbol as a parameter. -/
def owner : (kind : SymbolKind) → Symbol kind → Option Token
  | .parameter, symbol => ParameterSymbol.containingMethod symbol
  | .method, _ | .field, _ | .property, _ | .event, _ | .module, _ | .type, _ | .slot, _
  | .assembly, _ => none

/-- The methods that are told that they belong to the symbol. -/
def accessors : (kind : SymbolKind) → Symbol kind → List Token
  | .property, symbol =>
    (PropertySymbol.getter symbol).toList ++ (PropertySymbol.setter symbol).toList
  | .event, symbol => (EventSymbol.adder symbol).toList ++ (EventSymbol.remover symbol).toList
  | .method, _ | .field, _ | .parameter, _ | .module, _ | .type, _ | .slot, _ | .assembly, _ => []

/-- The position that a symbol has in the list it stands in, if it says one. -/
def ordinal? : (kind : SymbolKind) → Symbol kind → Option Nat
  | .parameter, symbol => some (ParameterSymbol.ordinal symbol)
  | .module, _ | .type, _ | .field, _ | .method, _ | .slot, _ | .event, _ | .property, _
  | .assembly, _ => none

/-- The symbols that a symbol names by its own links, each with the kind it must have. -/
def links : (kind : SymbolKind) → Symbol kind → List (SymbolKind × Token)
  | .module, symbol => (ModuleSymbol.assembly symbol).toList.map (.assembly, ·)
  | .type, (symbol : TypeSymbol) =>
    (symbol.base.toList ++ symbol.containingType.toList ++ symbol.definition.toList).map
      (.type, ·) ++ symbol.module.toList.map (.module, ·)
  | .field, (symbol : FieldSymbol) =>
    -- A backing field may belong to a property or to an event.
    (symbol.type.toList ++ symbol.containingType.toList).map (.type, ·) ++
      symbol.associated.toList.map fun token => (SymbolTable.associatedKind token, token)
  | .method, (symbol : MethodSymbol) =>
    (symbol.returnType.toList ++ symbol.containingType.toList).map (.type, ·) ++
      (symbol.containingMethod.toList ++ symbol.overridden.toList ++ symbol.definition.toList ++
        symbol.implements).map (.method, ·)
  | .parameter, (symbol : ParameterSymbol) =>
    symbol.type.toList.map (.type, ·) ++ symbol.containingMethod.toList.map (.method, ·)
  | .slot, symbol => (SlotSymbol.type symbol).toList.map (.type, ·)
  | .event, (symbol : EventSymbol) =>
    (symbol.type.toList ++ symbol.containingType.toList).map (.type, ·) ++
      (symbol.adder.toList ++ symbol.remover.toList).map (.method, ·)
  | .property, (symbol : PropertySymbol) =>
    (symbol.type.toList ++ symbol.containingType.toList).map (.type, ·) ++
      (symbol.getter.toList ++ symbol.setter.toList).map (.method, ·)
  | .assembly, _ => []

end Symbol

/-! ## Registering a symbol -/

namespace SymbolTable

/-- The table with a parameter appended to its method, if it has one. -/
def owned (t : SymbolTable) (method : Option Token) (parameter : Token) : SymbolTable :=
  t.modifyAt .method method fun symbol =>
    { symbol with parameters := symbol.parameters ++ [parameter] }

/-- The table with a symbol stored under the given token and linked back to. -/
def registered (t : SymbolTable) (kind : SymbolKind) (symbol : Symbol kind) (token : Token) :
    SymbolTable :=
  (((t.linked (symbol.accessors kind) token).joined (symbol.home kind) token).owned
    (symbol.owner kind) token).push kind symbol

/-- Registers a symbol under the next token of its kind, while rows last. -/
def register (kind : SymbolKind) (symbol : Symbol kind) : Registration Token := fun t =>
  match tokenAfter? kind (t.count kind) with
  | some token => .ok token (t.registered kind symbol token)
  | none => .error (.tableFull kind) t

/-- The symbol may be registered under the token: the token is the next one of its kind and all
    links of the symbol resolve. -/
structure Registers (t : SymbolTable) (kind : SymbolKind) (symbol : Symbol kind) (token : Token) :
    Prop where
  token_eq : tokenAfter? kind (t.count kind) = some token
  links_resolve : ∀ link ∈ symbol.links kind, t.resolves link.1 link.2

/-! ## Lookups after a registration -/

variable {t : SymbolTable} {kind : SymbolKind} {symbol : Symbol kind} {token : Token}

/-- What registering a symbol under a token makes of the record at some place: the links back are
    filled in and all else stays. -/
def linkedBack (kind : SymbolKind) (symbol : Symbol kind) (token place : Token) :
    (other : SymbolKind) → Symbol other → Symbol other
  | .type, (found : TypeSymbol) =>
    { found with
      members := if symbol.home kind = some place then found.members ++ [token]
        else found.members }
  | .method, (found : MethodSymbol) =>
    { found with
      associated := if place ∈ symbol.accessors kind then some token else found.associated
      parameters := if symbol.owner kind = some place then found.parameters ++ [token]
        else found.parameters }
  | .module, found => found
  | .field, found => found
  | .parameter, found => found
  | .slot, found => found
  | .event, found => found
  | .property, found => found
  | .assembly, found => found

/-- An edit changes no number of symbols. -/
@[simp] theorem count_modify {other : SymbolKind} {edited : Token}
    {f : Symbol other → Symbol other} :
    (t.modify other edited f).count kind = t.count kind := by
  unfold modify
  split
  · -- An edit replaces one arena by one of the same size.
    by_cases hne : other = kind
    · subst hne
      simp [count]
    · simp [count, arena_setArena_other t _ hne]
  · rfl

/-- Linking accessors changes no number of symbols. -/
theorem count_linked {accessors : List Token} {owner : Token} :
    (t.linked accessors owner).count kind = t.count kind := by
  unfold linked
  induction accessors generalizing t with
  | nil => rfl
  | cons accessor rest ih => rw [List.foldl_cons, ih, count_modify]

/-- An edit at an optional place changes no number of symbols. -/
theorem count_modifyAt {other : SymbolKind} {place : Option Token}
    {f : Symbol other → Symbol other} : (t.modifyAt other place f).count kind = t.count kind := by
  cases place
  · rfl
  · exact count_modify

/-- Methods that are linked learn their owner; the others stay as they are. -/
theorem get?_linked_method {accessors : List Token} {owner place : Token} :
    (t.linked accessors owner).get? .method place =
      (t.get? .method place).map fun (found : MethodSymbol) =>
        { found with
          associated := if place ∈ accessors then some owner else found.associated } := by
  unfold linked
  induction accessors generalizing t with
  | nil => simp
  | cons accessor rest ih =>
    -- An accessor that is named twice is linked twice, to the same owner.
    rw [List.foldl_cons, ih, get?_modify_same]
    by_cases hplace : place = accessor
    · subst hplace
      simp [Function.comp_def]
    · simp [hplace]

/-- Linking accessors changes methods only. -/
theorem get?_linked_other {other : SymbolKind} (hne : other ≠ .method) {accessors : List Token}
    {owner place : Token} : (t.linked accessors owner).get? other place = t.get? other place := by
  unfold linked
  induction accessors generalizing t with
  | nil => rfl
  | cons accessor rest ih => rw [List.foldl_cons, ih, get?_modify_other _ _ _ hne.symm]

/-- An edit at an optional place changes the symbol there, if there is one. -/
private theorem get?_modifyAt_same {edited : Option Token} {f : Symbol kind → Symbol kind}
    {place : Token} :
    (t.modifyAt kind edited f).get? kind place =
      (t.get? kind place).map fun found => if edited = some place then f found else found := by
  cases edited with
  | none => simp [modifyAt]
  | some token =>
    rw [modifyAt, get?_modify_same]
    by_cases hplace : place = token
    · subst hplace
      simp
    · simp [hplace, Ne.symm hplace]

/-- An edit at an optional place changes no symbol of another kind. -/
private theorem get?_modifyAt_other {other : SymbolKind} (hne : other ≠ kind)
    {edited : Option Token}
    {f : Symbol kind → Symbol kind} {place : Token} :
    (t.modifyAt kind edited f).get? other place = t.get? other place := by
  cases edited
  · rfl
  · exact get?_modify_other _ _ _ hne.symm _

/-- Before the symbol is stored, every record has its links back. -/
private theorem get?_before_push {other : SymbolKind} {place : Token} :
    (((t.linked (symbol.accessors kind) token).joined (symbol.home kind) token).owned
      (symbol.owner kind) token).get? other place =
        (t.get? other place).map (linkedBack kind symbol token place other) := by
  -- Methods are told of two things, types of one, and all other symbols of none.
  by_cases hmethod : other = .method
  · subst hmethod
    rw [owned, get?_modifyAt_same, joined, get?_modifyAt_other (by decide), get?_linked_method,
      Option.map_map]
    congr 1
    funext found
    dsimp only [Function.comp, linkedBack]
    split <;> rfl
  · rw [owned, get?_modifyAt_other hmethod]
    by_cases htype : other = .type
    · subst htype
      rw [joined, get?_modifyAt_same, get?_linked_other (by decide)]
      congr 1
      funext found
      dsimp only [linkedBack]
      split <;> rfl
    · -- What is neither a method nor a type is told of nothing.
      have hself : linkedBack kind symbol token place other = id := by
        cases other <;> first | contradiction | rfl
      rw [joined, get?_modifyAt_other htype, get?_linked_other hmethod, hself, Option.map_id]
      rfl

section

variable (h : tokenAfter? kind (t.count kind) = some token)

include h

/-- The next token of a kind points behind the last record of the kind. -/
theorem index?_of_tokenAfter? : token.index? kind = some (t.count kind) := by
  unfold tokenAfter? at h
  split at h
  · next hlt =>
    cases h
    exact Token.index?_ofParts hlt
  · cases h

/-- The next token of a kind is of that kind. -/
theorem kind?_of_tokenAfter? : token.kind? = some kind := by
  rw [Token.eq_ofParts_of_index? (index?_of_tokenAfter? h), Token.kind?_ofParts]

/-- The next token of a kind resolves to nothing. -/
theorem get?_of_tokenAfter? (other : SymbolKind) : t.get? other token = none := by
  have hindex := index?_of_tokenAfter? h
  by_cases hne : kind = other
  · subst hne
    simp [get?, hindex, count]
  · simp [get?, Token.index?_eq_none_of_ne hindex hne]

/-- After a registration, the token resolves to the symbol. -/
theorem get?_registered_new : (t.registered kind symbol token).get? kind token = some symbol := by
  have hindex := index?_of_tokenAfter? h
  rw [registered, get?_push_same, owned, count_modifyAt, joined, count_modifyAt, count_linked,
    if_pos hindex]

/-- After a registration, every other token resolves to what it did, with its links back. -/
theorem get?_registered_old {other : SymbolKind} {place : Token} (hne : place ≠ token) :
    (t.registered kind symbol token).get? other place =
      (t.get? other place).map (linkedBack kind symbol token place other) := by
  have hindex := index?_of_tokenAfter? h
  -- Another token has another place, if it has one among the symbols of the kind.
  have hplace : place.index? kind ≠ some (t.count kind) := fun hsame =>
    hne ((Token.eq_ofParts_of_index? hsame).trans (Token.eq_ofParts_of_index? hindex).symm)
  by_cases hkind : kind = other
  · subst hkind
    rw [registered, get?_push_same, owned, count_modifyAt, joined, count_modifyAt, count_linked,
      if_neg hplace]
    exact get?_before_push
  · rw [registered, get?_push_other _ _ hkind]
    exact get?_before_push

/-- What is found after a registration is the new symbol, or was there before up to links back. -/
theorem get?_registered_cases {other : SymbolKind} {place : Token} {found : Symbol other}
    (hfound : (t.registered kind symbol token).get? other place = some found) :
    (place = token ∧ ∃ heq : kind = other, heq ▸ symbol = found) ∨
      ∃ old, place ≠ token ∧ t.get? other place = some old ∧
        found = linkedBack kind symbol token place other old := by
  by_cases hplace : place = token
  · subst hplace
    by_cases hkind : kind = other
    · subst hkind
      rw [get?_registered_new h] at hfound
      exact .inl ⟨rfl, rfl, Option.some.inj hfound⟩
    · -- A token resolves in the table of its own kind only.
      have hnone := Token.index?_eq_none_of_ne (index?_of_tokenAfter? h) hkind
      simp [get?, hnone] at hfound
  · rw [get?_registered_old h hplace] at hfound
    obtain ⟨old, hold, heq⟩ := Option.map_eq_some_iff.1 hfound
    exact .inr ⟨old, hplace, hold, heq.symm⟩

/-- A symbol that was there is still found after a registration, with its links back. -/
theorem get?_registered_of_get? {other : SymbolKind} {place : Token} {found : Symbol other}
    (hfound : t.get? other place = some found) :
    (t.registered kind symbol token).get? other place =
      some (linkedBack kind symbol token place other found) := by
  -- What resolves is not the new token, which did not.
  have hne : place ≠ token := by
    rintro rfl
    cases hfound.symm.trans (get?_of_tokenAfter? h other)
  rw [get?_registered_old h hne, hfound, Option.map_some]

/-- A registration makes no token stop resolving. -/
theorem resolves_registered {other : SymbolKind} {place : Token} (hplace : t.resolves other place) :
    (t.registered kind symbol token).resolves other place := by
  obtain ⟨found, hfound⟩ := Option.isSome_iff_exists.1 hplace
  exact resolves_of_get? (get?_registered_of_get? h hfound)

end

end SymbolTable

/-- A call that registers one symbol. -/
inductive RegistrationCall where
  | addAssembly (assembly : AssemblySymbol)
  | addModule (module : ModuleSymbol)
  | addType (type : TypeSymbol)
  | construct (definition : Token) (typeArguments : List Token)
  | nullableOf (core : CoreLibrary) (underlying : Token)
  | addMethod (method : MethodSymbol)
  | addParameter (method : Token) (parameter : ParameterSymbol)
  | addField (field : FieldSymbol)
  | addProperty (property : PropertySymbol)
  | addEvent (event : EventSymbol)
  | addSlot (slot : SlotSymbol)

namespace RegistrationCall

open SymbolTable

/-- Makes the call. -/
def run : RegistrationCall → Registration Token
  | .addAssembly assembly => SymbolTable.addAssembly assembly
  | .addModule module => SymbolTable.addModule module
  | .addType type => SymbolTable.addType type
  | .construct definition typeArguments => SymbolTable.construct definition typeArguments
  | .nullableOf core underlying => core.nullableOf underlying
  | .addMethod method => SymbolTable.addMethod method
  | .addParameter method parameter => SymbolTable.addParameter method parameter
  | .addField field => SymbolTable.addField field
  | .addProperty property => SymbolTable.addProperty property
  | .addEvent event => SymbolTable.addEvent event
  | .addSlot slot => SymbolTable.addSlot slot

/-- The symbol that a call registers in a table; a constructed type takes after its definition, a
    parameter is numbered by its method. -/
def symbol? (t : SymbolTable) : RegistrationCall → Option ((kind : SymbolKind) × Symbol kind)
  | .addAssembly assembly => some ⟨.assembly, assembly⟩
  | .addModule module => some ⟨.module, module⟩
  | .addType type => some ⟨.type, type⟩
  | .construct definition typeArguments =>
    (t.type? definition).map fun symbol => ⟨.type, constructed definition symbol typeArguments⟩
  | .nullableOf core underlying =>
    (t.type? core.nullable).map fun symbol => ⟨.type, constructed core.nullable symbol [underlying]⟩
  | .addMethod method => some ⟨.method, method⟩
  | .addParameter method parameter =>
    -- Whatever ordinal and method the caller wrote into the parameter are overwritten.
    (t.method? method).map fun owner =>
      ⟨.parameter,
        { parameter with ordinal := owner.parameters.length, containingMethod := some method }⟩
  | .addField field => some ⟨.field, field⟩
  | .addProperty property => some ⟨.property, property⟩
  | .addEvent event => some ⟨.event, event⟩
  | .addSlot slot => some ⟨.slot, slot⟩

/-! ## Successful calls -/

variable {t after : SymbolTable} {token : Token}

/-- An assembly that is added is registered. -/
private theorem registers_of_addAssembly {assembly : AssemblySymbol}
    (h : SymbolTable.addAssembly assembly t = .ok token after) :
    t.Registers .assembly assembly token ∧ after = t.registered .assembly assembly token := by
  simp only [SymbolTable.addAssembly, nextToken_bind_eq_ok, store_bind_eq_ok] at h
  obtain ⟨_, htoken, rfl, rfl⟩ := h
  exact ⟨⟨htoken, by simp [Symbol.links]⟩, rfl⟩

/-- A module that is added is registered; its assembly was looked up. -/
private theorem registers_of_addModule {module : ModuleSymbol}
    (h : SymbolTable.addModule module t = .ok token after) :
    t.Registers .module module token ∧ after = t.registered .module module token := by
  simp only [SymbolTable.addModule, requireAll_bind_eq_ok, nextToken_bind_eq_ok,
    store_bind_eq_ok] at h
  obtain ⟨hassembly, _, htoken, rfl, rfl⟩ := h
  refine ⟨⟨htoken, ?_⟩, rfl⟩
  simpa [Symbol.links] using hassembly

/-- A type that is added is registered; the types and the module that it names were looked up. -/
theorem registers_of_addType {type : TypeSymbol}
    (h : SymbolTable.addType type t = .ok token after) :
    t.Registers .type type token ∧ after = t.registered .type type token := by
  simp only [SymbolTable.addType, requireAll_bind_eq_ok, nextToken_bind_eq_ok,
    store_bind_eq_ok] at h
  obtain ⟨htypes, hmodule, _, htoken, rfl, rfl⟩ := h
  refine ⟨⟨htoken, ?_⟩, rfl⟩
  simp only [Symbol.links, List.forall_mem_append, List.forall_mem_map] at htypes ⊢
  exact ⟨htypes, hmodule⟩

/-- A method that is added is registered; its containing type was looked up when it was listed
    there. -/
private theorem registers_of_addMethod {method : MethodSymbol}
    (h : SymbolTable.addMethod method t = .ok token after) :
    t.Registers .method method token ∧ after = t.registered .method method token := by
  simp only [SymbolTable.addMethod, requireAll_bind_eq_ok, nextToken_bind_eq_ok,
    joinType_bind_eq_ok, store_bind_eq_ok] at h
  obtain ⟨hreturn, hmethods, himplements, _, htoken, hhome, rfl, rfl⟩ := h
  refine ⟨⟨htoken, ?_⟩, rfl⟩
  simp only [Symbol.links, List.forall_mem_append, List.forall_mem_map] at hmethods ⊢
  exact ⟨⟨hreturn, by simpa using hhome⟩, hmethods, himplements⟩

/-- Constructing a type from a definition that resolves is registering the constructed type. -/
theorem addType_of_construct {definition : Token} {typeArguments : List Token}
    (h : SymbolTable.construct definition typeArguments t = .ok token after) :
    ∃ symbol, t.type? definition = some symbol ∧
      SymbolTable.addType (constructed definition symbol typeArguments) t = .ok token after := by
  simp only [SymbolTable.construct, requireAll_bind_eq_ok, get_bind] at h
  obtain ⟨-, h⟩ := h
  cases hsymbol : t.type? definition with
  | none =>
    rw [hsymbol] at h
    exact absurd h throw_ne_ok
  | some symbol =>
    rw [hsymbol] at h
    exact ⟨symbol, rfl, h⟩

/-- A parameter that is added is registered as the next one of its method. -/
private theorem registers_of_addParameter {method : Token} {parameter : ParameterSymbol}
    (h : SymbolTable.addParameter method parameter t = .ok token after) :
    ∃ owner : MethodSymbol, t.method? method = some owner ∧
      t.Registers .parameter
        { parameter with ordinal := owner.parameters.length, containingMethod := some method }
        token ∧
      after = t.registered .parameter
        { parameter with ordinal := owner.parameters.length, containingMethod := some method }
        token := by
  simp only [SymbolTable.addParameter, requireAll_bind_eq_ok, nextToken_bind_eq_ok, get_bind] at h
  obtain ⟨htype, fresh, htoken, h⟩ := h
  cases howner : t.method? method with
  | none =>
    rw [howner] at h
    exact absurd h throw_ne_ok
  | some owner =>
    -- The ordinal is the number of parameters that the method had before this one.
    rw [howner] at h
    simp only [requireOrdinal_bind_eq_ok, edit_bind_eq_ok, store_bind_eq_ok] at h
    obtain ⟨-, hmethod, rfl, rfl⟩ := h
    refine ⟨owner, rfl, ⟨htoken, ?_⟩, rfl⟩
    simp only [Symbol.links, List.forall_mem_append, List.forall_mem_map]
    exact ⟨htype, by simpa using hmethod⟩

/-- A field that is added is registered; what it is associated with was looked up by its kind. -/
private theorem registers_of_addField {field : FieldSymbol}
    (h : SymbolTable.addField field t = .ok token after) :
    t.Registers .field field token ∧ after = t.registered .field field token := by
  simp only [SymbolTable.addField, requireAll_bind_eq_ok, requireAssociated_bind_eq_ok,
    nextToken_bind_eq_ok, joinType_bind_eq_ok, store_bind_eq_ok] at h
  obtain ⟨htype, hassociated, _, htoken, hhome, rfl, rfl⟩ := h
  refine ⟨⟨htoken, ?_⟩, rfl⟩
  simp only [Symbol.links, List.forall_mem_append, List.forall_mem_map]
  exact ⟨⟨htype, by simpa using hhome⟩, by simpa using hassociated⟩

/-- Properties and events are registered alike: their accessors are looked up and linked before
    their containing type is looked up. -/
def registerAccessed (kind : SymbolKind) (type : Option Token) (accessors : List Token)
    (containingType : Option Token) (symbol : Symbol kind) : Registration Token := do
  requireAll .type type.toList
  let token ← nextToken kind
  requireAll .method accessors
  linkAccessors accessors token
  joinType containingType token
  store kind symbol
  return token

/-- What is registered with accessors is linked to them, listed in its type and stored. -/
private theorem registerAccessed_eq_ok (kind : SymbolKind) {type containingType : Option Token}
    {accessors : List Token} (symbol : Symbol kind)
    (h : registerAccessed kind type accessors containingType symbol t = .ok token after) :
    tokenAfter? kind (t.count kind) = some token ∧ (∀ token ∈ type.toList, t.resolves .type token) ∧
      (∀ token ∈ containingType.toList, t.resolves .type token) ∧
        (∀ token ∈ accessors, t.resolves .method token) ∧
          after = ((t.linked accessors token).joined containingType token).push kind symbol := by
  simp only [registerAccessed, requireAll_bind_eq_ok, nextToken_bind_eq_ok] at h
  obtain ⟨htype, fresh, htoken, haccessors, h⟩ := h
  obtain ⟨_, between, hlinked, h⟩ := bind_eq_ok.1 h
  obtain ⟨-, rfl⟩ := linkAccessors_eq_ok.1 hlinked
  rw [joinType_bind_eq_ok, store_bind_eq_ok] at h
  obtain ⟨hhome, rfl, rfl⟩ := h
  -- The containing type is looked up after the accessors are linked.
  simp only [resolves_linked] at hhome
  exact ⟨htoken, htype, by simpa using hhome, haccessors, rfl⟩

/-- A property that is added is registered. -/
private theorem registers_of_addProperty {property : PropertySymbol}
    (h : SymbolTable.addProperty property t = .ok token after) :
    t.Registers .property property token ∧ after = t.registered .property property token := by
  obtain ⟨htoken, htype, hhome, haccessors, rfl⟩ :=
    registerAccessed_eq_ok .property property h
  refine ⟨⟨htoken, ?_⟩, rfl⟩
  simp only [Symbol.links, List.forall_mem_append, List.forall_mem_map] at haccessors ⊢
  exact ⟨⟨htype, hhome⟩, haccessors⟩

/-- An event that is added is registered. -/
private theorem registers_of_addEvent {event : EventSymbol}
    (h : SymbolTable.addEvent event t = .ok token after) :
    t.Registers .event event token ∧ after = t.registered .event event token := by
  obtain ⟨htoken, htype, hhome, haccessors, rfl⟩ :=
    registerAccessed_eq_ok .event event h
  refine ⟨⟨htoken, ?_⟩, rfl⟩
  simp only [Symbol.links, List.forall_mem_append, List.forall_mem_map] at haccessors ⊢
  exact ⟨⟨htype, hhome⟩, haccessors⟩

/-- A local variable that is added is registered. -/
private theorem registers_of_addSlot {slot : SlotSymbol}
    (h : SymbolTable.addSlot slot t = .ok token after) :
    t.Registers .slot slot token ∧ after = t.registered .slot slot token := by
  simp only [SymbolTable.addSlot, requireAll_bind_eq_ok, nextToken_bind_eq_ok,
    store_bind_eq_ok] at h
  obtain ⟨htype, _, htoken, rfl, rfl⟩ := h
  refine ⟨⟨htoken, ?_⟩, rfl⟩
  simpa [Symbol.links] using htype

/-- A successful call registers its symbol under the token that it returns. -/
theorem registers_of_run {call : RegistrationCall} (h : call.run t = .ok token after) :
    ∃ kind symbol, call.symbol? t = some ⟨kind, symbol⟩ ∧ t.Registers kind symbol token ∧
      after = t.registered kind symbol token := by
  cases call with
  | addAssembly assembly => exact ⟨.assembly, assembly, rfl, registers_of_addAssembly h⟩
  | addModule module => exact ⟨.module, module, rfl, registers_of_addModule h⟩
  | addType type => exact ⟨.type, type, rfl, registers_of_addType h⟩
  | construct definition typeArguments =>
    -- The constructed type takes after its definition and is added like a declared one.
    obtain ⟨symbol, hsymbol, h⟩ := addType_of_construct h
    exact ⟨.type, _, by rw [symbol?, hsymbol]; rfl, registers_of_addType h⟩
  | nullableOf core underlying =>
    obtain ⟨symbol, hsymbol, h⟩ := addType_of_construct h
    exact ⟨.type, _, by rw [symbol?, hsymbol]; rfl, registers_of_addType h⟩
  | addMethod method => exact ⟨.method, method, rfl, registers_of_addMethod h⟩
  | addParameter method parameter =>
    obtain ⟨owner, howner, h⟩ := registers_of_addParameter h
    exact ⟨.parameter, _, by rw [symbol?, howner]; rfl, h⟩
  | addField field => exact ⟨.field, field, rfl, registers_of_addField h⟩
  | addProperty property => exact ⟨.property, property, rfl, registers_of_addProperty h⟩
  | addEvent event => exact ⟨.event, event, rfl, registers_of_addEvent h⟩
  | addSlot slot => exact ⟨.slot, slot, rfl, registers_of_addSlot h⟩

/-! ## Calls that find what they name -/

/-- After the next token is taken, storing the symbol and linking back to it is all there is to
    do. -/
private theorem nextToken_bind_eq_register {kind : SymbolKind} {symbol : Symbol kind}
    {next : Token → Registration Token}
    (hnext : ∀ token, tokenAfter? kind (t.count kind) = some token →
      next token t = .ok token (t.registered kind symbol token)) :
    (nextToken kind >>= next) t = register kind symbol t := by
  unfold register
  cases htoken : tokenAfter? kind (t.count kind) with
  | none => simp only [bind, EStateM.bind, nextToken, htoken]
  | some token => rw [bind_of_eq_ok (nextToken_eq_ok.2 ⟨htoken, rfl⟩), hnext token htoken]

/-- Adding a type that names nothing that is not there is registering it. -/
private theorem addType_eq_register {type : TypeSymbol}
    (h : ∀ link ∈ Symbol.links .type type, t.resolves link.1 link.2) :
    SymbolTable.addType type t = register .type type t := by
  simp only [Symbol.links, List.forall_mem_append, List.forall_mem_map] at h
  obtain ⟨htypes, hmodule⟩ := h
  rw [SymbolTable.addType,
    unit_bind_of_eq_ok (requireAll_eq_ok.2 ⟨by simpa only [List.forall_mem_append], rfl⟩),
    unit_bind_of_eq_ok (requireAll_eq_ok.2 ⟨hmodule, rfl⟩)]
  exact nextToken_bind_eq_register fun _ _ => rfl

/-- Constructing a type from what is there is registering the constructed type. -/
private theorem construct_eq_register {definition : Token} {typeArguments : List Token}
    {symbol : TypeSymbol} (hsymbol : t.type? definition = some symbol)
    (harguments : ∀ argument ∈ typeArguments, t.resolves .type argument)
    (h : ∀ link ∈ Symbol.links .type (constructed definition symbol typeArguments),
      t.resolves link.1 link.2) :
    SymbolTable.construct definition typeArguments t =
      register .type (constructed definition symbol typeArguments) t := by
  rw [SymbolTable.construct, unit_bind_of_eq_ok (requireAll_eq_ok.2 ⟨harguments, rfl⟩), get_bind,
    hsymbol]
  exact addType_eq_register h

/-- With accessors that are there, nothing fails after the next token is taken. -/
private theorem registerAccessed_eq (kind : SymbolKind) {type containingType : Option Token}
    {accessors : List Token} {symbol : Symbol kind}
    (htype : ∀ token ∈ type.toList, t.resolves .type token)
    (hhome : ∀ token ∈ containingType.toList, t.resolves .type token)
    (haccessors : ∀ token ∈ accessors, t.resolves .method token)
    (hregistered : ∀ token, t.registered kind symbol token =
      ((t.linked accessors token).joined containingType token).push kind symbol) :
    registerAccessed kind type accessors containingType symbol t = register kind symbol t := by
  rw [registerAccessed, unit_bind_of_eq_ok (requireAll_eq_ok.2 ⟨htype, rfl⟩)]
  refine nextToken_bind_eq_register fun token _ => ?_
  -- Linking the accessors does not make the containing type stop resolving.
  have hjoin : ∀ place ∈ containingType, (t.linked accessors token).resolves .type place := by
    intro place hplace
    rw [resolves_linked]
    exact hhome place (Option.mem_toList.2 hplace)
  rw [unit_bind_of_eq_ok (requireAll_eq_ok.2 ⟨haccessors, rfl⟩),
    unit_bind_of_eq_ok (linkAccessors_eq_ok.2 ⟨haccessors, rfl⟩),
    unit_bind_of_eq_ok (joinType_eq_ok.2 ⟨hjoin, rfl⟩), hregistered]
  rfl

/-- The types that a call constructs a type with. -/
def typeArguments : RegistrationCall → List Token
  | .construct _ typeArguments => typeArguments
  | .nullableOf _ underlying => [underlying]
  | .addAssembly _ | .addModule _ | .addType _ | .addMethod _ | .addParameter _ _ | .addField _
  | .addProperty _ | .addEvent _ | .addSlot _ => []

/-- A call whose symbol names nothing that is not there and has an ordinal in range, if it has one
    and a row is left for it, registers its symbol, unless the table is full. -/
theorem run_eq_register {call : RegistrationCall} {kind : SymbolKind} {symbol : Symbol kind}
    (hsymbol : call.symbol? t = some ⟨kind, symbol⟩)
    (hlinks : ∀ link ∈ symbol.links kind, t.resolves link.1 link.2)
    (harguments : ∀ argument ∈ call.typeArguments, t.resolves .type argument)
    (hordinal : ∀ token, tokenAfter? kind (t.count kind) = some token →
      ∀ ordinal ∈ symbol.ordinal? kind, ordinal < ordinalLimit) :
    call.run t = register kind symbol t := by
  cases call with
  | addAssembly assembly =>
    cases hsymbol
    exact nextToken_bind_eq_register fun _ _ => rfl
  | addModule module =>
    cases hsymbol
    simp only [Symbol.links, List.forall_mem_map] at hlinks
    rw [run, SymbolTable.addModule, unit_bind_of_eq_ok (requireAll_eq_ok.2 ⟨hlinks, rfl⟩)]
    exact nextToken_bind_eq_register fun _ _ => rfl
  | addType type =>
    cases hsymbol
    exact addType_eq_register hlinks
  | construct definition arguments =>
    obtain ⟨found, hfound, heq⟩ := Option.map_eq_some_iff.1 hsymbol
    cases heq
    exact construct_eq_register hfound harguments hlinks
  | nullableOf core underlying =>
    obtain ⟨found, hfound, heq⟩ := Option.map_eq_some_iff.1 hsymbol
    cases heq
    -- The nullable type is constructed from its definition like any other.
    exact construct_eq_register hfound harguments hlinks
  | addMethod method =>
    cases hsymbol
    simp only [Symbol.links, List.forall_mem_append, List.forall_mem_map] at hlinks
    obtain ⟨⟨hreturn, hhome⟩, hmethods, himplements⟩ := hlinks
    rw [run, SymbolTable.addMethod, unit_bind_of_eq_ok (requireAll_eq_ok.2 ⟨hreturn, rfl⟩),
      unit_bind_of_eq_ok (requireAll_eq_ok.2 ⟨by simpa only [List.forall_mem_append], rfl⟩),
      unit_bind_of_eq_ok (requireAll_eq_ok.2 ⟨himplements, rfl⟩)]
    -- The containing type is looked up when the member is listed there, after the token is taken.
    refine nextToken_bind_eq_register fun token _ => ?_
    rw [unit_bind_of_eq_ok (joinType_eq_ok.2 ⟨by simpa using hhome, rfl⟩)]
    rfl
  | addParameter method parameter =>
    obtain ⟨owner, howner, heq⟩ := Option.map_eq_some_iff.1 hsymbol
    cases heq
    simp only [Symbol.links, List.forall_mem_append, List.forall_mem_map] at hlinks
    rw [run, SymbolTable.addParameter, unit_bind_of_eq_ok (requireAll_eq_ok.2 ⟨hlinks.1, rfl⟩)]
    -- The ordinal is checked only after a row is known to be left.
    refine nextToken_bind_eq_register fun token htoken => ?_
    rw [get_bind, howner]
    dsimp only
    rw [unit_bind_of_eq_ok (requireOrdinal_eq_ok.2 ⟨hordinal token htoken _ rfl, rfl⟩),
      unit_bind_of_eq_ok (edit_eq_ok.2 ⟨resolves_of_get? howner, rfl⟩)]
    rfl
  | addField field =>
    cases hsymbol
    simp only [Symbol.links, List.forall_mem_append, List.forall_mem_map] at hlinks
    obtain ⟨⟨htype, hhome⟩, hassociated⟩ := hlinks
    -- A field is associated with one symbol at most, so the loop looks up one token at most.
    have hforM : field.associated.toList.forM requireAssociated t = .ok () t := by
      cases hfield : field.associated with
      | none => rfl
      | some token =>
        rw [hfield] at hassociated
        have hstep : requireAssociated token t = .ok () t :=
          requireAssociated_eq_ok.2 ⟨hassociated token (Option.mem_toList.2 rfl), rfl⟩
        exact unit_bind_of_eq_ok hstep _
    rw [run, SymbolTable.addField, unit_bind_of_eq_ok (requireAll_eq_ok.2 ⟨htype, rfl⟩),
      unit_bind_of_eq_ok hforM]
    refine nextToken_bind_eq_register fun token _ => ?_
    rw [unit_bind_of_eq_ok (joinType_eq_ok.2 ⟨by simpa using hhome, rfl⟩)]
    rfl
  | addProperty property =>
    cases hsymbol
    simp only [Symbol.links, List.forall_mem_append, List.forall_mem_map] at hlinks
    obtain ⟨⟨htype, hhome⟩, haccessors⟩ := hlinks
    exact registerAccessed_eq .property htype hhome
      (by simpa only [List.forall_mem_append]) fun _ => rfl
  | addEvent event =>
    cases hsymbol
    simp only [Symbol.links, List.forall_mem_append, List.forall_mem_map] at hlinks
    obtain ⟨⟨htype, hhome⟩, haccessors⟩ := hlinks
    exact registerAccessed_eq .event htype hhome
      (by simpa only [List.forall_mem_append]) fun _ => rfl
  | addSlot slot =>
    cases hsymbol
    simp only [Symbol.links, List.forall_mem_map] at hlinks
    rw [run, SymbolTable.addSlot, unit_bind_of_eq_ok (requireAll_eq_ok.2 ⟨hlinks, rfl⟩)]
    exact nextToken_bind_eq_register fun _ _ => rfl

/-! ## Sequences of calls -/

/-- The symbol handed to the call has nothing yet in the places that registration fills in. -/
def IsFresh : RegistrationCall → Prop
  | .addType type => type.members = []
  | .addMethod method => method.parameters = [] ∧ method.associated = none
  | .addAssembly _ | .addModule _ | .construct _ _ | .nullableOf _ _ | .addParameter _ _
  | .addField _ | .addProperty _ | .addEvent _ | .addSlot _ => True

end RegistrationCall

/-- The tables that sequences of calls lead to from the empty one, whether the calls succeed or
    fail.  Only fresh symbols are registered (`RegistrationCall.IsFresh`): a type comes without
    members, and a method without parameters and without a property or event that it belongs to,
    since these are what registration fills in. -/
inductive SymbolTable.Reachable : SymbolTable → Prop where
  | empty : Reachable {}
  | added {t after : SymbolTable} {call : RegistrationCall} {token : Token} (h : Reachable t)
    (hfresh : call.IsFresh) (hrun : call.run t = .ok token after) : Reachable after
  | refused {t after : SymbolTable} {call : RegistrationCall} {error : SymbolError}
    (h : Reachable t) (hrun : call.run t = .error error after) : Reachable after
  | installed {t after : SymbolTable} {platform : Platform} {core : CoreLibrary}
    (h : Reachable t) (hrun : CoreLibrary.install platform t = .ok core after) : Reachable after
  | interrupted {t after : SymbolTable} {platform : Platform} {error : SymbolError}
    (h : Reachable t) (hrun : CoreLibrary.install platform t = .error error after) :
    Reachable after

/-- The table that a list of calls leads to; a call that fails is followed by the next one. -/
def RegistrationCall.runAll (calls : List RegistrationCall) (t : SymbolTable) : SymbolTable :=
  calls.foldl (fun t call =>
    match call.run t with
    | .ok _ after => after
    | .error _ after => after) t

/-- A list of calls leads from a reachable table to a reachable one. -/
theorem SymbolTable.Reachable.runAll {t : SymbolTable} (h : t.Reachable)
    {calls : List RegistrationCall} (hfresh : ∀ call ∈ calls, call.IsFresh) :
    (RegistrationCall.runAll calls t).Reachable := by
  unfold RegistrationCall.runAll
  induction calls generalizing t with
  | nil => exact h
  | cons call rest ih =>
    refine ih ?_ fun other hother => hfresh other (List.mem_cons_of_mem _ hother)
    dsimp only
    split
    · next hrun => exact h.added (hfresh call List.mem_cons_self) hrun
    · next hrun => exact h.refused hrun

end DefensiveCopy
