import DefensiveCopy.Proofs.TableExtension
import DefensiveCopy.Proofs.TableInvariant

/-!
# A table while a library is installed

The installation of a library is followed with an invariant (`SymbolTable.Grown`).  The table is
reached by steps of registration, and it extends the one that the installation started from.
Certain symbols are known to be declared, with their names and the types that declare them
(`SymbolTable.Declared`).  Comparisons take one parameter, of the object type that the library finds
(`SymbolTable.Compares`); while a comparison waits for its parameter, it is pending.  A lookup of
the object type has a known answer.  And types derive from the object type and the value type base
only (`SymbolTable.DerivesFromRoots`).

The last of these is what edits need.  The primitive types get their base type after they are
registered, because the object type, which the base type derives from, has members that return two
of them.  No circle is made by that: from a root, base types lead to roots only.

A call whose symbol names declared symbols only keeps the invariant, and it fails only if there is
no row left (`SymbolTable.Spared`).

## Key results

- `SymbolTable.DerivesFromRoots.not_reaches`: no root derives from another type
- `SymbolTable.Grown.registered`, `SymbolTable.Grown.modifyType`: what a step keeps
- `SymbolTable.grown_run`: calls that have to do with no comparison
- `SymbolTable.grown_addComparison`, `SymbolTable.grown_addComparand`: comparisons
-/

namespace DefensiveCopy

/-- Completing a type keeps how it is declared. -/
private theorem TypeSymbol.Completes.isDeclaredAs_eq {f : TypeSymbol → TypeSymbol} (h : Completes f)
    {namespaceName name : String} (symbol : TypeSymbol) :
    (f symbol).isDeclaredAs namespaceName name = symbol.isDeclaredAs namespaceName name := by
  obtain ⟨_, _, _, heq⟩ := h symbol
  rw [heq]
  rfl

namespace SymbolTable

/-! ## Declared symbols -/

/-- A symbol that was registered on the way: where it is, and what does not change about it. -/
structure Declared where
  kind : SymbolKind
  token : Token
  name : String
  home : Option Token

namespace Declared

/-- The declaration of a symbol under a token. -/
def of {kind : SymbolKind} (token : Token) (symbol : Symbol kind) : Declared :=
  { kind, token, name := symbol.name, home := symbol.home kind }

/-- The token was added, and it resolves to a symbol with the declared name and home. -/
def Holds (start t : SymbolTable) (entry : Declared) : Prop :=
  ¬start.resolves entry.kind entry.token ∧ ∃ symbol, t.get? entry.kind entry.token = some symbol ∧
    symbol.name = entry.name ∧ symbol.home entry.kind = entry.home

variable {start t : SymbolTable} {kind : SymbolKind} {symbol : Symbol kind} {token : Token}

/-- A declared symbol is still there after a registration, by the same name and in the same home. -/
theorem Holds.registered {entry : Declared} (h : entry.Holds start t)
    (htoken : tokenAfter? kind (t.count kind) = some token) :
    entry.Holds start (t.registered kind symbol token) := by
  obtain ⟨hnew, found, hfound, hname, hhome⟩ := h
  refine ⟨hnew, _, get?_registered_of_get? htoken hfound, ?_, ?_⟩
  · rw [name_linkedBack, hname]
  · rw [home_linkedBack, hhome]

/-- A symbol that has just been registered is declared. -/
private theorem holds_of_registered (h : Extends start t)
    (htoken : tokenAfter? kind (t.count kind) = some token) :
    (of token symbol).Holds start (t.registered kind symbol token) :=
  ⟨h.not_resolves_next htoken kind, symbol, get?_registered_new htoken, rfl, rfl⟩

/-- A declared symbol is still there after a type has been edited, if that keeps its name. -/
theorem Holds.modifyType {entry : Declared} {type : Token} {f : TypeSymbol → TypeSymbol}
    (h : entry.Holds start t) (hname : ∀ symbol, (f symbol).name = symbol.name) :
    entry.Holds start (t.modify .type type f) := by
  obtain ⟨hnew, found, hfound, hfoundName, hhome⟩ := h
  refine ⟨hnew, ?_⟩
  cases entry with
  | mk kind token name home =>
    by_cases hkind : .type = kind
    · subst hkind
      rw [get?_modify_same, hfound]
      split
      · -- The edited type keeps its name, and types have no home.
        exact ⟨f found, rfl, (hname found).trans hfoundName, hhome⟩
      · exact ⟨found, rfl, hfoundName, hhome⟩
    · exact ⟨found, (get?_modify_other _ _ _ hkind _).trans hfound, hfoundName, hhome⟩

end Declared

/-- The list declares a symbol of the kind under the token. -/
def Has (known : List Declared) (kind : SymbolKind) (token : Token) : Prop :=
  ∃ entry ∈ known, entry.kind = kind ∧ entry.token = token

/-- The list declares a symbol of some kind under the token. -/
def Mentions (known : List Declared) (token : Token) : Prop := ∃ kind, Has known kind token

section

variable {known more : List Declared} {kind : SymbolKind} {token : Token}

/-- A symbol of a kind is a symbol of some kind. -/
theorem Has.mentions (h : Has known kind token) : Mentions known token := ⟨kind, h⟩

/-- A longer list declares what a shorter one does. -/
theorem Has.mono (h : Has known kind token) (hsubset : known ⊆ more) : Has more kind token := by
  obtain ⟨entry, hentry, heq⟩ := h
  exact ⟨entry, hsubset hentry, heq⟩

/-- One more declaration takes none away. -/
theorem Has.cons {entry : Declared} (h : Has known kind token) : Has (entry :: known) kind token :=
  h.mono (List.subset_cons_self _ _)

/-- The last declaration is in the list. -/
theorem has_head {name : String} {home : Option Token} :
    Has (⟨kind, token, name, home⟩ :: known) kind token :=
  ⟨_, List.mem_cons_self, rfl, rfl⟩

/-- What stands in the list is declared by it. -/
theorem has_of_mem {name : String} {home : Option Token} (h : ⟨kind, token, name, home⟩ ∈ known) :
    Has known kind token :=
  ⟨_, h, rfl, rfl⟩

/-- All symbols that a symbol names are declared. -/
structure Refers (known : List Declared) (kind : SymbolKind) (symbol : Symbol kind) : Prop where
  links_declared : ∀ link ∈ symbol.links kind, Has known link.1 link.2
  stored_declared : ∀ stored ∈ symbol.stored kind, Mentions known stored

end

/-! ## Base types -/

/-- The names of the types that the types of a library derive from. -/
def IsRootName (name : String) : Prop := name = "Object" ∨ name = "ValueType"

instance (name : String) : Decidable (IsRootName name) :=
  inferInstanceAs (Decidable (name = "Object" ∨ name = "ValueType"))

/-- The list declares the type as one that others derive from. -/
def HasRoot (known : List Declared) (type : Token) : Prop :=
  ∃ name, IsRootName name ∧ ⟨.type, type, name, none⟩ ∈ known

/-- The type was added as one that others derive from. -/
def IsRoot (start t : SymbolTable) (type : Token) : Prop :=
  ∃ name, IsRootName name ∧ Declared.Holds start t ⟨.type, type, name, none⟩

/-- The types that were added derive from roots only. -/
def DerivesFromRoots (start t : SymbolTable) : Prop :=
  ∀ (type : Token) (symbol : TypeSymbol), t.type? type = some symbol →
    ¬start.resolves .type type → ∀ base ∈ symbol.base, IsRoot start t base

section

variable {start t : SymbolTable} {known more : List Declared} {kind : SymbolKind}
  {symbol : Symbol kind} {token type base : Token}

/-- A root is a declared type. -/
theorem HasRoot.has (h : HasRoot known type) : Has known .type type := by
  obtain ⟨name, -, hmem⟩ := h
  exact ⟨_, hmem, rfl, rfl⟩

/-- A longer list declares the roots of a shorter one. -/
theorem HasRoot.mono (h : HasRoot known type) (hsubset : known ⊆ more) : HasRoot more type := by
  obtain ⟨name, hname, hmem⟩ := h
  exact ⟨name, hname, hsubset hmem⟩

/-- The object type is a root. -/
theorem hasRoot_object (h : ⟨.type, type, "Object", none⟩ ∈ known) : HasRoot known type :=
  ⟨"Object", .inl rfl, h⟩

/-- The base of value types is a root. -/
theorem hasRoot_valueType (h : ⟨.type, type, "ValueType", none⟩ ∈ known) : HasRoot known type :=
  ⟨"ValueType", .inr rfl, h⟩

/-- Registering a symbol keeps what types derive from, if the symbol derives from a root. -/
private theorem DerivesFromRoots.registered (h : DerivesFromRoots start t)
    (hregisters : t.Registers kind symbol token)
    (hbase : ∀ base ∈ ChainLink.base.target kind symbol, IsRoot start t base) :
    DerivesFromRoots start (t.registered kind symbol token) := by
  have hkept : ∀ base, IsRoot start t base → IsRoot start (t.registered kind symbol token) base :=
    fun base ⟨name, hname, hholds⟩ => ⟨name, hname, hholds.registered hregisters.token_eq⟩
  intro type found hfound hnew base hmem
  rcases get?_registered_cases hregisters.token_eq hfound with ⟨-, rfl, rfl⟩ | ⟨old, -, hold, rfl⟩
  · exact hkept base (hbase base hmem)
  · exact hkept base (h type old hold hnew base hmem)

/-- Completing a type keeps what types derive from, if a new base type is a root. -/
private theorem DerivesFromRoots.modifyType {f : TypeSymbol → TypeSymbol}
    (h : DerivesFromRoots start t)
    (hf : TypeSymbol.Completes f)
    (hbase : ∀ symbol base, (f symbol).base = some base →
      symbol.base = some base ∨ IsRoot start t base) :
    DerivesFromRoots start (t.modify .type type f) := by
  have hkept : ∀ base, IsRoot start t base → IsRoot start (t.modify .type type f) base :=
    fun base ⟨name, hname, hholds⟩ => ⟨name, hname, hholds.modifyType hf.name_eq⟩
  intro place found hfound hnew base hmem
  rw [type?, get?_modify_same] at hfound
  split at hfound
  · obtain ⟨old, hold, rfl⟩ := Option.map_eq_some_iff.1 hfound
    -- The base type is the old one, or a root that is known.
    rcases hbase old base hmem with hsame | hroot
    · exact hkept base (h place old hold hnew base hsame)
    · exact hkept base hroot
  · exact hkept base (h place found hfound hnew base hmem)

/-- From a root, base types lead to roots only. -/
private theorem DerivesFromRoots.isRoot_of_reaches (h : DerivesFromRoots start t)
    (hbase : IsRoot start t base) (hreaches : Relation.ReflTransGen
      (fun source target => t.view ChainLink.base.target source = some target) base type) :
    IsRoot start t type := by
  induction hreaches with
  | refl => exact hbase
  | tail _ hstep ih =>
    -- A root was added, so its own base type is a root again.
    obtain ⟨_, -, hnew, -⟩ := ih
    obtain ⟨kind, symbol, hget, htarget⟩ := view_eq_some_iff.1 hstep
    cases kind with
    | type => exact h _ symbol hget hnew _ htarget
    | _ => cases htarget

/-- From a root, base types lead to no type of another name. -/
theorem DerivesFromRoots.not_reaches {name : String} (h : DerivesFromRoots start t)
    (hbase : IsRoot start t base) (htype : Declared.Holds start t ⟨.type, type, name, none⟩)
    (hname : ¬IsRootName name) : ¬Relation.ReflTransGen
      (fun source target => t.view ChainLink.base.target source = some target) base type := by
  intro hreaches
  obtain ⟨rootName, hroot, -, found, hfound, hfoundName, -⟩ := h.isRoot_of_reaches hbase hreaches
  obtain ⟨-, same, hsame, hsameName, -⟩ := htype
  obtain rfl : found = same := Option.some.inj (hfound.symm.trans hsame)
  obtain rfl : rootName = name := hfoundName.symm.trans hsameName
  exact hname hroot

end

/-! ## Comparisons -/

section

variable {start t : SymbolTable} {object : Token} {pending : Option Token} {kind : SymbolKind}
  {symbol : Symbol kind} {token : Token}

/-- The object type that comparisons of a library with the given object type take, unless they are
    its own: the first one of the table. -/
def firstObject (start : SymbolTable) (object : Token) : Token :=
  (start.findType? "System" "Object").getD object

/-- The type that the comparison of a type takes. -/
def comparand (start : SymbolTable) (object : Token) (home : Option Token) : Token :=
  if home = some object then object else firstObject start object

/-- The comparand is the library's object type or the first one of the start. -/
theorem comparand_cases (start : SymbolTable) (object : Token) (home : Option Token) :
    comparand start object home = object ∨
      start.findType? "System" "Object" = some (comparand start object home) := by
  unfold comparand firstObject
  split
  · exact .inl rfl
  · cases start.findType? "System" "Object" with
    | none => exact .inl rfl
    | some first => exact .inr rfl

/-- The method has one parameter, and it is of the given type. -/
def Takes (t : SymbolTable) (method : MethodSymbol) (type : Token) : Prop :=
  ∃ (token : Token) (parameter : ParameterSymbol), method.parameters = [token] ∧
    t.parameter? token = some parameter ∧ parameter.type = some type

/-- Every comparison that was added takes its comparand; the pending one has no parameter yet. -/
def Compares (start : SymbolTable) (object : Token) (pending : Option Token) (t : SymbolTable) :
    Prop :=
  ∀ (method : Token) (found : MethodSymbol), t.method? method = some found →
    ¬start.resolves .method method → found.name = "Equals" →
      if pending = some method then found.parameters = []
      else t.Takes found (comparand start object found.containingType)

/-- A comparison that is neither the new symbol nor gets a new parameter takes what it took. -/
private theorem Compares.takes_registered (h : Compares start object pending t)
    (htoken : tokenAfter? kind (t.count kind) = some token) {method : Token} {found : MethodSymbol}
    (hfound : (t.registered kind symbol token).method? method = some found)
    (hne : method ≠ token) (howner : symbol.owner kind ≠ some method)
    (hpending : pending ≠ some method) (hnew : ¬start.resolves .method method)
    (hname : found.name = "Equals") :
    (t.registered kind symbol token).Takes found (comparand start object found.containingType) := by
  rcases get?_registered_cases htoken hfound with ⟨heq, -⟩ | ⟨old, -, hold, rfl⟩
  · exact absurd heq hne
  · have htakes := h method old hold hnew hname
    rw [if_neg hpending] at htakes
    obtain ⟨place, parameter, hparameters, hparameter, htype⟩ := htakes
    refine ⟨place, parameter, ?_, get?_registered_of_get? htoken hparameter, htype⟩
    -- The list of parameters grows for the owner of the new symbol only.
    rw [← hparameters]
    exact if_neg howner

/-- Registering a symbol that has to do with no comparison. -/
private theorem Compares.registered_plain (h : Compares start object none t)
    (htoken : tokenAfter? kind (t.count kind) = some token)
    (hplain : ∀ found, (t.registered kind symbol token).method? token = some found →
      found.name ≠ "Equals")
    (howner : ∀ method found, symbol.owner kind = some method → t.method? method = some found →
      found.name ≠ "Equals") :
    Compares start object none (t.registered kind symbol token) := by
  intro method found hfound hnew hname
  rw [if_neg nofun]
  have hne : method ≠ token := by
    rintro rfl
    exact hplain found hfound hname
  refine h.takes_registered htoken hfound hne ?_ nofun hnew hname
  intro heq
  -- A comparison that learns of a parameter would be the owner of the symbol.
  rcases get?_registered_cases htoken hfound with ⟨rfl, -⟩ | ⟨old, -, hold, rfl⟩
  · exact hne rfl
  · exact howner method old heq hold hname

/-- Registering a comparison makes it the pending one. -/
private theorem Compares.registered_comparison {method : MethodSymbol}
    (h : Compares start object none t)
    (htoken : tokenAfter? .method (t.count .method) = some token)
    (hparameters : method.parameters = []) :
    Compares start object (some token) (t.registered .method method token) := by
  intro place found hfound hnew hname
  by_cases heq : place = token
  · subst heq
    have hsame : found = method :=
      Option.some.inj (hfound.symm.trans (get?_registered_new htoken))
    rw [if_pos rfl, hsame, hparameters]
  · -- The other comparisons have their parameters, and a method is no parameter.
    rw [if_neg fun h => heq (Option.some.inj h).symm]
    exact h.takes_registered htoken hfound heq nofun nofun hnew hname

/-- Registering the parameter of the pending comparison completes it. -/
private theorem Compares.registered_parameter {parameter : ParameterSymbol} {method : Token}
    {owner : MethodSymbol} (h : Compares start object (some method) t)
    (htoken : tokenAfter? .parameter (t.count .parameter) = some token)
    (hmethod : parameter.containingMethod = some method) (howner : t.method? method = some owner)
    (htype : parameter.type = some (comparand start object owner.containingType)) :
    Compares start object none (t.registered .parameter parameter token) := by
  intro place found hfound hnew hname
  rw [if_neg nofun]
  rcases get?_registered_cases htoken hfound with ⟨-, heq, -⟩ | ⟨old, hne, hold, rfl⟩
  · cases heq
  · by_cases heq : place = method
    · subst heq
      obtain rfl : owner = old := Option.some.inj (howner.symm.trans hold)
      have hempty := h place owner hold hnew hname
      rw [if_pos rfl] at hempty
      refine ⟨token, parameter, ?_, get?_registered_new htoken, htype⟩
      -- The pending comparison had no parameter, so the new one is its only one.
      refine (if_pos hmethod).trans ?_
      rw [hempty, List.nil_append]
    · refine h.takes_registered htoken hfound hne ?_ ?_ hnew hname
      · exact fun hsame => heq (Option.some.inj (hmethod.symm.trans hsame)).symm
      · exact fun hsame => heq (Option.some.inj hsame).symm

/-- Editing a type changes no comparison. -/
private theorem Compares.modifyType {type : Token} {f : TypeSymbol → TypeSymbol}
    (h : Compares start object pending t) :
    Compares start object pending (t.modify .type type f) := by
  intro method found hfound hnew hname
  have hold := h method found ((get?_modify_other _ _ _ (by decide) _).symm.trans hfound) hnew hname
  split
  · next hpending => rwa [if_pos hpending] at hold
  · next hpending =>
    rw [if_neg hpending] at hold
    obtain ⟨place, parameter, hparameters, hparameter, htype⟩ := hold
    exact ⟨place, parameter, hparameters,
      (get?_modify_other _ _ _ (by decide) _).trans hparameter, htype⟩

end

/-! ## A library on the way -/

section

variable {start t : SymbolTable} {object : Token} {first pending : Option Token}
  {known : List Declared} {kind : SymbolKind} {symbol : Symbol kind} {token : Token}

/-- What holds of the table while a library is being installed: it is reached by steps and extends
    the start, the known symbols are declared, types derive from roots, comparisons take their
    comparands, and the first object type is known. -/
structure Grown (start : SymbolTable) (object : Token) (first : Option Token)
    (known : List Declared) (pending : Option Token) (t : SymbolTable) : Prop
    extends Extends start t where
  steps : Steps start t
  derives : DerivesFromRoots start t
  declared : ∀ entry ∈ known, entry.Holds start t
  compares : Compares start object pending t
  lookup : t.findType? "System" "Object" = first

/-- A declared symbol is there and was not at the start. -/
private theorem Grown.holds {kind : SymbolKind} (h : Grown start object first known pending t)
    (hhas : Has known kind token) : t.resolves kind token ∧ ¬start.resolves kind token := by
  obtain ⟨entry, hentry, rfl, rfl⟩ := hhas
  obtain ⟨hnew, found, hfound, -⟩ := h.declared entry hentry
  exact ⟨resolves_of_get? hfound, hnew⟩

/-- A declared root is there and was not at the start. -/
private theorem Grown.isRoot (h : Grown start object first known pending t)
    (hroot : HasRoot known token) :
    IsRoot start t token := by
  obtain ⟨name, hname, hmem⟩ := hroot
  exact ⟨name, hname, h.declared _ hmem⟩

/-- What the list mentions was added. -/
theorem Grown.added (h : Grown start object first known pending t)
    (hmentions : Mentions known token) : Added start t token := by
  obtain ⟨kind, hhas⟩ := hmentions
  exact ⟨kind, h.holds hhas⟩

/-- Declared symbols of different names are different. -/
theorem Grown.ne_of_name {left right : Token} {leftName rightName : String}
    {leftHome rightHome : Option Token} (h : Grown start object first known pending t)
    (hleft : ⟨kind, left, leftName, leftHome⟩ ∈ known)
    (hright : ⟨kind, right, rightName, rightHome⟩ ∈ known) (hne : leftName ≠ rightName) :
    left ≠ right := by
  rintro rfl
  obtain ⟨-, found, hfound, hname, -⟩ := h.declared _ hleft
  obtain ⟨-, same, hsame, hsameName, -⟩ := h.declared _ hright
  obtain rfl : found = same := Option.some.inj (hfound.symm.trans hsame)
  exact hne (hname.symm.trans hsameName)

/-- Fewer symbols may be known. -/
theorem Grown.forget {fewer : List Declared} (h : Grown start object first known pending t)
    (hfewer : fewer ⊆ known) : Grown start object first fewer pending t :=
  { h with declared := fun entry hentry => h.declared entry (hfewer hentry) }

/-- The last declaration may be forgotten. -/
theorem Grown.tail {entry : Declared} (h : Grown start object first (entry :: known) pending t) :
    Grown start object first known pending t :=
  h.forget (List.subset_cons_self _ _)

/-- What a registration does to the table while a library is being installed. -/
theorem Grown.registered {after : Option Token} (h : Grown start object first known pending t)
    (hregisters : t.Registers kind symbol token)
    (hsteps : Steps start (t.registered kind symbol token))
    (hbase : ∀ base ∈ ChainLink.base.target kind symbol, HasRoot known base)
    (hinformed : ∀ link ∈ symbol.informed kind, Has known link.1 link.2)
    (hstored : ∀ stored ∈ symbol.stored kind, Mentions known stored ∨
      Borrows start (t.registered kind symbol token) token stored)
    (hcompares : Compares start object after (t.registered kind symbol token)) :
    Grown start object
      (first.or (if symbol.isDeclaredAs "System" "Object" kind then some token else none))
      (.of token symbol :: known) after (t.registered kind symbol token) where
  toExtends := h.toExtends.registered hregisters
    (fun link hlink => (h.holds (hinformed link hlink)).2)
    (fun stored hmem => (hstored stored hmem).imp h.added id)
  steps := hsteps
  derives := h.derives.registered hregisters fun base hmem => h.isRoot (hbase base hmem)
  declared := List.forall_mem_cons.2
    ⟨Declared.holds_of_registered h.toExtends hregisters.token_eq,
      fun entry hentry => (h.declared entry hentry).registered hregisters.token_eq⟩
  compares := hcompares
  lookup := by rw [findType?_registered hregisters.token_eq, h.lookup]

/-- A symbol that is no object type makes no difference to which one is the first. -/
private theorem Grown.registered_other {after : Option Token}
    (h : Grown start object first known pending t)
    (hregisters : t.Registers kind symbol token)
    (hsteps : Steps start (t.registered kind symbol token))
    (hbase : ∀ base ∈ ChainLink.base.target kind symbol, HasRoot known base)
    (hother : symbol.isDeclaredAs "System" "Object" kind = false)
    (hinformed : ∀ link ∈ symbol.informed kind, Has known link.1 link.2)
    (hstored : ∀ stored ∈ symbol.stored kind, Mentions known stored ∨
      Borrows start (t.registered kind symbol token) token stored)
    (hcompares : Compares start object after (t.registered kind symbol token)) :
    Grown start object first (.of token symbol :: known) after
      (t.registered kind symbol token) := by
  have hgrown := h.registered hregisters hsteps hbase hinformed hstored hcompares
  -- A symbol that is not declared as the object type leaves the lookup alone.
  rwa [hother, if_neg Bool.false_ne_true, Option.or_none] at hgrown

/-- Completing a declared type that is no root does no harm, if it brings in declared symbols only
    and a root as base type. -/
theorem Grown.modifyType {type : Token} {name : String} {f : TypeSymbol → TypeSymbol}
    (h : Grown start object first known pending t) (htype : ⟨.type, type, name, none⟩ ∈ known)
    (hname : ¬IsRootName name) (hf : TypeSymbol.Completes f)
    (hbase : ∀ symbol base, (f symbol).base = some base →
      symbol.base = some base ∨ HasRoot known base)
    (hstored : ∀ (symbol : TypeSymbol), ∀ stored ∈ Symbol.stored .type (f symbol),
      stored ∈ Symbol.stored .type symbol ∨ Mentions known stored) :
    Grown start object first known pending (t.modify .type type f) where
  toExtends := h.toExtends.modifyType (h.holds (has_of_mem htype)).2
    (fun symbol stored hmem => (hstored symbol stored hmem).imp id h.added)
  steps := by
    obtain ⟨-, symbol, hget, -⟩ := h.declared _ htype
    refine h.steps.completed hget hf fun base hmem =>
      (hbase symbol base hmem).imp id fun hroot => ?_
    -- Roots derive from roots, so no root derives from a type that is none.
    exact ⟨(h.holds hroot.has).1,
      h.derives.not_reaches (h.isRoot hroot) (h.declared _ htype) hname⟩
  derives := h.derives.modifyType hf fun symbol base hmem =>
    (hbase symbol base hmem).imp id h.isRoot
  declared entry hentry := (h.declared entry hentry).modifyType hf.name_eq
  compares := h.compares.modifyType
  lookup := (findType?_modify hf.isDeclaredAs_eq).trans h.lookup

/-! ## Steps of the installation -/

/-- A failure for lack of rows, with a table that extends the start. -/
def Spared (start : SymbolTable) (error : SymbolError) (after : SymbolTable) : Prop :=
  (∃ kind, error = .tableFull kind ∧ tokenAfter? kind (after.count kind) = none) ∧
    Extends start after

/-- A failure for lack of rows, with a table that is reached by steps. -/
def Halted (start : SymbolTable) (error : SymbolError) (after : SymbolTable) : Prop :=
  Spared start error after ∧ Steps start after

/-- A call that finds what it names registers its symbol, or the table is full and stays. -/
private theorem follows_run (call : RegistrationCall) (hfresh : call.IsFresh)
    {P : SymbolTable → Prop}
    {Q : Token → SymbolTable → Prop} (hbefore : ∀ t, P t → Extends start t ∧ Steps start t)
    (hcall : ∀ t, P t → ∃ kind symbol, call.symbol? t = some ⟨kind, symbol⟩ ∧
      (∀ argument ∈ call.typeArguments, t.resolves .type argument) ∧
      (∀ link ∈ symbol.links kind, t.resolves link.1 link.2) ∧
      (∀ token, tokenAfter? kind (t.count kind) = some token →
        ∀ ordinal ∈ symbol.ordinal? kind, ordinal < ordinalLimit) ∧
      ∀ token, t.Registers kind symbol token → Steps start (t.registered kind symbol token) →
        Q token (t.registered kind symbol token)) :
    Follows (Halted start) P call.run Q := by
  intro t ht
  obtain ⟨hextends, hsteps⟩ := hbefore t ht
  obtain ⟨kind, symbol, hsymbol, harguments, hlinks, hordinal, hregistered⟩ := hcall t ht
  rw [RegistrationCall.run_eq_register hsymbol hlinks harguments hordinal]
  unfold register
  cases htoken : tokenAfter? kind (t.count kind) with
  | none =>
    refine ⟨nofun, fun error after hrun => ?_⟩
    cases hrun
    -- A full table is the only way to fail, and it leaves the table as it was.
    exact ⟨⟨⟨kind, rfl, htoken⟩, hextends⟩, hsteps⟩
  | some token =>
    refine ⟨fun value after hrun => ?_, nofun⟩
    cases hrun
    have hregisters : t.Registers kind symbol token := ⟨htoken, hlinks⟩
    exact hregistered token hregisters (hsteps.registered_of_isFresh hfresh hsymbol hregisters)

/-- A call with a symbol that is not a comparison and names declared symbols only. -/
theorem grown_run (call : RegistrationCall) (hfresh : call.IsFresh)
    (hsymbol : ∀ t, call.symbol? t = some ⟨kind, symbol⟩) (harguments : call.typeArguments = [])
    (hrefers : Refers known kind symbol) (hkind : kind ≠ .parameter)
    (hbase : ∀ base ∈ ChainLink.base.target kind symbol, HasRoot known base)
    (hname : kind = .method → symbol.name ≠ "Equals") :
    Follows (Halted start) (Grown start object first known none) call.run fun token =>
      Grown start object
        (first.or (if symbol.isDeclaredAs "System" "Object" kind then some token else none))
        (.of token symbol :: known) none := by
  -- A symbol that is no parameter belongs to no method and has no ordinal.
  have howner : symbol.owner kind = none := by cases kind <;> first | rfl | exact absurd rfl hkind
  have hordinal : symbol.ordinal? kind = none := by
    cases kind <;> first | rfl | exact absurd rfl hkind
  refine follows_run call hfresh (fun t ht => ⟨ht.toExtends, ht.steps⟩) fun t ht => ?_
  refine ⟨kind, symbol, hsymbol t, by simp [harguments], fun link hlink =>
    (ht.holds (hrefers.links_declared link hlink)).1, by simp [hordinal],
    fun token hregisters hsteps => ?_⟩
  refine ht.registered hregisters hsteps hbase (fun link hlink => hrefers.links_declared link
    (symbol.informed_subset_links hlink)) (fun stored hmem => .inl
      (hrefers.stored_declared stored hmem)) ?_
  refine ht.compares.registered_plain hregisters.token_eq (fun found hfound => ?_)
    (by simp [howner])
  rcases get?_registered_cases hregisters.token_eq hfound with ⟨-, rfl, rfl⟩ | ⟨_, hne, -⟩
  · exact hname rfl
  · exact absurd rfl hne

/-- The first object type stays the first one, and other symbols do not become it. -/
theorem grown_run_settled (call : RegistrationCall) (hfresh : call.IsFresh)
    (hsymbol : ∀ t, call.symbol? t = some ⟨kind, symbol⟩) (harguments : call.typeArguments = [])
    (hrefers : Refers known kind symbol) (hkind : kind ≠ .parameter)
    (hbase : ∀ base ∈ ChainLink.base.target kind symbol, HasRoot known base)
    (hname : kind = .method → symbol.name ≠ "Equals")
    (hsettled : first.isSome ∨ symbol.isDeclaredAs "System" "Object" kind = false) :
    Follows (Halted start) (Grown start object first known none) call.run fun token =>
      Grown start object first (.of token symbol :: known) none := by
  refine (grown_run call hfresh hsymbol harguments hrefers hkind hbase hname).weaken
    fun token t ht => ?_
  -- An object type that was first stays first; without one, this symbol is none either.
  rcases hsettled with hfirst | hnot
  · obtain ⟨found, rfl⟩ := Option.isSome_iff_exists.1 hfirst
    exact ht
  · rwa [hnot, if_neg Bool.false_ne_true, Option.or_none] at ht

/-- A method that is not a comparison and names declared symbols only. -/
theorem grown_addMethod {method : MethodSymbol} (hrefers : Refers known .method method)
    (hfresh : method.parameters = [] ∧ method.associated = none) (hname : method.name ≠ "Equals") :
    Follows (Halted start) (Grown start object first known none) (addMethod method) fun token =>
      Grown start object first (⟨.method, token, method.name, method.containingType⟩ :: known)
        none :=
  grown_run_settled (.addMethod method) hfresh (fun _ => rfl) rfl hrefers nofun nofun
    (fun _ => hname) (.inr rfl)

/-- A property that names declared symbols only; nothing refers to it later. -/
theorem grown_addProperty {property : PropertySymbol}
    (hrefers : Refers known .property property) :
    Follows (Halted start) (Grown start object first known none) (addProperty property) fun _ =>
      Grown start object first known none :=
  (grown_run_settled (.addProperty property) trivial (fun _ => rfl) rfl hrefers nofun nofun nofun
    (.inr rfl)).weaken fun _ _ ht => ht.tail

/-- When an object type is there, other types are registered without becoming the first one. -/
theorem grown_addType {found : Token} {type : TypeSymbol} (hrefers : Refers known .type type)
    (hfresh : type.members = []) (hbase : ∀ base ∈ type.base, HasRoot known base) :
    Follows (Halted start) (Grown start object (some found) known none) (addType type) fun token =>
      Grown start object (some found) (⟨.type, token, type.name, none⟩ :: known) none :=
  grown_run_settled (.addType type) hfresh (fun _ => rfl) rfl hrefers nofun hbase nofun (.inl rfl)

/-- A parameter is numbered by the method that it is registered for. -/
private theorem follows_addParameter {method : Token} {parameter : ParameterSymbol}
    {P : SymbolTable → Prop} {Q : Token → SymbolTable → Prop}
    (hbefore : ∀ t, P t → Extends start t ∧ Steps start t)
    (hcall : ∀ t, P t → (∀ type ∈ parameter.type, t.resolves .type type) ∧
      ¬start.resolves .method method ∧ ∃ owner : MethodSymbol, t.method? method = some owner ∧
        ∀ (numbered : ParameterSymbol) (token : Token), numbered.type = parameter.type →
          numbered.containingMethod = some method → numbered.attributes = parameter.attributes →
            t.Registers .parameter numbered token →
              Steps start (t.registered .parameter numbered token) →
                Q token (t.registered .parameter numbered token)) :
    Follows (Halted start) P (addParameter method parameter) Q := by
  refine follows_run (.addParameter method parameter) trivial hbefore fun t ht => ?_
  obtain ⟨htype, hnew, owner, howner, hregistered⟩ := hcall t ht
  refine ⟨.parameter,
    { parameter with ordinal := owner.parameters.length, containingMethod := some method },
    by rw [RegistrationCall.symbol?, howner]; rfl, nofun, ?_, fun token htoken ordinal hmem => ?_,
    fun token => hregistered _ token rfl rfl rfl⟩
  · simp only [Symbol.links, List.forall_mem_append, List.forall_mem_map]
    exact ⟨by simpa using htype, by simpa using resolves_of_get? howner⟩
  · -- The method is new, so it has no more parameters than there are rows for them.
    cases hmem
    exact (hbefore t ht).2.ordinal_lt howner hnew htoken

/-- Registering a parameter of a declared method. -/
private theorem Grown.registered_parameter {after : Option Token} {method : Token}
    {parameter : ParameterSymbol} (h : Grown start object first known pending t)
    (hregisters : t.Registers .parameter parameter token)
    (hsteps : Steps start (t.registered .parameter parameter token))
    (hmethod : parameter.containingMethod = some method) (hdeclared : Has known .method method)
    (htype : ∀ type ∈ parameter.type, Mentions known type ∨
      Borrows start (t.registered .parameter parameter token) token type)
    (hattributes : parameter.attributes = [])
    (hcompares : Compares start object after (t.registered .parameter parameter token)) :
    Grown start object first known after (t.registered .parameter parameter token) := by
  -- Nothing refers to a parameter later, so it need not be remembered.
  refine (h.registered_other hregisters hsteps nofun rfl ?_ ?_ hcompares).tail
  · simpa [Symbol.informed, Symbol.home, Symbol.owner, Symbol.accessors, hmethod] using hdeclared
  · simp only [Symbol.stored, hmethod, hattributes, List.append_nil, List.forall_mem_append]
    exact ⟨by simpa using htype, by simpa using .inl hdeclared.mentions⟩

/-- A parameter of the last declared method, which is not a comparison. -/
theorem grown_addParameter {method : Token} {parameter : ParameterSymbol} {name : String}
    {home : Option Token} (hname : name ≠ "Equals")
    (htype : ∀ type ∈ parameter.type, Has known .type type)
    (hattributes : parameter.attributes = []) :
    Follows (Halted start) (Grown start object first (⟨.method, method, name, home⟩ :: known) none)
      (addParameter method parameter) fun _ => Grown start object first known none := by
  refine follows_addParameter (fun t ht => ⟨ht.toExtends, ht.steps⟩) fun t ht => ?_
  obtain ⟨hnew, owner, howner, hownerName, -⟩ := ht.declared _ List.mem_cons_self
  refine ⟨fun type hmem => (ht.tail.holds (htype type hmem)).1, hnew, owner, howner, ?_⟩
  intro numbered token hsame hcontaining hnone hregisters hsteps
  refine (ht.registered_parameter hregisters hsteps hcontaining has_head
    (fun type hmem => .inl (htype type (hsame ▸ hmem)).cons.mentions) (hnone.trans hattributes)
    ?_).tail
  refine ht.compares.registered_plain hregisters.token_eq (fun found hfound => ?_) ?_
  · -- The new symbol is no method at all.
    rcases get?_registered_cases hregisters.token_eq hfound with ⟨-, heq, -⟩ | ⟨_, hne, -⟩
    · cases heq
    · exact absurd rfl hne
  · intro place found hplace hfound
    obtain rfl : method = place := Option.some.inj (hcontaining.symm.trans hplace)
    obtain rfl : owner = found := Option.some.inj (howner.symm.trans hfound)
    exact fun heq => hname (hownerName.symm.trans heq)

/-- A comparison is registered before its parameter. -/
theorem grown_addComparison {method : MethodSymbol} (hrefers : Refers known .method method)
    (hfresh : method.parameters = [] ∧ method.associated = none) :
    Follows (Halted start) (Grown start object first known none) (addMethod method) fun token =>
      Grown start object first (⟨.method, token, method.name, method.containingType⟩ :: known)
        (some token) := by
  refine follows_run (.addMethod method) hfresh (fun t ht => ⟨ht.toExtends, ht.steps⟩)
    fun t ht => ?_
  refine ⟨.method, method, rfl, nofun, fun link hlink =>
    (ht.holds (hrefers.links_declared link hlink)).1, nofun, fun token hregisters hsteps => ?_⟩
  exact ht.registered_other hregisters hsteps nofun rfl
    (fun link hlink => hrefers.links_declared link (Symbol.informed_subset_links _ hlink))
    (fun stored hmem => .inl (hrefers.stored_declared stored hmem))
    (ht.compares.registered_comparison hregisters.token_eq hfresh.1)

/-- The parameter of the pending comparison: the one place where a symbol of the start may be named,
    if it is the first object type. -/
theorem grown_addComparand {method compared : Token} {home : Option Token} {name : String}
    (hmethod : ⟨.method, method, "Equals", home⟩ ∈ known) (hobject : Has known .type object)
    (hcompared : compared = comparand start object home) :
    Follows (Halted start) (Grown start object first known (some method))
      (addParameter method { name, type := some compared }) fun _ =>
        Grown start object first known none := by
  subst hcompared
  refine follows_addParameter (fun t ht => ⟨ht.toExtends, ht.steps⟩) fun t ht => ?_
  obtain ⟨hnew, owner, howner, hname, hhome⟩ := ht.declared _ hmethod
  refine ⟨fun type hmem => ?_, hnew, owner, howner, ?_⟩
  · obtain rfl := Option.mem_some_iff.1 hmem
    -- The comparand is declared, or was found at the start and so is still there.
    rcases comparand_cases start object home with heq | hfirst
    · rw [heq]
      exact (ht.holds hobject).1
    · exact ht.toExtends.resolves (resolves_of_findType? hfirst)
  · intro numbered token htype hcontaining hnone hregisters hsteps
    refine ht.registered_parameter hregisters hsteps hcontaining (has_of_mem hmethod) ?_ hnone ?_
    · intro type hmem
      obtain rfl : comparand start object home = type := by
        rw [htype] at hmem
        exact Option.mem_some_iff.1 hmem
      rcases comparand_cases start object home with heq | hfirst
      · rw [heq]
        exact .inl hobject.mentions
      · refine .inr ⟨hfirst, numbered, method, _, get?_registered_new hregisters.token_eq, htype,
          hcontaining, get?_registered_of_get? hregisters.token_eq howner, hname⟩
    · refine ht.compares.registered_parameter hregisters.token_eq hcontaining howner ?_
      rw [htype, show owner.containingType = home from hhome]

/-- Completing a declared type that is no root. -/
theorem grown_edit {type : Token} {name : String} {f : TypeSymbol → TypeSymbol}
    (htype : ⟨.type, type, name, none⟩ ∈ known) (hname : ¬IsRootName name)
    (hf : TypeSymbol.Completes f)
    (hbase : ∀ symbol base, (f symbol).base = some base →
      symbol.base = some base ∨ HasRoot known base)
    (hstored : ∀ (symbol : TypeSymbol), ∀ stored ∈ Symbol.stored .type (f symbol),
      stored ∈ Symbol.stored .type symbol ∨ Mentions known stored) :
    Follows (Halted start) (Grown start object first known pending) (edit .type type f) fun _ =>
      Grown start object first known pending := by
  intro t ht
  -- The type is there, so the edit cannot fail.
  have hedit : edit .type type f t = .ok () (t.modify .type type f) :=
    edit_eq_ok.2 ⟨(ht.holds (has_of_mem htype)).1, rfl⟩
  rw [hedit]
  refine ⟨fun _ after hrun => ?_, nofun⟩
  cases hrun
  exact ht.modifyType htype hname hf hbase hstored

end

end SymbolTable

end DefensiveCopy
