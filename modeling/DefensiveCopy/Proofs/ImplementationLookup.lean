import DefensiveCopy.Proofs.MemberSearch
import DefensiveCopy.SymbolTable.Interfaces
import Mathlib.Data.List.Forall2

/-!
# Which method implements an interface method

An interface method that is called on a type runs the method that implements it there.  The type has
to have the interface, or one constructed from the same definition
(`SymbolTable.IsDeclaredFor`).  A method that names the interface method as one that it implements
is taken first, wherever it stands among the members of the type and its base types.  Only if there
is none, methods are compared by name and parameters, so a match in the type itself may lose against
a method of one of its base types.

Both searches go through the members in the same order, so each is the search of
`SymbolTable.IsFirstListed` with its own property.

## Key results

- `SymbolTable.sameParameters_iff`: comparing parameters one by one
- `SymbolTable.findImplementation?_of_isDeclaredFor`: the two searches
- `SymbolTable.findImplementation?_exact`: what the lookup finds
-/

namespace DefensiveCopy.SymbolTable

variable {t : SymbolTable} {type target token : Token} {symbol : MethodSymbol}

/-! ## What is searched for -/

/-- The target is a method of an interface that the type has: it resolves and has a declaring type,
    the type is no type parameter, and one of its interfaces is the declaring type or shares its
    definition. -/
structure IsDeclaredFor (t : SymbolTable) (type target : Token) (symbol : MethodSymbol) : Prop where
  resolves : t.method? target = some symbol
  notParameter : ∀ owner, t.type? type = some owner → owner.kind ≠ .typeParameter
  hasInterface : ∃ interface, symbol.containingType = some interface ∧
    ∃ candidate ∈ t.allInterfaces type,
      candidate = interface ∨ t.definitionOf candidate = t.definitionOf interface

/-- The method names the target, or the definition of the target, among those it implements. -/
def ImplementsExplicitly (t : SymbolTable) (target : Token) (symbol : MethodSymbol)
    (token : Token) : Prop :=
  ∃ method, t.method? token = some method ∧
    ∃ named ∈ method.implements, named = target ∨ symbol.definition = some named

/-- Both parameters resolve, and they have the same type and are passed the same way. -/
def AgreesWith (t : SymbolTable) (left right : Token) : Prop :=
  ∃ first second, t.parameter? left = some first ∧ t.parameter? right = some second ∧
    first.type = second.type ∧ first.refKind = second.refKind

/-- The method is a public instance method with the name of the interface method and with parameters
    that agree with its parameters, one by one. -/
def ImplementsImplicitly (t : SymbolTable) (symbol : MethodSymbol) (token : Token) : Prop :=
  ∃ method, t.method? token = some method ∧ method.isStatic = false ∧
    method.accessibility = .publicAccess ∧ method.name = symbol.name ∧
      List.Forall₂ t.AgreesWith method.parameters symbol.parameters

/-- The method that implements the target for the type, if there is one. -/
inductive IsImplementation (t : SymbolTable) (type target : Token) : Option Token → Prop where
  | foreign (hforeign : ∀ symbol, ¬t.IsDeclaredFor type target symbol) :
    IsImplementation t type target none
  | explicit {symbol : MethodSymbol} {token : Token}
    (hdeclared : t.IsDeclaredFor type target symbol)
    (hfirst : t.IsFirstListed (t.ImplementsExplicitly target symbol) (t.typeAndBases type)
      (some token)) : IsImplementation t type target (some token)
  /-- An implicit implementation counts only where no member is an explicit one. -/
  | implicit {symbol : MethodSymbol} {found : Option Token}
    (hdeclared : t.IsDeclaredFor type target symbol)
    (hnone : t.IsFirstListed (t.ImplementsExplicitly target symbol) (t.typeAndBases type) none)
    (hfirst : t.IsFirstListed (t.ImplementsImplicitly symbol) (t.typeAndBases type) found) :
    IsImplementation t type target found

/-! ## The tests -/

/-- The test for an interface, in words of the interfaces that the type has. -/
private theorem hasInterface_iff {interface : Token} :
    t.hasInterface type interface ↔ ∃ candidate ∈ t.allInterfaces type,
      candidate = interface ∨ t.definitionOf candidate = t.definitionOf interface := by
  simp [hasInterface]

/-- A type that does not resolve counts as no type parameter. -/
private theorem isTypeParameter_eq_false_iff :
    t.isTypeParameter type = false ↔
      ∀ owner, t.type? type = some owner → owner.kind ≠ .typeParameter := by
  unfold isTypeParameter
  cases t.type? type <;> simp

/-- The test for two parameters; both have to resolve. -/
private theorem sameParameter_iff {left right : Token} :
    t.sameParameter left right ↔ t.AgreesWith left right := by
  unfold sameParameter AgreesWith
  cases t.parameter? left <;> cases t.parameter? right <;> simp

/-- The test for two parameter lists; they have to be of equal length. -/
theorem sameParameters_iff {left right : MethodSymbol} :
    t.sameParameters left right ↔ List.Forall₂ t.AgreesWith left.parameters right.parameters := by
  simp only [sameParameters, Bool.and_eq_true, beq_iff_eq, List.all_eq_true, sameParameter_iff,
    List.forall₂_iff_zip, Prod.forall]

/-- The test for an explicit implementation. -/
private theorem any_implementsExplicitly_iff :
    (t.method? token).any (implementsExplicitly · target symbol) ↔
      t.ImplementsExplicitly target symbol token := by
  -- Without a definition the target is compared with itself a second time.
  have hdefinition : ∀ named, named = target ∨ named = symbol.definition.getD target ↔
      named = target ∨ symbol.definition = some named := by
    intro named
    cases hdefinition : symbol.definition <;> simp [eq_comm]
  simp only [Option.any_eq_true, implementsExplicitly, List.any_eq_true, Bool.or_eq_true,
    beq_iff_eq, hdefinition, ImplementsExplicitly]

/-- The test for an implicit implementation. -/
private theorem any_implementsImplicitly_iff :
    (t.method? token).any (t.implementsImplicitly · symbol) ↔
      t.ImplementsImplicitly symbol token := by
  simp only [Option.any_eq_true, implementsImplicitly, Bool.and_eq_true, beq_iff_eq,
    Bool.not_eq_true', sameParameters_iff, ImplementsImplicitly]
  refine exists_congr fun method => and_congr_right fun _ => ?_
  constructor
  · rintro ⟨⟨⟨hname, hstatic⟩, hpublic⟩, hparameters⟩
    exact ⟨hstatic, hpublic, hname, hparameters⟩
  · rintro ⟨hstatic, hpublic, hname, hparameters⟩
    exact ⟨⟨⟨hname, hstatic⟩, hpublic⟩, hparameters⟩

/-! ## The lookup -/

/-- The search finds the first explicit implementation. -/
private theorem find?_explicit_eq_iff {found : Option Token} :
    (((t.typeAndBases type).flatMap t.members).find? fun token =>
      (t.method? token).any (implementsExplicitly · target symbol)) = found ↔
        t.IsFirstListed (t.ImplementsExplicitly target symbol) (t.typeAndBases type) found :=
  find?_members_eq_iff fun _ => any_implementsExplicitly_iff

/-- The search finds the first implicit implementation. -/
private theorem find?_implicit_eq_iff {found : Option Token} :
    (((t.typeAndBases type).flatMap t.members).find? fun token =>
      (t.method? token).any (t.implementsImplicitly · symbol)) = found ↔
        t.IsFirstListed (t.ImplementsImplicitly symbol) (t.typeAndBases type) found :=
  find?_members_eq_iff fun _ => any_implementsImplicitly_iff

/-- The lookup of a method that resolves and has a declaring type. -/
private theorem findImplementation?_of_method {interface : Token}
    (hsymbol : t.method? target = some symbol)
    (hinterface : symbol.containingType = some interface) :
    t.findImplementation? type target =
      if t.isTypeParameter type || !t.hasInterface type interface then none
      else
        (((t.inheritedMethods type).find? fun candidate =>
            implementsExplicitly candidate.2 target symbol).or
          ((t.inheritedMethods type).find? fun candidate =>
            t.implementsImplicitly candidate.2 symbol)).map (·.1) := by
  unfold findImplementation?
  rw [hsymbol]
  -- Explicit implementations are tried on all types before implicit ones.
  simp only [Option.bind_eq_bind, Option.bind_some, hinterface, Option.orElse_eq_orElse,
    Option.orElse_eq_or, Option.map_eq_bind]
  rfl

/-- Nothing is found for a target that is no method of an interface of the type. -/
private theorem findImplementation?_of_foreign (h : ∀ symbol, ¬t.IsDeclaredFor type target symbol) :
    t.findImplementation? type target = none := by
  cases hsymbol : t.method? target with
  | none => simp [findImplementation?, hsymbol]
  | some symbol =>
    cases hinterface : symbol.containingType with
    | none => simp [findImplementation?, hsymbol, hinterface]
    | some interface =>
      rw [findImplementation?_of_method hsymbol hinterface, if_pos]
      -- If the guard let the target pass, it would be a method of an interface of the type.
      rw [← Bool.not_eq_false, Bool.or_eq_false_iff, Bool.not_eq_false']
      rintro ⟨hparameter, hhas⟩
      exact h symbol ⟨hsymbol, isTypeParameter_eq_false_iff.1 hparameter, interface, hinterface,
        hasInterface_iff.1 hhas⟩

/-- On a type that has the interface, the explicit implementations are searched first and then the
    implicit ones. -/
theorem findImplementation?_of_isDeclaredFor (h : t.IsDeclaredFor type target symbol) :
    t.findImplementation? type target =
      (((t.typeAndBases type).flatMap t.members).find? fun token =>
        (t.method? token).any (implementsExplicitly · target symbol)).or
      (((t.typeAndBases type).flatMap t.members).find? fun token =>
        (t.method? token).any (t.implementsImplicitly · symbol)) := by
  obtain ⟨interface, hinterface, hhas⟩ := h.hasInterface
  have haccepted : (t.isTypeParameter type || !t.hasInterface type interface) = false := by
    rw [isTypeParameter_eq_false_iff.2 h.notParameter, hasInterface_iff.2 hhas]
    rfl
  rw [findImplementation?_of_method h.resolves hinterface, haccepted, if_neg Bool.false_ne_true,
    Option.map_or, t.find?_inheritedMethods type (implementsExplicitly · target symbol),
    t.find?_inheritedMethods type (t.implementsImplicitly · symbol)]

/-- The method that is looked up for a type is the one that implements the target for it.  There is
    none unless the target is a method of an interface that the type has.  If there is an explicit
    implementation among the members of the type and its base types, most derived first, it is the
    first one; if there is none, it is the first implicit one; and nothing if there is none of
    these either. -/
theorem findImplementation?_exact (t : SymbolTable) (type target : Token) (found : Option Token) :
    t.findImplementation? type target = found ↔ t.IsImplementation type target found := by
  constructor
  · rintro rfl
    by_cases hdeclared : ∃ symbol, t.IsDeclaredFor type target symbol
    · obtain ⟨symbol, hdeclared⟩ := hdeclared
      rw [findImplementation?_of_isDeclaredFor hdeclared]
      -- The implicit implementations are looked at only if no explicit one is found.
      cases hfind : ((t.typeAndBases type).flatMap t.members).find? fun token =>
          (t.method? token).any (implementsExplicitly · target symbol) with
      | some token => exact .explicit hdeclared (find?_explicit_eq_iff.1 hfind)
      | none =>
        exact .implicit hdeclared (find?_explicit_eq_iff.1 hfind) (find?_implicit_eq_iff.1 rfl)
    · rw [not_exists] at hdeclared
      rw [findImplementation?_of_foreign hdeclared]
      exact .foreign hdeclared
  · intro h
    cases h with
    | foreign hforeign => exact findImplementation?_of_foreign hforeign
    | explicit hdeclared hfirst =>
      rw [findImplementation?_of_isDeclaredFor hdeclared, find?_explicit_eq_iff.2 hfirst,
        Option.some_or]
    | implicit hdeclared hnone hfirst =>
      rw [findImplementation?_of_isDeclaredFor hdeclared, find?_explicit_eq_iff.2 hnone,
        find?_implicit_eq_iff.2 hfirst, Option.none_or]

end DefensiveCopy.SymbolTable
