import DefensiveCopy.Analysis.Necessity
import DefensiveCopy.Proofs.ConstructedMembers

/-!
# Constructed types answer as their definitions

A constructed type copies what its definition says about itself and looks its members up there.  So
the two are told apart only by their tokens, and nearly every question about a receiver's type has
one answer for both: its semantics, its interfaces, the methods that run on it and the class of a
copy that is made to call them.

Constraints are the exception, since they are not copied.  They belong to type parameters, but
nothing keeps them off other types, and the class of a copy depends on them.  A struct that names
the base of enumerations as a constraint needs no copies, unlike a type that is constructed from it
(`SymbolTable.classify_cellsTable`).

Most of these questions walk through the base types.  The two walks start at different types and go
on at the same one, but a walk stops at a type that it has passed.  Registered base types have no
circles, so neither walk can come back to where it started, and both go on alike
(`chainAvoiding_succ_of_acyclic`).

## Key results

- `chainAvoiding_congr`: what a chain has passed does not matter to it unless it comes back
- `SymbolTable.not_transGen_hasBase`: registered base types have no circles
- `SymbolTable.IsConstructedFrom.exists_typeAndBases`: the two walks through the base types
- `SymbolTable.Later.isConstructedFrom`: the definition and the constructed type keep together
- `SymbolTable.answersAlike_constructed`: the definition and the constructed type answer alike
-/

namespace DefensiveCopy

/-! ## Chains without circles -/

section

variable {α : Type} [DecidableEq α] {next : α → Option α} {R : α → α → Prop} {fuel : Nat}
  {passed other : List α} {start : α}

/-- What a chain has passed does not matter to it if it does not come back there. -/
theorem chainAvoiding_congr (hlink : ∀ source target, next source = some target → R source target)
    (hacyclic : ∀ item, ¬Relation.TransGen R item item)
    (hpassed : ∀ item ∈ passed, ¬Relation.ReflTransGen R start item)
    (hother : ∀ item ∈ other, ¬Relation.ReflTransGen R start item) :
    chainAvoiding next fuel passed start = chainAvoiding next fuel other start := by
  induction fuel generalizing passed other start with
  | zero => rfl
  | succ fuel ih =>
    rw [chainAvoiding, chainAvoiding, if_neg fun hmem => hpassed start hmem .refl,
      if_neg fun hmem => hother start hmem .refl]
    cases hnext : next start with
    | none => rfl
    | some following =>
      -- From the next item on, the chain comes back neither here nor to what was passed before.
      have haway {items : List α} (h : ∀ item ∈ items, ¬Relation.ReflTransGen R start item) :
          ∀ item ∈ start :: items, ¬Relation.ReflTransGen R following item :=
        List.forall_mem_cons.2
          ⟨fun hback => hacyclic start (.head' (hlink start following hnext) hback),
            fun item hitem hback => h item hitem (.head (hlink start following hnext) hback)⟩
      exact congrArg (start :: ·) (ih (haway hpassed) (haway hother))

/-- After its first item, a chain without circles depends only on where that item leads. -/
theorem chainAvoiding_succ_of_acyclic
    (hlink : ∀ source target, next source = some target → R source target)
    (hacyclic : ∀ item, ¬Relation.TransGen R item item) (start : α) :
    chainAvoiding next (fuel + 1) [] start =
      start :: ((next start).map (chainAvoiding next fuel [])).getD [] := by
  rw [chainAvoiding, if_neg List.not_mem_nil]
  cases hnext : next start with
  | none => rfl
  | some following =>
    -- The chain never comes back to its start, so it need not avoid it.
    have hback : ¬Relation.ReflTransGen R following start :=
      fun hback => hacyclic start (.head' (hlink start following hnext) hback)
    have hsame : chainAvoiding next fuel [start] following = chainAvoiding next fuel [] following :=
      chainAvoiding_congr hlink hacyclic (List.forall_mem_singleton.2 hback)
        (List.forall_mem_nil _)
    exact congrArg (start :: ·) hsame

end

namespace SymbolTable

variable {t after later : SymbolTable} {type definition : Token} {generic symbol : TypeSymbol}
  {typeArguments : List Token}

/-- In a table that registration leads to, no type derives from itself. -/
theorem not_transGen_hasBase (h : t.Reachable) (type : Token) :
    ¬Relation.TransGen t.HasBase type type := by
  -- The links to base types are one of the chains that registration keeps free of circles.
  have hview (source : Token) : t.view ChainLink.base.target source =
      (t.type? source).bind (·.base) :=
    view_of_kind (fun {other} _ hne => by cases other <;> first | rfl | exact absurd rfl hne) source
  have hsame : t.HasBase = fun source target =>
      t.view ChainLink.base.target source = some target := by
    funext source target
    rw [hview, HasBase, Option.bind_eq_some_iff]
  rw [hsame]
  exact not_transGen_of_wellFounded ((intact_of_reachable h).chain_wellFounded .base) type

/-- The walk from a type goes on where its base type leads. -/
private theorem typeAndBases_of_reachable (h : t.Reachable) (hget : t.type? type = some symbol) :
    t.typeAndBases type = type :: ((t.base? type).map (chainAvoiding t.base? 255 [])).getD [] := by
  have hresolves : t.resolves .type type := Option.isSome_of_eq_some hget
  rw [typeAndBases, if_pos hresolves]
  exact chainAvoiding_succ_of_acyclic (fun _ _ hbase => (base?_eq_some_iff.1 hbase).1)
    (not_transGen_hasBase h) type

/-! ## Types that are not type parameters -/

/-- The kind alone decides about values, unless the type is a type parameter. -/
private theorem isValueType_of_get? (hget : t.type? type = some symbol)
    (hkind : symbol.kind ≠ .typeParameter) :
    t.isValueType type = (symbol.kind == .structType || symbol.kind == .enumType) := by
  rw [isValueType, isValueTypeWithin, hget]
  dsimp only
  cases hsymbol : symbol.kind <;> first | rfl | exact absurd hsymbol hkind

/-- The kind alone decides about references, unless the type is a type parameter. -/
private theorem isReferenceType_of_get? (hget : t.type? type = some symbol)
    (hkind : symbol.kind ≠ .typeParameter) :
    t.isReferenceType type =
      [.classType, .interfaceType, .delegateType, .array, .dynamic].contains symbol.kind := by
  rw [isReferenceType, hget, Option.any_some]
  cases hsymbol : symbol.kind <;> first | rfl | exact absurd hsymbol hkind

/-! ## A definition and a type constructed from it -/

/-- The type was constructed from the definition, which is declared itself, and has gained no
    members since. -/
structure IsConstructedFrom (t : SymbolTable) (type definition : Token) (generic : TypeSymbol)
    (typeArguments : List Token) : Prop where
  generic? : t.type? definition = some generic
  constructed? : t.type? type = some (constructed definition generic typeArguments)
  declared : generic.definition = none

/-- Two types have one answer to what is asked of a receiver's type. -/
structure AnswersAlike (t : SymbolTable) (left right : Token) : Prop where
  isValueType : t.isValueType left = t.isValueType right
  isReferenceType : t.isReferenceType left = t.isReferenceType right
  isTypeReadOnly : t.isTypeReadOnly left = t.isTypeReadOnly right
  wellKnown? : t.wellKnown? left = t.wellKnown? right
  allInterfaces : t.allInterfaces left = t.allInterfaces right
  overrideFor? (method : Token) : t.overrideFor? left method = t.overrideFor? right method
  findImplementation? (method : Token) :
    t.findImplementation? left method = t.findImplementation? right method

/-- A type without a definition lists its own members. -/
private theorem members_of_declared {place : Token} {symbol : TypeSymbol}
    (hget : t.type? place = some symbol) (h : symbol.definition = none) :
    t.members place = symbol.members :=
  members_of_lists (.own hget (.inl h))

/-- A call on a receiver whose type has an enumeration constraint needs no copy. -/
private theorem classify_of_hasEnumConstraint {place target : Token}
    (hconstraint : t.hasEnumConstraint place) (htarget : t.resolves .method target) :
    t.classify place target = .unnecessary := by
  obtain ⟨method, hmethod⟩ := Option.isSome_iff_exists.1 htarget
  -- A type with a constraint resolves.
  have htype : t.type? place ≠ none := by
    intro hnone
    simp [hasEnumConstraint, constraintTypes, hnone] at hconstraint
  obtain ⟨symbol, hsymbol⟩ := Option.ne_none_iff_exists'.1 htype
  have hunnecessary : t.isUnnecessary place target := by
    simp [isUnnecessary, show t.method? target = some method from hmethod, hsymbol,
      leavesReceiverAlone, hconstraint]
  rw [classify, if_pos hunnecessary]

namespace IsConstructedFrom

variable (h : t.IsConstructedFrom type definition generic typeArguments)

include h

/-- The methods are those of the definition. -/
private theorem memberMethods : t.memberMethods type = t.memberMethods definition := by
  have htype : t.members type = generic.members :=
    members_of_lists (.shared h.constructed? rfl rfl h.generic?)
  rw [SymbolTable.memberMethods, SymbolTable.memberMethods, htype,
    members_of_declared h.generic? h.declared]

/-- The base type is that of the definition. -/
private theorem base? : t.base? type = t.base? definition := by
  rw [SymbolTable.base?, SymbolTable.base?, h.constructed?, h.generic?]
  rfl

/-- The interfaces are those of the definition. -/
private theorem interfacesOf : t.interfacesOf type = t.interfacesOf definition := by
  rw [SymbolTable.interfacesOf, SymbolTable.interfacesOf, h.constructed?, h.generic?]
  rfl

/-- Both have one and the same definition, which is the declared type. -/
private theorem definitionOf : t.definitionOf type = t.definitionOf definition := by
  rw [SymbolTable.definitionOf, SymbolTable.definitionOf, h.constructed?, h.generic?,
    Option.bind_some, Option.bind_some, h.declared]
  rfl

/-- The base types of the constructed type are those of its definition. -/
theorem exists_typeAndBases (hreachable : t.Reachable) :
    ∃ bases, t.typeAndBases type = type :: bases ∧
      t.typeAndBases definition = definition :: bases := by
  refine ⟨_, typeAndBases_of_reachable hreachable h.constructed?, ?_⟩
  rw [h.base?]
  exact typeAndBases_of_reachable hreachable h.generic?

/-- The inherited methods are those of the definition. -/
private theorem inheritedMethods (hreachable : t.Reachable) :
    t.inheritedMethods type = t.inheritedMethods definition := by
  obtain ⟨bases, htype, hdefinition⟩ := h.exists_typeAndBases hreachable
  rw [SymbolTable.inheritedMethods, SymbolTable.inheritedMethods, htype, hdefinition,
    List.flatMap_cons, List.flatMap_cons, h.memberMethods]

/-- The search for interfaces comes to the same ones. -/
private theorem allInterfaces (hreachable : t.Reachable) :
    t.allInterfaces type = t.allInterfaces definition := by
  obtain ⟨bases, htype, hdefinition⟩ := h.exists_typeAndBases hreachable
  -- After the first type both searches have visited the same interfaces.
  rw [SymbolTable.allInterfaces, SymbolTable.allInterfaces, htype, hdefinition,
    List.foldl_cons, List.foldl_cons, h.interfacesOf]

/-- The search for an implementation comes to the same one. -/
private theorem findImplementation? (hreachable : t.Reachable) (method : Token) :
    t.findImplementation? type method = t.findImplementation? definition method := by
  have hparameter : t.isTypeParameter type = t.isTypeParameter definition := by
    rw [isTypeParameter, isTypeParameter, h.constructed?, h.generic?]
    rfl
  have hinterface (interface : Token) :
      t.hasInterface type interface = t.hasInterface definition interface := by
    rw [hasInterface, hasInterface, h.allInterfaces hreachable]
  simp only [SymbolTable.findImplementation?, hparameter, hinterface, h.inheritedMethods hreachable]

/-- All that is asked of a receiver's type is copied from the definition or found through it. -/
theorem answersAlike (hreachable : t.Reachable) (hkind : generic.kind ≠ .typeParameter) :
    t.AnswersAlike type definition where
  isValueType := by
    rw [isValueType_of_get? h.constructed? hkind, isValueType_of_get? h.generic? hkind]
    rfl
  isReferenceType := by
    rw [isReferenceType_of_get? h.constructed? hkind, isReferenceType_of_get? h.generic? hkind]
    rfl
  isTypeReadOnly := by
    rw [isTypeReadOnly, isTypeReadOnly, h.constructed?, h.generic?]
    rfl
  wellKnown? := by rw [SymbolTable.wellKnown?, SymbolTable.wellKnown?, h.definitionOf]
  allInterfaces := h.allInterfaces hreachable
  -- The search reads the methods of the base chain only, and these are the same.
  overrideFor? method := by
    rw [SymbolTable.overrideFor?, SymbolTable.overrideFor?, h.inheritedMethods hreachable]
  findImplementation? := h.findImplementation? hreachable

/-- Constraints are not taken over from the definition. -/
theorem hasEnumConstraint : t.hasEnumConstraint type = false := by
  rw [SymbolTable.hasEnumConstraint, constraintTypes, h.constructed?]
  rfl

/-- Without an enumeration constraint on the definition, a copy for a call on the constructed type
    is necessary if and only if one for the same call on the definition is. -/
private theorem classify_of_unconstrained (halike : t.AnswersAlike type definition)
    (hconstraint : t.hasEnumConstraint definition = false) (target : Token) :
    t.classify type target = t.classify definition target := by
  have henum : t.isEnum type = t.isEnum definition := by
    rw [isEnum, isEnum, h.constructed?, h.generic?]
    rfl
  -- Every other reason to leave a receiver alone is one of the shared answers or is copied.
  rw [SymbolTable.classify, SymbolTable.classify, isUnnecessary, isUnnecessary, h.constructed?,
    h.generic?]
  simp only [leavesReceiverAlone, hasPureUniversal, hasReadOnlyImplementation, isNullable,
    halike.isValueType, halike.wellKnown?, halike.overrideFor?, halike.findImplementation?,
    h.hasEnumConstraint, hconstraint, henum]
  rfl

/-- The classes for both differ in nothing but an enumeration constraint on the definition, which
    makes every copy for a call on it unnecessary. -/
private theorem classify_definition (halike : t.AnswersAlike type definition) (target : Token) :
    t.classify definition target =
      if t.hasEnumConstraint definition ∧ t.resolves .method target then .unnecessary
      else t.classify type target := by
  cases hconstraint : t.hasEnumConstraint definition with
  | false => simp [h.classify_of_unconstrained halike hconstraint target]
  | true =>
    split
    · next hboth => exact classify_of_hasEnumConstraint hconstraint hboth.2
    · next hneither =>
      -- Nothing is known about a method that does not resolve, whatever the type.
      have hmethod : t.method? target = none := by
        simpa [resolves, SymbolTable.method?] using hneither
      rw [SymbolTable.classify, SymbolTable.classify, isUnnecessary, isUnnecessary, hmethod]

end IsConstructedFrom

/-- A declared type and one constructed from it keep together as long as no member is registered on
    the constructed type. -/
theorem Later.isConstructedFrom
    (hlater : Later (fun call => call.home? ≠ some type) after later)
    (h : after.IsConstructedFrom type definition generic typeArguments) :
    ∃ gained, later.IsConstructedFrom type definition
      { generic with members := generic.members ++ gained } typeArguments := by
  obtain ⟨gained, hdefinition, -⟩ := hlater.type? h.generic?
  obtain ⟨own, htype, hown⟩ := hlater.type? h.constructed?
  -- The copied record does not mention members, so those that the definition gains do not show.
  obtain rfl : own = [] := hown fun _ => id
  exact ⟨gained, hdefinition, htype, h.declared⟩

/-- A class with a method, and a generic class that derives from it. -/
def boxTable : SymbolTable := RegistrationCall.runAll
  [.addType { name := "Shape", namespaceName := "App", kind := .classType },
   .addMethod { name := "Area", containingType := some (.ofParts .type 1) },
   .addType { name := "Box`1", namespaceName := "App", kind := .classType,
              base := some (.ofParts .type 1) }] {}

/-- The table with a type that is constructed from the generic class. -/
def boxesTable : SymbolTable :=
  RegistrationCall.runAll [.construct (.ofParts .type 2) []] boxTable

/-- The table after the generic class has overridden the method. -/
def filledTable : SymbolTable := RegistrationCall.runAll
  [.addMethod { name := "Area", containingType := some (.ofParts .type 2),
                overridden := some (.ofParts .method 1) }] boxesTable

/-- A generic struct with a method that names the base of enumerations as a constraint, although it
    is no type parameter. -/
def cellTable : SymbolTable := RegistrationCall.runAll
  [.addType { name := "Enum", namespaceName := "System", kind := .classType, special := .enum },
   .addType { name := "Cell`1", namespaceName := "App", kind := .structType,
              parameterInfo := some { constraintTypes := [.ofParts .type 1] } },
   .addMethod { name := "Read", containingType := some (.ofParts .type 2) }] {}

/-- The table with a type that is constructed from the struct. -/
def cellsTable : SymbolTable :=
  RegistrationCall.runAll [.construct (.ofParts .type 2) []] cellTable

end SymbolTable

end DefensiveCopy
