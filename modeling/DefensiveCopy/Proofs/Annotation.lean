import DefensiveCopy.Analysis.Necessity
import DefensiveCopy.MemberAccess.Pinning
import Mathlib.Tactic.Simps.Basic

/-!
# Adding read-only annotations

`SymbolTable.annotate` declares some more types and methods read-only and leaves all else as it is.
Most queries of a symbol table never look at these declarations, and their answers stay the same:
members, base types, overrides, interfaces and implementations, value and reference semantics,
library types, attributes, containers, accessibility.

The queries that do look all ask in the same direction.  What was read-only stays read-only, so a
copy that was unnecessary stays unnecessary.

## Key results

- `SymbolTable.get?_annotate`: what a lookup sees in an annotated table
- `SymbolTable.overrideFor?_annotate`, `SymbolTable.findImplementation?_annotate`,
  `SymbolTable.isGenerated?_annotate`, `SymbolTable.pinnable?_annotate`: queries that do not look
- `SymbolTable.isMethodReadOnly_annotate`: a read-only method stays read-only
- `SymbolTable.isUnnecessary_annotate`: an unnecessary copy stays unnecessary
-/

namespace DefensiveCopy

/-! ## Annotated symbols -/

/-- The type, declared read-only if asked for. -/
@[simps]
def TypeSymbol.annotated (type : TypeSymbol) (adds : Bool) : TypeSymbol :=
  { type with modifiers.isReadOnly := type.modifiers.isReadOnly || adds }

/-- The method, declared read-only if asked for. -/
@[simps]
def MethodSymbol.annotated (method : MethodSymbol) (adds : Bool) : MethodSymbol :=
  { method with modifiers.isReadOnly := method.modifiers.isReadOnly || adds }

@[simp] theorem MethodSymbol.isStatic_annotated (method : MethodSymbol) (adds : Bool) :
    (method.annotated adds).isStatic = method.isStatic := rfl

@[simp] theorem MethodSymbol.returnsByRefReadOnly_annotated (method : MethodSymbol) (adds : Bool) :
    (method.annotated adds).returnsByRefReadOnly = method.returnsByRefReadOnly := rfl

/-- The symbol, declared read-only if asked for and if it is a type or a method. -/
def Symbol.annotated (adds : Bool) : {kind : SymbolKind} → Symbol kind → Symbol kind
  | .type, symbol => TypeSymbol.annotated symbol adds
  | .method, symbol => MethodSymbol.annotated symbol adds
  | .module, symbol | .field, symbol | .parameter, symbol | .slot, symbol | .event, symbol
  | .property, symbol | .assembly, symbol => symbol

@[simp] theorem Symbol.name_annotated {kind : SymbolKind} (symbol : Symbol kind) (adds : Bool) :
    Symbol.name (Symbol.annotated adds symbol) = Symbol.name symbol := by
  cases kind <;> rfl

@[simp] theorem Symbol.attributes_annotated {kind : SymbolKind} (symbol : Symbol kind)
    (adds : Bool) :
    Symbol.attributes (Symbol.annotated adds symbol) = Symbol.attributes symbol := by
  cases kind <;> rfl

namespace SymbolTable

/-- The table in which the marked types and methods are declared read-only too. -/
def annotate (t : SymbolTable) (marks : Token → Bool) : SymbolTable :=
  { t with
    types := t.types.mapIdx fun i type => type.annotated (marks (.ofParts .type (i + 1)))
    methods := t.methods.mapIdx fun i method =>
      method.annotated (marks (.ofParts .method (i + 1))) }

variable (t : SymbolTable) (marks : Token → Bool)

/-- A lookup in an annotated table finds what was there, annotated. -/
theorem get?_annotate (kind : SymbolKind) (token : Token) :
    (t.annotate marks).get? kind token =
      (t.get? kind token).map (Symbol.annotated (marks token)) := by
  unfold get?
  cases hindex : token.index? kind with
  | none => rfl
  | some i =>
    -- The token of the place is the one looked up, so the mark of the place is its mark.
    have htoken := Token.eq_ofParts_of_index? hindex
    rw [Option.bind_some, Option.bind_some]
    cases kind with
    | type => simp only [arena, annotate, Array.getElem?_mapIdx, ← htoken]; rfl
    | method => simp only [arena, annotate, Array.getElem?_mapIdx, ← htoken]; rfl
    | _ => exact Option.map_id'.symm

/-- A type is found where it was, annotated. -/
@[simp] theorem type?_annotate (token : Token) :
    (t.annotate marks).type? token = (t.type? token).map (·.annotated (marks token)) :=
  t.get?_annotate marks .type token

/-- A method is found where it was, annotated. -/
@[simp] theorem method?_annotate (token : Token) :
    (t.annotate marks).method? token = (t.method? token).map (·.annotated (marks token)) :=
  t.get?_annotate marks .method token

/-- What is read off a type without regard to annotations is read off an annotated table alike. -/
private theorem bind_type?_annotate {β : Type} {read : TypeSymbol → Option β}
    (hread : ∀ symbol adds, read (symbol.annotated adds) = read symbol) (token : Token) :
    ((t.annotate marks).type? token).bind read = (t.type? token).bind read := by
  rw [type?_annotate]
  cases t.type? token with
  | none => rfl
  | some symbol => exact hread symbol (marks token)

/-- What is read off a method without regard to annotations is read off an annotated table alike. -/
private theorem bind_method?_annotate {β : Type} {read : MethodSymbol → Option β}
    (hread : ∀ symbol adds, read (symbol.annotated adds) = read symbol) (token : Token) :
    ((t.annotate marks).method? token).bind read = (t.method? token).bind read := by
  rw [method?_annotate]
  cases t.method? token with
  | none => rfl
  | some symbol => exact hread symbol (marks token)

@[simp] theorem resolves_annotate (kind : SymbolKind) (token : Token) :
    (t.annotate marks).resolves kind token = t.resolves kind token := by
  rw [resolves, get?_annotate, Option.isSome_map, resolves]

@[simp] theorem size_annotate : (t.annotate marks).size = t.size := by
  have hcount : ∀ kind, (t.annotate marks).count kind = t.count kind := by
    intro kind
    cases kind with
    | type => exact Array.size_mapIdx
    | method => exact Array.size_mapIdx
    | _ => rfl
  simp only [size, hcount]

@[simp] theorem nameOf?_annotate (token : Token) :
    (t.annotate marks).nameOf? token = t.nameOf? token := by
  simp [nameOf?, get?_annotate, Function.comp_def]

@[simp] theorem attributesOf_annotate (token : Token) :
    (t.annotate marks).attributesOf token = t.attributesOf token := by
  simp [attributesOf, get?_annotate, Function.comp_def]

/-! ## Members, base types and overrides -/

@[simp] theorem definitionOf_annotate (type : Token) :
    (t.annotate marks).definitionOf type = t.definitionOf type := by
  rw [definitionOf, t.bind_type?_annotate marks fun _ _ => rfl, definitionOf]

@[simp] theorem members_annotate (type : Token) :
    (t.annotate marks).members type = t.members type := by
  unfold members
  cases htype : t.type? type with
  | none => simp [htype]
  | some symbol =>
    simp [htype, Function.comp_def]

/-- A method of an annotated table, with its token. -/
def annotatedEntry (marks : Token → Bool) (entry : Token × MethodSymbol) : Token × MethodSymbol :=
  (entry.1, entry.2.annotated (marks entry.1))

/-- The methods of a type are the same, annotated. -/
private theorem memberMethods_annotate (type : Token) :
    (t.annotate marks).memberMethods type =
      (t.memberMethods type).map (annotatedEntry marks) := by
  have hentry : (t.annotate marks).methodWithToken? =
      fun token => (t.methodWithToken? token).map (annotatedEntry marks) := by
    funext token
    simp [methodWithToken?, annotatedEntry, Function.comp_def]
  rw [memberMethods, members_annotate, hentry, memberMethods, List.map_filterMap]

/-- The methods of a type with a name are the same, annotated. -/
theorem methodsNamed_annotate (type : Token) (name : String) :
    (t.annotate marks).methodsNamed type name =
      (t.methodsNamed type name).map (annotatedEntry marks) := by
  rw [methodsNamed, memberMethods_annotate, List.filter_map]
  rfl

/-- Base types are the same. -/
private theorem base?_annotate : (t.annotate marks).base? = t.base? := by
  funext type
  have hresolves : (t.annotate marks).resolves .type = t.resolves .type :=
    funext (t.resolves_annotate marks .type)
  rw [base?, hresolves, t.bind_type?_annotate marks fun _ _ => rfl, base?]

@[simp] theorem typeAndBases_annotate (type : Token) :
    (t.annotate marks).typeAndBases type = t.typeAndBases type := by
  rw [typeAndBases, resolves_annotate, base?_annotate, typeAndBases]

/-- The methods of a type and its base types are the same, annotated. -/
private theorem inheritedMethods_annotate (type : Token) :
    (t.annotate marks).inheritedMethods type =
      (t.inheritedMethods type).map (annotatedEntry marks) := by
  have hmethods : (t.annotate marks).memberMethods =
      fun owner => (t.memberMethods owner).map (annotatedEntry marks) :=
    funext (t.memberMethods_annotate marks)
  rw [inheritedMethods, typeAndBases_annotate, hmethods, inheritedMethods, List.map_flatMap]

@[simp] theorem overridden?_annotate (method : Token) :
    (t.annotate marks).overridden? method = t.overridden? method := by
  rw [overridden?, t.bind_method?_annotate marks fun _ _ => rfl, overridden?]

@[simp] theorem overridesWithin_annotate (target : Token) (fuel : Nat) (start : Option Token) :
    (t.annotate marks).overridesWithin target fuel start = t.overridesWithin target fuel start := by
  induction fuel generalizing start with
  | zero => rfl
  | succ fuel ih =>
    cases start with
    | none => rfl
    | some start => rw [overridesWithin, overridden?_annotate, ih, overridesWithin]

/-- The same override is found. -/
@[simp] theorem overrideFor?_annotate (type method : Token) :
    (t.annotate marks).overrideFor? type method = t.overrideFor? type method := by
  simp [overrideFor?, inheritedMethods_annotate, List.find?_map, Function.comp_def, annotatedEntry]

/-! ## Interfaces and their implementations -/

@[simp] theorem interfacesOf_annotate (type : Token) :
    (t.annotate marks).interfacesOf type = t.interfacesOf type := by
  simp [interfacesOf, Function.comp_def]

/-- The search for interfaces goes the same way. -/
@[simp] theorem visitInterfaces_annotate (visited pending : List Token) :
    (t.annotate marks).visitInterfaces visited pending = t.visitInterfaces visited pending := by
  -- One case for each branch of the search: done, met before, new, and unresolved.
  fun_induction visitInterfaces t visited pending with
  | case1 visited => rw [visitInterfaces]
  | case2 visited interface pending hmem ih => rw [visitInterfaces, if_pos hmem, ih]
  | case3 visited interface pending hnew hresolves ih =>
    rw [visitInterfaces, if_neg hnew, resolves_annotate, if_pos hresolves,
      interfacesOf_annotate, ih]
  | case4 visited interface pending hnew hresolves ih =>
    rw [visitInterfaces, if_neg hnew, resolves_annotate, if_neg hresolves, ih]

@[simp] theorem allInterfaces_annotate (type : Token) :
    (t.annotate marks).allInterfaces type = t.allInterfaces type := by
  simp [allInterfaces]

@[simp] theorem isTypeParameter_annotate (type : Token) :
    (t.annotate marks).isTypeParameter type = t.isTypeParameter type := by
  simp [isTypeParameter, Option.any_map]

@[simp] theorem hasInterface_annotate (type interface : Token) :
    (t.annotate marks).hasInterface type interface = t.hasInterface type interface := by
  simp [hasInterface]

@[simp] theorem implementsExplicitly_annotated (method symbol : MethodSymbol) (target : Token)
    (adds addsToo : Bool) :
    implementsExplicitly (method.annotated adds) target (symbol.annotated addsToo) =
      implementsExplicitly method target symbol :=
  rfl

@[simp] theorem implementsImplicitly_annotate (method symbol : MethodSymbol)
    (adds addsToo : Bool) :
    (t.annotate marks).implementsImplicitly (method.annotated adds) (symbol.annotated addsToo) =
      t.implementsImplicitly method symbol :=
  rfl

/-- The same implementation of an interface method is found. -/
@[simp] theorem findImplementation?_annotate (type interfaceMethod : Token) :
    (t.annotate marks).findImplementation? type interfaceMethod =
      t.findImplementation? type interfaceMethod := by
  unfold findImplementation?
  cases hmethod : t.method? interfaceMethod with
  | none => simp [hmethod]
  | some symbol =>
    -- The search runs over the same methods, annotated, and only their tokens are returned.
    have hfirst : ∀ first second : Option (Token × MethodSymbol),
        ((first.map (annotatedEntry marks)).or (second.map (annotatedEntry marks))).bind
          (fun found => some found.1) = (first.or second).bind fun found => some found.1 := by
      intro first second
      rw [← Option.map_or, Option.bind_map]
      rfl
    simp [hmethod, inheritedMethods_annotate, List.find?_map, Function.comp_def, annotatedEntry,
      hfirst]

/-! ## Value and reference semantics -/

@[simp] theorem constraintTypes_annotate (type : Token) :
    (t.annotate marks).constraintTypes type = t.constraintTypes type := by
  rw [constraintTypes, t.bind_type?_annotate marks fun _ _ => rfl, constraintTypes]

/-- Value semantics is told from kinds and constraints, at every depth. -/
private theorem isValueTypeWithin_annotate (fuel : Nat) (type : Token) :
    (t.annotate marks).isValueTypeWithin fuel type = t.isValueTypeWithin fuel type := by
  induction fuel generalizing type with
  | zero =>
    rw [isValueTypeWithin, type?_annotate, isValueTypeWithin]
    cases t.type? type with
    | none => rfl
    | some symbol => rfl
  -- Kinds and constraints are not marked, so only the recursion is left.
  | succ fuel ih =>
    rw [isValueTypeWithin, type?_annotate, isValueTypeWithin]
    cases t.type? type with
    | none => rfl
    | some symbol =>
      simp only [ih]
      rfl

/-- The same types have value semantics. -/
@[simp] theorem isValueType_annotate (type : Token) :
    (t.annotate marks).isValueType type = t.isValueType type :=
  t.isValueTypeWithin_annotate marks _ type

/-- Whether a type parameter is a reference is told from its constraints, at every depth. -/
private theorem isReferenceParameterWithin_annotate (fuel : Nat) (type : Token) :
    (t.annotate marks).isReferenceParameterWithin fuel type =
      t.isReferenceParameterWithin fuel type := by
  induction fuel generalizing type with
  | zero => rfl
  | succ fuel ih =>
    rw [isReferenceParameterWithin, t.bind_type?_annotate marks fun _ _ => rfl,
      isReferenceParameterWithin]
    simp [ih, Option.any_map]

/-- The same types have reference semantics. -/
@[simp] theorem isReferenceType_annotate (type : Token) :
    (t.annotate marks).isReferenceType type = t.isReferenceType type := by
  simp [isReferenceType, isReferenceParameterWithin_annotate, Option.any_map]

@[simp] theorem isEnum_annotate (type : Token) :
    (t.annotate marks).isEnum type = t.isEnum type := by
  simp [isEnum, Option.any_map]

@[simp] theorem hasEnumConstraint_annotate (type : Token) :
    (t.annotate marks).hasEnumConstraint type = t.hasEnumConstraint type := by
  simp [hasEnumConstraint, Option.any_map]

@[simp] theorem isOnUniversalBase_annotate (method : MethodSymbol) (adds : Bool) :
    (t.annotate marks).isOnUniversalBase (method.annotated adds) = t.isOnUniversalBase method := by
  simp [isOnUniversalBase, Option.any_bind,
    Function.comp_def, Option.any_map]

@[simp] theorem isOnInterface_annotate (method : MethodSymbol) (adds : Bool) :
    (t.annotate marks).isOnInterface (method.annotated adds) = t.isOnInterface method := by
  simp [isOnInterface, Option.any_bind,
    Function.comp_def, Option.any_map]

/-! ## Library types and generated code -/

/-- The same types are recognised as library types. -/
@[simp] theorem wellKnown?_annotate (type : Token) :
    (t.annotate marks).wellKnown? type = t.wellKnown? type := by
  rw [wellKnown?, definitionOf_annotate, t.bind_type?_annotate marks fun _ _ => rfl, wellKnown?]

@[simp] theorem isNullable_annotate (type : Token) :
    (t.annotate marks).isNullable type = t.isNullable type := by
  simp [isNullable]

@[simp] theorem hasAttribute_annotate (token : Token) (marker : WellKnownType) :
    (t.annotate marks).hasAttribute token marker = t.hasAttribute token marker := by
  simp [hasAttribute]

/-- Symbols have the same containers. -/
private theorem container?_annotate (token : Token) :
    (t.annotate marks).container? token = t.container? token := by
  unfold container?
  split
  · exact t.bind_method?_annotate marks (fun _ _ => rfl) token
  · rfl
  · rfl
  · rfl
  · exact t.bind_type?_annotate marks (fun _ _ => rfl) token
  · rfl
  · rfl

/-- Methods and fields belong to the same properties and events. -/
private theorem associated?_annotate (token : Token) :
    (t.annotate marks).associated? token = t.associated? token := by
  unfold associated?
  split
  · exact t.bind_method?_annotate marks (fun _ _ => rfl) token
  · rfl
  · rfl

/-- The walk through the containers meets the same marks. -/
private theorem generatedFrom_annotate (fuel : Nat) (token : Token) :
    (t.annotate marks).generatedFrom fuel token = t.generatedFrom fuel token := by
  induction fuel generalizing token with
  | zero => rfl
  | succ fuel ih =>
    have hmarked : (t.annotate marks).isMarkedGenerated token = t.isMarkedGenerated token := by
      simp only [isMarkedGenerated, hasAttribute_annotate, associated?_annotate]
    rw [generatedFrom, hmarked, container?_annotate, generatedFrom]
    simp only [ih]

/-- The same symbols are recognised as generated code. -/
@[simp] theorem isGenerated?_annotate (token : Token) :
    (t.annotate marks).isGenerated? token = t.isGenerated? token := by
  rw [isGenerated?, size_annotate, generatedFrom_annotate, isGenerated?]

/-! ## Accessibility and pinning -/

@[simp] theorem enclosingTypes_annotate (type : Token) :
    (t.annotate marks).enclosingTypes type = t.enclosingTypes type := by
  have hnext : (fun token => ((t.annotate marks).type? token).bind (·.containingType)) =
      fun token => (t.type? token).bind (·.containingType) :=
    funext (t.bind_type?_annotate marks fun _ _ => rfl)
  rw [enclosingTypes, hnext, enclosingTypes]

@[simp] theorem assemblyOf?_annotate (type : Token) :
    (t.annotate marks).assemblyOf? type = t.assemblyOf? type := by
  have hmodule : (t.annotate marks).module? = t.module? := rfl
  simp only [assemblyOf?, Option.bind_eq_bind, enclosingTypes_annotate, hmodule]
  congr 1
  funext outermost
  exact t.bind_type?_annotate marks (fun _ _ => rfl) outermost

/-- The same methods may be used from the same places. -/
@[simp] theorem isAccessibleWithin_annotate (method : MethodSymbol) (adds : Bool)
    (within : Token) :
    (t.annotate marks).isAccessibleWithin (method.annotated adds) within =
      t.isAccessibleWithin method within := by
  simp [isAccessibleWithin, grantsAccess, sameAssembly, isNestedWithin, isWithinDerived]

@[simp] theorem pinnableOn?_annotate (within type : Token) :
    (t.annotate marks).pinnableOn? within type = t.pinnableOn? within type := by
  simp [pinnableOn?, methodsNamed_annotate, List.find?_map, Function.comp_def, annotatedEntry,
    isPinnable]

/-- Values are pinned through the same methods. -/
@[simp] theorem pinnable?_annotate (type within : Token) :
    (t.annotate marks).pinnable? type within = t.pinnable? type within := by
  have hon : (t.annotate marks).pinnableOn? within = t.pinnableOn? within :=
    funext (t.pinnableOn?_annotate marks within)
  have hthrough : (t.annotate marks).pinnableThrough? within = t.pinnableThrough? within := by
    funext constraint
    simp [pinnableThrough?, hon, Option.any_map]
  simp [pinnable?, hthrough]

/-- Pointer variables point at the same types. -/
@[simp] theorem pointeeOf?_annotate (slot : Token) :
    (t.annotate marks).pointeeOf? slot = t.pointeeOf? slot := by
  have hslot : (t.annotate marks).slot? slot = t.slot? slot := rfl
  rw [pointeeOf?, hslot, pointeeOf?]
  cases (t.slot? slot).bind (·.type) with
  | none => rfl
  | some type =>
    rw [Option.bind_some, Option.bind_some, type?_annotate]
    cases t.type? type with
    | none => rfl
    | some symbol =>
      rw [Option.map_some, Option.filter_some, Option.filter_some, TypeSymbol.annotated_kind]
      split <;> rfl

/-- The walk to the declaring type goes the same way, at every depth. -/
private theorem declaringTypeWithin_annotate (fuel : Nat) :
    (t.annotate marks).declaringTypeWithin fuel = t.declaringTypeWithin fuel := by
  induction fuel with
  | zero => rfl
  | succ fuel ih =>
    funext token
    unfold declaringTypeWithin
    split
    · -- A local function asks the method around it, with less fuel.
      rw [ih]
      exact t.bind_method?_annotate marks (fun _ _ => rfl) token
    · rfl
    · rfl
    · rfl
    · exact t.bind_type?_annotate marks (fun _ _ => rfl) token
    · rfl

@[simp] theorem declaringType?_annotate (token : Token) :
    (t.annotate marks).declaringType? token = t.declaringType? token := by
  rw [declaringType?, declaringTypeWithin_annotate, declaringType?]

/-! ## What looks at the annotations -/

/-- A read-only type stays read-only. -/
theorem isTypeReadOnly_annotate {type : Token} (h : t.isTypeReadOnly type) :
    (t.annotate marks).isTypeReadOnly type := by
  obtain ⟨symbol, hsymbol, hreadOnly⟩ := (Option.any_eq_true _ _).1 h
  rw [isTypeReadOnly, type?_annotate, hsymbol, Option.map_some, Option.any_some,
    TypeSymbol.annotated_modifiers_isReadOnly, hreadOnly, Bool.true_or]

/-- A read-only method stays read-only. -/
theorem isMethodReadOnly_annotate {method : MethodSymbol} (adds : Bool)
    (h : t.isMethodReadOnly method) :
    (t.annotate marks).isMethodReadOnly (method.annotated adds) := by
  rw [isMethodReadOnly, Bool.or_eq_true, Bool.and_eq_true] at h ⊢
  rcases h with hdeclared | ⟨hinstance, hcontaining⟩
  · left
    rw [MethodSymbol.annotated_modifiers_isReadOnly, hdeclared, Bool.true_or]
  · right
    refine ⟨hinstance, ?_⟩
    obtain ⟨owner, howner, hreadOnly⟩ := (Option.any_eq_true _ _).1 hcontaining
    exact (Option.any_eq_true _ _).2 ⟨owner, howner, t.isTypeReadOnly_annotate marks hreadOnly⟩

/-- The members of the nullable wrapper that leave their value alone are the same. -/
@[simp] theorem isPureNullableMember_annotate (method : MethodSymbol) (adds : Bool) :
    (t.annotate marks).isPureNullableMember (method.annotated adds) =
      t.isPureNullableMember method := by
  -- The parameters are read off the definition, if the method has one that is known.
  have hdefinition : ((method.definition.bind (t.annotate marks).method?).getD
      (method.annotated adds)).parameters =
        ((method.definition.bind t.method?).getD method).parameters := by
    cases method.definition with
    | none => rfl
    | some definition =>
      rw [Option.bind_some, Option.bind_some, method?_annotate]
      cases t.method? definition with
      | none => rfl
      | some found => rfl
  have hparameter : (t.annotate marks).takesFirstTypeParameter = t.takesFirstTypeParameter := by
    funext parameter
    have hinfo : ∀ type : Token, ((t.annotate marks).type? type).bind (·.parameterInfo) =
        (t.type? type).bind (·.parameterInfo) :=
      t.bind_type?_annotate marks fun _ _ => rfl
    simp only [takesFirstTypeParameter, Option.bind_assoc, hinfo]
    rfl
  simp only [isPureNullableMember, MethodSymbol.annotated_name, MethodSymbol.annotated_parameters,
    MethodSymbol.annotated_definition, hdefinition, hparameter]

/-- A universal member that leaves values of a type alone still does. -/
private theorem hasPureUniversal_annotate {type target : Token}
    (h : t.hasPureUniversal type target) :
    (t.annotate marks).hasPureUniversal type target := by
  rw [hasPureUniversal] at h ⊢
  rw [overrideFor?_annotate]
  cases hoverride : t.overrideFor? type target with
  | none => rfl
  | some found =>
    rw [hoverride, Option.bind_some] at h
    rw [Option.bind_some, method?_annotate]
    cases hfound : t.method? found with
    | none => rfl
    | some method =>
      rw [hfound] at h
      -- The override is on the universal base as before, or read-only as before.
      dsimp only [Option.map_some] at h ⊢
      rw [isOnUniversalBase_annotate]
      rw [Bool.or_eq_true] at h ⊢
      exact h.imp_right (t.isMethodReadOnly_annotate marks _)

/-- A read-only implementation of an interface method stays read-only. -/
private theorem hasReadOnlyImplementation_annotate {type target : Token}
    (h : t.hasReadOnlyImplementation type target) :
    (t.annotate marks).hasReadOnlyImplementation type target := by
  rw [hasReadOnlyImplementation] at h ⊢
  rw [findImplementation?_annotate]
  obtain ⟨method, hmethod, hreadOnly⟩ := (Option.any_eq_true _ _).1 h
  obtain ⟨found, hfound, hlookup⟩ := Option.bind_eq_some_iff.1 hmethod
  rw [hfound, Option.bind_some, method?_annotate, hlookup]
  exact t.isMethodReadOnly_annotate marks _ hreadOnly

/-- A method that leaves receivers of a type alone still does. -/
private theorem leavesReceiverAlone_annotate {type target : Token} {symbol : TypeSymbol}
    {method : MethodSymbol} (adds addsToo : Bool)
    (h : t.leavesReceiverAlone type symbol target method) :
    (t.annotate marks).leavesReceiverAlone type (symbol.annotated adds) target
      (method.annotated addsToo) := by
  have hmethod : t.isMethodReadOnly method → _ := t.isMethodReadOnly_annotate marks addsToo
  have huniversal : t.hasPureUniversal type target → _ := t.hasPureUniversal_annotate marks
  have hinterface : t.hasReadOnlyImplementation type target → _ :=
    t.hasReadOnlyImplementation_annotate marks
  simp only [leavesReceiverAlone, isValueType_annotate, isOnUniversalBase_annotate,
    isEnum_annotate, isNullable_annotate, isPureNullableMember_annotate,
    hasEnumConstraint_annotate, isOnInterface_annotate, TypeSymbol.annotated_modifiers_isReadOnly,
    TypeSymbol.annotated_kind, TypeSymbol.annotated_special, Bool.or_eq_true,
    Bool.and_eq_true] at h ⊢
  -- The answer is built from parts that stay or become true, never from their negation.
  grind

/-- A copy that is unnecessary stays unnecessary. -/
theorem isUnnecessary_annotate {type target : Token} (h : t.isUnnecessary type target) :
    (t.annotate marks).isUnnecessary type target := by
  rw [isUnnecessary] at h ⊢
  rw [method?_annotate, type?_annotate]
  cases hmethod : t.method? target with
  | none =>
    rw [hmethod] at h
    cases h
  | some method =>
    cases htype : t.type? type with
    -- Without a record of the type, the method decides alone.
    | none =>
      rw [hmethod, htype] at h
      exact t.isMethodReadOnly_annotate marks _ h
    | some symbol =>
      rw [hmethod, htype] at h
      exact t.leavesReceiverAlone_annotate marks _ _ h

/-- A copy is classified as unnecessary exactly if it is. -/
private theorem classify_eq_unnecessary_iff {type target : Token} :
    t.classify type target = .unnecessary ↔ t.isUnnecessary type target := by
  rw [classify]
  split <;> simp_all

/-- A copy that is classified as unnecessary still is. -/
theorem classify_annotate_of_unnecessary {type target : Token}
    (h : t.classify type target = .unnecessary) :
    (t.annotate marks).classify type target = .unnecessary := by
  rw [classify_eq_unnecessary_iff] at h ⊢
  exact t.isUnnecessary_annotate marks h

/-- The class of a copy stays the same, or the copy was necessary and becomes unnecessary. -/
theorem classify_annotate (type target : Token) :
    t.classify type target = (t.annotate marks).classify type target ∨
      t.classify type target = .necessary ∧
        (t.annotate marks).classify type target = .unnecessary := by
  cases hbefore : t.classify type target with
  | unnecessary => exact .inl (t.classify_annotate_of_unnecessary marks hbefore).symm
  | necessary =>
    cases (t.annotate marks).classify type target with
    | unnecessary => exact .inr ⟨rfl, rfl⟩
    | necessary => exact .inl rfl

end SymbolTable

end DefensiveCopy
