import DefensiveCopy.SymbolTable.Ancestry

/-! # Interfaces and their implementations

The interfaces of a type are those it names, those its base types name, and those that these
interfaces name in turn.  Interface links may run in circles; the search enters each interface
once.  An interface that does not resolve is listed and leads nowhere. -/

namespace DefensiveCopy.SymbolTable

/-! ## All interfaces -/

/-- The tokens of the registered types, in the order of their rows. -/
def typeTokens (t : SymbolTable) : List Token :=
  (List.range t.types.size).map fun i => .ofParts .type (i + 1)

/-- The interfaces that a type names itself. -/
def interfacesOf (t : SymbolTable) (type : Token) : List Token :=
  ((t.type? type).map (·.interfaces)).getD []

/-- A token that resolves to a type is among the tokens of the registered types. -/
theorem mem_typeTokens_of_resolves {t : SymbolTable} {type : Token}
    (h : t.resolves .type type = true) : type ∈ t.typeTokens := by
  simp only [resolves, get?] at h
  cases hi : type.index? .type with
  | none => simp [hi] at h
  | some i =>
    have hlt : i < t.types.size := by simpa [hi, arena] using h
    exact List.mem_map.2 ⟨i, List.mem_range.2 hlt, (Token.eq_ofParts_of_index? hi).symm⟩

/-- Visiting a new item leaves fewer items to visit. -/
theorem length_filter_notMem_lt {α : Type} [DecidableEq α] {items visited : List α} {item : α}
    (hmem : item ∈ items) (hnew : item ∉ visited) :
    (items.filter (· ∉ visited ++ [item])).length < (items.filter (· ∉ visited)).length := by
  have hsplit : items.filter (· ∉ visited ++ [item]) =
      (items.filter (· ∉ visited)).filter (· ≠ item) := by
    rw [List.filter_filter]
    apply List.filter_congr
    intro a _
    simp [and_comm]
  rw [hsplit, List.length_filter_lt_length_iff_exists]
  exact ⟨item, List.mem_filter.2 ⟨hmem, by simpa using hnew⟩, by simp⟩

/-- The interfaces in `visited` followed by those reached from `pending` that are not among them,
    each followed by the ones it names. -/
def visitInterfaces (t : SymbolTable) (visited : List Token) : List Token → List Token
  | [] => visited
  | interface :: pending =>
    if interface ∈ visited then t.visitInterfaces visited pending
    else if t.resolves .type interface then
      t.visitInterfaces (visited ++ [interface]) (t.interfacesOf interface ++ pending)
    else t.visitInterfaces (visited ++ [interface]) pending
termination_by pending => ((t.typeTokens.filter (· ∉ visited)).length, pending.length)
decreasing_by
  · exact Prod.Lex.right _ (Nat.lt_succ_self _)
  · next hnew hresolves =>
    exact Prod.Lex.left _ _ (length_filter_notMem_lt (mem_typeTokens_of_resolves hresolves) hnew)
  · next hnew _ =>
    by_cases hmem : interface ∈ t.typeTokens
    · exact Prod.Lex.left _ _ (length_filter_notMem_lt hmem hnew)
    · have hsame : t.typeTokens.filter (· ∉ visited ++ [interface]) =
          t.typeTokens.filter (· ∉ visited) := by
        apply List.filter_congr
        intro a ha
        have hne : a ≠ interface := fun heq => hmem (heq ▸ ha)
        simp [hne]
      rw [hsame]
      exact Prod.Lex.right _ (Nat.lt_succ_self _)

/-- Every interface that a type has, by itself, through its base types or through another
    interface. -/
def allInterfaces (t : SymbolTable) (type : Token) : List Token :=
  (t.typeAndBases type).foldl
    (fun visited owner => t.visitInterfaces visited (t.interfacesOf owner)) []

/-! ## Implementations -/

/-- The token resolves to a type parameter. -/
def isTypeParameter (t : SymbolTable) (type : Token) : Bool :=
  (t.type? type).any (·.kind == .typeParameter)

/-- Two parameters resolve, have the same type and are passed the same way. -/
def sameParameter (t : SymbolTable) (left right : Token) : Bool :=
  match t.parameter? left, t.parameter? right with
  | some l, some r => l.type == r.type && l.refKind == r.refKind
  | _, _ => false

/-- Two methods have the same parameters, one by one. -/
def sameParameters (t : SymbolTable) (left right : MethodSymbol) : Bool :=
  left.parameters.length == right.parameters.length &&
    (left.parameters.zip right.parameters).all fun pair => t.sameParameter pair.1 pair.2

/-- The type has the interface, or one constructed from the same definition. -/
def hasInterface (t : SymbolTable) (type interface : Token) : Bool :=
  (t.allInterfaces type).any fun candidate =>
    candidate == interface || t.definitionOf candidate == t.definitionOf interface

/-- The method names `target`, or the definition of `target`, as one that it implements. -/
def implementsExplicitly (method : MethodSymbol) (target : Token) (symbol : MethodSymbol) : Bool :=
  method.implements.any fun implemented =>
    implemented == target || implemented == symbol.definition.getD target

/-- The method is a public instance method with the name and the parameters of the interface
    method. -/
def implementsImplicitly (t : SymbolTable) (method symbol : MethodSymbol) : Bool :=
  method.name == symbol.name && !method.isStatic && method.accessibility == .publicAccess &&
    t.sameParameters method symbol

/-- The method of a type or its base types that implements an interface method.  An explicit
    implementation anywhere wins over an implicit one. -/
def findImplementation? (t : SymbolTable) (type interfaceMethod : Token) : Option Token := do
  let symbol ← t.method? interfaceMethod
  let interface ← symbol.containingType
  if t.isTypeParameter type || !t.hasInterface type interface then none
  else
    let methods := t.inheritedMethods type
    let found ←
      methods.find? (fun candidate => implementsExplicitly candidate.2 interfaceMethod symbol) <|>
        methods.find? (fun candidate => t.implementsImplicitly candidate.2 symbol)
    return found.1

end DefensiveCopy.SymbolTable
