import DefensiveCopy.SymbolTable.Ancestry

/-! # Accessibility

Whether code inside a type may use a member.  Three questions decide it: is the code nested inside
the declaring type, is it nested inside a type that derives from the declaring type, and is it part
of the same assembly.  Constructed types count as their definitions.  An assembly that cannot be
found counts as the same. -/

namespace DefensiveCopy.SymbolTable

/-- A type followed by the types that it is nested in, innermost first. -/
def enclosingTypes (t : SymbolTable) (type : Token) : List Token :=
  chain (fun token => (t.type? token).bind (·.containingType)) type

/-- Code inside `within` is nested inside `owner`. -/
def isNestedWithin (t : SymbolTable) (owner within : Token) : Bool :=
  (t.enclosingTypes within).any fun type => t.definitionOf type == t.definitionOf owner

/-- Code inside `within` is nested inside a type that is or derives from `owner`. -/
def isWithinDerived (t : SymbolTable) (owner within : Token) : Bool :=
  (t.enclosingTypes within).any fun type =>
    (t.typeAndBases type).any fun base => t.definitionOf base == t.definitionOf owner

/-- The assembly of the outermost type around a type. -/
def assemblyOf? (t : SymbolTable) (type : Token) : Option Token := do
  let outermost ← (t.enclosingTypes type).getLast?
  let module ← (← t.type? outermost).module
  (← t.module? module).assembly

/-- Two types belong to the same assembly, unless both assemblies are known and differ. -/
def sameAssembly (t : SymbolTable) (left right : Token) : Bool :=
  match t.assemblyOf? left, t.assemblyOf? right with
  | some l, some r => l == r
  | _, _ => true

/-- Code inside `within` may use a member of `owner` that is declared with the given
    accessibility. -/
def grantsAccess (t : SymbolTable) (accessibility : Accessibility) (owner within : Token) : Bool :=
  match accessibility with
  | .publicAccess => true
  | .internalAccess => t.sameAssembly owner within
  | .protectedInternal => t.sameAssembly owner within || t.isWithinDerived owner within
  | .protectedAccess => t.isNestedWithin owner within || t.isWithinDerived owner within
  | .privateProtected =>
    t.isNestedWithin owner within || (t.sameAssembly owner within && t.isWithinDerived owner within)
  | .privateAccess => t.isNestedWithin owner within

/-- Code inside `within` may use the method.  A method without a containing type is open to all. -/
def isAccessibleWithin (t : SymbolTable) (method : MethodSymbol) (within : Token) : Bool :=
  match method.containingType with
  | none => true
  | some owner => t.grantsAccess method.accessibility owner within

end DefensiveCopy.SymbolTable
