import DefensiveCopy.MemberAccess.Basic
import DefensiveCopy.Model
import DefensiveCopy.SymbolTable.Accessibility
import DefensiveCopy.SymbolTable.Containment
import DefensiveCopy.SymbolTable.Semantics

/-! # Pinning

A `fixed` statement pins a value through its `GetPinnableReference` method: an instance method
without parameters that returns a reference and may be used where the statement stands.  The method
is looked for on the type of the value.  For a type parameter it is looked for on each constraint,
and for a constraint that is an interface on the interfaces it has; when more than one constraint
leads to a method, the statement is ambiguous and no method is pinned through. -/

namespace DefensiveCopy

/-- The name of the method that a value is pinned through. -/
def pinningMethodName : String := "GetPinnableReference"

namespace SymbolTable

/-- A value can be pinned through the method by code inside `within`. -/
def isPinnable (t : SymbolTable) (within : Token) (method : MethodSymbol) : Bool :=
  !method.isStatic && method.parameters.isEmpty && method.refKind != .byValue &&
    t.isAccessibleWithin method within

/-- The first method of a type that a value can be pinned through. -/
def pinnableOn? (t : SymbolTable) (within type : Token) : Option Token :=
  ((t.methodsNamed type pinningMethodName).find? (t.isPinnable within ·.2)).map (·.1)

/-- The method that a constraint leads to: its own, or for an interface the first one of the
    interfaces it has. -/
def pinnableThrough? (t : SymbolTable) (within constraint : Token) : Option Token :=
  (t.pinnableOn? within constraint).or
    (if (t.type? constraint).any (·.kind == .interfaceType) then
      (t.allInterfaces constraint).findSome? (t.pinnableOn? within)
    else none)

/-- The only item of a list with one item. -/
def sole? {α : Type} : List α → Option α
  | [item] => some item
  | _ => none

/-- The method that a value of the given type is pinned through by code inside `within`. -/
def pinnable? (t : SymbolTable) (type within : Token) : Option Token :=
  (t.pinnableOn? within type).or
    (if t.isTypeParameter type then
      sole? ((t.constraintTypes type).filterMap (t.pinnableThrough? within))
    else none)

/-- The type that a local variable points to. -/
def pointeeOf? (t : SymbolTable) (slot : Token) : Option Token :=
  ((((t.slot? slot).bind (·.type)).bind t.type?).filter (·.kind == .pointer)).bind (·.pointee)

end SymbolTable

namespace Model

/-- The type whose code an operation belongs to. -/
def enclosingType? (m : Model) (id : OpId) : Option Token :=
  (m.enclosingSymbol? id).bind m.symbols.declaringType?

/-- The operation takes an address. -/
def isAddressOf (m : Model) (id : OpId) : Bool :=
  match m.shape? id with
  | some (.addressOf _) => true
  | _ => false

/-- The method that a `fixed` statement inside `within` pins a value through, for a pointer to
    `pointee`. -/
def pinnedThrough? (m : Model) (within pointee : Token) (value : OpId) : Option Token := do
  let type ← m.typeOf? value
  if m.isAddressOf value || m.symbols.isReferenceType type then none
  else
    let method ← m.symbols.pinnable? type within
    let returnsPointee := (m.symbols.method? method).any (·.returnType == some pointee)
    let pinsVoid := (m.symbols.type? pointee).any (·.special == .void)
    if returnsPointee || pinsVoid then some method else none

/-- The access that a declarator of a `fixed` statement performs. -/
def pinningAccess? (m : Model) (within : Token) (declarator : OpId) : Option MemberAccess :=
  match m.shape? declarator with
  | some (.variableDeclarator slot (some initializer)) =>
    match m.symbols.pointeeOf? slot, m.shape? initializer with
    | some pointee, some (.variableInitializer value) =>
      (m.pinnedThrough? within pointee value).map fun method =>
        { receiver := value, target := method, location := value,
          displayName := some pinningMethodName }
    | _, _ => none
  | _ => none

/-- The accesses of a `fixed` statement. -/
def pinningAccesses (m : Model) (id : OpId) (declarators : List OpId) : List MemberAccess :=
  match m.enclosingType? id with
  | some within => declarators.filterMap (m.pinningAccess? within)
  | none => []

end Model

end DefensiveCopy
