import DefensiveCopy.MemberAccess.Indexing
import DefensiveCopy.MemberAccess.Pinning

/-! # The member accesses of an operation

Which members run on which receivers when an operation is evaluated.  Calls, uses of properties and
events, loops, awaits, text concatenations, implicit indexers and `fixed` statements access members;
no other operation does. -/

namespace DefensiveCopy.Model

/-- The operation only names its operand. -/
def isNaming (m : Model) (id : OpId) : Bool :=
  match m.shape? id with
  | some (.nameOf _) | some (.typeOf _) | some (.sizeOf _) => true
  | _ => false

/-- The accesses of a use of a property: the accessors that the use runs. -/
def propertyAccesses (m : Model) (id : OpId) (property : Token) (receiver : OpId) :
    List MemberAccess :=
  match m.symbols.property? property with
  | none => []
  | some symbol =>
    if (id :: m.tree.ancestors id).any m.isNaming then []
    else
      let name := if symbol.isIndexer then indexerName else symbol.name
      (symbol.accessorsUsed (m.valueUsage id)).map fun accessor =>
        { receiver, target := accessor, location := id, displayName := some name }

/-- The access of adding a handler to an event or removing one. -/
def eventAccesses (m : Model) (reference : OpId) (adds : Bool) : List MemberAccess :=
  match m.shape? reference with
  | some (.eventReference event (some receiver)) =>
    match m.symbols.event? event with
    | none => []
    | some symbol =>
      (if adds then symbol.adder else symbol.remover).toList.map fun accessor =>
        { receiver, target := accessor, location := reference, displayName := some symbol.name }
  | _ => []

/-- The collection of a loop without a conversion that the compiler put around it. -/
def loopReceiver (m : Model) (collection : OpId) : OpId :=
  match m.get? collection with
  | some { shape := .conversion operand _ _, isImplicit := true, .. } => operand
  | _ => collection

/-- The access of a loop: getting the enumerator of the collection. -/
def loopAccesses (m : Model) (collection : OpId) (getEnumerator : Option Token) :
    List MemberAccess :=
  let receiver := m.loopReceiver collection
  getEnumerator.toList.map fun target =>
    { receiver, target, location := receiver, displayName := some "GetEnumerator" }

/-- The core library role of the type of an operation. -/
def specialOf? (m : Model) (id : OpId) : Option SpecialType :=
  ((m.typeOf? id).bind m.symbols.type?).map (·.special)

/-- The operand that the compiler converts by itself, without calling an operator. -/
def implicitlyConverted? (m : Model) (id : OpId) : Option OpId :=
  match m.get? id with
  | some { shape := .conversion operand false _, isImplicit := true, .. } => some operand
  | _ => none

/-- The member of the object type that turns a value into text. -/
def objectToText? (m : Model) (object : Token) : Option Token :=
  ((m.symbols.methodsNamed object "ToString").find? fun method =>
    method.2.parameters.isEmpty &&
      (method.2.returnType.bind m.symbols.type?).any (·.special == .string)).map (·.1)

/-- The access of appending a value to a text: the value is converted to an object and asked for its
    text, by the override of its type if there is one. -/
def concatenationAccess? (m : Model) (left right : OpId) : Option MemberAccess := do
  if m.specialOf? left == some .string && m.specialOf? right == some .object then
    let object ← m.typeOf? right
    let operand ← m.implicitlyConverted? right
    let type ← m.typeOf? operand
    let toText ← m.objectToText? object
    let target := (m.symbols.overrideFor? type toText).getD toText
    some { receiver := operand, target, location := operand, isForced := true }
  else none

/-- The member accesses of an operation with the given shape. -/
def shapeAccesses (m : Model) (policy : CopyPolicy) (id : OpId) : Shape → List MemberAccess
  | .propertyReference property (some receiver) _ => m.propertyAccesses id property receiver
  | .eventAssignment reference _ adds => m.eventAccesses reference adds
  | .invocation method (some receiver) _ => [{ receiver, target := method, location := id }]
  | .forEachLoop collection getEnumerator _ => m.loopAccesses collection getEnumerator
  | .binary .add left right => (m.concatenationAccess? left right).toList
  | .compoundAssignment .add target value => (m.concatenationAccess? target value).toList
  | .implicitIndexer receiver position indexer length =>
    m.indexerAccesses policy id receiver position indexer length
  | .await operand (some getAwaiter) false =>
    [{ receiver := operand, target := getAwaiter, location := id }]
  | .fixedStatement declarators _ => m.pinningAccesses id declarators
  | _ => []

/-- The member accesses of an operation. -/
def memberAccesses (m : Model) (policy : CopyPolicy) (id : OpId) : List MemberAccess :=
  ((m.shape? id).map (m.shapeAccesses policy id)).getD []

end DefensiveCopy.Model
