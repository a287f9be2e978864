import DefensiveCopy.Token

/-! # Operations

An operation is one node of the bound code of a document: an expression or a statement, with the
symbols that it was resolved to.  Operations refer to their operands by number.  The set of shapes
is closed; what the analysis need not tell apart has the shape `other`. -/

namespace DefensiveCopy

/-- The number of an operation in its document, counted in the order of insertion. -/
structure OpId where
  index : Nat
  deriving DecidableEq, Inhabited

namespace OpId

def render (id : OpId) : String := "op#" ++ toString id.index

end OpId

/-- A half-open range of source positions. -/
structure Span where
  start : Nat
  stop : Nat
  deriving DecidableEq, Inhabited

namespace Span

/-- The position lies in the range. -/
def contains (span : Span) (position : Nat) : Bool :=
  span.start ≤ position && position < span.stop

/-- The number of positions in the range; none if it ends before it starts. -/
def length (span : Span) : Nat := span.stop - span.start

def isEmpty (span : Span) : Bool := span.length == 0

def render (span : Span) : String := toString span.start ++ ".." ++ toString span.stop

end Span

/-- The operator of a binary operation or a compound assignment. -/
inductive BinaryOperator where
  | add
  | subtract
  | multiply
  | divide
  | equals
  | other
  deriving DecidableEq, Inhabited

namespace BinaryOperator

def all : List BinaryOperator := [.add, .subtract, .multiply, .divide, .equals, .other]

def name : BinaryOperator → String
  | .add => "Add"
  | .subtract => "Subtract"
  | .multiply => "Multiply"
  | .divide => "Divide"
  | .equals => "Equals"
  | .other => "Other"

end BinaryOperator

/-- What an instance reference stands for. -/
inductive InstanceKind where
  /-- The instance whose member the code belongs to, written out or not. -/
  | containingType
  /-- The object that an initializer fills in. -/
  | implicitReceiver
  /-- The value that a pattern is matched with. -/
  | patternInput
  deriving DecidableEq, Inhabited

namespace InstanceKind

def all : List InstanceKind := [.containingType, .implicitReceiver, .patternInput]

def name : InstanceKind → String
  | .containingType => "ContainingTypeInstance"
  | .implicitReceiver => "ImplicitReceiver"
  | .patternInput => "PatternInput"

end InstanceKind

/-- The shape of an operation with its operands and the symbols it was resolved to. -/
inductive Shape where
  | invocation (method : Token) (receiver : Option OpId) (arguments : List OpId)
  | propertyReference (property : Token) (receiver : Option OpId) (arguments : List OpId)
  | eventReference (event : Token) (receiver : Option OpId)
  | eventAssignment (reference handler : OpId) (adds : Bool)
  | fieldReference (field : Token) (receiver : Option OpId)
  | parameterReference (parameter : Token)
  | slotReference (slot : Token)
  | instanceReference (kind : InstanceKind)
  | simpleAssignment (target value : OpId) (isRef : Bool)
  | compoundAssignment (operator : BinaryOperator) (target value : OpId)
  | coalesceAssignment (target value : OpId)
  | increment (target : OpId) (isDecrement : Bool)
  | binary (operator : BinaryOperator) (left right : OpId)
  | conditional (condition whenTrue : OpId) (whenFalse : Option OpId) (isRef : Bool)
  | conversion (operand : OpId) (isUserDefined : Bool) (method : Option Token)
  | argument (parameter : Option Token) (value : OpId)
  | returnStatement (value : Option OpId)
  | nameOf (named : OpId)
  | typeOf (operand : Token)
  | sizeOf (operand : Token)
  | forEachLoop (collection : OpId) (getEnumerator : Option Token) (body : Option OpId)
  | await (operand : OpId) (getAwaiter : Option Token) (isDynamic : Bool)
  | implicitIndexer (receiver index : OpId) (indexer length : Token)
  | inlineArrayAccess (receiver index : OpId)
  | range (left right : Option OpId)
  | variableDeclarator (slot : Token) (initializer : Option OpId)
  | variableInitializer (value : OpId)
  | fixedStatement (declarators : List OpId) (body : Option OpId)
  | addressOf (reference : OpId)
  | deconstruction (target value : OpId)
  | tuple (elements : List OpId)
  | literal
  | block (operations : List OpId)
  | other (operands : List OpId)
  deriving Inhabited

namespace Shape

/-- The operands of an operation, in source order. -/
def children : Shape → List OpId
  | .invocation _ receiver arguments | .propertyReference _ receiver arguments =>
    receiver.toList ++ arguments
  | .eventReference _ receiver | .fieldReference _ receiver => receiver.toList
  | .eventAssignment reference handler _ => [reference, handler]
  | .simpleAssignment target value _ | .compoundAssignment _ target value
  | .coalesceAssignment target value | .deconstruction target value => [target, value]
  | .increment target _ => [target]
  | .binary _ left right => [left, right]
  -- A conditional statement may lack its second branch.
  | .conditional condition whenTrue whenFalse _ => condition :: whenTrue :: whenFalse.toList
  | .conversion operand _ _ => [operand]
  | .argument _ value => [value]
  | .returnStatement value => value.toList
  | .nameOf named => [named]
  | .forEachLoop collection _ body => collection :: body.toList
  | .await operand _ _ => [operand]
  | .implicitIndexer receiver index _ _ | .inlineArrayAccess receiver index => [receiver, index]
  | .range left right => left.toList ++ right.toList
  | .variableDeclarator _ initializer => initializer.toList
  | .variableInitializer value => [value]
  | .fixedStatement declarators body => declarators ++ body.toList
  | .addressOf reference => [reference]
  | .tuple elements => elements
  | .block operations => operations
  | .other operands => operands
  | .parameterReference _ | .slotReference _ | .instanceReference _ | .typeOf _ | .sizeOf _
  | .literal => []

/-- The name of a shape. -/
def name : Shape → String
  | .invocation .. => "Invocation"
  | .propertyReference .. => "PropertyReference"
  | .eventReference .. => "EventReference"
  | .eventAssignment .. => "EventAssignment"
  | .fieldReference .. => "FieldReference"
  | .parameterReference .. => "ParameterReference"
  | .slotReference .. => "LocalReference"
  | .instanceReference .. => "InstanceReference"
  | .simpleAssignment .. => "SimpleAssignment"
  | .compoundAssignment .. => "CompoundAssignment"
  | .coalesceAssignment .. => "CoalesceAssignment"
  | .increment .. => "Increment"
  | .binary .. => "Binary"
  | .conditional .. => "Conditional"
  | .conversion .. => "Conversion"
  | .argument .. => "Argument"
  | .returnStatement .. => "Return"
  | .nameOf .. => "NameOf"
  | .typeOf .. => "TypeOf"
  | .sizeOf .. => "SizeOf"
  | .forEachLoop .. => "ForEachLoop"
  | .await .. => "Await"
  | .implicitIndexer .. => "ImplicitIndexerReference"
  | .inlineArrayAccess .. => "InlineArrayAccess"
  | .range .. => "Range"
  | .variableDeclarator .. => "VariableDeclarator"
  | .variableInitializer .. => "VariableInitializer"
  | .fixedStatement .. => "FixedStatement"
  | .addressOf .. => "AddressOf"
  | .deconstruction .. => "DeconstructionAssignment"
  | .tuple .. => "Tuple"
  | .literal => "Literal"
  | .block .. => "Block"
  | .other .. => "Other"

end Shape

/-- An operation: its shape, its static type, the positions it covers, the operation that it is an
    operand of, and whether the compiler put it in. -/
structure Operation where
  shape : Shape
  type : Option Token := none
  span : Span
  parent : Option OpId := none
  isImplicit : Bool := false
  deriving Inhabited

/-- Why an operation is refused. -/
inductive OperationError where
  /-- There is no operation with this number. -/
  | unknown (id : OpId)
  /-- The operation is already an operand of another one. -/
  | alreadyParented (id : OpId)
  /-- The new operation would have the same operand twice. -/
  | repeatedChild (id : OpId)
  /-- There is no number left for a new operation. -/
  | treeFull
  deriving DecidableEq

namespace OperationError

def message : OperationError → String
  | .unknown id => "Invalid operation - " ++ id.render
  | .alreadyParented id => id.render ++ " already has a parent"
  | .repeatedChild id => id.render ++ " lists the same child twice"
  | .treeFull => "operation tree is full"

end OperationError

end DefensiveCopy
