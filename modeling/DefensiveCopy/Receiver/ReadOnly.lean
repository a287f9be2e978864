import DefensiveCopy.Model
import DefensiveCopy.Platform
import DefensiveCopy.Receiver.Context
import DefensiveCopy.SymbolTable.Recognition

/-! # Read-only references

The compiler copies a value before it calls a member on it when the expression stands for storage
that the code may only read.  To find that storage, the expression is followed from a field to the
object that holds it, from an assignment of a reference to its target, from a conditional to its
branches, from an element to its inline array.

`origin` says for every shape whether the expression is storage of its own, and then whether it is
read-only, or which operands to look at instead.  The recursion over it is the same for all
shapes. -/

namespace DefensiveCopy

/-- Where the storage of an expression is found. -/
inductive Origin where
  /-- The expression is storage, read-only or not, or no storage at all. -/
  | storage (isReadOnly : Bool)
  /-- The expression stands for the storage of one of these operands. -/
  | through (operands : List OpId)

namespace Model

/-- The operation is the instance whose member the code belongs to. -/
def isThis (m : Model) (id : OpId) : Bool :=
  match m.shape? id with
  | some (.instanceReference .containingType) => true
  | _ => false

/-- Storage that is declared read-only may not be written through: it is static and its type is not
    being initialized, or it belongs to an instance that is not the one being initialized. -/
def isFixedStorage (m : Model) (context : MemberContext) (isStatic : Bool)
    (receiver : Option OpId) (declaringType : Option Token) : Bool :=
  if isStatic then
    context.staticInitializerType.isNone || declaringType != context.staticInitializerType
  else !context.allowsMutatingThis || receiver.any fun id => !m.isThis id

/-- The parameter belongs to the primary constructor of a struct. -/
def isCapturedByStruct (m : Model) (parameter : ParameterSymbol) : Bool :=
  parameter.isPrimary &&
    (((parameter.containingMethod.bind m.symbols.method?).bind (·.containingType)).bind
      m.symbols.type?).any (·.kind == .structType)

/-- The operation stands in the initializer of a field or property. -/
def isInInitializer (m : Model) (id : OpId) : Bool :=
  (m.enclosingSymbol? id).any fun symbol => symbol.is .field || symbol.is .property

/-- A reference to a parameter is read-only: the parameter is passed by read-only reference, or it
    is kept as storage of a struct and the code may not write to it. -/
def isReadOnlyParameter (m : Model) (context : MemberContext) (id : OpId) (parameter : Token) :
    Bool :=
  (m.symbols.parameter? parameter).any fun symbol =>
    match symbol.refKind with
    | .byIn | .byRefReadOnlyParameter => true
    | .byRef => false
    | .byValue | .byRefReadOnly | .byOut =>
      m.isCapturedByStruct symbol && context.isReadOnlyMember && !m.isInInitializer id &&
        m.isFixedStorage context false none none

/-- The origin of an access to a field.  A field of a value is part of the storage of the value; a
    field of an object is storage that may be written. -/
def fieldOrigin (m : Model) (context : MemberContext) (field : Token) (receiver : Option OpId) :
    Origin :=
  match m.symbols.field? field with
  | none => .storage false
  | some symbol =>
    match symbol.refKind with
    | .byRefReadOnly => .storage true
    | .byRef => .storage false
    | .byValue | .byIn | .byOut | .byRefReadOnlyParameter =>
      if symbol.isReadOnly then
        .storage (m.isFixedStorage context symbol.isStatic receiver symbol.containingType)
      else
        -- A field of an object is not part of the reference to the object.
        .through (receiver.toList.filter fun id =>
          !(m.typeOf? id).any m.symbols.isReferenceType)

/-- The indexer, a method or a property, hands back a read-only reference. -/
def isReadOnlyIndexer (m : Model) (indexer : Token) : Bool :=
  match indexer.kind? with
  | some .method => (m.symbols.method? indexer).any (·.returnsByRefReadOnly)
  | some .property => (m.symbols.property? indexer).any (·.returnsByRefReadOnly)
  | _ => false

/-- The operation has the given library type. -/
def hasWellKnownType (m : Model) (id : OpId) (wellKnown : WellKnownType) : Bool :=
  (m.typeOf? id).any fun type => m.symbols.wellKnown? type == some wellKnown

/-- Where the storage of an operation of the given shape is found. -/
def origin (m : Model) (context : MemberContext) (policy : CopyPolicy) (id : OpId) :
    Shape → Origin
  | .invocation method _ _ =>
    .storage ((m.symbols.method? method).any (·.returnsByRefReadOnly))
  | .propertyReference property _ _ =>
    .storage ((m.symbols.property? property).any (·.returnsByRefReadOnly))
  | .slotReference slot => .storage ((m.symbols.slot? slot).any (·.refKind == .byRefReadOnly))
  | .parameterReference parameter => .storage (m.isReadOnlyParameter context id parameter)
  | .simpleAssignment target _ isRef => if isRef then .through [target] else .storage false
  | .fieldReference field receiver => m.fieldOrigin context field receiver
  | .conditional _ whenTrue whenFalse isRef =>
    if isRef then .through (whenTrue :: whenFalse.toList) else .storage false
  | .instanceReference .containingType => .storage context.isReadOnlyMember
  -- A slice is a new value if ranges are free of copies.
  | .inlineArrayAccess receiver index =>
    if policy.rangeIsCopyFree && m.hasWellKnownType index .range then .storage false
    else .through [receiver]
  | .implicitIndexer _ _ indexer _ => .storage (m.isReadOnlyIndexer indexer)
  | _ => .storage false

/-- The operands to look at are operands of the operation. -/
theorem mem_children_of_origin {m : Model} {context : MemberContext} {policy : CopyPolicy}
    {id : OpId} {shape : Shape} {operands : List OpId}
    (h : m.origin context policy id shape = .through operands) :
    ∀ operand ∈ operands, operand ∈ shape.children := by
  intro operand hmem
  cases shape with
  | simpleAssignment target value isRef =>
    simp only [origin] at h
    -- Only assignments of references go on, and with the target.
    split at h <;> cases h
    simp_all [Shape.children]
  | fieldReference field receiver =>
    simp only [origin, fieldOrigin] at h
    split at h
    · cases h
    · split at h <;> first | cases h | skip
      -- All kinds that are no reference go on with the receiver, if at all.
      all_goals
        split at h <;> cases h
        exact (List.mem_filter.1 hmem).1
  | conditional condition whenTrue whenFalse isRef =>
    simp only [origin] at h
    split at h <;> cases h
    exact List.mem_cons_of_mem _ hmem
  | instanceReference kind =>
    cases kind <;> cases h
  | inlineArrayAccess receiver index =>
    simp only [origin] at h
    split at h <;> cases h
    simp_all [Shape.children]
  | _ => cases h

/-- The operation stands for storage that the code may only read, so that a call of a member that
    may write needs a copy. -/
def isReadOnlyReference (m : Model) (context : MemberContext) (policy : CopyPolicy) (id : OpId) :
    Bool :=
  match _hget : m.tree.get? id with
  | none => false
  | some operation =>
    match _horigin : m.origin context policy id operation.shape with
    | .storage isReadOnly => isReadOnly
    | .through operands =>
      operands.attach.any fun operand => m.isReadOnlyReference context policy operand.1
termination_by id.index
decreasing_by
  exact Tree.index_lt_of_mem_children _hget (mem_children_of_origin _horigin _ operand.2)

end Model

end DefensiveCopy
