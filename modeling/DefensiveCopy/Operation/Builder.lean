import DefensiveCopy.Operation.Tree
import DefensiveCopy.SymbolTable.Basic

/-! # Building operation trees

A builder hands out source positions as it goes.  An operation without operands covers one fresh
position; an operation with operands covers all that they cover and one fresh position.  Completing
a member takes one fresh position too and records the region from where the member began.

Operations are numbered with 32 bits.  An operation is refused if no number is left, if an operand
is unknown or is already an operand, or if it has the same operand twice.  That no number is left is
found first; of the operands the first fault in source order is reported, and a repeated operand
only when there is no other fault.  A refused operation changes nothing. -/

namespace DefensiveCopy

/-- A tree under construction: the symbols that operations are typed by, and the next position. -/
structure Builder extends Tree where
  symbols : SymbolTable
  position : Nat := 0

/-- A step of construction that may fail; the builder it ends with is kept either way. -/
abbrev Building := EStateM OperationError Builder

/-- What is added to a tree: an operation of any shape with its type given, or one whose type is
    taken from the symbols or operands it refers to. -/
inductive Draft where
  | operation (shape : Shape) (type : Option Token) (isImplicit : Bool)
  | slot (slot : Token)
  | parameter (parameter : Token)
  | this (type : Token)
  | implicitThis (type : Token)
  | field (field : Token) (receiver : Option OpId)
  | call (method : Token) (receiver : Option OpId) (arguments : List OpId)
  | property (property : Token) (receiver : Option OpId) (arguments : List OpId)
  | event (event : Token) (receiver : Option OpId)
  | argument (parameter : Option Token) (value : OpId)
  | literal (type : Option Token)
  | assign (target value : OpId)
  | refAssign (target value : OpId)
  | refConditional (condition whenTrue whenFalse : OpId)
  | implicitConversion (operand : OpId) (type : Token)
  | binary (operator : BinaryOperator) (left right : OpId) (type : Option Token)
  | block (operations : List OpId)

/-! ## Attaching one operation -/

/-- The array with one more operation at the end, whose operands get it as their parent. -/
def attach (operations : Array Operation) (operation : Operation) : Array Operation :=
  (operations.mapIdx fun i child =>
    if ⟨i⟩ ∈ operation.shape.children then { child with parent := some ⟨operations.size⟩ }
    else child).push operation

@[simp] theorem size_attach (operations : Array Operation) (operation : Operation) :
    (attach operations operation).size = operations.size + 1 := by
  simp [attach]

/-- What is at each place after attaching an operation. -/
theorem getElem?_attach (operations : Array Operation) (operation : Operation) (i : Nat) :
    (attach operations operation)[i]? =
      if i = operations.size then some operation
      else operations[i]?.map fun child =>
        if ⟨i⟩ ∈ operation.shape.children then { child with parent := some ⟨operations.size⟩ }
        else child := by
  simp [attach, Array.getElem?_push]

/-- Attaching an operation whose operands are there keeps the links in order. -/
theorem Linked.attach {operations : Array Operation} {operation : Operation}
    (hlinked : Linked operations) (hparent : operation.parent = none)
    (hchildren : ∀ child ∈ operation.shape.children, child.index < operations.size) :
    Linked (attach operations operation) where
  child_lt := by
    intro i found hget child hmem
    rw [getElem?_attach] at hget
    split at hget
    · next hi =>
      cases hget
      exact hi ▸ hchildren child hmem
    · obtain ⟨old, hold, rfl⟩ := Option.map_eq_some_iff.1 hget
      -- Attaching rewrites parents only, so the operands of an older operation are the same.
      have hshape : child ∈ old.shape.children := by
        revert hmem
        split <;> exact id
      exact hlinked.child_lt hold child hshape
  lt_parent := by
    intro i found parent hget hfound
    rw [getElem?_attach] at hget
    rw [size_attach]
    split at hget
    · cases hget
      rw [hparent] at hfound
      cases hfound
    · obtain ⟨old, hold, rfl⟩ := Option.map_eq_some_iff.1 hget
      -- An older operation has the new one as its parent, or still the parent it had.
      have hlt : i < operations.size := (Array.getElem?_eq_some_iff.1 hold).1
      split at hfound
      · cases hfound
        exact ⟨hlt, Nat.lt_succ_self _⟩
      · have := hlinked.lt_parent hold hfound
        omega

namespace Builder

/-- A builder for a document in which nothing has been built yet. -/
def new (symbols : SymbolTable) (document : String) : Builder :=
  { document, symbols }

/-! ## Inserting operations -/

/-- What is wrong with an operand: it is unknown, or it has a parent. -/
def childFault? (b : Builder) (child : OpId) : Option OperationError :=
  match b.get? child with
  | none => some (.unknown child)
  | some operation => if operation.parent.isSome then some (.alreadyParented child) else none

/-- How many operations a tree can have. -/
def capacity : Nat := 0x100000000

/-- There is a number left for a new operation. -/
def HasRoom (b : Builder) : Prop := b.size < capacity

instance (b : Builder) : Decidable b.HasRoom := inferInstanceAs (Decidable (b.size < capacity))

/-- The first thing that is wrong with the operands of a new operation. -/
def operandFault? (b : Builder) (children : List OpId) : Option OperationError :=
  (children.findSome? b.childFault?).or
    (if children.Nodup then none else some (.repeatedChild ⟨b.size⟩))

/-- Why a new operation with these operands is refused: for lack of room, before its operands are
    looked at, or for its operands. -/
def fault? (b : Builder) (children : List OpId) : Option OperationError :=
  if b.HasRoom then b.operandFault? children else some .treeFull

/-- Nothing is wrong if there is room and nothing is wrong with the operands. -/
theorem fault?_eq_none_iff_operandFault? {b : Builder} {children : List OpId} :
    b.fault? children = none ↔ b.HasRoom ∧ b.operandFault? children = none := by
  unfold fault?
  split <;> simp_all

/-- The operands of an operation that is not refused are in the tree. -/
theorem index_lt_of_fault?_eq_none {b : Builder} {children : List OpId}
    (h : b.fault? children = none) : ∀ child ∈ children, child.index < b.operations.size := by
  intro child hmem
  have hoperands := (fault?_eq_none_iff_operandFault?.1 h).2
  have hnone : b.childFault? child = none :=
    List.findSome?_eq_none_iff.1 (Option.or_eq_none_iff.1 hoperands).1 child hmem
  unfold childFault? at hnone
  split at hnone
  · cases hnone
  · next operation hget => exact (Array.getElem?_eq_some_iff.1 hget).1

/-- The first position that a new operation covers: the earliest start of its operands, or the next
    position if it has none. -/
def startOf (b : Builder) (children : List OpId) : Nat :=
  children.foldl (fun start child => ((b.get? child).map (·.span.start)).elim start (min start))
    b.position

/-- Inserts an operation, which takes the next number and the next position. -/
def insert (shape : Shape) (type : Option Token) (isImplicit : Bool) : Building OpId := fun b =>
  match h : b.fault? shape.children with
  | some fault => .error fault b
  | none =>
    let span : Span := { start := b.startOf shape.children, stop := b.position + 1 }
    .ok ⟨b.size⟩
      { b with
        operations := attach b.operations { shape, type, span, isImplicit }
        linked := b.linked.attach rfl (index_lt_of_fault?_eq_none h)
        position := b.position + 1 }

/-- The static type of an operation. -/
def typeOf? (b : Builder) (id : OpId) : Option Token := (b.get? id).bind (·.type)

/-- Adds what a draft describes. -/
def add (draft : Draft) : Building OpId := do
  let b ← get
  match draft with
  | .operation shape type isImplicit => insert shape type isImplicit
  | .slot slot => insert (.slotReference slot) (b.symbols.typeOf? slot) false
  | .parameter parameter =>
    insert (.parameterReference parameter) (b.symbols.typeOf? parameter) false
  -- The two differ in whether the source writes `this`.
  | .this type => insert (.instanceReference .containingType) (some type) false
  | .implicitThis type => insert (.instanceReference .containingType) (some type) true
  | .field field receiver =>
    insert (.fieldReference field receiver) (b.symbols.typeOf? field) false
  | .call method receiver arguments =>
    insert (.invocation method receiver arguments) (b.symbols.typeOf? method) false
  | .property property receiver arguments =>
    insert (.propertyReference property receiver arguments) (b.symbols.typeOf? property) false
  | .event event receiver =>
    insert (.eventReference event receiver) (b.symbols.typeOf? event) false
  -- What passes a value on has the type of that value.
  | .argument parameter value => insert (.argument parameter value) (b.typeOf? value) false
  | .literal type => insert .literal type false
  | .assign target value => insert (.simpleAssignment target value false) (b.typeOf? target) false
  | .refAssign target value =>
    insert (.simpleAssignment target value true) (b.typeOf? target) false
  -- Both branches are references of one type.
  | .refConditional condition whenTrue whenFalse =>
    insert (.conditional condition whenTrue (some whenFalse) true) (b.typeOf? whenTrue) false
  | .implicitConversion operand type => insert (.conversion operand false none) (some type) true
  | .binary operator left right type => insert (.binary operator left right) type false
  | .block operations => insert (.block operations) none false

/-! ## Completing members -/

/-- Takes one position and records the region of a member from `start` on. -/
def completeMember (b : Builder) (symbol : Token) (start : Nat) : Builder :=
  { b with
    regions := b.regions ++ [{ symbol, span := { start, stop := b.position + 1 } }]
    position := b.position + 1 }

end Builder

end DefensiveCopy
