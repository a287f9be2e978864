import DefensiveCopy.Operation.Basic

/-! # Operation trees

All operations of one document, numbered in the order of insertion, and the regions of the members
that the document declares.

Operands are inserted before the operations that use them, so operand links point to smaller
numbers and parent links to greater ones.  This is part of the type (`Linked`): every walk down the
operands or up the parents comes to an end. -/

namespace DefensiveCopy

/-- The source positions that the declaration of a member covers. -/
structure Region where
  symbol : Token
  span : Span
  deriving DecidableEq, Inhabited

namespace Region

/-- The region is shorter than the other, or as long and starts later. -/
def isNarrowerThan (region other : Region) : Bool :=
  region.span.length < other.span.length ||
    (region.span.length == other.span.length && other.span.start < region.span.start)

/-- The narrowest region of a list; of equal ones the first. -/
def narrowest? : List Region → Option Region
  | [] => none
  | region :: rest =>
    match narrowest? rest with
    | none => some region
    | some best => if best.isNarrowerThan region then some best else some region

end Region

/-- Operand links point to earlier operations, parent links to later ones of the same array. -/
structure Linked (operations : Array Operation) : Prop where
  child_lt : ∀ {i : Nat} {operation : Operation}, operations[i]? = some operation →
    ∀ child ∈ operation.shape.children, child.index < i
  lt_parent : ∀ {i : Nat} {operation : Operation} {parent : OpId},
    operations[i]? = some operation → operation.parent = some parent →
      i < parent.index ∧ parent.index < operations.size

/-- No operations have no links. -/
theorem Linked.empty : Linked #[] where
  child_lt h := by simp at h
  lt_parent h := by simp at h

/-- The operations of one document and the regions of its members, in the order in which they were
    completed. -/
structure Tree where
  document : String
  operations : Array Operation := #[]
  regions : List Region := []
  linked : Linked operations := by exact Linked.empty

namespace Tree

/-- The number of operations. -/
def size (tree : Tree) : Nat := tree.operations.size

def isEmpty (tree : Tree) : Bool := tree.size == 0

/-- The operation with the given number. -/
def get? (tree : Tree) (id : OpId) : Option Operation := tree.operations[id.index]?

/-- The operation with the given number, or the complaint that there is none. -/
def resolve (tree : Tree) (id : OpId) : Except OperationError Operation :=
  match tree.get? id with
  | some operation => .ok operation
  | none => .error (.unknown id)

/-- The numbers of all operations, in order. -/
def ids (tree : Tree) : List OpId := (List.range tree.size).map OpId.mk

/-- The operation that an operation is an operand of. -/
def parent? (tree : Tree) (id : OpId) : Option OpId := (tree.get? id).bind (·.parent)

/-- The parent of an operation comes after it and is in the tree. -/
theorem index_lt_of_parent? {tree : Tree} {id parent : OpId}
    (h : tree.parent? id = some parent) :
    id.index < parent.index ∧ parent.index < tree.size := by
  obtain ⟨operation, hget, hparent⟩ := Option.bind_eq_some_iff.1 h
  exact tree.linked.lt_parent hget hparent

/-- The operands of an operation come before it. -/
theorem index_lt_of_mem_children {tree : Tree} {id child : OpId} {operation : Operation}
    (hget : tree.get? id = some operation) (hmem : child ∈ operation.shape.children) :
    child.index < id.index :=
  tree.linked.child_lt hget child hmem

/-- Going up to the parent leaves fewer operations above. -/
theorem size_sub_lt_of_parent? {tree : Tree} {id parent : OpId}
    (h : tree.parent? id = some parent) :
    tree.size - parent.index < tree.size - id.index := by
  have := index_lt_of_parent? h
  omega

/-- The operations around an operation, innermost first. -/
def ancestors (tree : Tree) (id : OpId) : List OpId :=
  match _h : tree.parent? id with
  | none => []
  | some parent => parent :: tree.ancestors parent
termination_by tree.size - id.index
decreasing_by exact size_sub_lt_of_parent? (by assumption)

/-- The innermost member whose declaration covers a position. -/
def enclosingAt? (tree : Tree) (position : Nat) : Option Token :=
  (Region.narrowest? (tree.regions.filter (·.span.contains position))).map (·.symbol)

end Tree

end DefensiveCopy
