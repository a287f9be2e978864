import DefensiveCopy.Model
import DefensiveCopy.Proofs.Building
import DefensiveCopy.Proofs.OperandFields
import Mathlib.Data.List.Basic

/-!
# Built trees are forests

Every tree that a builder ends with is a forest, whatever was called and whatever failed on the way:
operands come before the operations that use them, parent links are the operand links read
backwards, and no operation is used twice.  The source positions nest in the same way.

`Tree.IsForest` states this field by field of the shapes (`Shape.Stores`).  The proof carries an
invariant of the builder, `WellBuilt`, which speaks of the lists of operands and of the next
position, through one insertion and from there through a run.

## Key results

- `Builder.WellBuilt.insertion`: one insertion keeps the invariant
- `Builder.WellBuilt.run`: a run keeps the invariant
- `Tree.ancestors_eq_climb`: the ancestors are all that climbing the parent links ever reaches
- `Builder.isForest_of_run`: what a run builds is a forest
- `Model.isBuilt_of_wellBuilt`: the model of a built tree sees its operands as their parents
-/

namespace DefensiveCopy

namespace Tree

/-! ## Forests -/

/-- The operation stores the other one in the given field. -/
def Stores (tree : Tree) (parent : OpId) (field : OperandField) (child : OpId) : Prop :=
  ∃ operation, tree.get? parent = some operation ∧ operation.shape.Stores field child

/-- The operation that is reached by climbing a number of parent links. -/
def climb (tree : Tree) (id : OpId) : Nat → Option OpId
  | 0 => some id
  | steps + 1 => (tree.climb id steps).bind tree.parent?

/-- The operations of a tree form a forest, and their positions nest along it. -/
structure IsForest (tree : Tree) : Prop where
  /-- A stored operation exists and comes before the one that stores it. -/
  stored_lt : ∀ {parent field child}, tree.Stores parent field child →
    (tree.get? child).isSome ∧ child.index < parent.index
  /-- The parent of an operation is the one that stores it. -/
  parent_iff_stores : ∀ {child parent}, tree.parent? child = some parent ↔
    ∃ field, tree.Stores parent field child
  /-- An operation is stored in one field of one operation only. -/
  stored_once : ∀ {parent parent' field field' child}, tree.Stores parent field child →
    tree.Stores parent' field' child → parent = parent' ∧ field = field'
  /-- The ancestors are listed from the parent on, until there is no further one. -/
  ancestors_climb : ∀ (id : OpId) (steps : Nat),
    (tree.ancestors id)[steps]? = tree.climb id (steps + 1)
  /-- Numbers increase on the way up. -/
  ancestors_increasing : ∀ id : OpId, (id :: tree.ancestors id).Pairwise (·.index < ·.index)
  /-- An operation covers some position. -/
  start_lt_stop : ∀ {id operation}, tree.get? id = some operation →
    operation.span.start < operation.span.stop
  /-- An operation with operands starts where the first of them starts. -/
  start_least : ∀ {id operation field child}, tree.get? id = some operation →
    operation.shape.Stores field child →
      (∃ field' child' found, operation.shape.Stores field' child' ∧
        tree.get? child' = some found ∧ found.span.start = operation.span.start) ∧
      ∀ found, tree.get? child = some found → operation.span.start ≤ found.span.start
  /-- An operand ends before the operation that stores it. -/
  stored_stop_lt : ∀ {id operation field child found}, tree.get? id = some operation →
    operation.shape.Stores field child → tree.get? child = some found →
      found.span.stop < operation.span.stop
  /-- Later operations end later. -/
  stop_increasing : ∀ {id id' operation operation'}, tree.get? id = some operation →
    tree.get? id' = some operation' → id.index < id'.index →
      operation.span.stop < operation'.span.stop

/-! ## Ancestors -/

/-- The ancestors of an operation are its parent and the ancestors of that. -/
theorem ancestors_of_parent {tree : Tree} {id parent : OpId} (h : tree.parent? id = some parent) :
    tree.ancestors id = parent :: tree.ancestors parent := by
  rw [ancestors]
  split
  · next hnone => simp [hnone] at h
  · next found hsome =>
    cases hsome.symm.trans h
    rfl

/-- An operation without a parent has no ancestors. -/
theorem ancestors_of_root {tree : Tree} {id : OpId} (h : tree.parent? id = none) :
    tree.ancestors id = [] := by
  rw [ancestors]
  split
  · rfl
  · next found hsome => simp [hsome] at h

/-- Climbing from an operation goes on as climbing from its parent. -/
private theorem climb_succ (tree : Tree) (id : OpId) (steps : Nat) :
    tree.climb id (steps + 1) = (tree.parent? id).bind fun parent => tree.climb parent steps := by
  induction steps with
  | zero => cases h : tree.parent? id <;> simp [climb, h]
  | succ steps ih =>
    rw [climb, ih]
    cases h : tree.parent? id <;> simp [climb]

/-- The ancestors are what climbing reaches, step by step; where the list ends, the climb does. -/
theorem ancestors_eq_climb (tree : Tree) (id : OpId) (steps : Nat) :
    (tree.ancestors id)[steps]? = tree.climb id (steps + 1) := by
  rw [climb_succ]
  induction steps generalizing id with
  | zero =>
    cases h : tree.parent? id with
    | none => simp [ancestors_of_root h]
    | some parent => simp [ancestors_of_parent h, climb]
  | succ steps ih =>
    cases h : tree.parent? id with
    | none => simp [ancestors_of_root h]
    | some parent =>
      rw [ancestors_of_parent h, List.getElem?_cons_succ, ih parent, Option.bind_some, climb_succ]

/-- Every ancestor comes later than the operation. -/
theorem index_lt_of_mem_ancestors {tree : Tree} {id ancestor : OpId}
    (h : ancestor ∈ tree.ancestors id) : id.index < ancestor.index := by
  fun_induction ancestors tree id with
  | case1 id hnone => exact nomatch h
  | case2 id parent hparent ih =>
    have hlt := (index_lt_of_parent? hparent).1
    rcases List.mem_cons.1 h with rfl | hmem
    · exact hlt
    · have := ih hmem
      omega

/-- The numbers of an operation and its ancestors increase. -/
private theorem pairwise_ancestors (tree : Tree) (id : OpId) :
    (id :: tree.ancestors id).Pairwise (·.index < ·.index) := by
  refine List.pairwise_cons.2 ⟨fun ancestor => index_lt_of_mem_ancestors, ?_⟩
  fun_induction ancestors tree id with
  | case1 id hnone => exact List.Pairwise.nil
  | case2 id parent hparent ih =>
    exact List.pairwise_cons.2 ⟨fun ancestor => index_lt_of_mem_ancestors, ih⟩

/-! ## Where operands start -/

/-- The starts of the operations with the given numbers, in the order of the list. -/
def starts (tree : Tree) (ids : List OpId) : List Nat :=
  ids.filterMap fun id => (tree.get? id).map (·.span.start)

/-- A start among those of some operations is the start of one of them. -/
theorem mem_starts {tree : Tree} {ids : List OpId} {start : Nat} :
    start ∈ tree.starts ids ↔
      ∃ id ∈ ids, ∃ operation, tree.get? id = some operation ∧ operation.span.start = start := by
  simp [starts]

end Tree

namespace Builder

/-- The start of a new operation is the least start of its operands and of the next position. -/
private theorem startOf_eq_min (b : Builder) (children : List OpId) :
    b.startOf children = min b.position ((b.starts children).min?.getD b.position) := by
  -- Operands that do not exist have no start, and are passed over on both sides.
  have hfold : ∀ start : Nat, children.foldl
      (fun start child => ((b.get? child).map (·.span.start)).elim start (min start)) start =
        (b.starts children).foldl min start := by
    unfold Tree.starts
    induction children with
    | nil => exact fun _ => rfl
    | cons child rest ih =>
      intro start
      rw [List.foldl_cons, ih]
      cases h : b.get? child <;> simp [h]
  rw [startOf, hfold, List.foldl_min]

/-! ## The invariant of a builder -/

/-- Operand lists have no duplicates and parent links are the operand links read backwards.  Spans
    are not empty, end at most at the next position and later for later operations; an operation
    with operands starts with the first of them. -/
structure WellBuilt (b : Builder) : Prop where
  nodup : ∀ {id operation}, b.get? id = some operation → operation.shape.children.Nodup
  parent_iff : ∀ {child parent}, b.parent? child = some parent ↔
    ∃ operation, b.get? parent = some operation ∧ child ∈ operation.shape.children
  start_lt : ∀ {id operation}, b.get? id = some operation →
    operation.span.start < operation.span.stop
  stop_le : ∀ {id operation}, b.get? id = some operation → operation.span.stop ≤ b.position
  stop_lt : ∀ {id id' operation operation'}, b.get? id = some operation →
    b.get? id' = some operation' → id.index < id'.index →
      operation.span.stop < operation'.span.stop
  start_min : ∀ {id operation}, b.get? id = some operation → operation.shape.children ≠ [] →
    (b.starts operation.shape.children).min? = some operation.span.start

/-- A builder in which nothing has been built has the invariant. -/
private theorem wellBuilt_new (symbols : SymbolTable) (document : String) :
    WellBuilt (new symbols document) := by
  have hnone : ∀ id, (new symbols document).get? id = none := fun _ => rfl
  constructor <;> simp [hnone, Tree.parent?]

/-- Completing a member only moves the next position. -/
theorem WellBuilt.completeMember {b : Builder} (hb : b.WellBuilt) (symbol : Token) (start : Nat) :
    (b.completeMember symbol start).WellBuilt where
  nodup := hb.nodup
  parent_iff := hb.parent_iff
  start_lt := hb.start_lt
  stop_le h := Nat.le_succ_of_le (hb.stop_le h)
  stop_lt := hb.stop_lt
  start_min := hb.start_min

/-! ## One insertion -/

section Insertion

variable {b after : Builder} {shape : Shape} {operation : Operation}

/-- Operations that were there start where they did. -/
private theorem Insertion.starts_eq (h : b.Insertion shape operation after) {ids : List OpId}
    (hids : ∀ id ∈ ids, (b.get? id).isSome) : after.starts ids = b.starts ids := by
  refine List.filterMap_congr fun id hmem => ?_
  obtain ⟨old, hold⟩ := Option.isSome_iff_exists.1 (hids id hmem)
  obtain ⟨found, hfound, -, hspan, -⟩ := h.get?_old hold
  simp [hold, hfound, hspan]

/-- The operands of an operation that was there were there as well. -/
theorem isSome_of_mem_children {id child : OpId} {old : Operation} (hold : b.get? id = some old)
    (hmem : child ∈ old.shape.children) : (b.get? child).isSome := by
  have hlt : child.index < id.index := Tree.index_lt_of_mem_children hold hmem
  have hid : id.index < b.size := (Array.getElem?_eq_some_iff.1 hold).1
  exact Option.isSome_of_eq_some (Array.getElem?_eq_getElem (Nat.lt_trans hlt hid))

/-- After an insertion, parent links are still the operand links read backwards. -/
theorem Insertion.parent_iff (h : b.Insertion shape operation after) (hb : b.WellBuilt)
    {child parent : OpId} :
    after.parent? child = some parent ↔
      ∃ found, after.get? parent = some found ∧ child ∈ found.shape.children := by
  constructor
  · intro hparent
    obtain ⟨found, hfound, hlink⟩ := Option.bind_eq_some_iff.1 hparent
    obtain ⟨rfl, rfl⟩ | ⟨old, hold, -, -, hspec⟩ := h.get?_cases hfound
    · -- The new operation has no parent.
      rw [h.parent_eq] at hlink
      cases hlink
    · -- An old operation has the new one as its parent, or the parent that it had.
      rw [hspec] at hlink
      split at hlink
      · next hmem =>
        cases hlink
        exact ⟨operation, h.get?_new, h.shape_eq ▸ hmem⟩
      · have hbefore : b.parent? child = some parent := Option.bind_eq_some_iff.2 ⟨old, hold, hlink⟩
        obtain ⟨above, habove, hmem⟩ := hb.parent_iff.1 hbefore
        obtain ⟨found', hfound', hshape, -, -⟩ := h.get?_old habove
        exact ⟨found', hfound', hshape ▸ hmem⟩
  · rintro ⟨found, hfound, hmem⟩
    obtain ⟨rfl, rfl⟩ | ⟨old, hold, hshape, -, -⟩ := h.get?_cases hfound
    · rw [h.shape_eq] at hmem
      obtain ⟨below, hbelow, -⟩ := h.parentless child hmem
      obtain ⟨found', hfound', -, -, hspec⟩ := h.get?_old hbelow
      rw [if_pos hmem] at hspec
      exact Option.bind_eq_some_iff.2 ⟨found', hfound', hspec⟩
    · have hbefore : b.parent? child = some parent := hb.parent_iff.2 ⟨old, hold, hshape ▸ hmem⟩
      obtain ⟨below, hbelow, hlink⟩ := Option.bind_eq_some_iff.1 hbefore
      -- The child has a parent already, so it is no operand of the new operation.
      have hnot : child ∉ shape.children := by
        intro hchild
        obtain ⟨below', hbelow', hnone⟩ := h.parentless child hchild
        cases hbelow.symm.trans hbelow'
        rw [hnone] at hlink
        cases hlink
      obtain ⟨found', hfound', -, -, hspec⟩ := h.get?_old hbelow
      rw [if_neg hnot] at hspec
      exact Option.bind_eq_some_iff.2 ⟨found', hfound', hspec.trans hlink⟩

/-- A new operation with operands starts where the first of them starts. -/
theorem Insertion.start_min (h : b.Insertion shape operation after) (hb : b.WellBuilt)
    (hne : shape.children ≠ []) :
    (after.starts shape.children).min? = some operation.span.start := by
  have hsome : ∀ child ∈ shape.children, (b.get? child).isSome := by
    intro child hmem
    obtain ⟨found, hfound, -⟩ := h.parentless child hmem
    exact Option.isSome_of_eq_some hfound
  have hle : ∀ start ∈ b.starts shape.children, start ≤ b.position := by
    intro start hmem
    obtain ⟨id, -, found, hfound, rfl⟩ := Tree.mem_starts.1 hmem
    have hlt := hb.start_lt hfound
    have hstop := hb.stop_le hfound
    omega
  -- There is an operand, and it exists, so there is a least start.
  have hstarts : b.starts shape.children ≠ [] := by
    obtain ⟨child, hmem⟩ := List.exists_mem_of_ne_nil _ hne
    obtain ⟨found, hfound⟩ := Option.isSome_iff_exists.1 (hsome child hmem)
    exact List.ne_nil_of_mem (Tree.mem_starts.2 ⟨child, hmem, found, hfound, rfl⟩)
  obtain ⟨least, hleast⟩ := Option.ne_none_iff_exists'.1 (mt List.min?_eq_none_iff.1 hstarts)
  have hmem : least ∈ b.starts shape.children := List.min?_mem hleast
  rw [h.starts_eq hsome, h.span_eq, startOf_eq_min, hleast, Option.getD_some,
    Nat.min_eq_right (hle least hmem)]

/-- Inserting an operation keeps the invariant. -/
theorem WellBuilt.insertion (hb : b.WellBuilt) (h : b.Insertion shape operation after) :
    after.WellBuilt where
  nodup := by
    intro id found hfound
    obtain ⟨-, rfl⟩ | ⟨old, hold, hshape, -, -⟩ := h.get?_cases hfound
    · rw [h.shape_eq]
      exact h.nodup
    · rw [hshape]
      exact hb.nodup hold
  parent_iff := h.parent_iff hb
  -- The new operation ends after the next position, and starts there or earlier.
  start_lt := by
    intro id found hfound
    obtain ⟨-, rfl⟩ | ⟨old, hold, -, hspan, -⟩ := h.get?_cases hfound
    · rw [h.span_eq]
      show b.startOf shape.children < b.position + 1
      rw [startOf_eq_min]
      omega
    · rw [hspan]
      exact hb.start_lt hold
  stop_le := by
    intro id found hfound
    obtain ⟨-, rfl⟩ | ⟨old, hold, -, hspan, -⟩ := h.get?_cases hfound
    · have hstop := congrArg Span.stop h.span_eq
      have hposition := h.position_eq
      dsimp only at hstop
      omega
    · have := hb.stop_le hold
      rw [hspan, h.position_eq]
      omega
  stop_lt := by
    intro id id' found found' hfound hfound' hlt
    obtain ⟨rfl, rfl⟩ | ⟨old, hold, -, hspan, -⟩ := h.get?_cases hfound
    · -- Nothing comes later than the new operation.
      have := (Array.getElem?_eq_some_iff.1 hfound').1
      have hsize : after.operations.size = b.size + 1 := h.size_eq
      dsimp only at hlt
      omega
    · obtain ⟨rfl, rfl⟩ | ⟨old', hold', -, hspan', -⟩ := h.get?_cases hfound'
      · -- An old operation ends no later than at the position that the new one takes.
        have := hb.stop_le hold
        rw [hspan, h.span_eq]
        show old.span.stop < b.position + 1
        omega
      · rw [hspan, hspan']
        exact hb.stop_lt hold hold' hlt
  start_min := by
    intro id found hfound hne
    obtain ⟨-, rfl⟩ | ⟨old, hold, hshape, hspan, -⟩ := h.get?_cases hfound
    · rw [h.shape_eq] at hne ⊢
      exact h.start_min hb hne
    · rw [hshape] at hne ⊢
      -- The starts of operands that were there do not change.
      rw [h.starts_eq fun child => isSome_of_mem_children hold, hspan]
      exact hb.start_min hold hne

end Insertion

/-! ## Runs -/

/-- A run keeps the invariant, with failures and members anywhere in it. -/
theorem WellBuilt.run {b after : Builder} (hrun : Run b after) (hb : b.WellBuilt) :
    after.WellBuilt := by
  induction hrun with
  | refl b => exact hb
  | added _ h ih =>
    obtain ⟨-, shape, operation, hinsertion⟩ := insertion_of_add h
    exact (ih hb).insertion hinsertion
  -- A refused operation changes nothing, and a member that fails is a run of its own.
  | refused _ h ih =>
    rw [eq_of_add_error h]
    exact ih hb
  | completed symbol _ _ ih ihBody => exact (ihBody (ih hb)).completeMember symbol _
  | abandoned _ _ ih ihBody => exact ihBody (ih hb)

/-- Every builder that calls lead to has the invariant. -/
theorem wellBuilt_of_run {symbols : SymbolTable} {document : String} {b : Builder}
    (hrun : Run (new symbols document) b) : b.WellBuilt :=
  (wellBuilt_new symbols document).run hrun

/-! ## From the invariant to the forest -/

/-- What a known operation stores is read off its shape. -/
private theorem stores_iff_of_get? {b : Builder} {parent : OpId} {operation : Operation}
    (hget : b.get? parent = some operation) {field : OperandField} {child : OpId} :
    b.Stores parent field child ↔ operation.shape.Stores field child := by
  constructor
  · rintro ⟨found, hfound, hstores⟩
    cases hget.symm.trans hfound
    exact hstores
  · exact fun hstores => ⟨operation, hget, hstores⟩

/-- The operand links of a well-built tree are its parent links read backwards. -/
private theorem WellBuilt.parent_of_stores {b : Builder} (hb : b.WellBuilt) {parent child : OpId}
    {field : OperandField} (h : b.Stores parent field child) : b.parent? child = some parent := by
  obtain ⟨operation, hget, hstores⟩ := h
  exact hb.parent_iff.2 ⟨operation, hget, hstores.mem_children⟩

/-- An operand is stored once: its parent is unique, and operand lists have no duplicates. -/
private theorem WellBuilt.stored_once {b : Builder} (hb : b.WellBuilt) {parent parent' child : OpId}
    {field field' : OperandField} (h : b.Stores parent field child)
    (h' : b.Stores parent' field' child) : parent = parent' ∧ field = field' := by
  have hparent : parent = parent' :=
    Option.some.inj ((hb.parent_of_stores h).symm.trans (hb.parent_of_stores h'))
  subst hparent
  obtain ⟨operation, hget, hstores⟩ := h
  have hstores' := (stores_iff_of_get? hget).1 h'
  exact ⟨rfl, hstores.field_unique (hb.nodup hget) hstores'⟩

/-- An operation starts where the first of its operands starts. -/
theorem WellBuilt.start_least {b : Builder} (hb : b.WellBuilt) {id child : OpId}
    {operation : Operation} {field : OperandField} (hget : b.get? id = some operation)
    (hstores : operation.shape.Stores field child) :
    (∃ field' child' found, operation.shape.Stores field' child' ∧ b.get? child' = some found ∧
      found.span.start = operation.span.start) ∧
    ∀ found, b.get? child = some found → operation.span.start ≤ found.span.start := by
  -- The start is the least one of the operands, by construction.
  have hmin := hb.start_min hget (List.ne_nil_of_mem hstores.mem_children)
  obtain ⟨hmem, hle⟩ := List.min?_eq_some_iff.1 hmin
  constructor
  · obtain ⟨first, hfirst, found, hfound, hstart⟩ := Tree.mem_starts.1 hmem
    obtain ⟨field', hfield'⟩ := Shape.mem_children_iff.1 hfirst
    exact ⟨field', first, found, hfield', hfound, hstart⟩
  · intro found hfound
    exact hle _ (Tree.mem_starts.2 ⟨child, hstores.mem_children, found, hfound, rfl⟩)

/-- A well-built tree is a forest. -/
theorem WellBuilt.isForest {b : Builder} (hb : b.WellBuilt) : b.IsForest where
  stored_lt := by
    rintro parent field child ⟨operation, hget, hstores⟩
    have hmem := hstores.mem_children
    exact ⟨isSome_of_mem_children hget hmem, Tree.index_lt_of_mem_children hget hmem⟩
  parent_iff_stores := by
    intro child parent
    constructor
    · intro h
      obtain ⟨operation, hget, hmem⟩ := hb.parent_iff.1 h
      -- An operand is stored in some field.
      obtain ⟨field, hstores⟩ := Shape.mem_children_iff.1 hmem
      exact ⟨field, operation, hget, hstores⟩
    · rintro ⟨field, h⟩
      exact hb.parent_of_stores h
  stored_once := hb.stored_once
  ancestors_climb := b.ancestors_eq_climb
  ancestors_increasing := b.pairwise_ancestors
  start_lt_stop := hb.start_lt
  start_least := hb.start_least
  stored_stop_lt := by
    intro id operation field child found hget hstores hfound
    exact hb.stop_lt hfound hget (Tree.index_lt_of_mem_children hget hstores.mem_children)
  stop_increasing := hb.stop_lt

/-- Whatever sequence of calls a builder goes through, also with failed ones, the tree it ends with
    is a forest with nested positions. -/
theorem isForest_of_run {symbols : SymbolTable} {document : String} {b : Builder}
    (hrun : Run (new symbols document) b) : b.toTree.IsForest :=
  (wellBuilt_of_run hrun).isForest

/-- A call on a local variable inside a member, then the attempt to use the variable again, and an
    inner member that is given up after a literal. -/
def sampleScript : List ScriptItem :=
  [.member false ⟨0x06000001⟩
    [.add true (.slot ⟨0x11000001⟩),
     .add true (.call ⟨0x06000001⟩ (some ⟨0⟩) []),
     .add false (.argument none ⟨0⟩),
     .member false ⟨0x06000002⟩ [.add true (.literal none), .add true (.argument none ⟨9⟩)]]]

/-- The builder that the sample script ends with. -/
def sampleBuilder : Builder := (ScriptItem.runAll sampleScript (new {} "Sample")).2.2

/-- The variable belongs to the call, and of the two members only the outer one is recorded. -/
theorem isForest_sampleBuilder :
    Run (new {} "Sample") sampleBuilder ∧ sampleBuilder.toTree.IsForest ∧
      sampleBuilder.parent? ⟨0⟩ = some ⟨1⟩ ∧ sampleBuilder.size = 3 ∧
        sampleBuilder.regions = [{ symbol := ⟨0x06000001⟩, span := { start := 0, stop := 4 } }] :=
  have hrun := run_of_items sampleScript (new {} "Sample")
  ⟨hrun, isForest_of_run hrun, by decide, by decide, by decide⟩

end Builder

/-! ## The model of a built tree -/

namespace Model

/-- Parent links are the operand links read backwards, and no operand is stored twice. -/
structure IsBuilt (m : Model) : Prop where
  nodup : ∀ {id shape}, m.shape? id = some shape → shape.children.Nodup
  parent_iff : ∀ {child parent}, m.tree.parent? child = some parent ↔
    ∃ shape, m.shape? parent = some shape ∧ child ∈ shape.children

/-- The model of a well-built tree has its links in order. -/
theorem isBuilt_of_wellBuilt {b : Builder} (hb : b.WellBuilt) (symbols : SymbolTable) :
    IsBuilt { symbols, tree := b.toTree } where
  nodup := by
    intro id shape hshape
    obtain ⟨operation, hget, rfl⟩ := Option.map_eq_some_iff.1 hshape
    exact hb.nodup hget
  parent_iff := by
    intro child parent
    rw [hb.parent_iff]
    constructor
    · rintro ⟨operation, hget, hmem⟩
      exact ⟨operation.shape, Option.map_eq_some_iff.2 ⟨operation, hget, rfl⟩, hmem⟩
    · rintro ⟨shape, hshape, hmem⟩
      obtain ⟨operation, hget, rfl⟩ := Option.map_eq_some_iff.1 hshape
      exact ⟨operation, hget, hmem⟩

/-- An operand has the operation that stores it as its parent. -/
theorem IsBuilt.parent_of_mem {m : Model} (hm : m.IsBuilt) {id parent : OpId} {shape : Shape}
    (hshape : m.shape? parent = some shape) (hmem : id ∈ shape.children) :
    m.tree.parent? id = some parent :=
  hm.parent_iff.2 ⟨shape, hshape, hmem⟩

end Model

end DefensiveCopy
