import DefensiveCopy.Operation.Script

/-!
# Runs of a builder

A builder is driven by calls: operations are added, and members are declared around calls of their
own.  Every call may fail, and what the code around a failed call does then is up to that code: it
may go on, or let the failure end the member it stands in.  `Builder.Run` relates two builders when
some such sequence of calls leads from the first to the second.

## Key results

- `Builder.insertion_of_add`: everything that a successful call changes, said once for all drafts
- `Builder.eq_of_add_error`: a refused operation changes nothing
- `Builder.run_of_items`: what a script builds is built by a run
-/

namespace DefensiveCopy

namespace Builder

/-! ## One operation -/

/-- What inserting an operation does: it takes the next number and the next position, its operands
    are different operations without a parent, which get it as theirs, and all else stays. -/
structure Insertion (b : Builder) (shape : Shape) (operation : Operation) (after : Builder) :
    Prop where
  shape_eq : operation.shape = shape
  parent_eq : operation.parent = none
  span_eq : operation.span = { start := b.startOf shape.children, stop := b.position + 1 }
  nodup : shape.children.Nodup
  parentless : ∀ child ∈ shape.children, ∃ found, b.get? child = some found ∧ found.parent = none
  position_eq : after.position = b.position + 1
  size_eq : after.size = b.size + 1
  get?_eq : ∀ id, after.get? id =
    if id = ⟨b.size⟩ then some operation
    else (b.get? id).map fun found =>
      if id ∈ shape.children then { found with parent := some ⟨b.size⟩ } else found

namespace Insertion

variable {b after : Builder} {shape : Shape} {operation : Operation}

/-- The new operation is found under the next number. -/
theorem get?_new (h : b.Insertion shape operation after) :
    after.get? ⟨b.size⟩ = some operation := by
  simp [h.get?_eq]

/-- An operation that was there keeps its shape and its span.  Its parent changes only if it is an
    operand of the new operation. -/
theorem get?_old (h : b.Insertion shape operation after) {id : OpId} {old : Operation}
    (hget : b.get? id = some old) :
    ∃ found, after.get? id = some found ∧ found.shape = old.shape ∧ found.span = old.span ∧
      found.parent = if id ∈ shape.children then some ⟨b.size⟩ else old.parent := by
  have hlt : id.index < b.size := (Array.getElem?_eq_some_iff.1 hget).1
  -- The new number is the size of the old tree, so nothing was found under it.
  have hne : id ≠ ⟨b.size⟩ := by
    rintro rfl
    exact Nat.lt_irrefl _ hlt
  rw [h.get?_eq, if_neg hne, hget, Option.map_some]
  split <;> exact ⟨_, rfl, rfl, rfl, rfl⟩

/-- What is found afterwards is the new operation, or was there before. -/
theorem get?_cases (h : b.Insertion shape operation after) {id : OpId} {found : Operation}
    (hget : after.get? id = some found) :
    (id = ⟨b.size⟩ ∧ found = operation) ∨
      ∃ old, b.get? id = some old ∧ found.shape = old.shape ∧ found.span = old.span ∧
        found.parent = if id ∈ shape.children then some ⟨b.size⟩ else old.parent := by
  by_cases hid : id = ⟨b.size⟩
  · subst hid
    exact .inl ⟨rfl, Option.some.inj (hget.symm.trans h.get?_new)⟩
  · -- Under any other number something was there before.
    have hold : ∃ old, b.get? id = some old := by
      rw [h.get?_eq, if_neg hid] at hget
      obtain ⟨old, hold, -⟩ := Option.map_eq_some_iff.1 hget
      exact ⟨old, hold⟩
    obtain ⟨old, hold⟩ := hold
    obtain ⟨found', hfound', hspec⟩ := h.get?_old hold
    cases hget.symm.trans hfound'
    exact .inr ⟨old, hold, hspec⟩

end Insertion

/-- Operands without a fault are different operations that have no parent. -/
private theorem of_fault?_eq_none {b : Builder} {children : List OpId}
    (h : b.fault? children = none) :
    children.Nodup ∧
      ∀ child ∈ children, ∃ found, b.get? child = some found ∧ found.parent = none := by
  -- The faults of single operands are looked for first, then repetitions.
  obtain ⟨hnone, hrepeated⟩ := Option.or_eq_none_iff.1 (fault?_eq_none_iff_operandFault?.1 h).2
  constructor
  · split at hrepeated
    · assumption
    · cases hrepeated
  · intro child hmem
    have hfault := List.findSome?_eq_none_iff.1 hnone child hmem
    unfold childFault? at hfault
    split at hfault
    · cases hfault
    · next found hget => exact ⟨found, hget, by simpa using hfault⟩

/-- A successful insertion returns the next number and changes what `Insertion` says. -/
private theorem insertion_of_insert {b after : Builder} {shape : Shape} {type : Option Token}
    {isImplicit : Bool} {id : OpId} (h : insert shape type isImplicit b = .ok id after) :
    id = ⟨b.size⟩ ∧ ∃ operation, b.Insertion shape operation after := by
  unfold insert at h
  split at h
  · cases h
  · next hfault =>
    obtain ⟨hnodup, hparentless⟩ := of_fault?_eq_none hfault
    let span : Span := { start := b.startOf shape.children, stop := b.position + 1 }
    cases h
    -- The type and the implicit flag are stored and not looked at.
    refine ⟨rfl, { shape, type, span, isImplicit }, ?_⟩
    exact
      { shape_eq := rfl
        parent_eq := rfl
        span_eq := rfl
        nodup := hnodup
        parentless := hparentless
        position_eq := rfl
        size_eq := size_attach _ _
        get?_eq := by
          rintro ⟨i⟩
          simp [Tree.get?, Tree.size, getElem?_attach, span] }

/-- Reading the builder hands it to the steps that follow. -/
theorem get_bind {α : Type} (next : Builder → Building α) (b : Builder) :
    ((get : Building Builder) >>= next) b = next b b := rfl

/-- Whatever a draft describes, adding it inserts an operation of some shape. -/
theorem exists_add_eq_insert (draft : Draft) (b : Builder) :
    ∃ shape type isImplicit, add draft b = insert shape type isImplicit b := by
  -- Every draft ends in one insertion; they differ by shape and type.
  cases draft <;> simp only [add, get_bind] <;> exact ⟨_, _, _, rfl⟩

/-- A successful call inserts an operation and returns its number. -/
theorem insertion_of_add {b after : Builder} {draft : Draft} {id : OpId}
    (h : add draft b = .ok id after) :
    id = ⟨b.size⟩ ∧ ∃ shape operation, b.Insertion shape operation after := by
  obtain ⟨shape, type, isImplicit, heq⟩ := exists_add_eq_insert draft b
  obtain ⟨hid, operation, hinsertion⟩ := insertion_of_insert (heq.symm.trans h)
  exact ⟨hid, shape, operation, hinsertion⟩

/-- A refused operation changes nothing. -/
theorem eq_of_add_error {b after : Builder} {draft : Draft} {error : OperationError}
    (h : add draft b = .error error after) : after = b := by
  obtain ⟨shape, type, isImplicit, heq⟩ := exists_add_eq_insert draft b
  rw [heq] at h
  unfold insert at h
  split at h
  · cases h
    rfl
  · cases h

/-! ## Sequences of calls -/

/-- Some sequence of calls leads from the first builder to the second.  Members are declared around
    sequences of their own: a member that succeeds is completed with the position that it began at,
    a member that fails leaves behind what was built in it. -/
inductive Run : Builder → Builder → Prop where
  | refl (b : Builder) : Run b b
  | added {b before after : Builder} {draft : Draft} {id : OpId} (hrun : Run b before)
    (h : add draft before = .ok id after) : Run b after
  | refused {b before after : Builder} {draft : Draft} {error : OperationError}
    (hrun : Run b before) (h : add draft before = .error error after) : Run b after
  | completed {b before after : Builder} (symbol : Token) (hrun : Run b before)
    (hbody : Run before after) : Run b (after.completeMember symbol before.position)
  | abandoned {b before after : Builder} (hrun : Run b before) (hbody : Run before after) :
    Run b after

mutual

/-- What an item of a script builds is built by a run. -/
theorem run_of_item : (item : ScriptItem) → (b : Builder) → Run b (item.run b).2
  | .add _ draft, b => by
    rw [ScriptItem.run]
    split
    · next h => exact .added (.refl b) h
    · next h => exact .refused (.refl b) h
  | .member _ symbol body, b => by
    -- The items of a member run first, and only then is it completed or abandoned.
    have hbody := run_of_items body b
    rw [ScriptItem.run]
    split
    · next h =>
      rw [h] at hbody
      exact .completed symbol (.refl b) hbody
    · next h =>
      rw [h] at hbody
      exact hbody

/-- What the items of a script build is built by a run, also when a failure ends it. -/
theorem run_of_items : (items : List ScriptItem) → (b : Builder) →
    Run b (ScriptItem.runAll items b).2.2
  | [], b => .refl b
  | item :: rest, b => by
    have hitem := run_of_item item b
    rw [ScriptItem.runAll]
    split
    next answer built h =>
    rw [h] at hitem
    split
    · -- A required item that fails ends the script.
      exact hitem
    · exact .abandoned hitem (run_of_items rest built)

end

end Builder

end DefensiveCopy
