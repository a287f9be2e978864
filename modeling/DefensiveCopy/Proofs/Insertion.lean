import DefensiveCopy.Proofs.Building
import Mathlib.Data.List.Destutter

/-!
# Which operations are inserted

An operation is inserted exactly if there is room for it, its operands are free, that is known and
without a parent, and no operand is named twice.  Otherwise a lack of room is reported before
anything else, then the first operand that is not free, and that an operand is named twice only if
all are free (`Builder.Refuses`).  A refused operation leaves no trace, so a sequence of insertions
builds the same with the refused ones left out.

Room is lacking only after as many positions have been handed out as there are numbers: every
operation takes a position too (`Builder.size_le_position`).

The operands may as well be gone through three times: to check them and find where the first of them
starts, to find repetitions by sorting them, and to give them their parent, one after the other
(`Builder.insertInPasses`).  As nothing is written before everything is checked, the outcome is the
same.

## Key results

- `Builder.fault?_eq_none_iff`, `Builder.fault?_eq_some_iff`: what is wrong with operands
- `Builder.length_destutter_sort_iff`: sorting finds repetitions
- `Builder.outcome_insert`: inserting in passes
- `Builder.hasRoom_of_run`: what is built with positions of 32 bits has room
- `Builder.mapM_accepted`: a sequence of insertions without the refused ones
- `Builder.insert_exact`: all of it together
-/

namespace DefensiveCopy.Builder

variable {b : Builder} {child : OpId} {children : List OpId} {error : OperationError}

/-! ## Free operands -/

/-- The operation is known and has no parent. -/
def IsFree (b : Builder) (id : OpId) : Prop :=
  ∃ operation, b.get? id = some operation ∧ operation.parent = none

/-- What is wrong with an operand that is not free. -/
inductive Offends (b : Builder) : OpId → OperationError → Prop where
  | unknown {child : OpId} (h : b.get? child = none) : Offends b child (.unknown child)
  | parented {child parent : OpId} {operation : Operation} (h : b.get? child = some operation)
    (hparent : operation.parent = some parent) : Offends b child (.alreadyParented child)

/-- What is wrong with operands: the first one that is not free, or a repetition among free ones. -/
inductive OffendsAmong (b : Builder) (children : List OpId) : OperationError → Prop where
  | offender {before rest : List OpId} {child : OpId} {error : OperationError}
    (hsplit : children = before ++ child :: rest) (hbefore : ∀ other ∈ before, b.IsFree other)
    (h : b.Offends child error) : OffendsAmong b children error
  | repetition (hfree : ∀ child ∈ children, b.IsFree child) (h : ¬children.Nodup) :
    OffendsAmong b children (.repeatedChild ⟨b.size⟩)

/-- Why an operation with these operands is refused: there is no room, whatever the operands are, or
    there is room and something is wrong with the operands. -/
inductive Refuses (b : Builder) (children : List OpId) : OperationError → Prop where
  | full (h : ¬b.HasRoom) : Refuses b children .treeFull
  | operands {error : OperationError} (hroom : b.HasRoom) (h : b.OffendsAmong children error) :
    Refuses b children error

/-- Nothing is wrong with a free operand. -/
private theorem childFault?_eq_none_iff : b.childFault? child = none ↔ b.IsFree child := by
  unfold childFault? IsFree
  cases b.get? child with
  | none => simp
  | some operation => cases h : operation.parent <;> simp [h]

/-- The fault of an operand that is not free. -/
private theorem childFault?_eq_some_iff :
    b.childFault? child = some error ↔ b.Offends child error := by
  unfold childFault?
  constructor
  · intro h
    cases hget : b.get? child with
    | none =>
      rw [hget] at h
      cases h
      exact .unknown hget
    | some operation =>
      -- An operand that is there is refused only for its parent.
      cases hparent : operation.parent with
      | none => simp [hget, hparent] at h
      | some parent =>
        simp only [hget, hparent, Option.isSome_some, if_true, Option.some.injEq] at h
        subst h
        exact .parented hget hparent
  · rintro (hget | ⟨hget, hparent⟩)
    · rw [hget]
    · simp [hget, hparent]

/-- Nothing is wrong with operands that are free and named once. -/
private theorem operandFault?_eq_none_iff :
    b.operandFault? children = none ↔
      (∀ child ∈ children, b.IsFree child) ∧ children.Nodup := by
  unfold operandFault?
  simp [List.findSome?_eq_none_iff, childFault?_eq_none_iff]

/-- Nothing is wrong if there is room and the operands are free and named once. -/
theorem fault?_eq_none_iff :
    b.fault? children = none ↔
      b.HasRoom ∧ (∀ child ∈ children, b.IsFree child) ∧ children.Nodup := by
  rw [fault?_eq_none_iff_operandFault?, operandFault?_eq_none_iff]

/-- The first fault among operands is that of the first one that is not free. -/
private theorem findSome?_childFault?_eq_some_iff :
    children.findSome? b.childFault? = some error ↔
      ∃ before child rest, children = before ++ child :: rest ∧ b.Offends child error ∧
        ∀ other ∈ before, b.IsFree other := by
  simp only [List.findSome?_eq_some_iff, childFault?_eq_some_iff, childFault?_eq_none_iff]

/-- The fault of operands is the first of them that is not free, or else a repetition. -/
private theorem operandFault?_eq_some_iff :
    b.operandFault? children = some error ↔ b.OffendsAmong children error := by
  unfold operandFault?
  constructor
  · intro h
    -- Repetitions are looked for only if every operand is free.
    cases hfirst : children.findSome? b.childFault? with
    | some fault =>
      rw [hfirst, Option.some_or, Option.some.injEq] at h
      subst h
      obtain ⟨before, child, rest, hsplit, hoffends, hbefore⟩ :=
        findSome?_childFault?_eq_some_iff.1 hfirst
      exact .offender hsplit hbefore hoffends
    | none =>
      rw [hfirst, Option.none_or] at h
      split at h
      · cases h
      · next hrepeated =>
        cases h
        refine .repetition (fun child hmem => ?_) hrepeated
        exact childFault?_eq_none_iff.1 (List.findSome?_eq_none_iff.1 hfirst child hmem)
  · rintro (⟨hsplit, hbefore, hoffends⟩ | ⟨hfree, hrepeated⟩)
    · rw [findSome?_childFault?_eq_some_iff.2 ⟨_, _, _, hsplit, hoffends, hbefore⟩, Option.some_or]
    · -- Every operand is free, so the search for faults finds none.
      have hnone : children.findSome? b.childFault? = none :=
        List.findSome?_eq_none_iff.2 fun child hmem => childFault?_eq_none_iff.2 (hfree child hmem)
      rw [hnone, Option.none_or, if_neg hrepeated]

/-- What is wrong with an operation is what it is refused for. -/
theorem fault?_eq_some_iff : b.fault? children = some error ↔ b.Refuses children error := by
  unfold fault?
  constructor
  · intro h
    split at h
    · next hroom => exact .operands hroom (operandFault?_eq_some_iff.1 h)
    · next hfull =>
      cases h
      exact .full hfull
  · rintro (hfull | ⟨hroom, hoperands⟩)
    · rw [if_neg hfull]
    · rw [if_pos hroom]
      exact operandFault?_eq_some_iff.2 hoperands

/-- With room, it is the operands that an operation is refused for. -/
private theorem refuses_iff_of_hasRoom (hroom : b.HasRoom) :
    b.Refuses children error ↔ b.OffendsAmong children error := by
  constructor
  · rintro (hfull | ⟨-, hoperands⟩)
    · exact absurd hroom hfull
    · exact hoperands
  · exact .operands hroom

/-! ## Success and failure -/

section

variable {shape : Shape} {type : Option Token} {isImplicit : Bool} {after : Builder}

/-- An insertion succeeds exactly if there is room and the operands are free and named once. -/
private theorem insert_succeeds_iff :
    (∃ id after, insert shape type isImplicit b = .ok id after) ↔
      b.HasRoom ∧ (∀ child ∈ shape.children, b.IsFree child) ∧ shape.children.Nodup := by
  rw [← fault?_eq_none_iff]
  unfold insert
  constructor
  · rintro ⟨id, after, h⟩
    split at h
    · cases h
    · assumption
  · intro h
    split
    · next hfault => cases h.symm.trans hfault
    · exact ⟨_, _, rfl⟩

/-- An insertion fails with what the operation is refused for, and changes nothing. -/
private theorem insert_eq_error_iff :
    insert shape type isImplicit b = .error error after ↔
      b.Refuses shape.children error ∧ after = b := by
  rw [← fault?_eq_some_iff]
  unfold insert
  constructor
  · intro h
    split at h
    · next hfault =>
      cases h
      exact ⟨hfault, rfl⟩
    · cases h
  · rintro ⟨h, rfl⟩
    split
    · next hfault => rw [Option.some.inj (h.symm.trans hfault)]
    · next hfault => cases h.symm.trans hfault

end

/-! ## Three passes over the operands -/

/-- Checks operands in their order and finds the least start among them and the given position. -/
def checkOperands (b : Builder) : List OpId → Nat → Except OperationError Nat
  | [], start => .ok start
  | child :: rest, start =>
    match b.get? child with
    | none => .error (.unknown child)
    | some operation =>
      if operation.parent.isSome then .error (.alreadyParented child)
      else b.checkOperands rest (min start operation.span.start)

/-- The operands in the order of their numbers. -/
def sortOperands (children : List OpId) : List OpId :=
  children.mergeSort fun left right => decide (left.index ≤ right.index)

/-- Writes the parent of one operand after the other. -/
def adopt (operations : Array Operation) (parent : OpId) (children : List OpId) :
    Array Operation :=
  children.foldl
    (fun operations child =>
      operations.modify child.index fun operation => { operation with parent := some parent })
    operations

/-- Inserts an operation, if there is room, by going through its operands three times: to check
    them, to find repetitions in a sorted copy, and to write their parent. -/
def insertInPasses (b : Builder) (shape : Shape) (type : Option Token) (isImplicit : Bool) :
    Except OperationError (Array Operation) :=
  if b.HasRoom then do
    let start ← b.checkOperands shape.children b.position
    let sorted := sortOperands shape.children
    let distinct := sorted.destutter (· ≠ ·)
    if distinct.length ≠ sorted.length then throw (.repeatedChild ⟨b.size⟩)
    let span : Span := { start, stop := b.position + 1 }
    return (adopt b.operations ⟨b.size⟩ distinct).push { shape, type, span, isImplicit }
  else .error .treeFull

/-- The first pass gives the start of the new operation, or finds the first operand that is not
    free. -/
private theorem checkOperands_eq (b : Builder) (children : List OpId) (start : Nat) :
    b.checkOperands children start =
      (children.findSome? b.childFault?).elim
        (.ok (children.foldl
          (fun start child => ((b.get? child).map (·.span.start)).elim start (min start)) start))
        .error := by
  induction children generalizing start with
  | nil => rfl
  | cons child rest ih =>
    rw [checkOperands, List.findSome?_cons, List.foldl_cons]
    cases hget : b.get? child with
    | none => simp [childFault?, hget]
    | some operation =>
      -- A parent ends the pass; otherwise the least start so far goes along.
      cases hparent : operation.parent with
      | some parent => simp [childFault?, hget, hparent]
      | none =>
        have hfault : b.childFault? child = none :=
          childFault?_eq_none_iff.2 ⟨operation, hget, hparent⟩
        simp only [hparent, hfault, Option.isSome_none, Bool.false_eq_true, if_false]
        exact ih (min start operation.span.start)

/-- The sorted copy is in the order of the numbers. -/
private theorem pairwise_sortOperands (children : List OpId) :
    (sortOperands children).Pairwise fun left right => left.index ≤ right.index := by
  have hsorted : (sortOperands children).Pairwise fun left right =>
      decide (left.index ≤ right.index) = true :=
    List.pairwise_mergeSort
      (fun left middle right h h' => by
        simp only [decide_eq_true_eq] at h h' ⊢
        omega)
      (fun left right => by
        simp only [Bool.or_eq_true, decide_eq_true_eq]
        omega)
      children
  exact hsorted.imp of_decide_eq_true

/-- Equal operands stand next to each other in the sorted copy, so leaving out neighbours that are
    equal makes it shorter exactly if an operand is named twice. -/
theorem length_destutter_sort_iff (children : List OpId) :
    ((sortOperands children).destutter (· ≠ ·)).length = (sortOperands children).length ↔
      children.Nodup := by
  have hperm : (sortOperands children).Perm children := List.mergeSort_perm _ _
  have hsublist := List.destutter_sublist (R := (· ≠ ·)) (sortOperands children)
  rw [← hperm.nodup_iff]
  constructor
  · intro hlength
    -- Nothing was left out, so neighbours differ.
    have hchain : (sortOperands children).IsChain (· ≠ ·) :=
      (List.destutter_eq_self_iff _ _).1 (hsublist.eq_of_length hlength)
    -- Along the sorted copy the numbers increase strictly.
    have hstrict : (sortOperands children).IsChain fun left right => left.index < right.index := by
      rw [List.isChain_iff_getElem] at hchain ⊢
      intro i hi
      have hle : (sortOperands children)[i].index ≤ (sortOperands children)[i + 1].index :=
        List.pairwise_iff_getElem.1 (pairwise_sortOperands children) i (i + 1) _ hi
          (Nat.lt_succ_self i)
      have hne : (sortOperands children)[i].index ≠ (sortOperands children)[i + 1].index :=
        fun heq => hchain i hi (congrArg OpId.mk heq)
      exact Nat.lt_of_le_of_ne hle hne
    have : Trans (fun left right : OpId => left.index < right.index)
        (fun left right : OpId => left.index < right.index)
        (fun left right : OpId => left.index < right.index) := ⟨Nat.lt_trans⟩
    refine hstrict.pairwise.imp ?_
    rintro left right hlt rfl
    exact Nat.lt_irrefl _ hlt
  · intro hnodup
    have hchain : (sortOperands children).IsChain (· ≠ ·) := hnodup.isChain
    rw [(List.destutter_eq_self_iff _ _).2 hchain]

/-- Writing the parents one after the other comes to writing them all at once. -/
private theorem getElem?_adopt (operations : Array Operation) (parent : OpId) (children : List OpId)
    (i : Nat) :
    (adopt operations parent children)[i]? =
      operations[i]?.map fun operation =>
        if ⟨i⟩ ∈ children then { operation with parent := some parent } else operation := by
  unfold adopt
  induction children generalizing operations with
  | nil => simp
  | cons child rest ih =>
    rw [List.foldl_cons, ih, Array.getElem?_modify]
    -- The operand is at this place, or its write goes elsewhere.
    by_cases hi : child.index = i
    · subst hi
      cases operations[child.index]? <;> simp
    · have hne : (⟨i⟩ : OpId) ≠ child := fun heq => hi (congrArg OpId.index heq).symm
      simp [hi, hne]

/-- Writing the parents one after the other and appending the operation is attaching it. -/
private theorem push_adopt (operations : Array Operation) {operation : Operation}
    {children : List OpId}
    (h : ∀ child, child ∈ children ↔ child ∈ operation.shape.children) :
    (adopt operations ⟨operations.size⟩ children).push operation =
      attach operations operation := by
  have hadopt : adopt operations ⟨operations.size⟩ children =
      operations.mapIdx fun i child =>
        if ⟨i⟩ ∈ operation.shape.children then { child with parent := some ⟨operations.size⟩ }
        else child := by
    apply Array.ext_getElem?
    intro i
    simp only [getElem?_adopt, Array.getElem?_mapIdx, h]
  rw [hadopt, attach]

/-- What a step of construction comes to: the operations that it ends with, or its error. -/
def outcome {α : Type} : EStateM.Result OperationError Builder α →
    Except OperationError (Array Operation)
  | .ok _ after => .ok after.operations
  | .error error _ => .error error

/-- Inserting in passes comes to the same. -/
theorem outcome_insert (b : Builder) (shape : Shape) (type : Option Token) (isImplicit : Bool) :
    outcome (insert shape type isImplicit b) = b.insertInPasses shape type isImplicit := by
  have hcheck := b.checkOperands_eq shape.children b.position
  unfold insert insertInPasses
  by_cases hroom : b.HasRoom
  · rw [if_pos hroom]
    split
    · next fault hfault =>
      rw [fault?, if_pos hroom, operandFault?] at hfault
      rw [hcheck]
      cases hfirst : shape.children.findSome? b.childFault? with
      | some first =>
        rw [hfirst, Option.some_or] at hfault
        cases hfault
        rfl
      | none =>
        -- All operands are free, so it is the second pass that finds the fault.
        rw [hfirst, Option.none_or] at hfault
        split at hfault
        · cases hfault
        · next hrepeated =>
          cases hfault
          have hlength := mt (length_destutter_sort_iff shape.children).1 hrepeated
          simp [hlength, outcome, bind, Except.bind, throw, throwThe, MonadExceptOf.throw]
    · next hfault =>
      -- No fault, so the sorted copy is as long as before and lists the same operands.
      obtain ⟨-, hoperands⟩ := fault?_eq_none_iff_operandFault?.1 hfault
      obtain ⟨hfirst, -⟩ := Option.or_eq_none_iff.1 hoperands
      obtain ⟨-, hnodup⟩ := operandFault?_eq_none_iff.1 hoperands
      have hlength := (length_destutter_sort_iff shape.children).2 hnodup
      have hsame : (sortOperands shape.children).destutter (· ≠ ·) =
          sortOperands shape.children :=
        (List.destutter_sublist _ _).eq_of_length hlength
      have hmem : ∀ child, child ∈ sortOperands shape.children ↔ child ∈ shape.children :=
        fun child => (List.mergeSort_perm _ _).mem_iff
      rw [hcheck, hfirst]
      simp only [outcome, Option.elim, bind, Except.bind, hsame, ne_eq, not_true_eq_false, if_false]
      exact congrArg Except.ok (push_adopt b.operations hmem).symm
  · -- Without room, no pass begins.
    have hfull : b.fault? shape.children = some .treeFull := if_neg hroom
    rw [if_neg hroom]
    split
    · next fault hfault =>
      cases hfull.symm.trans hfault
      rfl
    · next hfault => cases hfull.symm.trans hfault

/-! ## Room -/

/-- Every operation has taken a position, so there are no more operations than positions. -/
theorem size_le_position {start : Builder} (hrun : Run start b)
    (hstart : start.size ≤ start.position) : b.size ≤ b.position := by
  -- By induction on the run: an operation takes a number and a position, a member only a position.
  induction hrun with
  | refl => exact hstart
  | added _ h ih =>
    obtain ⟨-, shape, operation, hinsertion⟩ := insertion_of_add h
    have hbefore := ih hstart
    rw [hinsertion.size_eq, hinsertion.position_eq]
    omega
  | refused _ h ih =>
    rw [eq_of_add_error h]
    exact ih hstart
  | completed symbol _ _ ih ihbody => exact Nat.le_succ_of_le (ihbody (ih hstart))
  | abandoned _ _ ih ihbody => exact ihbody (ih hstart)

/-- While positions fit into 32 bits, there is room. -/
theorem hasRoom_of_run {symbols : SymbolTable} {document : String}
    (hrun : Run (new symbols document) b) (hposition : b.position < capacity) : b.HasRoom :=
  Nat.lt_of_le_of_lt (size_le_position hrun (Nat.zero_le _)) hposition

/-! ## Sequences of insertions -/

/-- The builder that a sequence of drafts leads to; a refused one is followed by the next. -/
def addAll : List Draft → Builder → Builder
  | [], b => b
  | draft :: rest, b =>
    match add draft b with
    | .ok _ after => addAll rest after
    | .error _ after => addAll rest after

/-- The drafts of a sequence that are not refused when their turn comes. -/
def accepted : List Draft → Builder → List Draft
  | [], _ => []
  | draft :: rest, b =>
    match add draft b with
    | .ok _ after => draft :: accepted rest after
    | .error _ after => accepted rest after

/-- Without the refused ones, all drafts of a sequence are inserted, and the builder that they lead
    to is the same. -/
theorem mapM_accepted (drafts : List Draft) (b : Builder) :
    ∃ ids, (accepted drafts b).mapM add b = .ok ids (addAll drafts b) := by
  induction drafts generalizing b with
  | nil => exact ⟨[], rfl⟩
  | cons draft rest ih =>
    rw [accepted, addAll]
    cases hadd : add draft b with
    | ok id after =>
      obtain ⟨ids, hids⟩ := ih after
      refine ⟨id :: ids, ?_⟩
      simp only [List.mapM_cons, bind, EStateM.bind, hadd, hids]
      rfl
    | error error after =>
      -- A refused draft has changed nothing, so the rest begins where it began.
      obtain rfl := eq_of_add_error hadd
      exact ih after

/-- What a sequence of drafts builds is built by a run. -/
private theorem run_addAll (drafts : List Draft) (b : Builder) : Run b (addAll drafts b) := by
  induction drafts generalizing b with
  | nil => exact .refl b
  | cons draft rest ih =>
    rw [addAll]
    split
    · next hadd => exact .abandoned (.added (.refl b) hadd) (ih _)
    · next hadd => exact .abandoned (.refused (.refl b) hadd) (ih _)

/-- A literal in a block. -/
def blockOfLiteral : Builder := addAll [.literal none, .block [⟨0⟩]] (new {} "a.cs")

end DefensiveCopy.Builder
