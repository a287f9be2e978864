import DefensiveCopy.Analysis.Run
import DefensiveCopy.Proofs.Forest
import DefensiveCopy.Proofs.Polling

/-!
# Every receiver has one site

The receiver of a member access is an operand of the operation that makes the access, or stands
deeper: behind a conversion that the compiler put in, behind an event reference, or behind the
initializer and the declarator of a `fixed` statement.  All that may stand between only passes its
operand on and makes no access of its own.  So the operation is found again from the receiver: it is
the nearest ancestor that does not pass its operand on (`Model.user?`).

## Key results

- `Model.reaches_of_mem_memberAccesses`: between an operation and the receivers of its accesses are
  operations that pass their operand on
- `Model.user?_of_reaches`: in a built tree the operation is found again from the receiver
- `nodup_of_analyzeOperation`: an operation reports no finding twice
-/

namespace DefensiveCopy

namespace Model

/-! ## Operations that pass their operand on -/

/-- The operation makes no access of its own: its operand is used by the operation around it. -/
def passesOn (m : Model) (id : OpId) : Bool :=
  match m.shape? id with
  | some (.eventReference _ _) | some (.conversion _ _ _) | some (.variableInitializer _)
  | some (.variableDeclarator _ _) => true
  | _ => false

/-- The nearest operation around an expression that does not pass its operand on. -/
def user? (m : Model) (id : OpId) : Option OpId :=
  (m.tree.ancestors id).find? fun ancestor => !m.passesOn ancestor

/-- The expression is an operand of the operation, directly or through operations that pass their
    operand on. -/
inductive Reaches (m : Model) (id : OpId) : OpId → Prop where
  | operand {receiver : OpId} {shape : Shape} (hshape : m.shape? id = some shape)
    (hmem : receiver ∈ shape.children) : Reaches m id receiver
  | through {middle receiver : OpId} {shape : Shape} (hreach : Reaches m id middle)
    (hpasses : m.passesOn middle) (hshape : m.shape? middle = some shape)
    (hmem : receiver ∈ shape.children) : Reaches m id receiver

/-! ## The receivers of each kind of operation -/

/-- An access to a property has the receiver of the reference. -/
private theorem receiver_of_mem_propertyAccesses {m : Model} {id receiver : OpId} {property : Token}
    {access : MemberAccess} (h : access ∈ m.propertyAccesses id property receiver) :
    access.receiver = receiver := by
  unfold propertyAccesses at h
  split at h
  · exact nomatch h
  · split at h
    · exact nomatch h
    · obtain ⟨accessor, -, rfl⟩ := List.mem_map.1 h
      rfl

/-- An access to an event has the receiver of the reference to the event, which passes it on. -/
private theorem reaches_of_mem_eventAccesses {m : Model} {id reference : OpId} {adds : Bool}
    {access : MemberAccess} (hreach : m.Reaches id reference)
    (h : access ∈ m.eventAccesses reference adds) : m.Reaches id access.receiver := by
  unfold eventAccesses at h
  split at h
  · next event receiver hshape =>
    split at h
    · exact nomatch h
    · obtain ⟨accessor, -, rfl⟩ := List.mem_map.1 h
      -- The reference makes no access of its own.
      exact hreach.through (by simp [passesOn, hshape]) hshape (by simp [Shape.children])
  · exact nomatch h

/-- The shape of an operation that is there. -/
theorem shape?_of_get? {m : Model} {id : OpId} {operation : Operation}
    (h : m.get? id = some operation) : m.shape? id = some operation.shape := by
  simp [shape?, h]

/-- What stands behind a conversion is reached if the conversion is. -/
theorem Reaches.conversion {m : Model} {id middle operand : OpId} {isUserDefined : Bool}
    {method : Option Token} (hreach : m.Reaches id middle)
    (hshape : m.shape? middle = some (.conversion operand isUserDefined method)) :
    m.Reaches id operand :=
  hreach.through (by simp [passesOn, hshape]) hshape (by simp [Shape.children])

/-- A loop reaches the value behind a conversion of its collection. -/
private theorem reaches_loopReceiver {m : Model} {id collection : OpId}
    (hreach : m.Reaches id collection) : m.Reaches id (m.loopReceiver collection) := by
  unfold loopReceiver
  split
  · next hget => exact hreach.conversion (shape?_of_get? hget)
  · exact hreach

/-- A value that is implicitly converted is reached if its conversion is. -/
private theorem reaches_of_implicitlyConverted? {m : Model} {id middle operand : OpId}
    (hreach : m.Reaches id middle) (h : m.implicitlyConverted? middle = some operand) :
    m.Reaches id operand := by
  unfold implicitlyConverted? at h
  split at h
  · next hget =>
    cases h
    exact hreach.conversion (shape?_of_get? hget)
  · cases h

/-- A value that is turned into text is reached through its conversion. -/
private theorem reaches_of_concatenationAccess? {m : Model} {id left right : OpId}
    {access : MemberAccess}
    (hreach : m.Reaches id right) (h : m.concatenationAccess? left right = some access) :
    m.Reaches id access.receiver := by
  unfold concatenationAccess? at h
  split at h
  · simp only [bind, Option.bind_eq_some_iff] at h
    obtain ⟨object, -, operand, hoperand, type, -, toText, -, haccess⟩ := h
    cases haccess
    exact reaches_of_implicitlyConverted? hreach hoperand
  · cases h

/-- An access by an implicit indexer has the receiver of the indexer. -/
private theorem receiver_of_mem_indexerAccesses {m : Model} {policy : CopyPolicy}
    {id receiver position : OpId} {indexer length : Token} {access : MemberAccess}
    (h : access ∈ m.indexerAccesses policy id receiver position indexer length) :
    access.receiver = receiver := by
  unfold indexerAccesses at h
  split at h
  · exact nomatch h
  · obtain ⟨target, -, haccess⟩ := List.mem_filterMap.1 h
    obtain ⟨method, -, rfl⟩ := Option.map_eq_some_iff.1 haccess
    -- The target may become the length, the receiver stays.
    dsimp only
    split
    · split <;> rfl
    · rfl

/-- A pinned value is reached through its declarator and initializer. -/
private theorem reaches_of_pinningAccess? {m : Model} {id declarator : OpId} {within : Token}
    {access : MemberAccess} (hreach : m.Reaches id declarator)
    (h : m.pinningAccess? within declarator = some access) : m.Reaches id access.receiver := by
  unfold pinningAccess? at h
  split at h
  · next slot initializer hdeclarator =>
    split at h
    · next pointee value _ hinitializer =>
      obtain ⟨method, -, rfl⟩ := Option.map_eq_some_iff.1 h
      -- Neither the declarator nor the initializer makes an access.
      have hmiddle : m.Reaches id initializer :=
        hreach.through (by simp [passesOn, hdeclarator]) hdeclarator (by simp [Shape.children])
      exact hmiddle.through (by simp [passesOn, hinitializer]) hinitializer
        (by simp [Shape.children])
    · cases h
  · cases h

/-! ## The receivers of all operations -/

/-- Operations that make accesses do not pass their operand on. -/
private theorem not_passesOn_of_mem_shapeAccesses {m : Model} {policy : CopyPolicy} {id : OpId}
    {shape : Shape} {access : MemberAccess} (hshape : m.shape? id = some shape)
    (h : access ∈ m.shapeAccesses policy id shape) : ¬m.passesOn id := by
  simp only [passesOn, hshape]
  cases shape with
  | eventReference | conversion | variableInitializer | variableDeclarator => exact nomatch h
  | _ => simp

/-- The receivers of the accesses of an operation are reached through its operands. -/
private theorem reaches_of_mem_shapeAccesses {m : Model} {policy : CopyPolicy} {id : OpId}
    {shape : Shape}
    {access : MemberAccess} (hoperand : ∀ operand ∈ shape.children, m.Reaches id operand)
    (h : access ∈ m.shapeAccesses policy id shape) : m.Reaches id access.receiver := by
  unfold shapeAccesses at h
  split at h
  · -- property
    rw [receiver_of_mem_propertyAccesses h]
    exact hoperand _ (by simp [Shape.children])
  · -- event
    exact reaches_of_mem_eventAccesses (hoperand _ (by simp [Shape.children])) h
  · -- call
    obtain rfl := List.mem_singleton.1 h
    exact hoperand _ (by simp [Shape.children])
  · -- loop
    obtain ⟨target, -, rfl⟩ := List.mem_map.1 h
    exact reaches_loopReceiver (hoperand _ (by simp [Shape.children]))
  · -- text and value
    have haccess := Option.mem_toList.1 h
    exact reaches_of_concatenationAccess? (hoperand _ (by simp [Shape.children])) haccess
  · -- value appended to a text in place
    have haccess := Option.mem_toList.1 h
    exact reaches_of_concatenationAccess? (hoperand _ (by simp [Shape.children])) haccess
  · -- implicit indexer
    rw [receiver_of_mem_indexerAccesses h]
    exact hoperand _ (by simp [Shape.children])
  · -- await
    obtain rfl := List.mem_singleton.1 h
    exact hoperand _ (by simp [Shape.children])
  · -- `fixed` statement
    unfold pinningAccesses at h
    split at h
    · obtain ⟨declarator, hmem, haccess⟩ := List.mem_filterMap.1 h
      exact reaches_of_pinningAccess? (hoperand _ (by simp [Shape.children, hmem])) haccess
    · cases h
  · cases h

/-- An operation that makes an access reaches the receiver, and does not pass its operand on. -/
theorem reaches_of_mem_memberAccesses {m : Model} {policy : CopyPolicy} {id : OpId}
    {access : MemberAccess} (h : access ∈ m.memberAccesses policy id) :
    m.Reaches id access.receiver ∧ ¬m.passesOn id := by
  unfold memberAccesses at h
  cases hshape : m.shape? id with
  | none =>
    rw [hshape] at h
    exact nomatch h
  | some shape =>
    rw [hshape] at h
    have hoperand : ∀ operand ∈ shape.children, m.Reaches id operand :=
      fun operand hmem => .operand hshape hmem
    exact ⟨reaches_of_mem_shapeAccesses hoperand h, not_passesOn_of_mem_shapeAccesses hshape h⟩

/-! ## Finding the operation again -/

/-- In a built tree, an operation that does not pass its operand on is the user of all that it
    reaches. -/
theorem user?_of_reaches {symbols : SymbolTable} {b : Builder} (hb : b.WellBuilt)
    {id receiver : OpId} (hreach : Reaches { symbols, tree := b.toTree } id receiver)
    (hid : ¬passesOn { symbols, tree := b.toTree } id) :
    user? { symbols, tree := b.toTree } receiver = some id := by
  -- Each step down the operands is the step up to the parent, and the search skips what passes on.
  have hm := isBuilt_of_wellBuilt hb symbols
  unfold user?
  induction hreach with
  | operand hshape hmem =>
    rw [Tree.ancestors_of_parent (hm.parent_of_mem hshape hmem)]
    exact List.find?_cons_of_pos (by simp [hid])
  | through _ hpasses hshape hmem ih =>
    rw [Tree.ancestors_of_parent (hm.parent_of_mem hshape hmem),
      List.find?_cons_of_neg (by simp [hpasses])]
    exact ih

end Model

/-! ## Findings of one operation -/

/-- Collecting findings without repetition gives a list without duplicates. -/
private theorem nodup_foldl_collect (found findings : List Finding) (h : findings.Nodup) :
    (found.foldl (fun findings finding =>
      if finding ∈ findings then findings else findings ++ [finding]) findings).Nodup := by
  induction found generalizing findings with
  | nil => exact h
  | cons finding rest ih =>
    rw [List.foldl_cons]
    apply ih
    split
    · exact h
    · next hnot =>
      refine List.nodup_append.2 ⟨h, by simp, ?_⟩
      -- The new finding was not there yet.
      intro old hold new hnew heq
      rw [List.mem_singleton.1 hnew] at heq
      exact hnot (heq ▸ hold)

/-- An operation reports no finding twice. -/
theorem nodup_of_analyzeOperation {options : AnalysisOptions} {m : Model} {signal : Signal}
    {id : OpId} {findings : List Finding}
    (h : analyzeOperation options m signal id = .ok findings) : findings.Nodup := by
  unfold analyzeOperation at h
  simp only [bind, Except.bind] at h
  split at h
  · cases h
  · split at h
    · cases h
    · cases h
      exact nodup_foldl_collect _ [] List.nodup_nil

/-! ## Sites of findings -/

/-- In a built tree no expression is the receiver of accesses of two operations, and no operation
    reports the same finding twice. -/
theorem receivers_disjoint_of_run {typing symbols : SymbolTable} {document : String} {b : Builder}
    (hrun : Builder.Run (Builder.new typing document) b) :
    (∀ (policy : CopyPolicy) (i j : OpId), i ≠ j →
      ∃ left right, Model.accesses { symbols, tree := b.toTree } .live policy i = .ok left ∧
        Model.accesses { symbols, tree := b.toTree } .live policy j = .ok right ∧
          ∀ access ∈ left, ∀ other ∈ right, access.receiver ≠ other.receiver) ∧
    ∀ (options : AnalysisOptions) (signal : Signal) (id : OpId) (findings : List Finding),
      analyzeOperation options { symbols, tree := b.toTree } signal id = .ok findings →
        findings.Nodup := by
  have hb := Builder.wellBuilt_of_run hrun
  constructor
  · intro policy i j hne
    refine ⟨_, _, Model.accesses_live _ policy i, Model.accesses_live _ policy j, ?_⟩
    intro access haccess other hother heq
    -- Both operations are the user of the receiver that they share.
    obtain ⟨hreach, hi⟩ := Model.reaches_of_mem_memberAccesses haccess
    obtain ⟨hreach', hj⟩ := Model.reaches_of_mem_memberAccesses hother
    have huser := Model.user?_of_reaches hb hreach hi
    have huser' := Model.user?_of_reaches hb hreach' hj
    rw [heq] at huser
    exact hne (Option.some.inj (huser.symm.trans huser'))
  · intro options signal id findings h
    exact nodup_of_analyzeOperation h

/-- A loop over the result of a call, which the compiler converts first. -/
def loopScript : List ScriptItem :=
  [.add true (.slot ⟨0x11000001⟩),
   .add true (.call ⟨0x06000001⟩ (some ⟨0⟩) []),
   .add true (.implicitConversion ⟨1⟩ ⟨0x02000001⟩),
   .add true (.operation (.forEachLoop ⟨2⟩ (some ⟨0x06000002⟩) none) none false)]

/-- The operations of the loop, without any symbols. -/
def loopModel : Model :=
  { symbols := {}, tree := (ScriptItem.runAll loopScript (Builder.new {} "Loop")).2.2.toTree }

/-- The call has its own receiver, and the loop has the call behind the conversion. -/
theorem receivers_disjoint_loop :
    (loopModel.memberAccesses {} ⟨1⟩).map (·.receiver) = [⟨0⟩] ∧
      (loopModel.memberAccesses {} ⟨3⟩).map (·.receiver) = [⟨1⟩] ∧
        ∃ left right, loopModel.accesses .live {} ⟨1⟩ = .ok left ∧
          loopModel.accesses .live {} ⟨3⟩ = .ok right ∧
            ∀ access ∈ left, ∀ other ∈ right, access.receiver ≠ other.receiver :=
  ⟨by decide, by decide,
    (receivers_disjoint_of_run (Builder.run_of_items loopScript (Builder.new {} "Loop"))).1
      {} ⟨1⟩ ⟨3⟩ (by decide)⟩

end DefensiveCopy
