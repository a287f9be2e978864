import DefensiveCopy.Proofs.ContainmentWalk
import DefensiveCopy.Proofs.ReceiverSites

/-!
# What an analysis finds when it is not called off

An analysis asks its signal before each search, and it fails if a location is unknown or if a search
for generated code has no end.  None of this happens to an operation of a tree when the signal is
live and every such search has an answer: every location that is reported is an operation of the
tree, because operand links never leave it.  What the analysis finds is then a plain function of the
model and the access (`findingOf?`), and the findings of an operation are those of its accesses.

## Key results

- `Model.isSome_get?_location`: the location of an access is an operation of the tree
- `analyzeOperation_live`: the findings of an operation, without signals and failures
- `exists_analyzeOperation`: a finding of an operation is a finding of one of its accesses
-/

namespace DefensiveCopy

/-! ## Generated code -/

/-- The symbol is generated code; without a symbol there is no such code. -/
def SymbolTable.isInGeneratedCode (t : SymbolTable) (symbol : Option Token) : Bool :=
  (symbol.bind t.isGenerated?).getD false

/-- Every search for generated code comes to its end. -/
def SymbolTable.AnswersGenerated (t : SymbolTable) : Prop :=
  ∀ token, (t.isGenerated? token).isSome

/-- A live search for generated code answers as the plain one. -/
private theorem SymbolTable.generated_live {t : SymbolTable} (h : t.AnswersGenerated)
    (symbol : Option Token) : t.generated .live symbol = .ok (t.isInGeneratedCode symbol) := by
  cases symbol with
  | none => rfl
  | some token =>
    obtain ⟨answer, hanswer⟩ := Option.isSome_iff_exists.1 (h token)
    rw [generated_some_eq_ok_iff, isInGeneratedCode, Option.bind_some, hanswer, Option.getD_some]

namespace Model

/-! ## Locations -/

/-- The operands of an operation are operations of the tree. -/
private theorem isSome_get?_of_mem_children {m : Model} {id child : OpId} {shape : Shape}
    (hshape : m.shape? id = some shape) (hmem : child ∈ shape.children) :
    (m.get? child).isSome := by
  obtain ⟨operation, hget, rfl⟩ := Option.map_eq_some_iff.1 hshape
  have hchild : child.index < id.index := Tree.index_lt_of_mem_children hget hmem
  have hsize : id.index < m.tree.operations.size := (Array.getElem?_eq_some_iff.1 hget).1
  have hlt : child.index < m.tree.operations.size := by omega
  rw [get?, Tree.get?, Array.getElem?_eq_getElem hlt, Option.isSome_some]

/-- What an operation reaches is an operation of the tree. -/
theorem Reaches.isSome_get? {m : Model} {id receiver : OpId} (h : m.Reaches id receiver) :
    (m.get? receiver).isSome := by
  cases h with
  | operand hshape hmem => exact isSome_get?_of_mem_children hshape hmem
  | through _ _ hshape hmem => exact isSome_get?_of_mem_children hshape hmem

/-- An access to a property is located at the reference. -/
private theorem location_of_mem_propertyAccesses {m : Model} {id receiver : OpId} {property : Token}
    {access : MemberAccess} (h : access ∈ m.propertyAccesses id property receiver) :
    access.location = id := by
  unfold propertyAccesses at h
  split at h
  · cases h
  · split at h
    · cases h
    · obtain ⟨accessor, -, rfl⟩ := List.mem_map.1 h
      rfl

/-- An access to an event is located at the reference to the event. -/
private theorem location_of_mem_eventAccesses {m : Model} {reference : OpId} {adds : Bool}
    {access : MemberAccess} (h : access ∈ m.eventAccesses reference adds) :
    access.location = reference := by
  unfold eventAccesses at h
  split at h
  · split at h
    · cases h
    · obtain ⟨accessor, -, rfl⟩ := List.mem_map.1 h
      rfl
  · cases h

/-- A value that is turned into text is located where it stands. -/
private theorem location_of_concatenationAccess? {m : Model} {left right : OpId}
    {access : MemberAccess}
    (h : m.concatenationAccess? left right = some access) : access.location = access.receiver := by
  unfold concatenationAccess? at h
  split at h
  · simp only [bind, Option.bind_eq_some_iff] at h
    obtain ⟨object, -, operand, -, type, -, toText, -, haccess⟩ := h
    cases haccess
    rfl
  · cases h

/-- An access by an implicit indexer is located at the indexer. -/
private theorem location_of_mem_indexerAccesses {m : Model} {policy : CopyPolicy}
    {id receiver position : OpId} {indexer length : Token} {access : MemberAccess}
    (h : access ∈ m.indexerAccesses policy id receiver position indexer length) :
    access.location = id := by
  unfold indexerAccesses at h
  split at h
  · cases h
  · obtain ⟨target, -, haccess⟩ := List.mem_filterMap.1 h
    obtain ⟨method, -, rfl⟩ := Option.map_eq_some_iff.1 haccess
    dsimp only
    split
    · split <;> rfl
    · rfl

/-- A value that is pinned is located where it stands. -/
private theorem location_of_pinningAccess? {m : Model} {within : Token} {declarator : OpId}
    {access : MemberAccess} (h : m.pinningAccess? within declarator = some access) :
    access.location = access.receiver := by
  unfold pinningAccess? at h
  split at h
  · split at h
    · obtain ⟨method, -, rfl⟩ := Option.map_eq_some_iff.1 h
      rfl
    · cases h
  · cases h

/-- An access is located at the operation that makes it, at its receiver or, for an event, at the
    reference to the event. -/
private theorem location_of_mem_shapeAccesses {m : Model} {policy : CopyPolicy} {id : OpId}
    {shape : Shape}
    {access : MemberAccess} (h : access ∈ m.shapeAccesses policy id shape) :
    access.location = id ∨ access.location = access.receiver ∨
      access.location ∈ shape.children := by
  unfold shapeAccesses at h
  split at h
  · -- property
    exact .inl (location_of_mem_propertyAccesses h)
  · -- event
    rw [location_of_mem_eventAccesses h]
    exact .inr (.inr (by simp [Shape.children]))
  · -- call
    obtain rfl := List.mem_singleton.1 h
    exact .inl rfl
  · -- loop
    obtain ⟨target, -, rfl⟩ := List.mem_map.1 h
    exact .inr (.inl rfl)
  · -- text and value
    exact .inr (.inl (location_of_concatenationAccess? (Option.mem_toList.1 h)))
  · -- value appended to a text in place
    exact .inr (.inl (location_of_concatenationAccess? (Option.mem_toList.1 h)))
  · -- implicit indexer
    exact .inl (location_of_mem_indexerAccesses h)
  · -- await
    obtain rfl := List.mem_singleton.1 h
    exact .inl rfl
  · -- `fixed` statement
    unfold pinningAccesses at h
    split at h
    · obtain ⟨declarator, -, haccess⟩ := List.mem_filterMap.1 h
      exact .inr (.inl (location_of_pinningAccess? haccess))
    · cases h
  · cases h

/-- The location of an access is an operation of the tree. -/
theorem isSome_get?_location {m : Model} {policy : CopyPolicy} {id : OpId}
    {access : MemberAccess} (h : access ∈ m.memberAccesses policy id) :
    (m.get? access.location).isSome := by
  have hreach := (reaches_of_mem_memberAccesses h).1
  unfold memberAccesses at h
  cases hshape : m.shape? id with
  | none =>
    rw [hshape] at h
    cases h
  | some shape =>
    rw [hshape] at h
    -- A location is the operation itself, a receiver or another operand.
    rcases location_of_mem_shapeAccesses h with hid | hreceiver | hmem
    · obtain ⟨operation, hget, -⟩ := Option.map_eq_some_iff.1 hshape
      rw [hid, hget, Option.isSome_some]
    · rw [hreceiver]
      exact hreach.isSome_get?
    · exact isSome_get?_of_mem_children hshape hmem

/-! ## One access -/

/-- The class of the copy that an access makes, if it makes one outside generated code. -/
def copyClass? (m : Model) (policy : CopyPolicy) (access : MemberAccess) : Option FindingClass :=
  let enclosing := m.enclosingSymbol? access.receiver
  if m.isReadOnlyReference (.of m.symbols enclosing) policy access.receiver &&
      !m.symbols.isInGeneratedCode enclosing then
    (m.writtenType? access).map (m.symbols.classify · access.target)
  else none

/-- A live analysis classifies copies as the plain one. -/
private theorem copyClass_live {m : Model} (h : m.symbols.AnswersGenerated) (policy : CopyPolicy)
    (access : MemberAccess) :
    m.copyClass .live policy access = .ok (m.copyClass? policy access) := by
  have hgenerated := SymbolTable.generated_live h (m.enclosingSymbol? access.receiver)
  rw [copyClass, copyClass?]
  cases m.writtenType? access with
  | none => simp
  | some type =>
    simp only [readOnlyReference_live, hgenerated, bind, Except.bind, pure, Except.pure]
    -- Generated code is asked about only if the storage is read-only; the answer is the same.
    cases m.isReadOnlyReference (.of m.symbols (m.enclosingSymbol? access.receiver)) policy
      access.receiver with
    | false => rfl
    | true => cases m.symbols.isInGeneratedCode (m.enclosingSymbol? access.receiver) <;> rfl

end Model

/-- The finding about an access, if it makes a copy of a class that is reported and its location
    exists. -/
def findingOf? (options : AnalysisOptions) (m : Model) (access : MemberAccess) : Option Finding :=
  ((m.copyClass? options.policy access).filter options.reports).bind fun findingClass =>
    (m.finding access findingClass).toOption

/-- A live analysis of an access whose location is there gives its finding, if there is one. -/
theorem analyzeAccess_live {options : AnalysisOptions} {m : Model} {access : MemberAccess}
    (h : m.symbols.AnswersGenerated) (hlocation : (m.get? access.location).isSome) :
    analyzeAccess options m .live access = .ok (findingOf? options m access) := by
  obtain ⟨operation, hget⟩ := Option.isSome_iff_exists.1 hlocation
  rw [analyzeAccess, Model.copyClass_live h, findingOf?]
  cases m.copyClass? options.policy access with
  | none => rfl
  | some findingClass =>
    simp only [Signal.poll, bind, Except.bind, pure, Except.pure, Model.finding, hget,
      Option.filter_some, Except.toOption]
    cases options.reports findingClass <;> rfl

/-! ## All accesses of an operation -/

/-- Collecting findings without repetition keeps each of them. -/
private theorem mem_foldl_collect {found findings : List Finding} {finding : Finding} :
    finding ∈ found.foldl (fun findings finding =>
      if finding ∈ findings then findings else findings ++ [finding]) findings ↔
        finding ∈ findings ∨ finding ∈ found := by
  induction found generalizing findings with
  | nil => simp
  | cons first rest ih =>
    rw [List.foldl_cons, ih, List.mem_cons]
    split
    · -- A finding that is there already is not collected again, and nothing is lost.
      next hmem =>
      constructor
      · rintro (hold | hrest)
        · exact .inl hold
        · exact .inr (.inr hrest)
      · rintro (hold | rfl | hrest)
        · exact .inl hold
        · exact .inl hmem
        · exact .inr hrest
    · rw [List.mem_append, List.mem_singleton, or_assoc]

/-- The findings of an operation are those of its accesses, each one once. -/
theorem analyzeOperation_live {m : Model} (h : m.symbols.AnswersGenerated)
    (options : AnalysisOptions) (id : OpId) :
    analyzeOperation options m .live id =
      .ok (((m.memberAccesses options.policy id).filterMap (findingOf? options m)).foldl
        (fun findings finding => if finding ∈ findings then findings else findings ++ [finding])
        []) := by
  -- Every location is there, so each access has its answer and none complains.
  have hanswers : (m.memberAccesses options.policy id).mapM (analyzeAccess options m .live) =
      .ok ((m.memberAccesses options.policy id).map (findingOf? options m)) :=
    mapM_eq_ok_of_forall fun access hmem =>
      analyzeAccess_live h (Model.isSome_get?_location hmem)
  rw [analyzeOperation, Model.accesses_live]
  simp only [bind, Except.bind, hanswers, pure, Except.pure, List.filterMap_map]
  rfl

/-- An operation has an answer, and its findings are those of its accesses. -/
theorem exists_analyzeOperation {m : Model} (h : m.symbols.AnswersGenerated)
    (options : AnalysisOptions) (id : OpId) :
    ∃ findings, analyzeOperation options m .live id = .ok findings ∧
      ∀ finding, finding ∈ findings ↔
        ∃ access ∈ m.memberAccesses options.policy id,
          findingOf? options m access = some finding := by
  refine ⟨_, analyzeOperation_live h options id, fun finding => ?_⟩
  rw [mem_foldl_collect, List.mem_filterMap]
  simp

end DefensiveCopy
