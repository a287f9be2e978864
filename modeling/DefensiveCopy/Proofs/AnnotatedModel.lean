import DefensiveCopy.Proofs.Annotation
import DefensiveCopy.Proofs.LiveAnalysis

/-!
# Read-only annotations never add findings

The analysis asks for read-only annotations in three places.  It skips members that are read-only
and receivers of a read-only type, it classifies copies by them, and the context of a member tells
from them whether `this` may be written.  The first two only take findings away or make a copy
unnecessary when annotations are added.  The third works the other way, and so does the choice
between the indexer and the length of an implicit indexer; as long as no context changes, every
finding of any other operation was there before.

## Key results

- `Model.memberAccesses_annotate`: the accesses stay the same, implicit indexers apart
- `Model.isReadOnlyReference_annotate`: in a given context the same storage is read-only
- `Model.writtenType?_of_annotate`: an access that may still write may have written before
- `analyzeOperation_annotate`: every finding has a counterpart without the annotations
-/

namespace DefensiveCopy

namespace Model

/-- The model with the marked types and methods declared read-only too. -/
def annotate (m : Model) (marks : Token → Bool) : Model :=
  { m with symbols := m.symbols.annotate marks }

variable (m : Model) (marks : Token → Bool)

@[simp] theorem symbols_annotate : (m.annotate marks).symbols = m.symbols.annotate marks := rfl

@[simp] theorem tree_annotate : (m.annotate marks).tree = m.tree := rfl

@[simp] theorem get?_annotate (id : OpId) : (m.annotate marks).get? id = m.get? id := rfl

@[simp] theorem shape?_annotate (id : OpId) : (m.annotate marks).shape? id = m.shape? id := rfl

@[simp] theorem typeOf?_annotate (id : OpId) : (m.annotate marks).typeOf? id = m.typeOf? id := rfl

@[simp] theorem enclosingSymbol?_annotate (id : OpId) :
    (m.annotate marks).enclosingSymbol? id = m.enclosingSymbol? id := rfl

/-! ## Uses of values -/

/-- The site of use of an operation is found without annotations. -/
private theorem usageSite_annotate (id : OpId) :
    (m.annotate marks).usageSite id = m.usageSite id := by
  -- The walk goes up the parents, as the list of the ancestors does.
  fun_induction Tree.ancestors m.tree id with
  | case1 id hroot =>
    rw [m.usageSite_of_root hroot]
    exact (m.annotate marks).usageSite_of_root hroot
  | case2 id parent hparent ih =>
    have hannotated := (m.annotate marks).usageSite_of_parent hparent
    rw [hannotated, m.usageSite_of_parent hparent, ih]
    rfl

/-- Whether an operation is deconstructed into is told without annotations. -/
private theorem isDeconstructed_annotate (id : OpId) :
    (m.annotate marks).isDeconstructed id = m.isDeconstructed id := by
  fun_induction Tree.ancestors m.tree id with
  | case1 id hroot =>
    rw [m.isDeconstructed_of_root hroot]
    exact (m.annotate marks).isDeconstructed_of_root hroot
  | case2 id parent hparent ih =>
    have hannotated := (m.annotate marks).isDeconstructed_of_parent hparent
    rw [hannotated, m.isDeconstructed_of_parent hparent, ih]
    rfl

/-- What a parent does with its operand is told without annotations. -/
private theorem usageBy_annotate (id parent : OpId) (shape : Shape) :
    (m.annotate marks).usageBy id parent shape = m.usageBy id parent shape := by
  -- A returned value is used as its method says, and the method keeps how it returns.
  have hreturned : (((m.annotate marks).enclosingSymbol? parent).bind
      (m.annotate marks).symbols.method?).map (·.refKind) =
        ((m.enclosingSymbol? parent).bind m.symbols.method?).map (·.refKind) := by
    simp [Option.map_bind, Function.comp_def]
  simp only [usageBy, hreturned, isDeconstructed_annotate]
  rfl

/-- The use of a value is told without annotations. -/
@[simp] theorem valueUsage_annotate (id : OpId) :
    (m.annotate marks).valueUsage id = m.valueUsage id := by
  simp only [valueUsage, directUsage, usageSite_annotate, usageBy_annotate, tree_annotate,
    shape?_annotate]

/-! ## Storage -/

/-- Whether an operation stands for read-only storage is seen from its origin. -/
private theorem isReadOnlyReference_of_get? {id : OpId} {operation : Operation}
    (hget : m.get? id = some operation) (context : MemberContext) (policy : CopyPolicy) :
    m.isReadOnlyReference context policy id =
      match m.origin context policy id operation.shape with
      | .storage isReadOnly => isReadOnly
      | .through operands => operands.any (m.isReadOnlyReference context policy) := by
  rw [isReadOnlyReference]
  split
  · next hnone => cases hget.symm.trans hnone
  · next found hfound =>
    cases hget.symm.trans hfound
    split
    · next horigin => rw [horigin]
    · next operands horigin =>
      rw [horigin]
      -- The recursion runs over the operands with their membership attached.
      simp

/-- In a given context, the storage behind a field is found without annotations. -/
private theorem fieldOrigin_annotate (context : MemberContext) (field : Token)
    (receiver : Option OpId) :
    (m.annotate marks).fieldOrigin context field receiver =
      m.fieldOrigin context field receiver := by
  have hreference : (m.annotate marks).symbols.isReferenceType = m.symbols.isReferenceType :=
    funext (m.symbols.isReferenceType_annotate marks)
  simp only [fieldOrigin, hreference]
  rfl

/-- In a given context, whether a parameter may be written is told without annotations. -/
private theorem isReadOnlyParameter_annotate (context : MemberContext) (id : OpId)
    (parameter : Token) :
    (m.annotate marks).isReadOnlyParameter context id parameter =
      m.isReadOnlyParameter context id parameter := by
  have hcaptured : ∀ symbol,
      (m.annotate marks).isCapturedByStruct symbol = m.isCapturedByStruct symbol := by
    intro symbol
    simp [isCapturedByStruct, Option.any_bind, Option.any_map, Function.comp_def]
  simp only [isReadOnlyParameter, hcaptured]
  rfl

/-- Whether an indexer returns a read-only reference is told without annotations. -/
private theorem isReadOnlyIndexer_annotate (indexer : Token) :
    (m.annotate marks).isReadOnlyIndexer indexer = m.isReadOnlyIndexer indexer := by
  unfold isReadOnlyIndexer
  split
  · simp [Option.any_map]
  · rfl
  · rfl

/-- In a given context, the storage behind an operation is found without annotations. -/
private theorem origin_annotate (context : MemberContext) (policy : CopyPolicy) (id : OpId)
    (shape : Shape) :
    (m.annotate marks).origin context policy id shape = m.origin context policy id shape := by
  -- Only the five shapes whose storage depends on a symbol need an argument.
  cases shape with
  | invocation method receiver arguments => simp [origin, Option.any_map]
  | parameterReference parameter => simp only [origin, isReadOnlyParameter_annotate]
  | fieldReference field receiver => exact m.fieldOrigin_annotate marks context field receiver
  | inlineArrayAccess receiver index => simp [origin, hasWellKnownType]
  | implicitIndexer receiver position indexer length =>
    simp only [origin, isReadOnlyIndexer_annotate]
  | instanceReference kind => cases kind <;> rfl
  | _ => rfl

/-- In a given context, annotations of types and methods do not tell which storage may be
    written. -/
theorem isReadOnlyReference_annotate (context : MemberContext) (policy : CopyPolicy) (id : OpId) :
    (m.annotate marks).isReadOnlyReference context policy id =
      m.isReadOnlyReference context policy id := by
  -- The induction follows the descent into operands, which is the same in both models.
  fun_induction isReadOnlyReference m context policy id with
  | case1 id hnone =>
    rw [isReadOnlyReference]
    split
    · rfl
    · next hget => cases hnone.symm.trans hget
  | case2 id operation hget isReadOnly horigin =>
    have hannotated := (m.annotate marks).isReadOnlyReference_of_get? hget context policy
    rw [hannotated, origin_annotate, horigin]
  | case3 id operation hget operands horigin ih =>
    have hannotated := (m.annotate marks).isReadOnlyReference_of_get? hget context policy
    rw [hannotated, origin_annotate, horigin]
    simp only [← ih]
    simp

/-! ## Accesses -/

/-- The accessors that a property reference calls are chosen without annotations. -/
private theorem propertyAccesses_annotate (id : OpId) (property : Token) (receiver : OpId) :
    (m.annotate marks).propertyAccesses id property receiver =
      m.propertyAccesses id property receiver := by
  simp only [propertyAccesses, valueUsage_annotate]
  rfl

/-- The `ToString` member that a concatenation calls is chosen without annotations. -/
private theorem concatenationAccess?_annotate (left right : OpId) :
    (m.annotate marks).concatenationAccess? left right = m.concatenationAccess? left right := by
  have hspecial : ∀ id, (m.annotate marks).specialOf? id = m.specialOf? id := by
    intro id
    simp [specialOf?, Option.map_bind, Function.comp_def]
  have htext : ∀ object, (m.annotate marks).objectToText? object = m.objectToText? object := by
    intro object
    simp [objectToText?, SymbolTable.methodsNamed_annotate, List.find?_map, Function.comp_def,
      SymbolTable.annotatedEntry, Option.any_bind, Option.any_map]
  simp only [concatenationAccess?, hspecial, htext, symbols_annotate,
    SymbolTable.overrideFor?_annotate]
  rfl

/-- The member that a value is pinned through is chosen without annotations. -/
private theorem pinnedThrough?_annotate (within pointee : Token) (value : OpId) :
    (m.annotate marks).pinnedThrough? within pointee value =
      m.pinnedThrough? within pointee value := by
  -- Only the return type of the method and the special kind of the pointee are read.
  have hmethod : ∀ method, ((m.symbols.annotate marks).method? method).any
      (·.returnType == some pointee) =
        (m.symbols.method? method).any (·.returnType == some pointee) := by
    intro method
    simp [Option.any_map]
  have htype : ((m.symbols.annotate marks).type? pointee).any (·.special == .void) =
      (m.symbols.type? pointee).any (·.special == .void) := by
    simp [Option.any_map]
  simp only [pinnedThrough?, symbols_annotate, typeOf?_annotate, hmethod, htype,
    SymbolTable.isReferenceType_annotate, SymbolTable.pinnable?_annotate]
  rfl

/-- The members that a fixed statement calls are chosen without annotations. -/
private theorem pinningAccesses_annotate (id : OpId) (declarators : List OpId) :
    (m.annotate marks).pinningAccesses id declarators = m.pinningAccesses id declarators := by
  have hwithin : (m.annotate marks).enclosingType? id = m.enclosingType? id := by
    simp [enclosingType?]
  have haccess : (m.annotate marks).pinningAccess? = m.pinningAccess? := by
    funext within declarator
    simp only [pinningAccess?, symbols_annotate, shape?_annotate,
      SymbolTable.pointeeOf?_annotate, pinnedThrough?_annotate]
  simp only [pinningAccesses, hwithin, haccess]

/-- The accesses of an operation stay the same, unless it is an implicit indexer. -/
theorem memberAccesses_annotate {id : OpId}
    (hshape : ∀ receiver position indexer length,
      m.shape? id ≠ some (.implicitIndexer receiver position indexer length))
    (policy : CopyPolicy) :
    (m.annotate marks).memberAccesses policy id = m.memberAccesses policy id := by
  rw [memberAccesses, shape?_annotate, memberAccesses]
  cases hid : m.shape? id with
  | none => rfl
  | some shape =>
    rw [Option.map_some, Option.getD_some, Option.map_some, Option.getD_some]
    -- One case for each shape with accesses; the implicit indexer is the excluded one.
    unfold shapeAccesses
    split
    · exact m.propertyAccesses_annotate marks _ _ _
    · rfl
    · rfl
    · rfl
    · rw [concatenationAccess?_annotate]
    · rw [concatenationAccess?_annotate]
    · exact absurd hid (hshape _ _ _ _)
    · rfl
    · exact m.pinningAccesses_annotate marks _ _
    · rfl

/-! ## Copies -/

/-- A member that may write may have written before it was annotated. -/
private theorem mayWrite_of_annotate {access : MemberAccess} {target : MethodSymbol} {adds : Bool}
    (h : (m.annotate marks).mayWrite access (target.annotated adds)) :
    m.mayWrite access target := by
  rw [mayWrite, Bool.and_eq_true, Bool.or_eq_true] at h ⊢
  refine ⟨h.1.imp_right fun hwrites => ?_, h.2⟩
  -- A member that was read-only still is, so it could not write now either.
  cases hreadOnly : m.symbols.isMethodReadOnly target with
  | false => rfl
  | true =>
    rw [symbols_annotate, m.symbols.isMethodReadOnly_annotate marks adds hreadOnly] at hwrites
    cases hwrites

/-- A value that the member may write to may have been written before it was annotated. -/
private theorem isWritableValue_of_annotate {access : MemberAccess} {target : MethodSymbol}
    {adds : Bool}
    {type : Token} (h : (m.annotate marks).isWritableValue access (target.annotated adds) type) :
    m.isWritableValue access target type := by
  simp only [isWritableValue, symbols_annotate, SymbolTable.isValueType_annotate,
    SymbolTable.isTypeParameter_annotate, SymbolTable.isReferenceType_annotate,
    SymbolTable.isOnUniversalBase_annotate] at h ⊢
  -- A type that was read-only still is, so the same question was asked before.
  cases hreadOnly : m.symbols.isTypeReadOnly type with
  | false =>
    rw [Bool.and_eq_true] at h ⊢
    exact ⟨h.1, by simp⟩
  | true =>
    rw [m.symbols.isTypeReadOnly_annotate marks hreadOnly] at h
    exact h

/-- An access that may write to a value may have written to it before the annotations. -/
theorem writtenType?_of_annotate {access : MemberAccess} {type : Token}
    (h : (m.annotate marks).writtenType? access = some type) :
    m.writtenType? access = some type := by
  simp only [writtenType?, symbols_annotate, SymbolTable.method?_annotate, typeOf?_annotate, bind,
    Option.bind_eq_some_iff, Option.map_eq_some_iff] at h ⊢
  obtain ⟨annotated, ⟨target, htarget, rfl⟩, found, hfound, h⟩ := h
  refine ⟨target, htarget, found, hfound, ?_⟩
  split at h
  · next hwrites =>
    rw [Bool.and_eq_true] at hwrites
    rw [m.mayWrite_of_annotate marks hwrites.1, m.isWritableValue_of_annotate marks hwrites.2]
    exact h
  · cases h

/-- If annotations leave the context of the receiver as it is, an access that makes a copy made one
    before, and the class is the same or the copy has become unnecessary. -/
theorem copyClass?_of_annotate {policy : CopyPolicy} {access : MemberAccess}
    {findingClass : FindingClass}
    (hcontext : MemberContext.of (m.annotate marks).symbols (m.enclosingSymbol? access.receiver) =
      MemberContext.of m.symbols (m.enclosingSymbol? access.receiver))
    (h : (m.annotate marks).copyClass? policy access = some findingClass) :
    ∃ before, m.copyClass? policy access = some before ∧
      (before = findingClass ∨ before = .necessary ∧ findingClass = .unnecessary) := by
  -- Neither what is generated nor what is read-only storage depends on the marks.
  have hgenerated : (m.annotate marks).symbols.isInGeneratedCode
      (m.enclosingSymbol? access.receiver) =
        m.symbols.isInGeneratedCode (m.enclosingSymbol? access.receiver) := by
    simp [SymbolTable.isInGeneratedCode]
  rw [copyClass?, enclosingSymbol?_annotate, hcontext, isReadOnlyReference_annotate,
    hgenerated] at h
  rw [copyClass?]
  split at h
  · next hcopied =>
    rw [if_pos hcopied]
    obtain ⟨type, htype, rfl⟩ := Option.map_eq_some_iff.1 h
    rw [m.writtenType?_of_annotate marks htype, Option.map_some]
    -- The class of the same type and target only moves towards unnecessary.
    exact ⟨_, rfl, m.symbols.classify_annotate marks type access.target⟩
  · cases h

/-! ## Findings -/

/-- A receiver is named without annotations. -/
private theorem receiverName_annotate (id : OpId) :
    (m.annotate marks).receiverName id = m.receiverName id := by
  have hname : (m.annotate marks).shapeName = m.shapeName := by
    funext shape
    simp only [shapeName, symbolName, symbols_annotate, SymbolTable.nameOf?_annotate]
    rfl
  rw [receiverName, hname, shape?_annotate, receiverName]

/-- What a finding says about an access does not depend on annotations, its class given. -/
private theorem finding_annotate (access : MemberAccess) (findingClass : FindingClass) :
    (m.annotate marks).finding access findingClass = m.finding access findingClass := by
  have hmember : (m.annotate marks).memberName access = m.memberName access := by
    simp [memberName, Function.comp_def]
  simp only [finding, hmember, receiverName_annotate]
  rfl

end Model

/-- A finding of another class about the same access differs by its class only. -/
private theorem Model.finding_withClass {m : Model} {access : MemberAccess}
    {findingClass : FindingClass}
    {finding : Finding} (h : m.finding access findingClass = .ok finding) (other : FindingClass) :
    finding.findingClass = findingClass ∧
      m.finding access other = .ok { finding with findingClass := other } := by
  unfold Model.finding at h ⊢
  cases hlocation : m.get? access.location with
  | none =>
    rw [hlocation] at h
    cases h
  -- The class is the only part of a finding that is not read off the access.
  | some operation =>
    rw [hlocation] at h
    cases h
    exact ⟨rfl, rfl⟩

/-- A finding is what it was, or its copy was necessary and has become unnecessary. -/
def Finding.Relaxes (finding before : Finding) : Prop :=
  before.location = finding.location ∧ before.member = finding.member ∧
    before.receiver = finding.receiver ∧
      (before.findingClass = finding.findingClass ∨
        before.findingClass = .necessary ∧ finding.findingClass = .unnecessary)

/-- If both classes are reported, an access with a copy has a finding. -/
private theorem findingOf?_eq_some_iff {options : AnalysisOptions} {m : Model}
    {access : MemberAccess}
    {finding : Finding} (hreports : ∀ findingClass, options.reports findingClass) :
    findingOf? options m access = some finding ↔
      ∃ findingClass, m.copyClass? options.policy access = some findingClass ∧
        m.finding access findingClass = .ok finding := by
  have htoOption : ∀ findingClass, (m.finding access findingClass).toOption = some finding ↔
      m.finding access findingClass = .ok finding := by
    intro findingClass
    cases m.finding access findingClass <;> simp [Except.toOption]
  simp only [findingOf?, Option.bind_eq_some_iff, Option.filter_eq_some_iff, hreports, and_true,
    htoOption]

/-- If both classes are reported and no context changes, every finding about an access was there
    before the annotations. -/
theorem findingOf?_of_annotate {options : AnalysisOptions} {m : Model} {marks : Token → Bool}
    {access : MemberAccess} {finding : Finding}
    (hreports : ∀ findingClass, options.reports findingClass)
    (hcontext : MemberContext.of (m.annotate marks).symbols (m.enclosingSymbol? access.receiver) =
      MemberContext.of m.symbols (m.enclosingSymbol? access.receiver))
    (h : findingOf? options (m.annotate marks) access = some finding) :
    ∃ before, findingOf? options m access = some before ∧ finding.Relaxes before := by
  rw [findingOf?_eq_some_iff hreports] at h
  obtain ⟨findingClass, hclass, hfinding⟩ := h
  obtain ⟨before, hbefore, hrelation⟩ := m.copyClass?_of_annotate marks hcontext hclass
  rw [Model.finding_annotate] at hfinding
  obtain ⟨rfl, hother⟩ := Model.finding_withClass hfinding before
  exact ⟨_, (findingOf?_eq_some_iff hreports).2 ⟨before, hbefore, hother⟩, rfl, rfl, rfl, hrelation⟩

/-- Adding read-only annotations never adds findings.  Let both classes be reported, let the
    operation be no implicit indexer, and let the context of every receiver be the same with and
    without the annotations.  Then both analyses have an answer, and every finding with the
    annotations has a counterpart without them: it is the same, or its copy was necessary and has
    become unnecessary.  No copy of any kind becomes necessary. -/
theorem analyzeOperation_annotate {options : AnalysisOptions} {m : Model} {marks : Token → Bool}
    {id : OpId} (hreachable : m.symbols.Reachable)
    (hreports : ∀ findingClass, options.reports findingClass)
    (hshape : ∀ receiver position indexer length,
      m.shape? id ≠ some (.implicitIndexer receiver position indexer length))
    (hcontext : ∀ access ∈ m.memberAccesses options.policy id,
      MemberContext.of (m.annotate marks).symbols (m.enclosingSymbol? access.receiver) =
        MemberContext.of m.symbols (m.enclosingSymbol? access.receiver)) :
    (∃ before after, analyzeOperation options m .live id = .ok before ∧
      analyzeOperation options (m.annotate marks) .live id = .ok after ∧
        ∀ finding ∈ after, ∃ counterpart ∈ before, finding.Relaxes counterpart) ∧
    ∀ type target, m.symbols.classify type target = .unnecessary →
      (m.annotate marks).symbols.classify type target = .unnecessary := by
  have hanswers : m.symbols.AnswersGenerated :=
    (SymbolTable.intact_of_reachable hreachable).isSome_isGenerated?
  -- Generated code is recognised without annotations, so the second analysis answers too.
  have hannotated : (m.annotate marks).symbols.AnswersGenerated := by
    intro token
    rw [Model.symbols_annotate, SymbolTable.isGenerated?_annotate]
    exact hanswers token
  obtain ⟨before, hbefore, hmem⟩ := exists_analyzeOperation hanswers options id
  obtain ⟨after, hafter, hmemAfter⟩ := exists_analyzeOperation hannotated options id
  refine ⟨⟨before, after, hbefore, hafter, fun finding hfinding => ?_⟩, fun type target => ?_⟩
  · obtain ⟨access, haccess, hfound⟩ := (hmemAfter finding).1 hfinding
    rw [m.memberAccesses_annotate marks hshape] at haccess
    obtain ⟨counterpart, hcounterpart, hrelaxes⟩ :=
      findingOf?_of_annotate hreports (hcontext access haccess) hfound
    exact ⟨counterpart, (hmem counterpart).2 ⟨access, haccess, hcounterpart⟩, hrelaxes⟩
  · exact m.symbols.classify_annotate_of_unnecessary marks

/-- An object type and a struct that replaces its `ToString` member, a method around the code, and a
    local variable that refers to such a struct and may only be read. -/
def angleCalls : List RegistrationCall :=
  [.addType { name := "Object", namespaceName := "System", kind := .classType, special := .object },
   .addType { name := "Angle", kind := .structType, base := some (.ofParts .type 1) },
   .addMethod { name := "ToString", containingType := some (.ofParts .type 1) },
   .addMethod { name := "ToString", containingType := some (.ofParts .type 2),
                overridden := some (.ofParts .method 1) },
   .addMethod { name := "Show" },
   .addSlot { name := "angle", refKind := .byRefReadOnly, type := some (.ofParts .type 2) }]

/-- The method asks the variable for its text. -/
def angleScript : List ScriptItem :=
  [.member true (.ofParts .method 3)
    [.add true (.slot (.ofParts .slot 1)),
     .add true (.call (.ofParts .method 1) (some ⟨0⟩) [])]]

/-- The symbols and operations of the example. -/
def angleModel : Model where
  symbols := RegistrationCall.runAll angleCalls {}
  tree := (ScriptItem.runAll angleScript
    (Builder.new (RegistrationCall.runAll angleCalls {}) "Angle")).2.2.toTree

/-- The struct is declared read-only. -/
def angleMarks (token : Token) : Bool := token == .ofParts .type 2

/-- The copy of the struct was necessary, and is found as an unnecessary one when the struct is
    declared read-only. -/
theorem analyzeOperation_annotate_angle :
    angleModel.symbols.Reachable ∧
    (∃ before after, analyzeOperation {} angleModel .live ⟨1⟩ = .ok before ∧
      analyzeOperation {} (angleModel.annotate angleMarks) .live ⟨1⟩ = .ok after ∧
        ∀ finding ∈ after, ∃ counterpart ∈ before, finding.Relaxes counterpart) ∧
    (analyzeOperation {} angleModel .live ⟨1⟩).toOption.map (·.map (·.findingClass)) =
      some [.necessary] ∧
    (analyzeOperation {} (angleModel.annotate angleMarks) .live ⟨1⟩).toOption.map
      (·.map (·.findingClass)) = some [.unnecessary] := by
  have hfresh : ∀ call ∈ angleCalls, call.IsFresh := by
    simp [angleCalls, RegistrationCall.IsFresh]
  have hreachable : angleModel.symbols.Reachable := SymbolTable.Reachable.empty.runAll hfresh
  have hid : angleModel.shape? ⟨1⟩ = some (.invocation (.ofParts .method 1) (some ⟨0⟩) []) := rfl
  have hshape : ∀ receiver position indexer length,
      angleModel.shape? ⟨1⟩ ≠ some (.implicitIndexer receiver position indexer length) := by
    intro receiver position indexer length h
    cases hid.symm.trans h
  have hcontext : ∀ access ∈ angleModel.memberAccesses (AnalysisOptions.policy {}) ⟨1⟩,
      MemberContext.of (angleModel.annotate angleMarks).symbols
        (angleModel.enclosingSymbol? access.receiver) =
          MemberContext.of angleModel.symbols (angleModel.enclosingSymbol? access.receiver) := by
    decide
  have hannotate := analyzeOperation_annotate hreachable (fun _ => rfl) hshape hcontext
  exact ⟨hreachable, hannotate.1, by decide +kernel, by decide +kernel⟩

end DefensiveCopy
