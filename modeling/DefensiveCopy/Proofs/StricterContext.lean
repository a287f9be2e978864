import DefensiveCopy.Operation.Script
import DefensiveCopy.Proofs.StorageDescent

/-!
# Storage in a stricter context

Storage that code may only read where it is allowed much, it may only read where it is allowed less.
A context is as strict as another one (`MemberContext.IsAsStrictAs`) if `this` is read-only wherever
it was, `this` may be written only where it might be before, and no other type is being initialized.
A policy is as strict as another one if it takes no further slices for free of copies.

Each of these is asked for in a few shapes only, in some of them for being so and in others for not
being so.  The roots depend on the context and not on the policy, the steps on the policy and not on
the context, so the two are compared apart.

## Key results

- `Model.IsReadOnlyRoot.of_isAsStrictAs`: a read-only root is one in every stricter context
- `Model.Descends.of_isAsStrictAs`: a step is one under every stricter policy
- `Model.readOnlyReference_of_isAsStrictAs`: what the search answers in a stricter context
-/

namespace DefensiveCopy

/-- Code in the stricter context may do nothing that it may not do in the other one. -/
structure MemberContext.IsAsStrictAs (stricter context : MemberContext) : Prop where
  /-- Where `this` may only be read, it still may only be read. -/
  readOnlyMember : context.isReadOnlyMember = true → stricter.isReadOnlyMember = true
  /-- Where fields of `this` may be written, they might be written before. -/
  mutatingThis : stricter.allowsMutatingThis = true → context.allowsMutatingThis = true
  /-- No type is being initialized, or the same one is. -/
  staticInitializer : stricter.staticInitializerType = none ∨
    stricter.staticInitializerType = context.staticInitializerType

/-- Instances that are not being initialized in a context are not in a stricter one. -/
private theorem MemberContext.IsAsStrictAs.not_mutatingThis {stricter context : MemberContext}
    (h : stricter.IsAsStrictAs context) (hthis : context.allowsMutatingThis = false) :
    stricter.allowsMutatingThis = false := by
  rw [Bool.eq_false_iff] at hthis ⊢
  exact fun hallows => hthis (h.mutatingThis hallows)

/-- Slices that the stricter policy takes for free of copies, the other one does. -/
def CopyPolicy.IsAsStrictAs (stricter policy : CopyPolicy) : Prop :=
  stricter.rangeIsCopyFree = true → policy.rangeIsCopyFree = true

namespace Model

variable {m : Model} {context stricter : MemberContext} {policy wary : CopyPolicy} {id next : OpId}

/-- What is a read-only root is one in every stricter context. -/
theorem IsReadOnlyRoot.of_isAsStrictAs (hcontext : stricter.IsAsStrictAs context)
    (h : m.IsReadOnlyRoot context id) : m.IsReadOnlyRoot stricter id := by
  cases h with
  | invocation hshape hmethod href => exact .invocation hshape hmethod href
  | property hshape hproperty href => exact .property hshape hproperty href
  | indexerMethod hshape hmethod href => exact .indexerMethod hshape hmethod href
  | indexerProperty hshape hproperty href => exact .indexerProperty hshape hproperty href
  | slot hshape hslot href => exact .slot hshape hslot href
  | parameter hshape hparameter hkind => exact .parameter hshape hparameter hkind
  -- Only captured parameters, fields and `this` depend on the context.
  | captured hshape hparameter href hprimary hmethod howner hdeclaring htype hstruct hmember hthis
      hinitializer =>
    exact .captured hshape hparameter href hprimary hmethod howner hdeclaring htype hstruct
      (hcontext.readOnlyMember hmember) (hcontext.not_mutatingThis hthis) hinitializer
  | refField hshape hfield href => exact .refField hshape hfield href
  | staticField hshape hfield href hreadOnly hstatic hinitializer =>
    refine .staticField hshape hfield href hreadOnly hstatic ?_
    -- No type is being initialized any more, or it is the one that does not declare the field.
    rcases hcontext.staticInitializer with hnone | hsame
    · exact .inl hnone
    · rw [hsame]
      exact hinitializer
  | instanceField hshape hfield href hreadOnly hinstance hinitializer =>
    exact .instanceField hshape hfield href hreadOnly hinstance
      (hinitializer.imp_left hcontext.not_mutatingThis)
  | this hshape hmember => exact .this hshape (hcontext.readOnlyMember hmember)

/-- What is a step is one under every stricter policy: there are fewer slices that are storage of
    their own. -/
theorem Descends.of_isAsStrictAs (hpolicy : wary.IsAsStrictAs policy)
    (h : m.Descends policy id next) : m.Descends wary id next := by
  cases h with
  | assignment hshape => exact .assignment hshape
  | field hshape hfield hwritable href hrefReadOnly hvalue =>
    exact .field hshape hfield hwritable href hrefReadOnly hvalue
  | whenTrue hshape => exact .whenTrue hshape
  | whenFalse hshape => exact .whenFalse hshape
  | element hshape hslice =>
    -- A slice that the stricter policy takes for free, the other one takes for free as well.
    exact .element hshape fun ⟨hfree, htype⟩ => hslice ⟨hpolicy hfree, htype⟩

/-- A way to a read-only root stays one, step by step. -/
theorem LeadsToReadOnlyRoot.of_isAsStrictAs (hcontext : stricter.IsAsStrictAs context)
    (hpolicy : wary.IsAsStrictAs policy) (h : m.LeadsToReadOnlyRoot context policy id) :
    m.LeadsToReadOnlyRoot stricter wary id := by
  obtain ⟨root, hway, hroot⟩ := h
  have hsteps : ∀ upper lower, m.Descends policy upper lower → m.Descends wary upper lower :=
    fun _ _ hstep => hstep.of_isAsStrictAs hpolicy
  exact ⟨root, Relation.ReflTransGen.mono hsteps _ _ hway, hroot.of_isAsStrictAs hcontext⟩

/-- If a receiver is found to be read-only, it is found to be read-only in every stricter context
    and under every stricter policy as well. -/
theorem readOnlyReference_of_isAsStrictAs (m : Model) (hcontext : stricter.IsAsStrictAs context)
    (hpolicy : wary.IsAsStrictAs policy) (receiver : OpId)
    (h : m.readOnlyReference .live context policy receiver = .ok true) :
    m.readOnlyReference .live stricter wary receiver = .ok true := by
  -- Both searches answer, and the answers are about ways to a root.
  rw [readOnlyReference_live, Except.ok.injEq, isReadOnlyReference_iff] at h ⊢
  exact h.of_isAsStrictAs hcontext hpolicy

end Model

/-- Three types, the last of them the type of ranges, and a read-only static field of the second. -/
def sharedTable : SymbolTable where
  types := #[{ name := "Shape", kind := .structType }, { name := "Cache", kind := .classType },
    { name := "Range", namespaceName := "System", kind := .structType }]
  fields := #[{ name := "Shared", modifiers := { isReadOnly := true, isStatic := true },
                containingType := some (.ofParts .type 2) }]

/-- A reference to `this` or to the static field, and a slice of it. -/
def sharedScript : List ScriptItem :=
  [.add true (.this (.ofParts .type 1)),
   .add true (.field (.ofParts .field 1) none),
   .add true (.literal none),
   .add true (.refConditional ⟨2⟩ ⟨0⟩ ⟨1⟩),
   .add true (.literal (some (.ofParts .type 3))),
   .add true (.operation (.inlineArrayAccess ⟨3⟩ ⟨4⟩) none false)]

/-- The symbols and operations of the example. -/
def sharedModel : Model where
  symbols := sharedTable
  tree := (Tree.ofScript sharedTable "Shared" sharedScript).2

/-- Inside a constructor, while static fields of the first type are being initialized. -/
def initializerContext : MemberContext where
  allowsMutatingThis := true
  staticInitializerType := some (.ofParts .type 1)

/-- Inside a read-only member. -/
def readerContext : MemberContext where
  isReadOnlyMember := true

/-- In the initializer the reference may only be read because of the field of another type, and in
    the reader it still may only be read.  The slice counts only where it is not taken for free of
    copies. -/
theorem readOnlyReference_shared :
    sharedModel.readOnlyReference .live initializerContext {} ⟨3⟩ = .ok true ∧
    sharedModel.readOnlyReference .live readerContext { rangeIsCopyFree := false } ⟨3⟩ =
      .ok true ∧
    sharedModel.readOnlyReference .live initializerContext {} ⟨0⟩ = .ok false ∧
    sharedModel.readOnlyReference .live readerContext {} ⟨5⟩ = .ok false ∧
    sharedModel.readOnlyReference .live readerContext { rangeIsCopyFree := false } ⟨5⟩ =
      .ok true := by
  have hlenient : sharedModel.readOnlyReference .live initializerContext {} ⟨3⟩ = .ok true := by
    rw [sharedModel.readOnlyReference_live]
    exact congrArg Except.ok (by decide +kernel)
  -- In the reader no type is being initialized, so it is as strict as can be.
  have hcontext : readerContext.IsAsStrictAs initializerContext :=
    ⟨by decide, by decide, .inl rfl⟩
  have hpolicy : CopyPolicy.IsAsStrictAs { rangeIsCopyFree := false } {} := by
    simp [CopyPolicy.IsAsStrictAs]
  have hstrict := sharedModel.readOnlyReference_of_isAsStrictAs hcontext hpolicy ⟨3⟩ hlenient
  refine ⟨hlenient, hstrict, ?_, ?_, ?_⟩
  all_goals
    rw [sharedModel.readOnlyReference_live]
    exact congrArg Except.ok (by decide +kernel)

end DefensiveCopy
