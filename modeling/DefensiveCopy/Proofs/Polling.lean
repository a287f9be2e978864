import DefensiveCopy.Analysis.Signal

/-!
# Searches that are not called off

A search asks its signal at every step.  While the signal is live this changes nothing: the search
gives the answer of the same search without questions, which is a plain function of the symbols and
operations.

## Key results

- `SymbolTable.generated_some_live`: the walk through the containers of a symbol
- `SymbolTable.pinningMethod_live`: the search through the constraints of a type parameter
- `Model.readOnlyReference_live`: the way to the storage of a receiver
- `Model.accesses_live`: the member accesses of an operation
-/

namespace DefensiveCopy

/-- If every item of a list has an answer, the list of the answers is found. -/
theorem mapM_eq_ok_of_forall {α β ε : Type} {items : List α} {ask : α → Except ε β}
    {answer : α → β} (h : ∀ item ∈ items, ask item = .ok (answer item)) :
    items.mapM ask = .ok (items.map answer) := by
  induction items with
  | nil => rfl
  | cons item rest ih =>
    have hrest := ih fun other hmem => h other (List.mem_cons_of_mem _ hmem)
    rw [List.mapM_cons, h item List.mem_cons_self, hrest]
    rfl

/-- If every item of a list has an answer, it is found whether one of the answers is positive. -/
private theorem anyM_eq_ok_of_forall {α ε : Type} {items : List α} {ask : α → Except ε Bool}
    {answer : α → Bool} (h : ∀ item ∈ items, ask item = .ok (answer item)) :
    items.anyM ask = .ok (items.any answer) := by
  induction items with
  | nil => rfl
  | cons item rest ih =>
    have hrest := ih fun other hmem => h other (List.mem_cons_of_mem _ hmem)
    rw [List.anyM, h item List.mem_cons_self, List.any_cons]
    cases answer item with
    | true => rfl
    | false => exact hrest

/-- Asking the images of items is asking the items for their images. -/
private theorem anyM_map {α β ε : Type} (ask : β → Except ε Bool) (image : α → β) (items : List α) :
    (items.map image).anyM ask = items.anyM fun item => ask (image item) := by
  induction items with
  | nil => rfl
  | cons item rest ih =>
    rw [List.map_cons, List.anyM, List.anyM, ih]

namespace SymbolTable

variable (t : SymbolTable)

/-! ## Containers -/

/-- A walk that is not called off answers, or ends with the error that it is endless. -/
private theorem generatedAlong_live (start : Token) (fuel : Nat) (token : Token) :
    t.generatedAlong .live start fuel token =
      (t.generatedFrom fuel token).elim (.error (.endlessContainment start)) .ok := by
  induction fuel generalizing token with
  | zero => rfl
  | succ fuel ih =>
    rw [generatedAlong, generatedFrom]
    -- The walks differ in the signal alone, which lets every step through.
    by_cases hmarked : t.isMarkedGenerated token
    · simp only [hmarked, if_true]
      rfl
    · simp only [hmarked, Bool.false_eq_true, if_false]
      cases t.container? token with
      | none => rfl
      | some container => exact ih container

/-- The walk from a symbol through its containers. -/
theorem generated_some_live (token : Token) :
    t.generated .live (some token) =
      (t.isGenerated? token).elim (.error (.endlessContainment token)) .ok :=
  t.generatedAlong_live token (t.size + 1) token

/-! ## Constraints -/

/-- The search gives the only method that the constraints lead to, those before included. -/
private theorem pinnableAmong_live (within : Token) (found : Option Token)
    (constraints : List Token) :
    t.pinnableAmong .live within found constraints =
      .ok (sole? (found.toList ++ constraints.filterMap (t.pinnableThrough? within))) := by
  induction constraints generalizing found with
  | nil => cases found <;> rfl
  | cons constraint rest ih =>
    rw [pinnableAmong]
    cases hthrough : t.pinnableThrough? within constraint with
    | none =>
      rw [List.filterMap_cons_none hthrough]
      exact ih found
    | some method =>
      rw [List.filterMap_cons_some hthrough]
      cases found with
      | none => exact ih (some method)
      -- A second method ends the search without an answer, as it does in the full list.
      | some earlier => rfl

/-- The method that a value is pinned through. -/
theorem pinningMethod_live (type within : Token) :
    t.pinningMethod .live type within = .ok (t.pinnable? type within) := by
  rw [pinningMethod, pinnable?]
  cases t.pinnableOn? within type with
  | some method => rfl
  | none =>
    cases t.isTypeParameter type with
    | false => rfl
    | true => exact t.pinnableAmong_live within none (t.constraintTypes type)

end SymbolTable

namespace Model

variable (m : Model)

/-! ## Storage -/

/-- There is no way to the storage of an operation that the tree does not have. -/
theorem readOnlyReference_of_none (signal : Signal) (context : MemberContext) (policy : CopyPolicy)
    {id : OpId} (hget : m.tree.get? id = none) :
    m.readOnlyReference signal context policy id = (do
      signal.poll
      return false) := by
  rw [readOnlyReference]
  split
  · rfl
  · next hsome => cases hget.symm.trans hsome

/-- One step on the way to the storage of an operation. -/
theorem readOnlyReference_of_get? (signal : Signal) (context : MemberContext) (policy : CopyPolicy)
    {id : OpId} {operation : Operation} (hget : m.tree.get? id = some operation) :
    m.readOnlyReference signal context policy id = (do
      signal.poll
      match m.origin context policy id operation.shape with
      | .storage isReadOnly => return isReadOnly
      | .through operands => operands.anyM (m.readOnlyReference signal context policy)) := by
  rw [readOnlyReference]
  split
  · next hnone => cases hget.symm.trans hnone
  · next found hfound =>
    obtain rfl : operation = found := Option.some.inj (hget.symm.trans hfound)
    congr 1
    funext _
    split
    · next horigin => rw [horigin]
    · next operands horigin =>
      rw [horigin]
      -- The recursion runs over the operands with their membership attached.
      exact (anyM_map _ Subtype.val operands.attach).symm.trans
        (congrArg _ operands.attach_map_subtype_val)

/-- The way to the storage of a receiver. -/
theorem readOnlyReference_live (context : MemberContext) (policy : CopyPolicy) (id : OpId) :
    m.readOnlyReference .live context policy id =
      .ok (m.isReadOnlyReference context policy id) := by
  fun_induction isReadOnlyReference m context policy id with
  | case1 id hget =>
    rw [m.readOnlyReference_of_none .live context policy hget]
    rfl
  | case2 id operation hget isReadOnly horigin =>
    rw [m.readOnlyReference_of_get? .live context policy hget, horigin]
    rfl
  | case3 id operation hget operands horigin ih =>
    rw [m.readOnlyReference_of_get? .live context policy hget, horigin]
    -- The induction is that of the plain search, so it covers every operand.
    have hall : ∀ operand ∈ operands, m.readOnlyReference .live context policy operand =
        .ok (m.isReadOnlyReference context policy operand) :=
      fun operand hmem => ih ⟨operand, hmem⟩
    exact (anyM_eq_ok_of_forall hall).trans (by simp)

/-! ## Accesses -/

/-- The method that a value is pinned through, for a slot of the given pointee. -/
private theorem pinnedThrough_live (within pointee : Token) (value : OpId) :
    m.pinnedThrough .live within pointee value = .ok (m.pinnedThrough? within pointee value) := by
  rw [pinnedThrough, pinnedThrough?]
  cases m.typeOf? value with
  | none => rfl
  | some type =>
    simp only [m.symbols.pinningMethod_live type within, bind, Except.bind, Option.bind_some]
    split
    · rfl
    · cases m.symbols.pinnable? type within <;> rfl

/-- The access that pins the value of a declarator. -/
private theorem pinningAccess_live (within : Token) (declarator : OpId) :
    m.pinningAccess .live within declarator = .ok (m.pinningAccess? within declarator) := by
  rw [pinningAccess, pinningAccess?]
  cases m.shape? declarator with
  | none => rfl
  | some shape =>
    cases shape with
    | variableDeclarator slot initializer =>
      cases initializer with
      | none => rfl
      | some initializer =>
        -- A live signal lets the poll through.
        dsimp only [Signal.poll, bind, Except.bind]
        simp only [m.pinnedThrough_live]
        cases m.symbols.pointeeOf? slot with
        | none => rfl
        | some pointee =>
          cases m.shape? initializer with
          | none => rfl
          | some shape => cases shape <;> rfl
    | _ => rfl

/-- The member accesses of an operation. -/
theorem accesses_live (policy : CopyPolicy) (id : OpId) :
    m.accesses .live policy id = .ok (m.memberAccesses policy id) := by
  unfold accesses
  split
  · next declarators body hshape =>
    -- Only a statement that pins values polls the signal.
    have hplain : m.memberAccesses policy id = m.pinningAccesses id declarators := by
      rw [memberAccesses, hshape]
      rfl
    rw [hplain, pinningAccesses]
    cases m.enclosingType? id with
    | none => rfl
    | some within =>
      have hfound : declarators.mapM (m.pinningAccess .live within) =
          .ok (declarators.map (m.pinningAccess? within)) :=
        mapM_eq_ok_of_forall fun declarator _ => m.pinningAccess_live within declarator
      simp only [hfound, bind, Except.bind, pure, Except.pure, List.filterMap_map]
      rfl
  · rfl

end Model

end DefensiveCopy
