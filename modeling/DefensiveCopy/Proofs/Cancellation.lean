import DefensiveCopy.Analysis.Run
import DefensiveCopy.Proofs.Polling

/-!
# Calling an analysis off never falsifies it

An analysis that is called off complains about it at the first question that it asks its signal.
Where it gets to its end without a question, it has looked at the same symbols and operations as a
live one, and so it gives the same answer.  This holds of a single question and of anything that is
put together from questions by sequencing (`CalledOffOr.bind`), so every search has it by the
structure of its definition.

An analysis of an operation asks before it looks at an access.  When it is called off and does not
complain, the operation has no access at all, and there is nothing to find.

## Key results

- `CalledOffOr.bind`, `CalledOffOr.mapM`, `CalledOffOr.anyM`: how answers are put together
- `analyzeOperation_cancelled`: no operation has a finding when the analysis is called off
- `Silent.forM`: a run of steps that report nothing reports nothing
- `calledOffOr_of_cancelled`: all searches and analyses together
-/

namespace DefensiveCopy

/-- The answer is the other one, or the complaint that the analysis was called off. -/
def CalledOffOr {α : Type} (answer other : Except AnalysisError α) : Prop :=
  answer = .error .cancelled ∨ answer = other

namespace CalledOffOr

variable {α β : Type}

/-- An answer that does not depend on the signal is the same for all signals. -/
theorem refl (answer : Except AnalysisError α) : CalledOffOr answer answer := .inr rfl

/-- A question is answered as by a live signal, or with the complaint. -/
theorem poll (signal : Signal) : CalledOffOr signal.poll Signal.live.poll := by
  cases signal with
  | live => exact .inr rfl
  | cancelled => exact .inl rfl

/-- What follows an answer is not reached after the complaint, and starts from the same answer
    otherwise. -/
theorem bind {first other : Except AnalysisError α} {next otherNext : α → Except AnalysisError β}
    (hfirst : CalledOffOr first other)
    (hnext : ∀ value, CalledOffOr (next value) (otherNext value)) :
    CalledOffOr (first >>= next) (other >>= otherNext) := by
  rcases hfirst with rfl | rfl
  · exact .inl rfl
  · cases first with
    | error error => exact .inr rfl
    | ok value => exact hnext value

/-- Asking about the items of a list in turn, each answer being the same or the complaint. -/
theorem mapM {items : List α} {ask other : α → Except AnalysisError β}
    (h : ∀ item, CalledOffOr (ask item) (other item)) :
    CalledOffOr (items.mapM ask) (items.mapM other) := by
  induction items with
  | nil => exact refl _
  | cons item rest ih =>
    rw [List.mapM_cons, List.mapM_cons]
    exact (h item).bind fun value => ih.bind fun values => refl _

/-- Looking for an item of a list, each answer being the same or the complaint. -/
theorem anyM {items : List α} {ask other : α → Except AnalysisError Bool}
    (h : ∀ item ∈ items, CalledOffOr (ask item) (other item)) :
    CalledOffOr (items.anyM ask) (items.anyM other) := by
  induction items with
  | nil => exact refl _
  | cons item rest ih =>
    rw [List.anyM, List.anyM]
    refine (h item List.mem_cons_self).bind fun isFound => ?_
    -- An item that is found ends the search; otherwise it goes on with the rest.
    cases isFound with
    | true => exact refl _
    | false => exact ih fun other hmem => h other (List.mem_cons_of_mem _ hmem)

end CalledOffOr

/-! ## Searches -/

namespace SymbolTable

variable (t : SymbolTable) (signal : Signal)

/-- The walk through the containers asks before each of its steps. -/
private theorem calledOffOr_generatedAlong (start : Token) (fuel : Nat) (token : Token) :
    CalledOffOr (t.generatedAlong signal start fuel token)
      (t.generatedAlong .live start fuel token) := by
  induction fuel generalizing token with
  | zero => exact .refl _
  | succ fuel ih =>
    rw [generatedAlong, generatedAlong]
    refine (CalledOffOr.poll signal).bind fun _ => ?_
    split
    · exact .refl _
    · split
      · exact ih _
      · exact .refl _

/-- The search for generated code answers as a live one, or complains. -/
private theorem calledOffOr_generated (start : Option Token) :
    CalledOffOr (t.generated signal start) (t.generated .live start) := by
  cases start with
  | none => exact .refl _
  | some token => exact t.calledOffOr_generatedAlong signal token (t.size + 1) token

/-- The search through the constraints asks before each of them. -/
private theorem calledOffOr_pinnableAmong (within : Token) (found : Option Token)
    (constraints : List Token) :
    CalledOffOr (t.pinnableAmong signal within found constraints)
      (t.pinnableAmong .live within found constraints) := by
  induction constraints generalizing found with
  | nil => exact .refl _
  | cons constraint rest ih =>
    rw [pinnableAmong, pinnableAmong]
    -- Each constraint polls once before it is looked at.
    refine (CalledOffOr.poll signal).bind fun _ => ?_
    split
    · exact ih found
    · split
      · exact .refl _
      · exact ih _

/-- The search for a pinning method answers as a live one, or complains. -/
private theorem calledOffOr_pinningMethod (type within : Token) :
    CalledOffOr (t.pinningMethod signal type within) (t.pinningMethod .live type within) := by
  unfold pinningMethod
  split
  · exact .refl _
  · split
    · exact t.calledOffOr_pinnableAmong signal within none (t.constraintTypes type)
    · exact .refl _

end SymbolTable

namespace Model

variable (m : Model) (signal : Signal)

/-- The descent to the storage behind an operation answers as a live one, or complains. -/
private theorem calledOffOr_readOnlyReference (context : MemberContext) (policy : CopyPolicy)
    (id : OpId) :
    CalledOffOr (m.readOnlyReference signal context policy id)
      (m.readOnlyReference .live context policy id) := by
  -- The induction follows the plain search, whose operands are the ones that are asked about.
  fun_induction isReadOnlyReference m context policy id with
  | case1 id hget =>
    rw [m.readOnlyReference_of_none signal context policy hget,
      m.readOnlyReference_of_none .live context policy hget]
    exact (CalledOffOr.poll signal).bind fun _ => .refl _
  | case2 id operation hget isReadOnly horigin =>
    rw [m.readOnlyReference_of_get? signal context policy hget,
      m.readOnlyReference_of_get? .live context policy hget, horigin]
    exact (CalledOffOr.poll signal).bind fun _ => .refl _
  | case3 id operation hget operands horigin ih =>
    rw [m.readOnlyReference_of_get? signal context policy hget,
      m.readOnlyReference_of_get? .live context policy hget, horigin]
    refine (CalledOffOr.poll signal).bind fun _ => ?_
    exact CalledOffOr.anyM fun operand hmem => ih ⟨operand, hmem⟩

/-- What a value is pinned through is answered as by a live search, or with the complaint. -/
private theorem calledOffOr_pinnedThrough (within pointee : Token) (value : OpId) :
    CalledOffOr (m.pinnedThrough signal within pointee value)
      (m.pinnedThrough .live within pointee value) := by
  unfold pinnedThrough
  split
  · exact .refl _
  · split
    · exact .refl _
    · exact (m.symbols.calledOffOr_pinningMethod signal _ within).bind fun _ => .refl _

/-- One declarator of a fixed statement is looked at after a question to the signal. -/
private theorem calledOffOr_pinningAccess (within : Token) (declarator : OpId) :
    CalledOffOr (m.pinningAccess signal within declarator)
      (m.pinningAccess .live within declarator) := by
  unfold pinningAccess
  refine (CalledOffOr.poll signal).bind fun _ => ?_
  split
  · split
    · exact (m.calledOffOr_pinnedThrough signal within _ _).bind fun _ => .refl _
    · exact .refl _
  · exact .refl _

/-- The accesses of an operation are those of a live search, or there is the complaint. -/
private theorem calledOffOr_accesses (policy : CopyPolicy) (id : OpId) :
    CalledOffOr (m.accesses signal policy id) (m.accesses .live policy id) := by
  unfold accesses
  split
  · split
    · exact (CalledOffOr.mapM (m.calledOffOr_pinningAccess signal _)).bind fun _ => .refl _
    · exact .refl _
  · exact .refl _

/-! ## Analyses -/

/-- The class of a copy is the one of a live analysis, or there is the complaint. -/
private theorem calledOffOr_copyClass (policy : CopyPolicy) (access : MemberAccess) :
    CalledOffOr (m.copyClass signal policy access) (m.copyClass .live policy access) := by
  unfold copyClass
  split
  · exact .refl _
  · refine (m.calledOffOr_readOnlyReference signal _ policy _).bind fun isReadOnly => ?_
    split
    · exact (m.symbols.calledOffOr_generated signal _).bind fun _ => .refl _
    · exact .refl _

end Model

/-- An access is analysed after a question to the signal. -/
private theorem calledOffOr_analyzeAccess (options : AnalysisOptions) (m : Model) (signal : Signal)
    (access : MemberAccess) :
    CalledOffOr (analyzeAccess options m signal access) (analyzeAccess options m .live access) := by
  unfold analyzeAccess
  refine (CalledOffOr.poll signal).bind fun _ => ?_
  exact (m.calledOffOr_copyClass signal options.policy access).bind fun _ => .refl _

/-- When the analysis is called off, an operation has no finding: the analysis complains, or there
    is no access to look at. -/
theorem analyzeOperation_cancelled (options : AnalysisOptions) (m : Model) (id : OpId) :
    analyzeOperation options m .cancelled id = .error .cancelled ∨
      analyzeOperation options m .cancelled id = .ok [] ∧
        analyzeOperation options m .live id = .ok [] := by
  have hlive := m.accesses_live options.policy id
  rcases m.calledOffOr_accesses .cancelled options.policy id with haccesses | haccesses
  · left
    simp only [analyzeOperation, haccesses]
    rfl
  · -- The accesses were found without a question, so they are the ones that a live search finds.
    rw [hlive] at haccesses
    cases hlist : m.memberAccesses options.policy id with
    | nil =>
      right
      rw [hlist] at haccesses hlive
      simp only [analyzeOperation, haccesses, hlive]
      exact ⟨rfl, rfl⟩
    | cons access rest =>
      -- The first access is not looked at before the signal has been asked.
      left
      rw [hlist] at haccesses
      simp only [analyzeOperation, haccesses]
      rfl

/-! ## Runs -/

/-- The run reports nothing.  If it does not complain that it was called off, then the other run
    ends well and reports nothing either. -/
def Silent (run other : Reporting Unit) : Prop :=
  ∀ report, run report = .error .cancelled report ∨
    run report = .ok () report ∧ other report = .ok () report

/-- A sequence of steps that report nothing reports nothing. -/
theorem Silent.forM {α : Type} {items : List α} {step other : α → Reporting Unit}
    (h : ∀ item, Silent (step item) (other item)) :
    Silent (items.forM step) (items.forM other) := by
  induction items with
  | nil => exact fun report => .inr ⟨rfl, rfl⟩
  | cons item rest ih =>
    intro report
    rw [Reporting.forM_cons, Reporting.forM_cons, EStateM.bind, EStateM.bind]
    -- A complaint ends the run; a silent step hands on the report as it was.
    rcases h item report with hitem | ⟨hitem, hother⟩
    · rw [hitem]
      exact .inl rfl
    · rw [hitem, hother]
      exact ih report

/-- An operation that is analysed after the analysis was called off reports nothing. -/
private theorem silent_reportOperation (options : AnalysisOptions) (m : Model) (id : OpId) :
    Silent (reportOperation options m .cancelled id) (reportOperation options m .live id) := by
  intro report
  rcases analyzeOperation_cancelled options m id with hcancelled | ⟨hcancelled, hlive⟩
  · left
    simp only [reportOperation, hcancelled]
  · right
    simp only [reportOperation, hcancelled, hlive, List.foldl_nil, and_self]

/-- A tree that is analysed after the analysis was called off reports nothing. -/
private theorem silent_analyzeTree (options : AnalysisOptions) (symbols : SymbolTable)
    (tree : Tree) :
    Silent (analyzeTree options symbols .cancelled tree)
      (analyzeTree options symbols .live tree) := by
  unfold analyzeTree
  split
  · exact Silent.forM fun id => silent_reportOperation options { symbols, tree } id
  · exact fun report => .inr ⟨rfl, rfl⟩

/-- Trees that are analysed after the analysis was called off report nothing. -/
private theorem silent_analyzeTrees (options : AnalysisOptions) (symbols : SymbolTable)
    (trees : List Tree) :
    Silent (analyzeTrees options symbols .cancelled trees)
      (analyzeTrees options symbols .live trees) :=
  Silent.forM fun tree => silent_analyzeTree options symbols tree

/-- The collected report of a silent run is that of the other run, or there is the complaint. -/
private theorem Silent.collect {run other : Reporting Unit} (h : Silent run other) :
    CalledOffOr run.collect other.collect := by
  rcases h {} with hrun | ⟨hrun, hother⟩
  · left
    simp only [Reporting.collect, hrun]
  · right
    simp only [Reporting.collect, hrun, hother]

/-! ## All together -/

/-- Calling an analysis off never falsifies an answer.  Every search and every analysis that is
    called off complains about it or gives the answer of a live one.  No finding is made or reported
    then: an operation for which there is no complaint has none in a live analysis either, and the
    same is true of the runs over one tree and over several trees. -/
theorem calledOffOr_of_cancelled (symbols : SymbolTable) (options : AnalysisOptions) :
    (∀ type within, CalledOffOr (symbols.pinningMethod .cancelled type within)
      (symbols.pinningMethod .live type within)) ∧
    (∀ start, CalledOffOr (symbols.generated .cancelled start) (symbols.generated .live start)) ∧
    (∀ tree context policy id,
      CalledOffOr (Model.readOnlyReference { symbols, tree } .cancelled context policy id)
        (Model.readOnlyReference { symbols, tree } .live context policy id)) ∧
    (∀ tree policy id, CalledOffOr (Model.accesses { symbols, tree } .cancelled policy id)
      (Model.accesses { symbols, tree } .live policy id)) ∧
    (∀ tree access, CalledOffOr (analyzeAccess options { symbols, tree } .cancelled access)
      (analyzeAccess options { symbols, tree } .live access)) ∧
    (∀ tree id,
      analyzeOperation options { symbols, tree } .cancelled id = .error .cancelled ∨
        analyzeOperation options { symbols, tree } .cancelled id = .ok [] ∧
          analyzeOperation options { symbols, tree } .live id = .ok []) ∧
    (∀ tree, Silent (analyzeTree options symbols .cancelled tree)
      (analyzeTree options symbols .live tree)) ∧
    (∀ trees, Silent (analyzeTrees options symbols .cancelled trees)
      (analyzeTrees options symbols .live trees)) ∧
    ∀ tree, CalledOffOr (analyzeTree options symbols .cancelled tree).collect
      (analyzeTree options symbols .live tree).collect := by
  refine ⟨?_, ?_, ?_, ?_, ?_, ?_, ?_, ?_, ?_⟩
  · exact symbols.calledOffOr_pinningMethod .cancelled
  · exact symbols.calledOffOr_generated .cancelled
  · exact fun tree => Model.calledOffOr_readOnlyReference { symbols, tree } .cancelled
  · exact fun tree => Model.calledOffOr_accesses { symbols, tree } .cancelled
  · exact fun tree => calledOffOr_analyzeAccess options { symbols, tree } .cancelled
  · exact fun tree => analyzeOperation_cancelled options { symbols, tree }
  · exact silent_analyzeTree options symbols
  · exact silent_analyzeTrees options symbols
  · exact fun tree => (silent_analyzeTree options symbols tree).collect

end DefensiveCopy
