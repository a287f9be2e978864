import DefensiveCopy.Proofs.ReportOrder
import DefensiveCopy.Proofs.TotalAnalysis
import Mathlib.Logic.Relation

/-!
# Every schedule leads to the same report

Several workers may analyse the operations of several trees at the same time and add what they find
to one report.  A worker takes any operation that is still waiting and analyses it, and then adds
the findings of the operation one by one.  Between any two of these steps other workers may do any
number of theirs, so that the findings of different operations come in mixed.

No step makes or loses a finding: what is reported, what workers have still to report and what the
waiting operations will turn out to have are the same findings all along, repetitions counted.  When
no step is left, all of them are in the report, and the views of a report do not show in which order
they came in.

## Key results

- `Pool.Step.outcome_perm`: a step neither makes nor loses findings
- `Pool.outcome_perm_of_run`: nor does a sequence of steps, in whatever order they are taken
- `Pool.exists_end`: a sequence of steps can be continued to an end
- `report_independent_of_schedule`: all ends have the report of a run in order
-/

namespace DefensiveCopy

/-- An analysis by several workers: the operations that nobody has taken yet, the findings that each
    worker has still to report, and the report so far. -/
structure Pool where
  waiting : List (Tree × OpId)
  pending : List (List Finding) := []
  report : Report := {}

namespace Pool

/-- Nothing has been done yet: all operations of the trees wait, or none if no class is reported. -/
def start (options : AnalysisOptions) (trees : List Tree) : Pool where
  waiting := trees.flatMap fun tree =>
    if options.reportsAnything then tree.ids.map fun id => (tree, id) else []

/-- One step of one worker: the analysis of an operation that waits, or the report of the next
    finding that the worker has. -/
inductive Step (options : AnalysisOptions) (symbols : SymbolTable) : Pool → Pool → Prop where
  | analyze {before after : List (Tree × OpId)} {pending : List (List Finding)} {report : Report}
    {tree : Tree} {id : OpId} {findings : List Finding}
    (h : analyzeOperation options { symbols, tree } .live id = .ok findings) :
    Step options symbols { waiting := before ++ (tree, id) :: after, pending, report }
      { waiting := before ++ after, pending := findings :: pending, report }
  | report {waiting : List (Tree × OpId)} {before after : List (List Finding)} {report : Report}
    {finding : Finding} {rest : List Finding} :
    Step options symbols { waiting, pending := before ++ (finding :: rest) :: after, report }
      { waiting, pending := before ++ rest :: after, report := report.add finding }

/-- The steps of all workers, one after the other in any order. -/
def Run (options : AnalysisOptions) (symbols : SymbolTable) : Pool → Pool → Prop :=
  Relation.ReflTransGen (Step options symbols)

/-- No worker has anything left to do. -/
def IsEnd (options : AnalysisOptions) (symbols : SymbolTable) (pool : Pool) : Prop :=
  ∀ next, ¬Step options symbols pool next

variable {options : AnalysisOptions} {symbols : SymbolTable}

/-! ## What remains to be reported -/

/-- The findings that are not reported yet: those that workers hold, and those of the operations
    that wait. -/
def unreported (options : AnalysisOptions) (symbols : SymbolTable) (pool : Pool) : List Finding :=
  pool.pending.flatten ++
    pool.waiting.flatMap fun job => operationFindings options { symbols, tree := job.1 } job.2

/-- The findings that are reported or will be. -/
def outcome (options : AnalysisOptions) (symbols : SymbolTable) (pool : Pool) : List Finding :=
  pool.report.entries ++ pool.unreported options symbols

/-- A step neither makes nor loses findings. -/
theorem Step.outcome_perm (hanswers : symbols.AnswersGenerated) {pool next : Pool}
    (h : Step options symbols pool next) :
    (next.outcome options symbols).Perm (pool.outcome options symbols) := by
  cases h with
  | @analyze before after pending report tree id findings hfindings =>
    -- The findings of the operation move from its place in the line to the worker.
    have hanswer := analyzeOperation_eq_ok (m := { symbols, tree }) hanswers options id
    obtain rfl : operationFindings options { symbols, tree } id = findings :=
      Except.ok.inj (hanswer.symm.trans hfindings)
    simp only [outcome, unreported, List.flatten_cons, List.flatMap_append, List.flatMap_cons,
      List.append_assoc]
    refine List.Perm.append_left _ ?_
    exact (List.perm_append_comm_assoc _ _ _).trans
      (List.Perm.append_left _ (List.perm_append_comm_assoc _ _ _))
  | report =>
    -- The finding moves from the worker to the end of the report.
    simp only [outcome, unreported, Report.add, List.flatten_append, List.flatten_cons,
      List.append_assoc, List.cons_append, List.nil_append]
    exact List.Perm.append_left _ List.perm_middle.symm

/-- A sequence of steps neither makes nor loses findings. -/
theorem outcome_perm_of_run (hanswers : symbols.AnswersGenerated) {pool last : Pool}
    (h : Run options symbols pool last) :
    (last.outcome options symbols).Perm (pool.outcome options symbols) := by
  induction h with
  | refl => exact List.Perm.refl _
  | tail _ hstep ih => exact (hstep.outcome_perm hanswers).trans ih

/-! ## Beginning and end -/

/-- In the beginning, what will be reported are the findings of all trees. -/
private theorem outcome_start (trees : List Tree) :
    (start options trees).outcome options symbols =
      trees.flatMap (treeFindings options symbols) := by
  simp only [outcome, unreported, start, List.flatten_nil, List.nil_append, List.flatMap_assoc]
  congr 1
  funext tree
  unfold treeFindings
  split
  · rw [List.flatMap_map]
  · rfl

/-- When no step is left, nothing remains to be reported. -/
private theorem unreported_of_isEnd (hanswers : symbols.AnswersGenerated) {pool : Pool}
    (hend : pool.IsEnd options symbols) : pool.unreported options symbols = [] := by
  obtain ⟨waiting, pending, report⟩ := pool
  have hwaiting : waiting = [] := by
    cases waiting with
    | nil => rfl
    | cons job rest =>
      -- An operation that waits can be analysed, since every analysis has an answer.
      obtain ⟨tree, id⟩ := job
      have hfindings := analyzeOperation_eq_ok (m := { symbols, tree }) hanswers options id
      have hstep : Step options symbols ⟨[] ++ (tree, id) :: rest, pending, report⟩ _ :=
        .analyze hfindings
      exact absurd hstep (hend _)
  have hpending : ∀ findings ∈ pending, findings = [] := by
    intro findings hmem
    cases findings with
    | nil => rfl
    | cons finding rest =>
      -- A worker that holds a finding can report it.
      obtain ⟨before, after, rfl⟩ := List.append_of_mem hmem
      exact absurd Step.report (hend _)
  simpa [unreported, hwaiting] using hpending

/-- Every step takes an operation that waits, or leaves one finding less to report. -/
theorem Step.lt (hanswers : symbols.AnswersGenerated) {pool next : Pool}
    (h : Step options symbols pool next) :
    next.waiting.length + (next.unreported options symbols).length <
      pool.waiting.length + (pool.unreported options symbols).length := by
  have hlength := (h.outcome_perm hanswers).length_eq
  simp only [outcome, List.length_append] at hlength
  -- The length of what is reported or will be stays, so it is enough to look at the rest.
  cases h with
  | analyze hfindings =>
    simp only [List.length_append, List.length_cons] at hlength ⊢
    omega
  | report =>
    simp only [Report.add, List.length_append, List.length_cons, List.length_nil] at hlength ⊢
    omega

/-- A sequence of steps can be continued until no step is left. -/
theorem exists_end (hanswers : symbols.AnswersGenerated) (pool : Pool) :
    ∃ last, Run options symbols pool last ∧ last.IsEnd options symbols := by
  by_cases hend : pool.IsEnd options symbols
  · exact ⟨pool, .refl, hend⟩
  · obtain ⟨next, hstep⟩ : ∃ next, Step options symbols pool next := by
      simpa [IsEnd] using hend
    have hlt := hstep.lt hanswers
    obtain ⟨last, hrun, hlast⟩ := exists_end hanswers next
    exact ⟨last, .head hstep hrun, hlast⟩
termination_by pool.waiting.length + (pool.unreported options symbols).length

end Pool

/-! ## All schedules -/

/-- The report does not depend on the schedule.  Let the trees be taken in any order and their
    operations be analysed and reported by any steps of any number of workers.  However far they
    have come, they can get to an end, and at every end the report is that of the trees analysed one
    after the other with their operations in order: the sorted view, the summary and all counts are
    the same.  The sorted view is the only arrangement of the entries that is in order, since the
    order of findings is total and only equal findings are equal in it. -/
theorem report_independent_of_schedule {symbols : SymbolTable} (hreachable : symbols.Reachable)
    (options : AnalysisOptions) (trees : List Tree) :
    (∃ report, (analyzeTrees options symbols .live trees).collect = .ok report ∧
      ∀ shuffled pool, shuffled.Perm trees →
        Pool.Run options symbols (.start options shuffled) pool →
          (∃ last, Pool.Run options symbols pool last ∧ last.IsEnd options symbols) ∧
          (pool.IsEnd options symbols →
            pool.report.entries.Perm report.entries ∧ pool.report.sorted = report.sorted ∧
            pool.report.summary = report.summary ∧ pool.report.count = report.count ∧
            ∀ findingClass, pool.report.countOf findingClass = report.countOf findingClass)) ∧
    (∀ (report : Report) (findings : List Finding), findings = report.sorted ↔
      findings.Perm report.entries ∧
        findings.Pairwise fun first second => first.isBefore second) ∧
    (∀ first second : Finding, first.order second = .eq ↔ first = second) ∧
    (∀ first second : Finding, second.order first = (first.order second).swap) ∧
    ∀ first second third : Finding, first.isBefore second → second.isBefore third →
      first.isBefore third := by
  have hanswers := hreachable.answersGenerated
  refine ⟨⟨⟨trees.flatMap (treeFindings options symbols)⟩, ?_, ?_⟩, ?_, ?_, ?_, ?_⟩
  · exact Reporting.collect_of_ok (analyzeTrees_live hanswers options trees {})
  · intro shuffled pool hshuffled hrun
    refine ⟨Pool.exists_end hanswers pool, fun hend => ?_⟩
    have hperm : pool.report.entries.Perm (trees.flatMap (treeFindings options symbols)) := by
      -- Nothing is lost on the way to the end, and there is nothing left at the end.
      have hkept := Pool.outcome_perm_of_run hanswers hrun
      rw [Pool.outcome, Pool.unreported_of_isEnd hanswers hend, List.append_nil,
        Pool.outcome_start] at hkept
      exact hkept.trans (hshuffled.flatMap_right _)
    exact ⟨hperm, Report.views_eq_of_perm hperm⟩
  · exact fun report findings => Report.eq_sorted_iff
  · exact fun first second => Finding.order_eq_eq_iff
  · exact fun first second => Std.OrientedCmp.eq_swap
  · exact fun first second third => Finding.isBefore_trans

/-- A struct with a method that may write, and a variable that refers to such a struct and may only
    be read. -/
def counterCalls : List RegistrationCall :=
  [.addType { name := "Counter", kind := .structType },
   .addMethod { name := "Next", containingType := some (.ofParts .type 1) },
   .addSlot { name := "counter", refKind := .byRefReadOnly, type := some (.ofParts .type 1) }]

/-- The symbols of the example. -/
def counterTable : SymbolTable := RegistrationCall.runAll counterCalls {}

/-- A document that calls the method on the variable. -/
def counterTree (document : String) : Tree :=
  (Tree.ofScript counterTable document
    [.add true (.slot (.ofParts .slot 1)),
     .add true (.call (.ofParts .method 1) (some ⟨0⟩) [])]).2

/-- Two documents with a finding each, taken in either order. -/
theorem report_independent_of_schedule_counter :
    counterTable.Reachable ∧
    ∃ report, (analyzeTrees {} counterTable .live [counterTree "A", counterTree "B"]).collect =
        .ok report ∧ report.count = 2 ∧
      ∃ last, Pool.Run {} counterTable (.start {} [counterTree "B", counterTree "A"]) last ∧
        last.IsEnd {} counterTable ∧ last.report.sorted = report.sorted := by
  have hfresh : ∀ call ∈ counterCalls, call.IsFresh := by
    simp [counterCalls, RegistrationCall.IsFresh]
  have hreachable : counterTable.Reachable := SymbolTable.Reachable.empty.runAll hfresh
  obtain ⟨⟨report, hreport, hschedules⟩, -⟩ :=
    report_independent_of_schedule hreachable {} [counterTree "A", counterTree "B"]
  have hcount : (analyzeTrees {} counterTable .live
      [counterTree "A", counterTree "B"]).collect.toOption.map (·.count) = some 2 := by
    decide +kernel
  have hswap : [counterTree "B", counterTree "A"].Perm [counterTree "A", counterTree "B"] :=
    .swap _ _ _
  -- Workers that start with the documents the other way round come to an end.
  obtain ⟨⟨last, hrun, hend⟩, -⟩ := hschedules _ _ hswap .refl
  refine ⟨hreachable, report, hreport, ?_, last, hrun, hend, ?_⟩
  · rw [hreport] at hcount
    exact Option.some.inj hcount
  · exact ((hschedules _ _ hswap hrun).2 hend).2.1

end DefensiveCopy
