import DefensiveCopy.Proofs.LiveAnalysis

/-!
# The analysis always has an answer

Nothing that an operation refers to has to exist: tokens may lead nowhere or into the wrong table,
and the number of the operation itself may be one that the tree does not have.  An analysis that is
not called off still ends with findings.  Two things could keep it from doing so.  A search for
generated code could have no end; in a table that registration leads to, it has one.  And a location
that is reported could be missing from the tree; but receivers and locations are found by going down
from the operation to its operands, and operand links never leave the tree.

With every operation answered, a run over a tree reports the findings of one operation after the
other.

## Key results

- `forM_reports`: a run over a list reports what each of its items does, in order
- `analyzeTree_live`, `analyzeTrees_live`: what a run over a tree and over several trees reports
- `analysis_total_of_reachable`: accesses, findings and reports exist for every tree and operation
-/

namespace DefensiveCopy

/-- Registration alone leads to tables in which every search for generated code has an end. -/
theorem SymbolTable.Reachable.answersGenerated {t : SymbolTable} (h : t.Reachable) :
    t.AnswersGenerated :=
  (SymbolTable.intact_of_reachable h).isSome_isGenerated?

/-! ## One operation -/

/-- The findings of an operation: those of its accesses, each one once. -/
def operationFindings (options : AnalysisOptions) (m : Model) (id : OpId) : List Finding :=
  ((m.memberAccesses options.policy id).filterMap (findingOf? options m)).foldl
    (fun findings finding => if finding ∈ findings then findings else findings ++ [finding]) []

/-- An analysis of an operation that is not called off gives its findings. -/
theorem analyzeOperation_eq_ok {m : Model} (h : m.symbols.AnswersGenerated)
    (options : AnalysisOptions) (id : OpId) :
    analyzeOperation options m .live id = .ok (operationFindings options m id) :=
  analyzeOperation_live h options id

/-- A finding can be made about an access whose location is in the tree. -/
private theorem Model.exists_finding {m : Model} {access : MemberAccess}
    (h : (m.get? access.location).isSome) (findingClass : FindingClass) :
    ∃ finding, m.finding access findingClass = .ok finding := by
  obtain ⟨operation, hget⟩ := Option.isSome_iff_exists.1 h
  simp [Model.finding, hget]

/-! ## Runs -/

namespace Report

/-- The report with findings added one after the other. -/
private theorem foldl_add (findings : List Finding) (report : Report) :
    findings.foldl add report = ⟨report.entries ++ findings⟩ := by
  induction findings generalizing report with
  | nil => simp
  | cons finding rest ih =>
    rw [List.foldl_cons, ih, add]
    simp

end Report

/-- A run over a list of items that each report some findings reports all of them, in order. -/
theorem forM_reports {α : Type} {items : List α} {step : α → Reporting Unit}
    {found : α → List Finding}
    (hstep : ∀ item report, step item report = .ok () ⟨report.entries ++ found item⟩)
    (report : Report) :
    items.forM step report = .ok () ⟨report.entries ++ items.flatMap found⟩ := by
  induction items generalizing report with
  | nil => simp [pure, EStateM.pure]
  | cons item rest ih =>
    -- The rest starts from the report with the findings of this item.
    have hrest := ih ⟨report.entries ++ found item⟩
    rw [Reporting.forM_cons, EStateM.bind, hstep item report, List.flatMap_cons,
      ← List.append_assoc]
    exact hrest

/-- The report of a run that does not fail. -/
theorem Reporting.collect_of_ok {run : Reporting Unit} {report : Report}
    (h : run {} = .ok () report) : run.collect = .ok report := by
  simp [Reporting.collect, h]

variable {symbols : SymbolTable}

/-- The findings of a tree, operation after operation; none if no class is reported. -/
def treeFindings (options : AnalysisOptions) (symbols : SymbolTable) (tree : Tree) :
    List Finding :=
  if options.reportsAnything then tree.ids.flatMap (operationFindings options { symbols, tree })
  else []

/-- A run over a tree that is not called off adds its findings to the report. -/
theorem analyzeTree_live (h : symbols.AnswersGenerated) (options : AnalysisOptions) (tree : Tree)
    (report : Report) :
    analyzeTree options symbols .live tree report =
      .ok () ⟨report.entries ++ treeFindings options symbols tree⟩ := by
  -- Every operation has an answer, so no step fails.
  have hstep : ∀ id report, reportOperation options { symbols, tree } .live id report =
      .ok () ⟨report.entries ++ operationFindings options { symbols, tree } id⟩ := by
    intro id report
    have hfindings := analyzeOperation_eq_ok (m := { symbols, tree }) h options id
    simp only [reportOperation, hfindings, Report.foldl_add]
  unfold analyzeTree treeFindings
  split
  · exact forM_reports hstep report
  · simp [pure, EStateM.pure]

/-- A run over several trees adds the findings of one after the other. -/
theorem analyzeTrees_live (h : symbols.AnswersGenerated) (options : AnalysisOptions)
    (trees : List Tree) (report : Report) :
    analyzeTrees options symbols .live trees report =
      .ok () ⟨report.entries ++ trees.flatMap (treeFindings options symbols)⟩ :=
  forM_reports (fun tree report => analyzeTree_live h options tree report) report

/-- The report of a run over one tree has the findings of the tree. -/
theorem collect_analyzeTree (h : symbols.AnswersGenerated) (options : AnalysisOptions)
    (tree : Tree) :
    (analyzeTree options symbols .live tree).collect = .ok ⟨treeFindings options symbols tree⟩ :=
  Reporting.collect_of_ok (analyzeTree_live h options tree {})

/-! ## Totality -/

/-- In a table that registration leads to, an analysis that is not called off always has an answer,
    for every tree, all options and every number of an operation, whether the tree has it or not.
    The accesses of the operation are found; their receivers and locations are operations of the
    tree, so that each of them is answered and no location is ever unknown.  The operation has
    findings, and the run over the tree reports those of all its operations. -/
theorem analysis_total_of_reachable (hreachable : symbols.Reachable) (tree : Tree)
    (options : AnalysisOptions) :
    ∃ findings : OpId → List Finding,
      (∀ id, analyzeOperation options { symbols, tree } .live id = .ok (findings id)) ∧
      (∀ id, ∃ accesses,
        Model.accesses { symbols, tree } .live options.policy id = .ok accesses ∧
        ∀ access ∈ accesses,
          (tree.get? access.receiver).isSome ∧ (tree.get? access.location).isSome ∧
          (∃ answer, analyzeAccess options { symbols, tree } .live access = .ok answer) ∧
          ∀ findingClass, ∃ finding,
            Model.finding { symbols, tree } access findingClass = .ok finding) ∧
      (analyzeTree options symbols .live tree).collect =
        .ok ⟨if options.reportsAnything then tree.ids.flatMap findings else []⟩ := by
  have hanswers := hreachable.answersGenerated
  refine ⟨operationFindings options { symbols, tree }, fun id => ?_, fun id => ?_, ?_⟩
  · exact analyzeOperation_eq_ok (m := { symbols, tree }) hanswers options id
  · have haccesses := Model.accesses_live { symbols, tree } options.policy id
    refine ⟨_, haccesses, fun access hmem => ?_⟩
    -- An access is made through operands of the operation, which are in the tree.
    have hreceiver := (Model.reaches_of_mem_memberAccesses hmem).1.isSome_get?
    have hlocation := Model.isSome_get?_location hmem
    have haccess : analyzeAccess options { symbols, tree } .live access =
        .ok (findingOf? options { symbols, tree } access) := analyzeAccess_live hanswers hlocation
    exact ⟨hreceiver, hlocation, ⟨_, haccess⟩, Model.exists_finding hlocation⟩
  · exact collect_analyzeTree hanswers options tree

/-- A struct with a method. -/
def strayCalls : List RegistrationCall :=
  [.addType { name := "Point", kind := .structType },
   .addMethod { name := "Move", containingType := some (.ofParts .type 1) }]

/-- Operations with symbols that do not exist: the null token as a variable, the struct as a method
    that is called, and a method past the end of the table.  The last operation has an operand that
    does not exist, and is refused. -/
def strayScript : List ScriptItem :=
  [.add false (.slot ⟨0⟩),
   .add false (.call (.ofParts .type 1) (some ⟨0⟩) []),
   .add false (.operation (.forEachLoop ⟨1⟩ (some (.ofParts .method 9)) none) none false),
   .add false (.operation (.await ⟨8⟩ (some (.ofParts .method 1)) false) none false)]

/-- The symbols and operations of the example. -/
def strayModel : Model where
  symbols := RegistrationCall.runAll strayCalls {}
  tree := (Tree.ofScript (RegistrationCall.runAll strayCalls {}) "Stray" strayScript).2

/-- Accesses with symbols that do not exist are analysed, and so is a number without an
    operation. -/
theorem analysis_total_stray :
    strayModel.symbols.Reachable ∧
    (strayModel.memberAccesses {} ⟨1⟩).map (·.receiver) = [⟨0⟩] ∧
    (strayModel.memberAccesses {} ⟨2⟩).map (·.receiver) = [⟨1⟩] ∧ strayModel.tree.size = 3 ∧
    ∃ findings : OpId → List Finding,
      analyzeOperation {} strayModel .live ⟨1⟩ = .ok (findings ⟨1⟩) ∧
      analyzeOperation {} strayModel .live ⟨2⟩ = .ok (findings ⟨2⟩) ∧
      analyzeOperation {} strayModel .live ⟨3⟩ = .ok (findings ⟨3⟩) ∧
      (analyzeTree {} strayModel.symbols .live strayModel.tree).collect =
        .ok ⟨strayModel.tree.ids.flatMap findings⟩ := by
  have hfresh : ∀ call ∈ strayCalls, call.IsFresh := by
    simp [strayCalls, RegistrationCall.IsFresh]
  have hreachable : strayModel.symbols.Reachable := SymbolTable.Reachable.empty.runAll hfresh
  obtain ⟨findings, hoperation, -, hcollect⟩ :=
    analysis_total_of_reachable hreachable strayModel.tree {}
  -- The last operation was refused, so its number has no operation.
  exact ⟨hreachable, by decide, by decide, by decide, findings, hoperation _, hoperation _,
    hoperation _, hcollect⟩

end DefensiveCopy
