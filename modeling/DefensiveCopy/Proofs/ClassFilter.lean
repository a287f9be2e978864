import DefensiveCopy.Proofs.TotalAnalysis

/-!
# The include-list only filters

Whether a class is reported is asked in two places: about each access, before the findings of an
operation are freed of repetitions, and once about a whole tree, which is skipped if no class is
reported.  Neither place lets the include-list decide anything else.  A finding says its class, so
repetitions of it are all reported or all left out, and leaving out comes to the same before and
after repetitions are removed.  A tree that is skipped has no finding that would have been reported.

## Key results

- `findingOf?_filter`: a finding about an access is left out, or it is the same
- `filter_foldl_collect`: leaving out findings and removing repetitions commute
- `treeFindings_filter`: the short cut for a whole tree leaves nothing out by itself
- `findings_of_includeList`: the findings under an include-list are those of all classes, filtered
-/

namespace DefensiveCopy

/-! ## Repetitions -/

/-- Leaving out findings comes to the same before and after repetitions are removed. -/
theorem filter_foldl_collect (isKept : Finding → Bool) (found findings : List Finding) :
    (found.foldl (fun findings finding =>
      if finding ∈ findings then findings else findings ++ [finding]) findings).filter isKept =
    (found.filter isKept).foldl (fun findings finding =>
      if finding ∈ findings then findings else findings ++ [finding]) (findings.filter isKept) := by
  induction found generalizing findings with
  | nil => rfl
  | cons finding rest ih =>
    rw [List.foldl_cons, ih]
    by_cases hkept : isKept finding
    · -- A finding that is kept is a repetition before exactly if it is one after.
      rw [List.filter_cons_of_pos hkept, List.foldl_cons]
      congr 1
      by_cases hmem : finding ∈ findings
      · have hfiltered : finding ∈ findings.filter isKept := List.mem_filter.2 ⟨hmem, hkept⟩
        rw [if_pos hmem, if_pos hfiltered]
      · have hfiltered : finding ∉ findings.filter isKept := fun h => hmem (List.mem_filter.1 h).1
        rw [if_neg hmem, if_neg hfiltered]
        simp [hkept]
    · -- A finding that is left out leaves no trace among those that are kept.
      rw [List.filter_cons_of_neg hkept]
      congr 1
      split
      · rfl
      · simp [hkept]

/-! ## Accesses and operations -/

/-- A finding says the class that it was made for. -/
private theorem Model.findingClass_of_finding {m : Model} {access : MemberAccess}
    {findingClass : FindingClass} {finding : Finding}
    (h : m.finding access findingClass = .ok finding) : finding.findingClass = findingClass := by
  unfold Model.finding at h
  split at h
  · cases h
  · cases h
    rfl

section

variable {listed all : AnalysisOptions} (hpolicy : listed.policy = all.policy)
  (hall : ∀ findingClass, all.reports findingClass)

include hpolicy hall

/-- The finding about an access is the one among all classes, unless its class is not reported. -/
theorem findingOf?_filter (m : Model) (access : MemberAccess) :
    findingOf? listed m access =
      (findingOf? all m access).filter fun finding => listed.reports finding.findingClass := by
  unfold findingOf?
  rw [hpolicy]
  cases m.copyClass? all.policy access with
  | none => rfl
  | some findingClass =>
    simp only [Option.filter_some, hall, if_true, Option.bind_some]
    cases hfinding : m.finding access findingClass with
    | error error => split <;> simp [hfinding, Except.toOption]
    | ok finding =>
      -- The finding has the class that it was made with, so either may be tested.
      have hclass : finding.findingClass = findingClass := Model.findingClass_of_finding hfinding
      simp only [Except.toOption, Option.filter_some, hclass]
      split <;> simp [hfinding]

/-- The findings of an operation are those among all classes whose class is reported. -/
private theorem operationFindings_filter (m : Model) (id : OpId) :
    operationFindings listed m id =
      (operationFindings all m id).filter fun finding => listed.reports finding.findingClass := by
  have haccess : findingOf? listed m = fun access =>
      (findingOf? all m access).filter fun finding => listed.reports finding.findingClass :=
    funext (findingOf?_filter hpolicy hall m)
  rw [operationFindings, operationFindings, filter_foldl_collect, List.filter_filterMap, haccess,
    hpolicy]
  rfl

/-! ## Trees -/

/-- The findings of a tree are those among all classes whose class is reported, also if the tree is
    skipped because there is no such class. -/
theorem treeFindings_filter (symbols : SymbolTable) (tree : Tree) :
    treeFindings listed symbols tree =
      (treeFindings all symbols tree).filter fun finding =>
        listed.reports finding.findingClass := by
  have hanything : all.reportsAnything := by
    simp [AnalysisOptions.reportsAnything, FindingClass.all, hall]
  rw [treeFindings, treeFindings, if_pos hanything]
  by_cases hlisted : listed.reportsAnything
  · rw [if_pos hlisted, List.filter_flatMap]
    congr 1
    funext id
    exact operationFindings_filter hpolicy hall { symbols, tree } id
  · -- The tree is skipped, and indeed no class would let a finding through.
    have hnone : ∀ findingClass, listed.reports findingClass = false := by
      simp only [AnalysisOptions.reportsAnything, List.any_eq_true, not_exists, not_and,
        Bool.not_eq_true] at hlisted
      intro findingClass
      exact hlisted findingClass (by cases findingClass <;> simp [FindingClass.all])
    rw [if_neg hlisted]
    simp [hnone]

end

/-! ## Include-lists -/

/-- An include-list only filters.  Under the options of any include-list and any policy, the
    findings of an operation are, in order, those findings under the same policy without a list
    whose class is reported.  The run over a tree reports those findings of the run without a list
    whose class is reported; this is so as well if no class is reported and the tree is skipped. -/
theorem findings_of_includeList {symbols : SymbolTable} (hreachable : symbols.Reachable)
    (tree : Tree) (text : String) (policy : CopyPolicy) :
    (∀ id, ∃ findings,
      analyzeOperation (AnalysisOptions.withPolicy {} policy) { symbols, tree } .live id =
        .ok findings ∧
      analyzeOperation ((AnalysisOptions.ofIncludeList text).withPolicy policy) { symbols, tree }
        .live id =
          .ok (findings.filter fun finding =>
            ((AnalysisOptions.ofIncludeList text).withPolicy policy).reports
              finding.findingClass)) ∧
    ∃ full part,
      (analyzeTree (AnalysisOptions.withPolicy {} policy) symbols .live tree).collect = .ok full ∧
      (analyzeTree ((AnalysisOptions.ofIncludeList text).withPolicy policy) symbols .live
        tree).collect = .ok part ∧
      part.entries = full.entries.filter fun finding =>
        ((AnalysisOptions.ofIncludeList text).withPolicy policy).reports finding.findingClass := by
  have hanswers := hreachable.answersGenerated
  have hpolicy : ((AnalysisOptions.ofIncludeList text).withPolicy policy).policy =
      (AnalysisOptions.withPolicy {} policy).policy := rfl
  -- The empty options report every class.
  have hall : ∀ findingClass, (AnalysisOptions.withPolicy {} policy).reports findingClass :=
    fun _ => rfl
  refine ⟨fun id => ⟨_, analyzeOperation_eq_ok (m := { symbols, tree }) hanswers _ id, ?_⟩, ?_⟩
  · rw [analyzeOperation_eq_ok (m := { symbols, tree }) hanswers]
    rw [operationFindings_filter hpolicy hall]
  · exact ⟨_, _, collect_analyzeTree hanswers _ tree, collect_analyzeTree hanswers _ tree,
      treeFindings_filter hpolicy hall symbols tree⟩

/-- A struct and an enumeration with a method each, and variables that refer to such values and may
    only be read.  Calls on values of the enumeration make unnecessary copies. -/
def lampCalls : List RegistrationCall :=
  [.addType { name := "Lamp", kind := .structType },
   .addType { name := "Color", kind := .enumType },
   .addMethod { name := "Switch", containingType := some (.ofParts .type 1) },
   .addMethod { name := "Mix", containingType := some (.ofParts .type 2) },
   .addSlot { name := "lamp", refKind := .byRefReadOnly, type := some (.ofParts .type 1) },
   .addSlot { name := "color", refKind := .byRefReadOnly, type := some (.ofParts .type 2) }]

/-- The symbols of the example. -/
def lampTable : SymbolTable := RegistrationCall.runAll lampCalls {}

/-- A document that calls both methods. -/
def lampTree : Tree :=
  (Tree.ofScript lampTable "Lamp"
    [.add true (.slot (.ofParts .slot 1)),
     .add true (.call (.ofParts .method 1) (some ⟨0⟩) []),
     .add true (.slot (.ofParts .slot 2)),
     .add true (.call (.ofParts .method 2) (some ⟨2⟩) [])]).2

/-- Of a necessary and an unnecessary copy, a list with one of the identifiers and an unknown one
    leaves the unnecessary copy, and a list with the unknown one alone leaves none. -/
theorem findings_of_includeList_lamp :
    lampTable.Reachable ∧
    (∃ full part,
      (analyzeTree (AnalysisOptions.withPolicy {} {}) lampTable .live lampTree).collect =
        .ok full ∧
      (analyzeTree ((AnalysisOptions.ofIncludeList " HAM0003;x").withPolicy {}) lampTable .live
        lampTree).collect = .ok part ∧
      full.entries.map (·.findingClass) = [.necessary, .unnecessary] ∧
      part.entries.map (·.findingClass) = [.unnecessary] ∧
      part.entries = full.entries.filter fun finding =>
        ((AnalysisOptions.ofIncludeList " HAM0003;x").withPolicy {}).reports
          finding.findingClass) ∧
    ((AnalysisOptions.ofIncludeList "x").withPolicy {}).reportsAnything = false := by
  have hfresh : ∀ call ∈ lampCalls, call.IsFresh := by
    simp [lampCalls, RegistrationCall.IsFresh]
  have hreachable : lampTable.Reachable := SymbolTable.Reachable.empty.runAll hfresh
  obtain ⟨-, full, part, hfull, hpart, hentries⟩ :=
    findings_of_includeList hreachable lampTree " HAM0003;x" {}
  -- One call may write and one may not, so there is a finding of each class.
  have hclasses : (analyzeTree (AnalysisOptions.withPolicy {} {}) lampTable .live
      lampTree).collect.toOption.map (·.entries.map (·.findingClass)) =
        some [.necessary, .unnecessary] := by
    decide +kernel
  have hclass : (analyzeTree ((AnalysisOptions.ofIncludeList " HAM0003;x").withPolicy {}) lampTable
      .live lampTree).collect.toOption.map (·.entries.map (·.findingClass)) =
        some [.unnecessary] := by
    decide +kernel
  rw [hfull] at hclasses
  rw [hpart] at hclass
  exact ⟨hreachable, ⟨full, part, hfull, hpart, Option.some.inj hclasses, Option.some.inj hclass,
    hentries⟩, by decide +kernel⟩

end DefensiveCopy
