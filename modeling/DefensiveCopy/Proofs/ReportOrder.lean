import DefensiveCopy.Finding.Report
import Mathlib.Order.Compare

/-!
# The order of findings

Findings are compared by document, span, class, member and receiver, one after the other.  These are
all the parts that a finding has, so two findings are equal in the order only if they are the same.
A list that is in order is then determined by what it contains, repetitions counted: the sorted view
of a report, and with it the summary, does not depend on the order in which the findings came in.

## Key results

- `Finding.order_eq_eq_iff`: findings that are equal in the order are the same
- `Report.eq_sorted_iff`: the sorted view is the only arrangement of the entries that is in order
- `Report.views_eq_of_perm`: reports with the same entries in any order look the same
-/

namespace DefensiveCopy

/-- Different classes have different ranks. -/
private theorem FindingClass.rank_injective {first second : FindingClass}
    (h : first.rank = second.rank) : first = second := by
  cases first <;> cases second <;> simp_all [rank]

namespace Finding

/-! ## A total order -/

instance : Std.TransCmp order := by
  unfold order
  infer_instance

/-- The order compares all parts of a finding, so findings that are equal in it are the same. -/
theorem order_eq_eq_iff {first second : Finding} :
    first.order second = .eq ↔ first = second := by
  constructor
  · intro h
    simp only [order, compareLex_eq_eq, compareOn, Std.LawfulEqOrd.compare_eq_iff_eq] at h
    obtain ⟨hdocument, hstart, hstop, hrank, hmember, hreceiver⟩ := h
    -- The class is compared by its rank.
    have hclass := FindingClass.rank_injective hrank
    obtain ⟨⟨document, start, stop⟩, findingClass, member, receiver⟩ := first
    obtain ⟨⟨document', start', stop'⟩, findingClass', member', receiver'⟩ := second
    simp_all
  · rintro rfl
    exact Std.ReflCmp.compare_self

/-- Coming before is transitive. -/
theorem isBefore_trans {first second third : Finding} (hfirst : first.isBefore second)
    (hsecond : second.isBefore third) : first.isBefore third :=
  Std.TransCmp.isLE_trans hfirst hsecond

/-- Of two findings one comes before the other. -/
private theorem isBefore_total (first second : Finding) :
    (first.isBefore second || second.isBefore first) = true := by
  have hswap : second.order first = (first.order second).swap := Std.OrientedCmp.eq_swap
  unfold isBefore
  rw [hswap]
  cases first.order second <;> rfl

/-- Findings that come before each other are the same. -/
private theorem eq_of_isBefore {first second : Finding} (hfirst : first.isBefore second)
    (hsecond : second.isBefore first) : first = second :=
  order_eq_eq_iff.1 (Std.OrientedCmp.isLE_antisymm hfirst hsecond)

end Finding

/-! ## Views of a report -/

namespace Report

/-- The sorted view is in order. -/
private theorem pairwise_sorted (report : Report) :
    report.sorted.Pairwise fun first second => first.isBefore second := by
  have htrans : ∀ first second third : Finding, first.isBefore second → second.isBefore third →
      first.isBefore third := fun _ _ _ => Finding.isBefore_trans
  exact List.pairwise_mergeSort htrans Finding.isBefore_total report.entries

/-- Sorting loses no entry and makes none. -/
private theorem sorted_perm (report : Report) : report.sorted.Perm report.entries :=
  List.mergeSort_perm report.entries Finding.isBefore

/-- The sorted view is the only arrangement of the entries that is in order. -/
theorem eq_sorted_iff {report : Report} {findings : List Finding} :
    findings = report.sorted ↔
      findings.Perm report.entries ∧
        findings.Pairwise fun first second => first.isBefore second := by
  constructor
  · rintro rfl
    exact ⟨report.sorted_perm, report.pairwise_sorted⟩
  · rintro ⟨hperm, hpairwise⟩
    have hsame : findings.Perm report.sorted := hperm.trans report.sorted_perm.symm
    exact List.Perm.eq_of_pairwise (fun _ _ _ _ => Finding.eq_of_isBefore) hpairwise
      report.pairwise_sorted hsame

/-- Reports with the same entries, in whatever order they came in, have the same sorted view, the
    same summary and the same counts. -/
theorem views_eq_of_perm {first second : Report} (h : first.entries.Perm second.entries) :
    first.sorted = second.sorted ∧ first.summary = second.summary ∧
      first.count = second.count ∧
        ∀ findingClass, first.countOf findingClass = second.countOf findingClass := by
  -- There is one arrangement in order, and both views are it.
  have hsorted : first.sorted = second.sorted :=
    eq_sorted_iff.2 ⟨first.sorted_perm.trans h, first.pairwise_sorted⟩
  refine ⟨hsorted, ?_, h.length_eq, fun findingClass => h.countP_eq _⟩
  unfold summary
  rw [hsorted]

end Report

end DefensiveCopy
