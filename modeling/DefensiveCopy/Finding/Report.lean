import DefensiveCopy.Finding.Basic

/-! # Reports

The findings reported so far, in the order in which they came in.  The sorted view does not depend
on that order. -/

namespace DefensiveCopy

/-- The findings reported so far. -/
structure Report where
  entries : List Finding := []
  deriving DecidableEq, Inhabited

namespace Report

/-- The report with one more finding. -/
def add (report : Report) (finding : Finding) : Report := ⟨report.entries ++ [finding]⟩

/-- The number of findings. -/
def count (report : Report) : Nat := report.entries.length

def isEmpty (report : Report) : Bool := report.count == 0

/-- The number of findings of one class. -/
def countOf (report : Report) (findingClass : FindingClass) : Nat :=
  report.entries.countP (·.findingClass == findingClass)

/-- The findings in ascending order. -/
def sorted (report : Report) : List Finding := report.entries.mergeSort Finding.isBefore

/-- The findings in ascending order, one on a line. -/
def summary (report : Report) : String := "\n".intercalate (report.sorted.map Finding.render)

end Report

end DefensiveCopy
