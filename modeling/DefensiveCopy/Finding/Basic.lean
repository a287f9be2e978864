import DefensiveCopy.Finding.Class
import DefensiveCopy.Operation.Basic

/-! # Findings

A finding says that a member runs on a copy of a receiver, and where.  Findings are ordered by
document, span, class, member and receiver, so that two findings are equal in the order only if they
are the same. -/

namespace DefensiveCopy

/-- Where a finding points at. -/
structure Location where
  document : String
  span : Span
  deriving DecidableEq, Inhabited

namespace Location

def render (location : Location) : String := location.document ++ "@" ++ location.span.render

end Location

/-- A copy that was found. -/
structure Finding where
  location : Location
  findingClass : FindingClass
  member : String
  receiver : String
  deriving DecidableEq, Inhabited

namespace Finding

/-- The message of a finding. -/
def message (finding : Finding) : String :=
  finding.findingClass.descriptor.format finding.member finding.receiver

/-- A finding on one line: severity, short identifier, category, message and location. -/
def render (finding : Finding) : String :=
  let descriptor := finding.findingClass.descriptor
  "[" ++ descriptor.severity.name ++ "] " ++ descriptor.diagnosticId ++ " " ++
    descriptor.category.name ++ ": " ++ finding.message ++ " (" ++ finding.location.render ++ ")"

/-- The order of findings. -/
def order : Finding → Finding → Ordering :=
  compareLex (compareOn (·.location.document)) <|
  compareLex (compareOn (·.location.span.start)) <|
  compareLex (compareOn (·.location.span.stop)) <|
  compareLex (compareOn (·.findingClass.rank)) <|
  compareLex (compareOn (·.member)) (compareOn (·.receiver))

/-- The finding comes before the other or is equal to it. -/
def isBefore (finding other : Finding) : Bool := (finding.order other).isLE

end Finding

end DefensiveCopy
