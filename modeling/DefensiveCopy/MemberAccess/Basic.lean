import DefensiveCopy.Operation.Basic

/-! # Member accesses

One call of a member on a receiver, as an operation performs it. -/

namespace DefensiveCopy

/-- A member that runs on a receiver. -/
structure MemberAccess where
  /-- The expression that the member runs on. -/
  receiver : OpId
  /-- The method or accessor that runs. -/
  target : Token
  /-- The operation that a finding points at. -/
  location : OpId
  /-- How the member is called in a finding, if not by the name of the target. -/
  displayName : Option String := none
  /-- The access is looked at even if the target or the type of the receiver is read-only. -/
  isForced : Bool := false
  deriving DecidableEq, Inhabited

end DefensiveCopy
