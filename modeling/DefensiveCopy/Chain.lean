/-! # Following links without running in circles

A chain is what one sees by following a link from item to item: base types, enclosing types.  Links
may run in circles, so a chain stops before the first item that it has already passed, and after
`limit` items in any case. -/

namespace DefensiveCopy

variable {α : Type} [DecidableEq α]

/-- The items reached from `start` by following `next`: at most `fuel` of them, and none of the ones
    in `passed`. -/
def chainAvoiding (next : α → Option α) : Nat → List α → α → List α
  | 0, _, _ => []
  | fuel + 1, passed, start =>
    if start ∈ passed then []
    else
      start :: match next start with
        | some item => chainAvoiding next fuel (start :: passed) item
        | none => []

namespace Chain

/-- The longest chain that is followed. -/
def limit : Nat := 256

end Chain

/-- The chain of items from `start` along `next`. -/
def chain (next : α → Option α) (start : α) : List α :=
  chainAvoiding next Chain.limit [] start

end DefensiveCopy
