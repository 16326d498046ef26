import Mathlib

/-!
# The step line of an availability chart

The entries that `_availability_transitions` writes and
`_limit_availability_points` cuts down.
-/

namespace Justup.Charts

/-- One entry: `{"ts": …, "up": …}`, with the time in microseconds.  The state is
1 for up and 0 for down; there is none behind the last observation before a gap. -/
structure Entry where
  ts : ℤ
  up : Option ℤ
  observed : Bool := false
  deriving DecidableEq, Repr

/-- The entries that are not up: outages and gaps. -/
def Entry.isOutage (entry : Entry) : Bool := entry.up ≠ some 1

/-- The entries at the given positions, in ascending order of these. -/
def entriesAt (points : List Entry) (keep : Finset ℕ) : List Entry :=
  (points.zipIdx.filter fun numbered => decide (numbered.2 ∈ keep)).map Prod.fst

end Justup.Charts
