/-
Classes of characters as tables of code points.

A table lists inclusive ranges in increasing order; membership is all that is
asked of it.
-/

set_option autoImplicit false

namespace SourceDrift.Text

/-- Whether a number lies in one of the ranges. -/
def inRanges (ranges : List (Nat × Nat)) (n : Nat) : Bool :=
  ranges.any fun r => r.1 ≤ n && n ≤ r.2

end SourceDrift.Text
