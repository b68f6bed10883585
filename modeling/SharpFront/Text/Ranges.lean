/-!
# Ranges of code points

A character class is a list of closed ranges in ascending order.
-/

namespace SharpFront.Text

/-- Closed ranges of code points, ascending and disjoint. -/
abbrev Ranges := List (Nat × Nat)

namespace Ranges

/-- The search stops at the first range that begins past `n`: no later one reaches back. -/
def contains : Ranges → Nat → Bool
  | [], _ => false
  | (lo, hi) :: rest, n => if n < lo then false else n ≤ hi || contains rest n

end Ranges

end SharpFront.Text
