/-!
# Ranges of code points

A character class is a list of closed ranges of code points in increasing order.
-/

set_option autoImplicit false
set_option relaxedAutoImplicit false

namespace MarkupBinding.Text

/-- The number lies in one of the closed ranges, which are in increasing order. -/
def inRanges : List (Nat × Nat) → Nat → Bool
  | [], _ => false
  | (low, high) :: rest, n =>
    if n < low then false else if n ≤ high then true else inRanges rest n

end MarkupBinding.Text
