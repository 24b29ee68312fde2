import LiveComponent.Text.Basic

namespace LiveComponent

/-!
# Ranges of code points

A Unicode property is an ascending list of closed ranges of code points.
-/

/-- Whether `n` lies in one of the ascending closed ranges. -/
def inRanges (n : Nat) : List (Nat × Nat) → Bool
  | [] => false
  | (low, high) :: ranges => low ≤ n && (n ≤ high || inRanges n ranges)

end LiveComponent
