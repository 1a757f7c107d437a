/-!
# Ranges of characters

Properties of characters are given as rising lists of ranges of code points.
-/

namespace RecordFilter

/-- Whether a code point lies in one of the ranges, which rise and do not overlap. -/
def inRanges (n : Nat) : List (Nat × Nat) → Bool
  | [] => false
  | (low, high) :: rs => if n < low then false else n ≤ high || inRanges n rs

end RecordFilter
