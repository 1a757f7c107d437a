/-!
# Powers of two and of ten

The scales of the two notations in which numbers are held and written.

    pow2 (a + b) = pow2 a * pow2 b
    pow10 (a + b) = pow10 a * pow10 b
-/

namespace RecordFilter

/-- Two to the power of `n`. -/
def pow2 (n : Nat) : Nat := Nat.pow 2 n

/-- Ten to the power of `n`. -/
def pow10 (n : Nat) : Nat := Nat.pow 10 n

theorem pow2_pos (n : Nat) : 0 < pow2 n := Nat.pow_pos (by decide)

theorem pow10_pos (n : Nat) : 0 < pow10 n := Nat.pow_pos (by decide)

theorem pow2_add (a b : Nat) : pow2 (a + b) = pow2 a * pow2 b := Nat.pow_add 2 a b

theorem pow10_add (a b : Nat) : pow10 (a + b) = pow10 a * pow10 b := Nat.pow_add 10 a b

end RecordFilter
