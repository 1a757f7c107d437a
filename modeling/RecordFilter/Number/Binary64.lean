import RecordFilter.Number.Power

/-!
# Binary64 numbers, exactly

A finite binary64 number is a whole count of units of `2 ^ -1074`, the smallest
positive number of the format, so every question about finite numbers is a
question about integers.  `Magnitude.ofRatio?` is the one place where a number
is rounded: it takes the grid point nearest to a ratio, a half going to the even
significand, and gives `none` where the ratio is too large.

    Magnitude.ofRatio? (m.units) 1 = some m      (a grid point is its own rounding)
    compare? a b = none ↔ a = nan ∨ b = nan
-/

namespace RecordFilter

/-! ## Grid points -/

/-- A magnitude of the grid: `significand · 2 ^ shift` units of `2 ^ -1074`. -/
structure Magnitude where
  significand : Nat
  shift : Nat
  significand_lt : significand < 0x20000000000000
  shift_le : shift ≤ 2045
  normal : shift = 0 ∨ 0x10000000000000 ≤ significand
  deriving DecidableEq

namespace Magnitude

/-- The magnitude as a count of units of `2 ^ -1074`. -/
def units (m : Magnitude) : Nat := m.significand * pow2 m.shift

def zero : Magnitude := ⟨0, 0, by decide, by decide, .inl rfl⟩

end Magnitude

/-- The quotient rounded to a whole number, a half going to the even neighbour. -/
def divEven (num den : Nat) : Nat :=
  let twice := 2 * (num % den)
  if twice < den then num / den
  else if den < twice then num / den + 1
  else num / den + num / den % 2

theorem div_le_divEven (num den : Nat) : num / den ≤ divEven num den := by
  simp only [divEven]; split
  · exact Nat.le_refl _
  · split <;> omega

/-- How far the significand of a count of units has to be shifted to fit 53 bits. -/
def shiftOf (units : Nat) : Nat := units.log2 - 52

theorem shiftOf_normal (num den : Nat) :
    shiftOf (num / den) = 0 ∨ 0x10000000000000 ≤ divEven num (den * pow2 (shiftOf (num / den))) := by
  rcases Nat.eq_zero_or_pos (shiftOf (num / den)) with h | h
  · exact .inl h
  · refine .inr (Nat.le_trans ?_ (div_le_divEven _ _))
    have hq : num / den ≠ 0 := by
      intro h0; rw [h0] at h; exact absurd h (by decide)
    have hl : pow2 (num / den).log2 ≤ num / den := Nat.log2_self_le hq
    have he : (num / den).log2 = 52 + shiftOf (num / den) := by simp only [shiftOf] at h ⊢; omega
    rw [← Nat.div_div_eq_div_mul, Nat.le_div_iff_mul_le (pow2_pos _)]
    rw [he, pow2_add] at hl
    exact hl

/-- The grid point nearest to `num / den` units; `none` from half a step above the last one on. -/
def Magnitude.ofRatio? (num den : Nat) : Option Magnitude :=
  let shift := shiftOf (num / den)
  let rounded := divEven num (den * pow2 shift)
  if hm : rounded < 0x20000000000000 then
    if hs : shift ≤ 2045 then some ⟨rounded, shift, hm, hs, shiftOf_normal num den⟩ else none
  else if hs : shift + 1 ≤ 2045 then
    some ⟨0x10000000000000, shift + 1, by decide, hs, .inr (Nat.le_refl _)⟩
  else none

namespace Magnitude

/-- The product of two magnitudes, rounded. -/
def mul? (a b : Magnitude) : Option Magnitude := ofRatio? (a.units * b.units) (pow2 1074)

/-- The quotient of two magnitudes, rounded. -/
def div? (a b : Magnitude) : Option Magnitude := ofRatio? (a.units * pow2 1074) b.units

/-- The natural number `n`, rounded. -/
def ofNat? (n : Nat) : Option Magnitude := ofRatio? (n * pow2 1074) 1

end Magnitude

/-! ## Numbers -/

/-- A number of the binary64 format; one not-a-number stands for them all. -/
inductive Binary64
  | nan
  | infinite (negative : Bool)
  | finite (negative : Bool) (magnitude : Magnitude)
  deriving DecidableEq

namespace Binary64

def zero : Binary64 := finite false .zero

def one : Binary64 := finite false ⟨0x10000000000000, 1022, by decide, by decide, by decide⟩

/-- A rounded magnitude with its sign; a magnitude too large is an infinity. -/
def ofMagnitude? (negative : Bool) : Option Magnitude → Binary64
  | some m => finite negative m
  | none => infinite negative

/-- The integer `n`, rounded. -/
def ofInt (n : Int) : Binary64 := ofMagnitude? (n < 0) (Magnitude.ofNat? n.natAbs)

def isNan : Binary64 → Bool
  | nan => true
  | _ => false

def isFinite : Binary64 → Bool
  | finite _ _ => true
  | _ => false

/-- The signed count of units of `2 ^ -1074`. -/
def signed (negative : Bool) (m : Magnitude) : Int :=
  if negative then -(m.units : Int) else m.units

/-- The order of two numbers: both zeros are one number, and `nan` has no place in it. -/
def compare? : Binary64 → Binary64 → Option Ordering
  | nan, _ => none
  | _, nan => none
  | infinite a, infinite b => some (if a = b then .eq else if a then .lt else .gt)
  | infinite a, finite _ _ => some (if a then .lt else .gt)
  | finite _ _, infinite b => some (if b then .gt else .lt)
  | finite a m, finite b n => some (compare (signed a m) (signed b n))

/-- Numerical equality: `nan` equals nothing and the two zeros are equal. -/
def equal (a b : Binary64) : Bool := a.compare? b == some .eq

end Binary64

end RecordFilter
