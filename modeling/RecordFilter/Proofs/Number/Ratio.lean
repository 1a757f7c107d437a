import RecordFilter.Proofs.Number.Rounding
import Mathlib.Algebra.Order.Field.Basic
import Mathlib.Algebra.Order.Ring.Rat
import Mathlib.Data.Rat.Cast.Order
import Mathlib.Tactic.Linarith
import Mathlib.Tactic.NormNum
import Mathlib.Tactic.Positivity
import Mathlib.Tactic.Ring

/-!
# Numbers as fractions

The rational number that a finite binary64 number is.  The order of numbers is the
order of these, a number that is not whole keeps a distance from every whole number,
and an integer is rounded to a number of its sign that is nearly as large.

    (finite a m).compare? (finite b n) = some (compare (ratio a m) (ratio b n))   (compare?_finite)
    m.value ≠ n → m.value < 2 ^ 53 * |m.value - n|                                (gap)
-/

namespace RecordFilter

/-! ## Powers -/

theorem cast_pow2 (n : Nat) : ((pow2 n : Nat) : ℚ) = 2 ^ n := Nat.cast_pow 2 n

theorem cast_pow10 (n : Nat) : ((pow10 n : Nat) : ℚ) = 10 ^ n := Nat.cast_pow 10 n

/-! ## Orders -/

/-- Numbers that lie to each other in the same way have the same order. -/
theorem compare_eq_compare {α β : Type} [LinearOrder α] [LinearOrder β] {a b : α} {c d : β}
    (hlt : a < b ↔ c < d) (heq : a = b ↔ c = d) : compare a b = compare c d := by
  cases h : compare c d with
  | lt => exact compare_lt_iff_lt.2 (hlt.2 (compare_lt_iff_lt.1 h))
  | eq => exact compare_eq_iff_eq.2 (heq.2 (compare_eq_iff_eq.1 h))
  | gt =>
    have hdc := compare_gt_iff_gt.1 h
    exact compare_gt_iff_gt.2 (lt_of_le_of_ne (not_lt.1 (mt hlt.1 (not_lt_of_gt hdc)))
      (fun hba => hdc.ne (heq.1 hba.symm).symm))

theorem compare_neg (a b : ℚ) : compare (-a) (-b) = compare b a :=
  compare_eq_compare neg_lt_neg_iff (neg_inj.trans eq_comm)

/-- Fractions are compared crosswise. -/
theorem compare_div (a b : Int) {p q : Nat} (hp : 0 < p) (hq : 0 < q) :
    compare (a * (q : Int)) (b * p) = compare ((a : ℚ) / p) (b / q) := by
  have hp' : (0 : ℚ) < p := Nat.cast_pos.2 hp
  have hq' : (0 : ℚ) < q := Nat.cast_pos.2 hq
  refine compare_eq_compare ?_ ?_
  · rw [div_lt_div_iff₀ hp' hq']
    exact_mod_cast Iff.rfl
  · rw [div_eq_div_iff hp'.ne' hq'.ne']
    exact_mod_cast Iff.rfl

/-! ## Signs -/

/-- A number of the given size. -/
def withSign (negative : Bool) (a : ℚ) : ℚ := if negative then -a else a

theorem abs_withSign {a : ℚ} (h : 0 ≤ a) (negative : Bool) : |withSign negative a| = a := by
  cases negative with
  | false => exact abs_of_nonneg h
  | true => exact (abs_neg a).trans (abs_of_nonneg h)

theorem withSign_inj {negative : Bool} {a b : ℚ} :
    withSign negative a = withSign negative b ↔ a = b := by
  cases negative with
  | false => rfl
  | true => exact neg_inj

/-! ## Magnitudes -/

namespace Magnitude

/-- The number that a magnitude stands for. -/
def value (m : Magnitude) : ℚ := m.units / 2 ^ 1074

theorem value_nonneg (m : Magnitude) : 0 ≤ m.value := by
  unfold value
  positivity

variable {m : Magnitude}

theorem value_of_le {k : Nat} (hk : m.shift + k = 1074) : m.value = m.significand / 2 ^ k := by
  have h2 : (2 : ℚ) ^ 1074 = 2 ^ m.shift * 2 ^ k := by rw [← pow_add, hk]
  rw [value, units, Nat.cast_mul, cast_pow2, h2, mul_comm (m.significand : ℚ),
    mul_div_mul_left _ _ (by positivity)]

theorem value_of_units {n : Nat} (h : m.units = n * pow2 1074) : m.value = n := by
  rw [value, h, Nat.cast_mul, cast_pow2, mul_div_cancel_right₀ _ (by positivity)]

theorem value_of_ge {k : Nat} (hk : m.shift = 1074 + k) :
    m.value = (m.significand * pow2 k : Nat) := by
  refine value_of_units ?_
  rw [units, hk, Nat.add_comm, pow2_add, Nat.mul_assoc]

/-- A number with `k` binary places is a part of itself away from every whole number but itself. -/
theorem gap {k : Nat} (hk : m.shift + k = 1074) {n : Nat} (hne : m.value ≠ n) :
    m.value < 2 ^ 53 * |m.value - n| := by
  have hp : (0 : ℚ) < 2 ^ k := by positivity
  -- the distance is a whole count of the last place
  have hone : (1 : ℚ) ≤ |(m.significand : ℚ) - n * 2 ^ k| := by
    have hint : (m.significand : ℤ) - n * pow2 k ≠ 0 := by
      intro h
      apply hne
      rw [value_of_le hk, div_eq_iff hp.ne', ← cast_pow2]
      exact_mod_cast sub_eq_zero.1 h
    have hcast : |(m.significand : ℚ) - n * 2 ^ k| =
        ((|(m.significand : ℤ) - n * pow2 k| : ℤ) : ℚ) := by
      rw [← cast_pow2]
      push_cast
      rfl
    rw [hcast]
    exact_mod_cast Int.one_le_abs hint
  have hlt : (m.significand : ℚ) < 2 ^ 53 := by exact_mod_cast m.significand_lt
  have hdiff : m.value - n = (m.significand - n * 2 ^ k) / 2 ^ k := by
    rw [value_of_le hk, sub_div, mul_div_cancel_right₀ _ hp.ne']
  rw [hdiff, abs_div, abs_of_pos hp, value_of_le hk, mul_div_assoc']
  refine div_lt_div_of_pos_right ?_ hp
  calc (m.significand : ℚ) < 2 ^ 53 * 1 := by rw [mul_one]; exact hlt
    _ ≤ 2 ^ 53 * |(m.significand : ℚ) - n * 2 ^ k| :=
        mul_le_mul_of_nonneg_left hone (by positivity)

end Magnitude

/-! ## Binary64 numbers -/

namespace Binary64

/-- The rational number that a finite number is. -/
def ratio (negative : Bool) (m : Magnitude) : ℚ := withSign negative m.value

theorem abs_ratio (negative : Bool) (m : Magnitude) : |ratio negative m| = m.value :=
  abs_withSign m.value_nonneg negative

theorem ratio_eq (negative : Bool) (m : Magnitude) :
    ratio negative m = signed negative m / 2 ^ 1074 := by
  unfold ratio withSign signed Magnitude.value
  split
  · push_cast
    rw [neg_div]
  · push_cast
    rfl

theorem compare?_finite (a b : Bool) (m n : Magnitude) :
    (finite a m).compare? (finite b n) = some (compare (ratio a m) (ratio b n)) := by
  have hp : (0 : ℚ) < 2 ^ 1074 := by positivity
  show some (compare (signed a m) (signed b n)) = _
  rw [ratio_eq, ratio_eq]
  refine congrArg some (compare_eq_compare ?_ ?_)
  · rw [div_lt_div_iff_of_pos_right hp, Int.cast_lt]
  · rw [div_left_inj' hp.ne', Int.cast_inj]

/-! ## Integers -/

/-- An integer is rounded to a number of its sign, at most one part in `2 ^ 53` off. -/
theorem exists_ofInt {n : Int} (h : n.natAbs < pow2 65) :
    ∃ m, ofInt n = finite (n < 0) m ∧ m.value ≤ (1 + 1 / 2 ^ 53) * n.natAbs ∧
      (1 - 1 / 2 ^ 53) * n.natAbs ≤ m.value := by
  obtain ⟨m, hm⟩ := Option.isSome_iff_exists.1 (Magnitude.ofNat?_isSome h)
  refine ⟨m, by rw [ofInt, hm]; rfl, ?_⟩
  obtain ⟨hle, hge⟩ := Magnitude.units_near hm
  have hle' : (0x20000000000000 : ℚ) * m.units ≤ 0x20000000000001 * (n.natAbs * 2 ^ 1074) := by
    rw [← cast_pow2]
    exact_mod_cast hle
  have hge' : (0x1FFFFFFFFFFFFF : ℚ) * (n.natAbs * 2 ^ 1074) ≤ 0x20000000000000 * m.units := by
    rw [← cast_pow2]
    exact_mod_cast hge
  have hp : (0 : ℚ) < 2 ^ 1074 := by positivity
  rw [Magnitude.value, div_le_iff₀ hp, le_div_iff₀ hp, mul_assoc, mul_assoc]
  generalize (n.natAbs : ℚ) * 2 ^ 1074 = units at *
  constructor <;> linarith

/-- A small whole number is the rounding of itself only. -/
theorem eq_of_compare?_ofInt {n : Int} (h : n.natAbs < pow2 65) {k : Magnitude} {a : Nat}
    (ha : a < 2 ^ 52) (hk : k.value = a) (heq : (finite false k).compare? (ofInt n) = some .eq) :
    n = a := by
  obtain ⟨m, hm, hle, hge⟩ := exists_ofInt h
  rw [hm, compare?_finite, Option.some.injEq, compare_eq_iff_eq] at heq
  have hkr : ratio false k = a := hk
  have hsize : m.value = a := by
    rw [← abs_ratio (n < 0), ← heq, hkr, abs_of_nonneg (Nat.cast_nonneg a)]
  rw [hsize] at hle hge
  have ha' : (a : ℚ) < 2 ^ 52 := by exact_mod_cast ha
  have habs : n.natAbs = a := by
    have hlt : (n.natAbs : ℚ) < a + 1 := by linarith
    have hgt : (a : ℚ) < n.natAbs + 1 := by linarith
    have hlt' : n.natAbs < a + 1 := by exact_mod_cast hlt
    have hgt' : a < n.natAbs + 1 := by exact_mod_cast hgt
    omega
  have hsign : 0 ≤ n := by
    by_contra hneg
    have hr : ratio (decide (n < 0)) m = -m.value := by
      rw [decide_eq_true (by omega : n < 0)]
      rfl
    have hpos : (0 : ℚ) < a := by exact_mod_cast (by omega : 0 < a)
    rw [hkr, hr, hsize] at heq
    linarith
  omega

end Binary64

end RecordFilter
