import RecordFilter.Proofs.Number.Faithful
import RecordFilter.Proofs.Value.Symmetry

/-!
# Integers against binary64 numbers

An integer and a finite number are compared as the rational numbers that they are,
except that zero equals every number below the threshold of the decimals: `5e-324`
equals `0`.  This one exception is exactly where the comparison is not exact.

    compareMixed? (integer n) (float (finite s m)) =
      some (mixedOrder n (ratio s m))                                      (compareMixed?_finite)
    ComparedExactly n s m ↔ ¬(n = 0 ∧ 0 < |ratio s m| < threshold)         (comparedExactly_iff)
-/

namespace RecordFilter

open Decimal28 (threshold)

/-- The least positive number of the format. -/
def Magnitude.least : Magnitude :=
  { zero with significand := 1, significand_lt := by decide, normal := .inl rfl }

namespace Value

variable (n : Int64) (negative : Bool) (m : Magnitude)

theorem natAbs_toInt_le : n.toInt.natAbs ≤ 2 ^ 63 := by
  have h1 := Int64.le_toInt n
  have h2 := Int64.toInt_lt n
  omega

/-! ## Order -/

/-- The order of an integer and a number: zero cannot be told from a number below the threshold. -/
def mixedOrder (r : ℚ) : Ordering :=
  if n.toInt = 0 ∧ |r| < threshold then .eq else compare (n.toInt : ℚ) r

/-- Beyond the decimals the integer is rounded, and still lies on its side of the number. -/
theorem compare?_ofInt_of_large {m : Magnitude} (hm : 2 ^ 96 ≤ m.value) :
    (Binary64.ofInt n.toInt).compare? (.finite negative m) =
      some (compare (n.toInt : ℚ) (Binary64.ratio negative m)) := by
  have hn := natAbs_toInt_le n
  obtain ⟨k, hk, hle, -⟩ := Binary64.exists_ofInt
    (Nat.lt_of_le_of_lt hn (by decide) : n.toInt.natAbs < pow2 65)
  have habs : (n.toInt.natAbs : ℚ) ≤ 2 ^ 63 := by exact_mod_cast hn
  have hint : |(n.toInt : ℚ)| ≤ 2 ^ 63 := by
    rw [← Int.cast_abs, Int.abs_eq_natAbs]
    exact habs
  have hrounded : |Binary64.ratio (n.toInt < 0) k| ≤ 2 ^ 64 := by
    rw [Binary64.abs_ratio]
    linarith
  obtain ⟨h1, h2⟩ := abs_le.1 hint
  obtain ⟨h3, h4⟩ := abs_le.1 hrounded
  rw [hk, Binary64.compare?_finite]
  refine congrArg some ?_
  cases negative with
  | false =>
    have hlarge : (2 : ℚ) ^ 96 ≤ Binary64.ratio false m := hm
    rw [compare_lt_iff_lt.2 (by linarith), compare_lt_iff_lt.2 (by linarith)]
  | true =>
    have hlarge : Binary64.ratio true m ≤ -2 ^ 96 := neg_le_neg hm
    rw [compare_gt_iff_gt.2 (by linarith), compare_gt_iff_gt.2 (by linarith)]

theorem compareMixed?_finite : compareMixed? (integer n) (float (.finite negative m)) =
    some (mixedOrder n (Binary64.ratio negative m)) := by
  have hn := natAbs_toInt_le n
  rw [mixedOrder, Binary64.abs_ratio]
  obtain ⟨d, hd, hs, hfaithful⟩ | ⟨hd, hlarge⟩ := Magnitude.ofMagnitude?_cases negative m
  · have hmixed : compareMixed? (integer n) (float (.finite negative m)) =
        some ((Decimal28.ofInt n.toInt).compare d) := by
      simp only [compareMixed?, decimal?, Decimal28.ofBinary64?, hd]
    rw [hmixed, Decimal28.compare_ofInt, Decimal28.ratio, hs,
      hfaithful.compare_withSign m.value_nonneg negative (by omega)]
    rfl
  · have hmixed : compareMixed? (integer n) (float (.finite negative m)) =
        (Binary64.ofInt n.toInt).compare? (.finite negative m) := by
      simp only [compareMixed?, decimal?, Decimal28.ofBinary64?, hd]
      rfl
    have ht : ¬(n.toInt = 0 ∧ m.value < threshold) := by
      rintro ⟨-, ht⟩
      have hbound : threshold < 2 ^ 96 := by unfold threshold; norm_num
      linarith
    rw [hmixed, compare?_ofInt_of_large n negative hlarge, if_neg ht]

theorem equalMixed_finite : equalMixed (integer n) (float (.finite negative m)) =
    (mixedOrder n (Binary64.ratio negative m)).isEq := by
  rw [equalMixed, compareMixed?_finite, some_beq_eq]

/-! ## Exactness -/

/-- An integer and a finite number are compared, in either order, as the rational numbers that they
are. -/
structure ComparedExactly : Prop where
  order? : (integer n).order? (float (.finite negative m)) =
    some (compare (n.toInt : ℚ) (Binary64.ratio negative m))
  order?_swap : (float (.finite negative m)).order? (integer n) =
    some (compare (Binary64.ratio negative m) (n.toInt : ℚ))
  looseEq : (integer n).looseEq (float (.finite negative m)) = true ↔
    (n.toInt : ℚ) = Binary64.ratio negative m
  looseEq_swap : (float (.finite negative m)).looseEq (integer n) = true ↔
    (n.toInt : ℚ) = Binary64.ratio negative m
  strictEq : (integer n).strictEq (float (.finite negative m)) = true ↔
    (n.toInt : ℚ) = Binary64.ratio negative m
  strictEq_swap : (float (.finite negative m)).strictEq (integer n) = true ↔
    (n.toInt : ℚ) = Binary64.ratio negative m

variable {n negative m}

theorem comparedExactly_of_mixedOrder
    (h : mixedOrder n (Binary64.ratio negative m) = compare (n.toInt : ℚ) (Binary64.ratio negative m)) :
    ComparedExactly n negative m := by
  have horder : (integer n).order? (float (.finite negative m)) =
      some (compare (n.toInt : ℚ) (Binary64.ratio negative m)) := by
    rw [← h]
    exact compareMixed?_finite n negative m
  have hstrict : (integer n).strictEq (float (.finite negative m)) = true ↔
      (n.toInt : ℚ) = Binary64.ratio negative m := by
    show equalMixed (integer n) (float (.finite negative m)) = true ↔ _
    rw [equalMixed_finite, h, Ordering.isEq_iff_eq_eq, compare_eq_iff_eq]
  have hloose : (integer n).looseEq (float (.finite negative m)) = true ↔
      (n.toInt : ℚ) = Binary64.ratio negative m := by
    rw [looseEq_eq_strictEq rfl, hstrict]
  refine ⟨horder, ?_, hloose, ?_, hstrict, ?_⟩
  · rw [Value.order?_swap, horder, Std.OrientedOrd.eq_swap (a := Binary64.ratio negative m)]
    rfl
  · rw [looseEq_comm, hloose]
  · rw [strictEq_comm, hstrict]

/-- Comparisons of integers with numbers are exact, except that zero equals the numbers below the
threshold. -/
theorem comparedExactly_iff (n : Int64) (negative : Bool) (m : Magnitude) :
    ComparedExactly n negative m ↔
      ¬(n = 0 ∧ 0 < |Binary64.ratio negative m| ∧ |Binary64.ratio negative m| < threshold) := by
  have hzero : n = 0 ↔ n.toInt = 0 := Int64.toInt_inj.symm
  rw [hzero]
  constructor
  · rintro h ⟨hn, hpos, hsmall⟩
    have horder := compareMixed?_finite n negative m
    rw [mixedOrder, if_pos ⟨hn, hsmall⟩] at horder
    have heq := Option.some.inj (horder.symm.trans h.order?)
    rw [eq_comm, compare_eq_iff_eq, hn, Int.cast_zero] at heq
    rw [← heq, abs_zero] at hpos
    exact lt_irrefl 0 hpos
  · intro h
    refine comparedExactly_of_mixedOrder ?_
    unfold mixedOrder
    split
    · rename_i hsmall
      have hr : Binary64.ratio negative m = 0 := by
        by_contra hne
        exact h ⟨hsmall.1, abs_pos.2 hne, hsmall.2⟩
      rw [hr, hsmall.1, eq_comm, compare_eq_iff_eq, Int.cast_zero]
    · rfl

example : (integer 0).looseEq (float (.finite false .least)) = true := by decide +kernel

theorem abs_ratio_least_pos : 0 < |Binary64.ratio false .least| := by
  rw [Binary64.abs_ratio, Magnitude.value]
  exact div_pos (Nat.cast_pos.2 (by decide)) (by positivity)

theorem abs_ratio_least_lt : |Binary64.ratio false .least| < threshold := by
  have hunits : Magnitude.least.units = 1 := rfl
  have hpow : (2 : ℚ) ^ 94 ≤ 2 ^ 1074 := pow_le_pow_right₀ (by norm_num) (by norm_num)
  rw [Binary64.abs_ratio, Magnitude.value, hunits, Nat.cast_one]
  calc (1 : ℚ) / 2 ^ 1074 ≤ 1 / 2 ^ 94 := one_div_le_one_div_of_le (by positivity) hpow
    _ < threshold := by unfold threshold; norm_num

end Value

end RecordFilter
