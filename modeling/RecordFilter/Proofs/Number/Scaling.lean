import RecordFilter.Number.Decimal28
import RecordFilter.Proofs.Number.Ratio
import Mathlib.Algebra.Order.Field.Power
import Mathlib.Algebra.Order.Ring.Pow
import Mathlib.Tactic.FieldSimp

/-!
# Scaling to 28 places

What bringing a coefficient to a decimal of 28 places keeps of a number.  A halving
loses a unit only where the coefficient is large, so all of them together lose next to
nothing; the places dropped at the end lose less than one in the last place, and a
number vanishes only below `0.9444…` of it.

    5 ^ n * s.value * (1 - loss) ^ n ≤ (times half n s).value ≤ 5 ^ n * s.value
    dropPlaces (n + 1) c = 0 ↔ 18 * c < 17 * 10 ^ (n + 1)                  (dropPlaces_eq_zero_iff)
    0 < s.coefficient → s.exponent ≤ 0 → ∃ d, s.decimal? _ = some d ∧ d.Near s.value  (exists_near)
-/

namespace RecordFilter

namespace Decimal28

namespace Scaling

/-- The number that a scaled coefficient stands for. -/
def value (s : Scaling) : ℚ := s.coefficient * 10 ^ s.exponent

theorem value_nonneg (s : Scaling) : 0 ≤ s.value := by
  unfold value
  positivity

/-! ### One half

A step by one half multiplies the value by five: the missing factor of ten is in the exponent that
the number starts with. -/

/-- The largest share of a number that one step loses. -/
def loss : ℚ := 1 / 2 ^ 93

/-- A step keeps the number, but for a unit of a large odd coefficient. -/
theorem half_cases (s : Scaling) :
    (∃ c, s.coefficient = 2 * c ∧ s.half = ⟨c, s.exponent + 1⟩) ∨
    s.coefficient % 2 = 1 ∧ s.half = ⟨5 * s.coefficient, s.exponent⟩ ∨
    ∃ c, s.coefficient = 2 * c + 1 ∧ 2 ^ 92 ≤ c ∧ s.half = ⟨c, s.exponent + 1⟩ := by
  unfold half
  split
  · exact .inl ⟨s.coefficient / 2, by omega, rfl⟩
  · split
    · exact .inr (.inl ⟨by omega, by rw [Nat.mul_comm]⟩)
    · exact .inr (.inr ⟨s.coefficient / 2, by omega, by omega, rfl⟩)

theorem value_mk_succ (c : Nat) (e : Int) : value ⟨c, e + 1⟩ = 10 * (c * 10 ^ e) := by
  rw [value, zpow_add_one₀ (by norm_num)]
  ring

theorem half_value_le (s : Scaling) : s.half.value ≤ 5 * s.value := by
  obtain ⟨c, hc, h⟩ | ⟨-, h⟩ | ⟨c, hc, -, h⟩ := half_cases s
  · rw [h, value_mk_succ, value, hc]
    push_cast
    exact le_of_eq (by ring)
  · rw [h, value, value]
    push_cast
    exact le_of_eq (by ring)
  · have hp : (0 : ℚ) < 10 ^ s.exponent := by positivity
    rw [h, value_mk_succ, value, hc]
    push_cast
    linarith

theorem le_half_value (s : Scaling) : 5 * s.value * (1 - loss) ≤ s.half.value := by
  have hv : 5 * s.value * (1 - loss) ≤ 5 * s.value :=
    mul_le_of_le_one_right (mul_nonneg (by norm_num) s.value_nonneg) (by unfold loss; norm_num)
  obtain ⟨c, hc, h⟩ | ⟨-, h⟩ | ⟨c, hc, hlarge, h⟩ := half_cases s
  · refine hv.trans (le_of_eq ?_)
    rw [h, value_mk_succ, value, hc]
    push_cast
    ring
  · refine hv.trans (le_of_eq ?_)
    rw [h, value, value]
    push_cast
    ring
  · -- a unit is lost where the coefficient is large
    have hshare : (2 * c + 1 : ℚ) * (1 - loss) ≤ 2 * c := by
      have hc' : (2 : ℚ) ^ 92 ≤ c := by exact_mod_cast hlarge
      have hunit : (1 : ℚ) ≤ (2 * c + 1) * loss := by
        rw [loss, mul_one_div, le_div_iff₀ (by positivity)]
        linarith
      linarith
    rw [h, value_mk_succ, value, hc]
    push_cast
    calc 5 * ((2 * c + 1 : ℚ) * 10 ^ s.exponent) * (1 - loss)
        = (2 * c + 1 : ℚ) * (1 - loss) * (5 * 10 ^ s.exponent) := by ring
      _ ≤ 2 * c * (5 * 10 ^ s.exponent) := mul_le_mul_of_nonneg_right hshare (by positivity)
      _ = 10 * (c * 10 ^ s.exponent) := by ring

theorem times_half_value_le (n : Nat) (s : Scaling) :
    (times half n s).value ≤ 5 ^ n * s.value := by
  induction n generalizing s with
  | zero => simp [times]
  | succ n ih =>
    calc (times half n s.half).value ≤ 5 ^ n * s.half.value := ih s.half
      _ ≤ 5 ^ n * (5 * s.value) := mul_le_mul_of_nonneg_left (half_value_le s) (by positivity)
      _ = 5 ^ (n + 1) * s.value := by ring

theorem le_times_half_value (n : Nat) (s : Scaling) :
    5 ^ n * s.value * (1 - loss) ^ n ≤ (times half n s).value := by
  have hl : (0 : ℚ) ≤ 1 - loss := by unfold loss; norm_num
  induction n generalizing s with
  | zero => simp [times]
  | succ n ih =>
    calc 5 ^ (n + 1) * s.value * (1 - loss) ^ (n + 1)
        = 5 ^ n * (5 * s.value * (1 - loss)) * (1 - loss) ^ n := by ring
      _ ≤ 5 ^ n * s.half.value * (1 - loss) ^ n :=
          mul_le_mul_of_nonneg_right
            (mul_le_mul_of_nonneg_left (le_half_value s) (by positivity)) (pow_nonneg hl n)
      _ ≤ (times half n s.half).value := ih s.half

theorem times_half_exponent_le (n : Nat) (s : Scaling) :
    (times half n s).exponent ≤ s.exponent + n := by
  induction n generalizing s with
  | zero => simp [times]
  | succ n ih =>
    have hstep : s.half.exponent ≤ s.exponent + 1 := by
      obtain ⟨c, -, h⟩ | ⟨-, h⟩ | ⟨c, -, -, h⟩ := half_cases s <;> simp [h]
    have hrest := ih s.half
    rw [times]
    push_cast
    omega

theorem times_half_coefficient_pos (n : Nat) {s : Scaling} (hs : 0 < s.coefficient) :
    0 < (times half n s).coefficient := by
  induction n generalizing s with
  | zero => exact hs
  | succ n ih =>
    refine ih ?_
    obtain ⟨c, hc, h⟩ | ⟨-, h⟩ | ⟨c, -, hc, h⟩ := half_cases s
    · rw [h]
      show 0 < c
      omega
    · rw [h]
      show 0 < 5 * s.coefficient
      omega
    · rw [h]
      show 0 < c
      omega

/-- Factors of two leave without loss. -/
theorem times_half_mul (n c : Nat) (e : Int) :
    times half n ⟨c * pow2 n, e⟩ = ⟨c, e + n⟩ := by
  induction n generalizing e with
  | zero => simp [times, pow2]
  | succ n ih =>
    have heven : c * pow2 (n + 1) = 2 * (c * pow2 n) := by
      rw [pow2_succ]
      ring
    have hhalf : half ⟨c * pow2 (n + 1), e⟩ = ⟨c * pow2 n, e + 1⟩ := by
      rw [heven, half, if_pos (Nat.mul_mod_right 2 _), Nat.mul_div_cancel_left _ (by decide)]
    rw [times, hhalf, ih]
    push_cast
    rw [add_assoc, add_comm 1]

/-! ### Two over ten -/

/-- Factors of two enter without loss while there is room. -/
theorem times_fifth_of_lt {n c : Nat} (h : c * pow2 n < 2 ^ 96) (e : Int) :
    times fifth n ⟨c, e⟩ = ⟨c * pow2 n, e - n⟩ := by
  induction n generalizing c e with
  | zero => simp [times, pow2]
  | succ n ih =>
    have hdouble : c * pow2 (n + 1) = c * 2 * pow2 n := by
      rw [pow2_succ]
      ring
    rw [hdouble] at h ⊢
    have hroom : c < 0x800000000000000000000000 := by
      have hle : c * 2 * 1 ≤ c * 2 * pow2 n := Nat.mul_le_mul_left _ (pow2_pos n)
      omega
    rw [times, fifth, if_pos hroom, ih h]
    push_cast
    rw [sub_sub, add_comm 1]

/-- A large coefficient stays large. -/
theorem le_fifth_coefficient {s : Scaling} (h : 2 ^ 92 ≤ s.coefficient) :
    2 ^ 92 ≤ s.fifth.coefficient := by
  unfold fifth
  split
  · show 2 ^ 92 ≤ s.coefficient * 2
    omega
  · show 2 ^ 92 ≤ s.coefficient / 5
    omega

theorem le_times_fifth_coefficient (n : Nat) {s : Scaling} (h : 2 ^ 92 ≤ s.coefficient) :
    2 ^ 92 ≤ (times fifth n s).coefficient := by
  induction n generalizing s with
  | zero => exact h
  | succ n ih => exact ih (le_fifth_coefficient h)

theorem le_times_fifth_coefficient_of_le {n : Nat} {s : Scaling}
    (h : 2 ^ 96 ≤ s.coefficient * pow2 n) : 2 ^ 92 ≤ (times fifth n s).coefficient := by
  induction n generalizing s with
  | zero =>
    rw [show pow2 0 = 1 from rfl] at h
    exact (by omega : 2 ^ 92 ≤ s.coefficient)
  | succ n ih =>
    rw [times]
    by_cases hroom : s.coefficient < 0x800000000000000000000000
    · refine ih ?_
      rw [fifth, if_pos hroom]
      calc 2 ^ 96 ≤ s.coefficient * pow2 (n + 1) := h
        _ = s.coefficient * 2 * pow2 n := by
            rw [pow2_succ]
            ring
    · refine le_times_fifth_coefficient n ?_
      rw [fifth, if_neg hroom]
      show 2 ^ 92 ≤ s.coefficient / 5
      omega

theorem le_times_fifth_exponent (n : Nat) (s : Scaling) :
    s.exponent - n ≤ (times fifth n s).exponent := by
  induction n generalizing s with
  | zero => simp [times]
  | succ n ih =>
    have hstep : s.exponent - 1 ≤ s.fifth.exponent := by
      unfold fifth
      split
      · exact le_refl _
      · exact Int.sub_le_self _ (by decide)
    have hrest := ih s.fifth
    rw [times]
    push_cast
    omega

end Scaling

/-! ## Dropping places -/

/-- Dropping places changes a number by less than one in the last place that stays. -/
theorem dropPlaces_near (n c : Nat) :
    dropPlaces n c * pow10 n < c + pow10 n ∧ c < dropPlaces n c * pow10 n + pow10 n := by
  induction n generalizing c with
  | zero =>
    rw [show pow10 0 = 1 from rfl, dropPlaces]
    omega
  | succ n ih =>
    have hp := pow10_pos n
    rw [pow10_succ, dropPlaces]
    split
    · omega
    · -- one place more moves a number by at most a half of it
      have hnear := ih (if c % 10 < 5 then c / 10 else c / 10 + 1)
      generalize dropPlaces n _ = r at hnear ⊢
      rw [show r * (10 * pow10 n) = 10 * (r * pow10 n) by ring]
      generalize r * pow10 n = rp at hnear ⊢
      split at hnear <;> omega

theorem pow10_mod (n : Nat) : pow10 (n + 1) % 18 = 10 := by
  induction n with
  | zero => rfl
  | succ n ih =>
    rw [pow10_succ]
    omega

/-- A coefficient vanishes below `94…45` with as many digits as there are places to drop. -/
theorem dropPlaces_eq_zero_iff (n c : Nat) :
    dropPlaces (n + 1) c = 0 ↔ 18 * c < 17 * pow10 (n + 1) := by
  induction n generalizing c with
  | zero =>
    rw [show pow10 (0 + 1) = 10 from rfl, dropPlaces, dropPlaces]
    split
    · omega
    · split <;> omega
  | succ n ih =>
    have hmod := pow10_mod n
    rw [pow10_succ (n + 1), dropPlaces]
    split
    · omega
    · rw [ih]
      split <;> omega

theorem le_of_writeOut? {n c q : Nat} (h : writeOut? n c = some q) : c ≤ q := by
  induction n generalizing c with
  | zero => exact Nat.le_of_eq (Option.some.inj h)
  | succ n ih =>
    rw [writeOut?] at h
    split at h
    · exact le_trans (by omega) (ih h)
    · cases h

/-! ## The decimal of a scaled coefficient -/

/-- The size of a decimal. -/
def size (d : Decimal28) : ℚ := d.coefficient / 10 ^ d.places

/-- Smaller numbers have the decimal zero: `0.9444…` of the last place still rounds up to one, place by
place. -/
def threshold : ℚ := 17 / (18 * 10 ^ 28)

theorem threshold_pos : 0 < threshold := by
  unfold threshold
  positivity

theorem abs_dropPlaces_sub_lt (n c : Nat) :
    |(dropPlaces n c : ℚ) - c / 10 ^ n| < 1 := by
  obtain ⟨hlo, hhi⟩ := dropPlaces_near n c
  have hlo' : (dropPlaces n c : ℚ) * 10 ^ n < c + 10 ^ n := by
    rw [← cast_pow10]
    exact_mod_cast hlo
  have hhi' : (c : ℚ) < dropPlaces n c * 10 ^ n + 10 ^ n := by
    rw [← cast_pow10]
    exact_mod_cast hhi
  have hp : (0 : ℚ) < 10 ^ n := by positivity
  rw [abs_sub_lt_iff, sub_lt_iff_lt_add, sub_lt_iff_lt_add, div_lt_iff₀ hp, ← sub_lt_iff_lt_add',
    lt_div_iff₀ hp]
  constructor <;> linarith

theorem dropPlaces_eq_zero_iff_lt_threshold (n c : Nat) :
    dropPlaces (n + 1) c = 0 ↔ (c : ℚ) / 10 ^ (n + 1) / 10 ^ 28 < threshold := by
  have hcast : 18 * c < 17 * pow10 (n + 1) ↔ (18 : ℚ) * c < 17 * 10 ^ (n + 1) := by
    rw [← cast_pow10]
    exact_mod_cast Iff.rfl
  rw [dropPlaces_eq_zero_iff, hcast, div_div, threshold,
    div_lt_div_iff₀ (by positivity) (by positivity)]
  constructor <;> intro h <;> linarith

/-- What a decimal keeps of a number: all but a part of the last place, and the number vanishes below
the threshold only. -/
structure Near (d : Decimal28) (v : ℚ) : Prop where
  abs_sub_lt : |d.size - v| < 1 / 10 ^ 28
  size_eq_zero_iff : d.size = 0 ↔ v < threshold

namespace Scaling

variable {s : Scaling}

/-- Places beyond the 28th are dropped. -/
theorem decimal?_of_many (negative : Bool) (he : s.exponent < -28) :
    ∃ d, s.decimal? negative = some d ∧ d.negative = negative ∧ Near d s.value := by
  obtain ⟨n, hn⟩ : ∃ n : Nat, s.exponent = -(n + 1 + 28 : Nat) :=
    ⟨(-29 - s.exponent).toNat, by omega⟩
  have hplaces : (-28 - s.exponent).toNat = n + 1 := by omega
  have hvalue : s.value = s.coefficient / 10 ^ (n + 1) / 10 ^ 28 := by
    rw [value, hn, zpow_neg, zpow_natCast, pow_add, div_div, div_eq_mul_inv]
  refine ⟨⟨negative, dropPlaces (n + 1) s.coefficient, 28⟩, ?_, rfl, ?_, ?_⟩
  · rw [decimal?, if_neg (by omega), if_pos he, hplaces]
  · rw [size, hvalue, ← sub_div, abs_div, abs_of_pos (by positivity : (0 : ℚ) < 10 ^ 28)]
    exact div_lt_div_of_pos_right (abs_dropPlaces_sub_lt _ _) (by positivity)
  · rw [size, hvalue, div_eq_zero_iff, or_iff_left (by positivity), Nat.cast_eq_zero]
    exact dropPlaces_eq_zero_iff_lt_threshold n s.coefficient

/-- Up to 28 places all are kept. -/
theorem decimal?_of_few (negative : Bool) (hs : 0 < s.coefficient) (hlo : -28 ≤ s.exponent)
    (hhi : s.exponent ≤ 0) :
    ∃ d, s.decimal? negative = some d ∧ d.negative = negative ∧ d.size = s.value ∧
      threshold < s.value := by
  obtain ⟨n, hn⟩ : ∃ n : Nat, s.exponent = -(n : Int) := ⟨(-s.exponent).toNat, by omega⟩
  have hvalue : s.value = s.coefficient / 10 ^ n := by
    rw [value, hn, zpow_neg, zpow_natCast, div_eq_mul_inv]
  refine ⟨⟨negative, s.coefficient, n⟩, ?_, rfl, hvalue.symm, ?_⟩
  · rw [decimal?, if_neg (by omega), if_neg (by omega), hn, neg_neg, Int.toNat_natCast]
  · -- one in the last place is above the threshold
    have hc : (1 : ℚ) ≤ s.coefficient := by exact_mod_cast hs
    have hpow : (10 : ℚ) ^ n ≤ 10 ^ 28 := pow_le_pow_right₀ (by norm_num) (by omega)
    calc threshold < 1 / 10 ^ 28 := by unfold threshold; norm_num
      _ ≤ 1 / 10 ^ n := one_div_le_one_div_of_le (by positivity) hpow
      _ ≤ s.value := by
        rw [hvalue]
        exact div_le_div_of_nonneg_right hc (by positivity)

/-- A scaled coefficient without zeros to write out has a decimal near to it. -/
theorem exists_near (negative : Bool) (hs : 0 < s.coefficient) (he : s.exponent ≤ 0) :
    ∃ d, s.decimal? negative = some d ∧ d.negative = negative ∧ Near d s.value := by
  rcases lt_or_ge s.exponent (-28) with hmany | hfew
  · exact decimal?_of_many negative hmany
  · obtain ⟨d, hd, hn, hsize, hlarge⟩ := decimal?_of_few negative hs hfew he
    refine ⟨d, hd, hn, ?_, ?_⟩
    · rw [hsize, sub_self, abs_zero]
      positivity
    · rw [hsize]
      exact iff_of_false (ne_of_gt (lt_trans threshold_pos hlarge)) (not_lt_of_gt hlarge)

/-- With zeros to write out, a decimal is whole and no smaller than the coefficient. -/
theorem le_of_decimal? {negative : Bool} {d : Decimal28} (he : 0 ≤ s.exponent)
    (h : s.decimal? negative = some d) :
    d.negative = negative ∧ (s.coefficient : ℚ) ≤ d.size := by
  unfold decimal? at h
  split at h
  · obtain ⟨q, hq, rfl⟩ := Option.map_eq_some_iff.1 h
    refine ⟨rfl, ?_⟩
    rw [size, pow_zero, div_one]
    exact_mod_cast le_of_writeOut? hq
  · rw [if_neg (by omega)] at h
    obtain rfl := Option.some.inj h
    refine ⟨rfl, ?_⟩
    show (s.coefficient : ℚ) ≤ s.coefficient / 10 ^ (-s.exponent).toNat
    rw [show (-s.exponent).toNat = 0 by omega, pow_zero, div_one]

end Scaling

end Decimal28

end RecordFilter
