import RecordFilter.Proofs.Number.Scaling

/-!
# Decimals of binary64 numbers

The decimal of a number lies to every whole number of 64 bits as the number does,
although digits are lost on the way to it: a number that is not whole is farther from
the next whole number than all that is lost, and a whole number loses nothing.  Zero
alone is different, for a number below the threshold becomes zero; no number lies so
near to the threshold that the loss could carry it across.

    ofMagnitude? _ m = some d ∧ Faithful d.size m.value, or none and 2 ^ 96 ≤ m.value  (ofMagnitude?_cases)
    Faithful a v → compare n (± a) = compare n (± v), unless n = 0 and v < threshold   (compare_withSign)
-/

namespace RecordFilter

open Decimal28

namespace Magnitude

variable {m : Magnitude}

/-! ## Around the threshold -/

/-- No number lies just above the threshold. -/
theorem threshold_gap (m : Magnitude) (h : threshold ≤ m.value) :
    threshold * (1 + 1 / 2 ^ 60) ≤ m.value := by
  have hlt : (m.significand : ℚ) < 2 ^ 53 := by exact_mod_cast m.significand_lt
  rcases Nat.lt_trichotomy m.shift 928 with hs | hs | hs
  · -- numbers with smaller shifts are below it
    obtain ⟨k, hk⟩ : ∃ k, m.shift + (k + 147) = 1074 := ⟨1074 - 147 - m.shift, by omega⟩
    have hone : (1 : ℚ) ≤ 2 ^ k := one_le_pow₀ (by norm_num)
    have hsmall : m.value < threshold := by
      rw [value_of_le hk, threshold, div_lt_div_iff₀ (by positivity) (by positivity), pow_add]
      linarith
    exact absurd h (not_le_of_gt hsmall)
  · -- among those with this shift there is a next one
    have hk : m.shift + 146 = 1074 := by omega
    rw [value_of_le hk, threshold, div_le_div_iff₀ (by positivity) (by positivity)] at h
    have hnext : 8424725963889347 ≤ m.significand := by
      have h' : 17 * 2 ^ 146 ≤ m.significand * (18 * 10 ^ 28) := by exact_mod_cast h
      omega
    have hnext' : (8424725963889347 : ℚ) ≤ m.significand := by exact_mod_cast hnext
    rw [value_of_le hk, threshold, div_mul_eq_mul_div,
      div_le_div_iff₀ (by positivity) (by positivity)]
    linarith
  · -- numbers with larger shifts are well above it
    have hn : (2 : ℚ) ^ 52 ≤ m.significand := by
      exact_mod_cast m.normal.resolve_left (by omega)
    have hunits : (2 : ℚ) ^ 52 * 2 ^ 929 ≤ m.units := by
      rw [units, Nat.cast_mul, cast_pow2]
      exact mul_le_mul hn (pow_le_pow_right₀ (by norm_num) hs) (by positivity) (by positivity)
    calc threshold * (1 + 1 / 2 ^ 60) ≤ 2 ^ 52 / 2 ^ 145 := by unfold threshold; norm_num
      _ = 2 ^ 52 * 2 ^ 929 / (2 ^ 145 * 2 ^ 929) := (mul_div_mul_right _ _ (by positivity)).symm
      _ = 2 ^ 52 * 2 ^ 929 / 2 ^ 1074 := by rw [← pow_add 2 145]
      _ ≤ m.value := div_le_div_of_nonneg_right hunits (by positivity)

/-! ## Faithful sizes -/

/-- A decimal of size `a` lies to every positive number of 64 bits as the number `v` does, and is zero
below the threshold. -/
structure Faithful (a v : ℚ) : Prop where
  nonneg : 0 ≤ a
  compare_eq : ∀ n : Nat, 0 < n → n ≤ 2 ^ 64 → compare a n = compare v n
  eq_zero_iff : a = 0 ↔ v < threshold

theorem faithful_natCast (n : Nat) : Faithful n n := by
  refine ⟨by positivity, fun _ _ _ => rfl, ?_⟩
  rcases Nat.eq_zero_or_pos n with rfl | hn
  · exact iff_of_true Nat.cast_zero (by rw [Nat.cast_zero]; exact threshold_pos)
  · have h1 : (1 : ℚ) ≤ n := by exact_mod_cast hn
    have ht : threshold < 1 := by unfold threshold; norm_num
    exact iff_of_false (by positivity) (not_lt_of_gt (lt_of_lt_of_le ht h1))

theorem faithful_of_large {a v : ℚ} (ha : 2 ^ 92 ≤ a) (hv : 2 ^ 92 ≤ v) : Faithful a v := by
  refine ⟨by linarith, fun n _ hn => ?_, ?_⟩
  · have hn' : (n : ℚ) ≤ 2 ^ 64 := by exact_mod_cast hn
    rw [compare_gt_iff_gt.2 (by linarith : (n : ℚ) < a),
      compare_gt_iff_gt.2 (by linarith : (n : ℚ) < v)]
  · have ht : threshold < 2 ^ 92 := by unfold threshold; norm_num
    exact iff_of_false (by linarith) (by linarith)

/-- A decimal near to nearly all of a number is faithful, if it is exact where the number is whole. -/
theorem faithful_of_near {k : Nat} (hk : m.shift + k = 1074) {d : Decimal28} {v : ℚ}
    (hd : d.Near v) (hle : v ≤ m.value) (hge : m.value * (1 - 1 / 2 ^ 82) ≤ v)
    (hwhole : ∀ n : Nat, m.value = n → d.size = n) : Faithful d.size m.value := by
  obtain ⟨hlo, hhi⟩ := abs_sub_lt_iff.1 hd.abs_sub_lt
  refine ⟨by unfold size; positivity, fun n hn _ => ?_, hd.size_eq_zero_iff.trans ⟨?_, ?_⟩⟩
  · have h1 : (1 : ℚ) ≤ n := by exact_mod_cast hn
    rcases lt_trichotomy m.value n with hlt | heq | hgt
    · have hgap := gap hk hlt.ne
      rw [abs_sub_comm, abs_of_pos (sub_pos.2 hlt)] at hgap
      -- the gap is wider than all that is lost, or the number is below one half
      have hsize : d.size < n := by
        rcases lt_or_ge m.value (1 / 2) with hhalf | hhalf <;> linarith
      rw [compare_lt_iff_lt.2 hlt, compare_lt_iff_lt.2 hsize]
    · rw [hwhole n heq, heq]
    · have hgap := gap hk hgt.ne'
      rw [abs_of_pos (sub_pos.2 hgt)] at hgap
      have hsize : (n : ℚ) < d.size := by linarith
      rw [compare_gt_iff_gt.2 hgt, compare_gt_iff_gt.2 hsize]
  · intro h
    by_contra hnot
    have hgap := threshold_gap m (not_lt.1 hnot)
    have ht := threshold_pos
    linarith
  · exact fun h => lt_of_le_of_lt hle h

/-! ## Conversion -/

/-- The number after all the halvings: what they lost is next to nothing. -/
theorem halved_value (m : Magnitude) {k : Nat} (hk : m.shift + k = 1074) :
    (Scaling.times .half k ⟨m.significand, (m.shift : Int) - 1074⟩).value ≤ m.value ∧
    m.value * (1 - 1 / 2 ^ 82) ≤
      (Scaling.times .half k ⟨m.significand, (m.shift : Int) - 1074⟩).value := by
  have hstart : 5 ^ k * Scaling.value ⟨m.significand, (m.shift : Int) - 1074⟩ = m.value := by
    have he : (m.shift : Int) - 1074 = -(k : Int) := by omega
    have h10 : (10 : ℚ) ^ k = 5 ^ k * 2 ^ k := by rw [← mul_pow]; norm_num
    rw [Scaling.value, he, zpow_neg, zpow_natCast, h10, value_of_le hk]
    field_simp
  have hle := Scaling.times_half_value_le k ⟨m.significand, (m.shift : Int) - 1074⟩
  have hge := Scaling.le_times_half_value k ⟨m.significand, (m.shift : Int) - 1074⟩
  rw [hstart] at hle hge
  refine ⟨hle, le_trans (mul_le_mul_of_nonneg_left ?_ m.value_nonneg) hge⟩
  have hk' : (k : ℚ) ≤ 1074 := by exact_mod_cast (by omega : k ≤ 1074)
  have hloss : Scaling.loss = 1 / 2 ^ 93 := rfl
  calc (1 : ℚ) - 1 / 2 ^ 82 ≤ 1 + k * (-Scaling.loss) := by rw [hloss]; linarith
    _ ≤ (1 + -Scaling.loss) ^ k := one_add_mul_le_pow (by rw [hloss]; norm_num) k
    _ = (1 - Scaling.loss) ^ k := by rw [← sub_eq_add_neg]

theorem ofMagnitude?_of_le (negative : Bool) {k : Nat} (hk : m.shift + k = 1074)
    (hm : m.significand ≠ 0) :
    ofMagnitude? negative m =
      (Scaling.times .half k ⟨m.significand, (m.shift : Int) - 1074⟩).decimal? negative := by
  simp only [ofMagnitude?]
  rw [if_neg hm, if_pos (by omega), show 1074 - m.shift = k by omega]

theorem ofMagnitude?_of_gt (negative : Bool) {k : Nat} (hk : m.shift = 1074 + (k + 1)) :
    ofMagnitude? negative m =
      (Scaling.times .fifth (k + 1) ⟨m.significand, (k + 1 : Nat)⟩).decimal? negative := by
  have hm : m.significand ≠ 0 := by
    have hn := m.normal.resolve_left (by omega)
    omega
  have he : (m.shift : Int) - 1074 = (k + 1 : Nat) := by omega
  simp only [ofMagnitude?]
  rw [if_neg hm, if_neg (by omega), show m.shift - 1074 = k + 1 by omega, he]

/-- Numbers up to the largest significand have a faithful decimal. -/
theorem exists_faithful (negative : Bool) {k : Nat} (hk : m.shift + k = 1074) :
    ∃ d, ofMagnitude? negative m = some d ∧ d.negative = negative ∧
      Faithful d.size m.value := by
  by_cases hm : m.significand = 0
  · refine ⟨⟨negative, 0, 0⟩, ?_, rfl, ?_⟩
    · simp only [ofMagnitude?]
      rw [if_pos hm]
    · have hsize : size ⟨negative, 0, 0⟩ = (0 : Nat) := by simp [size]
      have hvalue : m.value = (0 : Nat) := by rw [value_of_le hk, hm, Nat.cast_zero, zero_div]
      rw [hsize, hvalue]
      exact faithful_natCast 0
  · rw [ofMagnitude?_of_le negative hk hm]
    obtain ⟨hle, hge⟩ := halved_value m hk
    have hpos := Scaling.times_half_coefficient_pos k
      (s := ⟨m.significand, (m.shift : Int) - 1074⟩) (Nat.pos_of_ne_zero hm)
    have hexp : (Scaling.times .half k ⟨m.significand, (m.shift : Int) - 1074⟩).exponent ≤ 0 :=
      le_trans (Scaling.times_half_exponent_le k _) (by show (m.shift : Int) - 1074 + k ≤ 0; omega)
    obtain ⟨d, hd, hn, hnear⟩ := Scaling.exists_near negative hpos hexp
    refine ⟨d, hd, hn, faithful_of_near hk hnear hle hge fun n hwhole => ?_⟩
    -- the halvings of a whole number only take factors of two away
    have hsig : m.significand = n * pow2 k := by
      rw [value_of_le hk, div_eq_iff (by positivity), ← cast_pow2] at hwhole
      exact_mod_cast hwhole
    rw [hsig, Scaling.times_half_mul, show (m.shift : Int) - 1074 + k = 0 by omega] at hd
    have hdecimal : d = ⟨negative, n, 0⟩ := (Option.some.inj hd).symm
    rw [hdecimal, size, pow_zero, div_one]

/-- Larger numbers have a faithful decimal, or none. -/
theorem faithful_or_large (negative : Bool) {k : Nat} (hk : m.shift = 1074 + (k + 1)) :
    (∃ d, ofMagnitude? negative m = some d ∧ d.negative = negative ∧ Faithful d.size m.value) ∨
    ofMagnitude? negative m = none ∧ 2 ^ 96 ≤ m.value := by
  rw [ofMagnitude?_of_gt negative hk, value_of_ge hk]
  rcases Nat.lt_or_ge (m.significand * pow2 (k + 1)) (2 ^ 96) with hlt | hge
  · rw [Scaling.times_fifth_of_lt hlt, sub_self]
    refine .inl ⟨⟨negative, m.significand * pow2 (k + 1), 0⟩, rfl, rfl, ?_⟩
    rw [size, pow_zero, div_one]
    exact faithful_natCast _
  · have hcoefficient := Scaling.le_times_fifth_coefficient_of_le
      (s := ⟨m.significand, (k + 1 : Nat)⟩) hge
    have hexponent := Scaling.le_times_fifth_exponent (k + 1) ⟨m.significand, (k + 1 : Nat)⟩
    have hvalue : (2 : ℚ) ^ 96 ≤ (m.significand * pow2 (k + 1) : Nat) := by exact_mod_cast hge
    generalize Scaling.times .fifth (k + 1) ⟨m.significand, (k + 1 : Nat)⟩ = s at *
    cases hd : s.decimal? negative with
    | none => exact .inr ⟨rfl, hvalue⟩
    | some d =>
      obtain ⟨hn, hsize⟩ := Scaling.le_of_decimal? (by simpa using hexponent) hd
      have hc : (2 : ℚ) ^ 92 ≤ s.coefficient := by exact_mod_cast hcoefficient
      exact .inl ⟨d, rfl, hn, faithful_of_large (by linarith) (by linarith)⟩

/-- The decimal of a number is faithful, and only a large number has none. -/
theorem ofMagnitude?_cases (negative : Bool) (m : Magnitude) :
    (∃ d, ofMagnitude? negative m = some d ∧ d.negative = negative ∧ Faithful d.size m.value) ∨
    ofMagnitude? negative m = none ∧ 2 ^ 96 ≤ m.value := by
  rcases Nat.lt_or_ge 1074 m.shift with hlt | hle
  · obtain ⟨k, hk⟩ : ∃ k, m.shift = 1074 + (k + 1) := ⟨m.shift - 1075, by omega⟩
    exact faithful_or_large negative hk
  · obtain ⟨k, hk⟩ : ∃ k, m.shift + k = 1074 := ⟨1074 - m.shift, by omega⟩
    exact .inl (exists_faithful negative hk)

/-! ## Order -/

namespace Faithful

variable {a v : ℚ}

theorem compare_natCast (h : Faithful a v) (hv : 0 ≤ v) (negative : Bool) {k : Nat} (hk : 0 < k)
    (hle : k ≤ 2 ^ 64) :
    compare (k : ℚ) (withSign negative a) = compare (k : ℚ) (withSign negative v) := by
  have hk' : (0 : ℚ) < k := Nat.cast_pos.2 hk
  have ha := h.nonneg
  cases negative with
  | false =>
    show compare (k : ℚ) a = compare (k : ℚ) v
    rw [Std.OrientedOrd.eq_swap (a := (k : ℚ)), h.compare_eq k hk hle, ← Std.OrientedOrd.eq_swap]
  | true =>
    show compare (k : ℚ) (-a) = compare (k : ℚ) (-v)
    rw [compare_gt_iff_gt.2 (by linarith), compare_gt_iff_gt.2 (by linarith)]

theorem compare_zero (h : Faithful a v) (negative : Bool) :
    compare 0 (withSign negative a) =
      if v < threshold then .eq else compare 0 (withSign negative v) := by
  split
  · rename_i hsmall
    rw [h.eq_zero_iff.2 hsmall, compare_eq_iff_eq]
    cases negative <;> simp [withSign]
  · rename_i hsmall
    have ha : 0 < a := lt_of_le_of_ne h.nonneg (fun h0 => hsmall (h.eq_zero_iff.1 h0.symm))
    have hv : 0 < v := lt_of_lt_of_le threshold_pos (not_lt.1 hsmall)
    cases negative with
    | false =>
      show compare 0 a = compare 0 v
      rw [compare_lt_iff_lt.2 ha, compare_lt_iff_lt.2 hv]
    | true =>
      show compare 0 (-a) = compare 0 (-v)
      rw [compare_gt_iff_gt.2 (neg_lt_zero.2 ha), compare_gt_iff_gt.2 (neg_lt_zero.2 hv)]

/-- With their signs, a decimal and its number lie to every integer in the same way, unless the integer
is zero and the number below the threshold. -/
theorem compare_withSign (h : Faithful a v) (hv : 0 ≤ v) (negative : Bool) {n : Int}
    (hn : n.natAbs ≤ 2 ^ 64) :
    compare (n : ℚ) (withSign negative a) =
      if n = 0 ∧ v < threshold then .eq else compare (n : ℚ) (withSign negative v) := by
  rcases lt_trichotomy n 0 with hlt | rfl | hgt
  · -- a negative integer against a number is a positive one against the opposite number
    obtain ⟨k, rfl⟩ : ∃ k : Nat, n = -(k : Int) := ⟨n.natAbs, by omega⟩
    have hopposite : ∀ b, withSign negative b = -withSign (!negative) b := by
      intro b
      cases negative <;> simp [withSign]
    rw [if_neg (by omega), Int.cast_neg, Int.cast_natCast, hopposite a, hopposite v, compare_neg,
      compare_neg, Std.OrientedOrd.eq_swap, h.compare_natCast hv _ (by omega) (by omega),
      ← Std.OrientedOrd.eq_swap]
  · rw [Int.cast_zero, h.compare_zero negative]
    simp only [true_and]
  · obtain ⟨k, rfl⟩ : ∃ k : Nat, n = (k : Int) := ⟨n.natAbs, by omega⟩
    rw [if_neg (by omega), Int.cast_natCast]
    exact h.compare_natCast hv negative (by omega) (by omega)

end Faithful

end Magnitude

namespace Decimal28

/-- The number that a decimal stands for. -/
def ratio (d : Decimal28) : ℚ := withSign d.negative d.size

theorem ratio_eq (d : Decimal28) : d.ratio = d.signed / (pow10 d.places : Nat) := by
  rw [cast_pow10]
  unfold ratio withSign signed size
  split
  · push_cast
    rw [neg_div]
  · push_cast
    rfl

theorem ratio_ofInt (n : Int) : (ofInt n).ratio = n := by
  have hsigned : (ofInt n).signed = n := by
    simp only [ofInt, signed, decide_eq_true_eq]
    split <;> omega
  rw [ratio_eq, hsigned]
  exact div_one _

/-- An integer against a decimal. -/
theorem compare_ofInt (n : Int) (d : Decimal28) :
    (ofInt n).compare d = Ord.compare (n : ℚ) d.ratio := by
  rw [← ratio_ofInt n, ratio_eq, ratio_eq]
  exact compare_div _ _ (pow10_pos _) (pow10_pos _)

end Decimal28

end RecordFilter
