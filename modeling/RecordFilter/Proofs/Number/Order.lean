import RecordFilter.Proofs.Number.Shortest

/-!
# The order of shortest decimals

Shortest decimals are ordered as the numbers whose digits they are: the intervals
of two magnitudes lie one behind the other, and a decimal on the border of two
rounds to only one of them.

    compare (x.digits as decimals) (y.digits as decimals) = compare x y    (compare_shortest)
-/

namespace RecordFilter

/-! ## Decimals as fractions -/

namespace Decimal

/-- A decimal is `numerator / 10 ^ places`. -/
def numerator (d : Decimal) : Nat := d.coefficient * pow10 d.exponent.toNat

def places (d : Decimal) : Nat := (-d.exponent).toNat

end Decimal

namespace Magnitude

variable {m n : Magnitude} {d e : Decimal}

theorem scaled_eq (d : Decimal) : scaled d = d.numerator * pow2 1076 := by
  rw [scaled, Decimal.numerator, Nat.mul_assoc]

theorem scale_eq (d : Decimal) : scale d = pow10 d.places := rfl

/-! ## Intervals -/

/-- A magnitude with a smaller shift is smaller. -/
theorem units_lt_of_shift_lt (h : m.shift < n.shift) : m.units < n.units := by
  obtain ⟨k, hk⟩ : ∃ k, n.shift = k + 1 := ⟨n.shift - 1, by omega⟩
  have hn : 0x10000000000000 ≤ n.significand := n.normal.resolve_left (by omega)
  have hp : pow2 m.shift ≤ pow2 k := pow2_le_pow2 (by omega)
  calc m.units < 0x20000000000000 * pow2 m.shift :=
        Nat.mul_lt_mul_of_pos_right m.significand_lt (pow2_pos _)
    _ ≤ 0x20000000000000 * pow2 k := Nat.mul_le_mul_left _ hp
    _ = 0x10000000000000 * pow2 n.shift := by rw [hk, pow2_succ]; ring
    _ ≤ n.units := Nat.mul_le_mul_right _ hn

/-- The interval of a smaller magnitude ends where that of a larger one begins, or below. -/
theorem upperEnd_le_lowerEnd (h : m.units < n.units) : m.upperEnd ≤ n.lowerEnd := by
  have hlt := m.significand_lt
  rcases Nat.lt_trichotomy m.shift n.shift with hs | hs | hs
  · obtain ⟨k, hk⟩ : ∃ k, n.shift = k + 1 := ⟨n.shift - 1, by omega⟩
    have hn : 0x10000000000000 ≤ n.significand := n.normal.resolve_left (by omega)
    have hp : pow2 m.shift ≤ pow2 k := pow2_le_pow2 (by omega)
    have hu : m.upperEnd ≤ 0x7FFFFFFFFFFFFE * pow2 k := by
      calc m.upperEnd = (4 * m.significand + 2) * pow2 m.shift := by
            simp only [upperEnd, quarters, units]; ring
        _ ≤ 0x7FFFFFFFFFFFFE * pow2 m.shift := Nat.mul_le_mul_right _ (by omega)
        _ ≤ 0x7FFFFFFFFFFFFE * pow2 k := Nat.mul_le_mul_left _ hp
    have hq : n.quarters = 8 * (n.significand * pow2 k) := by
      simp only [quarters, units, hk, pow2_succ]; ring
    have hle : 0x10000000000000 * pow2 k ≤ n.significand * pow2 k := Nat.mul_le_mul_right _ hn
    simp only [lowerEnd, hq, hk, pow2_succ]
    split
    · omega
    · have hne : 0x10000000000001 * pow2 k ≤ n.significand * pow2 k :=
        Nat.mul_le_mul_right _ (by omega)
      omega
  · have hsig : m.significand + 1 ≤ n.significand := by
      simp only [units, hs] at h
      exact Nat.lt_of_mul_lt_mul_right h
    have hle : (m.significand + 1) * pow2 n.shift ≤ n.significand * pow2 n.shift :=
      Nat.mul_le_mul_right _ hsig
    rw [Nat.add_mul] at hle
    simp only [upperEnd, lowerEnd, quarters, units, hs]
    split <;> omega
  · have hlt' := units_lt_of_shift_lt hs
    omega

theorem bounds_of_covers {scale a : Nat} (h : m.covers scale a = true) :
    m.lowerEnd * scale ≤ a ∧ a ≤ m.upperEnd * scale := by
  unfold covers at h
  split at h
  · simpa using h
  · simp only [Bool.and_eq_true, decide_eq_true_eq] at h
    omega

/-- Decimals in the intervals of two magnitudes are ordered as these. -/
theorem numerator_lt_of_holds (hm : m.significand ≠ 0) (hd : m.Holds d) (he : n.Holds e)
    (h : m.units < n.units) :
    d.numerator * pow10 e.places < e.numerator * pow10 d.places := by
  have hn : n.significand ≠ 0 := by
    intro h0
    rw [eq_zero_of_significand h0] at h
    exact absurd h (Nat.not_lt.2 (by simp [units, zero]))
  have hle : scaled d * scale e ≤ scaled e * scale d := by
    calc scaled d * scale e ≤ m.upperEnd * scale d * scale e :=
          Nat.mul_le_mul_right _ (bounds_of_covers hd).2
      _ ≤ n.lowerEnd * scale d * scale e :=
          Nat.mul_le_mul_right _ (Nat.mul_le_mul_right _ (upperEnd_le_lowerEnd h))
      _ = n.lowerEnd * scale e * scale d := by ring
      _ ≤ scaled e * scale d := Nat.mul_le_mul_right _ (bounds_of_covers he).1
  have hne : scaled d * scale e ≠ scaled e * scale d := by
    -- a decimal in both intervals would round to both magnitudes
    intro heq
    have hnd : n.Holds d := (holds_congr heq).2 he
    have hmn : m = n := Option.some.inj
      ((ofDecimal?_of_holds hm hd).symm.trans (ofDecimal?_of_holds hn hnd))
    rw [hmn] at h
    exact absurd h (Nat.lt_irrefl _)
  have hlt : d.numerator * pow10 e.places * pow2 1076 < e.numerator * pow10 d.places * pow2 1076 := by
    have hs := Nat.lt_of_le_of_ne hle hne
    rw [scaled_eq, scaled_eq, scale_eq, scale_eq] at hs
    calc d.numerator * pow10 e.places * pow2 1076
        = d.numerator * pow2 1076 * pow10 e.places := Nat.mul_right_comm _ _ _
      _ < e.numerator * pow2 1076 * pow10 d.places := hs
      _ = e.numerator * pow10 d.places * pow2 1076 := Nat.mul_right_comm _ _ _
  exact Nat.lt_of_mul_lt_mul_right hlt

theorem numerator_lt (tie : Tie) (h : m.units < n.units) :
    (m.shortest tie).numerator * pow10 (n.shortest tie).places <
      (n.shortest tie).numerator * pow10 (m.shortest tie).places := by
  have hn : n.significand ≠ 0 := by
    intro h0
    rw [units, units, h0, Nat.zero_mul] at h
    exact absurd h (Nat.not_lt_zero _)
  have he := holds_shortest tie hn
  by_cases hm : m.significand = 0
  · have hc := coefficient_ne_zero_of_holds hn he
    have hp : 0 < (n.shortest tie).numerator :=
      Nat.mul_pos (Nat.pos_of_ne_zero hc) (pow10_pos _)
    rw [eq_zero_of_significand hm, shortest_zero]
    show 0 * pow10 0 * pow10 _ < _ * pow10 0
    rw [Nat.zero_mul, Nat.zero_mul]
    exact Nat.mul_pos hp (pow10_pos 0)
  · exact numerator_lt_of_holds hm (holds_shortest tie hm) he h

/-- Magnitudes of as many units are the same. -/
theorem eq_of_units_eq (h : m.units = n.units) : m = n := by
  rcases Nat.lt_trichotomy m.shift n.shift with hs | hs | hs
  · have hlt := units_lt_of_shift_lt hs
    omega
  · obtain ⟨a, s, _, _, _⟩ := m
    obtain ⟨b, t, _, _, _⟩ := n
    obtain rfl : s = t := hs
    obtain rfl : a = b := Nat.eq_of_mul_eq_mul_right (pow2_pos s) h
    rfl
  · have hlt := units_lt_of_shift_lt hs
    omega

end Magnitude

/-! ## Signed numbers -/

theorem compare_eq_of_iff {x y u v : Int} (hlt : x < y ↔ u < v) (hgt : y < x ↔ v < u) :
    compare x y = compare u v := by
  show compareOfLessAndEq x y = compareOfLessAndEq u v
  unfold compareOfLessAndEq
  by_cases h : x < y
  · rw [if_pos h, if_pos (hlt.1 h)]
  · rw [if_neg h, if_neg fun h' => h (hlt.2 h')]
    by_cases h' : y < x
    · have := hgt.1 h'
      rw [if_neg (by omega), if_neg (by omega)]
    · have := fun h'' => h' (hgt.2 h'')
      have := fun h'' => h (hlt.2 h'')
      rw [if_pos (by omega), if_pos (by omega)]

theorem numerator_eq_zero_iff (m : Magnitude) (tie : Tie) :
    (m.shortest tie).numerator = 0 ↔ m.units = 0 := by
  constructor
  · intro h
    by_contra hm
    have hlt := Magnitude.numerator_lt (m := .zero) (n := m) tie
      (Nat.lt_of_le_of_lt (Nat.zero_le 0) (Nat.pos_of_ne_zero hm))
    rw [h, Nat.zero_mul] at hlt
    exact absurd hlt (Nat.not_lt_zero _)
  · intro h
    have hm : m = .zero := Magnitude.eq_of_units_eq h
    rw [hm]
    rfl

/-- The shortest digits of two finite numbers, as decimals, are ordered as the numbers. -/
theorem compare_shortest (a b : Bool) (m n : Magnitude) (tie : Tie) :
    compare (applySign a (m.shortest tie).numerator * (pow10 (n.shortest tie).places : Int))
      (applySign b (n.shortest tie).numerator * (pow10 (m.shortest tie).places : Int)) =
        compare (Binary64.signed a m) (Binary64.signed b n) := by
  have hmz := numerator_eq_zero_iff m tie
  have hnz := numerator_eq_zero_iff n tie
  have hlt := fun h => Magnitude.numerator_lt (m := m) (n := n) tie h
  have hgt := fun h => Magnitude.numerator_lt (m := n) (n := m) tie h
  have heq : m.units = n.units → (m.shortest tie).numerator * pow10 (n.shortest tie).places =
      (n.shortest tie).numerator * pow10 (m.shortest tie).places := by
    intro h
    rw [Magnitude.eq_of_units_eq h]
  have hpm := pow10_pos (m.shortest tie).places
  have hpn := pow10_pos (n.shortest tie).places
  have hsign : ∀ (c : Bool) (x y : Nat), applySign c x * (y : Int) = applySign c (x * y) := by
    intro c x y
    cases c with
    | false => exact (Int.natCast_mul x y).symm
    | true =>
      show -(x : Int) * y = -((x * y : Nat) : Int)
      rw [Int.natCast_mul, Int.neg_mul]
  have hzero : ∀ {x y : Nat}, 0 < y → (x * y = 0 ↔ x = 0) := by
    intro x y hy
    rw [Nat.mul_eq_zero, or_iff_left (by omega)]
  rw [hsign, hsign]
  have hmz' := (hzero hpn).trans hmz
  have hnz' := (hzero hpm).trans hnz
  generalize (m.shortest tie).numerator * pow10 (n.shortest tie).places = x at *
  generalize (n.shortest tie).numerator * pow10 (m.shortest tie).places = y at *
  apply compare_eq_of_iff <;> cases a <;> cases b <;>
    simp only [applySign, Binary64.signed, if_true, Bool.false_eq_true, if_false] <;> omega

end RecordFilter
