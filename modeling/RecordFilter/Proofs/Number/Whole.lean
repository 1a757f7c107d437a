import RecordFilter.Proofs.Number.Order
import RecordFilter.Proofs.Number.Ratio

/-!
# Whole numbers in shortest digits

The shortest digits of a large whole number are fewer than its own, and zeros stand for the rest.
Up to `2 ^ 53` no other whole number rounds to the same magnitude, so the digits with their zeros are
the number itself.  Above, they are the number unless some decimal that ends in more zeros rounds to
it (`Padded`).

    m.shortest .up = ⟨c, k⟩ → m.value < 2 ^ 63 → (m.Padded ↔ m.value ≠ c · 10 ^ k)   (padded_iff)
-/

namespace RecordFilter

namespace Magnitude

variable {m : Magnitude} {c k : Nat} {tie : Tie}

/-! ## Whole decimals -/

/-- A whole decimal that rounds to a magnitude lies in its interval. -/
theorem holds_of_ofDecimal? (hm : m.significand ≠ 0) (h : ofDecimal? ⟨c, k⟩ = some m) :
    m.Holds ⟨c, k⟩ := by
  unfold ofDecimal? at h
  split at h
  · cases h
    exact absurd rfl hm
  · split at h
    · cases h
    · have hcovers := covers_of_ofRatio? hm h
      have hfour : 4 * (c * pow10 k * pow2 1074) = scaled ⟨c, k⟩ := by
        rw [scaled_ofNat, pow2_add_two 1074]
        ring
      rw [hfour] at hcovers
      rw [Holds, scale_ofNat]
      exact hcovers

/-- The zeros behind the shortest digits may be taken for digits. -/
theorem ofDecimal?_whole (hd : m.shortest tie = ⟨c, k⟩) :
    ofDecimal? ⟨c * pow10 k, (0 : Nat)⟩ = some m := by
  refine ofDecimal?_of_shortest tie ?_
  rw [hd, scale_ofNat, scaled_ofNat, scale_ofNat, scaled_ofNat, show pow10 0 = 1 from rfl,
    Nat.mul_one (c * pow10 k)]

theorem value_eq_iff {n : Nat} : m.value = n ↔ m.quarters = n * pow2 1076 := by
  rw [value, div_eq_iff (by positivity), ← cast_pow2, quarters, pow2_add_two 1074]
  constructor
  · intro h
    have hunits : m.units = n * pow2 1074 := by exact_mod_cast h
    rw [hunits]
    ring
  · intro h
    have hunits : m.units = n * pow2 1074 := by
      refine Nat.eq_of_mul_eq_mul_left (by decide : 0 < 4) ?_
      rw [h]
      ring
    exact_mod_cast hunits

theorem value_of_significand_eq_zero (hm : m.significand = 0) : m.value = 0 := by
  rw [value, units, hm, Nat.zero_mul, Nat.cast_zero, zero_div]

/-! ## Below `2 ^ 53` -/

theorem shift_le_of_value_lt (h : m.value < 2 ^ 53) : m.shift ≤ 1074 := by
  by_contra hs
  obtain ⟨j, hj⟩ : ∃ j, m.shift = 1074 + (j + 1) := ⟨m.shift - 1075, by omega⟩
  have hn : 0x10000000000000 ≤ m.significand := m.normal.resolve_left (by omega)
  have hlarge : 2 ^ 53 ≤ m.significand * pow2 (j + 1) := by
    calc 2 ^ 53 = 0x10000000000000 * 2 := by norm_num
      _ ≤ m.significand * pow2 (j + 1) :=
        Nat.mul_le_mul hn (by rw [pow2_succ]; have := pow2_pos j; omega)
  rw [value_of_ge hj] at h
  have : m.significand * pow2 (j + 1) < 2 ^ 53 := by exact_mod_cast h
  omega

/-- Where the significand has no place to spare, no whole number but the magnitude rounds to it. -/
theorem value_of_holds (hs : m.shift ≤ 1074) (hm : m.significand ≠ 0) (h : m.Holds ⟨c, k⟩) :
    m.value = (c * pow10 k : Nat) := by
  obtain ⟨j, hj⟩ : ∃ j, m.shift + j = 1074 := ⟨1074 - m.shift, by omega⟩
  obtain ⟨hlo, hhi, -, -⟩ := (covers_iff hm).1 h
  have hp := pow2_pos m.shift
  have hsplit : c * pow10 k * pow2 1076 = 4 * (c * pow10 k * pow2 j * pow2 m.shift) := by
    rw [pow2_add_two 1074, ← hj, pow2_add]
    ring
  rw [scale_ofNat, scaled_ofNat, hsplit, Nat.one_mul] at hlo hhi
  -- both are whole counts of the last place, less than one apart
  have hsig : m.significand = c * pow10 k * pow2 j := by
    generalize c * pow10 k * pow2 j = n at *
    rcases Nat.lt_trichotomy m.significand n with hlt | heq | hlt
    · have := Nat.mul_le_mul_right (pow2 m.shift) (Nat.succ_le_of_lt hlt)
      rw [Nat.succ_mul] at this
      omega
    · exact heq
    · have := Nat.mul_le_mul_right (pow2 m.shift) (Nat.succ_le_of_lt hlt)
      rw [Nat.succ_mul] at this
      omega
  rw [value_eq_iff, hsplit, quarters, units, hsig]

/-! ## Around `2 ^ 63` -/

theorem value_lt_value {n : Magnitude} : m.value < n.value ↔ m.units < n.units := by
  rw [value, value, div_lt_div_iff_of_pos_right (by positivity), Nat.cast_lt]

theorem significand_twoPow_lt : 0x10000000000000 < 0x20000000000000 := by decide

/-- A power of two. -/
def twoPow (e : Nat) (h : e ≤ 1023) : Magnitude :=
  ⟨0x10000000000000, 1022 + e, significand_twoPow_lt, Nat.add_le_add_left h 1022,
    .inr (Nat.le_refl _)⟩

theorem value_twoPow (e : Nat) (h : e ≤ 1023) : (twoPow e h).value = (2 ^ e : Nat) := by
  refine value_of_units ?_
  show 0x10000000000000 * pow2 (1022 + e) = pow2 e * pow2 1074
  rw [show 0x10000000000000 = pow2 52 from rfl, ← pow2_add, ← pow2_add]
  congr 1
  omega

/-- The first number beyond the whole numbers of 64 bits. -/
def twoPow63 : Magnitude := twoPow 63 (by decide)

theorem quarters_twoPow63 : twoPow63.quarters = 2 ^ 63 * pow2 1076 :=
  value_eq_iff.1 (value_twoPow 63 _)

theorem value_twoPow63 : twoPow63.value = 2 ^ 63 := by
  rw [twoPow63, value_twoPow]
  norm_num

theorem shortest_twoPow63 : twoPow63.shortest .up = ⟨9223372036854776, 3⟩ := by decide +kernel

/-- The whole decimals that round to a smaller number are smaller. -/
theorem lt_of_value_lt (hlt : m.value < 2 ^ 63) (h : m.Holds ⟨c, k⟩) : c * pow10 k < 2 ^ 63 := by
  rw [← value_twoPow63, value_lt_value] at hlt
  obtain ⟨-, hhi⟩ := bounds_of_covers h
  obtain ⟨-, -, hbelow, -⟩ := lowerEnd_le (m := twoPow63) (by decide)
  have hends := upperEnd_le_lowerEnd hlt
  rw [scale_ofNat, scaled_ofNat, Nat.mul_one] at hhi
  rw [quarters_twoPow63] at hbelow
  exact Nat.lt_of_mul_lt_mul_right (a := pow2 1076) (by omega)

/-- The shortest digits of the others are larger, with their zeros. -/
theorem lt_of_le_value (hge : 2 ^ 63 ≤ m.value) (hd : m.shortest .up = ⟨c, k⟩) :
    2 ^ 63 < c * pow10 k := by
  rw [← value_twoPow63] at hge
  rcases Nat.lt_or_ge twoPow63.units m.units with hlt | hle
  · have hm : m.significand ≠ 0 := by
      intro h0
      rw [units, units, h0, Nat.zero_mul] at hlt
      omega
    have h := holds_shortest .up hm
    rw [hd] at h
    obtain ⟨hlo, -⟩ := bounds_of_covers h
    obtain ⟨-, -, -, habove⟩ := lowerEnd_le (m := twoPow63) (by decide)
    have hends := upperEnd_le_lowerEnd hlt
    rw [scale_ofNat, scaled_ofNat, Nat.mul_one] at hlo
    rw [quarters_twoPow63] at habove
    exact Nat.lt_of_mul_lt_mul_right (a := pow2 1076) (by omega)
  · have heq : m = twoPow63 :=
      eq_of_units_eq (Nat.le_antisymm hle (Nat.not_lt.1 (mt value_lt_value.2 (not_lt.2 hge))))
    rw [heq, shortest_twoPow63] at hd
    obtain ⟨rfl, hk⟩ := Decimal.mk.inj hd
    obtain rfl : k = 3 := by omega
    decide

/-- The shortest digits with their zeros are below `2 ^ 63` where the number is. -/
theorem lt_iff_value_lt (hd : m.shortest .up = ⟨c, k⟩) : c * pow10 k < 2 ^ 63 ↔ m.value < 2 ^ 63 := by
  refine ⟨fun h => not_le.1 fun hge => Nat.lt_asymm h (lt_of_le_value hge hd), fun h => ?_⟩
  by_cases hm : m.significand = 0
  · rw [eq_zero_of_significand hm, shortest_zero] at hd
    cases hd
    decide
  · exact lt_of_value_lt h (hd ▸ holds_shortest .up hm)

/-! ## Padded digits -/

/-- The whole numbers between `2 ^ 53` and `2 ^ 63` to which some decimal rounds that ends in more
zeros. -/
def Padded (m : Magnitude) : Prop :=
  2 ^ 53 ≤ m.value ∧ m.value < 2 ^ 63 ∧
    ∃ c k : Nat, ofDecimal? ⟨c, k⟩ = some m ∧ ¬∃ n : Nat, m.value = n * 10 ^ k

theorem Padded.significand_ne_zero (h : m.Padded) : m.significand ≠ 0 := by
  obtain ⟨hge, -⟩ := h
  intro h0
  rw [value_of_significand_eq_zero h0] at hge
  norm_num at hge

/-- The shortest digits of a padded number have no point. -/
theorem Padded.le_exponent (h : m.Padded) (tie : Tie) : 0 ≤ (m.shortest tie).exponent := by
  have hm := h.significand_ne_zero
  obtain ⟨-, -, c, k, hck, -⟩ := h
  exact le_trans (Int.natCast_nonneg k) (le_exponent_shortest tie hm (holds_of_ofDecimal? hm hck))

/-- On the grid of its shortest digits a number is these digits with their zeros. -/
theorem coefficient_eq {n : Nat} (hm : m.significand ≠ 0) (hd : m.shortest tie = ⟨c, k⟩)
    (hn : m.value = n * 10 ^ k) : n = c := by
  have hquarters : m.quarters = n * (pow10 k * pow2 1076) := by
    rw [← Nat.mul_assoc, ← value_eq_iff, hn, Nat.cast_mul, cast_pow10]
  obtain ⟨hgrid, -⟩ := onGrid?_shortest tie hm
  rw [hd, onGrid?_of_quarters tie hm hquarters] at hgrid
  exact Option.some.inj hgrid

/-- A number below `2 ^ 63` is its shortest digits with their zeros unless it is padded. -/
theorem padded_iff (hd : m.shortest tie = ⟨c, k⟩) (hlt : m.value < 2 ^ 63) :
    m.Padded ↔ m.value ≠ (c * pow10 k : Nat) := by
  by_cases hm : m.significand = 0
  · rw [eq_zero_of_significand hm, shortest_zero] at hd
    cases hd
    refine iff_of_false (fun h => h.significand_ne_zero hm) (not_not.2 ?_)
    rw [value_of_significand_eq_zero hm, Nat.zero_mul, Nat.cast_zero]
  have hholds := holds_shortest tie hm
  rw [hd] at hholds
  constructor
  · rintro ⟨-, -, c', k', hck, hnone⟩ hvalue
    have hle : (k' : Int) ≤ k := by
      have := le_exponent_shortest tie hm (holds_of_ofDecimal? hm hck)
      rwa [hd] at this
    obtain ⟨j, rfl⟩ : ∃ j, k = j + k' := ⟨k - k', by omega⟩
    refine hnone ⟨c * pow10 j, ?_⟩
    rw [hvalue, pow10_add]
    push_cast [cast_pow10]
    ring
  · intro hne
    refine ⟨?_, hlt, c, k, hd ▸ ofDecimal?_shortest m tie, ?_⟩
    · by_contra hsmall
      exact hne (value_of_holds (shift_le_of_value_lt (not_le.1 hsmall)) hm hholds)
    · rintro ⟨n, hn⟩
      rw [coefficient_eq hm hd hn] at hn
      rw [hn, Nat.cast_mul, cast_pow10] at hne
      exact hne rfl

end Magnitude

end RecordFilter
