import RecordFilter.Proofs.Number.Digits
import RecordFilter.Proofs.Number.Rounding

/-!
# Shortest decimals round back

Every decimal in the interval of a magnitude rounds to the magnitude, and the
search for the shortest one always ends with such a decimal: on the grid of
seventeen digits two neighbours are nearer to each other than the two ends of the
interval.  No decimal in the interval lies on a coarser grid.

    m.Holds (m.shortest tie)                                     (holds_shortest)
    ofDecimal? (m.shortest tie) = some m                         (ofDecimal?_shortest)
    m.Holds ⟨c, k⟩ → k ≤ (m.shortest tie).exponent               (le_exponent_shortest)
-/

namespace RecordFilter

namespace Magnitude

/-! ## Decimals in the interval -/

/-- How far a decimal lies up in the interval: a numerator over `Decimal.scale`. -/
def scaled (d : Decimal) : Nat := d.coefficient * (pow10 d.exponent.toNat * pow2 1076)

/-- The denominator of a decimal. -/
def scale (d : Decimal) : Nat := pow10 (-d.exponent).toNat

/-- Whether a decimal lies in the interval that rounds to a magnitude. -/
def Holds (m : Magnitude) (d : Decimal) : Prop := m.covers (scale d) (scaled d) = true

theorem scale_pos (d : Decimal) : 0 < scale d := pow10_pos _

theorem covers_mul (m : Magnitude) (scale a : Nat) {k : Nat} (hk : 0 < k) :
    m.covers (scale * k) (a * k) = m.covers scale a := by
  simp only [covers, ← Nat.mul_assoc, Nat.mul_le_mul_right_iff hk, Nat.mul_lt_mul_right hk]

/-- Whether a decimal lies in an interval is a matter of the number that it is. -/
theorem holds_congr {m : Magnitude} {d e : Decimal}
    (h : scaled d * scale e = scaled e * scale d) : m.Holds d ↔ m.Holds e := by
  rw [Holds, Holds, ← covers_mul m _ _ (scale_pos e), h, Nat.mul_comm (scale d),
    covers_mul m _ _ (scale_pos d)]

theorem scale_ofNat (c k : Nat) : scale ⟨c, k⟩ = 1 := by
  rw [scale, Int.toNat_neg_natCast]
  rfl

theorem scaled_ofNat (c k : Nat) : scaled ⟨c, k⟩ = c * pow10 k * pow2 1076 := by
  rw [scaled, Int.toNat_natCast, Nat.mul_assoc]

/-- The largest magnitude is below `2 ^ 2098` units. -/
theorem units_lt (m : Magnitude) : m.units < pow2 2098 := by
  have hp : pow2 m.shift ≤ pow2 2045 := pow2_le_pow2 m.shift_le
  calc m.units < 0x20000000000000 * pow2 m.shift :=
        Nat.mul_lt_mul_of_pos_right m.significand_lt (pow2_pos _)
    _ ≤ 0x20000000000000 * pow2 2045 := Nat.mul_le_mul_left _ hp
    _ = pow2 2098 := by rw [show 0x20000000000000 = pow2 53 from rfl, ← pow2_add]

/-- The interval of a magnitude other than zero keeps off zero and below twice the largest one. -/
theorem bounds_of_holds {m : Magnitude} {d : Decimal} (hm : m.significand ≠ 0) (h : m.Holds d) :
    2 * scale d ≤ scaled d ∧ scaled d < pow2 2101 * scale d := by
  obtain ⟨hlo, hhi, -, -⟩ := (covers_iff hm).1 h
  have hp := pow2_pos m.shift
  have h1 : 1 * (scale d * pow2 m.shift) ≤ m.significand * (scale d * pow2 m.shift) :=
    Nat.mul_le_mul_right _ (by omega)
  have h2 : scale d * 1 ≤ scale d * pow2 m.shift := Nat.mul_le_mul_left _ hp
  have h3 : m.significand * (scale d * pow2 m.shift) < pow2 2098 * scale d := by
    calc m.significand * (scale d * pow2 m.shift) = m.units * scale d := by
          simp only [units]; ring
      _ < pow2 2098 * scale d := Nat.mul_lt_mul_of_pos_right (units_lt m) (scale_pos d)
  have h4 : pow2 2101 * scale d = 8 * (pow2 2098 * scale d) := by
    rw [show 2101 = 3 + 2098 from rfl, pow2_add, show pow2 3 = 8 from rfl, Nat.mul_assoc]
  exact ⟨by omega, by omega⟩

theorem coefficient_ne_zero_of_holds {m : Magnitude} {d : Decimal} (hm : m.significand ≠ 0)
    (h : m.Holds d) : d.coefficient ≠ 0 := by
  intro h0
  have hb := (bounds_of_holds hm h).1
  have hs := scale_pos d
  simp only [scaled, h0, Nat.zero_mul] at hb
  omega

theorem pow2_1076_lt : pow2 1076 < pow10 324 := by decide +kernel

theorem pow2_2101_le : pow2 2101 ≤ pow10 311 * pow2 1076 := by decide +kernel

/-- A decimal in the interval is not settled by its place alone. -/
theorem place_of_holds {m : Magnitude} {d : Decimal} (hm : m.significand ≠ 0) (h : m.Holds d) :
    ¬d.place < -330 ∧ ¬310 < d.place := by
  obtain ⟨hlo, hhi⟩ := bounds_of_holds hm h
  have hc := coefficient_ne_zero_of_holds hm h
  have hlen := lt_pow10_digits_length d.coefficient
  have hpos : 0 < (digits d.coefficient).length := List.length_pos_iff.2 (digits_ne_nil _)
  simp only [scaled, scale] at hlo hhi
  generalize hL : (digits d.coefficient).length = L at *
  constructor
  · intro hp
    simp only [Decimal.place, hL] at hp
    obtain ⟨k, hk⟩ : ∃ k : Nat, (-d.exponent).toNat = L + 324 + k :=
      ⟨(-d.exponent).toNat - (L + 324), by omega⟩
    have h0 : d.exponent.toNat = 0 := by omega
    rw [hk, h0] at hlo
    have h1 : d.coefficient * pow2 1076 < pow10 L * pow10 324 :=
      Nat.mul_lt_mul'' hlen pow2_1076_lt
    have h2 : pow10 (L + 324) ≤ pow10 (L + 324 + k) := pow10_le_pow10 (by omega)
    rw [← pow10_add] at h1
    simp only [show pow10 0 = 1 from rfl, Nat.one_mul] at hlo
    omega
  · intro hp
    simp only [Decimal.place, hL] at hp
    have hle : pow10 (L - 1) ≤ d.coefficient :=
      pow10_le_of_digits_length hc (by omega)
    obtain ⟨k, hk⟩ : ∃ k : Nat, L - 1 + d.exponent.toNat = 311 + (-d.exponent).toNat + k :=
      ⟨L - 1 + d.exponent.toNat - (311 + (-d.exponent).toNat), by omega⟩
    have h1 : pow10 311 * pow10 (-d.exponent).toNat ≤ d.coefficient * pow10 d.exponent.toNat := by
      calc pow10 311 * pow10 (-d.exponent).toNat = pow10 (311 + (-d.exponent).toNat) :=
            (pow10_add _ _).symm
        _ ≤ pow10 (L - 1 + d.exponent.toNat) := pow10_le_pow10 (by omega)
        _ = pow10 (L - 1) * pow10 d.exponent.toNat := pow10_add _ _
        _ ≤ d.coefficient * pow10 d.exponent.toNat := Nat.mul_le_mul_right _ hle
    have h2 : pow2 2101 * pow10 (-d.exponent).toNat ≤
        d.coefficient * (pow10 d.exponent.toNat * pow2 1076) := by
      calc pow2 2101 * pow10 (-d.exponent).toNat
          ≤ pow10 311 * pow2 1076 * pow10 (-d.exponent).toNat :=
            Nat.mul_le_mul_right _ pow2_2101_le
        _ = pow10 311 * pow10 (-d.exponent).toNat * pow2 1076 := by ring
        _ ≤ d.coefficient * pow10 d.exponent.toNat * pow2 1076 := Nat.mul_le_mul_right _ h1
        _ = d.coefficient * (pow10 d.exponent.toNat * pow2 1076) := by ring
    omega

/-- A decimal in the interval of a magnitude rounds to it. -/
theorem ofDecimal?_of_holds {m : Magnitude} {d : Decimal} (hm : m.significand ≠ 0)
    (h : m.Holds d) : ofDecimal? d = some m := by
  obtain ⟨hlo, hhi⟩ := place_of_holds hm h
  have hc := coefficient_ne_zero_of_holds hm h
  have hfour : pow2 1076 = 4 * pow2 1074 := pow2_add_two 1074
  obtain ⟨c, e⟩ := d
  simp only at hc
  simp only [ofDecimal?]
  rw [if_neg (by simp only [hc, false_or]; exact hlo), if_neg hhi]
  cases e with
  | ofNat k =>
    refine ofRatio?_of_covers (by decide) hm ?_
    have he : 4 * (c * pow10 k * pow2 1074) = c * (pow10 k * pow2 1076) := by rw [hfour]; ring
    rw [he]
    simp only [Holds, scale, scaled, Int.ofNat_eq_natCast, Int.toNat_neg_natCast,
      Int.toNat_natCast] at h
    exact h
  | negSucc k =>
    refine ofRatio?_of_covers (pow10_pos _) hm ?_
    have he : 4 * (c * pow2 1074) = c * (pow10 0 * pow2 1076) := by
      rw [hfour, show pow10 0 = 1 from rfl]; ring
    rw [he]
    exact h

/-! ## The search -/

theorem nearer_eq (tie : Tie) (low remainder step : Nat) :
    nearer tie low remainder step = low ∨ nearer tie low remainder step = low + 1 := by
  simp only [nearer]
  split
  · exact .inl rfl
  · split
    · exact .inr rfl
    · cases tie with
      | up => exact .inr rfl
      | even =>
        rcases Nat.mod_two_eq_zero_or_one low with h | h
        · exact .inl (by simp only [h]; rfl)
        · exact .inr (by simp only [h])

theorem holds_of_onGrid? {m : Magnitude} {tie : Tie} {k : Int} {c : Nat}
    (h : m.onGrid? tie k = some c) : m.Holds ⟨c, k⟩ := by
  simp only [onGrid?] at h
  simp only [Holds, scale, scaled]
  generalize pow10 k.toNat * pow2 1076 = step at *
  split at h
  · rename_i h1 h2
    obtain rfl := Option.some.inj h
    rcases nearer_eq tie (m.quarters * pow10 (-k).toNat / step)
      (m.quarters * pow10 (-k).toNat % step) step with he | he
    · rw [he]; exact h1
    · rw [he]; exact h2
  · rename_i h1 h2
    obtain rfl := Option.some.inj h
    exact h1
  · rename_i h1 h2
    obtain rfl := Option.some.inj h
    exact h2
  · cases h

/-- The interval is at least three quarters of a step long. -/
theorem lowerEnd_le {m : Magnitude} (hm : m.significand ≠ 0) :
    m.lowerEnd + 3 * pow2 m.shift ≤ m.upperEnd ∧
    (m.significand ≠ 0x10000000000000 → m.lowerEnd + 4 * pow2 m.shift ≤ m.upperEnd) ∧
    m.lowerEnd < m.quarters ∧ m.quarters < m.upperEnd := by
  have hp := pow2_pos m.shift
  have hge : 1 * pow2 m.shift ≤ m.significand * pow2 m.shift := Nat.mul_le_mul_right _ (by omega)
  simp only [lowerEnd, upperEnd, quarters, units]
  split
  · rename_i hc
    exact ⟨by omega, fun hne => absurd hc.1 hne, by omega, by omega⟩
  · exact ⟨by omega, fun _ => by omega, by omega, by omega⟩

/-- What lies between the magnitude and a point of its interval lies in the interval. -/
theorem covers_between {m : Magnitude} {scale a b : Nat} (hm : m.significand ≠ 0)
    (hscale : 0 < scale) (h : m.covers scale a = true)
    (hb : a ≤ b ∧ b ≤ m.quarters * scale ∨ m.quarters * scale ≤ b ∧ b ≤ a) :
    m.covers scale b = true := by
  obtain ⟨-, -, hlo, hhi⟩ := lowerEnd_le hm
  have hlo' := Nat.mul_lt_mul_of_pos_right hlo hscale
  have hhi' := Nat.mul_lt_mul_of_pos_right hhi hscale
  unfold covers at h ⊢
  split at h
  · rw [if_pos ‹_›]
    simp only [Bool.and_eq_true, decide_eq_true_eq] at h ⊢
    omega
  · rw [if_neg ‹_›]
    simp only [Bool.and_eq_true, decide_eq_true_eq] at h ⊢
    omega

/-- A grid has a point in the interval if one of the two neighbours of the magnitude is there. -/
theorem onGrid?_isSome_iff {m : Magnitude} {tie : Tie} {k : Int} :
    (m.onGrid? tie k).isSome = true ↔
      m.covers (pow10 (-k).toNat) (m.quarters * pow10 (-k).toNat / (pow10 k.toNat * pow2 1076) *
          (pow10 k.toNat * pow2 1076)) = true ∨
        m.covers (pow10 (-k).toNat)
          ((m.quarters * pow10 (-k).toNat / (pow10 k.toNat * pow2 1076) + 1) *
            (pow10 k.toNat * pow2 1076)) = true := by
  simp only [onGrid?]
  split <;> simp [*]

/-- On a grid whose points are nearer to each other than the ends of the interval, one of the two
neighbours of the magnitude lies in the interval. -/
theorem onGrid?_isSome {m : Magnitude} {tie : Tie} {k : Int} (hm : m.significand ≠ 0)
    (h : m.lowerEnd * pow10 (-k).toNat + pow10 k.toNat * pow2 1076 <
      m.upperEnd * pow10 (-k).toNat) : (m.onGrid? tie k).isSome = true := by
  have hstep : 0 < pow10 k.toNat * pow2 1076 := Nat.mul_pos (pow10_pos _) (pow2_pos _)
  have hscale := pow10_pos (-k).toNat
  obtain ⟨-, -, hlo, hhi⟩ := lowerEnd_le hm
  have hvlo : m.lowerEnd * pow10 (-k).toNat < m.quarters * pow10 (-k).toNat :=
    Nat.mul_lt_mul_of_pos_right hlo hscale
  have hvhi : m.quarters * pow10 (-k).toNat < m.upperEnd * pow10 (-k).toNat :=
    Nat.mul_lt_mul_of_pos_right hhi hscale
  rw [onGrid?_isSome_iff]
  generalize hst : pow10 k.toNat * pow2 1076 = step at *
  generalize hsc : pow10 (-k).toNat = scale at *
  have hdm := Nat.div_add_mod (m.quarters * scale) step
  have hr := Nat.mod_lt (m.quarters * scale) hstep
  generalize m.quarters * scale / step = low at *
  rw [Nat.mul_comm step low] at hdm
  have hnext : (low + 1) * step = low * step + step := by rw [Nat.add_mul, Nat.one_mul]
  simp only [covers]
  split
  · simp only [Bool.and_eq_true, decide_eq_true_eq]
    omega
  · simp only [Bool.and_eq_true, decide_eq_true_eq]
    omega

/-- A grid with any point in the interval has one next to the magnitude. -/
theorem onGrid?_isSome_of_holds {m : Magnitude} {c : Nat} {k : Int} (tie : Tie)
    (hm : m.significand ≠ 0) (h : m.Holds ⟨c, k⟩) : (m.onGrid? tie k).isSome = true := by
  have hstep : 0 < pow10 k.toNat * pow2 1076 := Nat.mul_pos (pow10_pos _) (pow2_pos _)
  have hscale := pow10_pos (-k).toNat
  simp only [Holds, scale, scaled] at h
  rw [onGrid?_isSome_iff]
  generalize pow10 k.toNat * pow2 1076 = step at *
  have hdm := Nat.div_add_mod (m.quarters * pow10 (-k).toNat) step
  have hr := Nat.mod_lt (m.quarters * pow10 (-k).toNat) hstep
  have hnext := Nat.add_mul (m.quarters * pow10 (-k).toNat / step) 1 step
  rw [Nat.mul_comm] at hdm
  rcases Nat.le_total c (m.quarters * pow10 (-k).toNat / step) with hc | hc
  · have hle := Nat.mul_le_mul_right step hc
    exact .inl (covers_between hm hscale h (.inl ⟨hle, by omega⟩))
  · rcases Nat.eq_or_lt_of_le hc with rfl | hc
    · exact .inl h
    · have hle := Nat.mul_le_mul_right step (Nat.succ_le_of_lt hc)
      exact .inr (covers_between hm hscale h (.inr ⟨by omega, hle⟩))

/-- A magnitude on a grid is the point next to itself. -/
theorem onGrid?_of_quarters {m : Magnitude} {n k : Nat} (tie : Tie) (hm : m.significand ≠ 0)
    (h : m.quarters = n * (pow10 k * pow2 1076)) : m.onGrid? tie k = some n := by
  have hstep : 0 < pow10 k * pow2 1076 := Nat.mul_pos (pow10_pos _) (pow2_pos _)
  obtain ⟨-, -, hlo, hhi⟩ := lowerEnd_le hm
  have hcovers : m.covers 1 (n * (pow10 k * pow2 1076)) = true := by
    rw [← h]
    simp only [covers, Nat.mul_one]
    split <;> simp only [Bool.and_eq_true, decide_eq_true_eq] <;> omega
  have hscale : pow10 (-(k : Int)).toNat = 1 := by rw [Int.toNat_neg_natCast]; rfl
  simp only [onGrid?, hscale, Int.toNat_natCast, Nat.mul_one, h, Nat.mul_div_cancel _ hstep,
    Nat.mul_mod_left, hcovers, nearer]
  rw [if_pos hstep]
  split <;> simp_all

theorem place_bounds (m : Magnitude) (hm : m.significand ≠ 0) :
    ∃ L : Nat, m.place = L - 400 ∧ pow10 L * pow2 1076 ≤ m.quarters * pow10 400 ∧
      m.quarters * pow10 400 < pow10 (L + 1) * pow2 1076 := by
  have hq : 4 ≤ m.quarters := by
    have : 1 ≤ m.units := Nat.mul_pos (by omega) (pow2_pos _)
    simp only [quarters]
    omega
  have hn : m.quarters * pow10 400 / pow2 1076 ≠ 0 := by
    have h1 : 1 * pow2 1076 ≤ m.quarters * pow10 400 := by
      calc 1 * pow2 1076 ≤ pow10 400 := by rw [Nat.one_mul]; decide +kernel
        _ ≤ m.quarters * pow10 400 := Nat.le_mul_of_pos_left _ (by omega)
    have := (Nat.le_div_iff_mul_le (pow2_pos 1076)).2 h1
    omega
  have hpos : 0 < (digits (m.quarters * pow10 400 / pow2 1076)).length :=
    List.length_pos_iff.2 (digits_ne_nil _)
  refine ⟨(digits (m.quarters * pow10 400 / pow2 1076)).length - 1, ?_, ?_, ?_⟩
  · simp only [place]
    omega
  · exact (Nat.le_div_iff_mul_le (pow2_pos _)).1 (pow10_le_of_digits_length hn (by omega))
  · rw [Nat.sub_add_cancel hpos]
    exact (Nat.div_lt_iff_lt_mul (pow2_pos _)).1 (lt_pow10_digits_length _)

/-- Seventeen digits suffice. -/
theorem onGrid?_seventeen {m : Magnitude} (tie : Tie) (hm : m.significand ≠ 0) :
    (m.onGrid? tie (m.place + 1 - 17)).isSome = true := by
  obtain ⟨L, hL, hle, -⟩ := place_bounds m hm
  apply onGrid?_isSome hm
  rw [hL]
  generalize hk : (L : Int) - 400 + 1 - 17 = k
  have hscale := pow10_pos (-k).toNat
  have hlt := m.significand_lt
  -- the step of the grid over its scale is `10 ^ (L - 416)`
  have hstep : pow10 k.toNat * pow2 1076 * pow10 416 = pow10 (-k).toNat * (pow10 L * pow2 1076) := by
    have he : pow10 k.toNat * pow10 416 = pow10 (-k).toNat * pow10 L := by
      rw [← pow10_add, ← pow10_add]
      congr 1
      omega
    calc pow10 k.toNat * pow2 1076 * pow10 416 = pow10 k.toNat * pow10 416 * pow2 1076 := by ring
      _ = pow10 (-k).toNat * (pow10 L * pow2 1076) := by rw [he]; ring
  have hbound : pow10 k.toNat * pow2 1076 * pow10 16 ≤
      4 * (m.significand * (pow2 m.shift * pow10 (-k).toNat)) := by
    refine Nat.le_of_mul_le_mul_right ?_ (pow10_pos 400)
    calc pow10 k.toNat * pow2 1076 * pow10 16 * pow10 400
        = pow10 k.toNat * pow2 1076 * pow10 416 := by
          rw [show 416 = 16 + 400 from rfl, pow10_add]; ring
      _ = pow10 (-k).toNat * (pow10 L * pow2 1076) := hstep
      _ ≤ pow10 (-k).toNat * (m.quarters * pow10 400) := Nat.mul_le_mul_left _ hle
      _ = 4 * (m.significand * (pow2 m.shift * pow10 (-k).toNat)) * pow10 400 := by
          simp only [quarters, units]; ring
  have hunit : 0 < pow2 m.shift * pow10 (-k).toNat := Nat.mul_pos (pow2_pos _) hscale
  obtain ⟨h3, h4, -, -⟩ := lowerEnd_le hm
  rw [show pow10 16 = 10000000000000000 from rfl] at hbound
  by_cases hpow : m.significand = 0x10000000000000
  · have hwide := Nat.mul_le_mul_right (pow10 (-k).toNat) h3
    rw [Nat.add_mul, Nat.mul_assoc] at hwide
    rw [hpow] at hbound
    omega
  · have hwide := Nat.mul_le_mul_right (pow10 (-k).toNat) (h4 hpow)
    rw [Nat.add_mul, Nat.mul_assoc] at hwide
    have hsig : m.significand * (pow2 m.shift * pow10 (-k).toNat) ≤
        0x1FFFFFFFFFFFFF * (pow2 m.shift * pow10 (-k).toNat) := Nat.mul_le_mul_right _ (by omega)
    omega

/-- The grids that are tried, from the coarsest to the finest. -/
def grids (m : Magnitude) : List Int := (List.range 18).map fun (i : Nat) => m.place + 1 - (i : Int)

theorem mem_grids {m : Magnitude} {k : Int} :
    k ∈ m.grids ↔ m.place + 1 - 17 ≤ k ∧ k ≤ m.place + 1 := by
  rw [grids, List.mem_map]
  constructor
  · rintro ⟨i, hi, rfl⟩
    have := List.mem_range.1 hi
    omega
  · rintro ⟨hlo, hhi⟩
    exact ⟨(m.place + 1 - k).toNat, List.mem_range.2 (by omega), by omega⟩

theorem pairwise_grids (m : Magnitude) : m.grids.Pairwise fun a b => b < a := by
  rw [grids, List.pairwise_map]
  exact List.pairwise_lt_range.imp fun hab => by omega

theorem shortest_eq {m : Magnitude} (tie : Tie) (hm : m.significand ≠ 0) :
    m.shortest tie =
      (m.grids.findSome? fun k => (m.onGrid? tie k).map fun c => ⟨c, k⟩).getD ⟨0, 0⟩ := by
  rw [shortest, if_neg hm, grids]

/-- The shortest decimal is the point of its grid next to the magnitude, and no coarser grid has a
point in the interval. -/
theorem onGrid?_shortest {m : Magnitude} (tie : Tie) (hm : m.significand ≠ 0) :
    m.onGrid? tie (m.shortest tie).exponent = some (m.shortest tie).coefficient ∧
      ∀ k, (m.shortest tie).exponent < k → k ≤ m.place + 1 → m.onGrid? tie k = none := by
  rw [shortest_eq tie hm]
  cases hf : m.grids.findSome? fun k => (m.onGrid? tie k).map fun c => (⟨c, k⟩ : Decimal) with
  | none =>
    have hnone := List.findSome?_eq_none_iff.1 hf _ (mem_grids.2 ⟨Int.le_refl _, by omega⟩)
    have hs := onGrid?_seventeen tie hm
    rw [Option.map_eq_none_iff.1 hnone] at hs
    cases hs
  | some d =>
    obtain ⟨coarser, k, finer, hgrids, hk, hnone⟩ := List.findSome?_eq_some_iff.1 hf
    obtain ⟨c, hc, rfl⟩ := Option.map_eq_some_iff.1 hk
    refine ⟨hc, fun l (hkl : k < l) hl => Option.map_eq_none_iff.1 (hnone l ?_)⟩
    have hkgrids : k ∈ m.grids := by rw [hgrids]; simp
    have hlgrids : l ∈ coarser ++ k :: finer := by
      rw [← hgrids, mem_grids]
      have := mem_grids.1 hkgrids
      omega
    have hsorted := pairwise_grids m
    rw [hgrids, List.pairwise_append, List.pairwise_cons] at hsorted
    rcases List.mem_append.1 hlgrids with h | h
    · exact h
    · rcases List.mem_cons.1 h with rfl | h
      · exact absurd hkl (Int.lt_irrefl _)
      · have := hsorted.2.1.1 l h
        omega

/-- The shortest decimal of a magnitude lies in its interval. -/
theorem holds_shortest {m : Magnitude} (tie : Tie) (hm : m.significand ≠ 0) :
    m.Holds (m.shortest tie) :=
  holds_of_onGrid? (onGrid?_shortest tie hm).1

theorem le_place_of_holds {m : Magnitude} {c k : Nat} (hm : m.significand ≠ 0)
    (h : m.Holds ⟨c, k⟩) : (k : Int) ≤ m.place + 1 := by
  obtain ⟨L, hL, -, hlt⟩ := place_bounds m hm
  have hc : 1 ≤ c := Nat.one_le_iff_ne_zero.2 (coefficient_ne_zero_of_holds hm h)
  obtain ⟨-, hhi, -, -⟩ := (covers_iff hm).1 h
  rw [scale_ofNat, scaled_ofNat, Nat.mul_assoc, Nat.one_mul] at hhi
  have hstep : 1 * pow2 m.shift ≤ m.significand * pow2 m.shift := Nat.mul_le_mul_right _ (by omega)
  have hle : 1 * (pow10 k * pow2 1076) ≤ c * (pow10 k * pow2 1076) := Nat.mul_le_mul_right _ hc
  have hquarters : pow10 k * pow2 1076 ≤ 2 * m.quarters := by
    simp only [quarters, units]
    omega
  rw [hL]
  by_contra hk
  have hpow : pow10 (L + 1 + 1) ≤ pow10 (k + 400) := pow10_le_pow10 (by omega)
  have hlarge : pow10 (L + 1 + 1) * pow2 1076 ≤ 2 * (m.quarters * pow10 400) := by
    calc pow10 (L + 1 + 1) * pow2 1076 ≤ pow10 (k + 400) * pow2 1076 :=
          Nat.mul_le_mul_right _ hpow
      _ = pow10 k * pow2 1076 * pow10 400 := by rw [pow10_add]; ring
      _ ≤ 2 * m.quarters * pow10 400 := Nat.mul_le_mul_right _ hquarters
      _ = 2 * (m.quarters * pow10 400) := Nat.mul_assoc ..
  rw [pow10_succ, Nat.mul_assoc] at hlarge
  omega

/-- No decimal that rounds to a magnitude ends in more zeros than the shortest one. -/
theorem le_exponent_shortest {m : Magnitude} {c k : Nat} (tie : Tie) (hm : m.significand ≠ 0)
    (h : m.Holds ⟨c, k⟩) : (k : Int) ≤ (m.shortest tie).exponent := by
  by_contra hk
  have hnone := (onGrid?_shortest tie hm).2 k (by omega) (le_place_of_holds hm h)
  have hsome := onGrid?_isSome_of_holds tie hm h
  rw [hnone] at hsome
  cases hsome

theorem eq_zero_of_significand {m : Magnitude} (hm : m.significand = 0) : m = zero := by
  obtain ⟨sig, s, hlt, hle, hn⟩ := m
  simp only at hm
  subst hm
  obtain rfl : s = 0 := hn.resolve_right (by decide)
  rfl

theorem shortest_zero (tie : Tie) : zero.shortest tie = ⟨0, 0⟩ := rfl

/-- The shortest decimal of a magnitude rounds back to it. -/
theorem ofDecimal?_shortest (m : Magnitude) (tie : Tie) : ofDecimal? (m.shortest tie) = some m := by
  by_cases hm : m.significand = 0
  · rw [eq_zero_of_significand hm, shortest_zero]
    rfl
  · exact ofDecimal?_of_holds hm (holds_shortest tie hm)

/-- Any other way to write the shortest decimal rounds back as well. -/
theorem ofDecimal?_of_shortest {m : Magnitude} {d : Decimal} (tie : Tie)
    (h : scaled d * scale (m.shortest tie) = scaled (m.shortest tie) * scale d) :
    ofDecimal? d = some m := by
  by_cases hm : m.significand = 0
  · rw [eq_zero_of_significand hm, shortest_zero] at h
    have hzero : scaled d * scale ⟨0, 0⟩ = 0 := by
      rw [h, scaled, Nat.zero_mul, Nat.zero_mul]
    have hstep : pow10 d.exponent.toNat * pow2 1076 ≠ 0 :=
      Nat.ne_of_gt (Nat.mul_pos (pow10_pos _) (pow2_pos _))
    have hscaled : scaled d = 0 :=
      (Nat.mul_eq_zero.1 hzero).resolve_right (Nat.ne_of_gt (scale_pos _))
    have hd : d.coefficient = 0 := (Nat.mul_eq_zero.1 hscaled).resolve_right hstep
    rw [ofDecimal?, if_pos (.inl hd), eq_zero_of_significand hm]
  · exact ofDecimal?_of_holds hm ((holds_congr h).2 (holds_shortest tie hm))

end Magnitude

end RecordFilter
