import RecordFilter.Number.Shortest
import Mathlib.Tactic.Linarith
import Mathlib.Tactic.Ring

/-!
# Rounding to the nearest grid point

A ratio that lies in the interval of a magnitude, as `Magnitude.covers` draws it,
rounds to that magnitude.

    m.covers den (4 * num) → ofRatio? num den = some m          (ofRatio?_of_covers)
    ofRatio? num 1 = some m → m.covers 1 (4 * num)              (covers_of_ofRatio?)
    ofRatio? num 1 = some m → 2 ^ 53 * |m.units - num| ≤ num    (units_near)
    n.natAbs < pow2 65 → (Binary64.ofInt n).isFinite            (isFinite_ofInt)
-/

namespace RecordFilter

/-! ## Powers -/

theorem pow2_le_pow2 {a b : Nat} (h : a ≤ b) : pow2 a ≤ pow2 b :=
  Nat.pow_le_pow_right (by decide) h

theorem pow10_le_pow10 {a b : Nat} (h : a ≤ b) : pow10 a ≤ pow10 b :=
  Nat.pow_le_pow_right (by decide) h

theorem pow2_add_two (a : Nat) : pow2 (a + 2) = 4 * pow2 a := by
  rw [pow2_add, Nat.mul_comm]; rfl

theorem pow2_succ (k : Nat) : pow2 (k + 1) = 2 * pow2 k := by
  rw [pow2_add, Nat.mul_comm]
  rfl

theorem pow10_succ (k : Nat) : pow10 (k + 1) = 10 * pow10 k := by
  rw [pow10_add, Nat.mul_comm]
  rfl

/-! ## Quotients -/

/-- A whole number at most a half away is the rounded quotient; exactly a half away only an even
number is. -/
theorem divEven_eq {num den k : Nat} (hden : 0 < den) (hlo : 2 * (k * den) ≤ 2 * num + den)
    (hhi : 2 * num ≤ 2 * (k * den) + den)
    (hodd : k % 2 = 1 → 2 * (k * den) < 2 * num + den ∧ 2 * num < 2 * (k * den) + den) :
    divEven num den = k := by
  have hdm := Nat.div_add_mod num den
  have hr := Nat.mod_lt num hden
  simp only [divEven]
  generalize num / den = q at *
  generalize num % den = r at *
  -- only the two neighbours of the quotient are near enough
  have hk : k = q ∨ k = q + 1 := by
    have h1 : q ≤ k := by
      by_contra hlt
      have : (k + 1) * den ≤ den * q := by
        rw [Nat.mul_comm den]; exact Nat.mul_le_mul_right den (by omega)
      rw [Nat.add_mul] at this
      omega
    have h2 : k ≤ q + 1 := by
      by_contra hlt
      have : den * (q + 2) ≤ k * den := by
        rw [Nat.mul_comm den]; exact Nat.mul_le_mul_right den (by omega)
      rw [Nat.mul_add] at this
      omega
    omega
  rcases hk with rfl | rfl
  · rw [Nat.mul_comm k] at *
    split
    · rfl
    · split
      · omega
      · have : k % 2 ≠ 1 := fun h => by have := hodd h; omega
        omega
  · rw [Nat.add_mul, Nat.one_mul, Nat.mul_comm q] at *
    split
    · omega
    · split
      · rfl
      · have : (q + 1) % 2 ≠ 1 := fun h => by have := hodd h; omega
        omega

/-- A rounded quotient is at most a half away. -/
theorem divEven_near (num : Nat) {den : Nat} (hden : 0 < den) :
    2 * (divEven num den * den) ≤ 2 * num + den ∧
    2 * num ≤ 2 * (divEven num den * den) + den := by
  have hdm := Nat.div_add_mod num den
  have hr := Nat.mod_lt num hden
  simp only [divEven]
  generalize num / den = q at *
  generalize num % den = r at *
  have hnext : (q + 1) * den = den * q + den := by ring
  have hsame : q * den = den * q := Nat.mul_comm q den
  split
  · omega
  · split
    · omega
    · rcases Nat.mod_two_eq_zero_or_one q with h | h
      · rw [h, Nat.add_zero]
        omega
      · rw [h]
        omega

/-- An odd quotient is less than a half away. -/
theorem divEven_near_of_odd {num den : Nat} (hden : 0 < den) (h : divEven num den % 2 = 1) :
    2 * (divEven num den * den) < 2 * num + den ∧
    2 * num < 2 * (divEven num den * den) + den := by
  have hdm := Nat.div_add_mod num den
  have hr := Nat.mod_lt num hden
  simp only [divEven] at h ⊢
  generalize num / den = q at *
  generalize num % den = r at *
  have hnext : (q + 1) * den = den * q + den := by ring
  have hsame : q * den = den * q := Nat.mul_comm q den
  split
  · omega
  · split
    · omega
    · rename_i hlow hhigh
      rw [if_neg hlow, if_neg hhigh] at h
      omega

/-! ## Shifts -/

theorem shiftOf_of_lt {q : Nat} (h : q < 0x20000000000000) : shiftOf q = 0 := by
  rcases Nat.eq_zero_or_pos q with rfl | hq
  · decide
  · have := (Nat.log2_lt (by omega : q ≠ 0)).2 (show q < 2 ^ 53 from h)
    simp only [shiftOf]
    omega

theorem shiftOf_of_bounds {q s : Nat} (hlo : 0x10000000000000 * pow2 s ≤ q)
    (hhi : q < 0x20000000000000 * pow2 s) : shiftOf q = s := by
  have hp := pow2_pos s
  have h1 : 2 ^ (52 + s) ≤ q := by rw [Nat.pow_add]; exact hlo
  have h2 : q < 2 ^ (52 + s + 1) := by
    rw [show 52 + s + 1 = 53 + s by omega, Nat.pow_add]; exact hhi
  have := (Nat.log2_eq_iff (by omega : q ≠ 0)).2 ⟨h1, h2⟩
  simp only [shiftOf]
  omega

theorem shiftOf_lt {q k : Nat} (hk : 0 < k) (h : q < pow2 k) : shiftOf q < k := by
  rcases Nat.eq_zero_or_pos q with rfl | hq
  · exact hk
  · have hlog : q.log2 < k := (Nat.log2_lt (Nat.ne_of_gt hq)).2 h
    simp only [shiftOf]
    omega

theorem lt_of_shiftOf_lt {q s : Nat} (h : shiftOf q < s) : q < pow2 (52 + s) := by
  unfold shiftOf at h
  have hlog : q.log2 + 1 ≤ 52 + s := by omega
  calc q < pow2 (q.log2 + 1) := Nat.lt_log2_self
    _ ≤ pow2 (52 + s) := pow2_le_pow2 hlog

theorem le_of_lt_shiftOf {q s : Nat} (h : s < shiftOf q) : pow2 (53 + s) ≤ q := by
  unfold shiftOf at h
  have hlog : 53 + s ≤ q.log2 := by omega
  have hq : q ≠ 0 := by
    rintro rfl
    rw [Nat.log2_zero] at hlog
    omega
  calc pow2 (53 + s) ≤ pow2 q.log2 := pow2_le_pow2 hlog
    _ ≤ q := Nat.log2_self_le hq

/-! ## Grid points -/

namespace Magnitude

/-- Rounding takes the significand of the shift that fits. -/
theorem ofRatio?_eq_some {num den : Nat} {m : Magnitude} (hs : shiftOf (num / den) = m.shift)
    (hr : divEven num (den * pow2 m.shift) = m.significand) : ofRatio? num den = some m := by
  obtain ⟨sig, s, hlt, hle, hn⟩ := m
  simp only at hs hr
  subst hs
  simp only [ofRatio?]
  rw [dif_pos (by rw [hr]; exact hlt), dif_pos hle]
  simp only [hr]

/-- Just below a power of two rounding goes up to the next shift. -/
theorem ofRatio?_eq_some_of_carry {num den : Nat} {m : Magnitude}
    (hs : shiftOf (num / den) + 1 = m.shift) (hm : m.significand = 0x10000000000000)
    (hr : divEven num (den * pow2 (shiftOf (num / den))) = 0x20000000000000) :
    ofRatio? num den = some m := by
  obtain ⟨sig, s, hlt, hle, hn⟩ := m
  simp only at hs hm
  subst hm hs
  simp only [ofRatio?, hr]
  rw [dif_neg (by decide), dif_pos hle]

/-- The interval of a magnitude as inequalities: at most half a step away, and only a quarter of
a step below a power of two, where the steps become half as long. -/
theorem covers_iff {m : Magnitude} {scale a : Nat} (hm : m.significand ≠ 0) :
    m.covers scale a = true ↔
      4 * (m.significand * (scale * pow2 m.shift)) ≤ a + 2 * (scale * pow2 m.shift) ∧
      a ≤ 4 * (m.significand * (scale * pow2 m.shift)) + 2 * (scale * pow2 m.shift) ∧
      (m.significand = 0x10000000000000 ∧ 0 < m.shift →
        4 * (m.significand * (scale * pow2 m.shift)) ≤ a + scale * pow2 m.shift) ∧
      (m.significand % 2 = 1 →
        4 * (m.significand * (scale * pow2 m.shift)) < a + 2 * (scale * pow2 m.shift) ∧
        a < 4 * (m.significand * (scale * pow2 m.shift)) + 2 * (scale * pow2 m.shift)) := by
  have hu : m.upperEnd * scale =
      4 * (m.significand * (scale * pow2 m.shift)) + 2 * (scale * pow2 m.shift) := by
    simp only [upperEnd, quarters, units]; ring
  have hl : m.lowerEnd * scale + (if m.significand = 0x10000000000000 ∧ 0 < m.shift
      then scale * pow2 m.shift else 2 * (scale * pow2 m.shift)) =
      4 * (m.significand * (scale * pow2 m.shift)) := by
    have hge : 1 * pow2 m.shift ≤ m.significand * pow2 m.shift :=
      Nat.mul_le_mul_right _ (by omega)
    simp only [lowerEnd, quarters, units]
    split
    · rw [Nat.mul_comm scale (pow2 m.shift), ← Nat.add_mul, Nat.sub_add_cancel (by omega)]
      ring
    · rw [show 2 * (scale * pow2 m.shift) = 2 * pow2 m.shift * scale by ring, ← Nat.add_mul,
        Nat.sub_add_cancel (by omega)]
      ring
  unfold covers
  generalize m.significand * (scale * pow2 m.shift) = center at *
  generalize scale * pow2 m.shift = step at *
  split
  · rename_i heven
    simp only [Bool.and_eq_true, decide_eq_true_eq]
    split at hl
    · rename_i hc
      exact ⟨fun h => ⟨by omega, by omega, fun _ => by omega, by omega⟩,
        fun ⟨_, hhi, hpow, _⟩ => ⟨by have := hpow hc; omega, by omega⟩⟩
    · rename_i hc
      exact ⟨fun h => ⟨by omega, by omega, fun h2 => absurd h2 hc, by omega⟩,
        fun ⟨hlo, hhi, _, _⟩ => ⟨by omega, by omega⟩⟩
  · rename_i hodd
    have hc : ¬(m.significand = 0x10000000000000 ∧ 0 < m.shift) := by omega
    rw [if_neg hc] at hl
    simp only [Bool.and_eq_true, decide_eq_true_eq]
    exact ⟨fun h => ⟨by omega, by omega, fun h2 => absurd h2 hc, fun _ => ⟨by omega, by omega⟩⟩,
      fun ⟨_, _, _, hstrict⟩ => by have := hstrict (by omega); omega⟩

/-- A ratio in the interval of a magnitude rounds to it. -/
theorem ofRatio?_of_covers {m : Magnitude} {num den : Nat} (hden : 0 < den)
    (hm : m.significand ≠ 0) (h : m.covers den (4 * num) = true) : ofRatio? num den = some m := by
  obtain ⟨hlo, hhi, hpow, hodd⟩ := (covers_iff hm).1 h
  have hlt := m.significand_lt
  have hp := pow2_pos m.shift
  have hx : 0 < den * pow2 m.shift := Nat.mul_pos hden hp
  have hdiv : ∀ a, a ≤ num / den ↔ a * den ≤ num := fun a => Nat.le_div_iff_mul_le hden
  -- with the right shift, the interval is that of the rounded quotient
  have hround : divEven num (den * pow2 m.shift) = m.significand :=
    divEven_eq hx (by omega) (by omega) fun ho => by have := hodd ho; omega
  -- the upper end stays below the next power of two
  have hupper : num < 0x20000000000000 * (den * pow2 m.shift) := by
    have hle : m.significand * (den * pow2 m.shift) ≤
        0x1FFFFFFFFFFFFF * (den * pow2 m.shift) := Nat.mul_le_mul_right _ (by omega)
    omega
  have hq : num / den < 0x20000000000000 * pow2 m.shift := by
    rw [Nat.div_lt_iff_lt_mul hden]
    calc num < 0x20000000000000 * (den * pow2 m.shift) := hupper
      _ = 0x20000000000000 * pow2 m.shift * den := by ring
  rcases Nat.eq_zero_or_pos m.shift with hs | hs
  · rw [hs] at hq
    exact ofRatio?_eq_some (by rw [hs]; exact shiftOf_of_lt hq) hround
  · have hn : 0x10000000000000 ≤ m.significand := m.normal.resolve_left (by omega)
    rcases Nat.lt_or_ge num (0x10000000000000 * (den * pow2 m.shift)) with hbelow | habove
    · -- below a power of two the quotient still has the shift before
      have hsig : m.significand = 0x10000000000000 := by
        by_contra hne
        have : 0x10000000000001 * (den * pow2 m.shift) ≤ m.significand * (den * pow2 m.shift) :=
          Nat.mul_le_mul_right _ (by omega)
        omega
      have hquarter := hpow ⟨hsig, hs⟩
      rw [hsig] at hquarter
      obtain ⟨s, hs'⟩ : ∃ s, m.shift = s + 1 := ⟨m.shift - 1, by omega⟩
      have htwice : den * pow2 m.shift = 2 * (den * pow2 s) := by
        rw [hs', pow2_add, show pow2 1 = 2 from rfl]; ring
      rw [htwice] at hbelow hquarter
      have hsh : shiftOf (num / den) = s := by
        apply shiftOf_of_bounds
        · rw [hdiv]
          calc 0x10000000000000 * pow2 s * den = 0x10000000000000 * (den * pow2 s) := by ring
            _ ≤ num := by omega
        · rw [Nat.div_lt_iff_lt_mul hden]
          calc num < 0x20000000000000 * (den * pow2 s) := by omega
            _ = 0x20000000000000 * pow2 s * den := by ring
      refine ofRatio?_eq_some_of_carry (by omega) hsig ?_
      rw [hsh]
      exact divEven_eq (Nat.mul_pos hden (pow2_pos s)) (by omega) (by omega) (by omega)
    · refine ofRatio?_eq_some (shiftOf_of_bounds ?_ hq) hround
      rw [hdiv]
      calc 0x10000000000000 * pow2 m.shift * den = 0x10000000000000 * (den * pow2 m.shift) := by ring
        _ ≤ num := habove

/-! ## Distances -/

/-- A carry takes the quotient to the power of two and no further. -/
theorem divEven_of_carry {num : Nat} (h : ¬divEven num (pow2 (shiftOf num)) < 0x20000000000000) :
    divEven num (pow2 (shiftOf num)) = 0x20000000000000 := by
  obtain ⟨hle, -⟩ := divEven_near num (pow2_pos (shiftOf num))
  have hp := pow2_pos (shiftOf num)
  have hlt : num < pow2 53 * pow2 (shiftOf num) := by
    rw [← pow2_add, show 53 + shiftOf num = 52 + (shiftOf num + 1) by omega]
    exact lt_of_shiftOf_lt (Nat.lt_succ_self _)
  have hstep : 0x20000000000001 ≤ divEven num (pow2 (shiftOf num)) →
      0x20000000000001 * pow2 (shiftOf num) ≤
        divEven num (pow2 (shiftOf num)) * pow2 (shiftOf num) :=
    fun hge => Nat.mul_le_mul_right _ hge
  rw [show pow2 53 = 0x20000000000000 from rfl] at hlt
  omega

/-- Both ways of writing the result count the rounded quotient. -/
theorem units_ofRatio? {num : Nat} {m : Magnitude} (h : ofRatio? num 1 = some m) :
    m.units = divEven num (pow2 (shiftOf num)) * pow2 (shiftOf num) := by
  simp only [ofRatio?, Nat.div_one, Nat.one_mul] at h
  split at h
  · split at h
    · obtain rfl := Option.some.inj h
      rfl
    · cases h
  · rename_i hlarge
    split at h
    · obtain rfl := Option.some.inj h
      rw [divEven_of_carry hlarge, units, pow2_add, show pow2 1 = 2 from rfl]
      ring
    · cases h

/-- A whole count of units lies in the interval of the magnitude that it rounds to. -/
theorem covers_of_ofRatio? {num : Nat} {m : Magnitude} (hm : m.significand ≠ 0)
    (h : ofRatio? num 1 = some m) : m.covers 1 (4 * num) = true := by
  have hp := pow2_pos (shiftOf num)
  obtain ⟨hle, hge⟩ := divEven_near num hp
  rw [covers_iff hm]
  simp only [ofRatio?, Nat.div_one, Nat.one_mul] at h
  split at h
  · split at h
    · obtain rfl := Option.some.inj h
      -- a count that is shifted is not below the power of two
      have hpow : 0 < shiftOf num → 0x10000000000000 * pow2 (shiftOf num) ≤ num := by
        intro hs
        calc 0x10000000000000 * pow2 (shiftOf num) = pow2 (53 + (shiftOf num - 1)) := by
              rw [show 53 + (shiftOf num - 1) = 52 + shiftOf num by omega, pow2_add]
              rfl
          _ ≤ num := le_of_lt_shiftOf (by omega)
      simp only [Nat.one_mul]
      refine ⟨by omega, by omega, ?_, fun hodd => ?_⟩
      · rintro ⟨hsig, hs⟩
        have := hpow hs
        rw [hsig]
        omega
      · have := divEven_near_of_odd hp hodd
        omega
    · cases h
  · rename_i hlarge
    split at h
    · obtain rfl := Option.some.inj h
      rw [divEven_of_carry hlarge] at hle hge
      simp only [Nat.one_mul, pow2_succ]
      omega
    · cases h

/-- The rounding of a whole count of units is off by at most one part in `2 ^ 53`. -/
theorem units_near {num : Nat} {m : Magnitude} (h : ofRatio? num 1 = some m) :
    0x20000000000000 * m.units ≤ 0x20000000000001 * num ∧
    0x1FFFFFFFFFFFFF * num ≤ 0x20000000000000 * m.units := by
  obtain ⟨hle, hge⟩ := divEven_near num (pow2_pos (shiftOf num))
  rw [units_ofRatio? h]
  rcases Nat.eq_zero_or_pos (shiftOf num) with hs | hs
  · rw [hs, show pow2 0 = 1 from rfl] at hle hge ⊢
    omega
  · have hsmall : pow2 52 * pow2 (shiftOf num) ≤ num := by
      rw [← pow2_add, show 52 + shiftOf num = 53 + (shiftOf num - 1) by omega]
      exact le_of_lt_shiftOf (by omega)
    rw [show pow2 52 = 0x10000000000000 from rfl] at hsmall
    omega

/-! ## Sizes -/

/-- What is shifted less than the largest grid points is not too large. -/
theorem ofRatio?_isSome {num den : Nat} (h : shiftOf (num / den) < 2045) :
    (ofRatio? num den).isSome = true := by
  simp only [ofRatio?]
  split
  · rw [dif_pos (by omega)]
    rfl
  · rw [dif_pos (by omega)]
    rfl

theorem ofNat?_isSome {n : Nat} (h : n < pow2 65) : (ofNat? n).isSome = true := by
  have hlt : n * pow2 1074 < pow2 (65 + 1074) := by
    rw [pow2_add]
    exact Nat.mul_lt_mul_of_pos_right h (pow2_pos _)
  have hshift := shiftOf_lt (by decide) hlt
  clear hlt
  apply ofRatio?_isSome
  rw [Nat.div_one]
  omega

end Magnitude

/-- Whole numbers of 64 bits, signed or unsigned, are rounded to finite numbers. -/
theorem isFinite_ofInt {n : Int} (h : n.natAbs < pow2 65) : (Binary64.ofInt n).isFinite = true := by
  obtain ⟨m, hm⟩ := Option.isSome_iff_exists.1 (Magnitude.ofNat?_isSome h)
  rw [Binary64.ofInt, hm]
  rfl

end RecordFilter
