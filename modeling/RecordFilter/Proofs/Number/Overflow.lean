import RecordFilter.Proofs.Number.Digits
import RecordFilter.Proofs.Number.Rounding

/-!
# Numbers that are too large

Rounding has no result exactly from half a step above the largest finite number on,
which is `2 ^ 1024 - 2 ^ 970`: there a tie would go to the even neighbour, and
that is too large (ofRatio?_eq_none_iff).  A decimal that is settled by the place of
its leading digit is on the right side of this bound (ofDecimal?_ofParts_eq_none_iff).
-/

namespace RecordFilter

/-- Half a step above the largest finite number. -/
def overflow : Nat := pow2 1024 - pow2 970

theorem overflow_eq : overflow = (pow2 54 - 1) * pow2 970 := by decide +kernel

theorem overflow_pos : 0 < overflow := by decide +kernel

theorem overflow_le : overflow ≤ pow10 311 := by decide +kernel

/-! ## Ratios -/

/-- A quotient stays at most an odd `k` until it is a half above it: the half goes to `k + 1`. -/
theorem divEven_le_iff {num den k : Nat} (hden : 0 < den) (hk : k % 2 = 1) :
    divEven num den ≤ k ↔ 2 * num < (2 * k + 1) * den := by
  have hdm := Nat.div_add_mod num den
  have hr := Nat.mod_lt num hden
  simp only [divEven]
  generalize num / den = q at *
  generalize num % den = r at *
  have hexpand : (2 * k + 1) * den = 2 * (den * k) + den := by ring
  rw [hexpand]
  rcases Nat.lt_trichotomy q k with hlt | rfl | hgt
  · have hstep : den * (q + 1) ≤ den * k := Nat.mul_le_mul_left den hlt
    rw [Nat.mul_add, Nat.mul_one] at hstep
    refine iff_of_true ?_ (by omega)
    split
    · omega
    · split
      · omega
      · omega
  · split
    · exact iff_of_true (by omega) (by omega)
    · split
      · exact iff_of_false (by omega) (by omega)
      · exact iff_of_false (by omega) (by omega)
  · have hstep : den * (k + 1) ≤ den * q := Nat.mul_le_mul_left den hgt
    rw [Nat.mul_add, Nat.mul_one] at hstep
    refine iff_of_false ?_ (by omega)
    split
    · omega
    · split
      · omega
      · omega

namespace Magnitude

/-- There is no result beyond the last shift, nor where a carry would go beyond it. -/
theorem ofRatio?_eq_none_iff_shift {num den : Nat} :
    ofRatio? num den = none ↔ 2045 < shiftOf (num / den) ∨ shiftOf (num / den) = 2045 ∧
      0x20000000000000 ≤ divEven num (den * pow2 (shiftOf (num / den))) := by
  simp only [ofRatio?]
  split
  · split
    · exact iff_of_false (Option.some_ne_none _) (by omega)
    · exact iff_of_true rfl (by omega)
  · split
    · exact iff_of_false (Option.some_ne_none _) (by omega)
    · exact iff_of_true rfl (by omega)

/-- A ratio is too large exactly from half a step above the largest grid point on. -/
theorem ofRatio?_eq_none_iff {num den : Nat} (hden : 0 < den) :
    ofRatio? num den = none ↔ (pow2 54 - 1) * pow2 2044 * den ≤ num := by
  rcases Nat.lt_trichotomy (shiftOf (num / den)) 2045 with hlt | heq | hgt
  · -- the carry of a smaller shift has a place to go
    have hsome := ofRatio?_isSome hlt
    have hquotient := lt_of_shiftOf_lt hlt
    have hsmall : num < pow2 (52 + 2045) * den := (Nat.div_lt_iff_lt_mul hden).1 hquotient
    have hbound : pow2 (52 + 2045) * den ≤ (pow2 54 - 1) * pow2 2044 * den := by
      rw [show 52 + 2045 = 53 + 2044 from rfl, pow2_add]
      exact Nat.mul_le_mul_right den (Nat.mul_le_mul_right _ (by decide))
    refine iff_of_false ?_ (Nat.not_le_of_lt (Nat.lt_of_lt_of_le hsmall hbound))
    intro hnone
    rw [hnone] at hsome
    cases hsome
  · have hodd : divEven num (den * pow2 2045) ≤ 0x1FFFFFFFFFFFFF ↔
        2 * num < (2 * 0x1FFFFFFFFFFFFF + 1) * (den * pow2 2045) :=
      divEven_le_iff (Nat.mul_pos hden (pow2_pos _)) (by decide)
    have hhalf : (2 * 0x1FFFFFFFFFFFFF + 1) * (den * pow2 2045)
        = 2 * ((pow2 54 - 1) * pow2 2044 * den) := by
      rw [show pow2 54 - 1 = 2 * 0x1FFFFFFFFFFFFF + 1 from rfl, show 2045 = 1 + 2044 from rfl,
        pow2_add, show pow2 1 = 2 from rfl]
      ring
    rw [hhalf] at hodd
    rw [ofRatio?_eq_none_iff_shift, heq]
    clear hhalf
    generalize (pow2 54 - 1) * pow2 2044 * den = bound at hodd ⊢
    omega
  · have hquotient := le_of_lt_shiftOf hgt
    have hlarge : pow2 (53 + 2045) * den ≤ num := (Nat.le_div_iff_mul_le hden).1 hquotient
    have hbound : (pow2 54 - 1) * pow2 2044 * den ≤ pow2 (53 + 2045) * den := by
      rw [show 53 + 2045 = 54 + 2044 from rfl, pow2_add]
      exact Nat.mul_le_mul_right den (Nat.mul_le_mul_right _ (by decide))
    exact iff_of_true (ofRatio?_eq_none_iff_shift.2 (.inl hgt)) (Nat.le_trans hbound hlarge)

/-! ## Decimals -/

/-- In units of the format, the bound is the one for ratios. -/
theorem overflow_le_iff (c den : Nat) :
    (pow2 54 - 1) * pow2 2044 * den ≤ c * pow2 1074 ↔ overflow * den ≤ c := by
  have hunits : (pow2 54 - 1) * pow2 2044 * den = overflow * den * pow2 1074 := by
    rw [overflow_eq, show 2044 = 970 + 1074 from rfl, pow2_add]
    ring
  rw [hunits]
  exact Nat.mul_le_mul_right_iff (pow2_pos 1074)

/-- A decimal with `k + 1` digits behind the point is too large exactly from the overflow bound on;
where the place of the leading digit settles it, it is far from the bound. -/
theorem ofDecimal?_eq_none_iff (c k : Nat) :
    ofDecimal? ⟨c, .negSucc k⟩ = none ↔ overflow * pow10 (k + 1) ≤ c := by
  have hplace : (⟨c, .negSucc k⟩ : Decimal).place = (digits c).length - (k + 1 : Nat) - 1 := by
    simp only [Decimal.place, Int.negSucc_eq]
    omega
  have hten : pow10 (k + 1) ≤ overflow * pow10 (k + 1) := Nat.le_mul_of_pos_left _ overflow_pos
  have hlength := lt_pow10_digits_length c
  unfold ofDecimal?
  rw [hplace]
  split
  · rename_i hsmall
    refine iff_of_false (Option.some_ne_none _) (Nat.not_le_of_lt ?_)
    rcases hsmall with hzero | hsmall
    · have hc : c = 0 := hzero
      rw [hc]
      exact Nat.lt_of_lt_of_le (pow10_pos (k + 1)) hten
    · have hle : pow10 (digits c).length ≤ pow10 (k + 1) := pow10_le_pow10 (by omega)
      exact Nat.lt_of_lt_of_le hlength (Nat.le_trans hle hten)
  · rename_i hnonzero
    split
    · rename_i hlarge
      refine iff_of_true rfl ?_
      have hc : c ≠ 0 := fun h => hnonzero (.inl h)
      calc overflow * pow10 (k + 1) ≤ pow10 311 * pow10 (k + 1) :=
            Nat.mul_le_mul_right _ overflow_le
        _ = pow10 (311 + (k + 1)) := (pow10_add _ _).symm
        _ ≤ c := pow10_le_of_digits_length hc (by omega)
    · exact (ofRatio?_eq_none_iff (pow10_pos (k + 1))).trans (overflow_le_iff c (pow10 (k + 1)))

/-- The decimal of a literal with digits behind its point. -/
theorem ofDecimal?_ofParts_eq_none_iff (whole : List Char) {fraction : List Char}
    (h : fraction ≠ []) :
    ofDecimal? (.ofParts whole fraction 0) = none ↔
      overflow * pow10 fraction.length ≤ ofDigits (whole ++ fraction) := by
  obtain ⟨k, hk⟩ : ∃ k, fraction.length = k + 1 :=
    Nat.exists_eq_succ_of_ne_zero (mt List.length_eq_zero_iff.1 h)
  have hparts : Decimal.ofParts whole fraction 0 = ⟨ofDigits (whole ++ fraction), .negSucc k⟩ := by
    rw [Decimal.ofParts, hk]
    rfl
  rw [hparts, hk]
  exact ofDecimal?_eq_none_iff _ k

end Magnitude

end RecordFilter
