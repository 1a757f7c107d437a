import RecordFilter.Proofs.Value.Mixed
import RecordFilter.Proofs.Value.Symmetry

/-!
# Equality and order

On booleans, numbers and texts the two loose relations fit together: equal values are
those in the order of equals, so `a <= b` says `a < b | a = b`.  They turn a boolean
into a number in different ways, equality into an integer and the order into a binary64
number, and this shows on one kind of pair: `false` equals a number below the threshold
of the decimals and is not in the order of equals with it.

    v.IsAtom → w.IsAtom → (Coherent v w ↔ ¬(Conflated v w ∨ Conflated w v))     (coherent_iff)
-/

namespace RecordFilter

open Decimal28 (threshold)
open Predicate (comparisonHolds)

namespace Value

variable {v w : Value}

/-! ## Coherence -/

/-- Two values are equal exactly where their order is that of equals; `<=` is `<` or `=`, and these two
exclude each other. -/
structure Coherent (v w : Value) : Prop where
  looseEq_eq : v.looseEq w = (v.order? w == some .eq)
  lessEqual_iff : comparisonHolds .lessEqual v w = .ok true ↔
    comparisonHolds .less v w = .ok true ∨ comparisonHolds .equal v w = .ok true
  not_equal_and_less : ¬(comparisonHolds .equal v w = .ok true ∧ comparisonHolds .less v w = .ok true)

/-- All follows from the first. -/
theorem coherent_iff_looseEq_eq : Coherent v w ↔ v.looseEq w = (v.order? w == some .eq) := by
  refine ⟨Coherent.looseEq_eq, fun h => ⟨h, ?_, ?_⟩⟩
  all_goals
    simp only [comparisonHolds, h]
    rcases v.order? w with _ | _ | _ | _ <;> decide

theorem Coherent.symm (h : Coherent v w) : Coherent w v := by
  rw [coherent_iff_looseEq_eq] at h ⊢
  rw [looseEq_comm, h, v.order?_swap w]
  rcases v.order? w with _ | _ | _ | _ <;> rfl

/-- Values of one kind, and two numbers, are compared as strictly. -/
theorem coherent_of_sameKind (hk : sameKind v w = true) (h : v.strictEq w = (v.order? w == some .eq)) :
    Coherent v w := by
  rw [coherent_iff_looseEq_eq, looseEq_eq_strictEq hk, h]

/-- Values that are compared through their numbers, if the scalars in their place have the same. -/
theorem coherent_of_number? (h : comparedAsNumbers v w = true)
    (hs : comparedAsNumbers v.scalar w.scalar = true) (hk : comparedInKind v w = false)
    (hv : v.scalar.number? = v.number?) (hw : w.scalar.number? = w.number?) : Coherent v w := by
  obtain ⟨hvn, hwn⟩ := isNull_of_comparedAsNumbers h
  rw [coherent_iff_looseEq_eq, looseEq_eq_looseEqScalar hvn hwn hk,
    looseEqScalar_eq_equalAsNumbers hs, equalAsNumbers_eq, order?_eq_orderOf? h, hv, hw]

/-! ## Numbers and texts -/

theorem coherent_string (a b : String) : Coherent (string a) (string b) :=
  coherent_of_sameKind rfl ((some_beq_eq _).trans (isEq_compareOfLessAndEq a b)).symm

theorem coherent_integer (a b : Int64) : Coherent (integer a) (integer b) :=
  coherent_of_sameKind rfl ((some_beq_eq _).trans (isEq_compare_toInt a b)).symm

theorem coherent_float (x y : Binary64) : Coherent (float x) (float y) :=
  coherent_of_sameKind rfl rfl

theorem coherent_mixed (n : Int64) (x : Binary64) : Coherent (integer n) (float x) :=
  coherent_of_sameKind rfl rfl

theorem coherent_integer_string (n : Int64) (s : String) : Coherent (integer n) (string s) :=
  coherent_of_number? rfl rfl rfl rfl rfl

theorem coherent_float_string (x : Binary64) (s : String) : Coherent (float x) (string s) :=
  coherent_of_number? rfl rfl rfl rfl rfl

/-! ## Booleans -/

/-- The number of a boolean is whole: zero or one. -/
theorem exists_number?_boolean (b : Bool) :
    ∃ m : Magnitude, (boolean b).number? = some (.finite false m) ∧ m.value = (b.toNat : Nat) := by
  cases b with
  | false => exact ⟨.zero, rfl, Magnitude.value_of_units (by decide +kernel)⟩
  | true =>
    refine ⟨⟨0x10000000000000, 1022, by decide, by decide, by decide⟩, rfl, ?_⟩
    exact Magnitude.value_of_units (by decide +kernel)

theorem number?_scalar_boolean (b : Bool) : (boolean b).scalar.number? = (boolean b).number? := by
  cases b <;> decide +kernel

theorem coherent_boolean (a b : Bool) : Coherent (boolean a) (boolean b) := by
  rw [coherent_iff_looseEq_eq]
  cases a <;> cases b <;> decide +kernel

theorem coherent_boolean_string (b : Bool) (s : String) : Coherent (boolean b) (string s) :=
  coherent_of_number? rfl rfl rfl (number?_scalar_boolean b) rfl

theorem toInt_ofBool (b : Bool) : (if b then 1 else 0 : Int64).toInt = b.toNat := by
  cases b <;> rfl

theorem coherent_boolean_integer (b : Bool) (n : Int64) : Coherent (boolean b) (integer n) := by
  obtain ⟨k, hk, hvalue⟩ := exists_number?_boolean b
  have horder : (boolean b).order? (integer n) =
      (Binary64.finite false k).compare? (.ofInt n.toInt) := by
    rw [order?_eq_orderOf? rfl, hk]
    rfl
  rw [coherent_iff_looseEq_eq, Bool.eq_iff_iff, beq_iff_eq, looseEq_eq_looseEqScalar rfl rfl rfl]
  show ((if b then 1 else 0 : Int64) == n) = true ↔ _
  rw [beq_iff_eq, ← Int64.toInt_inj, toInt_ofBool]
  constructor
  · intro h
    obtain rfl : (if b then 1 else 0) = n := Int64.toInt_inj.1 ((toInt_ofBool b).trans h)
    cases b <;> decide +kernel
  · -- rounding takes no other integer to zero or one
    intro h
    have hn := natAbs_toInt_le n
    exact (Binary64.eq_of_compare?_ofInt (Nat.lt_of_le_of_lt hn (by decide))
      (lt_of_le_of_lt (Bool.toNat_le b) (by norm_num)) hvalue (horder ▸ h)).symm

/-- `false` and a number other than zero that equality takes for zero. -/
inductive Conflated : Value → Value → Prop
  | mk (negative : Bool) (m : Magnitude) : 0 < |Binary64.ratio negative m| →
      |Binary64.ratio negative m| < threshold →
      Conflated (boolean false) (float (.finite negative m))

theorem coherent_boolean_infinite (b negative : Bool) :
    Coherent (boolean b) (float (.infinite negative)) := by
  rw [coherent_iff_looseEq_eq]
  cases b <;> cases negative <;> decide +kernel

theorem conflated_iff {b negative : Bool} {m : Magnitude} :
    Conflated (boolean b) (float (.finite negative m)) ↔
      b = false ∧ 0 < |Binary64.ratio negative m| ∧ |Binary64.ratio negative m| < threshold := by
  constructor
  · intro h
    cases h with
    | mk _ _ hpos hsmall => exact ⟨rfl, hpos, hsmall⟩
  · rintro ⟨rfl, hpos, hsmall⟩
    exact .mk negative m hpos hsmall

theorem coherent_boolean_finite_iff (b negative : Bool) (m : Magnitude) :
    Coherent (boolean b) (float (.finite negative m)) ↔
      ¬Conflated (boolean b) (float (.finite negative m)) := by
  have horder : (boolean b).order? (float (.finite negative m)) =
      some (compare (b.toNat : ℚ) (Binary64.ratio negative m)) := by
    obtain ⟨k, hk, hvalue⟩ := exists_number?_boolean b
    rw [order?_eq_orderOf? rfl, hk, ← hvalue]
    exact Binary64.compare?_finite false negative k m
  have hequal : (boolean b).looseEq (float (.finite negative m)) =
      (mixedOrder (if b then 1 else 0) (Binary64.ratio negative m)).isEq := by
    rw [looseEq_eq_looseEqScalar rfl rfl rfl]
    exact equalMixed_finite _ negative m
  rw [coherent_iff_looseEq_eq, horder, hequal, mixedOrder, toInt_ofBool, conflated_iff]
  cases b with
  | true =>
    rw [if_neg (fun h => absurd h.1 (by decide))]
    refine iff_of_true ?_ (by simp)
    push_cast
    cases compare ((true.toNat : Nat) : ℚ) (Binary64.ratio negative m) <;> rfl
  | false =>
    rcases lt_or_ge |Binary64.ratio negative m| threshold with hsmall | hlarge
    · -- equality takes the number for zero, so the order has to
      rw [if_pos ⟨rfl, hsmall⟩, Bool.eq_iff_iff, beq_iff_eq, Option.some.injEq, compare_eq_iff_eq]
      simp only [Ordering.isEq_eq, true_iff, abs_pos, hsmall, and_true, true_and, not_not]
      exact ⟨fun h => by simpa using h.symm, fun h => by simp [h]⟩
    · rw [if_neg (fun h => not_lt_of_ge hlarge h.2)]
      refine iff_of_true ?_ (fun h => not_lt_of_ge hlarge h.2.2)
      push_cast
      cases compare ((false.toNat : Nat) : ℚ) (Binary64.ratio negative m) <;> rfl

theorem coherent_boolean_float_iff (b : Bool) {x : Binary64} (hx : x.isNan = false) :
    Coherent (boolean b) (float x) ↔ ¬Conflated (boolean b) (float x) := by
  cases x with
  | nan => cases hx
  | infinite negative =>
    exact iff_of_true (coherent_boolean_infinite b negative) (fun h => by cases h)
  | finite negative m => exact coherent_boolean_finite_iff b negative m

/-! ## Atoms -/

/-- A boolean, a number or a text: what an expression can say in one word, `null` aside. -/
def IsAtom : Value → Prop
  | boolean _ => True
  | integer _ => True
  | float x => x.isNan = false
  | string _ => True
  | _ => False

/-- Every pair of atoms but a boolean and a binary64 number is coherent. -/
theorem coherent_or (hv : v.IsAtom) (hw : w.IsAtom) :
    Coherent v w ∨ (∃ b x, v = boolean b ∧ w = float x ∧ x.isNan = false) ∨
      ∃ b x, w = boolean b ∧ v = float x ∧ x.isNan = false := by
  cases v with
  | boolean a =>
    cases w with
    | boolean b => exact .inl (coherent_boolean a b)
    | integer n => exact .inl (coherent_boolean_integer a n)
    | float x => exact .inr (.inl ⟨a, x, rfl, rfl, hw⟩)
    | string s => exact .inl (coherent_boolean_string a s)
    | _ => exact absurd hw id
  | integer n =>
    cases w with
    | boolean b => exact .inl (coherent_boolean_integer b n).symm
    | integer k => exact .inl (coherent_integer n k)
    | float x => exact .inl (coherent_mixed n x)
    | string s => exact .inl (coherent_integer_string n s)
    | _ => exact absurd hw id
  | float x =>
    cases w with
    | boolean b => exact .inr (.inr ⟨b, x, rfl, rfl, hv⟩)
    | integer n => exact .inl (coherent_mixed n x).symm
    | float y => exact .inl (coherent_float x y)
    | string s => exact .inl (coherent_float_string x s)
    | _ => exact absurd hw id
  | string a =>
    cases w with
    | boolean b => exact .inl (coherent_boolean_string b a).symm
    | integer n => exact .inl (coherent_integer_string n a).symm
    | float x => exact .inl (coherent_float_string x a).symm
    | string b => exact .inl (coherent_string a b)
    | _ => exact absurd hw id
  | _ => exact absurd hv id

theorem Conflated.not_coherent (h : Conflated v w) : ¬Coherent v w := by
  cases h with
  | mk negative m hpos hsmall =>
    exact fun hc => (coherent_boolean_finite_iff false negative m).1 hc ⟨negative, m, hpos, hsmall⟩

/-- Equality and order are coherent on all atoms but `false` and the numbers that equality takes for
zero. -/
theorem coherent_iff (hv : v.IsAtom) (hw : w.IsAtom) :
    Coherent v w ↔ ¬(Conflated v w ∨ Conflated w v) := by
  constructor
  · rintro h (hc | hc)
    · exact hc.not_coherent h
    · exact hc.not_coherent h.symm
  · intro h
    rcases coherent_or hv hw with hc | ⟨b, x, rfl, rfl, hx⟩ | ⟨b, x, rfl, rfl, hx⟩
    · exact hc
    · exact (coherent_boolean_float_iff b hx).2 fun hc => h (.inl hc)
    · exact ((coherent_boolean_float_iff b hx).2 fun hc => h (.inr hc)).symm

/-- `false` and the least positive number are equal, and not in the order of equals. -/
theorem coherent_iff_least :
    (boolean false).IsAtom ∧ (float (.finite false .least)).IsAtom ∧
    ¬Coherent (boolean false) (float (.finite false .least)) := by
  refine ⟨trivial, rfl, fun h => ?_⟩
  have hiff := coherent_iff (v := boolean false) (w := float (.finite false .least)) trivial rfl
  exact hiff.1 h (.inl (.mk false .least abs_ratio_least_pos abs_ratio_least_lt))

end Value

end RecordFilter
