import RecordFilter.Proofs.Value.Mixed
import RecordFilter.Proofs.Value.Reflexivity

/-!
# Integers stored as binary64 numbers

An integer and the binary64 number that is equal to it are strictly equal, and strict equality goes
into arrays, so it does not tell in which of the two ways a number of an array is stored.  It tells
in two cases: inside an object, where values are compared by kind, and for zero, because the integer
equals the numbers below the threshold of the decimals and the binary64 number does not.

    Restored n x inObject v w →
      ((∀ u, v.strictEq u = w.strictEq u) ↔ Inside nan v ∨ inObject = false ∧ n ≠ 0)
                                                                           (strictEq_restored_iff)
-/

namespace RecordFilter

open Decimal28 (threshold)

namespace Value

variable {n : Int64} {x : Binary64} {negative inObject : Bool} {m : Magnitude} {v w : Value}

/-! ## Storing another way -/

/-- `Restored n x inObject v w`: the value `w` is `v` with an integer `n` somewhere in it stored as the
number `x`, inside an object or not. -/
inductive Restored (n : Int64) (x : Binary64) : Bool → Value → Value → Prop
  | here : Restored n x false (integer n) (float x)
  | item {inObject : Bool} {v w : Value} (before after : List Value) :
      Restored n x inObject v w →
      Restored n x inObject (array (before ++ v :: after)) (array (before ++ w :: after))
  | member {inObject : Bool} {v w : Value} (before after : List (String × Value)) (k : String) :
      Restored n x inObject v w →
      Restored n x true (object (before ++ (k, v) :: after)) (object (before ++ (k, w) :: after))

/-! ## Equality around a place -/

theorem strictEqItems_middle (before after : List Value) (v w : Value) :
    strictEqItems (before ++ v :: after) (before ++ w :: after) =
      (strictEqItems before before && (v.strictEq w && strictEqItems after after)) := by
  induction before with
  | nil => rfl
  | cons b before ih =>
    rw [List.cons_append, List.cons_append, strictEqItems, strictEqItems, ih, Bool.and_assoc]

theorem sameItems_middle (before after : List Value) (v w : Value) :
    sameItems (before ++ v :: after) (before ++ w :: after) =
      (sameItems before before && (v.same w && sameItems after after)) := by
  induction before with
  | nil => rfl
  | cons b before ih =>
    rw [List.cons_append, List.cons_append, sameItems, sameItems, ih, Bool.and_assoc]

theorem sameMembers_middle (before after : List (String × Value)) (k : String) (v w : Value) :
    sameMembers (before ++ (k, v) :: after) (before ++ (k, w) :: after) =
      (sameMembers before before && (v.same w && sameMembers after after)) := by
  induction before with
  | nil =>
    rw [List.nil_append, List.nil_append, sameMembers, sameMembers, beq_self_eq_true]
    rfl
  | cons b before ih =>
    obtain ⟨j, b⟩ := b
    rw [List.cons_append, List.cons_append, sameMembers, sameMembers, ih, Bool.and_assoc,
      Bool.and_assoc, Bool.and_assoc]

/-- Items that nothing tells apart make arrays that nothing tells apart. -/
theorem strictEqItems_congr (h : ∀ u, v.strictEq u = w.strictEq u) (before after us : List Value) :
    strictEqItems (before ++ v :: after) us = strictEqItems (before ++ w :: after) us := by
  induction before generalizing us with
  | nil =>
    cases us with
    | nil => rfl
    | cons u us => rw [List.nil_append, List.nil_append, strictEqItems, strictEqItems, h]
  | cons b before ih =>
    cases us with
    | nil => rfl
    | cons u us => rw [List.cons_append, List.cons_append, strictEqItems, strictEqItems, ih]

theorem strictEq_array_congr (h : ∀ u, v.strictEq u = w.strictEq u) (before after : List Value)
    (u : Value) :
    (array (before ++ v :: after)).strictEq u = (array (before ++ w :: after)).strictEq u := by
  cases u with
  | array us => exact strictEqItems_congr h before after us
  | _ => rfl

/-! ## Numbers other than zero -/

theorem equalMixed_infinite (n : Int64) (negative : Bool) :
    equalMixed (integer n) (float (.infinite negative)) = false := by
  have hn := natAbs_toInt_le n
  obtain ⟨k, hk, -⟩ := Binary64.exists_ofInt
    (Nat.lt_of_le_of_lt hn (by decide) : n.toInt.natAbs < pow2 65)
  show ((Binary64.ofInt n.toInt).compare? (.infinite negative) == some .eq) = false
  rw [hk]
  cases negative <;> rfl

/-- The threshold is far below every integer but zero. -/
theorem not_lt_threshold {k : Int} (hk : k ≠ 0) : ¬|(k : ℚ)| < threshold := by
  have hone : (1 : ℚ) ≤ |(k : ℚ)| := by
    rw [← Int.cast_abs]
    exact_mod_cast Int.one_le_abs hk
  have hlt : threshold < 1 := by unfold threshold; norm_num
  exact not_lt.2 (hlt.le.trans hone)

theorem equal_finite_eq (a b : Bool) (k l : Magnitude) :
    (Binary64.finite a k).equal (.finite b l) =
      (compare (Binary64.ratio a k) (Binary64.ratio b l)).isEq := by
  rw [Binary64.equal, Binary64.compare?_finite, some_beq_eq]

/-- An integer other than zero equals what the number equals that is equal to it. -/
theorem strictEq_integer_eq_float (hn : n ≠ 0) (hx : Binary64.ratio negative m = n.toInt) (u : Value) :
    (integer n).strictEq u = (float (.finite negative m)).strictEq u := by
  have hzero : n.toInt ≠ 0 := fun h => hn (Int64.toInt_inj.1 h)
  cases u with
  | integer k =>
    show (n == k) = equalMixed (float (.finite negative m)) (integer k)
    rw [equalMixed_comm, equalMixed_finite, mixedOrder, hx, if_neg fun h => not_lt_threshold hzero h.2,
      Bool.eq_iff_iff, beq_iff_eq, Ordering.isEq_iff_eq_eq, compare_eq_iff_eq, Int.cast_inj,
      Int64.toInt_inj]
    exact eq_comm
  | float y =>
    show equalMixed (integer n) (float y) = (Binary64.finite negative m).equal y
    cases y with
    | nan => exact equalMixed_nan n
    | infinite b =>
      rw [equalMixed_infinite]
      cases b <;> rfl
    | finite b l => rw [equalMixed_finite, mixedOrder, if_neg fun h => hzero h.1, equal_finite_eq, hx]
  | _ => rfl

/-- Outside of objects nothing tells how a number other than zero is stored. -/
theorem Restored.strictEq_eq (h : Restored n (.finite negative m) inObject v w)
    (ho : inObject = false) (hn : n ≠ 0) (hx : Binary64.ratio negative m = n.toInt) (u : Value) :
    v.strictEq u = w.strictEq u := by
  induction h generalizing u with
  | here => exact strictEq_integer_eq_float hn hx u
  | item before after _ ih => exact strictEq_array_congr (ih ho) before after u
  | member => cases ho

/-! ## Values that tell -/

/-- Equality by kind always tells how a number is stored. -/
theorem Restored.not_same (h : Restored n x inObject v w) : w.same v = false := by
  induction h with
  | here => rfl
  | item before after _ ih =>
    show sameItems _ _ = false
    rw [sameItems_middle, ih, Bool.false_and, Bool.and_false]
  | member before after k _ ih =>
    show sameMembers _ _ = false
    rw [sameMembers_middle, ih, Bool.false_and, Bool.and_false]

/-- The integer zero equals the least positive number, the number zero does not. -/
theorem exists_told_zero (hx : Binary64.ratio negative m = (0 : Int64).toInt) :
    ∃ u, (integer 0).strictEq u = true ∧ (float (.finite negative m)).strictEq u = false := by
  refine ⟨float (.finite false .least), ?_, ?_⟩
  · show equalMixed (integer 0) (float (.finite false .least)) = true
    rw [equalMixed_finite, mixedOrder, if_pos ⟨rfl, abs_ratio_least_lt⟩]
    rfl
  · show (Binary64.finite negative m).equal (.finite false .least) = false
    rw [Bool.eq_false_iff, equal_finite_eq, Ne, Ordering.isEq_iff_eq_eq, compare_eq_iff_eq, hx]
    intro hzero
    have hpos := abs_ratio_least_pos
    rw [← hzero] at hpos
    simp at hpos

theorem NanFree.around {before after : List Value} (h : NanFree (array (before ++ v :: after))) :
    strictEqItems before before = true ∧ NanFree v ∧ strictEqItems after after = true := by
  rw [nanFree_array_iff, List.forall_mem_append, List.forall_mem_cons] at h
  exact ⟨strictEqItems_self before h.1, h.2.1, strictEqItems_self after h.2.2⟩

/-- Inside an object, or for zero, something tells how the number is stored. -/
theorem Restored.exists_told (h : Restored n (.finite negative m) inObject v w) (hv : v.NanFree)
    (ho : inObject = true ∨ n = 0) (hx : Binary64.ratio negative m = n.toInt) :
    ∃ u, v.strictEq u = true ∧ w.strictEq u = false := by
  induction h with
  | here =>
    obtain rfl := ho.resolve_left Bool.false_ne_true
    exact exists_told_zero hx
  | @item _ v w before after _ ih =>
    obtain ⟨hbefore, hv, hafter⟩ := hv.around
    obtain ⟨u, hvu, hwu⟩ := ih hv ho
    refine ⟨array (before ++ u :: after), ?_, ?_⟩
    · show strictEqItems _ _ = true
      rw [strictEqItems_middle, hbefore, hvu, hafter]
      rfl
    · show strictEqItems _ _ = false
      rw [strictEqItems_middle, hwu, Bool.false_and, Bool.and_false]
  | member before after k h _ =>
    exact ⟨_, strictEq_self _ hv, (Restored.member before after k h).not_same⟩

/-- What is in a list stays when another member is exchanged for one that has it too. -/
theorem exists_mem_middle {α : Type} {P : α → Prop} {a b : α} (hab : P a → P b)
    {before after : List α} (h : ∃ u ∈ before ++ a :: after, P u) :
    ∃ u ∈ before ++ b :: after, P u := by
  simp only [List.mem_append, List.mem_cons, or_and_right, exists_or, exists_eq_left] at h ⊢
  exact h.imp_right (Or.imp_left hab)

/-- Storing an integer another way leaves every `nan` where it is. -/
theorem Restored.inside_nan (h : Restored n (.finite negative m) inObject v w)
    (hv : Inside (float .nan) v) : Inside (float .nan) w := by
  induction h with
  | here => cases hv
  | item before after _ ih =>
    rw [inside_float_array_iff] at hv ⊢
    exact exists_mem_middle ih hv
  | member before after k _ ih =>
    rw [inside_float_object_iff] at hv ⊢
    exact exists_mem_middle (P := fun m : String × Value => Inside (float .nan) m.2) ih hv

/-- **Strict equality and the storage of numbers.**  For every value with an integer somewhere in it,
storing the integer as the binary64 number that is equal to it changes no strict equality of the
value, exactly if the integer is not zero and not inside an object, or the value holds `nan` and
equals nothing. -/
theorem strictEq_restored_iff (h : Restored n (.finite negative m) inObject v w)
    (hx : Binary64.ratio negative m = n.toInt) :
    (∀ u, v.strictEq u = w.strictEq u) ↔
      Inside (float .nan) v ∨ inObject = false ∧ n ≠ 0 := by
  constructor
  · intro hall
    by_contra hno
    rw [not_or, not_and_or, not_not, Bool.not_eq_false] at hno
    obtain ⟨hv, ho⟩ := hno
    obtain ⟨u, hvu, hwu⟩ := h.exists_told hv ho hx
    rw [hall, hwu] at hvu
    cases hvu
  · rintro (hnan | ⟨ho, hn⟩) u
    · have hv : v.strictEq u = false := by
        rw [Bool.eq_false_iff]
        exact fun heq => nanFree_of_strictEq heq hnan
      have hw : w.strictEq u = false := by
        rw [Bool.eq_false_iff]
        exact fun heq => nanFree_of_strictEq heq (h.inside_nan hnan)
      rw [hv, hw]
    · exact h.strictEq_eq ho hn hx u

theorem ratio_one : Binary64.ratio false ⟨0x10000000000000, 1022, by decide, by decide, by decide⟩ =
    (1 : Int64).toInt := by
  have hvalue : Magnitude.value ⟨0x10000000000000, 1022, by decide, by decide, by decide⟩ = (1 : ℕ) :=
    Magnitude.value_of_units (by decide +kernel)
  exact_mod_cast hvalue

/-- An array with an object that holds the number one. -/
def nestedOne (one : Value) : Value := array [object [("a", one)]]

theorem restored_nestedOne :
    Restored 1 .one true (nestedOne (integer 1)) (nestedOne (float .one)) :=
  .item [] [] (.member [] [] "a" .here)

/-- Inside an object the two ways to store a one are told apart. -/
theorem strictEq_restored_nestedOne :
    Restored 1 .one true (nestedOne (integer 1)) (nestedOne (float .one)) ∧
    ¬∀ u, (nestedOne (integer 1)).strictEq u = (nestedOne (float .one)).strictEq u := by
  refine ⟨restored_nestedOne, ?_⟩
  rw [strictEq_restored_iff restored_nestedOne ratio_one]
  rintro (hnan | ⟨ho, -⟩)
  · have hself : (nestedOne (integer 1)).strictEq (nestedOne (integer 1)) = true := by decide
    exact nanFree_of_strictEq hself hnan
  · cases ho

end Value

end RecordFilter
