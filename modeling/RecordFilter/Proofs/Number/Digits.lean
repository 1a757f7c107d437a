import RecordFilter.Number.Literal

/-!
# Digits and integers, written and read

Reading the digits of a number gives the number, and reading the text of a 64-bit
integer gives the integer.

    ofDigits (digits n) = n
    int64OfChars? (int64Text n).toList = some n
-/

namespace RecordFilter

/-! ## Runs of digits -/

theorem ofDigits_eq_ofDigitChars (ds : List Char) : ofDigits ds = Nat.ofDigitChars 10 ds 0 := rfl

theorem ofDigits_digits (n : Nat) : ofDigits (digits n) = n := by
  rw [ofDigits_eq_ofDigitChars, digits, Nat.ofDigitChars_ten_toDigits]

theorem ofDigits_append (ds es : List Char) :
    ofDigits (ds ++ es) = pow10 es.length * ofDigits ds + ofDigits es := by
  simp only [ofDigits_eq_ofDigitChars]
  rw [Nat.ofDigitChars_append, Nat.ofDigitChars_eq_ofDigitChars_zero]
  rfl

theorem ofDigits_replicate_zero (n : Nat) : ofDigits (List.replicate n '0') = 0 := by
  rw [ofDigits_eq_ofDigitChars, Nat.ofDigitChars_replicate_zero, Nat.mul_zero]

theorem isDigit_of_mem_digits {n : Nat} {c : Char} (h : c ∈ digits n) : isDigit c = true := by
  have hd := Char.isDigit_iff_toNat.1 (Nat.isDigit_of_mem_toDigits (by decide) (by decide) h)
  simp only [isDigit, Bool.and_eq_true, decide_eq_true_eq, Char.le_def, UInt32.le_iff_toNat_le]
  exact hd

theorem digits_ne_nil (n : Nat) : digits n ≠ [] := Nat.toDigits_ne_nil

theorem digits_length_le_iff {n k : Nat} (hk : 0 < k) :
    (digits n).length ≤ k ↔ n < pow10 k := Nat.length_toDigits_le_iff (by decide) hk

/-- A number with `k + 1` digits is at least the `k`-th power of ten. -/
theorem pow10_le_of_digits_length {n k : Nat} (hn : n ≠ 0) (h : k < (digits n).length) :
    pow10 k ≤ n := by
  cases k with
  | zero => exact Nat.one_le_iff_ne_zero.2 hn
  | succ k =>
    rcases Nat.lt_or_ge n (pow10 (k + 1)) with hlt | hge
    · have := (digits_length_le_iff (Nat.succ_pos k)).2 hlt
      omega
    · exact hge

theorem lt_pow10_digits_length (n : Nat) : n < pow10 (digits n).length :=
  (digits_length_le_iff (List.length_pos_iff.2 (digits_ne_nil n))).1 (Nat.le_refl _)

theorem allDigits_of_forall {ds : List Char} (hne : ds ≠ []) (h : ∀ c ∈ ds, isDigit c = true) :
    allDigits ds = true := by
  simp only [allDigits, Bool.and_eq_true, Bool.not_eq_true', List.isEmpty_eq_false_iff,
    List.all_eq_true]
  exact ⟨hne, h⟩

theorem allDigits_digits (n : Nat) : allDigits (digits n) = true :=
  allDigits_of_forall (digits_ne_nil n) fun _ => isDigit_of_mem_digits

/-! ## Signs -/

theorem splitSign_of_isDigit {c : Char} (cs : List Char) (h : isDigit c = true) :
    splitSign (c :: cs) = (false, c :: cs) := by
  unfold splitSign
  split
  · rename_i heq
    obtain ⟨rfl, -⟩ := List.cons_eq_cons.1 heq
    exact absurd h (by decide)
  · rename_i heq
    obtain ⟨rfl, -⟩ := List.cons_eq_cons.1 heq
    exact absurd h (by decide)
  · rfl

theorem splitSign_digits (n : Nat) (cs : List Char) :
    splitSign (digits n ++ cs) = (false, digits n ++ cs) := by
  obtain ⟨d, ds, hd⟩ := List.exists_cons_of_ne_nil (digits_ne_nil n)
  rw [hd, List.cons_append]
  exact splitSign_of_isDigit _ (isDigit_of_mem_digits (n := n) (by rw [hd]; exact List.mem_cons_self))

/-! ## Integers -/

/-- The text of an integer is a minus sign where it is negative, and the digits of its size. -/
theorem int64Text_toList (n : Int64) :
    (int64Text n).toList =
      if n.toInt < 0 then '-' :: digits n.toInt.natAbs else digits n.toInt.natAbs := by
  rw [int64Text, Int.toString_eq_repr, Int.repr_eq_if]
  split
  · rename_i h
    have hn : n.toInt.natAbs = n.toInt.toNat := by omega
    rw [if_neg (by omega), Nat.toList_repr, digits, hn]
  · rename_i h
    have hn : n.toInt.natAbs = (-n.toInt).toNat := by omega
    rw [if_pos (by omega), String.toList_append, Nat.toList_repr, digits, hn]
    rfl

theorem intOfChars?_signed (n : Int) :
    intOfChars? (if n < 0 then '-' :: digits n.natAbs else digits n.natAbs) = some n := by
  split
  · simp only [intOfChars?, splitSign, allDigits_digits, if_true, applySign, ofDigits_digits,
      Option.some.injEq]
    omega
  · have h := splitSign_digits n.natAbs []
    simp only [List.append_nil] at h
    simp only [intOfChars?, h, allDigits_digits, if_true, applySign, ofDigits_digits,
      Option.some.injEq, Bool.false_eq_true, if_false]
    omega

theorem int64OfInt?_toInt (n : Int64) : int64OfInt? n.toInt = some n := by
  have h1 := Int64.le_toInt n
  have h2 := Int64.toInt_lt n
  rw [int64OfInt?, if_pos (by omega), Int64.ofInt_toInt]

theorem int64OfChars?_int64Text (n : Int64) : int64OfChars? (int64Text n).toList = some n := by
  rw [int64OfChars?, int64Text_toList, intOfChars?_signed]
  exact int64OfInt?_toInt n

end RecordFilter
