import Mathlib.Data.String.Basic
import Mathlib.Order.Compare
import RecordFilter.Timestamp
import RecordFilter.Proofs.Number.Rounding
import RecordFilter.Proofs.Number.Text

/-!
# Texts of fields

Texts whose fields have the same widths are ordered field by field, and a field of
digits as the number it writes.  So are the numbers that are put together from the
fields.

    (o.then p).Compares (a ++ c) (b ++ d)                                  (compares_append)
    (o.then p).Compares (a * n + b) (c * n + d)                           (compares_mul_add)
    o.Compares (padded w m) (padded w n)                                   (compares_padded)
-/

namespace RecordFilter

open Ordering

/-- The order of a first part, and where the first parts are equal that of the rest. -/
theorem compares_then {α β : Type} [LT α] [LT β] {a b : α} {x y : β} {o p : Ordering}
    (h : o.Compares a b) (lt : a < b → x < y) (gt : b < a → y < x) (eq : a = b → p.Compares x y) :
    (o.then p).Compares x y := by
  cases o with
  | lt => exact lt h
  | eq => exact eq h
  | gt => exact gt h

/-! ## Numbers -/

/-- A number of `n`s and a rest. -/
theorem compares_mul_add {o p : Ordering} {n a b c d : Int} (ho : o.Compares a c)
    (hp : p.Compares b d) (hb : 0 ≤ b ∧ b < n) (hd : 0 ≤ d ∧ d < n) :
    (o.then p).Compares (a * n + b) (c * n + d) := by
  have lt {a b c d : Int} (hb : b < n) (hd : 0 ≤ d) (h : a < c) : a * n + b < c * n + d :=
    calc a * n + b < (a + 1) * n := by rw [Int.add_mul]; omega
      _ ≤ c * n := Int.mul_le_mul_of_nonneg_right h (by omega)
      _ ≤ c * n + d := by omega
  refine compares_then ho (lt hb.2 hd.1) (lt hd.2 hb.1) ?_
  rintro rfl
  cases p <;> simp only [Compares] at hp ⊢ <;> omega

theorem compares_natCast {o : Ordering} {m n : Nat} (h : o.Compares m n) :
    o.Compares (m : Int) (n : Int) := by
  cases o <;> simp only [Compares] at h ⊢ <;> omega

/-! ## Texts -/

variable {o p : Ordering} {a b c d : List Char}

theorem append_lt_append (hlen : a.length = b.length) (h : a < b) (c d : List Char) :
    a ++ c < b ++ d := by
  induction a generalizing b with
  | nil => rw [List.eq_nil_of_length_eq_zero hlen.symm] at h; exact absurd h (lt_irrefl _)
  | cons x a ih =>
    obtain ⟨y, b, rfl⟩ := List.exists_cons_of_length_eq_add_one hlen.symm
    rw [List.cons_append, List.cons_append, List.cons_lt_cons_iff]
    exact (List.cons_lt_cons_iff.1 h).imp_right fun h => ⟨h.1, ih (Nat.succ.inj hlen) h.2⟩

theorem compares_append (hlen : a.length = b.length) (ho : o.Compares a b) (hp : p.Compares c d) :
    (o.then p).Compares (a ++ c) (b ++ d) := by
  refine compares_then ho (fun h => append_lt_append hlen h c d)
    (fun h => append_lt_append hlen.symm h d c) ?_
  rintro rfl
  cases p with
  | lt => exact List.append_left_lt hp
  | eq => exact congrArg _ hp
  | gt => exact List.append_left_lt hp

theorem compares_cons (c : Char) (h : o.Compares a b) : o.Compares (c :: a) (c :: b) :=
  compares_append (a := [c]) (o := .eq) rfl rfl h

/-! ## Digits -/

theorem ofDigits_cons (c : Char) (ds : List Char) :
    ofDigits (c :: ds) = digitValue c * pow10 ds.length + ofDigits ds := by
  rw [← List.singleton_append, ofDigits_append, Nat.mul_comm]
  simp [ofDigits]

/-- A digit is the character that lies by its value behind `0`. -/
theorem isDigit_iff_toNat {c : Char} : isDigit c = true ↔ 48 ≤ c.toNat ∧ c.toNat ≤ 57 := by
  simp only [isDigit, Bool.and_eq_true, decide_eq_true_eq, Char.le_def, UInt32.le_iff_toNat_le]
  rfl

theorem ofDigits_lt {ds : List Char} (h : ∀ c ∈ ds, isDigit c = true) :
    ofDigits ds < pow10 ds.length := by
  induction ds with
  | nil => decide
  | cons c ds ih =>
    have hc := isDigit_iff_toNat.1 (h c List.mem_cons_self)
    have ih := ih fun c hc => h c (List.mem_cons_of_mem _ hc)
    rw [ofDigits_cons, List.length_cons, digitValue]
    calc (c.toNat - 48) * pow10 ds.length + ofDigits ds
      _ ≤ 9 * pow10 ds.length + ofDigits ds :=
          Nat.add_le_add_right (Nat.mul_le_mul_right _ (by omega)) _
      _ < pow10 (ds.length + 1) := by rw [pow10_succ]; omega

/-- Digits of a smaller number come first. -/
theorem digits_lt_digits {ds es : List Char} (hd : ∀ c ∈ ds, isDigit c = true)
    (he : ∀ c ∈ es, isDigit c = true) (hlen : ds.length = es.length)
    (h : ofDigits ds < ofDigits es) : ds < es := by
  induction ds generalizing es with
  | nil =>
    rw [List.eq_nil_of_length_eq_zero hlen.symm] at h
    exact absurd h (Nat.lt_irrefl _)
  | cons c ds ih =>
    obtain ⟨e, es, rfl⟩ := List.exists_cons_of_length_eq_add_one hlen.symm
    obtain ⟨hc, hds⟩ := List.forall_mem_cons.1 hd
    obtain ⟨he, hes⟩ := List.forall_mem_cons.1 he
    have htail := Nat.succ.inj hlen
    have hlt := ofDigits_lt hes
    rw [ofDigits_cons, ofDigits_cons, htail] at h
    have hc := isDigit_iff_toNat.1 hc
    have he := isDigit_iff_toNat.1 he
    rw [List.cons_lt_cons_iff]
    rcases Nat.lt_trichotomy c.toNat e.toNat with hce | hce | hce
    · exact .inl hce
    · obtain rfl := Char.toNat_inj.1 hce
      exact .inr ⟨rfl, ih hds hes htail (by omega)⟩
    · have : (digitValue e + 1) * pow10 es.length ≤ digitValue c * pow10 es.length :=
        Nat.mul_le_mul_right _ (by simp only [digitValue]; omega)
      rw [Nat.add_mul] at this
      omega

/-! ## Padded numbers -/

theorem isDigit_of_mem_padded {w n : Nat} {c : Char} (h : c ∈ Timestamp.padded w n) :
    isDigit c = true := by
  rcases List.mem_append.1 h with h | h
  · exact isDigit_of_mem_replicate h
  · exact isDigit_of_mem_digits h

@[simp]
theorem ofDigits_padded (w n : Nat) : ofDigits (Timestamp.padded w n) = n := by
  rw [Timestamp.padded, ofDigits_append, ofDigits_replicate_zero, ofDigits_digits, Nat.mul_zero,
    Nat.zero_add]

theorem le_length_padded (w n : Nat) : w ≤ (Timestamp.padded w n).length := by
  simp only [Timestamp.padded, List.length_append, List.length_replicate]
  omega

theorem length_padded {w n : Nat} (hw : 0 < w) (h : n < pow10 w) :
    (Timestamp.padded w n).length = w := by
  have := (digits_length_le_iff hw).2 h
  simp only [Timestamp.padded, List.length_append, List.length_replicate]
  omega

theorem compares_padded {w m n : Nat} (hw : 0 < w) (hm : m < pow10 w) (hn : n < pow10 w)
    (h : o.Compares m n) : o.Compares (Timestamp.padded w m) (Timestamp.padded w n) := by
  have hlen : (Timestamp.padded w m).length = (Timestamp.padded w n).length := by
    rw [length_padded hw hm, length_padded hw hn]
  have hdigits {n : Nat} (c) (hc : c ∈ Timestamp.padded w n) := isDigit_of_mem_padded hc
  cases o with
  | lt => exact digits_lt_digits hdigits hdigits hlen (by simpa using h)
  | eq => exact congrArg _ h
  | gt => exact digits_lt_digits hdigits hdigits hlen.symm (by simpa using h)

theorem compares_padded_append {w m n : Nat} (hw : 0 < w) (hm : m < pow10 w) (hn : n < pow10 w)
    (ho : o.Compares m n) (hp : p.Compares a b) :
    (o.then p).Compares (Timestamp.padded w m ++ a) (Timestamp.padded w n ++ b) :=
  compares_append ((length_padded hw hm).trans (length_padded hw hn).symm)
    (compares_padded hw hm hn ho) hp

end RecordFilter
