import RecordFilter.Proofs.Number.Text
import RecordFilter.Proofs.Number.Whole
import RecordFilter.Sql.Generate

/-!
# Numbers in conditions

A database reads digits without a point as an integer of 64 bits, if they are one, and any other
numeral as the nearest binary64 number.  A number with a fraction has a point in its shortest digits
and is read back; a whole number has none, so from `2 ^ 53` up to `2 ^ 63`, where the digits are
padded with zeros, another integer may be read.

    numeral? (Binary64.finite negative m).plain = some (Binary64.ratio negative m) ↔ ¬m.Padded
                                                                          (numeral?_plain_iff)
-/

namespace RecordFilter

namespace Sql

/-- The number that a database reads in a text. -/
def numeral? (s : String) : Option ℚ :=
  match int64OfChars? s.toList with
  | some n => some n.toInt
  | none =>
    match binary64OfChars? s.toList with
    | some (.finite negative m) => some (Binary64.ratio negative m)
    | _ => none

variable {s : String} {m : Magnitude} {c k : Nat} {negative : Bool}

/-! ## Numerals with a point -/

theorem numeral?_of_binary64 (hint : int64OfChars? s.toList = none)
    (h : binary64OfChars? s.toList = some (.finite negative m)) :
    numeral? s = some (Binary64.ratio negative m) := by
  rw [numeral?, hint, h]

theorem int64OfChars?_mantissa (t : Mantissa m) (negative : Bool) :
    int64OfChars? (Binary64.signText negative t.chars) = none := by
  have hpoint : allDigits t.chars = false := by
    rw [allDigits, Bool.and_eq_false_iff, List.all_eq_false]
    exact .inr ⟨'.', by simp [Mantissa.chars], by decide⟩
  rw [int64OfChars?, intOfChars?, t.splitSign_eq negative]
  simp only [hpoint]
  rfl

theorem numeral?_mantissa (t : Mantissa m) (negative : Bool) :
    numeral? (String.ofList (Binary64.signText negative t.chars)) =
      some (Binary64.ratio negative m) := by
  refine numeral?_of_binary64 ?_ ?_
  · rw [String.toList_ofList, int64OfChars?_mantissa]
  · rw [String.toList_ofList, binary64OfChars?_mantissa]

/-! ## Numerals without a point -/

/-- The digits of a whole decimal begin with a digit. -/
theorem exists_positional_ofNat (c k : Nat) :
    ∃ d ds, (Decimal.mk c (.ofNat k)).positional = d :: ds ∧ isDigit d = true := by
  obtain ⟨d, ds, hd⟩ := List.exists_cons_of_ne_nil (digits_ne_nil c)
  refine ⟨d, ds ++ List.replicate k '0', by rw [positional_ofNat, hd]; rfl, ?_⟩
  exact isDigit_of_mem_digits (n := c) (by rw [hd]; exact List.mem_cons_self)

theorem ofDigits_positional_ofNat (c k : Nat) :
    ofDigits (Decimal.mk c (.ofNat k)).positional = c * pow10 k := by
  rw [positional_ofNat, ofDigits_append, ofDigits_digits, ofDigits_replicate_zero,
    List.length_replicate, Nat.add_zero, Nat.mul_comm]

theorem intOfChars?_positional (c k : Nat) (negative : Bool) :
    intOfChars? (Binary64.signText negative (Decimal.mk c (.ofNat k)).positional) =
      some (applySign negative (c * pow10 k)) := by
  obtain ⟨d, ds, hds, hd⟩ := exists_positional_ofNat c k
  have hall : allDigits (Decimal.mk c (.ofNat k)).positional = true :=
    allDigits_of_forall (by rw [hds]; exact List.cons_ne_nil d ds)
      fun _ => isDigit_of_mem_positional_ofNat
  rw [intOfChars?, hds, splitSign_signText ds hd, ← hds]
  simp only [hall, if_true, ofDigits_positional_ofNat]

/-- The digits of a whole number round to it, whichever integer they are. -/
theorem binary64OfChars?_positional {tie : Tie} (h : m.shortest tie = ⟨c, .ofNat k⟩)
    (negative : Bool) :
    binary64OfChars? (Binary64.signText negative (Decimal.mk c (.ofNat k)).positional) =
      some (.finite negative m) := by
  obtain ⟨d, ds, hds, hd⟩ := exists_positional_ofNat c k
  have hrounds : Magnitude.ofDecimal? (.ofParts (d :: ds) [] 0) = some m := by
    rw [← hds, Decimal.ofParts, List.append_nil, ofDigits_positional_ofNat]
    exact Magnitude.ofDecimal?_whole h
  rw [hds, binary64OfChars?_of_isDigit (splitSign_signText ds hd negative) hd,
    decimalOfChars?_digits (List.cons_ne_nil d ds)
      (by rw [← hds]; exact fun _ => isDigit_of_mem_positional_ofNat)]
  simp only [Option.map_some, Binary64.ofDecimal, hrounds]
  rfl

/-- The plain text of a number whose shortest digits have no point. -/
theorem toList_plain (h : m.shortest .up = ⟨c, .ofNat k⟩) (negative : Bool) :
    (Binary64.finite negative m).plain.toList =
      Binary64.signText negative (Decimal.mk c (.ofNat k)).positional := by
  rw [Binary64.plain, String.toList_ofList, Binary64.plainChars, h]

/-- Digits below `2 ^ 63` are read as an integer. -/
theorem numeral?_of_lt (h : m.shortest .up = ⟨c, .ofNat k⟩) (hlt : c * pow10 k < 2 ^ 63) :
    numeral? (Binary64.finite negative m).plain =
      some (withSign negative (c * pow10 k : Nat)) := by
  have hlo : -0x8000000000000000 ≤ applySign negative (c * pow10 k) := by
    unfold applySign
    split <;> omega
  have hhi : applySign negative (c * pow10 k) < 0x8000000000000000 := by
    unfold applySign
    split <;> omega
  have hread : int64OfChars? (Binary64.finite negative m).plain.toList =
      some (.ofInt (applySign negative (c * pow10 k))) := by
    rw [toList_plain h, int64OfChars?, intOfChars?_positional]
    exact if_pos ⟨hlo, hhi⟩
  rw [numeral?, hread]
  simp only [Int64.toInt_ofInt_of_le hlo hhi]
  cases negative with
  | false => simp [applySign, withSign]
  | true => simp [applySign, withSign]

/-- Digits above `2 ^ 63` are too large for an integer. -/
theorem numeral?_of_gt (h : m.shortest .up = ⟨c, .ofNat k⟩) (hgt : 2 ^ 63 < c * pow10 k) :
    numeral? (Binary64.finite negative m).plain = some (Binary64.ratio negative m) := by
  refine numeral?_of_binary64 ?_ ?_
  · rw [toList_plain h, int64OfChars?, intOfChars?_positional]
    refine if_neg ?_
    unfold applySign
    split <;> omega
  · rw [toList_plain h, binary64OfChars?_positional h]

/-! ## All finite numbers -/

/-- A finite number is read back from its plain text unless it is padded. -/
theorem numeral?_plain_iff (negative : Bool) (m : Magnitude) :
    numeral? (Binary64.finite negative m).plain = some (Binary64.ratio negative m) ↔
      ¬m.Padded := by
  obtain ⟨c, e, hd⟩ : ∃ c e, m.shortest .up = ⟨c, e⟩ := ⟨_, _, rfl⟩
  cases e with
  | ofNat k =>
    by_cases hlt : m.value < 2 ^ 63
    · rw [numeral?_of_lt hd ((Magnitude.lt_iff_value_lt hd).2 hlt), Option.some.injEq,
        Binary64.ratio, withSign_inj, Magnitude.padded_iff hd hlt, not_not, eq_comm]
    · exact iff_of_true (numeral?_of_gt hd (Magnitude.lt_of_le_value (not_lt.1 hlt) hd))
        fun hp => hlt hp.2.1
  | negSucc k =>
    have hpoint : '.' ∈ (m.shortest .up).positional := by
      rw [hd, positional_negSucc]
      simp
    rcases exists_mantissa m .up with ⟨t, ht⟩ | ⟨hdigits, -⟩
    · refine iff_of_true ?_ fun hp => ?_
      · rw [Binary64.plain, Binary64.plainChars, ht, numeral?_mantissa]
      · have hnonneg := hp.le_exponent .up
        rw [hd] at hnonneg
        exact absurd hnonneg (not_le.2 (Int.negSucc_lt_zero k))
    · exact absurd rfl (ne_point_of_isDigit (hdigits _ hpoint))

end Sql

namespace Generator

variable {negative : Bool} {m : Magnitude}

/-- **Numbers that reach a database.**  A finite number that a constant or a variable holds becomes
the same term wherever it stands, as an operand or as an entry of a list; the text of the term denotes
the number, in either dialect, exactly where the number is not padded. -/
theorem numeral?_text_iff (g : Generator) {p : Predicate}
    (h : g.valueOf? p = some (.float (.finite negative m))) :
    ∃ t, g.term p = .ok t ∧ g.entry p = .ok ([t], false) ∧
      ∀ d, Sql.numeral? (t.text d) = some (Binary64.ratio negative m) ↔ ¬m.Padded := by
  refine ⟨.number negative m, ?_, ?_, fun d => Sql.numeral?_plain_iff negative m⟩
  · cases p with
    | field => cases h
    | _ => simp only [term, h, literal, literal?]
  · cases p with
    | field => cases h
    | _ =>
      simp only [entry, entryValues, h]
      rfl

/-- The number `2 ^ 60`. -/
def twoPow60 : Magnitude := .twoPow 60 (by decide)

theorem padded_twoPow60 : twoPow60.Padded := by
  have hvalue : twoPow60.value = (2 ^ 60 : Nat) := Magnitude.value_twoPow 60 _
  have hshortest : twoPow60.shortest .up = ⟨1152921504606847, 3⟩ := by decide +kernel
  rw [Magnitude.padded_iff hshortest (by rw [hvalue]; norm_num), hvalue]
  exact fun h => absurd (Nat.cast_injective h) (by decide)

/-- The constant `1152921504606846976.0` is written with zeros at its end, which are read as digits of
another integer. -/
theorem numeral?_text_iff_twoPow60 :
    ∃ t, term ⟨"t", .empty, .empty, none, .sql⟩ (.float (.finite false twoPow60)) = .ok t ∧
      ∀ d, t.text d = "1152921504606847000" ∧
        ¬Sql.numeral? (t.text d) = some (Binary64.ratio false twoPow60) := by
  obtain ⟨t, ht, -, hread⟩ := numeral?_text_iff ⟨"t", .empty, .empty, none, .sql⟩
    (p := .float (.finite false twoPow60)) rfl
  refine ⟨t, ht, fun d => ⟨?_, fun h => (hread d).1 h padded_twoPow60⟩⟩
  cases ht
  show (Binary64.finite false twoPow60).plain = "1152921504606847000"
  decide +kernel

end Generator

end RecordFilter
