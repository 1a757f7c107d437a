import RecordFilter.Predicate.Printer
import RecordFilter.Proofs.Number.Shortest

/-!
# Numbers with a fraction, written and read

The literal of a finite binary64 number is a sign, digits, a point and digits, and
reading it gives back the number, down to the sign of zero.

    (floatLiteral (.finite negative m)).toList = signText negative t.chars
                                                          (exists_mantissa_floatLiteral)
    binary64OfChars? (signText negative t.chars) = some (.finite negative m)
                                                          (binary64OfChars?_mantissa)
-/

namespace RecordFilter

/-! ## Positional notation -/

/-- Digits before and behind a point which stand for a magnitude. -/
structure Mantissa (m : Magnitude) where
  whole : List Char
  fraction : List Char
  whole_ne_nil : whole ≠ []
  fraction_ne_nil : fraction ≠ []
  whole_digits : ∀ c ∈ whole, isDigit c = true
  fraction_digits : ∀ c ∈ fraction, isDigit c = true
  rounds : Magnitude.ofDecimal? (.ofParts whole fraction 0) = some m

def Mantissa.chars {m : Magnitude} (t : Mantissa m) : List Char := t.whole ++ '.' :: t.fraction

theorem isDigit_zero : isDigit '0' = true := by decide

theorem isDigit_of_mem_replicate {n : Nat} {c : Char} (h : c ∈ List.replicate n '0') :
    isDigit c = true := by
  rw [List.eq_of_mem_replicate h]
  exact isDigit_zero

theorem ne_point_of_isDigit {c : Char} (h : isDigit c = true) : c ≠ '.' := by
  rintro rfl
  exact absurd h (by decide)

/-- The digits of a fraction with zeros in front, so that one digit stands before the point. -/
def paddedDigits (n k : Nat) : List Char :=
  List.replicate (k + 2 - (digits n).length) '0' ++ digits n

theorem isDigit_of_mem_paddedDigits {n k : Nat} {c : Char} (h : c ∈ paddedDigits n k) :
    isDigit c = true := by
  rcases List.mem_append.1 h with h | h
  · exact isDigit_of_mem_replicate h
  · exact isDigit_of_mem_digits h

theorem ofDigits_paddedDigits (n k : Nat) : ofDigits (paddedDigits n k) = n := by
  rw [paddedDigits, ofDigits_append, ofDigits_replicate_zero, ofDigits_digits, Nat.mul_zero,
    Nat.zero_add]

theorem lt_length_paddedDigits (n k : Nat) : k + 1 < (paddedDigits n k).length := by
  simp only [paddedDigits, List.length_append, List.length_replicate]
  omega

theorem positional_negSucc (c k : Nat) :
    (Decimal.mk c (.negSucc k)).positional =
      (paddedDigits c k).take ((paddedDigits c k).length - (k + 1)) ++
        '.' :: (paddedDigits c k).drop ((paddedDigits c k).length - (k + 1)) := rfl

theorem positional_ofNat (c k : Nat) :
    (Decimal.mk c (.ofNat k)).positional = digits c ++ List.replicate k '0' := rfl

theorem isDigit_of_mem_positional_ofNat {c k : Nat} {a : Char}
    (h : a ∈ (Decimal.mk c (.ofNat k)).positional) : isDigit a = true := by
  rcases List.mem_append.1 h with h | h
  · exact isDigit_of_mem_digits h
  · exact isDigit_of_mem_replicate h

/-- Ten times the coefficient over ten is the same decimal. -/
theorem ofDecimal?_tenfold {m : Magnitude} {c k : Nat} (tie : Tie)
    (hd : m.shortest tie = ⟨c, .ofNat k⟩) :
    Magnitude.ofDecimal? ⟨pow10 1 * (pow10 k * c), -1⟩ = some m := by
  refine Magnitude.ofDecimal?_of_shortest tie ?_
  rw [hd, Int.ofNat_eq_natCast, Magnitude.scale_ofNat, Magnitude.scaled_ofNat]
  show pow10 1 * (pow10 k * c) * (pow10 0 * pow2 1076) * 1 = c * pow10 k * pow2 1076 * pow10 1
  rw [show pow10 0 = 1 from rfl]
  ring

/-- The shortest digits of a magnitude, with a point and a zero where it is whole. -/
theorem exists_mantissa (m : Magnitude) (tie : Tie) :
    (∃ t : Mantissa m, (m.shortest tie).positional = t.chars) ∨
    ((∀ c ∈ (m.shortest tie).positional, isDigit c = true) ∧
      ∃ t : Mantissa m, (m.shortest tie).positional ++ ['.', '0'] = t.chars) := by
  have hr := Magnitude.ofDecimal?_shortest m tie
  obtain ⟨c, e, hd⟩ : ∃ c e, m.shortest tie = ⟨c, e⟩ := ⟨_, _, rfl⟩
  rw [hd] at hr ⊢
  cases e with
  | ofNat k =>
    refine .inr ⟨fun a ha => isDigit_of_mem_positional_ofNat ha, ⟨⟨digits c ++ List.replicate k '0',
      ['0'], ?_, by simp, ?_, by simp [isDigit_zero], ?_⟩, ?_⟩⟩
    · simp [digits_ne_nil]
    · exact fun a ha => isDigit_of_mem_positional_ofNat ha
    · have h := ofDecimal?_tenfold tie hd
      rw [Decimal.ofParts, ofDigits_append, ofDigits_append, ofDigits_digits,
        ofDigits_replicate_zero, List.length_replicate]
      exact h
    · rw [positional_ofNat]
      rfl
  | negSucc k =>
    have hlen := lt_length_paddedDigits c k
    refine .inl ⟨⟨(paddedDigits c k).take ((paddedDigits c k).length - (k + 1)),
      (paddedDigits c k).drop ((paddedDigits c k).length - (k + 1)), ?_, ?_, ?_, ?_, ?_⟩, ?_⟩
    · apply List.ne_nil_of_length_pos
      rw [List.length_take]
      omega
    · apply List.ne_nil_of_length_pos
      rw [List.length_drop]
      omega
    · exact fun a ha => isDigit_of_mem_paddedDigits (List.mem_of_mem_take ha)
    · exact fun a ha => isDigit_of_mem_paddedDigits (List.mem_of_mem_drop ha)
    · rw [Decimal.ofParts, List.take_append_drop, ofDigits_paddedDigits, List.length_drop]
      have hk : (0 : Int) - ((paddedDigits c k).length - ((paddedDigits c k).length - (k + 1)) : Nat)
          = .negSucc k := by omega
      rw [hk]
      exact hr
    · exact positional_negSucc c k

/-! ## Literals -/

/-- The literal of a finite number: its sign and its mantissa. -/
theorem exists_mantissa_floatLiteral (negative : Bool) (m : Magnitude) :
    ∃ t : Mantissa m, (Predicate.floatLiteral (.finite negative m)).toList =
      Binary64.signText negative t.chars := by
  have hpoint : ∀ cs : List Char, (Binary64.signText negative cs).contains '.' = cs.contains '.' := by
    intro cs
    cases negative with
    | false => rfl
    | true => simp [Binary64.signText]
  simp only [Predicate.floatLiteral, Binary64.isFinite, Bool.true_and, Binary64.plain,
    Binary64.plainChars, hpoint]
  rcases exists_mantissa m .up with ⟨t, ht⟩ | ⟨hds, t, ht⟩
  · refine ⟨t, ?_⟩
    rw [if_neg (by simp [ht, Mantissa.chars]), String.toList_ofList, ht]
  · refine ⟨t, ?_⟩
    have hno : (m.shortest .up).positional.contains '.' = false := by
      rw [List.contains_eq_mem, decide_eq_false_iff_not]
      exact fun h => ne_point_of_isDigit (hds _ h) rfl
    rw [if_pos (by rw [hno]; rfl), String.toList_append, String.toList_ofList, ← ht]
    cases negative with
    | false => rfl
    | true => rfl

theorem takeWhile_isDigit_append {ds : List Char} (hd : ∀ c ∈ ds, isDigit c = true)
    (rest : List Char) (hr : ∀ c cs, rest = c :: cs → isDigit c = false) :
    (ds ++ rest).takeWhile isDigit = ds ∧ (ds ++ rest).dropWhile isDigit = rest := by
  rw [List.takeWhile_append_of_pos hd, List.dropWhile_append_of_pos hd]
  cases rest with
  | nil => simp
  | cons c cs => simp [hr c cs rfl]

/-- Digits on either side of a point are read as a decimal. -/
theorem decimalOfChars?_parts {whole fraction : List Char} (hw : ∀ c ∈ whole, isDigit c = true)
    (hf : ∀ c ∈ fraction, isDigit c = true) (hne : whole ≠ [] ∨ fraction ≠ []) :
    decimalOfChars? (whole ++ '.' :: fraction) = some (.ofParts whole fraction 0) := by
  obtain ⟨h1, h2⟩ := takeWhile_isDigit_append hw ('.' :: fraction) (by
    intro c cs h
    obtain ⟨rfl, -⟩ := List.cons_eq_cons.1 h
    decide)
  obtain ⟨h3, h4⟩ := takeWhile_isDigit_append hf [] (by simp)
  rw [List.append_nil] at h3 h4
  have hsome : ¬ (whole.isEmpty && fraction.isEmpty) = true := by
    rw [Bool.and_eq_true, List.isEmpty_iff, List.isEmpty_iff]
    rintro ⟨hw0, hf0⟩
    rcases hne with hne | hne
    · exact hne hw0
    · exact hne hf0
  simp [decimalOfChars?, h1, h2, h3, h4, hsome, exponentOfChars?]

/-- Digits alone are read as a whole decimal. -/
theorem decimalOfChars?_digits {ds : List Char} (hne : ds ≠ []) (hds : ∀ c ∈ ds, isDigit c = true) :
    decimalOfChars? ds = some (.ofParts ds [] 0) := by
  obtain ⟨h1, h2⟩ := takeWhile_isDigit_append hds [] (by simp)
  rw [List.append_nil] at h1 h2
  simp [decimalOfChars?, h1, h2, hne, exponentOfChars?]

/-- A sign is split off what begins with a digit. -/
theorem splitSign_signText {c : Char} (cs : List Char) (hc : isDigit c = true) (negative : Bool) :
    splitSign (Binary64.signText negative (c :: cs)) = (negative, c :: cs) := by
  cases negative with
  | true => rfl
  | false => exact splitSign_of_isDigit cs hc

namespace Mantissa

variable {m : Magnitude}

theorem exists_cons (t : Mantissa m) : ∃ c cs, t.chars = c :: cs ∧ isDigit c = true := by
  obtain ⟨c, cs, hc⟩ := List.exists_cons_of_ne_nil t.whole_ne_nil
  refine ⟨c, cs ++ '.' :: t.fraction, by rw [chars, hc]; rfl, t.whole_digits c ?_⟩
  rw [hc]
  exact List.mem_cons_self

theorem decimalOfChars? (t : Mantissa m) :
    decimalOfChars? t.chars = some (.ofParts t.whole t.fraction 0) := by
  rw [chars]
  exact decimalOfChars?_parts t.whole_digits t.fraction_digits (.inl t.whole_ne_nil)

theorem splitSign_eq (t : Mantissa m) (negative : Bool) :
    splitSign (Binary64.signText negative t.chars) = (negative, t.chars) := by
  obtain ⟨c, cs, hc, hd⟩ := t.exists_cons
  rw [hc, splitSign_signText cs hd]

end Mantissa

theorem toLower_of_isDigit {c : Char} (h : isDigit c = true) : c.toLower = c := by
  simp only [isDigit, Bool.and_eq_true, decide_eq_true_eq] at h
  have hu : ¬(c.val ≥ 'A'.val ∧ c.val ≤ 'Z'.val) := fun h' =>
    absurd (Char.le_trans (show 'A' ≤ c from h'.1) h.2) (by decide)
  exact dif_neg hu

/-- A text that begins with no letter of a word is read as a decimal. -/
theorem binary64OfChars?_of_head {cs rest : List Char} {c : Char} {negative : Bool}
    (hs : splitSign cs = (negative, c :: rest)) (hn : c.toLower ≠ 'n') (hi : c.toLower ≠ 'i') :
    binary64OfChars? cs = (decimalOfChars? (c :: rest)).map (.ofDecimal negative) := by
  have hw : ∀ w : String, (∃ a as, w.toList = a :: as ∧ c.toLower ≠ a) →
      String.ofList (lowerAscii (c :: rest)) ≠ w := by
    rintro w ⟨a, as, hw, ha⟩ rfl
    rw [String.toList_ofList, lowerAscii, List.map_cons] at hw
    exact ha (List.cons_eq_cons.1 hw).1
  simp only [binary64OfChars?, hs]
  split
  · rename_i heq
    exact absurd heq (hw _ ⟨'n', ['a', 'n'], by decide, hn⟩)
  · rename_i heq
    exact absurd heq (hw _ ⟨'i', ['n', 'f'], by decide, hi⟩)
  · rename_i heq
    exact absurd heq (hw _ ⟨'i', ['n', 'f', 'i', 'n', 'i', 't', 'y'], by decide, hi⟩)
  · rfl

/-- A text that begins with a digit is read as a decimal. -/
theorem binary64OfChars?_of_isDigit {cs rest : List Char} {c : Char} {negative : Bool}
    (hs : splitSign cs = (negative, c :: rest)) (hc : isDigit c = true) :
    binary64OfChars? cs = (decimalOfChars? (c :: rest)).map (.ofDecimal negative) := by
  have hlower := toLower_of_isDigit hc
  refine binary64OfChars?_of_head hs ?_ ?_
  · rintro h
    rw [← hlower, h] at hc
    exact absurd hc (by decide)
  · rintro h
    rw [← hlower, h] at hc
    exact absurd hc (by decide)

theorem binary64OfChars?_mantissa {m : Magnitude} (t : Mantissa m) (negative : Bool) :
    binary64OfChars? (Binary64.signText negative t.chars) = some (.finite negative m) := by
  obtain ⟨c, cs, hc, hd⟩ := t.exists_cons
  have hs := t.splitSign_eq negative
  rw [hc] at hs
  rw [hc, binary64OfChars?_of_isDigit hs hd, ← hc, t.decimalOfChars?]
  simp only [Option.map_some, Binary64.ofDecimal, t.rounds]
  rfl

end RecordFilter
