import RecordFilter.Proofs.Value.Coherence

/-!
# The number of an array

An array has the number of its text, except `[null]`: its text is empty and reads as
zero, but its one item is read for itself, and the text `null` has no number.  On this
array alone equality and order see different numbers.

    ',' ∈ s.toList → numberOfText? s = none                                    (numberOfText?_of_comma)
    (array items).number? = (string (array items).text).number? ↔ items ≠ [null]      (number?_array_iff)
-/

namespace RecordFilter

/-! ## Texts with a comma -/

variable {cs : List Char}

theorem mem_dropWhile_of_not {α : Type} {p : α → Bool} {a : α} {l : List α} (h : a ∈ l)
    (ha : p a = false) : a ∈ l.dropWhile p := by
  rw [← List.takeWhile_append_dropWhile (p := p) (l := l)] at h
  refine (List.mem_append.1 h).resolve_left fun ht => ?_
  rw [List.all_eq_true.1 List.all_takeWhile a ht] at ha
  cases ha

theorem comma_mem_trimChars (h : ',' ∈ cs) : ',' ∈ trimChars cs := by
  have hc : isWhiteSpace ',' = false := by decide
  rw [trimChars, List.mem_reverse]
  refine mem_dropWhile_of_not ?_ hc
  rw [List.mem_reverse]
  exact mem_dropWhile_of_not h hc

theorem comma_mem_splitSign (h : ',' ∈ cs) : ',' ∈ (splitSign cs).2 := by
  unfold splitSign
  split
  · simpa using h
  · simpa using h
  · exact h

theorem intOfChars?_of_comma (h : ',' ∈ cs) : intOfChars? cs = none := by
  have hno : allDigits (splitSign cs).2 = false := by
    rw [allDigits, Bool.and_eq_false_iff]
    right
    rw [List.all_eq_false]
    exact ⟨',', comma_mem_splitSign h, by decide⟩
  simp only [intOfChars?]
  rw [hno]
  rfl

theorem exponentOfChars?_of_comma (h : ',' ∈ cs) : exponentOfChars? cs = none := by
  unfold exponentOfChars?
  split
  · cases h
  · exact intOfChars?_of_comma (by simpa using h)
  · exact intOfChars?_of_comma (by simpa using h)
  · rfl

theorem decimalOfChars?_of_comma (h : ',' ∈ cs) : decimalOfChars? cs = none := by
  have hc : isDigit ',' = false := by decide
  have hrest := mem_dropWhile_of_not h hc
  simp only [decimalOfChars?]
  split
  · rename_i fraction heq
    rw [heq] at hrest
    have hexponent := mem_dropWhile_of_not (List.mem_of_ne_of_mem (by decide) hrest) hc
    rw [exponentOfChars?_of_comma hexponent]
    exact ite_self none
  · rw [exponentOfChars?_of_comma hrest]
    exact ite_self none

theorem binary64OfChars?_of_comma (h : ',' ∈ cs) : binary64OfChars? cs = none := by
  have hrest := comma_mem_splitSign h
  -- no word has a comma
  have hword : ∀ w : String, ',' ∉ w.toList → String.ofList (lowerAscii (splitSign cs).2) ≠ w := by
    rintro w hw rfl
    rw [String.toList_ofList] at hw
    exact hw (List.mem_map.2 ⟨',', hrest, by decide⟩)
  simp only [binary64OfChars?]
  split
  · rename_i heq
    exact absurd heq (hword _ (by decide))
  · rename_i heq
    exact absurd heq (hword _ (by decide))
  · rename_i heq
    exact absurd heq (hword _ (by decide))
  · rw [decimalOfChars?_of_comma hrest]
    rfl

namespace Value

/-- A text with a comma has no number. -/
theorem numberOfText?_of_comma {s : String} (h : ',' ∈ s.toList) : numberOfText? s = none := by
  have hmem := comma_mem_trimChars h
  unfold numberOfText?
  split
  · rename_i heq
    rw [heq] at hmem
    cases hmem
  · rw [binary64OfChars?_of_comma hmem]

/-! ## Arrays -/

theorem text_array_singleton (v : Value) : (array [v]).text = if v.isNull then "" else v.text := by
  simp only [text, itemTexts, String.intercalate_singleton]

/-- The text of an array of several items has a comma. -/
theorem comma_mem_text_array (v w : Value) (vs : List Value) :
    ',' ∈ (array (v :: w :: vs)).text.toList := by
  simp only [text, itemTexts, String.intercalate_cons_cons, String.toList_append]
  simp

theorem number?_array {items : List Value} (h : items ≠ [null]) :
    (array items).number? = (string (array items).text).number? := by
  match items with
  | [] => decide +kernel
  | [v] =>
    have hv : v.isNull = false := by
      cases v with
      | null => exact absurd rfl h
      | _ => rfl
    show numberOfText? v.text = numberOfText? (array [v]).text
    rw [text_array_singleton, hv]
    rfl
  | v :: w :: vs => exact (numberOfText?_of_comma (comma_mem_text_array v w vs)).symm

theorem number?_array_null : (array [null]).number? = none := by decide +kernel

theorem number?_text_array_null : (string (array [null]).text).number? = some .zero := by
  decide +kernel

/-- The number of an array is that of its text, and equality and order see the same number of it,
for all arrays but `[null]`. -/
theorem number?_array_iff (items : List Value) :
    ((array items).number? = (string (array items).text).number? ↔ items ≠ [null]) ∧
    ((∀ n, Coherent (array items) (integer n)) ∧ (∀ x, Coherent (array items) (float x)) ↔
      items ≠ [null]) := by
  constructor
  · refine ⟨?_, number?_array⟩
    rintro h rfl
    rw [number?_array_null, number?_text_array_null] at h
    cases h
  · constructor
    · rintro ⟨h, -⟩ rfl
      have hzero := (h 0).looseEq_eq
      revert hzero
      decide +kernel
    · intro h
      have hn := (number?_array h).symm
      exact ⟨fun n => coherent_of_number? rfl rfl rfl hn rfl,
        fun x => coherent_of_number? rfl rfl rfl hn rfl⟩

end Value

end RecordFilter
