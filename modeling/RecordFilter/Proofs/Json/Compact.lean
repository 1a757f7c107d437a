import RecordFilter.Json.Writer
import RecordFilter.Proofs.Number.Digits
import RecordFilter.Proofs.Number.Text

/-!
# Texts on one line

Numbers have no newline in their texts, and JSON has none in its compact form: in strings newlines
are escaped.

    '\n' ∉ j.compact.toList                                                  (newline_notMem_compact)
-/

namespace RecordFilter

/-! ## Numbers -/

theorem newline_notMem_of_isDigit {cs : List Char} (h : ∀ c ∈ cs, isDigit c = true) : '\n' ∉ cs := by
  intro hmem
  exact absurd (h _ hmem) (by decide)

theorem newline_notMem_digits (n : Nat) : '\n' ∉ digits n :=
  newline_notMem_of_isDigit fun _ hc => isDigit_of_mem_digits hc

theorem newline_notMem_int (n : Int) : '\n' ∉ (toString n).toList := by
  rw [Int.toString_eq_repr, Int.repr_eq_if]
  split
  · rw [Nat.toList_repr]
    exact newline_notMem_digits _
  · rw [String.toList_append, Nat.toList_repr, List.mem_append]
    rintro (h | h)
    · exact absurd h (by decide)
    · exact newline_notMem_digits _ h

theorem newline_notMem_positional (d : Decimal) : '\n' ∉ d.positional := by
  obtain ⟨c, e⟩ := d
  cases e with
  | ofNat k => exact newline_notMem_of_isDigit fun _ hc => isDigit_of_mem_positional_ofNat hc
  | negSucc k =>
    have hpadded : '\n' ∉ paddedDigits c k :=
      newline_notMem_of_isDigit fun _ hc => isDigit_of_mem_paddedDigits hc
    rw [positional_negSucc, List.mem_append, List.mem_cons]
    rintro (h | h | h)
    · exact hpadded (List.mem_of_mem_take h)
    · exact absurd h (by decide)
    · exact hpadded (List.mem_of_mem_drop h)

theorem newline_notMem_scientific (d : Decimal) : '\n' ∉ d.scientific := by
  have hdigits := newline_notMem_digits d.coefficient
  -- the mark, the sign and the digits of the exponent
  have hexponent : '\n' ∉ 'e' :: (if d.place < 0 then '-' else '+') :: digits d.place.natAbs := by
    refine List.not_mem_cons_of_ne_of_not_mem (by decide)
      (List.not_mem_cons_of_ne_of_not_mem ?_ (newline_notMem_digits _))
    split <;> decide
  simp only [Decimal.scientific]
  split
  · exact List.not_mem_nil
  · rename_i c hc
    rw [hc] at hdigits
    exact List.not_mem_cons_of_ne_of_not_mem (List.ne_of_not_mem_cons hdigits) hexponent
  · rename_i c cs _ hc
    rw [hc] at hdigits
    rw [List.mem_append, List.mem_cons, List.mem_cons]
    rintro ((h | h | h) | h)
    · exact List.ne_of_not_mem_cons hdigits h
    · exact absurd h (by decide)
    · exact List.not_mem_of_not_mem_cons hdigits h
    · exact hexponent h

theorem newline_notMem_signText {cs : List Char} (h : '\n' ∉ cs) (negative : Bool) :
    '\n' ∉ Binary64.signText negative cs := by
  cases negative with
  | false => exact h
  | true => exact List.not_mem_cons_of_ne_of_not_mem (by decide) h

theorem newline_notMem_plain (x : Binary64) : '\n' ∉ x.plain.toList := by
  rw [Binary64.plain, String.toList_ofList]
  cases x with
  | nan => decide
  | infinite negative => exact newline_notMem_signText (by decide) negative
  | finite negative m => exact newline_notMem_signText (newline_notMem_positional _) negative

theorem newline_notMem_dataChars (m : Magnitude) : '\n' ∉ Binary64.dataChars m := by
  have hpositional := newline_notMem_positional (m.shortest .even)
  simp only [Binary64.dataChars]
  split
  · decide
  · split
    · split
      · exact hpositional
      · rw [List.mem_append]
        rintro (h | h)
        · exact hpositional h
        · exact absurd h (by decide)
    · exact newline_notMem_scientific _

/-! ## JSON -/

namespace Json

theorem hexDigit_ne_newline : ∀ n < 16, '\n' ≠ hexDigit n := by decide

/-- The newline is one of the characters that have an escape of their own. -/
theorem newline_notMem_escapeChar (c : Char) : '\n' ∉ escapeChar c := by
  unfold escapeChar
  iterate 7
    split
    · decide
  rename_i hnewline _ _
  split
  · rename_i hcontrol
    have hhigh := hexDigit_ne_newline (c.toNat / 16) (by omega)
    have hlow := hexDigit_ne_newline (c.toNat % 16) (by omega)
    have hdigits := List.not_mem_cons_of_ne_of_not_mem hhigh
      (List.not_mem_cons_of_ne_of_not_mem hlow List.not_mem_nil)
    intro h
    rcases List.mem_append.1 (show '\n' ∈ ['\\', 'u', '0', '0'] ++ _ from h) with h | h
    · exact absurd h (by decide)
    · exact hdigits h
  · exact List.not_mem_cons_of_ne_of_not_mem (Ne.symm hnewline) List.not_mem_nil

theorem newline_notMem_quote (s : String) : '\n' ∉ (quote s).toList := by
  rw [quote, String.toList_ofList, List.mem_append, List.mem_cons, List.mem_flatMap]
  rintro ((h | ⟨c, -, h⟩) | h)
  · exact absurd h (by decide)
  · exact newline_notMem_escapeChar c h
  · exact absurd h (by decide)

theorem newline_notMem_intercalate {ss : List String} (h : ∀ s ∈ ss, '\n' ∉ s.toList) :
    '\n' ∉ (",".intercalate ss).toList := by
  induction ss with
  | nil => decide
  | cons s ss ih =>
    obtain ⟨hs, hss⟩ := List.forall_mem_cons.1 h
    cases ss with
    | nil => rwa [String.intercalate_singleton]
    | cons t ts =>
      rw [String.intercalate_cons_cons, String.toList_append, String.toList_append, List.mem_append,
        List.mem_append, not_or, not_or]
      exact ⟨⟨hs, by decide⟩, ih hss⟩

mutual

theorem newline_notMem_compact : ∀ j : Json, '\n' ∉ j.compact.toList
  | null => by decide
  | bool b => by cases b <;> decide
  | integer n => newline_notMem_int n
  | float negative m => by
    rw [compact, numberText, String.toList_ofList]
    exact newline_notMem_signText (newline_notMem_dataChars m) negative
  | string s => newline_notMem_quote s
  | array items => by
    have hitems := newline_notMem_intercalate (newline_notMem_compactItems items)
    rw [compact, String.toList_append, String.toList_append, List.mem_append, List.mem_append,
      not_or, not_or]
    exact ⟨⟨by decide, hitems⟩, by decide⟩
  | object members => by
    have hmembers := newline_notMem_intercalate (newline_notMem_compactMembers members)
    rw [compact, String.toList_append, String.toList_append, List.mem_append, List.mem_append,
      not_or, not_or]
    exact ⟨⟨by decide, hmembers⟩, by decide⟩

theorem newline_notMem_compactItems : ∀ js : List Json, ∀ s ∈ compactItems js, '\n' ∉ s.toList
  | [] => nofun
  | j :: js =>
    List.forall_mem_cons.2 ⟨newline_notMem_compact j, newline_notMem_compactItems js⟩

theorem newline_notMem_compactMembers :
    ∀ ms : List (String × Json), ∀ s ∈ compactMembers ms, '\n' ∉ s.toList
  | [] => nofun
  | (k, j) :: ms => by
    refine List.forall_mem_cons.2 ⟨?_, newline_notMem_compactMembers ms⟩
    rw [String.toList_append, String.toList_append, List.mem_append, List.mem_append, not_or,
      not_or]
    exact ⟨⟨newline_notMem_quote k, by decide⟩, newline_notMem_compact j⟩

end

end Json

end RecordFilter
