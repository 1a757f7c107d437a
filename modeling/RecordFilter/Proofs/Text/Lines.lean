import Mathlib.Data.List.Basic

/-!
# Lines of a text

A text in which each line is ended by a newline is the same as the list of its lines.

    lines? cs = some ls ↔ cs = ended ls ∧ ∀ l ∈ ls, '\n' ∉ l                   (lines?_eq_some_iff)
    ls.length = (ended ls).count '\n' ↔ ∀ l ∈ ls, '\n' ∉ l                     (length_eq_count_iff)
-/

namespace RecordFilter

/-- Puts a character in front of the first line. -/
def prepend? (c : Char) : List (List Char) → Option (List (List Char))
  | [] => none
  | l :: ls => some ((c :: l) :: ls)

/-- The lines of a text, each ended by a newline; there are none if the text goes on behind the last
newline. -/
def lines? : List Char → Option (List (List Char))
  | [] => some []
  | c :: cs => if c = '\n' then (lines? cs).map ([] :: ·) else (lines? cs).bind (prepend? c)

/-- Lines as a text. -/
def ended (ls : List (List Char)) : List Char := ls.flatMap (· ++ ['\n'])

variable {cs l : List Char} {ls : List (List Char)}

theorem ended_cons (l : List Char) (ls : List (List Char)) :
    ended (l :: ls) = l ++ '\n' :: ended ls := by
  rw [ended, List.flatMap_cons, List.append_assoc]
  rfl

/-! ## Reading lines -/

theorem lines?_append (h : '\n' ∉ l) (cs : List Char) :
    lines? (l ++ '\n' :: cs) = (lines? cs).map (l :: ·) := by
  induction l with
  | nil => rw [List.nil_append, lines?, if_pos rfl]
  | cons c l ih =>
    obtain ⟨hc, hl⟩ := not_or.1 (List.mem_cons.not.1 h)
    rw [List.cons_append, lines?, if_neg (Ne.symm hc), ih hl]
    cases lines? cs <;> rfl

theorem lines?_ended (h : ∀ l ∈ ls, '\n' ∉ l) : lines? (ended ls) = some ls := by
  induction ls with
  | nil => rfl
  | cons l ls ih =>
    obtain ⟨hl, hls⟩ := List.forall_mem_cons.1 h
    rw [ended_cons, lines?_append hl, ih hls]
    rfl

theorem of_lines? (h : lines? cs = some ls) : cs = ended ls ∧ ∀ l ∈ ls, '\n' ∉ l := by
  induction cs generalizing ls with
  | nil =>
    cases h
    exact ⟨rfl, nofun⟩
  | cons c cs ih =>
    rw [lines?] at h
    split at h
    · rename_i hc
      obtain ⟨ls', hls, rfl⟩ := Option.map_eq_some_iff.1 h
      obtain ⟨rfl, hno⟩ := ih hls
      rw [ended_cons, hc]
      exact ⟨rfl, List.forall_mem_cons.2 ⟨List.not_mem_nil, hno⟩⟩
    · rename_i hc
      obtain ⟨ls', hls, hp⟩ := Option.bind_eq_some_iff.1 h
      obtain ⟨rfl, hno⟩ := ih hls
      cases ls' with
      | nil => cases hp
      | cons l ls' =>
        cases hp
        obtain ⟨hl, hls'⟩ := List.forall_mem_cons.1 hno
        rw [ended_cons, ended_cons]
        exact ⟨rfl, List.forall_mem_cons.2 ⟨List.not_mem_cons_of_ne_of_not_mem (Ne.symm hc) hl, hls'⟩⟩

theorem lines?_eq_some_iff : lines? cs = some ls ↔ cs = ended ls ∧ ∀ l ∈ ls, '\n' ∉ l := by
  refine ⟨of_lines?, ?_⟩
  rintro ⟨rfl, h⟩
  exact lines?_ended h

/-! ## Counting lines -/

theorem count_ended_cons (l : List Char) (ls : List (List Char)) :
    (ended (l :: ls)).count '\n' = l.count '\n' + (ended ls).count '\n' + 1 := by
  rw [ended_cons, List.count_append, List.count_cons_self, Nat.add_assoc]

theorem length_le_count (ls : List (List Char)) : ls.length ≤ (ended ls).count '\n' := by
  induction ls with
  | nil => exact Nat.zero_le _
  | cons l ls ih =>
    rw [count_ended_cons, List.length_cons]
    omega

/-- Lines with newlines in them do not come back as many. -/
theorem length_eq_count_iff : ls.length = (ended ls).count '\n' ↔ ∀ l ∈ ls, '\n' ∉ l := by
  induction ls with
  | nil => exact iff_of_true rfl nofun
  | cons l ls ih =>
    have hle := length_le_count ls
    have hsum : (l :: ls).length = (ended (l :: ls)).count '\n' ↔
        l.count '\n' = 0 ∧ ls.length = (ended ls).count '\n' := by
      rw [count_ended_cons, List.length_cons]
      omega
    rw [hsum, List.count_eq_zero, ih, List.forall_mem_cons]

/-- There are as many lines as newlines. -/
theorem length_of_lines? (h : lines? cs = some ls) : ls.length = cs.count '\n' := by
  obtain ⟨rfl, hno⟩ := lines?_eq_some_iff.1 h
  exact length_eq_count_iff.2 hno

end RecordFilter
