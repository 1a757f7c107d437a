import Mathlib.Data.List.TakeWhile
import RecordFilter.Proofs.Json.Numbers
import RecordFilter.Proofs.Number.Text

/-!
# Values on their own

What is read of a JSON value ends with the value: whatever text comes behind it, so long as it does
not go on with a number, is left as it is.  So every value that stands in a text has a text of its
own.

    value fuel depth cs = some (j, rest) → ∃ used, cs = used ++ rest ∧ Spells depth used j
                                                                              (spells_of_value)
    Spells depth used j → parse? depth (String.ofList used) = some j           (parse?_of_spells)
-/

namespace RecordFilter

namespace Json

variable {α : Type} {cs rest tail used : List Char} {depth fuel : Nat} {j : Json} {a : α}
  {negative : Bool}

/-! ## Readers -/

/-- `Takes ok r used a`: whatever text of a kind comes behind it, a reader takes `used` for `a`. -/
def Takes (ok : List Char → Prop) (r : Read α) (used : List Char) (a : α) : Prop :=
  ∀ tail, ok tail → r (used ++ tail) = some (a, tail)

/-- Texts that do not go on with the whole part of a number, with its fraction, or with a number. -/
def StopsWhole (cs : List Char) : Prop := ∀ c more, cs = c :: more → isDigit c = false

def StopsFraction (cs : List Char) : Prop := ∀ c more, cs = c :: more → isDigit c = false ∧ c ≠ '.'

def Stops (cs : List Char) : Prop :=
  ∀ c more, cs = c :: more → isDigit c = false ∧ c ≠ '.' ∧ c ≠ 'e' ∧ c ≠ 'E'

/-- Digits and what is behind them, told apart again whatever comes behind. -/
theorem takeWhile_takeWhile_append (cs : List Char) (ht : StopsWhole tail) :
    (cs.takeWhile isDigit ++ tail).takeWhile isDigit = cs.takeWhile isDigit ∧
      (cs.takeWhile isDigit ++ tail).dropWhile isDigit = tail :=
  takeWhile_isDigit_append (fun _ => List.mem_takeWhile_imp) tail ht

/-! ## Numbers -/

theorem fractionPart_takes {fraction : Option (List Char)}
    (h : fractionPart cs = some (fraction, rest)) :
    ∃ used, cs = used ++ rest ∧ (∀ c more, used = c :: more → c = '.') ∧
      Takes StopsFraction fractionPart used fraction := by
  unfold fractionPart at h
  split at h
  · rename_i cs
    simp only at h
    split at h
    · cases h
    · rename_i hds
      cases h
      refine ⟨'.' :: cs.takeWhile isDigit, by simp, ?_, ?_⟩
      · rintro c more ⟨⟩
        rfl
      · intro tail ht
        obtain ⟨h1, h2⟩ := takeWhile_takeWhile_append cs fun c more h => (ht c more h).1
        simp only [List.cons_append, fractionPart, h1, h2, if_neg hds]
  · cases h
    refine ⟨[], rfl, nofun, ?_⟩
    intro tail ht
    show fractionPart tail = _
    unfold fractionPart
    split
    · exact absurd rfl (ht _ _ rfl).2
    · rfl

theorem exists_sign (cs : List Char) : ∃ sign, cs = sign ++ (splitSign cs).2 ∧
    ∀ c more, isDigit c = true → splitSign (sign ++ c :: more) = ((splitSign cs).1, c :: more) := by
  unfold splitSign
  split
  · exact ⟨['-'], rfl, fun _ _ _ => rfl⟩
  · exact ⟨['+'], rfl, fun _ _ _ => rfl⟩
  · exact ⟨[], rfl, fun c more hc => splitSign_of_isDigit more hc⟩

theorem exponentPart_mark {c : Char} (hc : c = 'e' ∨ c = 'E') (cs : List Char) :
    exponentPart (c :: cs) =
      if ((splitSign cs).2.takeWhile isDigit).isEmpty then none
      else some (some (applySign (splitSign cs).1 (ofDigits ((splitSign cs).2.takeWhile isDigit))),
        (splitSign cs).2.dropWhile isDigit) := by
  rcases hc with rfl | rfl <;> rfl

theorem exponentPart_mark_takes {c : Char} {exponent : Option Int} (hc : c = 'e' ∨ c = 'E')
    (h : exponentPart (c :: cs) = some (exponent, rest)) :
    ∃ used, c :: cs = c :: used ++ rest ∧ Takes Stops exponentPart (c :: used) exponent := by
  rw [exponentPart_mark hc] at h
  split at h
  · cases h
  · rename_i hds
    cases h
    obtain ⟨sign, hcs, hsign⟩ := exists_sign cs
    refine ⟨sign ++ (splitSign cs).2.takeWhile isDigit, ?_, ?_⟩
    · rw [List.cons_append, List.append_assoc, List.takeWhile_append_dropWhile, ← hcs]
    · intro tail ht
      obtain ⟨h1, h2⟩ := takeWhile_takeWhile_append (splitSign cs).2 fun c more h => (ht c more h).1
      have hsplit : splitSign (sign ++ ((splitSign cs).2.takeWhile isDigit ++ tail)) =
          ((splitSign cs).1, (splitSign cs).2.takeWhile isDigit ++ tail) := by
        cases hw : (splitSign cs).2.takeWhile isDigit with
        | nil => simp [hw] at hds
        | cons d ds =>
          refine hsign d (ds ++ tail) (List.mem_takeWhile_imp (l := (splitSign cs).2) ?_)
          rw [hw]
          exact List.mem_cons_self
      rw [List.cons_append, List.append_assoc, exponentPart_mark hc, hsplit]
      simp only [h1, h2, if_neg hds]

theorem exponentPart_takes {exponent : Option Int} (h : exponentPart cs = some (exponent, rest)) :
    ∃ used, cs = used ++ rest ∧ (∀ c more, used = c :: more → c = 'e' ∨ c = 'E') ∧
      Takes Stops exponentPart used exponent := by
  by_cases hmark : ∃ c more, cs = c :: more ∧ (c = 'e' ∨ c = 'E')
  · obtain ⟨c, more, rfl, hc⟩ := hmark
    obtain ⟨used, hcs, ht⟩ := exponentPart_mark_takes hc h
    refine ⟨c :: used, hcs, ?_, ht⟩
    rintro _ _ ⟨⟩
    exact hc
  · have hnone : ∀ tail : List Char, (∀ c more, tail = c :: more → c ≠ 'e' ∧ c ≠ 'E') →
        exponentPart tail = some (none, tail) := by
      intro tail ht
      unfold exponentPart
      split
      · exact absurd rfl (ht _ _ rfl).1
      · exact absurd rfl (ht _ _ rfl).2
      · rfl
    rw [hnone cs fun c more he => not_or.1 fun hc => hmark ⟨c, more, he, hc⟩] at h
    cases h
    exact ⟨[], rfl, nofun, fun tail ht => hnone tail fun c more he => (ht c more he).2.2⟩

/-- The number that the parts behind a sign make. -/
def ofNumberParts (negative : Bool) (whole : List Char) (fraction : Option (List Char))
    (exponent : Option Int) : Option Json :=
  match fraction, exponent with
  | none, none => wholeOf? negative whole
  | _, _ => floatOf? negative whole (fraction.getD []) (exponent.getD 0)

/-- Whether digits can be the whole part of a number. -/
def IsWhole (whole : List Char) : Prop :=
  (whole.isEmpty || (whole.head? == some '0' && whole.length ≠ 1)) = false

/-- A number behind its sign. -/
def unsigned (negative : Bool) : Read Json := fun cs => do
  let whole := cs.takeWhile isDigit
  if whole.isEmpty || (whole.head? == some '0' && whole.length ≠ 1) then none
  let (fraction, cs) ← fractionPart (cs.dropWhile isDigit)
  let (exponent, cs) ← exponentPart cs
  match fraction, exponent with
  | none, none => return (← wholeOf? negative whole, cs)
  | _, _ => return (← floatOf? negative whole (fraction.getD []) (exponent.getD 0), cs)

theorem number_minus (cs : List Char) : number ('-' :: cs) = unsigned true cs := rfl

theorem number_of_ne (h : ∀ rest, cs ≠ '-' :: rest) : number cs = unsigned false cs := by
  unfold number
  split
  rename_i heq
  split at heq
  · exact absurd rfl (h _)
  · cases heq
    rfl

theorem unsigned_eq_some_iff : unsigned negative cs = some (j, rest) ↔
    ∃ fraction exponent behind, IsWhole (cs.takeWhile isDigit) ∧
      fractionPart (cs.dropWhile isDigit) = some (fraction, behind) ∧
      exponentPart behind = some (exponent, rest) ∧
      ofNumberParts negative (cs.takeWhile isDigit) fraction exponent = some j := by
  unfold unsigned IsWhole
  simp only
  split
  · rename_i hw
    simp only [hw]
    simp
  · rename_i hw
    rw [Bool.not_eq_true] at hw
    simp only [hw, true_and, Option.bind_eq_bind, Option.bind_eq_some_iff, Prod.exists]
    constructor
    · rintro ⟨fraction, behind, hf, exponent, rest', he, hj⟩
      refine ⟨fraction, exponent, behind, hf, ?_⟩
      unfold ofNumberParts
      split at hj
      all_goals
        obtain ⟨k, hk, hj⟩ := Option.bind_eq_some_iff.1 hj
        cases hj
        exact ⟨he, hk⟩
    · rintro ⟨fraction, exponent, behind, hf, he, hj⟩
      refine ⟨fraction, behind, hf, exponent, rest, he, ?_⟩
      unfold ofNumberParts at hj
      split at hj
      all_goals exact Option.bind_eq_some_iff.2 ⟨j, hj, rfl⟩

theorem unsigned_takes (h : unsigned negative cs = some (j, rest)) :
    ∃ c more, cs = c :: more ++ rest ∧ isDigit c = true ∧
      Takes Stops (unsigned negative) (c :: more) j := by
  obtain ⟨fraction, exponent, behind, hw, hf, he, hj⟩ := unsigned_eq_some_iff.1 h
  obtain ⟨usedF, hcsF, hheadF, htF⟩ := fractionPart_takes hf
  obtain ⟨usedE, rfl, hheadE, htE⟩ := exponentPart_takes he
  cases hc : cs.takeWhile isDigit with
  | nil => simp [IsWhole, hc] at hw
  | cons c ds =>
    have hdigit : isDigit c = true := List.mem_takeWhile_imp (l := cs) (by simp [hc])
    refine ⟨c, ds ++ (usedF ++ usedE), ?_, hdigit, ?_⟩
    · rw [← List.takeWhile_append_dropWhile (p := isDigit) (l := cs), hc, hcsF]
      simp
    · intro tail ht
      -- neither the fraction nor the exponent begins with what comes before it
      have hE : StopsFraction (usedE ++ tail) := by
        intro d more hd
        cases usedE with
        | nil =>
          obtain ⟨h1, h2, -⟩ := ht d more hd
          exact ⟨h1, h2⟩
        | cons e es =>
          cases hd
          rcases hheadE _ _ rfl with rfl | rfl <;> decide
      have hF : StopsWhole (usedF ++ (usedE ++ tail)) := by
        intro d more hd
        cases usedF with
        | nil => exact (hE d more hd).1
        | cons e es =>
          cases hd
          cases hheadF _ _ rfl
          rfl
      obtain ⟨h1, h2⟩ := takeWhile_takeWhile_append cs hF
      rw [hc, List.cons_append] at h1 h2
      rw [List.cons_append, List.append_assoc, List.append_assoc]
      refine unsigned_eq_some_iff.2 ⟨fraction, exponent, usedE ++ tail, ?_⟩
      rw [h1, h2, ← hc]
      exact ⟨hw, htF _ hE, htE _ ht, hj⟩

/-- What a value can begin with. -/
def Opens (c : Char) : Prop := isBlank c = false ∧ c ≠ ']' ∧ c ≠ '\x7d'

theorem opens_of_isDigit {c : Char} (h : isDigit c = true) : Opens c := by
  refine ⟨?_, ?_, ?_⟩
  · rw [Bool.eq_false_iff]
    intro hb
    simp only [isBlank, Bool.or_eq_true, decide_eq_true_eq] at hb
    rcases hb with ((rfl | rfl) | rfl) | rfl <;> cases h
  · rintro rfl
    cases h
  · rintro rfl
    cases h

theorem number_takes (h : number cs = some (j, rest)) :
    ∃ c more, cs = c :: more ++ rest ∧ Opens c ∧ Takes Stops number (c :: more) j := by
  by_cases hm : ∃ digits, cs = '-' :: digits
  · obtain ⟨digits, rfl⟩ := hm
    rw [number_minus] at h
    obtain ⟨c, more, rfl, hc, ht⟩ := unsigned_takes h
    exact ⟨'-', c :: more, rfl, by unfold Opens; decide, ht⟩
  · rw [number_of_ne (not_exists.1 hm)] at h
    obtain ⟨c, more, rfl, hc, ht⟩ := unsigned_takes h
    refine ⟨c, more, rfl, opens_of_isDigit hc, fun tail htail => ?_⟩
    rw [number_of_ne, ← ht tail htail]
    intro rest heq
    cases heq
    cases hc

/-! ## Strings and words -/

theorem pieces_escape {e c : Char} (he : escaped? e = some c) (cs : List Char) :
    pieces ('\\' :: e :: cs) = (pieces cs).map fun (ps, r) => (.char c :: ps, r) := by
  have hu : e ≠ 'u' := by
    rintro rfl
    cases he
  rw [pieces, he]
  rintro _ _ _ _ _ rfl
  exact absurd rfl hu

theorem pieces_char {c : Char} (hq : c ≠ '"')
    (hc : ¬(decide (c.toNat < 32) || decide (c = '\\')) = true) (cs : List Char) :
    pieces (c :: cs) = (pieces cs).map fun (ps, r) => (.char c :: ps, r) := by
  have hb : c ≠ '\\' := by
    rintro rfl
    exact hc rfl
  rw [pieces, if_neg hc]
  · exact hq
  · exact fun _ _ _ _ _ h => absurd h hb
  · exact fun _ _ h => absurd h hb

theorem pieces_takes {ps : List Piece} (h : pieces cs = some (ps, rest)) :
    ∃ used, cs = used ++ rest ∧ Takes (fun _ => True) pieces used ps := by
  fun_induction pieces cs generalizing ps with
  | case1 => cases h
  | case2 cs =>
    cases h
    exact ⟨['"'], rfl, fun tail _ => by simp [pieces]⟩
  | case3 a b c d cs n hn ih =>
    obtain ⟨⟨qs, r⟩, hq, heq⟩ := Option.map_eq_some_iff.1 h
    cases heq
    obtain ⟨used, rfl, ht⟩ := ih hq
    refine ⟨'\\' :: 'u' :: a :: b :: c :: d :: used, rfl, fun tail _ => ?_⟩
    simp [pieces, hn, ht tail trivial]
  | case4 => cases h
  | case5 e cs hne c he ih =>
    obtain ⟨⟨qs, r⟩, hq, heq⟩ := Option.map_eq_some_iff.1 h
    cases heq
    obtain ⟨used, rfl, ht⟩ := ih hq
    refine ⟨'\\' :: e :: used, rfl, fun tail _ => ?_⟩
    simp only [List.cons_append, pieces_escape he, ht tail trivial, Option.map_some]
  | case6 => cases h
  | case7 => cases h
  | case8 c cs hquote hu he hc ih =>
    obtain ⟨⟨qs, r⟩, hq, heq⟩ := Option.map_eq_some_iff.1 h
    cases heq
    obtain ⟨used, rfl, ht⟩ := ih hq
    refine ⟨c :: used, rfl, fun tail _ => ?_⟩
    simp only [List.cons_append, pieces_char hquote hc, ht tail trivial, Option.map_some]

theorem stringTail_takes {s : String} (h : stringTail cs = some (s, rest)) :
    ∃ used, cs = used ++ rest ∧ Takes (fun _ => True) stringTail used s := by
  obtain ⟨⟨ps, r⟩, hp, h⟩ := Option.bind_eq_some_iff.1 h
  obtain ⟨t, ht, h⟩ := Option.bind_eq_some_iff.1 h
  cases h
  obtain ⟨used, rfl, hused⟩ := pieces_takes hp
  refine ⟨used, rfl, fun tail htail => ?_⟩
  exact Option.bind_eq_some_iff.2 ⟨_, hused tail htail, Option.bind_eq_some_iff.2 ⟨t, ht, rfl⟩⟩

theorem eq_of_word {w : List Char} {result : Json} (h : word w result cs = some (j, rest)) :
    j = result := by
  unfold word at h
  split at h
  · cases h
    rfl
  · cases h

theorem word_takes {w : List Char} {result : Json} (h : word w result cs = some (j, rest)) :
    cs = w ++ rest ∧ Takes (fun _ => True) (word w result) w j := by
  unfold word at h
  split at h
  · rename_i hw
    cases h
    refine ⟨(List.prefix_iff_eq_append.1 (List.isPrefixOf_iff_prefix.1 hw)).symm, fun tail _ => ?_⟩
    unfold word
    rw [if_pos (List.isPrefixOf_iff_prefix.2 (List.prefix_append w tail)), List.drop_left]
  · cases h

/-! ## Blanks -/

theorem skipBlank_cons {c : Char} (h : isBlank c = false) (cs : List Char) :
    skipBlank (c :: cs) = c :: cs := List.dropWhile_cons_of_neg (by simp [h])

theorem skipBlank_append {blanks : List Char} (h : ∀ b ∈ blanks, isBlank b = true) (cs : List Char) :
    skipBlank (blanks ++ cs) = skipBlank cs := List.dropWhile_append_of_pos h

/-- A text is its blanks and what is behind them. -/
theorem exists_blanks (cs : List Char) :
    ∃ blanks, cs = blanks ++ skipBlank cs ∧ ∀ b ∈ blanks, isBlank b = true :=
  ⟨cs.takeWhile isBlank, List.takeWhile_append_dropWhile.symm,
    fun b hb => List.all_eq_true.1 List.all_takeWhile b hb⟩

theorem stops_of_blanks {blanks : List Char} {c : Char} (hb : ∀ b ∈ blanks, isBlank b = true)
    (hc : c ∈ [',', ']', '\x7d']) (cs : List Char) : Stops (blanks ++ c :: cs) := by
  intro d more hd
  have hd : isBlank d = true ∨ d ∈ [',', ']', '\x7d'] := by
    cases blanks with
    | nil =>
      cases hd
      exact .inr hc
    | cons b bs =>
      cases hd
      exact .inl (hb _ List.mem_cons_self)
  simp only [isBlank, Bool.or_eq_true, decide_eq_true_eq, List.mem_cons, List.not_mem_nil,
    or_false] at hd
  rcases hd with (((rfl | rfl) | rfl) | rfl) | rfl | rfl | rfl <;> decide

/-! ## Values -/

theorem value_blanks {blanks : List Char} (h : ∀ b ∈ blanks, isBlank b = true) (fuel depth : Nat)
    (cs : List Char) : value fuel depth (blanks ++ cs) = value fuel depth cs := by
  cases fuel with
  | zero => rfl
  | succ fuel => rw [value, value, skipBlank_append h]

theorem value_skipBlank (fuel depth : Nat) (cs : List Char) :
    value fuel depth (skipBlank cs) = value fuel depth cs := by
  obtain ⟨blanks, hcs, hb⟩ := exists_blanks cs
  conv_rhs => rw [hcs, value_blanks hb]

theorem itemList_blanks {blanks : List Char} (h : ∀ b ∈ blanks, isBlank b = true) (fuel depth : Nat)
    (cs : List Char) : itemList fuel depth (blanks ++ cs) = itemList fuel depth cs := by
  cases fuel with
  | zero => rfl
  | succ fuel => rw [itemList, itemList, value_blanks h]

theorem memberList_blanks {blanks : List Char} (h : ∀ b ∈ blanks, isBlank b = true)
    (fuel depth : Nat) (cs : List Char) :
    memberList fuel depth (blanks ++ cs) = memberList fuel depth cs := by
  cases fuel with
  | zero => rfl
  | succ fuel => rw [memberList, memberList, skipBlank_append h]

/-- `Spells depth used j`: a text begins with the value `j`, whatever is behind it. -/
def Spells (depth : Nat) (used : List Char) (j : Json) : Prop :=
  ∀ fuel depth', 2 * used.length ≤ fuel → depth ≤ depth' → Takes Stops (value fuel depth') used j

def SpellsItems (depth : Nat) (used : List Char) (js : List Json) : Prop :=
  ∀ fuel depth', 2 * used.length < fuel → depth ≤ depth' →
    Takes (fun _ => True) (itemList fuel depth') used js

def SpellsMembers (depth : Nat) (used : List Char) (ms : List (String × Json)) : Prop :=
  ∀ fuel depth', 2 * used.length < fuel → depth ≤ depth' →
    Takes (fun _ => True) (memberList fuel depth') used ms

/-- `Begins P cs rest`: behind its blanks a text has one that `P` holds of, and then `rest`. -/
def Begins (P : List Char → Prop) (cs rest : List Char) : Prop :=
  ∃ c more, skipBlank cs = c :: more ++ rest ∧ Opens c ∧ P (c :: more)

theorem value_bracket {c : Char} {more : List Char} (hs : skipBlank cs = c :: more) (hc : c ≠ ']')
    (fuel depth : Nat) : value (fuel + 1) (depth + 1) ('[' :: cs) =
      (itemList fuel depth cs).map fun (js, r) => (array js, r) := by
  rw [value, skipBlank_cons (by decide)]
  simp only [hs]
  split
  · rename_i hd
    cases hd
  · rename_i hd hm
    cases hm
    exact absurd rfl hc
  · rename_i hd _
    cases hd
    rfl

theorem value_brace {c : Char} {more : List Char} (hs : skipBlank cs = c :: more) (hc : c ≠ '\x7d')
    (fuel depth : Nat) : value (fuel + 1) (depth + 1) ('\x7b' :: cs) =
      (memberList fuel depth cs).map fun (ms, r) => (ofTable (.ofList ms), r) := by
  rw [value, skipBlank_cons (by decide)]
  simp only [hs]
  split
  · rename_i hd
    cases hd
  · rename_i hd hm
    cases hm
    exact absurd rfl hc
  · rename_i hd _
    cases hd
    rfl

/-- Where a list of items was read, a value was. -/
theorem spells_array {c : Char} {more : List Char} {js : List Json} (hc : Opens c)
    (h : SpellsItems depth (c :: more) js) {blanks : List Char} (hb : ∀ b ∈ blanks, isBlank b = true) :
    Spells (depth + 1) ('[' :: (blanks ++ c :: more)) (array js) := by
  intro fuel depth' hfuel hdepth tail _
  obtain ⟨k, rfl⟩ : ∃ k, fuel = k + 1 := ⟨fuel - 1, by simp at hfuel; omega⟩
  obtain ⟨d, rfl⟩ : ∃ d, depth' = d + 1 := ⟨depth' - 1, by omega⟩
  have hskip : skipBlank (blanks ++ (c :: more ++ tail)) = c :: (more ++ tail) := by
    rw [skipBlank_append hb, List.cons_append, skipBlank_cons hc.1]
  have hitems := h k d (by simp at hfuel ⊢; omega) (by omega) tail trivial
  rw [List.cons_append, List.append_assoc, value_bracket hskip hc.2.1, itemList_blanks hb, hitems]
  rfl

theorem spells_object {c : Char} {more : List Char} {ms : List (String × Json)} (hc : Opens c)
    (h : SpellsMembers depth (c :: more) ms) {blanks : List Char}
    (hb : ∀ b ∈ blanks, isBlank b = true) :
    Spells (depth + 1) ('\x7b' :: (blanks ++ c :: more)) (ofTable (.ofList ms)) := by
  intro fuel depth' hfuel hdepth tail _
  obtain ⟨k, rfl⟩ : ∃ k, fuel = k + 1 := ⟨fuel - 1, by simp at hfuel; omega⟩
  obtain ⟨d, rfl⟩ : ∃ d, depth' = d + 1 := ⟨depth' - 1, by omega⟩
  have hskip : skipBlank (blanks ++ (c :: more ++ tail)) = c :: (more ++ tail) := by
    rw [skipBlank_append hb, List.cons_append, skipBlank_cons hc.1]
  have hmembers := h k d (by simp at hfuel ⊢; omega) (by omega) tail trivial
  rw [List.cons_append, List.append_assoc, value_brace hskip hc.2.2, memberList_blanks hb, hmembers]
  rfl

/-- A literal, a string or a number needs no step but its own. -/
theorem spells_of_takes {c : Char} {more : List Char}
    (h : ∀ fuel depth tail, Stops tail →
      value (fuel + 1) depth (c :: more ++ tail) = some (j, tail)) : Spells depth (c :: more) j := by
  intro fuel depth' hfuel _ tail ht
  obtain ⟨k, rfl⟩ : ∃ k, fuel = k + 1 := ⟨fuel - 1, by simp at hfuel; omega⟩
  exact h k depth' tail ht

theorem spells_word (depth : Nat) (c : Char) {w : List Char} {result : Json}
    (hv : ∀ fuel depth cs, value (fuel + 1) depth (c :: cs) = word w result cs)
    (h : word w result cs = some (j, rest)) :
    c :: cs = c :: w ++ rest ∧ Spells depth (c :: w) j := by
  obtain ⟨rfl, ht⟩ := word_takes h
  exact ⟨rfl, spells_of_takes fun fuel depth tail _ => (hv ..).trans (ht tail trivial)⟩

theorem value_number {c : Char} (hb : isBlank c = false)
    (hc : c ∉ ['n', 't', 'f', '"', '[', '\x7b']) (fuel depth : Nat) (cs : List Char) :
    value (fuel + 1) depth (c :: cs) = number (c :: cs) := by
  rw [value, skipBlank_cons hb]
  split
  case h_7 => rfl
  all_goals
    rename_i heq
    cases heq
    exact absurd (by simp) hc

theorem value_nil_array (fuel depth : Nat) {blanks : List Char}
    (hb : ∀ b ∈ blanks, isBlank b = true) (cs : List Char) :
    value (fuel + 1) (depth + 1) ('[' :: (blanks ++ ']' :: cs)) = some (array [], cs) := by
  rw [value, skipBlank_cons (by decide)]
  simp only [skipBlank_append hb, skipBlank_cons (show isBlank ']' = false by decide)]

theorem value_nil_object (fuel depth : Nat) {blanks : List Char}
    (hb : ∀ b ∈ blanks, isBlank b = true) (cs : List Char) :
    value (fuel + 1) (depth + 1) ('\x7b' :: (blanks ++ '\x7d' :: cs)) = some (object [], cs) := by
  rw [value, skipBlank_cons (by decide)]
  simp only [skipBlank_append hb, skipBlank_cons (show isBlank '\x7d' = false by decide)]

/-- A container without items needs a level for itself only. -/
theorem spells_nil {c : Char} {more : List Char}
    (h : ∀ fuel depth tail, value (fuel + 1) (depth + 1) (c :: more ++ tail) = some (j, tail)) :
    Spells (depth + 1) (c :: more) j := by
  intro fuel depth' hfuel hdepth tail _
  obtain ⟨k, rfl⟩ : ∃ k, fuel = k + 1 := ⟨fuel - 1, by simp at hfuel; omega⟩
  obtain ⟨d, rfl⟩ : ∃ d, depth' = d + 1 := ⟨depth' - 1, by omega⟩
  exact h k d tail

theorem spells_of_bracket
    (hi : ∀ {depth cs js rest}, itemList fuel depth cs = some (js, rest) →
      Begins (SpellsItems depth · js) cs rest)
    (h : value (fuel + 1) depth ('[' :: cs) = some (j, rest)) :
    ∃ more, cs = more ++ rest ∧ Spells depth ('[' :: more) j := by
  obtain ⟨blanks, hsplit, hblanks⟩ := exists_blanks cs
  rw [value, skipBlank_cons (by decide)] at h
  simp only at h
  split at h
  · cases h
  · rename_i hb
    cases h
    rw [hb] at hsplit
    refine ⟨blanks ++ [']'], by rw [hsplit]; simp, spells_nil fun fuel depth tail => ?_⟩
    rw [List.cons_append, List.append_assoc]
    exact value_nil_array fuel depth hblanks tail
  · obtain ⟨⟨js, r⟩, hjs, hj⟩ := Option.map_eq_some_iff.1 h
    cases hj
    obtain ⟨c, more, hcs, hc, hspells⟩ := hi hjs
    refine ⟨blanks ++ c :: more, ?_, spells_array hc hspells hblanks⟩
    rw [hsplit, hcs, List.append_assoc]

theorem spells_of_brace
    (hm : ∀ {depth cs ms rest}, memberList fuel depth cs = some (ms, rest) →
      Begins (SpellsMembers depth · ms) cs rest)
    (h : value (fuel + 1) depth ('\x7b' :: cs) = some (j, rest)) :
    ∃ more, cs = more ++ rest ∧ Spells depth ('\x7b' :: more) j := by
  obtain ⟨blanks, hsplit, hblanks⟩ := exists_blanks cs
  rw [value, skipBlank_cons (by decide)] at h
  simp only at h
  split at h
  · cases h
  · rename_i hb
    cases h
    rw [hb] at hsplit
    refine ⟨blanks ++ ['\x7d'], by rw [hsplit]; simp, spells_nil fun fuel depth tail => ?_⟩
    rw [List.cons_append, List.append_assoc]
    exact value_nil_object fuel depth hblanks tail
  · obtain ⟨⟨ms, r⟩, hms, hj⟩ := Option.map_eq_some_iff.1 h
    cases hj
    obtain ⟨c, more, hcs, hc, hspells⟩ := hm hms
    refine ⟨blanks ++ c :: more, ?_, spells_object hc hspells hblanks⟩
    rw [hsplit, hcs, List.append_assoc]

theorem spells_of_value_succ
    (hi : ∀ {depth cs js rest}, itemList fuel depth cs = some (js, rest) →
      Begins (SpellsItems depth · js) cs rest)
    (hm : ∀ {depth cs ms rest}, memberList fuel depth cs = some (ms, rest) →
      Begins (SpellsMembers depth · ms) cs rest)
    (h : value (fuel + 1) depth cs = some (j, rest)) :
    Begins (Spells depth · j) cs rest := by
  have hopens : ∀ c ∈ ['n', 't', 'f', '"', '[', '\x7b'], Opens c := by
    simp [Opens, isBlank]
  have hread := h
  rw [value] at h
  split at h
  · rename_i cs heq
    obtain ⟨hcs, hspells⟩ := spells_word depth 'n'
      (fun f d cs => by rw [value, skipBlank_cons (by decide)]; rfl) h
    exact ⟨_, _, heq.trans hcs, hopens _ (by simp), hspells⟩
  · rename_i cs heq
    obtain ⟨hcs, hspells⟩ := spells_word depth 't'
      (fun f d cs => by rw [value, skipBlank_cons (by decide)]; rfl) h
    exact ⟨_, _, heq.trans hcs, hopens _ (by simp), hspells⟩
  · rename_i cs heq
    obtain ⟨hcs, hspells⟩ := spells_word depth 'f'
      (fun f d cs => by rw [value, skipBlank_cons (by decide)]; rfl) h
    exact ⟨_, _, heq.trans hcs, hopens _ (by simp), hspells⟩
  · rename_i cs heq
    obtain ⟨⟨s, r⟩, hs, hj⟩ := Option.map_eq_some_iff.1 h
    cases hj
    obtain ⟨used, rfl, ht⟩ := stringTail_takes hs
    refine ⟨'"', used, heq, hopens _ (by simp), spells_of_takes fun fuel depth tail _ => ?_⟩
    rw [List.cons_append, value, skipBlank_cons (by decide)]
    simp only [ht tail trivial, Option.map_some]
  · rename_i cs heq
    rw [← value_skipBlank, heq] at hread
    obtain ⟨more, rfl, hspells⟩ := spells_of_bracket hi hread
    exact ⟨_, _, heq, hopens _ (by simp), hspells⟩
  · rename_i cs heq
    rw [← value_skipBlank, heq] at hread
    obtain ⟨more, rfl, hspells⟩ := spells_of_brace hm hread
    exact ⟨_, _, heq, hopens _ (by simp), hspells⟩
  · rename_i hn ht hf hs ha ho
    obtain ⟨c, more, hcs, hc, htakes⟩ := number_takes h
    refine ⟨c, more, hcs, hc, spells_of_takes fun fuel depth tail htail => ?_⟩
    have hother : c ∉ ['n', 't', 'f', '"', '[', '\x7b'] := by
      simp only [List.mem_cons, List.not_mem_nil, or_false]
      rintro (rfl | rfl | rfl | rfl | rfl | rfl)
      exacts [hn _ hcs, ht _ hcs, hf _ hcs, hs _ hcs, ha _ hcs, ho _ hcs]
    rw [List.cons_append, value_number hc.1 hother]
    exact htakes tail htail

/-! ## Items and members -/

theorem spellsItems_one {blanks : List Char} (hb : ∀ b ∈ blanks, isBlank b = true)
    (hj : Spells depth used j) : SpellsItems depth (used ++ (blanks ++ [']'])) [j] := by
  intro fuel depth' hfuel hdepth tail _
  obtain ⟨k, rfl⟩ : ∃ k, fuel = k + 1 := ⟨fuel - 1, by omega⟩
  simp only [List.length_append] at hfuel
  have hfirst := hj k depth' (by omega) hdepth (blanks ++ ']' :: tail)
    (stops_of_blanks hb (by simp) _)
  simp only [List.append_assoc, List.singleton_append]
  rw [itemList, hfirst]
  simp only [Option.bind_eq_bind, Option.bind_some, skipBlank_append hb,
    skipBlank_cons (show isBlank ']' = false by decide)]
  rfl

theorem spellsItems_cons {blanks gap more : List Char} {js : List Json}
    (hb : ∀ b ∈ blanks, isBlank b = true) (hg : ∀ b ∈ gap, isBlank b = true)
    (hj : Spells depth used j) (hjs : SpellsItems depth more js) :
    SpellsItems depth (used ++ (blanks ++ ',' :: (gap ++ more))) (j :: js) := by
  intro fuel depth' hfuel hdepth tail _
  obtain ⟨k, rfl⟩ : ∃ k, fuel = k + 1 := ⟨fuel - 1, by omega⟩
  simp only [List.length_append, List.length_cons] at hfuel
  have hfirst := hj k depth' (by omega) hdepth (blanks ++ ',' :: (gap ++ (more ++ tail)))
    (stops_of_blanks hb (by simp) _)
  have hrest := hjs k depth' (by omega) hdepth tail trivial
  simp only [List.append_assoc, List.cons_append]
  rw [itemList, hfirst]
  simp only [Option.bind_eq_bind, Option.bind_some, skipBlank_append hb,
    skipBlank_cons (show isBlank ',' = false by decide), itemList_blanks hg, hrest]
  rfl

/-- The text of a name, with its colon. -/
def SpellsName (used : List Char) (name : String) : Prop :=
  ∃ inner blanks gap, used = '"' :: (inner ++ (blanks ++ ':' :: gap)) ∧
    Takes (fun _ => True) stringTail inner name ∧ (∀ b ∈ blanks, isBlank b = true) ∧
    ∀ b ∈ gap, isBlank b = true

theorem spellsMembers_one {label blanks : List Char} {name : String} (hn : SpellsName label name)
    (hb : ∀ b ∈ blanks, isBlank b = true) (hj : Spells depth used j) :
    SpellsMembers depth (label ++ (used ++ (blanks ++ ['\x7d']))) [(name, j)] := by
  obtain ⟨inner, before, gap, rfl, ht, hbefore, hgap⟩ := hn
  intro fuel depth' hfuel hdepth tail _
  obtain ⟨k, rfl⟩ : ∃ k, fuel = k + 1 := ⟨fuel - 1, by omega⟩
  simp only [List.length_append, List.length_cons] at hfuel
  have hfirst := hj k depth' (by omega) hdepth (blanks ++ '\x7d' :: tail)
    (stops_of_blanks hb (by simp) _)
  simp only [List.append_assoc, List.cons_append, List.nil_append]
  rw [memberList, skipBlank_cons (by decide)]
  simp only [ht _ trivial, Option.bind_eq_bind, Option.bind_some, skipBlank_append hbefore,
    skipBlank_cons (show isBlank ':' = false by decide), value_blanks hgap, hfirst,
    skipBlank_append hb, skipBlank_cons (show isBlank '\x7d' = false by decide)]
  rfl

theorem spellsMembers_cons {label blanks gap more : List Char} {name : String}
    {ms : List (String × Json)} (hn : SpellsName label name) (hb : ∀ b ∈ blanks, isBlank b = true)
    (hg : ∀ b ∈ gap, isBlank b = true) (hj : Spells depth used j)
    (hms : SpellsMembers depth more ms) :
    SpellsMembers depth (label ++ (used ++ (blanks ++ ',' :: (gap ++ more)))) ((name, j) :: ms) := by
  obtain ⟨inner, before, space, rfl, ht, hbefore, hspace⟩ := hn
  intro fuel depth' hfuel hdepth tail _
  obtain ⟨k, rfl⟩ : ∃ k, fuel = k + 1 := ⟨fuel - 1, by omega⟩
  simp only [List.length_append, List.length_cons] at hfuel
  have hfirst := hj k depth' (by omega) hdepth (blanks ++ ',' :: (gap ++ (more ++ tail)))
    (stops_of_blanks hb (by simp) _)
  have hrest := hms k depth' (by omega) hdepth tail trivial
  simp only [List.append_assoc, List.cons_append]
  rw [memberList, skipBlank_cons (by decide)]
  simp only [ht _ trivial, Option.bind_eq_bind, Option.bind_some, skipBlank_append hbefore,
    skipBlank_cons (show isBlank ':' = false by decide), value_blanks hspace, hfirst,
    skipBlank_append hb, skipBlank_cons (show isBlank ',' = false by decide),
    memberList_blanks hg, hrest]
  rfl

theorem spells_of_itemList_succ
    (hv : ∀ {depth cs j rest}, value fuel depth cs = some (j, rest) →
      Begins (Spells depth · j) cs rest)
    (hi : ∀ {depth cs js rest}, itemList fuel depth cs = some (js, rest) →
      Begins (SpellsItems depth · js) cs rest)
    {js : List Json} (h : itemList (fuel + 1) depth cs = some (js, rest)) :
    Begins (SpellsItems depth · js) cs rest := by
  rw [itemList] at h
  obtain ⟨⟨j, behind⟩, hj, h⟩ := Option.bind_eq_some_iff.1 h
  obtain ⟨c, more, hcs, hc, hspells⟩ := hv hj
  obtain ⟨blanks, hsplit, hblanks⟩ := exists_blanks behind
  simp only at h
  split at h
  · rename_i cs' heq
    obtain ⟨⟨js', r⟩, hjs, h⟩ := Option.bind_eq_some_iff.1 h
    cases h
    obtain ⟨d, others, hcs', hd, hitems⟩ := hi hjs
    obtain ⟨gap, hgap, hgaps⟩ := exists_blanks cs'
    refine ⟨c, more ++ (blanks ++ ',' :: (gap ++ d :: others)), ?_, hc,
      spellsItems_cons hblanks hgaps hspells hitems⟩
    rw [hcs, hsplit, heq, hgap, hcs']
    simp
  · rename_i cs' heq
    cases h
    refine ⟨c, more ++ (blanks ++ [']']), ?_, hc, spellsItems_one hblanks hspells⟩
    rw [hcs, hsplit, heq]
    simp
  · cases h

theorem spells_of_memberList_succ
    (hv : ∀ {depth cs j rest}, value fuel depth cs = some (j, rest) →
      Begins (Spells depth · j) cs rest)
    (hm : ∀ {depth cs ms rest}, memberList fuel depth cs = some (ms, rest) →
      Begins (SpellsMembers depth · ms) cs rest)
    {ms : List (String × Json)} (h : memberList (fuel + 1) depth cs = some (ms, rest)) :
    Begins (SpellsMembers depth · ms) cs rest := by
  have hquote : Opens '"' := by
    unfold Opens
    decide
  rw [memberList] at h
  split at h
  · rename_i cs' hstart
    obtain ⟨⟨name, behind⟩, hn, h⟩ := Option.bind_eq_some_iff.1 h
    obtain ⟨inner, hinner, ht⟩ := stringTail_takes hn
    obtain ⟨before, hbefore, hbefores⟩ := exists_blanks behind
    simp only at h
    split at h
    · rename_i after hcolon
      obtain ⟨⟨j, behind'⟩, hj, h⟩ := Option.bind_eq_some_iff.1 h
      obtain ⟨c, more, hcs, hc, hspells⟩ := hv hj
      obtain ⟨space, hspace, hspaces⟩ := exists_blanks after
      obtain ⟨blanks, hsplit, hblanks⟩ := exists_blanks behind'
      have hname : SpellsName ('"' :: (inner ++ (before ++ ':' :: space))) name :=
        ⟨inner, before, space, rfl, ht, hbefores, hspaces⟩
      simp only at h
      split at h
      · rename_i cs'' heq
        obtain ⟨⟨ms', r⟩, hms, h⟩ := Option.bind_eq_some_iff.1 h
        cases h
        obtain ⟨d, others, hcs', hd, hmembers⟩ := hm hms
        obtain ⟨gap, hgap, hgaps⟩ := exists_blanks cs''
        refine ⟨'"', _, ?_, hquote, spellsMembers_cons hname hblanks hgaps hspells hmembers⟩
        rw [hstart, hinner, hbefore, hcolon, hspace, hcs, hsplit, heq, hgap, hcs']
        simp
      · rename_i cs'' heq
        cases h
        refine ⟨'"', _, ?_, hquote, spellsMembers_one hname hblanks hspells⟩
        rw [hstart, hinner, hbefore, hcolon, hspace, hcs, hsplit, heq]
        simp
      · cases h
    · cases h
  · cases h

theorem spells_of_readers (fuel : Nat) :
    (∀ {depth cs j rest}, value fuel depth cs = some (j, rest) →
      Begins (Spells depth · j) cs rest) ∧
    (∀ {depth cs js rest}, itemList fuel depth cs = some (js, rest) →
      Begins (SpellsItems depth · js) cs rest) ∧
    ∀ {depth cs ms rest}, memberList fuel depth cs = some (ms, rest) →
      Begins (SpellsMembers depth · ms) cs rest := by
  induction fuel with
  | zero => exact ⟨nofun, nofun, nofun⟩
  | succ fuel ih =>
    obtain ⟨hv, hi, hm⟩ := ih
    exact ⟨spells_of_value_succ hi hm, spells_of_itemList_succ hv hi, spells_of_memberList_succ hv hm⟩

/-- A value that was read has a text of its own, which is no deeper. -/
theorem exists_parse?_of_value {depth' : Nat} (h : value fuel depth cs = some (j, rest))
    (hd : depth ≤ depth') : ∃ text, parse? depth' text = some j := by
  obtain ⟨c, more, -, -, hspells⟩ := (spells_of_readers fuel).1 h
  refine ⟨String.ofList (c :: more), ?_⟩
  have hv := hspells (2 * (c :: more).length + 1) depth' (Nat.le_succ _) hd [] nofun
  rw [List.append_nil] at hv
  simp only [parse?, String.toList_ofList, hv]
  rfl

/-! ## Parts of values -/

theorem exists_value_of_itemList {js : List Json} (h : itemList fuel depth cs = some (js, rest)) :
    ∀ k ∈ js, ∃ fuel cs rest, value fuel depth cs = some (k, rest) := by
  induction fuel generalizing cs js rest with
  | zero => cases h
  | succ fuel ih =>
    rw [itemList] at h
    obtain ⟨⟨j, behind⟩, hj, h⟩ := Option.bind_eq_some_iff.1 h
    simp only at h
    split at h
    · obtain ⟨⟨js', r⟩, hjs, h⟩ := Option.bind_eq_some_iff.1 h
      cases h
      exact List.forall_mem_cons.2 ⟨⟨_, _, _, hj⟩, ih hjs⟩
    · cases h
      exact List.forall_mem_singleton.2 ⟨_, _, _, hj⟩
    · cases h

theorem exists_value_of_memberList {ms : List (String × Json)}
    (h : memberList fuel depth cs = some (ms, rest)) :
    ∀ m ∈ ms, ∃ fuel cs rest, value fuel depth cs = some (m.2, rest) := by
  induction fuel generalizing cs ms rest with
  | zero => cases h
  | succ fuel ih =>
    rw [memberList] at h
    split at h
    · obtain ⟨⟨name, behind⟩, -, h⟩ := Option.bind_eq_some_iff.1 h
      simp only at h
      split at h
      · obtain ⟨⟨j, behind'⟩, hj, h⟩ := Option.bind_eq_some_iff.1 h
        simp only at h
        split at h
        · obtain ⟨⟨ms', r⟩, hms, h⟩ := Option.bind_eq_some_iff.1 h
          cases h
          exact List.forall_mem_cons.2 ⟨⟨_, _, _, hj⟩, ih hms⟩
        · cases h
          exact List.forall_mem_singleton.2 ⟨_, _, _, hj⟩
        · cases h
      · cases h
    · cases h

/-- The parts of a container: its items, or the values of its members. -/
inductive Part (k : Json) : Json → Prop
  | item {items : List Json} : k ∈ items → Part k (.array items)
  | member {name : String} {ms : List (String × Json)} : (name, k) ∈ ms → Part k (.object ms)

theorem not_part_number {k : Json} (h : number cs = some (j, rest)) : ¬Part k j := by
  have hn := forall_number (P := fun j => ¬Part k j) (fun _ _ => nofun) (fun _ _ => nofun) cs
  exact hn _ h

/-- A part of a value that was read was read itself, one level further in. -/
theorem exists_value_of_part {k : Json} (hk : Part k j) (h : value fuel depth cs = some (j, rest)) :
    ∃ fuel depth' cs rest, depth' ≤ depth ∧ value fuel depth' cs = some (k, rest) := by
  cases fuel with
  | zero => cases h
  | succ fuel =>
    rw [value] at h
    split at h
    · cases eq_of_word h
      cases hk
    · cases eq_of_word h
      cases hk
    · cases eq_of_word h
      cases hk
    · obtain ⟨⟨s, r⟩, -, hj⟩ := Option.map_eq_some_iff.1 h
      cases hj
      cases hk
    · split at h
      · cases h
      · cases h
        cases hk with
        | item hk => cases hk
      · obtain ⟨⟨js, r⟩, hjs, hj⟩ := Option.map_eq_some_iff.1 h
        cases hj
        cases hk with
        | item hk =>
          obtain ⟨fuel, cs, rest, hv⟩ := exists_value_of_itemList hjs k hk
          exact ⟨fuel, _, cs, rest, Nat.le_succ _, hv⟩
    · split at h
      · cases h
      · cases h
        cases hk with
        | member hk => cases hk
      · obtain ⟨⟨ms, r⟩, hms, hj⟩ := Option.map_eq_some_iff.1 h
        cases hj
        cases hk with
        | member hk =>
          obtain ⟨fuel, cs, rest, hv⟩ := exists_value_of_memberList hms _ (mem_ofList hk)
          exact ⟨fuel, _, cs, rest, Nat.le_succ _, hv⟩
    · exact absurd hk (not_part_number h)

theorem part_of_member {name : String} {k : Json} (h : j.member? name = some k) : Part k j := by
  cases j with
  | object ms =>
    obtain ⟨⟨n, k⟩, hmem, rfl⟩ := mem_of_get? h
    exact .member hmem
  | _ => cases h

/-- `Parts k j`: the value `k` is `j`, or stands in it at any depth. -/
inductive Parts (k : Json) : Json → Prop
  | self : Parts k k
  | part {i j : Json} : Part i j → Parts k i → Parts k j

theorem exists_value_of_parts {k : Json} (hk : Parts k j) (h : value fuel depth cs = some (j, rest)) :
    ∃ fuel depth' cs rest, depth' ≤ depth ∧ value fuel depth' cs = some (k, rest) := by
  induction hk generalizing fuel depth cs rest with
  | self => exact ⟨fuel, depth, cs, rest, Nat.le_refl _, h⟩
  | part hi _ ih =>
    obtain ⟨fuel, depth', cs, rest, hle, h⟩ := exists_value_of_part hi h
    obtain ⟨fuel, depth'', cs, rest, hle', h⟩ := ih h
    exact ⟨fuel, depth'', cs, rest, Nat.le_trans hle' hle, h⟩

/-- **Every value in a text has a text of its own.** -/
theorem exists_parse?_of_parts {text : String} {k : Json} (h : parse? depth text = some j)
    (hk : Parts k j) : ∃ alone, parse? depth alone = some k := by
  simp only [parse?] at h
  split at h
  · rename_i i rest hv
    split at h
    · cases h
      obtain ⟨fuel, depth', cs, rest, hle, hv⟩ := exists_value_of_parts hk hv
      exact exists_parse?_of_value hv hle
    · cases h
  · cases h

end Json

end RecordFilter
