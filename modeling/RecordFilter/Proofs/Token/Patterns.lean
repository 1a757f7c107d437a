import RecordFilter.Proofs.Token.Spelling
import Mathlib.Data.List.TakeWhile

/-!
# Patterns of lexemes

The lexical grammar once more, said without a scanner: for each rule the texts that it takes, as a
pattern, and how the text is read.  A rule splits the longest text of its pattern off the front of
what it is given, so the rule that is tried first and matches is the first pattern of the table that
has a text there.

    r.split cs = some l ↔ p.Longest cs l                  for each rule r and its pattern p
    firstRule? cs = some (r, l) → FirstMatch cs l r.read table            (firstMatch_of_firstRule?)
    FirstMatch cs l read table → firstRule? cs = some (r, l)              (firstRule?_of_firstMatch)

Patterns whose lexemes begin with other characters do not compete (Begins.not_begins).
-/

namespace RecordFilter

/-- The body of a string: no quote stands alone in it. -/
inductive QuotedBody : List Char → Prop
  | nil : QuotedBody []
  | char {c : Char} {cs : List Char} : c ≠ '\x27' → QuotedBody cs → QuotedBody (c :: cs)
  | quotes {cs : List Char} : QuotedBody cs → QuotedBody ('\x27' :: '\x27' :: cs)

/-- A class of lexemes. -/
inductive Pattern
  /-- one allowed character or more between two brackets -/
  | bracketed (opening closing : Char) (allowed : Char → Bool)
  /-- anything between single quotes, quotes in it written twice -/
  | quoted
  /-- an optional minus, digits, a point and one digit or more -/
  | fractional
  /-- an optional minus and one digit or more -/
  | integral
  /-- one of some words, in any letter case, where a word can end -/
  | word (words : List String)
  /-- one of some spellings -/
  | symbol (spellings : List String)

namespace Pattern

/-- Whether a lexeme belongs to the pattern; only a word looks at the text behind it. -/
def Matches : Pattern → Lexeme → Prop
  | bracketed opening closing allowed, l =>
    l.whole = opening :: l.inner ++ [closing] ∧ l.inner ≠ [] ∧ ∀ c ∈ l.inner, allowed c = true
  | quoted, l => l.whole = '\x27' :: l.inner ++ ['\x27'] ∧ QuotedBody l.inner
  | fractional, l =>
    l.inner = l.whole ∧ ∃ sign whole fraction, l.whole = sign ++ (whole ++ '.' :: fraction) ∧
      (sign = [] ∨ sign = ['-']) ∧ (∀ c ∈ whole, isDigit c = true) ∧ fraction ≠ [] ∧
      ∀ c ∈ fraction, isDigit c = true
  | integral, l =>
    l.inner = l.whole ∧ ∃ sign ds, l.whole = sign ++ ds ∧ (sign = [] ∨ sign = ['-']) ∧ ds ≠ [] ∧
      ∀ c ∈ ds, isDigit c = true
  | word words, l =>
    l.inner = l.whole ∧ l.whole ≠ [] ∧ (∃ w ∈ words, l.whole.map foldChar = w.toList) ∧
      ∀ c cs, l.rest = c :: cs → isWordChar c = false
  | symbol spellings, l =>
    l.inner = l.whole ∧ l.whole ≠ [] ∧ ∃ s ∈ spellings, l.whole = s.toList

/-- `p.Begins cs l`: the text `cs` begins with the lexeme `l` of the pattern. -/
def Begins (p : Pattern) (cs : List Char) (l : Lexeme) : Prop :=
  p.Matches l ∧ l.whole ++ l.rest = cs

/-- No lexeme of the pattern that the text begins with is longer. -/
def Longest (p : Pattern) (cs : List Char) (l : Lexeme) : Prop :=
  p.Begins cs l ∧ ∀ l', p.Begins cs l' → l'.whole.length ≤ l.whole.length

/-- The part of a lexeme that is read is determined by all of it. -/
theorem inner_eq {p : Pattern} {l l' : Lexeme} (h : p.Matches l) (h' : p.Matches l')
    (hw : l.whole = l'.whole) : l.inner = l'.inner := by
  cases p with
  | bracketed opening closing allowed =>
    have hb := h.1.symm.trans (hw.trans h'.1)
    exact List.append_cancel_right (List.cons_eq_cons.1 hb).2
  | quoted =>
    have hb := h.1.symm.trans (hw.trans h'.1)
    exact List.append_cancel_right (List.cons_eq_cons.1 hb).2
  | fractional | integral | word | symbol => exact h.1.trans (hw.trans h'.1.symm)

/-- The longest lexeme is the only one of its length. -/
theorem Longest.unique {p : Pattern} {cs : List Char} {l l' : Lexeme} (h : p.Longest cs l)
    (h' : p.Longest cs l') : l = l' := by
  obtain ⟨⟨hm, hb⟩, hmax⟩ := h
  obtain ⟨⟨hm', hb'⟩, hmax'⟩ := h'
  have hlen := Nat.le_antisymm (hmax' l ⟨hm, hb⟩) (hmax l' ⟨hm', hb'⟩)
  obtain ⟨hw, hr⟩ := List.append_inj (hb.trans hb'.symm) hlen
  have hi := inner_eq hm hm' hw
  cases l
  cases l'
  simp_all

/-- A scanner for a pattern: what it splits off is in the pattern, and it finds a lexeme as long as
any that is there. -/
structure Scans (p : Pattern) (split : List Char → Option Lexeme) : Prop where
  begins : ∀ {cs l}, split cs = some l → p.Begins cs l
  finds : ∀ {cs l}, p.Begins cs l → ∃ l', split cs = some l' ∧ l.whole.length ≤ l'.whole.length

variable {p : Pattern} {split : List Char → Option Lexeme} {cs : List Char} {l : Lexeme}

theorem Scans.split_eq_some_iff (h : p.Scans split) : split cs = some l ↔ p.Longest cs l := by
  have hlongest : ∀ {l}, split cs = some l → p.Longest cs l := by
    intro l hl
    refine ⟨h.begins hl, fun l' hl' => ?_⟩
    obtain ⟨l'', hs, hle⟩ := h.finds hl'
    rw [hl] at hs
    cases hs
    exact hle
  refine ⟨hlongest, fun hl => ?_⟩
  obtain ⟨l', hs, -⟩ := h.finds hl.1
  rw [hs, (hlongest hs).unique hl]

theorem Scans.split_eq_none_iff (h : p.Scans split) :
    split cs = none ↔ ∀ l, ¬p.Begins cs l := by
  constructor
  · intro hn l hl
    obtain ⟨l', hs, -⟩ := h.finds hl
    rw [hn] at hs
    cases hs
  · intro hn
    cases hs : split cs with
    | none => rfl
    | some l => exact absurd (h.begins hs) (hn l)

end Pattern

/-! ## Heads -/

/-- The characters that lexemes of a pattern begin with, folded. -/
def Pattern.heads : Pattern → List Char
  | bracketed opening _ _ => [foldChar opening]
  | quoted => [foldChar '\x27']
  | fractional => '-' :: '.' :: "0123456789".toList
  | integral => '-' :: "0123456789".toList
  | word words => words.filterMap fun w => w.toList.head?
  | symbol spellings => spellings.filterMap fun s => s.toList.head?.map foldChar

theorem foldChar_mem_of_isDigit {c : Char} (h : isDigit c = true) :
    foldChar c ∈ "0123456789".toList := by
  have hall : ∀ n < 58, 48 ≤ n → foldChar (Char.ofNat n) ∈ "0123456789".toList := by decide
  simp only [isDigit, Bool.and_eq_true, decide_eq_true_eq] at h
  have hlow : 48 ≤ c.toNat := h.1
  have hhigh : c.toNat ≤ 57 := h.2
  have hc := hall c.toNat (by omega) hlow
  rwa [Char.ofNat_toNat] at hc

theorem Pattern.Begins.head {p : Pattern} {cs : List Char} {l : Lexeme} (h : p.Begins cs l) :
    ∃ c rest, cs = c :: rest ∧ foldChar c ∈ p.heads := by
  obtain ⟨hm, rfl⟩ := h
  cases p with
  | bracketed opening closing allowed =>
    refine ⟨opening, l.inner ++ [closing] ++ l.rest, ?_, List.mem_singleton.2 rfl⟩
    rw [hm.1]
    rfl
  | quoted =>
    refine ⟨'\x27', l.inner ++ ['\x27'] ++ l.rest, ?_, List.mem_singleton.2 rfl⟩
    rw [hm.1]
    rfl
  | fractional =>
    obtain ⟨-, sign, whole, fraction, hw, hsign, hwhole, -, -⟩ := hm
    rw [hw]
    rcases hsign with rfl | rfl
    · cases whole with
      | nil => exact ⟨'.', _, rfl, by decide⟩
      | cons d ds =>
        have hd := foldChar_mem_of_isDigit (hwhole d List.mem_cons_self)
        exact ⟨d, _, rfl, List.mem_cons_of_mem _ (List.mem_cons_of_mem _ hd)⟩
    · exact ⟨'-', _, rfl, by decide⟩
  | integral =>
    obtain ⟨-, sign, ds, hw, hsign, hne, hds⟩ := hm
    obtain ⟨d, ds, rfl⟩ := List.exists_cons_of_ne_nil hne
    rw [hw]
    rcases hsign with rfl | rfl
    · exact ⟨d, _, rfl, List.mem_cons_of_mem _ (foldChar_mem_of_isDigit (hds d List.mem_cons_self))⟩
    · exact ⟨'-', _, rfl, by decide⟩
  | word words =>
    obtain ⟨-, hne, ⟨w, hw, hfold⟩, -⟩ := hm
    obtain ⟨c, text, htext⟩ := List.exists_cons_of_ne_nil hne
    refine ⟨c, text ++ l.rest, by rw [htext]; rfl, List.mem_filterMap.2 ⟨w, hw, ?_⟩⟩
    rw [← hfold, htext]
    rfl
  | symbol spellings =>
    obtain ⟨-, hne, s, hs, hw⟩ := hm
    obtain ⟨c, text, htext⟩ := List.exists_cons_of_ne_nil hne
    refine ⟨c, text ++ l.rest, by rw [htext]; rfl, List.mem_filterMap.2 ⟨s, hs, ?_⟩⟩
    rw [← hw, htext]
    rfl

/-- Patterns that begin with other characters are not both at the front of a text. -/
theorem Pattern.Begins.not_begins {p q : Pattern} {cs : List Char} {l : Lexeme}
    (h : p.Begins cs l) (hheads : p.heads.all (· ∉ q.heads)) (l' : Lexeme) : ¬ q.Begins cs l' := by
  intro h'
  obtain ⟨c, rest, hcs, hc⟩ := h.head
  obtain ⟨d, rest', hcs', hd⟩ := h'.head
  obtain ⟨rfl, -⟩ := List.cons.inj (hcs.symm.trans hcs')
  have hout := List.all_eq_true.1 hheads _ hc
  exact of_decide_eq_true hout hd

/-! ## Scanners -/

namespace TokenRule

theorem scans_bracketed (opening closing : Char) {allowed : Char → Bool}
    (hc : allowed closing = false) :
    (Pattern.bracketed opening closing allowed).Scans (splitBracketed opening closing allowed) where
  begins := by
    intro cs l h
    have hb := splitBracketed_begins opening closing allowed cs l h
    cases cs with
    | nil => cases h
    | cons c cs =>
      rw [splitBracketed] at h
      split at h
      · split at h
        · rename_i n name d rest ht _
          split at h
          · cases h
            refine ⟨⟨rfl, by simp, fun a ha => ?_⟩, hb.2⟩
            rw [← ht] at ha
            exact List.mem_takeWhile_imp ha
          · cases h
        · cases h
      · cases h
  finds := by
    rintro cs l ⟨⟨hw, hne, ha⟩, rfl⟩
    refine ⟨⟨opening :: l.inner ++ [closing], l.inner, l.rest⟩, ?_, by rw [hw]⟩
    rw [hw, List.append_assoc, List.cons_append]
    exact splitBracketed_name opening closing hne ha hc l.rest

/-! ### Strings -/

theorem quotedBody_of_splitBody {cs body rest : List Char} (h : splitBody cs = some (body, rest)) :
    QuotedBody body := by
  fun_induction splitBody cs generalizing body rest with
  | case1 => cases h
  | case2 cs b r hb ih =>
    cases h
    exact .quotes (ih hb)
  | case3 =>
    cases h
    exact .nil
  | case4 =>
    cases h
    exact .nil
  | case5 c cs _ hc ih =>
    obtain ⟨⟨b, r⟩, hb, he⟩ := Option.map_eq_some_iff.1 h
    cases he
    exact .char hc (ih hb)

/-- Where a quote closes a body, the scanner finds it or a later one. -/
theorem splitBody_of_quotedBody {body : List Char} (h : QuotedBody body) (rest : List Char) :
    ∃ body' rest', splitBody (body ++ '\x27' :: rest) = some (body', rest') ∧
      body.length ≤ body'.length := by
  induction h with
  | nil =>
    cases hs : splitBody ('\x27' :: rest) with
    | some found => exact ⟨found.1, found.2, hs, Nat.zero_le _⟩
    | none =>
      rw [splitBody.eq_def] at hs
      split at hs
      · rename_i heq; cases heq
      · split at hs <;> cases hs
      · rename_i heq
        obtain ⟨rfl, rfl⟩ := List.cons_eq_cons.1 heq
        rw [if_pos rfl] at hs
        cases hs
  | @char c _ hc _ ih =>
    obtain ⟨body', rest', hs, hle⟩ := ih
    refine ⟨c :: body', rest', ?_, Nat.succ_le_succ hle⟩
    rw [List.cons_append, splitBody_of_ne hc, hs]
    rfl
  | quotes _ ih =>
    obtain ⟨body', rest', hs, hle⟩ := ih
    refine ⟨'\x27' :: '\x27' :: body', rest', ?_, Nat.add_le_add_right hle 2⟩
    rw [List.cons_append, List.cons_append, splitBody, hs]

theorem scans_string : Pattern.quoted.Scans splitString where
  begins := by
    intro cs l h
    have hb := splitString_begins cs l h
    cases cs with
    | nil => cases h
    | cons c cs =>
      rw [splitString] at h
      split at h
      · split at h
        · rename_i hs
          cases h
          exact ⟨⟨rfl, quotedBody_of_splitBody hs⟩, hb.2⟩
        · cases h
      · cases h
  finds := by
    rintro cs l ⟨⟨hw, hq⟩, rfl⟩
    obtain ⟨body, rest', hs, hle⟩ := splitBody_of_quotedBody hq l.rest
    have htext : l.whole ++ l.rest = '\x27' :: (l.inner ++ '\x27' :: l.rest) := by simp [hw]
    refine ⟨⟨'\x27' :: body ++ ['\x27'], body, rest'⟩, ?_, ?_⟩
    · rw [htext, splitString, if_pos rfl, hs]
    · simpa [hw] using hle

/-! ### Numbers -/

theorem splitMinus_cases (cs : List Char) :
    (splitMinus cs).1 = [] ∨ (splitMinus cs).1 = ['-'] := by
  unfold splitMinus
  split
  · exact .inr rfl
  · exact .inl rfl

theorem splitMinus_sign {sign : List Char} (hs : sign = [] ∨ sign = ['-']) {c : Char}
    (hc : c ≠ '-') (cs : List Char) : splitMinus (sign ++ c :: cs) = (sign, c :: cs) := by
  rcases hs with rfl | rfl
  · show splitMinus (c :: cs) = ([], c :: cs)
    unfold splitMinus
    split
    · rename_i heq
      exact absurd (List.cons_eq_cons.1 heq).1 hc
    · rfl
  · rfl

theorem ne_minus_of_isDigit {c : Char} (h : isDigit c = true) : c ≠ '-' := by
  rintro rfl
  exact absurd h (by decide)

theorem scans_float : Pattern.fractional.Scans splitFloat where
  begins := by
    intro cs l h
    have hb := splitFloat_begins cs l h
    simp only [splitFloat] at h
    split at h
    · rename_i behind _
      split at h
      · cases h
      · rename_i hne
        cases h
        refine ⟨⟨rfl, (splitMinus cs).1, (splitMinus cs).2.takeWhile isDigit,
          behind.takeWhile isDigit, rfl, splitMinus_cases cs, fun c hc => List.mem_takeWhile_imp hc,
          fun h0 => hne (by rw [h0]; rfl), fun c hc => List.mem_takeWhile_imp hc⟩, hb.2⟩
    · cases h
  finds := by
    rintro cs l ⟨⟨-, sign, whole, fraction, hw, hsign, hwhole, hne, hfraction⟩, rfl⟩
    have hpoint : isDigit '.' = false := by decide
    have htext : l.whole ++ l.rest = sign ++ (whole ++ '.' :: (fraction ++ l.rest)) := by simp [hw]
    have hm : splitMinus (l.whole ++ l.rest) = (sign, whole ++ '.' :: (fraction ++ l.rest)) := by
      rw [htext]
      cases whole with
      | nil => exact splitMinus_sign hsign (by decide) _
      | cons d ds =>
        exact splitMinus_sign hsign (ne_minus_of_isDigit (hwhole d List.mem_cons_self)) _
    obtain ⟨ht, hd⟩ := takeWhile_isDigit_append hwhole ('.' :: (fraction ++ l.rest)) (by
      intro c cs h
      rw [← (List.cons_eq_cons.1 h).1]
      exact hpoint)
    have hf : (fraction ++ l.rest).takeWhile isDigit = fraction ++ l.rest.takeWhile isDigit :=
      List.takeWhile_append_of_pos hfraction
    have hempty : (fraction ++ l.rest.takeWhile isDigit).isEmpty = false := by simp [hne]
    let found := sign ++ (whole ++ '.' :: (fraction ++ l.rest.takeWhile isDigit))
    refine ⟨⟨found, found, (fraction ++ l.rest).dropWhile isDigit⟩, ?_, ?_⟩
    · simp only [splitFloat, hm, ht, hd, hf, hempty]
      rfl
    · simp only [found, hw, List.length_append, List.length_cons]
      omega

theorem scans_integer : Pattern.integral.Scans splitInteger where
  begins := by
    intro cs l h
    have hb := splitInteger_begins cs l h
    simp only [splitInteger] at h
    split at h
    · cases h
    · rename_i hne
      cases h
      exact ⟨⟨rfl, (splitMinus cs).1, (splitMinus cs).2.takeWhile isDigit, rfl, splitMinus_cases cs,
        fun h0 => hne (by rw [h0]; rfl), fun c hc => List.mem_takeWhile_imp hc⟩, hb.2⟩
  finds := by
    rintro cs l ⟨⟨-, sign, ds, hw, hsign, hne, hds⟩, rfl⟩
    have hm : splitMinus (l.whole ++ l.rest) = (sign, ds ++ l.rest) := by
      obtain ⟨d, ds, rfl⟩ := List.exists_cons_of_ne_nil hne
      rw [hw, List.append_assoc]
      exact splitMinus_sign hsign (ne_minus_of_isDigit (hds d List.mem_cons_self)) _
    have ht : (ds ++ l.rest).takeWhile isDigit = ds ++ l.rest.takeWhile isDigit :=
      List.takeWhile_append_of_pos hds
    have hempty : (ds ++ l.rest.takeWhile isDigit).isEmpty = false := by simp [hne]
    let found := sign ++ (ds ++ l.rest.takeWhile isDigit)
    refine ⟨⟨found, found, (ds ++ l.rest).dropWhile isDigit⟩, ?_, ?_⟩
    · simp only [splitInteger, hm, ht, hempty]
      rfl
    · simp only [found, hw, List.length_append]
      omega

/-! ### Words and symbols -/

theorem splitFolded_eq_some_iff {ws cs text rest : List Char} :
    splitFolded ws cs = some (text, rest) ↔ text.map foldChar = ws ∧ text ++ rest = cs := by
  constructor
  · intro h
    refine ⟨?_, (splitFolded_append ws cs text rest h).1⟩
    fun_induction splitFolded ws cs generalizing text rest with
    | case1 =>
      cases h
      rfl
    | case2 => cases h
    | case3 ws c cs ih =>
      obtain ⟨⟨t, r⟩, ht, he⟩ := Option.map_eq_some_iff.1 h
      cases he
      rw [List.map_cons, ih ht]
    | case4 => cases h
  · rintro ⟨rfl, rfl⟩
    induction text with
    | nil => rfl
    | cons c text ih =>
      rw [List.map_cons, List.cons_append, splitFolded, if_pos rfl, ih]
      rfl

theorem endsWord_iff {rest : List Char} :
    endsWord rest = true ↔ ∀ c cs, rest = c :: cs → isWordChar c = false := by
  cases rest with
  | nil => simp [endsWord]
  | cons c cs => simp [endsWord]

/-- A lexeme of a word, as the rest of the table sees it. -/
theorem begins_word_cons {v : String} {words : List String} {cs : List Char} {l : Lexeme}
    (h : (Pattern.word words).Begins cs l) : (Pattern.word (v :: words)).Begins cs l := by
  obtain ⟨⟨hi, hne, ⟨w, hw, hf⟩, hend⟩, hcs⟩ := h
  exact ⟨⟨hi, hne, ⟨w, List.mem_cons_of_mem v hw, hf⟩, hend⟩, hcs⟩

/-- Words that begin with different letters do not compete, so at most one of them is there. -/
theorem scans_word {words : List String} (hne : ∀ w ∈ words, w ≠ "")
    (hheads : words.Pairwise fun v w => v.toList.head? ≠ w.toList.head?) :
    (Pattern.word words).Scans (splitWord words) where
  begins := by
    intro cs l h
    induction words with
    | nil => cases h
    | cons v words ih =>
      have hlater : splitWord words cs = some l → (Pattern.word (v :: words)).Begins cs l :=
        fun hs => begins_word_cons (ih (fun w hw => hne w (List.mem_cons_of_mem v hw))
          (List.pairwise_cons.1 hheads).2 hs)
      rw [splitWord] at h
      split at h
      · rename_i c text rest hs
        split at h
        · rename_i hend
          cases h
          obtain ⟨hf, hcs⟩ := splitFolded_eq_some_iff.1 hs
          exact ⟨⟨rfl, by simp, ⟨v, List.mem_cons_self, hf⟩, endsWord_iff.1 hend⟩, hcs⟩
        · exact hlater h
      · exact hlater h
  finds := by
    rintro cs ⟨whole, inner, rest⟩ ⟨⟨hi, hl, ⟨w, hw, hf⟩, hend⟩, rfl⟩
    obtain ⟨c, text, rfl⟩ := List.exists_cons_of_ne_nil hl
    refine ⟨⟨c :: text, c :: text, rest⟩, ?_, Nat.le_refl _⟩
    have hthis : splitFolded w.toList (c :: text ++ rest) = some (c :: text, rest) :=
      splitFolded_eq_some_iff.2 ⟨hf, rfl⟩
    have hends : endsWord rest = true := endsWord_iff.2 hend
    induction words with
    | nil => cases hw
    | cons v words ih =>
      rcases List.mem_cons.1 hw with rfl | hmem
      · simp only [splitWord, hthis, hends, if_true]
      · obtain ⟨hv, hwords⟩ := List.pairwise_cons.1 hheads
        have hother : splitFolded v.toList (c :: text ++ rest) = none := by
          obtain ⟨a, as, hvs⟩ := List.exists_cons_of_ne_nil
            (by simpa using hne v List.mem_cons_self : v.toList ≠ [])
          have ha : foldChar c ≠ a := by
            rintro rfl
            refine hv w hmem ?_
            rw [hvs, ← hf]
            rfl
          rw [hvs, List.cons_append, splitFolded, if_neg ha]
        rw [splitWord, hother]
        exact ih (fun w hw => hne w (List.mem_cons_of_mem v hw)) hwords hmem

/-- Spellings of one length do not compete. -/
theorem scans_symbol {spellings : List String}
    (hlength : ∀ s ∈ spellings, ∀ t ∈ spellings, s.toList.length = t.toList.length) :
    (Pattern.symbol spellings).Scans (splitSymbol spellings) where
  begins := by
    intro cs l h
    have hb := splitSymbol_begins spellings cs l h
    refine ⟨?_, hb.2⟩
    clear hlength hb
    induction spellings with
    | nil => cases h
    | cons s ss ih =>
      rw [splitSymbol] at h
      split at h
      · rename_i hs
        cases h
        exact ⟨rfl, hs.1, s, List.mem_cons_self, rfl⟩
      · obtain ⟨hi, hne, t, ht, hw⟩ := ih h
        exact ⟨hi, hne, t, List.mem_cons_of_mem s ht, hw⟩
  finds := by
    rintro cs l ⟨⟨hi, hne, s, hs, hw⟩, rfl⟩
    have hprefix : s.toList.isPrefixOf (l.whole ++ l.rest) = true := by
      rw [List.isPrefixOf_iff_prefix, ← hw]
      exact List.prefix_append l.whole l.rest
    induction spellings with
    | nil => cases hs
    | cons t ts ih =>
      rw [splitSymbol]
      split
      · refine ⟨_, rfl, Nat.le_of_eq ?_⟩
        rw [hw]
        exact hlength s hs t List.mem_cons_self
      · rename_i hnot
        rcases List.mem_cons.1 hs with rfl | hmem
        · exact absurd ⟨hw ▸ hne, hprefix⟩ hnot
        · exact ih (fun a ha b hb => hlength a (List.mem_cons_of_mem t ha) b
            (List.mem_cons_of_mem t hb)) hmem

end TokenRule

/-! ## The table -/

/-- The patterns with their readings, in the order in which they are tried. -/
def patterns : List (Pattern × (List Char → Option Token)) :=
  [(.bracketed '[' ']' (· != ']'), fun cs => some (.field (String.ofList cs))),
   (.bracketed '\x7b' '\x7d' (fun c => c != '\x7b' && c != '\x7d'),
     fun cs => some (.var (String.ofList cs))),
   (.quoted, fun cs => some (.string (String.ofList (TokenRule.unquote cs)))),
   (.fractional, fun cs => (binary64OfChars? cs).map .float),
   (.integral, fun cs => (int64OfChars? cs).map .integer),
   (.word ["true", "false"], TokenRule.readBoolean),
   (.word ["null"], fun _ => some .null),
   (.symbol ["<>", "<=", ">="], TokenRule.readComparison),
   (.symbol ["<", ">", "="], TokenRule.readComparison),
   (.word ["like", "ilike"], TokenRule.readComparison),
   (.word ["in"], fun _ => some .isIn),
   (.word ["not"], fun _ => some .not),
   (.symbol ["&", "|"], TokenRule.readJoin),
   (.symbol ["(", ")", ","], TokenRule.readPunctuation)]

/-- `r.Realizes p`: the rule splits off the longest lexeme of the pattern, and reads it as given. -/
def TokenRule.Realizes (r : TokenRule) (p : Pattern × (List Char → Option Token)) : Prop :=
  p.1.Scans r.split ∧ r.read = p.2

theorem realizes_patterns : List.Forall₂ TokenRule.Realizes TokenRule.all patterns := by
  refine .cons ⟨TokenRule.scans_bracketed _ _ rfl, rfl⟩ <|
    .cons ⟨TokenRule.scans_bracketed _ _ rfl, rfl⟩ <| .cons ⟨TokenRule.scans_string, rfl⟩ <|
    .cons ⟨TokenRule.scans_float, rfl⟩ <| .cons ⟨TokenRule.scans_integer, rfl⟩ <|
    .cons ⟨TokenRule.scans_word ?_ ?_, rfl⟩ <| .cons ⟨TokenRule.scans_word ?_ ?_, rfl⟩ <|
    .cons ⟨TokenRule.scans_symbol ?_, rfl⟩ <| .cons ⟨TokenRule.scans_symbol ?_, rfl⟩ <|
    .cons ⟨TokenRule.scans_word ?_ ?_, rfl⟩ <| .cons ⟨TokenRule.scans_word ?_ ?_, rfl⟩ <|
    .cons ⟨TokenRule.scans_word ?_ ?_, rfl⟩ <| .cons ⟨TokenRule.scans_symbol ?_, rfl⟩ <|
    .cons ⟨TokenRule.scans_symbol ?_, rfl⟩ .nil
  all_goals simp

/-- `FirstMatch cs l read ps`: the first pattern of `ps` with a lexeme at the front of `cs` has the
lexeme `l` there and no longer one, and reads it by `read`. -/
inductive FirstMatch (cs : List Char) (l : Lexeme) (read : List Char → Option Token) :
    List (Pattern × (List Char → Option Token)) → Prop
  | here {p : Pattern} {ps : List (Pattern × (List Char → Option Token))} :
      p.Longest cs l → FirstMatch cs l read ((p, read) :: ps)
  | later {q : Pattern × (List Char → Option Token)}
      {ps : List (Pattern × (List Char → Option Token))} :
      (∀ l', ¬q.1.Begins cs l') → FirstMatch cs l read ps → FirstMatch cs l read (q :: ps)

theorem firstMatch_of_firstRule? {cs : List Char} {r : TokenRule} {l : Lexeme}
    (h : firstRule? cs = some (r, l)) : FirstMatch cs l r.read patterns := by
  have hall := realizes_patterns
  unfold firstRule? at h
  generalize TokenRule.all = rules at h hall
  generalize patterns = table at hall
  induction hall with
  | nil => cases h
  | @cons q p rules table hq _ ih =>
    obtain ⟨hscans, hread⟩ := hq
    rw [List.findSome?_cons] at h
    cases hs : q.split cs with
    | some l' =>
      rw [hs] at h
      cases h
      obtain ⟨p, read⟩ := p
      cases hread
      exact .here (hscans.split_eq_some_iff.1 hs)
    | none =>
      rw [hs] at h
      exact .later (hscans.split_eq_none_iff.1 hs) (ih h)

theorem firstRule?_eq_none_iff {cs : List Char} :
    firstRule? cs = none ↔ ∀ p ∈ patterns, ∀ l, ¬p.1.Begins cs l := by
  have hall := realizes_patterns
  unfold firstRule?
  generalize TokenRule.all = rules at hall ⊢
  generalize patterns = table at hall ⊢
  induction hall with
  | nil => simp
  | @cons q p rules table hq _ ih =>
    rw [List.forall_mem_cons, ← hq.1.split_eq_none_iff, List.findSome?_cons]
    cases hs : q.split cs with
    | some l => simp
    | none => simpa using ih

/-! ## First matches -/

variable {cs : List Char} {l : Lexeme} {read : List Char → Option Token}

theorem firstMatch_cons_iff {q : Pattern × (List Char → Option Token)}
    {ps : List (Pattern × (List Char → Option Token))} :
    FirstMatch cs l read (q :: ps) ↔
      q.1.Longest cs l ∧ read = q.2 ∨ (∀ l', ¬ q.1.Begins cs l') ∧ FirstMatch cs l read ps := by
  constructor
  · intro h
    cases h with
    | here h => exact .inl ⟨h, rfl⟩
    | later hq h => exact .inr ⟨hq, h⟩
  · rintro (⟨h, rfl⟩ | ⟨hq, h⟩)
    · exact .here h
    · exact .later hq h

/-- The pattern of a first match is in the table. -/
theorem FirstMatch.exists_mem {ps : List (Pattern × (List Char → Option Token))}
    (h : FirstMatch cs l read ps) : ∃ p, (p, read) ∈ ps ∧ p.Longest cs l := by
  induction h with
  | here h => exact ⟨_, List.mem_cons_self, h⟩
  | later _ _ ih =>
    obtain ⟨p, hp, h⟩ := ih
    exact ⟨p, List.mem_cons_of_mem _ hp, h⟩

/-- Behind patterns that have nothing at the front of a text, the next one is the first to match. -/
theorem firstMatch_append {p : Pattern} {earlier later : List (Pattern × (List Char → Option Token))}
    (hearlier : ∀ q ∈ earlier, ∀ l', ¬ q.1.Begins cs l') (h : p.Longest cs l) :
    FirstMatch cs l read (earlier ++ (p, read) :: later) := by
  induction earlier with
  | nil => exact .here h
  | cons q earlier ih =>
    obtain ⟨hq, hrest⟩ := List.forall_mem_cons.1 hearlier
    exact .later hq (ih hrest)

/-- The first match is what the lexer takes. -/
theorem firstRule?_of_firstMatch (h : FirstMatch cs l read patterns) :
    ∃ r, firstRule? cs = some (r, l) ∧ r.read = read := by
  have hall := realizes_patterns
  unfold firstRule?
  generalize TokenRule.all = rules at hall ⊢
  generalize patterns = table at hall h
  induction hall with
  | nil => cases h
  | @cons q p rules table hq _ ih =>
    obtain ⟨hscans, hread⟩ := hq
    rw [List.findSome?_cons]
    cases h with
    | here h =>
      rw [hscans.split_eq_some_iff.2 h]
      exact ⟨q, rfl, hread⟩
    | later hnone h =>
      rw [hscans.split_eq_none_iff.2 hnone]
      exact ih h

end RecordFilter
