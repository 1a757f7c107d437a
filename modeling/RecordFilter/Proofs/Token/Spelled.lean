import RecordFilter.Proofs.Token.Spelling
import Mathlib.Data.List.TakeWhile

/-!
# Texts made of spellings

A text whose tokens are spelled out one after the other, each delimited, is taken
apart into these tokens; where one of them is a number that is not finite, the
text has a lexical error instead.  Whatever the text, all tokens that the lexer
finds can be spelled.

    Delivers (streamFrom position cs) ts (streamFrom position' rest)       (delivers_of_spelled)
    Delivers (streamFrom position cs) us (.failed e)                         (failed_of_spelled)
-/

namespace RecordFilter

/-! ## Blanks -/

theorem streamFrom_eq (position : Nat) (cs : List Char) :
    streamFrom position cs =
      match scanFront (position + (cs.takeWhile isGap).length) (cs.dropWhile isGap) with
      | .eof => .eof (position + (cs.takeWhile isGap).length)
      | .failed e => .failed e
      | .token t l => .token t (position + (cs.takeWhile isGap).length)
          (streamFrom (position + (cs.takeWhile isGap).length + l.whole.length) l.rest) := by
  rw [streamFrom]
  split
  all_goals
    rename_i heq
    rw [heq]

/-- No token begins with a blank. -/
theorem scanFront_gap (start : Nat) {c : Char} (h : isGap c = true) (cs : List Char) :
    scanFront start (c :: cs) = .failed (.unexpectedChar c start) := by
  simp only [isGap, Bool.or_eq_true, decide_eq_true_eq] at h
  obtain ((rfl | rfl) | rfl) | rfl := h <;> rfl

/-- Whether a text begins with something that the lexer does not skip. -/
def Tight : List Char → Prop
  | [] => True
  | c :: _ => isGap c = false

theorem tight_of_scanFront {start : Nat} {cs : List Char} {t : Token} {l : Lexeme}
    (h : scanFront start cs = .token t l) : Tight cs := by
  cases cs with
  | nil => trivial
  | cons c cs =>
    by_cases hc : isGap c = true
    · rw [scanFront_gap start hc] at h
      cases h
    · exact Bool.eq_false_iff.2 hc

theorem Tight.takeWhile {cs : List Char} (h : Tight cs) : cs.takeWhile isGap = [] := by
  cases cs with
  | nil => rfl
  | cons c cs => exact List.takeWhile_cons_of_neg (by rw [show isGap c = false from h]; decide)

theorem Tight.dropWhile {cs : List Char} (h : Tight cs) : cs.dropWhile isGap = cs := by
  cases cs with
  | nil => rfl
  | cons c cs => exact List.dropWhile_cons_of_neg (by rw [show isGap c = false from h]; decide)

theorem streamFrom_blank (position : Nat) (cs : List Char) :
    streamFrom position (' ' :: cs) = streamFrom (position + 1) cs := by
  rw [streamFrom, streamFrom]
  rw [List.takeWhile_cons_of_pos (by decide), List.dropWhile_cons_of_pos (by decide),
    List.length_cons, show ∀ n, position + (n + 1) = position + 1 + n by omega]

/-! ## One spelling -/

theorem streamFrom_nil (position : Nat) : streamFrom position [] = .eof position := by
  rw [streamFrom]
  rfl

theorem streamFrom_of_tight {cs : List Char} (h : Tight cs) (position : Nat) :
    streamFrom position cs =
      match scanFront position cs with
      | .eof => .eof position
      | .failed e => .failed e
      | .token t l => .token t position (streamFrom (position + l.whole.length) l.rest) := by
  rw [streamFrom_eq, h.takeWhile, h.dropWhile]
  rfl

theorem streamFrom_token {position : Nat} {cs : List Char} {t : Token} {l : Lexeme}
    (h : scanFront position cs = .token t l) :
    streamFrom position cs = .token t position (streamFrom (position + l.whole.length) l.rest) := by
  rw [streamFrom_of_tight (tight_of_scanFront h), h]

theorem streamFrom_failed {position : Nat} {cs : List Char} {e : LexError} (ht : Tight cs)
    (h : scanFront position cs = .failed e) : streamFrom position cs = .failed e := by
  rw [streamFrom_of_tight ht, h]

theorem tight_infinite {x : Binary64} (hx : x.isFinite = false) (rest : List Char) :
    Tight ((Token.float x).spelling.toList ++ rest) := by
  cases x with
  | nan => exact (by decide : isGap 'N' = false)
  | infinite negative =>
    cases negative with
    | true => exact (by decide : isGap '-' = false)
    | false => exact (by decide : isGap 'i' = false)
  | finite => cases hx

/-! ## Many spellings -/

/-- `Spelled cs ts rest`: the text `cs` is the spellings of the tokens `ts`, and then `rest`. -/
inductive Spelled : List Char → List Token → List Char → Prop
  | nil (cs : List Char) : Spelled cs [] cs
  | blank {cs rest : List Char} {ts : List Token} :
      Spelled cs ts rest → Spelled (' ' :: cs) ts rest
  | word {t : Token} {cs rest : List Char} {ts : List Token} :
      t.IsWord → Delimited cs → Spelled cs ts rest →
      Spelled (t.spelling.toList ++ cs) (t :: ts) rest
  | leftParen {cs rest : List Char} {ts : List Token} :
      Spelled cs ts rest → Spelled ('(' :: cs) (.leftParen :: ts) rest

theorem Spelled.append {cs mid rest : List Char} {ts us : List Token} (h : Spelled cs ts mid)
    (h' : Spelled mid us rest) : Spelled cs (ts ++ us) rest := by
  induction h with
  | nil => exact h'
  | blank _ ih => exact .blank (ih h')
  | word hw hd _ ih => exact .word hw hd (ih h')
  | leftParen _ ih => exact .leftParen (ih h')

theorem delivers_of_spelled {cs rest : List Char} {ts : List Token} (h : Spelled cs ts rest)
    (hf : ∀ t ∈ ts, t.isFinite = true) (position : Nat) :
    ∃ position', Delivers (streamFrom position cs) ts (streamFrom position' rest) := by
  induction h generalizing position with
  | nil => exact ⟨position, .nil _⟩
  | blank _ ih =>
    rw [streamFrom_blank]
    exact ih hf (position + 1)
  | @word t cs rest ts hw hd _ ih =>
    obtain ⟨hft, hfs⟩ := List.forall_mem_cons.1 hf
    obtain ⟨inner, hs⟩ := scanFront_spelling position hw hft hd
    rw [streamFrom_token hs]
    obtain ⟨position', hp⟩ := ih hfs (position + t.spelling.toList.length)
    exact ⟨position', .cons hp⟩
  | leftParen _ ih =>
    rw [streamFrom_token (l := ⟨['('], ['('], _⟩) rfl]
    obtain ⟨position', hp⟩ := ih (List.forall_mem_cons.1 hf).2 (position + 1)
    exact ⟨position', .cons hp⟩

theorem failed_of_spelled {cs rest : List Char} {ts : List Token} (h : Spelled cs ts rest)
    (hf : ¬∀ t ∈ ts, t.isFinite = true) (position : Nat) :
    ∃ us e, Delivers (streamFrom position cs) us (.failed e) := by
  induction h generalizing position with
  | nil => exact absurd (by simp) hf
  | blank _ ih =>
    rw [streamFrom_blank]
    exact ih hf (position + 1)
  | @word t cs rest ts hw hd _ ih =>
    by_cases hft : t.isFinite = true
    · obtain ⟨inner, hs⟩ := scanFront_spelling position hw hft hd
      rw [streamFrom_token hs]
      obtain ⟨us, e, hp⟩ := ih (fun hfs => hf (List.forall_mem_cons.2 ⟨hft, hfs⟩))
        (position + t.spelling.toList.length)
      exact ⟨t :: us, e, .cons hp⟩
    · cases t with
      | float x =>
        have hx : x.isFinite = false := Bool.eq_false_iff.2 hft
        obtain ⟨e, he⟩ := scanFront_infinite position hx hd
        rw [streamFrom_failed (tight_infinite hx cs) he]
        exact ⟨[], e, .nil _⟩
      | _ => exact absurd rfl hft
  | leftParen _ ih =>
    rw [streamFrom_token (l := ⟨['('], ['('], _⟩) rfl]
    obtain ⟨us, e, hp⟩ := ih (fun hfs => hf (List.forall_mem_cons.2 ⟨rfl, hfs⟩)) (position + 1)
    exact ⟨_ :: us, e, .cons hp⟩

/-! ## Tokens of a text -/

theorem TokenRule.of_splitBracketed {opening closing : Char} {allowed : Char → Bool}
    {cs : List Char} {l : Lexeme} (h : splitBracketed opening closing allowed cs = some l) :
    l.inner ≠ [] ∧ ∀ c ∈ l.inner, allowed c = true := by
  cases cs with
  | nil => cases h
  | cons c cs =>
    rw [splitBracketed] at h
    split at h
    · split at h
      · rename_i n name d rest ht _
        split at h
        · cases h
          refine ⟨by simp, fun a ha => ?_⟩
          rw [← ht] at ha
          exact List.mem_takeWhile_imp ha
        · cases h
      · cases h
    · cases h

namespace TokenRule

/-- Whether every token that a rule reads can be spelled. -/
def ReadsWords (r : TokenRule) : Prop :=
  ∀ {cs l t}, r.split cs = some l → r.read l.inner = some t → t.IsWord

theorem field_readsWords : field.ReadsWords := by
  intro cs l t hs ht
  obtain ⟨hne, ha⟩ := of_splitBracketed hs
  cases ht
  refine ⟨by simpa using hne, fun h => ?_⟩
  rw [String.toList_ofList] at h
  exact absurd (ha _ h) (by decide)

theorem var_readsWords : var.ReadsWords := by
  intro cs l t hs ht
  obtain ⟨hne, ha⟩ := of_splitBracketed hs
  cases ht
  refine ⟨by simpa using hne, fun h => ?_, fun h => ?_⟩
  · rw [String.toList_ofList] at h
    exact absurd (ha _ h) (by decide)
  · rw [String.toList_ofList] at h
    exact absurd (ha _ h) (by decide)

/-- A rule that reads neither names nor an end. -/
theorem readsWords_of_read {r : TokenRule} (h : ∀ cs t, r.read cs = some t → t.IsWord) :
    r.ReadsWords := fun {_ l _} _ ht => h l.inner _ ht

theorem isWord_of_map {α : Type} (f : α → Token) (hf : ∀ a, (f a).IsWord) {o : Option α} {t : Token}
    (h : o.map f = some t) : t.IsWord := by
  obtain ⟨a, -, rfl⟩ := Option.map_eq_some_iff.1 h
  exact hf a

theorem readsWords_const (t : Token) (h : t.IsWord) (ws : List String) :
    (word ws fun _ => some t).ReadsWords :=
  readsWords_of_read fun _ u (hu : some t = some u) => Option.some.inj hu ▸ h

theorem readJoin_isWord (cs : List Char) (t : Token) (h : readJoin cs = some t) : t.IsWord := by
  unfold readJoin at h
  split at h <;> cases h <;> trivial

theorem readPunctuation_isWord (cs : List Char) (t : Token) (h : readPunctuation cs = some t) :
    t.IsWord := by
  unfold readPunctuation at h
  split at h <;> cases h <;> trivial

theorem readComparison_isWord (cs : List Char) (t : Token) (h : readComparison cs = some t) :
    t.IsWord := isWord_of_map .comparison (fun _ => trivial) h

theorem readsWords_of_mem : ∀ r ∈ all, r.ReadsWords := by
  simp only [all, List.forall_mem_cons]
  refine ⟨field_readsWords, var_readsWords, readsWords_of_read ?_, readsWords_of_read ?_,
    readsWords_of_read ?_, readsWords_of_read ?_, readsWords_const .null trivial _,
    readsWords_of_read readComparison_isWord, readsWords_of_read readComparison_isWord,
    readsWords_of_read readComparison_isWord, readsWords_const .isIn trivial _,
    readsWords_const .not trivial _, readsWords_of_read readJoin_isWord,
    readsWords_of_read readPunctuation_isWord, by simp⟩
  · intro cs t h
    cases h
    trivial
  · exact fun _ _ => isWord_of_map .float fun _ => trivial
  · exact fun _ _ => isWord_of_map .integer fun _ => trivial
  · intro cs t h
    cases h
    trivial

end TokenRule

theorem isWord_of_scanFront {start : Nat} {cs : List Char} {t : Token} {l : Lexeme}
    (h : scanFront start cs = .token t l) : t.IsWord := by
  cases cs with
  | nil => cases h
  | cons c cs =>
    simp only [scanFront] at h
    split at h
    · cases h
    · rename_i r l' hr
      split at h
      · cases h
      · rename_i t' ht
        cases h
        obtain ⟨r', hm, hr'⟩ := List.exists_of_findSome?_eq_some hr
        obtain ⟨l', hl, he⟩ := Option.map_eq_some_iff.1 hr'
        cases he
        exact TokenRule.readsWords_of_mem _ hm hl ht

theorem isWord_of_delivers {position : Nat} {cs : List Char} {ts : List Token} {rest : TokenStream}
    (h : Delivers (streamFrom position cs) ts rest) : ∀ t ∈ ts, t.IsWord := by
  generalize hs : streamFrom position cs = s at h
  induction h generalizing position cs with
  | nil => simp
  | @cons t offset s rest ts _ ih =>
    rw [streamFrom_eq] at hs
    split at hs
    · cases hs
    · cases hs
    · rename_i heq
      cases hs
      exact List.forall_mem_cons.2 ⟨isWord_of_scanFront heq, ih rfl⟩

end RecordFilter
