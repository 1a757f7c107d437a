import RecordFilter.Proofs.Token.Lookahead
import RecordFilter.Proofs.Token.Patterns

/-!
# Tokens tile a text

Blanks and lexemes, one after the other, make up a text as far as the lexer gets.  Each lexeme is
the longest of the first pattern that has one where the text goes on behind the blanks, its token is
what the pattern reads, and it starts where so many characters lie before it.

    Tiled [] s.toList tiles before (gap ++ rest)                                 (tokenize_tiles)
-/

namespace RecordFilter

/-- `Tiled before cs tiles before' rest`: what follows `before` in a text is `cs`, and it begins with
the lexemes of the tokens in `tiles`, each with blanks in front; `rest` follows these, and `before'`
is all that is before `rest`.  A token comes with the number of characters before its lexeme. -/
inductive Tiled : List Char → List Char → List (Token × Nat) → List Char → List Char → Prop
  | nil (before rest : List Char) : Tiled before rest [] before rest
  | cons {before gap before' rest : List Char} {l : Lexeme} {read : List Char → Option Token}
      {t : Token} {tiles : List (Token × Nat)} :
      (∀ c ∈ gap, isGap c = true) → l.whole ≠ [] →
      FirstMatch (l.whole ++ l.rest) l read patterns → read l.inner = some t →
      Tiled (before ++ gap ++ l.whole) l.rest tiles before' rest →
      Tiled before (gap ++ (l.whole ++ l.rest)) ((t, (before ++ gap).length) :: tiles) before' rest

/-- No character is left out. -/
theorem Tiled.append_eq {before cs before' rest : List Char} {tiles : List (Token × Nat)}
    (h : Tiled before cs tiles before' rest) : before ++ cs = before' ++ rest := by
  induction h with
  | nil => rfl
  | cons _ _ _ _ _ ih =>
    rw [← ih]
    simp only [List.append_assoc]

/-! ## Single tokens -/

theorem firstMatch_of_scanFront {start : Nat} {cs : List Char} {t : Token} {l : Lexeme}
    (h : scanFront start cs = .token t l) :
    ∃ read, FirstMatch cs l read patterns ∧ read l.inner = some t := by
  unfold scanFront at h
  split at h
  · cases h
  · split at h
    · cases h
    · rename_i r l' hr
      split at h
      · cases h
      · rename_i t' ht
        cases h
        exact ⟨r.read, firstMatch_of_firstRule? hr, ht⟩

/-- What a lexical error says of the text at which it stands. -/
structure ErrorAt (rest : List Char) (start : Nat) (e : LexError) : Prop where
  offset : e.offset = start
  unexpected : (∃ c offset, e = .unexpectedChar c offset) ↔
    ∀ p ∈ patterns, ∀ l, ¬p.1.Begins rest l
  names : ∀ c offset, e = .unexpectedChar c offset → ∃ cs, rest = c :: cs
  unread : ∀ text offset, e = .invalidNumber text offset →
    ∃ l read, FirstMatch rest l read patterns ∧ read l.inner = none ∧ text = String.ofList l.inner

theorem errorAt_of_scanFront {start : Nat} {cs : List Char} {e : LexError}
    (h : scanFront start cs = .failed e) : ErrorAt cs start e := by
  have ho := offset_of_scanFront h
  unfold scanFront at h
  split at h
  · cases h
  · rename_i c cs
    split at h
    · rename_i hr
      cases h
      exact ⟨ho, iff_of_true ⟨c, start, rfl⟩ (firstRule?_eq_none_iff.1 hr),
        fun d _ hd => by cases hd; exact ⟨cs, rfl⟩, nofun⟩
    · rename_i r l hr
      split at h
      · rename_i hread
        cases h
        refine ⟨ho, iff_of_false nofun fun hnone => ?_, nofun, fun text _ ht => ?_⟩
        · rw [firstRule?_eq_none_iff.2 hnone] at hr
          cases hr
        · cases ht
          exact ⟨l, r.read, firstMatch_of_firstRule? hr, hread, rfl⟩
      · cases h

/-! ## Streams -/

namespace TokenStream

/-- A stream with some tokens in front. -/
def prepend (tiles : List (Token × Nat)) (s : TokenStream) : TokenStream :=
  tiles.foldr (fun p s => .token p.1 p.2 s) s

theorem tokens_prepend (tiles : List (Token × Nat)) (s : TokenStream) :
    (s.prepend tiles).tokens = s.tokens.map (tiles.map (·.1) ++ ·) := by
  induction tiles with
  | nil => cases h : s.tokens <;> simp [prepend, h, Except.map]
  | cons p tiles ih =>
    show (TokenStream.token p.1 p.2 (s.prepend tiles)).tokens = _
    rw [tokens, ih]
    cases s.tokens <;> rfl

/-- Asked for one token more than there are in front, a stream tells these and what comes next. -/
theorem replies_prepend (tiles : List (Token × Nat)) (s : TokenStream) :
    ((s.prepend tiles).replies (.replicate (tiles.length + 1) .next)).map
        (fun r => (r.result, r.start)) =
      tiles.map (fun p => (.ok p.1, p.2)) ++ [(s.head, s.offset)] := by
  induction tiles with
  | nil => rfl
  | cons p tiles ih =>
    rw [List.length_cons, List.replicate_succ, List.map_cons, List.cons_append, ← ih]
    rfl

end TokenStream

/-- Where a lexeme is the first to match, it is a token or cannot be read. -/
theorem scanFront_of_firstMatch {cs : List Char} {l : Lexeme} {read : List Char → Option Token}
    (h : FirstMatch cs l read patterns) (start : Nat) :
    scanFront start cs =
      match read l.inner with
      | some t => .token t l
      | none => .failed (.invalidNumber (String.ofList l.inner) start) := by
  obtain ⟨r, hr, rfl⟩ := firstRule?_of_firstMatch h
  obtain ⟨hne, hcs⟩ := begins_of_firstRule? hr
  obtain ⟨c, text, htext⟩ := List.exists_cons_of_ne_nil hne
  rw [htext, List.cons_append] at hcs
  subst hcs
  unfold scanFront
  rw [hr]
  cases hread : r.read l.inner with
  | some t => simp only [hread]
  | none => simp only [hread]

/-- A first match stands where no blank does. -/
theorem tight_of_firstMatch {cs : List Char} {l : Lexeme} {read : List Char → Option Token}
    (h : FirstMatch cs l read patterns) : Tight cs := by
  cases cs with
  | nil => trivial
  | cons c cs =>
    by_cases hc : isGap c = true
    · have hscan := scanFront_of_firstMatch h 0
      rw [scanFront_gap 0 hc] at hscan
      cases hread : read l.inner with
      | some t =>
        rw [hread] at hscan
        cases hscan
      | none =>
        rw [hread] at hscan
        cases hscan
    · exact Bool.eq_false_iff.2 hc

theorem streamFrom_append {gap : List Char} (h : ∀ c ∈ gap, isGap c = true) (position : Nat)
    (cs : List Char) : streamFrom position (gap ++ cs) = streamFrom (position + gap.length) cs := by
  rw [streamFrom_eq, streamFrom_eq (position + gap.length), List.takeWhile_append_of_pos h,
    List.dropWhile_append_of_pos h, List.length_append, Nat.add_assoc]

/-- Behind its tiles, the lexer goes on with the rest of a text. -/
theorem streamFrom_of_tiled {before cs before' rest : List Char} {tiles : List (Token × Nat)}
    (h : Tiled before cs tiles before' rest) :
    streamFrom before.length cs = (streamFrom before'.length rest).prepend tiles := by
  induction h with
  | nil => rfl
  | @cons before gap before' rest l read t tiles hgap hne hfirst hread _ ih =>
    have hscan := scanFront_of_firstMatch hfirst (before.length + gap.length)
    rw [hread] at hscan
    rw [streamFrom_append hgap, streamFrom_token hscan]
    rw [List.length_append, List.length_append] at ih
    rw [ih, List.length_append]
    rfl

/-- Every tile is a first match where its offset says. -/
theorem firstMatch_of_mem_tiled {before cs before' rest : List Char} {tiles : List (Token × Nat)}
    (h : Tiled before cs tiles before' rest) {t : Token} {offset : Nat} (ht : (t, offset) ∈ tiles) :
    ∃ l read, FirstMatch ((before ++ cs).drop offset) l read patterns ∧ read l.inner = some t := by
  induction h with
  | nil => cases ht
  | @cons before gap before' rest l read u tiles hgap hne hfirst hread _ ih =>
    rcases List.mem_cons.1 ht with heq | ht
    · cases heq
      refine ⟨l, read, ?_, hread⟩
      rwa [← List.append_assoc, List.drop_left]
    · obtain ⟨l', read', hfirst', hread'⟩ := ih ht
      refine ⟨l', read', ?_, hread'⟩
      simpa only [List.append_assoc] using hfirst'

/-- The text behind a position is tiled up to its end or its first error. -/
theorem exists_tiled (before cs : List Char) : ∃ tiles before' gap rest,
    Tiled before cs tiles before' (gap ++ rest) ∧ (∀ c ∈ gap, isGap c = true) ∧ Tight rest ∧
      (∀ t l, scanFront (before' ++ gap).length rest ≠ .token t l) ∧
      streamFrom before.length cs = (streamFrom (before' ++ gap).length rest).prepend tiles := by
  obtain ⟨gap, front, hsplit, hgap, ht, hs⟩ := streamFrom_split before cs
  have hself := streamFrom_of_tight ht (before ++ gap).length
  cases hscan : scanFront (before ++ gap).length front with
  | eof | failed =>
    rw [hsplit] at hs ⊢
    refine ⟨[], before, gap, front, .nil before _, hgap, ht, ?_, hs⟩
    rw [hscan]
    exact nofun
  | token t l =>
    obtain ⟨hne, hfront⟩ := begins_of_scanFront hscan
    obtain ⟨read, hfirst, hread⟩ := firstMatch_of_scanFront hscan
    have hlt : l.rest.length < cs.length := by
      have hpos := List.length_pos_iff.2 hne
      rw [hsplit, ← hfront, List.length_append, List.length_append]
      omega
    obtain ⟨tiles, before', gap', rest, htiled, hgap', hrest, hlast, hstream⟩ :=
      exists_tiled (before ++ gap ++ l.whole) l.rest
    refine ⟨(t, (before ++ gap).length) :: tiles, before', gap', rest, ?_, hgap', hrest, hlast, ?_⟩
    · rw [hsplit, ← hfront]
      exact .cons hgap hne (hfront ▸ hfirst) hread htiled
    · rw [hs, hself, hscan]
      simp only [← List.length_append, hstream]
      rfl
termination_by cs.length

/-! ## Whole texts -/

/-- **Tokens tile a text.**  A text is lexemes with blanks around them, as far as it has tokens: up
to its end, or up to the first character at which there is an error.  `tokenize` gives the tokens of
the lexemes, and a lexer that is asked for one after the other says where their lexemes start. -/
theorem tokenize_tiles (s : String) : ∃ tiles before gap rest,
    Tiled [] s.toList tiles before (gap ++ rest) ∧ (∀ c ∈ gap, isGap c = true) ∧ Tight rest ∧
      ∃ last, ((Lexer.ofString s).replies (.replicate (tiles.length + 1) .next)).map
          (fun r => (r.result, r.start)) = tiles.map (fun p => (.ok p.1, p.2)) ++ [last] ∧
        (rest = [] → tokenize s = .ok (tiles.map (·.1) ++ [.eof]) ∧ last = (.ok .eof, s.length)) ∧
        (rest ≠ [] → ∃ e, tokenize s = .error e ∧ last = (.error e, (before ++ gap).length) ∧
          ErrorAt rest (before ++ gap).length e) := by
  obtain ⟨tiles, before, gap, rest, htiled, hgap, ht, hlast, hstream⟩ := exists_tiled [] s.toList
  replace hstream : (Lexer.ofString s).stream = _ := hstream
  generalize hlast' : streamFrom (before ++ gap).length rest = last at hstream
  have htokens : tokenize s = last.tokens.map (tiles.map (·.1) ++ ·) := by
    rw [tokenize, hstream, TokenStream.tokens_prepend]
  refine ⟨tiles, before, gap, rest, htiled, hgap, ht, (last.head, last.offset), ?_,
    fun hrest => ?_, fun hrest => ?_⟩
  · rw [Lexer.replies_eq (Lexer.coherent_ofString s), hstream]
    exact TokenStream.replies_prepend tiles last
  · subst hrest
    have hall : s.toList = before ++ gap := by simpa using htiled.append_eq
    rw [streamFrom_nil, ← hall, String.length_toList] at hlast'
    subst hlast'
    exact ⟨htokens, rfl⟩
  · cases hscan : scanFront (before ++ gap).length rest with
    | eof => exact absurd (eq_nil_of_scanFront hscan) hrest
    | token t l => exact absurd hscan (hlast t l)
    | failed e =>
      have herr := errorAt_of_scanFront hscan
      rw [streamFrom_failed ht hscan] at hlast'
      subst hlast'
      refine ⟨e, htokens, ?_, herr⟩
      rw [← herr.offset]
      rfl

end RecordFilter
