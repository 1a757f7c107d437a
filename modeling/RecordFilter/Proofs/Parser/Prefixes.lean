import RecordFilter.Proofs.Parser.Readers
import RecordFilter.Proofs.Parser.Tracks

/-!
# Where a syntax error stands

A text that is no expression for other reasons than its depth has an error at the
first token that no expression has there: some expression begins with the tokens
before it, and none goes on with it.  The end of the text is such a token where
all of it only begins an expression, and a lexical error is in no expression.

    stream.marks = before ++ (found, e.offset) :: after, in the order of their offsets
    Viable before        ¬ Viable (before ++ [found])                      (parse_error_viable)

That no expression goes on is shown with the reader itself: it tracks a reader that may
open any number of levels, and this one would read the expression to its end.
-/

namespace RecordFilter

open TokenStream (SameFront)

/-! ## Marks -/

/-- What there is in a stream and where it starts: its tokens, and then its end or its error. -/
def TokenStream.marks : TokenStream → List (Except LexError Token × Nat)
  | eof offset => [(.ok .eof, offset)]
  | failed e => [(.error e, e.offset)]
  | token t offset rest => (.ok t, offset) :: rest.marks

theorem TokenStream.exists_marks (s : TokenStream) :
    ∃ after, s.marks = (s.head, s.offset) :: after := by
  cases s with
  | eof offset => exact ⟨[], rfl⟩
  | failed e => exact ⟨[], rfl⟩
  | token t offset rest => exact ⟨rest.marks, rfl⟩

theorem Delivers.exists_marks {s rest : TokenStream} {ts : List Token} (h : Delivers s ts rest) :
    ∃ before, s.marks = before ++ rest.marks ∧ before.map (·.1) = ts.map .ok := by
  induction h with
  | nil s => exact ⟨[], rfl, rfl⟩
  | @cons t offset s rest ts _ ih =>
    obtain ⟨before, hmarks, htokens⟩ := ih
    refine ⟨(.ok t, offset) :: before, ?_, ?_⟩
    · rw [TokenStream.marks, hmarks]
      rfl
    · rw [List.map_cons, htokens]
      rfl

/-- Every token has a character, so the offsets rise. -/
theorem marks_streamFrom (position : Nat) (cs : List Char) :
    (∀ m ∈ (streamFrom position cs).marks, position ≤ m.2) ∧
      (streamFrom position cs).marks.Pairwise fun m m' => m.2 < m'.2 := by
  induction hn : cs.length using Nat.strong_induction_on generalizing position cs with
  | _ n ih =>
    rw [streamFrom_eq]
    cases hs : scanFront (position + (cs.takeWhile isGap).length) (cs.dropWhile isGap) with
    | eof =>
      refine ⟨fun m hm => ?_, List.pairwise_singleton _ _⟩
      rw [List.mem_singleton.1 hm]
      exact Nat.le_add_right _ _
    | failed e =>
      refine ⟨fun m hm => ?_, List.pairwise_singleton _ _⟩
      rw [List.mem_singleton.1 hm]
      have hoffset := offset_of_scanFront hs
      show position ≤ e.offset
      omega
    | token t l =>
      have hlt := length_rest_lt_of_scanFront hs
      obtain ⟨hne, -⟩ := begins_of_scanFront hs
      have hpos := List.length_pos_iff.2 hne
      obtain ⟨hlow, hrise⟩ := ih _ (hn ▸ hlt)
        (position + (cs.takeWhile isGap).length + l.whole.length) l.rest rfl
      constructor
      · intro m hm
        rcases List.mem_cons.1 hm with rfl | hm
        · exact Nat.le_add_right _ _
        · have hle := hlow m hm
          omega
      · refine List.pairwise_cons.2 ⟨fun m hm => ?_, hrise⟩
        have hle := hlow m hm
        show position + (cs.takeWhile isGap).length < m.2
        omega

/-! ## Streams -/

theorem Delivers.size_eq {s rest : TokenStream} {ts : List Token} (h : Delivers s ts rest) :
    s.size = ts.length + rest.size := by
  induction h with
  | nil s => simp
  | cons _ ih =>
    rw [TokenStream.size, ih, List.length_cons]
    omega

/-- Where a stream stands tells what it has delivered. -/
theorem Delivers.unique {s rest : TokenStream} {ts us : List Token} (h : Delivers s ts rest)
    (h' : Delivers s us rest) : ts = us := by
  induction h generalizing us with
  | nil s =>
    have hsize := h'.size_eq
    have hlength : us.length = 0 := by omega
    exact (List.length_eq_zero_iff.1 hlength).symm
  | cons h ih =>
    have hsize := h.size_eq
    cases h' with
    | nil =>
      rw [TokenStream.size] at hsize
      omega
    | cons h' => rw [ih h']

theorem StreamIn.of_delivers {text : List Char} {s rest : TokenStream} {ts : List Token}
    (h : StreamIn text s) (hd : Delivers s ts rest) : StreamIn text rest := by
  induction hd with
  | nil s => exact h
  | cons _ ih => exact ih h.tail

/-- The end of a text is no token of it. -/
theorem StreamIn.ne_eof {text : List Char} {s : TokenStream} (h : StreamIn text s) :
    ∀ o rest, s ≠ .token .eof o rest := by
  rintro o rest rfl
  obtain ⟨before, cs, -, hs⟩ := h
  rw [streamFrom_eq] at hs
  split at hs
  · cases hs
  · cases hs
  · rename_i hscan
    cases hs
    exact ne_eof_of_scanFront hscan rfl

namespace Predicate

/-! ## Tokens of the grammar -/

theorem ne_eof_of_derivesOperand {t : Token} {p : Predicate} (h : DerivesOperand t p) :
    t ≠ .eof := by
  rintro rfl
  cases h

theorem eof_not_mem_of_derivesItems {ts : List Token} {ps : List Predicate}
    (h : DerivesItems ts ps) : Token.eof ∉ ts := by
  induction h with
  | one ht => simpa using (ne_eof_of_derivesOperand ht).symm
  | more ht _ ih => simpa [ih] using (ne_eof_of_derivesOperand ht).symm

/-- The end of a text is in no expression. -/
theorem eof_not_mem_of_derives {c : Category} {n : Nat} {ts : List Token} {p : Predicate}
    (h : Derives c n ts p) : Token.eof ∉ ts := by
  induction h with
  | condition hc =>
    cases hc with
    | boolean b => simp
    | compare op ht hu | inOperand ht hu =>
      simpa using ⟨(ne_eof_of_derivesOperand ht).symm, (ne_eof_of_derivesOperand hu).symm⟩
    | inList ht hus =>
      simpa [eof_not_mem_of_derivesItems hus] using (ne_eof_of_derivesOperand ht).symm
  | not _ ih => simpa using ih
  | parens _ ih => simpa using ih
  | clause _ ih => exact ih
  | and _ _ ih₁ ih₂ => simpa using ⟨ih₁, ih₂⟩
  | conjunction _ ih => exact ih
  | or _ _ ih₁ ih₂ => simpa using ⟨ih₁, ih₂⟩

/-! ## Viable prefixes -/

/-- Whether some expression begins with what was found, or is all of it up to its end. -/
def Viable (found : List (Except LexError Token)) : Prop :=
  ∃ ts n p, Derives .expression n ts p ∧ found <+: (ts ++ [Token.eof]).map .ok

/-- Tokens that can be completed are viable. -/
theorem viable_of_phrase {ts us : List Token} {p : Predicate} (h : Phrase .expression (ts ++ us) p) :
    Viable (ts.map .ok) := by
  obtain ⟨n, hp⟩ := h
  refine ⟨ts ++ us, n, p, hp, (us ++ [Token.eof]).map .ok, ?_⟩
  rw [List.append_assoc, ← List.map_append]

/-- What is found in front of the tokens of an expression is one of them, or their end. -/
theorem exists_of_prefix {ts us : List Token} {r : Except LexError Token}
    (h : ts.map .ok ++ [r] <+: (us ++ [Token.eof]).map .ok) :
    (us = ts ∧ r = .ok .eof) ∨ ∃ t vs, us = ts ++ t :: vs ∧ r = .ok t := by
  obtain ⟨zs, hzs⟩ := h
  obtain ⟨as, bs, hus, has, -⟩ := List.map_eq_append_iff.1 hzs.symm
  obtain ⟨as, cs, rfl, hts, hr⟩ := List.map_eq_append_iff.1 has
  obtain rfl : as = ts := (List.map_inj_right fun _ _ heq => Except.ok.inj heq).1 hts
  obtain ⟨t, rfl, rfl⟩ := List.map_eq_singleton_iff.1 hr
  rw [List.append_assoc, List.singleton_append] at hus
  rcases List.eq_nil_or_concat bs with rfl | ⟨vs, v, rfl⟩
  · obtain ⟨rfl, heq⟩ := List.append_inj' hus rfl
    rw [List.singleton_inj.1 heq]
    exact .inl ⟨rfl, rfl⟩
  · have hlast : us ++ [.eof] = (as ++ t :: vs) ++ [v] := by
      rw [hus, List.concat_eq_append, List.append_assoc]
      rfl
    exact .inr ⟨t, vs, (List.append_inj' hlast rfl).1, rfl⟩

/-- If an expression goes on with what is in front of a stream, some stream delivers the expression
and has the same front there. -/
theorem exists_stream_of_prefix {ts us : List Token} {n : Nat} {p : Predicate} {rest : TokenStream}
    (hne : ∀ o r, rest ≠ .token .eof o r) (hp : Derives .expression n us p)
    (h : ts.map .ok ++ [rest.head] <+: (us ++ [Token.eof]).map .ok) :
    ∃ s' rest', Delivers s' us (.eof 0) ∧ Delivers s' ts rest' ∧ SameFront rest rest' := by
  obtain ⟨s', hs'⟩ := Delivers.exists_stream us
  rcases exists_of_prefix h with ⟨rfl, hhead⟩ | ⟨t, vs, rfl, hhead⟩
  · refine ⟨s', .eof 0, hs', hs', ?_⟩
    cases rest with
    | eof offset => exact .eof _ _
    | failed e => cases hhead
    | token t o r =>
      cases hhead
      exact absurd rfl (hne o r)
  · obtain ⟨rest', hd, hd'⟩ := hs'.split
    refine ⟨s', rest', hs', hd, ?_⟩
    have ht : t ≠ .eof := by
      rintro rfl
      exact eof_not_mem_of_derives hp (by simp)
    cases hd' with
    | cons hd' =>
      cases rest with
      | eof offset =>
        cases hhead
        exact absurd rfl ht
      | failed e => cases hhead
      | token u o r =>
        cases hhead
        exact .token _ _ _ _ _

/-- Where the reader of expressions fails, no expression goes on. -/
theorem not_viable_of_error {s rest : TokenStream} {e : ParseError} {ts : List Token}
    (hrun : expression.run s = .error e rest) (hdeep : ¬ e.IsTooDeep) (hd : Delivers s ts rest)
    (hne : ∀ o r, rest ≠ .token .eof o r) : ¬ Viable (ts.map .ok ++ [rest.head]) := by
  rintro ⟨us, n, p, hp, hprefix⟩
  obtain ⟨s', rest', hus, hts, hf⟩ := exists_stream_of_prefix hne hp hprefix
  have htracks := tracks_expression (Nat.le_max_left nestingLimit (n + 1)) s
  unfold TracksAt at htracks
  rw [hrun] at htracks
  rcases htracks with hdeep' | ⟨ts', hd', -, hread⟩
  · exact hdeep hdeep'
  · obtain rfl := hd.unique hd'
    obtain ⟨e', he'⟩ := hread s' rest' hts hf
    rw [phrase_run_eof hp (by omega) hus] at he'
    cases he'

/-- Behind an expression that is read, an expression only goes on with its end. -/
theorem not_viable_of_ok {s rest : TokenStream} {p : Predicate} {ts : List Token}
    (hrun : expression.run s = .ok p rest) (hd : Delivers s ts rest)
    (hne : ∀ o r, rest ≠ .token .eof o r) (hend : ∀ o, rest ≠ .eof o) :
    ¬ Viable (ts.map .ok ++ [rest.head]) := by
  rintro ⟨us, n, q, hq, hprefix⟩
  obtain ⟨s', rest', hus, hts, hf⟩ := exists_stream_of_prefix hne hq hprefix
  have htracks := tracks_expression (Nat.le_max_left nestingLimit (n + 1)) s
  unfold TracksAt at htracks
  rw [hrun] at htracks
  obtain ⟨ts', hd', -, hread⟩ := htracks
  obtain rfl := hd.unique hd'
  have hok := hread s' rest' hts hf
  rw [phrase_run_eof hq (by omega) hus] at hok
  cases hok
  cases hf
  exact hend _ rfl

/-! ## Errors -/

/-- What was taken before an error is viable, and what stands at the error is not viable behind it. -/
theorem exists_viable_of_error {s rest : TokenStream} {e : ParseError}
    (h : parseStream s = .error e rest) (hdeep : ¬ e.IsTooDeep)
    (hne : ∀ ts r, Delivers s ts r → ∀ o r', r ≠ .token .eof o r') :
    ∃ ts, Delivers s ts rest ∧ Viable (ts.map .ok) ∧ ¬ Viable (ts.map .ok ++ [rest.head]) := by
  rw [parseStream_eq] at h
  have htracks := tracks_expression (Nat.le_refl nestingLimit) s
  unfold TracksAt at htracks
  cases hrun : expression.run s with
  | error e' rest' =>
    rw [hrun] at h htracks
    cases h
    rcases htracks with hdeep' | ⟨ts, hd, ⟨us, p, hp⟩, -⟩
    · exact absurd hdeep' hdeep
    · exact ⟨ts, hd, viable_of_phrase hp, not_viable_of_error hrun hdeep hd (hne ts rest hd)⟩
  | ok p mid =>
    rw [hrun] at h htracks
    obtain ⟨ts, hd, hp, -⟩ := htracks
    have hviable : Viable (ts.map .ok) := by
      rw [← List.append_nil ts] at hp
      exact viable_of_phrase hp
    have hmid : rest = mid ∧ ∀ o, mid ≠ .eof o := by
      replace h : parseEnd p mid = .error e rest := h
      unfold parseEnd at h
      split at h
      · split at h
        · cases h
        · cases h
          exact absurd trivial hdeep
      · rename_i hend
        obtain ⟨e', he'⟩ := failAt_error (α := Predicate) (.unexpected .eof) mid
        rw [he'] at h
        cases h
        exact ⟨rfl, hend⟩
    obtain ⟨rfl, hend⟩ := hmid
    exact ⟨ts, hd, hviable, not_viable_of_ok hrun hd (hne ts rest hd) hend⟩

/-- **Syntax errors point at the earliest possible place.**  If a text is refused for anything but its
depth, the tokens before the offset of the error begin some expression, and with the token or the
lexical error at the offset they begin none.  The error names what stands there. -/
theorem parse_error_viable {text : String} {e : ParseError} (h : parse text = .error e)
    (hdeep : ¬ e.IsTooDeep) :
    ∃ before found after,
      (Lexer.ofString text).stream.marks = before ++ (found, e.offset) :: after ∧
      (∀ m ∈ before, m.2 < e.offset) ∧ (∀ m ∈ after, e.offset < m.2) ∧
      e.Names found ∧ Shows text.toList e.offset found ∧
      Viable (before.map (·.1)) ∧ ¬ Viable (before.map (·.1) ++ [found]) := by
  obtain ⟨rest, hrest⟩ : ∃ rest, parseStream (Lexer.ofString text).stream = .error e rest := by
    unfold parse at h
    split at h
    · cases h
    · rename_i e' rest hs
      cases h
      exact ⟨rest, hs⟩
  have hin := streamIn_ofString text
  obtain ⟨ts, hd, hviable, hnot⟩ := exists_viable_of_error hrest hdeep
    fun ts r hd => (hin.of_delivers hd).ne_eof
  obtain ⟨-, hfaithful⟩ := regular_parseStream 0 (Lexer.ofString text).stream
  rw [hrest] at hfaithful
  obtain ⟨hoffset, hnames⟩ := hfaithful
  obtain ⟨before, hmarks, htokens⟩ := hd.exists_marks
  obtain ⟨after, hafter⟩ := rest.exists_marks
  rw [hafter, hoffset] at hmarks
  have hshows := (hin.of_delivers hd).shows
  rw [hoffset] at hshows
  have hrise : (Lexer.ofString text).stream.marks.Pairwise fun m m' => m.2 < m'.2 :=
    (marks_streamFrom 0 text.toList).2
  rw [hmarks, List.pairwise_append, List.pairwise_cons] at hrise
  obtain ⟨-, ⟨hlater, -⟩, hearlier⟩ := hrise
  rw [← htokens] at hviable hnot
  exact ⟨before, rest.head, after, hmarks, fun m hm => hearlier m hm _ List.mem_cons_self, hlater,
    hnames, hshows, hviable, hnot⟩

theorem stream_openText : (Lexer.ofString "true & )").stream =
    .token (.boolean true) 0 (.token (.join .and) 5 (.token .rightParen 7 (.eof 8))) := by
  obtain ⟨l, hl, hlength, hrest⟩ : ∃ l, scanFront 0 "true & )".toList = .token (.boolean true) l ∧
      l.whole.length = 4 ∧ l.rest = " & )".toList := ⟨_, rfl, rfl, rfl⟩
  obtain ⟨l', hl', hlength', hrest'⟩ : ∃ l, scanFront 5 "& )".toList = .token (.join .and) l ∧
      l.whole.length = 1 ∧ l.rest = " )".toList := ⟨_, rfl, rfl, rfl⟩
  obtain ⟨l'', hl'', hlength'', hrest''⟩ : ∃ l, scanFront 7 ")".toList = .token .rightParen l ∧
      l.whole.length = 1 ∧ l.rest = [] := ⟨_, rfl, rfl, rfl⟩
  have hparen : streamFrom 7 ")".toList = .token .rightParen 7 (.eof 8) := by
    rw [streamFrom_token hl'', hlength'', hrest'', streamFrom_nil]
  have hjoin : streamFrom 5 "& )".toList =
      .token (.join .and) 5 (.token .rightParen 7 (.eof 8)) := by
    rw [streamFrom_token hl', hlength', hrest', ← hparen]
    exact congrArg _ (streamFrom_blank 6 _)
  show streamFrom 0 "true & )".toList = _
  rw [streamFrom_token hl, hlength, hrest, ← hjoin]
  exact congrArg _ (streamFrom_blank 4 _)

theorem parse_openText : parse "true & )" = .error (.expectedOperand .rightParen 7) := by
  have hleft : (clause nestingLimit).run (.token (.boolean true) 0
      (.token (.join .and) 5 (.token .rightParen 7 (.eof 8)))) =
        .ok (boolean true) (.token (.join .and) 5 (.token .rightParen 7 (.eof 8))) := rfl
  have hright : (clause nestingLimit).run (.token .rightParen 7 (.eof 8)) =
      .error (.expectedOperand .rightParen 7) (.token .rightParen 7 (.eof 8)) := rfl
  have hrun : expression.run (.token (.boolean true) 0
      (.token (.join .and) 5 (.token .rightParen 7 (.eof 8)))) =
        .error (.expectedOperand .rightParen 7) (.token .rightParen 7 (.eof 8)) :=
    joined_run_error ((joined_run_ok hleft .and).trans (joinTail_join_error hright)) .or
  unfold parse
  rw [stream_openText, parseStream_eq, hrun]
  rfl

/-- Behind a connective there may be an operand, and no closing parenthesis. -/
theorem parse_error_viable_openText :
    parse "true & )" = .error (.expectedOperand .rightParen 7) ∧
      Viable [.ok (.boolean true), .ok (.join .and)] ∧
      ¬ Viable [.ok (.boolean true), .ok (.join .and), .ok .rightParen] := by
  obtain ⟨before, found, after, hmarks, -, -, hnames, -, hviable, hnot⟩ :=
    parse_error_viable parse_openText id
  obtain rfl : found = .ok .rightParen := hnames
  rw [stream_openText] at hmarks
  obtain ⟨hbefore, -⟩ : before = [(.ok (.boolean true), 0), (.ok (.join .and), 5)] ∧
      after = [(.ok .eof, 8)] := by
    simpa [TokenStream.marks, ParseError.offset, List.cons_eq_append_iff] using hmarks
  rw [hbefore] at hviable hnot
  exact ⟨parse_openText, hviable, hnot⟩

end Predicate

end RecordFilter
