import RecordFilter.Proofs.Parser.Refinement

/-!
# Calling a parser

A parser that is called again and again, and fails now and then, stays what it was: between calls
no parenthesis is open, within them never more than the limit, and what a failed call is about is
what the lexer delivers next.  How far the lexer has got before the first call only moves offsets.

    parse (ofLexer (.ofString s)) = some (Predicate.parse s, q)                (parse_ofString)
    Stands I 0 p s → p.calls cs = some (replies s cs, q) ∧ Stands I 0 q (remaining s cs)
                                                                                 (calls_give)
-/

namespace RecordFilter

/-! ## Counters that remember -/

/-- A counter that remembers which values it had. -/
structure History where
  value : Nat
  earlier : List Nat

namespace History

def values (h : History) : List Nat := h.value :: h.earlier

instance : Counter History where
  zero := ⟨0, []⟩
  value h := h.value
  enter h := ⟨h.value + 1, h.values⟩
  leave h := ⟨h.value - 1, h.values⟩
  value_zero := rfl
  value_enter _ := rfl
  value_leave _ := rfl

end History

namespace Parser

variable {κ : Type} [Counter κ] {I : Parser κ → Prop} {v : Nat} {p q : Parser κ} {s : TokenStream}
  {e : ParseError}

/-! ## What is kept -/

instance : Kept fun _ : Parser κ => True where
  ask _ _ _ := trivial
  enter _ _ _ := trivial
  leave _ _ := trivial

/-- The counter of the parser never was above the limit. -/
def Within (p : Parser History) : Prop := ∀ n ∈ p.nesting.values, n ≤ Predicate.nestingLimit

instance : Kept Within where
  ask _ _ h := h
  enter p h hv := by
    intro n hn
    rcases List.mem_cons.1 hn with rfl | hn
    · exact hv
    · exact h n hn
  leave p h := by
    intro n hn
    rcases List.mem_cons.1 hn with rfl | hn
    · exact Nat.le_trans (Nat.sub_le _ _) (h _ List.mem_cons_self)
    · exact h n hn

/-- The lexer of the parser was made for the text `text`. -/
def Reads (text : String) (p : Parser κ) : Prop :=
  ∃ asked, p.lexer = (Lexer.ofString text).after asked

instance (text : String) : Kept (Reads text : Parser κ → Prop) where
  ask c p h := by
    obtain ⟨asked, hl⟩ := h
    refine ⟨asked ++ [c], ?_⟩
    rw [Lexer.after, List.foldl_append]
    show (p.lexer.call c).2 = _
    rw [hl]
    rfl
  enter _ h _ := h
  leave _ h := h

omit [Counter κ] in
theorem Reads.streamIn {text : String} (h : Reads text p) :
    StreamIn text.toList p.lexer.stream := by
  obtain ⟨asked, hl⟩ := h
  rw [hl]
  exact Lexer.streamIn_after (Lexer.coherent_ofString text) (streamIn_ofString text) asked

/-! ## One call -/

theorem stands_ofLexer {l : Lexer} (hc : l.Coherent) (hI : I (ofLexer l)) :
    Stands I 0 (ofLexer l) l.stream := ⟨hc, rfl, Counter.value_zero, hI⟩

theorem regular_read (c : Call) : Regular c.read := by
  cases c with
  | expression => exact Predicate.regular_expression
  | parse => exact Predicate.regular_parseStream

theorem result_read_shift (c : Call) (k : Nat) (s : TokenStream) :
    (c.read (s.shift k)).result = (c.read s).result.mapError (.shift k) := by
  rw [(regular_read c k s).1]
  cases c.read s <;> rfl

/-- Where a stream begins does not matter to a call, but for the offsets. -/
theorem call_shift {l fresh : Lexer} {k : Nat} (hl : l.Coherent) (hf : fresh.Coherent)
    (hs : l.stream = fresh.stream.shift k) (c : Call) :
    ∃ r, ∃ p q : Parser κ, call c (ofLexer fresh) = some (r, p) ∧
      call c (ofLexer l) = some (r.mapError (.shift k), q) := by
  have hfresh : Stands (fun _ : Parser κ => True) 0 _ _ := stands_ofLexer hf trivial
  have hlexer : Stands (fun _ : Parser κ => True) 0 _ _ := stands_ofLexer hl trivial
  obtain ⟨p, hp, -⟩ := gives_call c hfresh
  obtain ⟨q, hq, -⟩ := gives_call c hlexer
  refine ⟨_, p, q, hp, hq.trans ?_⟩
  rw [hs, result_read_shift]

/-- What the lexer delivers next is what the error is about, and has its place in the text where
the error says. -/
def AtFault (text : String) (e : ParseError) (l : Lexer) : Prop :=
  l.next.2.tokenStart = e.offset ∧ e.Names l.next.1 ∧ Shows text.toList e.offset l.next.1

theorem atFault_of_about {text : String} (h : Stands (Reads text) v p s) (he : e.About s) :
    AtFault text e p.lexer := by
  obtain ⟨hr, -, ho, -⟩ := Lexer.next_spec h.coherent
  have hshows := h.kept.streamIn.shows
  rw [h.stream] at hr ho hshows
  obtain ⟨hoffset, hnames⟩ := he
  rw [hoffset] at ho hshows
  rw [← hr] at hnames hshows
  exact ⟨ho, hnames, hshows⟩

/-- A call returns, and if it fails then it leaves what is at fault. -/
theorem call_atFault {text : String} (c : Call) (h : Stands (Reads text) 0 p s) :
    ∃ r q, call c p = some (r, q) ∧ ∀ e, r = .error e → AtFault text e q.lexer := by
  obtain ⟨q, hq, hs⟩ := gives_call c h
  refine ⟨_, q, hq, fun e he => atFault_of_about hs ?_⟩
  have hfaithful := (regular_read c 0 s).2
  cases hread : c.read s with
  | ok tree rest =>
    rw [hread] at he
    cases he
  | error e' rest =>
    rw [hread] at he hfaithful
    cases he
    exact hfaithful

/-! ## Calls in a row -/

/-- The results of calls, one after the other. -/
def replies (s : TokenStream) : List Call → List (Except ParseError Predicate)
  | [] => []
  | c :: cs => (c.read s).result :: replies (c.read s).rest cs

def remaining (s : TokenStream) : List Call → TokenStream
  | [] => s
  | c :: cs => remaining (c.read s).rest cs

/-- Whatever is asked of a parser, it is ready again behind it. -/
theorem calls_give [Kept I] (h : Stands I 0 p s) (cs : List Call) :
    ∃ q, p.calls cs = some (replies s cs, q) ∧ Stands I 0 q (remaining s cs) := by
  induction cs generalizing p s with
  | nil => exact ⟨p, rfl, h⟩
  | cons c cs ih =>
    obtain ⟨q, hq, hs⟩ := gives_call c h
    obtain ⟨q', hq', hs'⟩ := ih hs
    refine ⟨q', ?_, hs'⟩
    rw [calls, hq]
    show Option.bind (q.calls cs) _ = _
    rw [hq']
    rfl

/-- A parser on a text of its own is what parses the text. -/
theorem parse_ofString (text : String) :
    ∃ q : Parser κ, parse (ofLexer (.ofString text)) = some (Predicate.parse text, q) := by
  have h : Stands (Reads text : Parser κ → Prop) 0 _ _ :=
    stands_ofLexer (Lexer.coherent_ofString text) ⟨[], rfl⟩
  obtain ⟨q, hq, -⟩ := gives_parse h
  refine ⟨q, hq.trans ?_⟩
  rw [Predicate.parse]
  cases Predicate.parseStream (Lexer.ofString text).stream <;> rfl

/-! ## Lexers in use -/

theorem peeked_after_next {l : Lexer} (hl : l.Coherent) (hp : l.peeked = none) (n : Nat) :
    (l.after (.replicate n .next)).peeked = none := by
  induction n generalizing l with
  | zero => exact hp
  | succ n ih =>
    obtain ⟨-, -, -, hc⟩ := Lexer.call_spec hl .next
    exact ih hc (Lexer.next_spec hl).2.2.2

/-- What is left of the text, seen from where it begins. -/
theorem stream_after_next (text : String) (n : Nat) :
    let l := (Lexer.ofString text).after (.replicate n .next)
    l.stream = (Lexer.ofString (.ofList l.rest)).stream.shift l.position := by
  intro l
  have hp := peeked_after_next (Lexer.coherent_ofString text) rfl n
  have hfresh : (Lexer.ofString (.ofList l.rest)).stream = streamFrom 0 l.rest := by
    show streamFrom 0 (String.ofList l.rest).toList = _
    rw [String.toList_ofList]
  rw [(Lexer.next_of_peeked_none hp).2, hfresh]
  exact streamFrom_shift l.position 0 l.rest

/-- A look at the next token leaves it to be delivered. -/
theorem looked_spec (text : String) (asked : List Lexer.Call) (looked : Bool) :
    let before := (Lexer.ofString text).after asked
    let l := if looked then before.peek.2 else before
    l.Coherent ∧ l.stream = before.stream ∧ ∃ asked', l = (Lexer.ofString text).after asked' := by
  intro before l
  have hbefore : before.Coherent := Lexer.coherent_after (Lexer.coherent_ofString text) asked
  cases looked with
  | false => exact ⟨hbefore, rfl, asked, rfl⟩
  | true =>
    obtain ⟨-, hs, -, hc⟩ := Lexer.peek_spec hbefore
    refine ⟨hc, hs, asked ++ [.peek], ?_⟩
    rw [Lexer.after, List.foldl_append]
    rfl

/-- **A parser can be used again after any outcome.**  Its lexer may have delivered some tokens of
the text and looked at one more.  The first call tells what a new parser tells of the rest of the
text, with the offsets moved.  Whatever the calls, each of them returns; between them no parenthesis
or `not` is open, and within them never more than the limit; and what a failed call is about is what
the lexer delivers next. -/
theorem calls_reusable (text : String) (taken : Nat) (looked : Bool) (cs : List Call) :
    let before := (Lexer.ofString text).after (.replicate taken .next)
    let l := if looked then before.peek.2 else before
    let fresh := Lexer.ofString (.ofList before.rest)
    (∃ consumed, text.toList = consumed ++ before.rest ∧ consumed.length = before.position ∧
      ∀ c, ∃ r, ∃ p q : Parser Nat, call c (ofLexer fresh) = some (r, p) ∧
        call c (ofLexer l) = some (r.mapError (.shift consumed.length), q)) ∧
    ∃ rs, ∃ p : Parser Nat, ∃ h : Parser History,
      (ofLexer l).calls cs = some (rs, p) ∧ (ofLexer l).calls cs = some (rs, h) ∧
      p.nesting = 0 ∧ (∀ n ∈ h.nesting.values, n ≤ Predicate.nestingLimit) ∧
      ∀ c, ∃ r q, call c p = some (r, q) ∧ ∀ e, r = .error e → AtFault text e q.lexer := by
  intro before l fresh
  obtain ⟨hl, hstream, hreads⟩ := looked_spec text (.replicate taken .next) looked
  constructor
  · obtain ⟨consumed, htext, hlen⟩ :=
      Lexer.readsOf_after (Lexer.readsOf_ofString text) (.replicate taken .next)
    refine ⟨consumed, htext, hlen, ?_⟩
    rw [hlen]
    exact call_shift hl (Lexer.coherent_ofString _) (hstream.trans (stream_after_next text taken))
  · have hread : Stands (Reads text : Parser Nat → Prop) 0 (ofLexer l) l.stream :=
      stands_ofLexer hl hreads
    have hwithin : Stands Within 0 (ofLexer l) l.stream :=
      stands_ofLexer hl (List.forall_mem_singleton.2 (Nat.zero_le _))
    obtain ⟨p, hp, hsp⟩ := calls_give hread cs
    obtain ⟨h, hh, hsh⟩ := calls_give hwithin cs
    exact ⟨_, p, h, hp, hh, hsp.nesting, hsh.kept, fun c => call_atFault c hsp⟩

end Parser

end RecordFilter
