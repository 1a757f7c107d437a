import RecordFilter.Parser
import RecordFilter.Proofs.Parser.Readers

/-!
# Parsers and readers

What a parser does with its lexer is what a reader does with the stream of the lexer: the result is
the same, the lexer is left with the stream that the reader leaves, and the counter is back where
it was.  Up to there it has only been counted up from below the limit.  Readers take tokens off, so
a parser with more steps than there are tokens always comes to an end.

    Stands I v p s → Gives I v operand p (Predicate.operand.run s)              (gives_operand)
    v + budget = nestingLimit → Follows I v n (clause n) (Predicate.clause budget)
                                                                             (follows_clause)
    Stands I 0 p s → Gives I 0 parse p (Predicate.parseStream s)                  (gives_parse)
-/

namespace RecordFilter

namespace Outcome

variable {α : Type}

def result : Outcome α → Except ParseError α
  | ok a _ => .ok a
  | error e _ => .error e

def rest : Outcome α → TokenStream
  | ok _ rest => rest
  | error _ rest => rest

end Outcome

namespace Parser

variable {κ : Type} [Counter κ] {α β : Type} {I : Parser κ → Prop} {v : Nat} {p q : Parser κ}
  {s : TokenStream} {o : Outcome α}

/-! ## Running -/

/-- What holds of a parser through all its steps: it asks the lexer, it counts up from below the
limit, and it counts down. -/
class Kept (I : Parser κ → Prop) : Prop where
  ask : ∀ (c : Lexer.Call) (p : Parser κ), I p → I { p with lexer := (p.lexer.call c).2 }
  enter : ∀ p : Parser κ, I p → Counter.value p.nesting < Predicate.nestingLimit → I p.enter
  leave : ∀ p : Parser κ, I p → I p.leave

/-- The parser has the stream `s` in front of it and the value `v` in its counter. -/
structure Stands (I : Parser κ → Prop) (v : Nat) (p : Parser κ) (s : TokenStream) : Prop where
  coherent : p.lexer.Coherent
  stream : p.lexer.stream = s
  nesting : Counter.value p.nesting = v
  kept : I p

/-- The parser returns with the outcome `o`, and its counter is back at `v`. -/
def Gives (I : Parser κ → Prop) (v : Nat) (m : Reading κ α) (p : Parser κ) (o : Outcome α) : Prop :=
  ∃ q, m p = some (o.result, q) ∧ Stands I v q o.rest

omit [Counter κ] in
theorem bind_ok {m : Reading κ α} {next : α → Reading κ β} {a : α}
    (h : m p = some (.ok a, q)) : (m >>= next) p = next a q := by
  show Option.bind (m p) _ = _
  rw [h]
  rfl

omit [Counter κ] in
theorem bind_error {m : Reading κ α} {next : α → Reading κ β} {e : ParseError}
    (h : m p = some (.error e, q)) : (m >>= next) p = some (.error e, q) := by
  show Option.bind (m p) _ = _
  rw [h]
  rfl

theorem Gives.bind {m : Reading κ α} {next : α → Reading κ β}
    {after : α → TokenStream → Outcome β} (h : Gives I v m p o)
    (hnext : ∀ a rest q, o = .ok a rest → Stands I v q rest → Gives I v (next a) q (after a rest)) :
    Gives I v (m >>= next) p (o.bind after) := by
  obtain ⟨q, hm, hq⟩ := h
  cases o with
  | ok a rest =>
    obtain ⟨q', hn, hq'⟩ := hnext a rest q rfl hq
    exact ⟨q', (bind_ok hm).trans hn, hq'⟩
  | error e rest => exact ⟨q, bind_error hm, hq⟩

theorem gives_pure (h : Stands I v p s) (a : α) : Gives I v (pure a) p (.ok a s) := ⟨p, rfl, h⟩

theorem gives_get {next : Parser κ → Reading κ α} (h : Gives I v (next p) p o) :
    Gives I v (get >>= next) p o := by
  obtain ⟨q, hq, hs⟩ := h
  exact ⟨q, hq, hs⟩

/-- A failure at the token that was looked at. -/
theorem gives_fail {t : Token} (error : Token → Nat → ParseError) (h : Stands I v p s)
    (hs : s.head = .ok t) (hstart : p.lexer.tokenStart = s.offset) :
    Gives I v (fail (error t)) p (failAt (α := α) error s) := by
  refine ⟨p, ?_, ?_⟩
  · show some (Except.error (error t p.lexer.tokenStart), p) = _
    rw [hstart]
    cases s with
    | eof | token =>
      cases hs
      rfl
    | failed => cases hs
  · cases s with
    | eof | token => exact h
    | failed => cases hs

theorem Gives.of_failAt {m : Reading κ α} {next : α → Reading κ β}
    {error : Token → Nat → ParseError} (h : Gives I v m p (failAt error s)) :
    Gives I v (m >>= next) p (failAt error s) := by
  obtain ⟨q, hm, hq⟩ := h
  cases s with
  | eof | failed | token => exact ⟨q, bind_error hm, hq⟩

variable [Kept I]

/-! ## Tokens -/

theorem peek_run (h : Stands I v p s) : ∃ q, (peek : Reading κ Token) p =
    some (s.head.mapError .lexical, q) ∧ Stands I v q s ∧ q.lexer.tokenStart = s.offset := by
  obtain ⟨hr, hs, ho, hc⟩ := Lexer.peek_spec h.coherent
  rw [h.stream] at hr hs ho
  refine ⟨{ p with lexer := p.lexer.peek.2 }, ?_, ⟨hc, hs, h.nesting, Kept.ask .peek p h.kept⟩, ho⟩
  rw [← hr]
  rfl

theorem advance_run (h : Stands I v p s) : ∃ q, (advance : Reading κ Token) p =
    some (s.head.mapError .lexical, q) ∧ Stands I v q s.tail ∧
      q.lexer.tokenStart = s.offset := by
  obtain ⟨hr, hs, ho, hn⟩ := Lexer.next_spec h.coherent
  rw [h.stream] at hr hs ho
  refine ⟨{ p with lexer := p.lexer.next.2 }, ?_, ⟨?_, hs, h.nesting, Kept.ask .next p h.kept⟩, ho⟩
  · rw [← hr]
    rfl
  · intro he
    rw [show p.lexer.next.2.peeked = none from hn] at he
    cases he

/-- A look at the next token, which a lexical error cuts short. -/
theorem gives_peek {next : Token → Reading κ α} (h : Stands I v p s)
    (hfailed : ∀ e, s = .failed e → o = .error (.lexical e) s)
    (hnext : ∀ t q, s.head = .ok t → Stands I v q s → q.lexer.tokenStart = s.offset →
      Gives I v (next t) q o) : Gives I v (peek >>= next) p o := by
  obtain ⟨q, hp, hq, hstart⟩ := peek_run h
  cases hs : s.head with
  | ok t =>
    obtain ⟨q', hn, hq'⟩ := hnext t q hs hq hstart
    rw [hs] at hp
    exact ⟨q', (bind_ok hp).trans hn, hq'⟩
  | error e =>
    obtain rfl : s = .failed e := by
      cases s with
      | failed e' =>
        cases hs
        rfl
      | eof | token => cases hs
    rw [hfailed e rfl]
    exact ⟨q, bind_error hp, hq⟩

theorem gives_check {t : Token} {next : Bool → Reading κ α} (h : Stands I v p s)
    (hfailed : ∀ e, s = .failed e → o = .error (.lexical e) s)
    (hnext : ∀ found q, s.head = .ok found → Stands I v q s →
      Gives I v (next (found = t)) q o) : Gives I v (check t >>= next) p o := by
  have hcheck : check t >>= next = peek >>= fun found => next (found = t) := by
    simp only [check, bind_assoc, pure_bind]
  rw [hcheck]
  exact gives_peek h hfailed fun found q hs hq _ => hnext found q hs hq

theorem gives_advance {t : Token} {next : Token → Reading κ α} (h : Stands I v p s)
    (hs : s.head = .ok t)
    (hnext : ∀ q, Stands I v q s.tail → q.lexer.tokenStart = s.offset → Gives I v (next t) q o) :
    Gives I v (advance >>= next) p o := by
  obtain ⟨q, hp, hq, hstart⟩ := advance_run h
  obtain ⟨q', hn, hq'⟩ := hnext q hq hstart
  rw [hs] at hp
  exact ⟨q', (bind_ok hp).trans hn, hq'⟩

theorem gives_expect {t : Token} (ht : ∀ offset, s = .eof offset → t ≠ .eof)
    (h : Stands I v p s) : Gives I v (expect t) p (RecordFilter.expect t s) := by
  refine gives_peek h (fun e he => by rw [he]; rfl) fun found q hs hq hstart => ?_
  by_cases hfound : found = t
  · rw [if_pos hfound]
    refine gives_advance hq hs fun q' hq' _ => ?_
    cases s with
    | failed => cases hs
    | eof =>
      cases hs
      exact absurd hfound.symm (ht _ rfl)
    | token _ offset rest =>
      cases hs
      rw [RecordFilter.expect, if_pos hfound]
      exact gives_pure hq' ()
  · rw [if_neg hfound]
    cases s with
    | failed => cases hs
    | eof offset =>
      cases hs
      exact gives_fail _ hq rfl hstart
    | token _ offset rest =>
      cases hs
      rw [RecordFilter.expect, if_neg hfound]
      exact gives_fail _ hq rfl hstart

/-! ## Conditions -/

theorem gives_operand (h : Stands I v p s) : Gives I v operand p (Predicate.operand.run s) := by
  refine gives_peek h (fun e he => by rw [he]; rfl) fun found q hs hq hstart => ?_
  cases s with
  | failed => cases hs
  | eof offset =>
    cases hs
    exact gives_fail _ hq rfl hstart
  | token _ offset rest =>
    cases hs
    cases ht : Predicate.ofToken? found with
    | none =>
      rw [Predicate.operand_run_of_none ht]
      exact gives_fail _ hq rfl hstart
    | some operand =>
      rw [Predicate.operand_run_of_some ht]
      exact gives_advance hq rfl fun q' hq' _ => gives_pure hq' operand

theorem gives_operandListTail {n : Nat} (items : List Predicate) (h : Stands I v p s)
    (hn : s.size < n) : Gives I v (operandListTail n items) p (Predicate.listTail items s) := by
  induction n generalizing items p s with
  | zero => exact absurd hn (Nat.not_lt_zero _)
  | succ n ih =>
    rw [operandListTail]
    refine gives_check h (fun e he => ?_) fun found q hs hq => ?_
    · rw [he, Predicate.listTail_end items (by nofun)]
      rfl
    · by_cases hfound : found = .comma
      · subst hfound
        cases s with
        | eof | failed => cases hs
        | token _ offset rest =>
          cases hs
          rw [if_pos (decide_eq_true rfl), Predicate.listTail_more]
          refine gives_advance hq rfl fun q' hq' _ => ?_
          refine (gives_operand hq').bind fun operand rest' q'' hrun hq'' => ?_
          have hlt : rest'.size < rest.size := Predicate.operand.consumes hrun
          rw [TokenStream.size] at hn
          exact ih (items ++ [operand]) hq'' (by omega)
      · rw [if_neg (by simpa using hfound), Predicate.listTail_end items]
        · exact (gives_expect (fun _ _ => by nofun) hq).bind fun _ rest q' _ hq' => gives_pure hq' _
        · rintro offset rest rfl
          cases hs
          exact hfound rfl

theorem gives_operandList {n offset : Nat} {rest : TokenStream}
    (h : Stands I v p (.token .leftParen offset rest)) (hn : rest.size < n) :
    Gives I v (operandList n) p (Predicate.listRun (.token .leftParen offset rest)) := by
  rw [Predicate.listRun_leftParen]
  have hparen : RecordFilter.expect .leftParen (.token .leftParen offset rest) = .ok () rest := rfl
  have hlist : (Predicate.operand.run rest).bind (fun first => Predicate.listTail [first]) =
      (RecordFilter.expect .leftParen (.token .leftParen offset rest)).bind fun _ s =>
        (Predicate.operand.run s).bind fun first => Predicate.listTail [first] := by
    rw [hparen]
    rfl
  rw [hlist]
  refine (gives_expect (fun _ _ => by nofun) h).bind fun _ s q hs hq => ?_
  cases hs.symm.trans hparen
  refine (gives_operand hq).bind fun first s' q hrun hq => ?_
  exact gives_operandListTail [first] hq ((Predicate.operand.consumes hrun).trans hn)

theorem gives_candidates {n : Nat} (h : Stands I v p s) (hn : s.size ≤ n) :
    Gives I v (candidates n) p (Predicate.listRun s) := by
  refine gives_check h (fun e he => by rw [he]; rfl) fun found q hs hq => ?_
  cases s with
  | failed => cases hs
  | eof offset =>
    cases hs
    exact gives_operand hq
  | token _ offset rest =>
    cases hs
    by_cases ht : found = .leftParen
    · subst ht
      exact gives_operandList hq hn
    · rw [if_neg (by simpa using ht)]
      have hone : Predicate.listRun (.token found offset rest) =
          Predicate.operand.run (.token found offset rest) := by
        cases found with
        | leftParen => exact absurd rfl ht
        | _ => rfl
      rw [hone]
      exact gives_operand hq

omit [Kept I] in
/-- Nothing behind an operand, or nothing that goes with it. -/
theorem gives_conditionEnd (left : Predicate) {found : Token} (h : Stands I v p s)
    (hs : s.head = .ok found) (hstart : p.lexer.tokenStart = s.offset) :
    Gives I v (match left with
      | .boolean b => pure (Predicate.boolean b)
      | left => fail (.expectedOperator left found)) p (Predicate.conditionEnd left s) := by
  cases left with
  | boolean b => exact gives_pure h (Predicate.boolean b)
  | _ => exact gives_fail _ h hs hstart

theorem gives_condition {n : Nat} (h : Stands I v p s) (hn : s.size ≤ n) :
    Gives I v (condition n) p (Predicate.conditionRun s) := by
  rw [Predicate.conditionRun_eq]
  refine (gives_operand h).bind fun left s' q hrun hq => ?_
  have hlt : s'.size < s.size := Predicate.operand.consumes hrun
  refine gives_peek hq (fun e he => by rw [he]; rfl) fun found q hs hq hstart => ?_
  have hend := gives_conditionEnd left hq hs hstart
  cases s' with
  | failed => cases hs
  | eof offset =>
    cases hs
    rw [Predicate.conditionTail_end left (by nofun) (by nofun) (by nofun)]
    cases left <;> exact hend
  | token _ offset rest =>
    cases hs
    cases found with
    | comparison op =>
      rw [Predicate.conditionTail_comparison]
      refine gives_advance hq rfl fun q hq _ => ?_
      exact (gives_operand hq).bind fun right s q _ hq => gives_pure hq _
    | isIn =>
      rw [Predicate.conditionTail_isIn]
      rw [TokenStream.size] at hlt
      refine gives_advance hq rfl fun q hq _ => ?_
      refine (gives_candidates hq ?_).bind fun right s q _ hq => gives_pure hq _
      show rest.size ≤ n
      omega
    | _ =>
      rw [Predicate.conditionTail_end left (by nofun) (by nofun) (by nofun)]
      cases left <;> exact hend

/-! ## Connectives -/

/-- `item` does on fewer than `n` tokens what the reader `items` does. -/
def Follows (I : Parser κ → Prop) (v n : Nat) (item : Reading κ Predicate)
    (items : Reader Predicate) : Prop :=
  ∀ ⦃p : Parser κ⦄ ⦃s⦄, Stands I v p s → s.size < n → Gives I v item p (items.run s)

theorem gives_joinTail {n steps : Nat} {op : JoinOp} {item : Reading κ Predicate}
    {items : Reader Predicate} (hitem : Follows I v n item items) (left : Predicate)
    (h : Stands I v p s) (hn : s.size ≤ n) (hsteps : s.size < steps) :
    Gives I v (joinTail item op steps left) p (Predicate.joinTail items op left s) := by
  induction steps generalizing left p s with
  | zero => exact absurd hsteps (Nat.not_lt_zero _)
  | succ steps ih =>
    rw [joinTail]
    refine gives_check h (fun e he => ?_) fun found q hs hq => ?_
    · rw [he, Predicate.joinTail_failed]
    · by_cases hfound : found = .join op
      · subst hfound
        cases s with
        | eof | failed => cases hs
        | token _ offset rest =>
          cases hs
          rw [if_pos (decide_eq_true rfl), Predicate.joinTail_more]
          rw [TokenStream.size] at hn hsteps
          refine gives_advance hq rfl fun q' hq' _ => ?_
          refine (hitem hq' hn).bind fun right rest' q'' hrun hq'' => ?_
          have hlt : rest'.size < rest.size := items.consumes hrun
          exact ih (.join op left right) hq'' (by omega) (by omega)
      · rw [if_neg (by simpa using hfound), Predicate.joinTail_end items left]
        · exact gives_pure hq left
        · rintro e rfl
          cases hs
        · rintro offset rest rfl
          cases hs
          exact hfound rfl

theorem Follows.joined {n steps : Nat} {item : Reading κ Predicate} {items : Reader Predicate}
    (hitem : Follows I v n item items) (op : JoinOp) (hsteps : n ≤ steps) :
    Follows I v n (joined item op steps) (Predicate.joined items op) := by
  intro p s h hn
  rw [Parser.joined, Predicate.joined_run]
  refine (hitem h hn).bind fun left s' q hrun hq => ?_
  have hlt : s'.size < s.size := items.consumes hrun
  exact gives_joinTail hitem left hq (by omega) (by omega)

theorem Follows.expressionOf {n steps : Nat} {inner : Reading κ Predicate}
    {clause : Reader Predicate} (hinner : Follows I v n inner clause) (hsteps : n ≤ steps) :
    Follows I v n (expressionOf inner steps) (Predicate.expressionOf clause) :=
  (hinner.joined .and hsteps).joined .or hsteps

/-! ## Clauses -/

theorem gives_nestedClause {n : Nat} {inner : Reading κ Predicate} {clause : Reader Predicate}
    (hinner : Follows I v n inner clause) (h : Stands I v p s) (hn : s.size ≤ n) :
    Gives I v (nestedClause inner n) p (Predicate.clauseRun clause s) := by
  refine gives_check h (fun e he => by rw [he]; rfl) fun found q hs hq => ?_
  by_cases hnot : found = .not
  · subst hnot
    cases s with
    | eof | failed => cases hs
    | token _ offset rest =>
      cases hs
      rw [if_pos (decide_eq_true rfl), Predicate.clauseRun_not]
      refine gives_advance hq rfl fun q hq _ => ?_
      exact (hinner hq hn).bind fun p s q _ hq => gives_pure hq _
  · rw [if_neg (by simpa using hnot)]
    refine gives_check hq (fun e he => by rw [he]; rfl) fun found' q hs' hq => ?_
    obtain rfl : found = found' := Except.ok.inj (hs.symm.trans hs')
    by_cases hparen : found = .leftParen
    · subst hparen
      cases s with
      | eof | failed => cases hs
      | token _ offset rest =>
        cases hs
        rw [if_pos (decide_eq_true rfl), Predicate.clauseRun_leftParen]
        refine gives_advance hq rfl fun q hq _ => ?_
        refine (hinner.expressionOf (Nat.le_refl n) hq hn).bind fun p s q _ hq => ?_
        exact (gives_expect (fun _ _ => by nofun) hq).bind fun _ s q _ hq => gives_pure hq p
    · rw [if_neg (by simpa using hparen), Predicate.clauseRun_condition clause]
      · exact gives_condition hq hn
      · rintro offset rest rfl
        cases hs
        exact hnot rfl
      · rintro offset rest rfl
        cases hs
        exact hparen rfl

/-- Counting up for a clause and down again behind it. -/
theorem gives_counted {nested : Reading κ α} (hv : v < Predicate.nestingLimit)
    (h : Stands I v p s) (hnested : ∀ {p : Parser κ}, Stands I (v + 1) p s →
      Gives I (v + 1) nested p o) : Gives I v (counted nested) p o := by
  have hin : Stands I (v + 1) p.enter s := {
    coherent := h.coherent
    stream := h.stream
    nesting := by
      rw [← h.nesting]
      exact Counter.value_enter p.nesting
    kept := Kept.enter p h.kept (by rw [h.nesting]; exact hv) }
  obtain ⟨q, hq, hs⟩ := hnested hin
  refine ⟨q.leave, ?_, ?_⟩
  · show Option.bind (nested p.enter) _ = _
    rw [hq]
    rfl
  · exact {
      coherent := hs.coherent
      stream := hs.stream
      nesting := by
        show Counter.value (Counter.leave q.nesting) = v
        rw [Counter.value_leave, hs.nesting, Nat.add_sub_cancel]
      kept := Kept.leave q hs.kept }

/-- The counter leaves as many levels as the reader has: both go down by one for each clause. -/
theorem follows_clause {budget : Nat} (hv : v + budget = Predicate.nestingLimit) (n : Nat) :
    Follows I v n (clause n) (Predicate.clause budget) := by
  induction n generalizing v budget with
  | zero =>
    intro p s h hn
    exact absurd hn (Nat.not_lt_zero _)
  | succ n ih =>
    intro p s h hn
    rw [clause]
    cases budget with
    | zero =>
      refine gives_peek h (fun e he => by rw [he]; rfl) fun found q hs hq hstart => gives_get ?_
      have hlimit : Predicate.nestingLimit ≤ Counter.value q.nesting := by
        rw [hq.nesting]
        omega
      rw [if_pos hlimit]
      exact gives_fail (fun _ offset => .tooDeep Predicate.nestingLimit offset) hq hs hstart
    | succ budget =>
      refine gives_peek h (fun e he => by rw [he]; rfl) fun found q hs hq hstart => gives_get ?_
      have hlimit : ¬Predicate.nestingLimit ≤ Counter.value q.nesting := by
        rw [hq.nesting]
        omega
      rw [if_neg hlimit]
      refine gives_counted (by omega) hq fun h => ?_
      exact gives_nestedClause (ih (by omega)) h (Nat.le_of_lt_succ hn)

/-! ## Steps -/

omit [Kept I] in
/-- There are more steps than tokens. -/
theorem size_lt_steps (h : Stands I v p s) : s.size < p.steps := by
  have hle := size_streamFrom_le p.lexer.position p.lexer.rest
  rw [← h.stream, steps]
  cases hp : p.lexer.peeked with
  | none =>
    rw [(Lexer.next_of_peeked_none hp).2]
    omega
  | some t =>
    by_cases ht : t = .eof
    · subst ht
      rw [Lexer.stream_of_peeked_eof hp]
      exact Nat.succ_pos _
    · rw [Lexer.stream_of_peeked hp ht, TokenStream.size]
      omega

/-! ## Calls -/

theorem gives_expression (h : Stands I 0 p s) :
    Gives I 0 expression p (Predicate.expression.run s) := by
  have hclause : Follows I 0 p.steps (clause p.steps) (Predicate.clause Predicate.nestingLimit) :=
    follows_clause (Nat.zero_add _) p.steps
  exact gives_get (hclause.expressionOf (Nat.le_refl _) h (size_lt_steps h))

theorem ne_eof_of_stream {l : Lexer} {t : Token} {offset : Nat} {rest : TokenStream}
    (h : l.stream = .token t offset rest) : t ≠ .eof := by
  cases hp : l.peeked with
  | none =>
    rw [(Lexer.next_of_peeked_none hp).2, streamFrom_eq] at h
    split at h
    · cases h
    · cases h
    · rename_i hs
      cases h
      exact ne_eof_of_scanFront hs
  | some found =>
    by_cases hfound : found = .eof
    · subst hfound
      rw [Lexer.stream_of_peeked_eof hp] at h
      cases h
    · rw [Lexer.stream_of_peeked hp hfound] at h
      cases h
      exact hfound

/-- Behind the end there is nothing to read, and the lexer still stands at it. -/
theorem gives_expect_eof {offset : Nat} {next : Unit → Reading κ α} (h : Stands I v p (.eof offset))
    (hnext : ∀ q, Stands I v q (.eof offset) → q.lexer.tokenStart = offset →
      Gives I v (next ()) q o) : Gives I v (expect .eof >>= next) p o := by
  simp only [expect, bind_assoc]
  refine gives_peek h (by nofun) fun found q hs hq _ => ?_
  cases hs
  rw [if_pos rfl, bind_assoc]
  exact gives_advance hq rfl fun q hq hstart => hnext q hq hstart

theorem gives_parse (h : Stands I 0 p s) :
    Gives I 0 parse p (Predicate.parseStream s) := by
  rw [Predicate.parseStream_eq]
  refine (gives_expression h).bind fun tree s q _ hq => ?_
  cases s with
  | eof offset =>
    refine gives_expect_eof hq fun q hq hstart => ?_
    by_cases hh : tree.height ≤ Predicate.heightLimit
    · rw [if_pos hh, Predicate.parseEnd, if_pos hh]
      exact gives_pure hq tree
    · rw [if_neg hh, Predicate.parseEnd, if_neg hh]
      exact gives_fail (fun _ offset => .tooDeep Predicate.heightLimit offset) hq rfl
        hstart
  | failed e =>
    have hexpect : Gives I 0 (expect .eof) q (failAt (.unexpected .eof) (.failed e)) :=
      gives_expect (by nofun) hq
    exact hexpect.of_failAt
  | token t offset rest =>
    have hexpect : Gives I 0 (expect .eof) q (RecordFilter.expect .eof (.token t offset rest)) :=
      gives_expect (by nofun) hq
    rw [RecordFilter.expect, if_neg (ne_eof_of_stream hq.stream)] at hexpect
    exact hexpect.of_failAt

/-- The outcome of a call for the stream in front of the parser. -/
def Call.read : Call → TokenStream → Outcome Predicate
  | .expression => Predicate.expression.run
  | .parse => Predicate.parseStream

theorem gives_call (c : Call) (h : Stands I 0 p s) :
    Gives I 0 (call c) p (c.read s) := by
  cases c with
  | expression => exact gives_expression h
  | parse => exact gives_parse h

end Parser

end RecordFilter
