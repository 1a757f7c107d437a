import RecordFilter.Proofs.Parser.Equations
import RecordFilter.Proofs.Token.Lookahead

/-!
# What readers see

A reader never looks behind the token that it stands at, and of the offsets it only makes offsets.
So further back in a text everything is the same but for the offsets, which all move; and an error
is always about the token that the reader has left in place.

    streamFrom (k + n) cs = (streamFrom n cs).shift k                         (streamFrom_shift)
    parseStream (s.shift k) = (parseStream s).shift k                      (regular_parseStream)
    parseStream s = .error e rest → e.About rest                           (regular_parseStream)
-/

namespace RecordFilter

/-! ## Moving offsets -/

def LexError.shift (k : Nat) : LexError → LexError
  | unexpectedChar c offset => unexpectedChar c (k + offset)
  | invalidNumber text offset => invalidNumber text (k + offset)

/-- The error of the same text behind `k` more characters. -/
def ParseError.shift (k : Nat) : ParseError → ParseError
  | lexical e => lexical (e.shift k)
  | unexpected expected found offset => unexpected expected found (k + offset)
  | expectedOperand found offset => expectedOperand found (k + offset)
  | expectedOperator operand found offset => expectedOperator operand found (k + offset)
  | tooDeep limit offset => tooDeep limit (k + offset)

/-- The tokens of the same text behind `k` more characters. -/
def TokenStream.shift (k : Nat) : TokenStream → TokenStream
  | eof offset => eof (k + offset)
  | failed e => failed (e.shift k)
  | token t offset rest => token t (k + offset) (rest.shift k)

def Scan.shift (k : Nat) : Scan → Scan
  | eof => eof
  | token t l => token t l
  | failed e => failed (e.shift k)

theorem scanFront_shift (k start : Nat) (cs : List Char) :
    scanFront (k + start) cs = (scanFront start cs).shift k := by
  unfold scanFront
  split
  · rfl
  · split
    · rfl
    · split <;> rfl

theorem length_rest_lt_of_scanFront {start : Nat} {cs : List Char} {t : Token} {l : Lexeme}
    (h : scanFront start (cs.dropWhile isGap) = .token t l) : l.rest.length < cs.length := by
  obtain ⟨hne, hbegins⟩ := begins_of_scanFront h
  have hle := (List.dropWhile_sublist (l := cs) isGap).length_le
  have hpos := List.length_pos_iff.2 hne
  rw [← hbegins, List.length_append] at hle
  omega

theorem streamFrom_shift (k position : Nat) (cs : List Char) :
    streamFrom (k + position) cs = (streamFrom position cs).shift k := by
  induction hn : cs.length using Nat.strong_induction_on generalizing position cs with
  | _ n ih =>
    rw [streamFrom_eq, streamFrom_eq position, Nat.add_assoc, scanFront_shift]
    cases hs : scanFront (position + (cs.takeWhile isGap).length) (cs.dropWhile isGap) with
    | eof | failed => rfl
    | token t l =>
      have hlt := length_rest_lt_of_scanFront hs
      simp only [Scan.shift, TokenStream.shift, Nat.add_assoc]
      rw [ih _ (hn ▸ hlt) _ _ rfl]

/-- Every token has a character. -/
theorem size_streamFrom_le (position : Nat) (cs : List Char) :
    (streamFrom position cs).size ≤ cs.length := by
  induction hn : cs.length using Nat.strong_induction_on generalizing position cs with
  | _ n ih =>
    rw [streamFrom_eq]
    cases hs : scanFront (position + (cs.takeWhile isGap).length) (cs.dropWhile isGap) with
    | eof | failed => exact Nat.zero_le n
    | token t l =>
      have hlt := length_rest_lt_of_scanFront hs
      rw [hn] at hlt
      exact Nat.lt_of_le_of_lt (ih _ hlt _ _ rfl) hlt

/-! ## Errors and what they are about -/

/-- What an error says comes next: the token that was found, or the same lexical error. -/
def ParseError.Names (r : Except LexError Token) : ParseError → Prop
  | lexical e => r = .error e
  | unexpected _ found _ => r = .ok found
  | expectedOperand found _ => r = .ok found
  | expectedOperator _ found _ => r = .ok found
  | tooDeep _ _ => ∃ t, r = .ok t

/-- The error is about what comes first. -/
def ParseError.About (e : ParseError) (s : TokenStream) : Prop :=
  s.offset = e.offset ∧ e.Names s.head

namespace Outcome

variable {α β : Type}

def shift (k : Nat) : Outcome α → Outcome α
  | ok a rest => ok a (rest.shift k)
  | error e rest => error (e.shift k) (rest.shift k)

/-- An error is about the token that is left in front. -/
def Faithful : Outcome α → Prop
  | ok _ _ => True
  | error e rest => e.About rest

end Outcome

/-- Moving the stream moves the outcome, and errors are about what is left in front. -/
def RegularAt {α : Type} (read : TokenStream → Outcome α) (k : Nat) (s : TokenStream) : Prop :=
  read (s.shift k) = (read s).shift k ∧ (read s).Faithful

def Regular {α : Type} (read : TokenStream → Outcome α) : Prop := ∀ k s, RegularAt read k s

variable {α β : Type} {k : Nat} {s : TokenStream}

theorem RegularAt.of_eq {read other : TokenStream → Outcome α} {s' : TokenStream}
    (h : RegularAt other k s') (hs : read s = other s')
    (hshift : read (s.shift k) = other (s'.shift k)) : RegularAt read k s := by
  unfold RegularAt
  rw [hs, hshift]
  exact h

theorem RegularAt.bind {read : TokenStream → Outcome α} {next : α → TokenStream → Outcome β}
    (h : RegularAt read k s) (hnext : ∀ a rest, read s = .ok a rest → RegularAt (next a) k rest) :
    RegularAt (fun s => (read s).bind next) k s := by
  obtain ⟨hshift, hfaithful⟩ := h
  show (read (s.shift k)).bind next = ((read s).bind next).shift k ∧ ((read s).bind next).Faithful
  rw [hshift]
  cases hs : read s with
  | ok a rest => exact hnext a rest hs
  | error e rest =>
    rw [hs] at hfaithful
    exact ⟨rfl, hfaithful⟩

theorem Regular.bind {read : TokenStream → Outcome α} {next : α → TokenStream → Outcome β}
    (h : Regular read) (hnext : ∀ a, Regular (next a)) :
    Regular fun s => (read s).bind next :=
  fun k s => (h k s).bind fun a rest _ => hnext a k rest

theorem regular_ok (a : α) : Regular (.ok a) := fun _ _ => ⟨rfl, trivial⟩

/-- An error that is told the first token and its offset, and says so. -/
theorem regular_failAt {error : Token → Nat → ParseError}
    (hshift : ∀ k t offset, error t (k + offset) = (error t offset).shift k)
    (hoffset : ∀ t offset, (error t offset).offset = offset)
    (hnames : ∀ t offset, (error t offset).Names (.ok t)) : Regular (failAt (α := α) error) := by
  intro k s
  cases s with
  | failed e => exact ⟨rfl, rfl, rfl⟩
  | eof offset =>
    refine ⟨?_, (hoffset _ _).symm, hnames _ _⟩
    simp only [failAt, TokenStream.shift, Outcome.shift, hshift]
  | token t offset rest =>
    refine ⟨?_, (hoffset _ _).symm, hnames _ _⟩
    simp only [failAt, TokenStream.shift, Outcome.shift, hshift]

theorem regular_expect (t : Token) : Regular (expect t) := by
  have hfail : Regular (failAt (α := Unit) (.unexpected t)) :=
    regular_failAt (fun _ _ _ => rfl) (fun _ _ => rfl) (fun _ _ => rfl)
  intro k s
  cases s with
  | eof offset => exact (hfail k (.eof offset)).of_eq rfl rfl
  | failed e => exact (hfail k (.failed e)).of_eq rfl rfl
  | token found offset rest =>
    by_cases hfound : found = t
    · exact (regular_ok () k rest).of_eq (if_pos hfound) (if_pos hfound)
    · exact (hfail k (.token found offset rest)).of_eq (if_neg hfound) (if_neg hfound)

namespace Predicate

/-! ## Conditions -/

theorem regular_operand : Regular operand.run := by
  have hfail : Regular (failAt (α := Predicate) .expectedOperand) :=
    regular_failAt (fun _ _ _ => rfl) (fun _ _ => rfl) (fun _ _ => rfl)
  intro k s
  cases s with
  | eof offset => exact (hfail k (.eof offset)).of_eq rfl rfl
  | failed e => exact (hfail k (.failed e)).of_eq rfl rfl
  | token t offset rest =>
    cases ht : ofToken? t with
    | some p =>
      exact (regular_ok p k rest).of_eq (operand_run_of_some ht _ _) (operand_run_of_some ht _ _)
    | none =>
      exact (hfail k (.token t offset rest)).of_eq (operand_run_of_none ht _ _)
        (operand_run_of_none ht _ _)

theorem regular_listTail (items : List Predicate) : Regular (listTail items) := by
  intro k s
  induction hn : s.size using Nat.strong_induction_on generalizing items s with
  | _ n ih =>
    have hend := (regular_expect .rightParen).bind (fun _ => regular_ok (list items)) k s
    cases s with
    | eof | failed => exact hend.of_eq (listTail_end items nofun) (listTail_end items nofun)
    | token t offset rest =>
      by_cases ht : t = .comma
      · subst ht
        have hmore := (regular_operand k rest).bind fun p rest' hp => by
          have hlt : rest'.size < n := by
            have hconsumes := operand.consumes hp
            rw [← hn, TokenStream.size]
            omega
          exact ih _ hlt (items ++ [p]) rest' rfl
        exact hmore.of_eq (listTail_more _ _ _) (listTail_more _ _ _)
      · refine hend.of_eq (listTail_end items ?_) (listTail_end items ?_)
        · rintro _ _ ⟨⟩
          exact ht rfl
        · rintro _ _ ⟨⟩
          exact ht rfl

theorem regular_listRun : Regular listRun := by
  intro k s
  cases s with
  | eof offset => exact (regular_operand k (.eof offset)).of_eq rfl rfl
  | failed e => exact (regular_operand k (.failed e)).of_eq rfl rfl
  | token t offset rest =>
    have hone := regular_operand k (.token t offset rest)
    cases t with
    | leftParen =>
      exact (regular_operand.bind (fun p => regular_listTail [p]) k rest).of_eq
        (listRun_leftParen _ _) (listRun_leftParen _ _)
    | _ => exact hone.of_eq rfl rfl

theorem regular_conditionEnd (left : Predicate) : Regular (conditionEnd left) := by
  cases left with
  | boolean b => exact regular_ok (boolean b)
  | _ => exact regular_failAt (fun _ _ _ => rfl) (fun _ _ => rfl) (fun _ _ => rfl)

theorem regular_conditionTail (left : Predicate) : Regular (conditionTail left) := by
  intro k s
  have hend := regular_conditionEnd left k s
  cases s with
  | failed e => exact ⟨rfl, rfl, rfl⟩
  | eof offset =>
    exact hend.of_eq (conditionTail_end left nofun nofun nofun)
      (conditionTail_end left nofun nofun nofun)
  | token t offset rest =>
    cases t with
    | comparison op =>
      exact (regular_operand.bind (fun right => regular_ok (compare op left right)) k rest).of_eq
        (conditionTail_comparison _ _ _ _) (conditionTail_comparison _ _ _ _)
    | isIn =>
      exact (regular_listRun.bind (fun right => regular_ok (membership left right)) k rest).of_eq
        (conditionTail_isIn _ _ _) (conditionTail_isIn _ _ _)
    | _ =>
      exact hend.of_eq (conditionTail_end left nofun nofun nofun)
        (conditionTail_end left nofun nofun nofun)

theorem regular_conditionRun : Regular conditionRun := by
  intro k s
  exact (regular_operand.bind regular_conditionTail k s).of_eq (conditionRun_eq _)
    (conditionRun_eq _)

/-! ## Connectives -/

theorem regular_joinTail {item : Reader Predicate} (hitem : Regular item.run) (op : JoinOp)
    (left : Predicate) : Regular (joinTail item op left) := by
  intro k s
  induction hn : s.size using Nat.strong_induction_on generalizing left s with
  | _ n ih =>
    have hend := regular_ok left k s
    cases s with
    | failed e =>
      unfold RegularAt
      rw [TokenStream.shift, joinTail_failed, joinTail_failed]
      exact ⟨rfl, rfl, rfl⟩
    | eof offset =>
      exact hend.of_eq (joinTail_end item left nofun nofun) (joinTail_end item left nofun nofun)
    | token t offset rest =>
      by_cases ht : t = .join op
      · subst ht
        have hmore := (hitem k rest).bind fun right rest' hr => by
          have hlt : rest'.size < n := by
            have hconsumes := item.consumes hr
            rw [← hn, TokenStream.size]
            omega
          exact ih _ hlt (join op left right) rest' rfl
        exact hmore.of_eq (joinTail_more _ _ _ _ _) (joinTail_more _ _ _ _ _)
      · refine hend.of_eq (joinTail_end item left nofun ?_) (joinTail_end item left nofun ?_)
        · rintro _ _ ⟨⟩
          exact ht rfl
        · rintro _ _ ⟨⟩
          exact ht rfl

theorem regular_joined {item : Reader Predicate} (hitem : Regular item.run) (op : JoinOp) :
    Regular (joined item op).run := by
  intro k s
  exact (hitem.bind (regular_joinTail hitem op) k s).of_eq (joined_run _ _ _) (joined_run _ _ _)

theorem regular_expressionOf {inner : Reader Predicate} (h : Regular inner.run) :
    Regular (expressionOf inner).run :=
  regular_joined (regular_joined h .and) .or

/-! ## Clauses -/

theorem regular_clauseRun {inner : Reader Predicate} (h : Regular inner.run) :
    Regular (clauseRun inner) := by
  intro k s
  have hcondition := regular_conditionRun k s
  cases s with
  | eof | failed =>
    exact hcondition.of_eq (clauseRun_condition inner nofun nofun)
      (clauseRun_condition inner nofun nofun)
  | token t offset rest =>
    cases t with
    | not =>
      exact (h.bind (fun p => regular_ok (not p)) k rest).of_eq (clauseRun_not _ _ _)
        (clauseRun_not _ _ _)
    | leftParen =>
      have hclosed : ∀ p : Predicate, Regular fun s => (expect .rightParen s).bind fun _ => .ok p :=
        fun p => (regular_expect .rightParen).bind fun _ => regular_ok p
      exact ((regular_expressionOf h).bind hclosed k rest).of_eq (clauseRun_leftParen _ _ _)
        (clauseRun_leftParen _ _ _)
    | _ =>
      exact hcondition.of_eq (clauseRun_condition inner nofun nofun)
        (clauseRun_condition inner nofun nofun)

/-- Being too deep says nothing of the token that is found, but there is one. -/
theorem regular_tooDeep (limit : Nat) :
    Regular (failAt (α := Predicate) fun _ offset => .tooDeep limit offset) :=
  regular_failAt (fun _ _ _ => rfl) (fun _ _ => rfl) fun t _ => ⟨t, rfl⟩

theorem regular_clause (budget : Nat) : Regular (clause budget).run := by
  induction budget with
  | zero => exact regular_tooDeep nestingLimit
  | succ budget ih => exact regular_clauseRun ih

theorem regular_expression : Regular expression.run :=
  regular_expressionOf (regular_clause nestingLimit)

/-! ## Whole texts -/

theorem regular_parseEnd (p : Predicate) : Regular (parseEnd p) := by
  have hfail : Regular (failAt (α := Predicate) (.unexpected .eof)) :=
    regular_failAt (fun _ _ _ => rfl) (fun _ _ => rfl) (fun _ _ => rfl)
  intro k s
  cases s with
  | eof offset =>
    by_cases hh : p.height ≤ heightLimit
    · exact (regular_ok p k (.eof offset)).of_eq (if_pos hh) (if_pos hh)
    · exact (regular_tooDeep heightLimit k (.eof offset)).of_eq (if_neg hh) (if_neg hh)
  | failed e => exact (hfail k (.failed e)).of_eq rfl rfl
  | token t offset rest => exact (hfail k (.token t offset rest)).of_eq rfl rfl

theorem regular_parseStream : Regular parseStream := by
  intro k s
  exact (regular_expression.bind regular_parseEnd k s).of_eq (parseStream_eq _) (parseStream_eq _)

end Predicate

end RecordFilter
