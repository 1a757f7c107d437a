import RecordFilter.Predicate.Parser

/-!
# Readers by their first token

What each reader does with the token in front of it, and how it goes on behind what it has read.

    listTail items (.token .comma _ s) = (operand.run s).bind fun p => listTail (items ++ [p])
                                                                               (listTail_more)
    (joined item op).run s = (item.run s).bind (joinTail item op)                 (joined_run)
    parseStream s = (expression.run s).bind parseEnd                         (parseStream_eq)
-/

namespace RecordFilter

/-- Goes on behind a success. -/
def Outcome.bind {α β : Type} (o : Outcome α) (next : α → TokenStream → Outcome β) : Outcome β :=
  match o with
  | ok a rest => next a rest
  | error e rest => error e rest

namespace Predicate

/-! ## Conditions -/

theorem operand_run_of_some {t : Token} {p : Predicate} (h : ofToken? t = some p) (offset : Nat)
    (rest : TokenStream) : operand.run (.token t offset rest) = .ok p rest := by
  simp only [operand, operandRun, h]

theorem operand_run_of_none {t : Token} (h : ofToken? t = none) (offset : Nat)
    (rest : TokenStream) : operand.run (.token t offset rest) =
      failAt .expectedOperand (.token t offset rest) := by
  simp only [operand, operandRun, h]

theorem listTail_more (items : List Predicate) (offset : Nat) (rest : TokenStream) :
    listTail items (.token .comma offset rest) =
      (operand.run rest).bind fun p => listTail (items ++ [p]) := by
  rw [listTail]
  split
  all_goals
    rename_i heq
    rw [heq]
    rfl

theorem listTail_end {s : TokenStream} (items : List Predicate)
    (hs : ∀ offset rest, s ≠ .token .comma offset rest) :
    listTail items s = (expect .rightParen s).bind fun _ => .ok (list items) := by
  rw [listTail]
  · split
    all_goals
      rename_i heq
      rw [heq]
      rfl
  · exact hs

theorem listRun_leftParen (offset : Nat) (rest : TokenStream) :
    listRun (.token .leftParen offset rest) =
      (operand.run rest).bind fun p => listTail [p] := by
  simp only [listRun]
  cases operand.run rest <;> rfl

theorem conditionTail_comparison (left : Predicate) (op : CompareOp) (offset : Nat)
    (rest : TokenStream) : conditionTail left (.token (.comparison op) offset rest) =
      (operand.run rest).bind fun right => .ok (compare op left right) := by
  simp only [conditionTail]
  cases operand.run rest <;> rfl

theorem conditionTail_isIn (left : Predicate) (offset : Nat) (rest : TokenStream) :
    conditionTail left (.token .isIn offset rest) =
      (listRun rest).bind fun candidates => .ok (membership left candidates) := by
  simp only [conditionTail]
  cases listRun rest <;> rfl

/-- What an operand is by itself. -/
def conditionEnd (left : Predicate) (s : TokenStream) : Outcome Predicate :=
  match left with
  | boolean b => .ok (boolean b) s
  | left => failAt (.expectedOperator left) s

theorem conditionTail_end {s : TokenStream} (left : Predicate) (hfailed : ∀ e, s ≠ .failed e)
    (hcomparison : ∀ op offset rest, s ≠ .token (.comparison op) offset rest)
    (hisIn : ∀ offset rest, s ≠ .token .isIn offset rest) :
    conditionTail left s = conditionEnd left s := by
  cases s with
  | failed e => exact absurd rfl (hfailed e)
  | eof offset => cases left <;> rfl
  | token t offset rest =>
    cases t with
    | comparison op => exact absurd rfl (hcomparison op offset rest)
    | isIn => exact absurd rfl (hisIn offset rest)
    | _ => cases left <;> rfl

theorem conditionRun_eq (s : TokenStream) :
    conditionRun s = (operand.run s).bind conditionTail := by
  simp only [conditionRun]
  cases operand.run s <;> rfl

/-! ## Connectives -/

theorem joinTail_more (item : Reader Predicate) (op : JoinOp) (left : Predicate) (offset : Nat)
    (rest : TokenStream) : joinTail item op left (.token (.join op) offset rest) =
      (item.run rest).bind fun right => joinTail item op (join op left right) := by
  rw [joinTail, if_pos rfl]
  split
  all_goals
    rename_i heq
    rw [heq]
    rfl

theorem joinTail_end {s : TokenStream} (item : Reader Predicate) {op : JoinOp} (left : Predicate)
    (hfailed : ∀ e, s ≠ .failed e) (hop : ∀ offset rest, s ≠ .token (.join op) offset rest) :
    joinTail item op left s = .ok left s := by
  rw [joinTail.eq_def]
  split
  · rename_i found offset rest
    rw [if_neg]
    rintro rfl
    exact hop offset rest rfl
  · exact absurd rfl (hfailed _)
  · rfl

theorem joinTail_failed (item : Reader Predicate) (op : JoinOp) (left : Predicate) (e : LexError) :
    joinTail item op left (.failed e) = .error (.lexical e) (.failed e) := by
  rw [joinTail]

theorem joined_run (item : Reader Predicate) (op : JoinOp) (s : TokenStream) :
    (joined item op).run s = (item.run s).bind (joinTail item op) := by
  simp only [joined]
  cases item.run s <;> rfl

/-! ## Clauses -/

theorem clauseRun_not (inner : Reader Predicate) (offset : Nat) (rest : TokenStream) :
    clauseRun inner (.token .not offset rest) =
      (inner.run rest).bind fun p => .ok (not p) := by
  simp only [clauseRun]
  cases inner.run rest <;> rfl

theorem clauseRun_leftParen (inner : Reader Predicate) (offset : Nat) (rest : TokenStream) :
    clauseRun inner (.token .leftParen offset rest) =
      ((expressionOf inner).run rest).bind fun p s =>
        (expect .rightParen s).bind fun _ => .ok p := by
  simp only [clauseRun]
  cases (expressionOf inner).run rest with
  | ok p rest' => cases h : expect .rightParen rest' <;> simp only [Outcome.bind, h]
  | error e rest' => rfl

theorem clauseRun_condition {s : TokenStream} (inner : Reader Predicate)
    (hnot : ∀ offset rest, s ≠ .token .not offset rest)
    (hparen : ∀ offset rest, s ≠ .token .leftParen offset rest) :
    clauseRun inner s = conditionRun s := by
  cases s with
  | eof | failed => rfl
  | token t offset rest =>
    cases t with
    | not => exact absurd rfl (hnot offset rest)
    | leftParen => exact absurd rfl (hparen offset rest)
    | _ => rfl

/-! ## Whole texts -/

/-- What comes behind the expression of a whole text. -/
def parseEnd (p : Predicate) (s : TokenStream) : Outcome Predicate :=
  match s with
  | .eof offset =>
    if p.height ≤ heightLimit then .ok p s else .error (.tooDeep heightLimit offset) s
  | _ => failAt (.unexpected .eof) s

theorem parseStream_eq (s : TokenStream) : parseStream s = (expression.run s).bind parseEnd := by
  simp only [parseStream]
  cases expression.run s <;> rfl

end Predicate

end RecordFilter
