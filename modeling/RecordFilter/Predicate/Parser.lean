import RecordFilter.Predicate.Printer
import RecordFilter.Token.Lexer

/-!
# Parsing expressions

    expression := conjunction { '|' conjunction }
    conjunction := clause { '&' clause }
    clause := 'not' clause | '(' expression ')' | condition
    condition := boolean | operand comparison operand | operand 'in' list
    list := operand | '(' operand { ',' operand } ')'

A `Reader` takes what it reads off a stream of tokens and is smaller for it; on a
failure the stream is left at the token that is at fault.  Clauses are nested at
most `nestingLimit` deep, and `Predicate.parse` refuses trees higher than
`heightLimit`.
-/

namespace RecordFilter

/-- Why a text is not an expression. -/
inductive ParseError
  | lexical (e : LexError)
  | unexpected (expected found : Token) (offset : Nat)
  | expectedOperand (found : Token) (offset : Nat)
  | expectedOperator (operand : Predicate) (found : Token) (offset : Nat)
  | tooDeep (limit offset : Nat)

namespace ParseError

def offset : ParseError → Nat
  | lexical e => e.offset
  | unexpected _ _ offset => offset
  | expectedOperand _ offset => offset
  | expectedOperator _ _ offset => offset
  | tooDeep _ offset => offset

def message : ParseError → String
  | lexical e => e.message
  | unexpected expected found offset =>
    "expected " ++ expected.text ++ ", got " ++ found.text ++ " at position " ++ toString offset
  | expectedOperand found offset =>
    "expected an operand, got " ++ found.text ++ " at position " ++ toString offset
  | expectedOperator operand found offset =>
    "expected a comparison or 'in' after " ++ operand.text ++ ", got " ++ found.text
      ++ " at position " ++ toString offset
  | tooDeep limit offset =>
    "expression nested deeper than " ++ toString limit ++ " levels at position " ++ toString offset

end ParseError

/-! ## Readers -/

/-- What a reader makes of a stream: a result and the stream behind it, or an error and the stream
from the token at fault on. -/
inductive Outcome (α : Type) where
  | ok (a : α) (rest : TokenStream)
  | error (e : ParseError) (rest : TokenStream)

/-- A step of the parser, which takes at least one token off the stream when it succeeds. -/
structure Reader (α : Type) where
  run : TokenStream → Outcome α
  consumes : ∀ {s a rest}, run s = .ok a rest → rest.size < s.size

/-- Fails at the first token of a stream; a lexical error there wins. -/
def failAt {α : Type} (error : Token → Nat → ParseError) (s : TokenStream) : Outcome α :=
  match s with
  | .eof offset => .error (error .eof offset) s
  | .failed e => .error (.lexical e) s
  | .token t offset _ => .error (error t offset) s

theorem failAt_ne_ok {α : Type} {error : Token → Nat → ParseError} {s rest : TokenStream} {a : α} :
    failAt error s ≠ .ok a rest := by
  unfold failAt; split <;> simp

/-- Takes a given token off the stream. -/
def expect (t : Token) (s : TokenStream) : Outcome Unit :=
  match s with
  | .token found _ rest => if found = t then .ok () rest else failAt (.unexpected t) s
  | _ => failAt (.unexpected t) s

theorem expect_consumes {t : Token} {s rest : TokenStream} {a : Unit}
    (h : expect t s = .ok a rest) : rest.size < s.size := by
  simp only [expect] at h
  split at h
  · split at h
    · cases h; simp [TokenStream.size]
    · exact absurd h failAt_ne_ok
  · exact absurd h failAt_ne_ok

namespace Predicate

/-! ## Operands -/

/-- The operand that a token stands for. -/
def ofToken? : Token → Option Predicate
  | .field name => some (field name)
  | .var raw => some (var raw)
  | .string s => some (string s)
  | .integer n => some (integer n)
  | .float x => some (float x)
  | .boolean b => some (boolean b)
  | .null => some null
  | _ => none

def operandRun (s : TokenStream) : Outcome Predicate :=
  match s with
  | .token t _ rest =>
    match ofToken? t with
    | some p => .ok p rest
    | none => failAt .expectedOperand s
  | _ => failAt .expectedOperand s

/-- A field, a variable or a constant. -/
def operand : Reader Predicate where
  run := operandRun
  consumes h := by
    simp only [operandRun] at h
    split at h
    · split at h
      · cases h; simp [TokenStream.size]
      · exact absurd h failAt_ne_ok
    · exact absurd h failAt_ne_ok

/-- The operands behind commas, up to the closing parenthesis; `items` are those already read. -/
def listTail (items : List Predicate) (s : TokenStream) : Outcome Predicate :=
  match s with
  | .token .comma _ rest =>
    match _h : operand.run rest with
    | .ok p rest' => listTail (items ++ [p]) rest'
    | .error e rest' => .error e rest'
  | _ =>
    match expect .rightParen s with
    | .ok _ rest => .ok (list items) rest
    | .error e rest => .error e rest
termination_by s.size
decreasing_by
  have := operand.consumes _h
  simp only [TokenStream.size]
  omega

theorem listTail_consumes {items : List Predicate} {s rest : TokenStream} {p : Predicate}
    (h : listTail items s = .ok p rest) : rest.size < s.size := by
  fun_induction listTail items s with
  | case1 items _ rest₁ q rest₂ hq ih =>
    have := operand.consumes hq
    have := ih h
    simp only [TokenStream.size]
    omega
  | case2 => simp at h
  | case3 =>
    rename_i he _
    rw [he] at h
    cases h
    exact expect_consumes he
  | case4 =>
    rename_i he _
    rw [he] at h
    simp at h

/-- What may follow `in`: one operand, or some in parentheses. -/
def listRun (s : TokenStream) : Outcome Predicate :=
  match s with
  | .token .leftParen _ rest =>
    match operand.run rest with
    | .ok p rest' => listTail [p] rest'
    | .error e rest' => .error e rest'
  | _ => operand.run s

theorem listRun_consumes {s rest : TokenStream} {p : Predicate} (h : listRun s = .ok p rest) :
    rest.size < s.size := by
  simp only [listRun] at h
  split at h
  · split at h
    · rename_i hp
      have := operand.consumes hp
      have := listTail_consumes h
      simp only [TokenStream.size]
      omega
    · simp at h
  · exact operand.consumes h

/-! ## Conditions -/

/-- What may follow an operand: a comparison, `in`, or nothing behind a boolean. -/
def conditionTail (left : Predicate) (s : TokenStream) : Outcome Predicate :=
  match s, left with
  | .token (.comparison op) _ rest, _ =>
    match operand.run rest with
    | .ok right rest' => .ok (compare op left right) rest'
    | .error e rest' => .error e rest'
  | .token .isIn _ rest, _ =>
    match listRun rest with
    | .ok candidates rest' => .ok (membership left candidates) rest'
    | .error e rest' => .error e rest'
  | .failed e, _ => .error (.lexical e) s
  | s, boolean b => .ok (boolean b) s
  | s, left => failAt (.expectedOperator left) s

theorem conditionTail_consumes {left p : Predicate} {s rest : TokenStream}
    (h : conditionTail left s = .ok p rest) : rest.size ≤ s.size := by
  simp only [conditionTail] at h
  split at h
  · split at h
    · rename_i hr
      cases h
      have := operand.consumes hr
      simp only [TokenStream.size]; omega
    · simp at h
  · split at h
    · rename_i hr
      cases h
      have := listRun_consumes hr
      simp only [TokenStream.size]; omega
    · simp at h
  · simp at h
  · cases h; exact Nat.le_refl _
  · exact absurd h failAt_ne_ok

/-- A comparison, a membership or a boolean. -/
def conditionRun (s : TokenStream) : Outcome Predicate :=
  match operand.run s with
  | .ok left rest => conditionTail left rest
  | .error e rest => .error e rest

theorem conditionRun_consumes {s rest : TokenStream} {p : Predicate}
    (h : conditionRun s = .ok p rest) : rest.size < s.size := by
  simp only [conditionRun] at h
  split at h
  · rename_i hl
    exact Nat.lt_of_le_of_lt (conditionTail_consumes h) (operand.consumes hl)
  · simp at h

/-! ## Connectives -/

/-- The items behind connectives `op`, joined to what was read before, the leftmost innermost. -/
def joinTail (item : Reader Predicate) (op : JoinOp) (left : Predicate) (s : TokenStream) :
    Outcome Predicate :=
  match s with
  | .token (.join found) _ rest =>
    if found = op then
      match _h : item.run rest with
      | .ok right rest' => joinTail item op (join op left right) rest'
      | .error e rest' => .error e rest'
    else .ok left s
  | .failed e => .error (.lexical e) s
  | _ => .ok left s
termination_by s.size
decreasing_by
  have := item.consumes _h
  simp only [TokenStream.size]
  omega

theorem joinTail_consumes {item : Reader Predicate} {op : JoinOp} {left p : Predicate}
    {s rest : TokenStream} (h : joinTail item op left s = .ok p rest) : rest.size ≤ s.size := by
  fun_induction joinTail item op left s with
  | case1 left offset rest₁ right rest₂ hr ih =>
    have := item.consumes hr
    have := ih h
    simp only [TokenStream.size]
    omega
  | case2 => simp at h
  | case3 => cases h; exact Nat.le_refl _
  | case4 => simp at h
  | case5 => cases h; exact Nat.le_refl _

/-- Items with connectives `op` between them. -/
def joined (item : Reader Predicate) (op : JoinOp) : Reader Predicate where
  run s :=
    match item.run s with
    | .ok left rest => joinTail item op left rest
    | .error e rest => .error e rest
  consumes h := by
    split at h
    · rename_i hl
      exact Nat.lt_of_le_of_lt (joinTail_consumes h) (item.consumes hl)
    · simp at h

/-- An expression made of clauses; `&` binds tighter than `|`. -/
def expressionOf (clause : Reader Predicate) : Reader Predicate := joined (joined clause .and) .or

/-! ## Clauses -/

/-- A clause, given how clauses one level further in are read. -/
def clauseRun (inner : Reader Predicate) (s : TokenStream) : Outcome Predicate :=
  match s with
  | .token .not _ rest =>
    match inner.run rest with
    | .ok p rest' => .ok (not p) rest'
    | .error e rest' => .error e rest'
  | .token .leftParen _ rest =>
    match (expressionOf inner).run rest with
    | .ok p rest' =>
      match expect .rightParen rest' with
      | .ok _ rest'' => .ok p rest''
      | .error e rest'' => .error e rest''
    | .error e rest' => .error e rest'
  | s => conditionRun s

theorem clauseRun_consumes {inner : Reader Predicate} {s rest : TokenStream} {p : Predicate}
    (h : clauseRun inner s = .ok p rest) : rest.size < s.size := by
  simp only [clauseRun] at h
  split at h
  · split at h
    · rename_i hr
      cases h
      have := inner.consumes hr
      simp only [TokenStream.size]; omega
    · simp at h
  · split at h
    · rename_i hp
      split at h
      · rename_i he
        cases h
        have := (expressionOf inner).consumes hp
        have := expect_consumes he
        simp only [TokenStream.size]; omega
      · simp at h
    · simp at h
  · exact conditionRun_consumes h

/-- How deep parentheses and `not` may be nested. -/
def nestingLimit : Nat := 100

/-- How high a tree may be. -/
def heightLimit : Nat := 1000

/-- A clause that may open so many more levels of parentheses and `not`. -/
def clause : Nat → Reader Predicate
  | 0 => ⟨failAt fun _ offset => .tooDeep nestingLimit offset, fun h => absurd h failAt_ne_ok⟩
  | budget + 1 => ⟨clauseRun (clause budget), clauseRun_consumes⟩

/-- An expression. -/
def expression : Reader Predicate := expressionOf (clause nestingLimit)

/-! ## Whole texts -/

/-- Reads an expression that ends its stream and is not too high. -/
def parseStream (s : TokenStream) : Outcome Predicate :=
  match expression.run s with
  | .error e rest => .error e rest
  | .ok p rest =>
    match rest with
    | .eof offset =>
      if p.height ≤ heightLimit then .ok p rest else .error (.tooDeep heightLimit offset) rest
    | _ => failAt (.unexpected .eof) rest

/-- The predicate of an expression. -/
def parse (s : String) : Except ParseError Predicate :=
  match parseStream (Lexer.ofString s).stream with
  | .ok p _ => .ok p
  | .error e _ => .error e

end Predicate

end RecordFilter
