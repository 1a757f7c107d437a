import RecordFilter.Predicate.Parser

/-!
# Parsers

A `Parser` reads one expression after the other off its lexer and counts the
parentheses and `not`s that are open; a number will do as its `Counter`.  It looks
at a token before it takes it, so a failed call leaves the lexer at the token at
fault, and it counts down again however a clause ends.

    expression := conjunction { '|' conjunction }
    conjunction := clause { '&' clause }
    clause := 'not' clause | '(' expression ')' | condition

A `Reading` is what a parser does to get a result; it is `none` if it does not come
to an end.  Each turn of a loop and each clause in a clause takes a token, so there
are never more of them than the `steps` that an expression begins with.
-/

namespace RecordFilter

/-- What can be counted up and down. -/
class Counter (κ : Type) where
  zero : κ
  value : κ → Nat
  enter : κ → κ
  leave : κ → κ
  value_zero : value zero = 0
  value_enter : ∀ k, value (enter k) = value k + 1
  value_leave : ∀ k, value (leave k) = value k - 1

instance : Counter Nat where
  zero := 0
  value := id
  enter k := k + 1
  leave k := k - 1
  value_zero := rfl
  value_enter _ := rfl
  value_leave _ := rfl

/-- A lexer, and how many parentheses and `not`s are open around what is read next. -/
structure Parser (κ : Type) where
  lexer : Lexer
  nesting : κ

/-- A result or an error, and the parser behind it. -/
abbrev Reading (κ : Type) := ExceptT ParseError (StateT (Parser κ) Option)

namespace Parser

variable {κ : Type} [Counter κ] {α : Type}

def ofLexer (l : Lexer) : Parser κ := ⟨l, Counter.zero⟩

def enter (p : Parser κ) : Parser κ := { p with nesting := Counter.enter p.nesting }

def leave (p : Parser κ) : Parser κ := { p with nesting := Counter.leave p.nesting }

/-! ## Tokens -/

/-- What the lexer answers to a call. -/
def ask (call : Lexer → Except LexError Token × Lexer) : Reading κ Token :=
  ExceptT.mk fun p => some ((call p.lexer).1.mapError .lexical, { p with lexer := (call p.lexer).2 })

def peek : Reading κ Token := ask Lexer.peek

def advance : Reading κ Token := ask Lexer.next

/-- Fails at the token that was looked at last. -/
def fail (error : Nat → ParseError) : Reading κ α :=
  ExceptT.mk fun p => some (.error (error p.lexer.tokenStart), p)

/-- Does not come to an end. -/
def endless : Reading κ α := ExceptT.mk fun _ => none

def check (t : Token) : Reading κ Bool := return (← peek) = t

/-- Takes a given token. -/
def expect (t : Token) : Reading κ Unit := do
  let found ← peek
  if found = t then
    let _ ← advance
    return
  else fail (.unexpected t found)

/-! ## Conditions -/

/-- A field, a variable or a constant. -/
def operand : Reading κ Predicate := do
  let found ← peek
  match Predicate.ofToken? found with
  | some p =>
    let _ ← advance
    return p
  | none => fail (.expectedOperand found)

/-- The operands behind commas, up to the closing parenthesis; `items` are those already read. -/
def operandListTail : Nat → List Predicate → Reading κ Predicate
  | 0, _ => endless
  | steps + 1, items => do
    if ← check .comma then
      let _ ← advance
      let p ← operand
      operandListTail steps (items ++ [p])
    else
      expect .rightParen
      return .list items

def operandList (steps : Nat) : Reading κ Predicate := do
  expect .leftParen
  let p ← operand
  operandListTail steps [p]

/-- What may follow `in`: one operand, or some in parentheses. -/
def candidates (steps : Nat) : Reading κ Predicate := do
  if ← check .leftParen then operandList steps else operand

/-- A comparison, a membership or a boolean. -/
def condition (steps : Nat) : Reading κ Predicate := do
  let left ← operand
  match ← peek, left with
  | .comparison op, left =>
    let _ ← advance
    let right ← operand
    return .compare op left right
  | .isIn, left =>
    let _ ← advance
    let right ← candidates steps
    return .membership left right
  | _, .boolean b => return .boolean b
  | found, left => fail (.expectedOperator left found)

/-! ## Connectives -/

/-- The items behind connectives `op`, joined to what was read before, the leftmost innermost. -/
def joinTail (item : Reading κ Predicate) (op : JoinOp) : Nat → Predicate → Reading κ Predicate
  | 0, _ => endless
  | steps + 1, left => do
    if ← check (.join op) then
      let _ ← advance
      let right ← item
      joinTail item op steps (.join op left right)
    else return left

/-- Items with connectives `op` between them. -/
def joined (item : Reading κ Predicate) (op : JoinOp) (steps : Nat) : Reading κ Predicate := do
  let left ← item
  joinTail item op steps left

/-- An expression made of clauses; `&` binds tighter than `|`. -/
def expressionOf (clause : Reading κ Predicate) (steps : Nat) : Reading κ Predicate :=
  joined (joined clause .and steps) .or steps

/-! ## Clauses -/

/-- A clause that is not counted, given how clauses one level further in are read. -/
def nestedClause (inner : Reading κ Predicate) (steps : Nat) : Reading κ Predicate := do
  if ← check .not then
    let _ ← advance
    let p ← inner
    return .not p
  else if ← check .leftParen then
    let _ ← advance
    let p ← expressionOf inner steps
    expect .rightParen
    return p
  else condition steps

/-- Counts while a clause is read, whether it can be read or not. -/
def counted (nested : Reading κ α) : Reading κ α :=
  ExceptT.mk do
    modify enter
    let result ← nested.run
    modify leave
    return result

/-- A clause, unless too many parentheses and `not`s are open around it. -/
def clause : Nat → Reading κ Predicate
  | 0 => endless
  | steps + 1 => do
    let _ ← peek
    let p ← get
    if Predicate.nestingLimit ≤ Counter.value p.nesting then
      fail (.tooDeep Predicate.nestingLimit)
    else counted (nestedClause (clause steps) steps)

/-- More than there are tokens in front of the lexer. -/
def steps (p : Parser κ) : Nat := p.lexer.rest.length + 2

/-- The longest expression in front of the lexer. -/
def expression : Reading κ Predicate := do
  let p ← get
  expressionOf (clause p.steps) p.steps

/-- An expression that ends its text and is not too high. -/
def parse : Reading κ Predicate := do
  let p ← expression
  expect .eof
  if p.height ≤ Predicate.heightLimit then return p else fail (.tooDeep Predicate.heightLimit)

/-! ## Calls -/

/-- What may be asked of a parser. -/
inductive Call
  | expression
  | parse
  deriving DecidableEq

def call : Call → Reading κ Predicate
  | .expression => expression
  | .parse => parse

/-- Asks a parser one thing after the other. -/
def calls (p : Parser κ) : List Call → Option (List (Except ParseError Predicate) × Parser κ)
  | [] => some ([], p)
  | c :: cs => do
    let (result, p) ← call c p
    let (results, p) ← p.calls cs
    return (result :: results, p)

end Parser

end RecordFilter
