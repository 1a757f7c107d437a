import RecordFilter.Proofs.Sql.Search

/-!
# Reading search conditions

The text of a condition is taken apart by the rules of the database: constants of
texts between single quotes and names between double quotes, in both of which the
quote is written twice, numbers, words and symbols.  `OR` binds weakest, then come
`AND`, `NOT` and the predicates.

    search    := conjunct { 'OR' conjunct }        conjunct := clause { 'AND' clause }
    clause    := 'NOT' clause | '(' search ')' | predicate
    predicate := operand relation operand | operand 'IS' [ 'NOT' ] 'NULL'
               | operand 'IN' '(' operand { ',' operand } ')' | 'TRUE' | 'FALSE'
    operand   := text | [ '-' ] number | 'NULL' | 'TRUE' | 'FALSE' | name { '.' name }
-/

namespace RecordFilter

namespace Sql

/-! ## Tokens -/

/-- A word of a condition. -/
inductive Token
  | text (s : String)
  | name (s : String)
  | word (s : String)
  | number (numerator places : Nat)
  | relation (r : Relation)
  | leftParen
  | rightParen
  | comma
  | dot
  | minus
  | other (c : Char)
  deriving DecidableEq

/-- The two kinds of quoted texts. -/
inductive Quote
  | single
  | double
  deriving DecidableEq

namespace Quote

def char : Quote → Char
  | single => '\x27'
  | double => '"'

def token : Quote → String → Token
  | single, s => .text s
  | double, s => .name s

end Quote

/-- What has been seen of the token at hand; characters are held in reverse. -/
inductive Scanner
  | gap
  | quoted (q : Quote) (seen : List Char)
  | closing (q : Quote) (seen : List Char)
  | word (seen : List Char)
  | whole (seen : List Char)
  | fraction (whole seen : List Char)
  | less
  | greater

namespace Scanner

def isLetter (c : Char) : Bool := c.isAlpha || c = '_'

/-- The tokens that are complete with one character, and what it begins otherwise. -/
def start (c : Char) : List Token × Scanner :=
  if c = ' ' then ([], gap)
  else if c = '\x27' then ([], quoted .single [])
  else if c = '"' then ([], quoted .double [])
  else if isDigit c then ([], whole [c])
  else if isLetter c then ([], word [c])
  else if c = '<' then ([], less)
  else if c = '>' then ([], greater)
  else if c = '=' then ([.relation .equal], gap)
  else if c = '(' then ([.leftParen], gap)
  else if c = ')' then ([.rightParen], gap)
  else if c = ',' then ([.comma], gap)
  else if c = '.' then ([.dot], gap)
  else if c = '-' then ([.minus], gap)
  else ([.other c], gap)

/-- The token at hand, if it ends here; quotes that were not closed have none. -/
def finish : Scanner → Option (List Token)
  | gap => some []
  | quoted _ _ => none
  | closing q seen => some [q.token (String.ofList seen.reverse)]
  | word seen => some [.word (String.ofList seen.reverse)]
  | whole seen => some [.number (ofDigits seen.reverse) 0]
  | fraction w seen => some [.number (ofDigits (w.reverse ++ seen.reverse)) seen.length]
  | less => some [.relation .less]
  | greater => some [.relation .greater]

/-- The token at hand is taken further by a character, or `none`. -/
def extend : Scanner → Char → Option (List Token × Scanner)
  | gap, _ => none
  | quoted q seen, c => some ([], if c = q.char then closing q seen else quoted q (c :: seen))
  | closing q seen, c => if c = q.char then some ([], quoted q (c :: seen)) else none
  | word seen, c => if isLetter c || isDigit c then some ([], word (c :: seen)) else none
  | whole seen, c =>
    if isDigit c then some ([], whole (c :: seen))
    else if c = '.' then some ([], fraction seen [])
    else none
  | fraction w seen, c => if isDigit c then some ([], fraction w (c :: seen)) else none
  | less, c =>
    if c = '=' then some ([.relation .lessEqual], gap)
    else if c = '>' then some ([.relation .notEqual], gap)
    else none
  | greater, c => if c = '=' then some ([.relation .greaterEqual], gap) else none

/-- One character: it belongs to the token at hand, or that one ends and another begins. -/
def step (s : Scanner) (c : Char) : Option (List Token × Scanner) :=
  match s.extend c with
  | some r => some r
  | none => s.finish.map fun ts => (ts ++ (start c).1, (start c).2)

/-- The tokens of a text. -/
def scan : Scanner → List Char → Option (List Token)
  | s, [] => s.finish
  | s, c :: cs =>
    match s.step c with
    | some (ts, s') => (scan s' cs).map (ts ++ ·)
    | none => none

end Scanner

/-! ## Operands -/

/-- The parts of a dotted name behind its first one. -/
def readParts : List Token → List String × List Token
  | .dot :: .name s :: ts => (s :: (readParts ts).1, (readParts ts).2)
  | ts => ([], ts)

def readOperand : List Token → Option (Operand × List Token)
  | .text s :: ts => some (.constant (.text s), ts)
  | .number n k :: ts => some (.constant (.number n k), ts)
  | .minus :: .number n k :: ts => some (.constant (.number (-n) k), ts)
  | .name s :: ts => some (.column (s :: (readParts ts).1), (readParts ts).2)
  | .word w :: ts =>
    if w = "NULL" then some (.constant .null, ts)
    else if w = "TRUE" then some (.constant (.boolean true), ts)
    else if w = "FALSE" then some (.constant (.boolean false), ts)
    else none
  | _ => none

/-- The rest of a list behind its opening parenthesis, of so many operands at most. -/
def readItems : Nat → List Token → Option (List Operand × List Token)
  | 0, _ => none
  | n + 1, ts =>
    match readOperand ts with
    | some (x, .comma :: ts) => (readItems n ts).map fun (xs, ts) => (x :: xs, ts)
    | some (x, .rightParen :: ts) => some ([x], ts)
    | _ => none

/-! ## Conditions -/

/-- A reader takes a condition off some tokens. -/
abbrev Reader := List Token → Option (Search × List Token)

/-- What can follow the left operand of a predicate; a boolean is a predicate alone. -/
def readTail (x : Operand) : Reader
  | .relation r :: ts => (readOperand ts).map fun (y, ts) => (.compare r x y, ts)
  | .word "IS" :: .word "NULL" :: ts => some (.isNull x, ts)
  | .word "IS" :: .word "NOT" :: .word "NULL" :: ts => some (.isNotNull x, ts)
  | .word "IN" :: .leftParen :: ts =>
    (readItems ts.length ts).map fun (xs, ts) => (.isIn x xs, ts)
  | ts =>
    match x with
    | .constant (.boolean b) => some (.constant b, ts)
    | _ => none

def readPredicate : Reader := fun ts =>
  match readOperand ts with
  | some (x, ts) => readTail x ts
  | none => none

/-- Goes on with a condition as long as a keyword follows, so many times at most. -/
def readChain (item : Reader) (keyword : String) (join : Search → Search → Search) :
    Nat → Search → Reader
  | n + 1, c, .word w :: ts =>
    if w = keyword then
      match item ts with
      | some (d, ts) => readChain item keyword join n (join c d) ts
      | none => none
    else some (c, .word w :: ts)
  | _, c, ts => some (c, ts)

def readJoined (item : Reader) (keyword : String) (join : Search → Search → Search) : Reader :=
  fun ts =>
    match item ts with
    | some (c, rest) => readChain item keyword join ts.length c rest
    | none => none

/-- A whole condition, given the reader of its clauses. -/
def readSearch (clause : Reader) : Reader :=
  readJoined (readJoined clause "AND" .and) "OR" .or

/-- A clause that is nested less deep than a bound. -/
def readClause : Nat → Reader
  | 0, _ => none
  | n + 1, .word "NOT" :: ts => (readClause n ts).map fun (c, ts) => (.not c, ts)
  | n + 1, .leftParen :: ts =>
    match readSearch (readClause n) ts with
    | some (c, .rightParen :: ts) => some (c, ts)
    | _ => none
  | _ + 1, ts => readPredicate ts

/-- The condition that a text denotes.  No text nests deeper than it has tokens. -/
def read (s : String) : Option Search :=
  match Scanner.gap.scan s.toList with
  | some ts =>
    match readSearch (readClause (ts.length + 1)) ts with
    | some (c, []) => some c
    | _ => none
  | none => none

end Sql

end RecordFilter
