import RecordFilter.Predicate.Parser
import RecordFilter.Timestamp

/-!
# Descriptions

A description is a predicate as JSON: an object with a type, an operator and
operands, or a boolean.  Strict conversion reports the first part that is not a
description; lenient conversion takes `true` in its place.  Descriptions may be
nested to `nestingLimit` levels and the tree may be `heightLimit` high.
-/

namespace RecordFilter

/-- Why a JSON value is not the description of a predicate. -/
inductive ConvertError
  | notAPredicate (json : String)
  | missingMember (name : String)
  | unknownType (name : String)
  | unknownOperator (kind operator : String)
  | arity (operator expected : String) (found : Nat)
  | invalidOperand (json : String)
  | invalidDate (text : String) (problem : Timestamp.Problem)
  | tooDeep (limit : Nat)
  deriving DecidableEq

def ConvertError.message : ConvertError → String
  | notAPredicate json => "predicate description must be an object or a boolean, got " ++ json
  | missingMember name => "predicate description has no '" ++ name ++ "' member"
  | unknownType name => "unknown predicate type '" ++ name ++ "'"
  | unknownOperator kind operator => "unknown " ++ kind ++ " operator '" ++ operator ++ "'"
  | arity operator expected found =>
    "operator '" ++ operator ++ "' takes " ++ expected ++ " operand(s), got " ++ toString found
  | invalidOperand json => "invalid operand " ++ json
  | invalidDate text problem => "invalid date '" ++ text ++ "': " ++ problem.message
  | tooDeep limit => "predicate description nested deeper than " ++ toString limit ++ " levels"

/-- Whether a part that cannot be converted is an error or stands for `true`. -/
inductive Description.Strictness
  | strict
  | lenient
  deriving DecidableEq

/-- The date of a text, in UTC with milliseconds. -/
def normalizeDate (text : String) : Except ConvertError String :=
  match Timestamp.parse text with
  | .ok t => .ok t.text
  | .error problem => .error (.invalidDate text problem)

namespace Description

/-! ## Operands -/

/-- A constant; an empty string is no value. -/
def constant (j : Json) : Except ConvertError Predicate :=
  match j with
  | .null => .ok .null
  | .string s => .ok (if s.isEmpty then .null else .string s)
  | .bool b => .ok (.boolean b)
  | .integer n =>
    match int64OfInt? n with
    | some i => .ok (.integer i)
    | none => .ok (.float (.ofInt n))
  | .float negative m => .ok (.float (.finite negative m))
  | .object _ =>
    match j.stringMember? "date" with
    | some date => (normalizeDate date).map .string
    | none => .error (.invalidOperand j.compact)
  | .array _ => .error (.invalidOperand j.compact)

def constants : List Json → Except ConvertError (List Predicate)
  | [] => .ok []
  | j :: js => do
    let p ← constant j
    let ps ← constants js
    return p :: ps

/-- An operand: a list, a field, a variable, a geometry or a constant. -/
def operand (j : Json) : Except ConvertError Predicate :=
  match j with
  | .array items => (constants items).map .list
  | .object _ =>
    match j.stringMember? "field", j.stringMember? "variable", j.member? "geometry" with
    | some name, _, _ => .ok (.field name)
    | none, some name, _ => .ok (.var name)
    | none, none, some payload => .ok (.geometry payload)
    | none, none, none => constant j
  | j => constant j

/-! ## Operators -/

/-- What the members of a description say, before its operands are looked at. -/
structure Head where
  kind : String
  operator : String
  operands : List Json

/-- The type and the operator of a description, in lower case, and its operands. -/
def head (j : Json) : Except ConvertError Head :=
  match j.stringMember? "type", j.stringMember? "operator" with
  | none, _ => .error (.missingMember "type")
  | some _, none => .error (.missingMember "operator")
  | some kind, some operator =>
    let head := Head.mk (asciiLower kind) (asciiLower operator)
    match j.member? "operands" with
    | some (.array items) => .ok (head items)
    | some other => .error (.invalidOperand other.compact)
    | none => .ok (head [])
where
  asciiLower (s : String) : String := String.ofList (lowerAscii s.toList)

def comparison (h : Head) : Except ConvertError Predicate :=
  match CompareOp.ofSymbol? h.operator with
  | none => .error (.unknownOperator h.kind h.operator)
  | some op =>
    match h.operands with
    | [left, right] => do
      let l ← operand left
      let r ← operand right
      return .compare op l r
    | operands => .error (.arity h.operator "2" operands.length)

def function (h : Head) : Except ConvertError Predicate :=
  if h.operator ≠ "in" then .error (.unknownOperator h.kind h.operator)
  else match h.operands with
    | [left, right] => do
      let l ← operand left
      let r ← operand right
      return .membership l r
    | left :: first :: second :: rest => do
      let items ← constants (first :: second :: rest)
      let l ← operand left
      return .isIn l (.list items)
    | operands => .error (.arity h.operator "2 or more" operands.length)

def spatial (h : Head) : Except ConvertError Predicate :=
  if h.operator ≠ "intersects" then .error (.unknownOperator h.kind h.operator)
  else match h.operands with
    | [left, right] => do
      let l ← operand left
      let r ← operand right
      return .spatial .intersects l r
    | operands => .error (.arity h.operator "2" operands.length)

/-! ## Connectives -/

/-- A part that cannot be converted stands for `true` in lenient conversion. -/
def recover (s : Strictness) (r : Except ConvertError Predicate) : Except ConvertError Predicate :=
  match s, r with
  | .lenient, .error _ => .ok (.boolean true)
  | _, r => r

/-- Joins what is converted of descriptions to what comes before them. -/
def joinAll (convert : Json → Except ConvertError Predicate) (op : JoinOp) :
    Predicate → List Json → Except ConvertError Predicate
  | p, [] => .ok p
  | p, j :: js => do
    let q ← convert j
    joinAll convert op (.join op p q) js

/-- A logical description, given how its operands are converted. -/
def logical (convert : Json → Except ConvertError Predicate) (h : Head) :
    Except ConvertError Predicate :=
  let connective (op : JoinOp) :=
    match h.operands with
    | first :: second :: rest => do
      let p ← convert first
      joinAll convert op p (second :: rest)
    | operands => .error (.arity h.operator "2 or more" operands.length)
  match h.operator with
  | "not" =>
    match h.operands with
    | [inner] => (convert inner).map .not
    | operands => .error (.arity h.operator "1" operands.length)
  | "and" => connective .and
  | "or" => connective .or
  | _ => .error (.unknownOperator h.kind h.operator)

/-- A description by its type, given how the operands of logical descriptions are converted. -/
def ofHead (convert : Json → Except ConvertError Predicate) (h : Head) :
    Except ConvertError Predicate :=
  match h.kind with
  | "comparison" => comparison h
  | "function" => function h
  | "spatial" => spatial h
  | "geometry" => spatial h
  | "logical" => logical convert h
  | _ => .error (.unknownType h.kind)

/-- A description that may hold so many more levels of logical descriptions, itself included. -/
def convertNested (s : Strictness) : Nat → Json → Except ConvertError Predicate
  | 0, _ => recover s (.error (.tooDeep Predicate.nestingLimit))
  | budget + 1, j =>
    recover s <|
      match j with
      | .bool b => .ok (.boolean b)
      | .object _ => do
        let h ← head j
        ofHead (convertNested s budget) h
      | j => .error (.notAPredicate j.compact)

/-- The predicate of a description, however high. -/
def convertAnyHeight (s : Strictness) (j : Json) : Except ConvertError Predicate :=
  convertNested s Predicate.nestingLimit j

/-- The predicate of a description. -/
def convert (s : Strictness) (j : Json) : Except ConvertError Predicate := do
  let p ← convertAnyHeight s j
  if p.height ≤ Predicate.heightLimit then return p
  else recover s (.error (.tooDeep Predicate.heightLimit))

/-- The predicate of a description, with `true` for all that cannot be converted. -/
def convertLenient (j : Json) : Predicate :=
  match convert .lenient j with
  | .ok p => p
  | .error _ => .boolean true

end Description

end RecordFilter
