import RecordFilter.Like
import RecordFilter.Predicate.Basic
import RecordFilter.Record
import RecordFilter.Value.Comparison
import RecordFilter.Variable

/-!
# Evaluating predicates

`Predicate.evaluate` decides whether a record satisfies a predicate.  Every node
is evaluated, so an ill-placed node is an error for all records alike.
-/

namespace RecordFilter

/-- Why a predicate has no truth value. -/
inductive EvalError
  | unsupported (kind : PredicateKind) (value : String)
  | patternTooLarge (pattern : String)
  deriving DecidableEq

def EvalError.message : EvalError → String
  | unsupported kind value => "unsupported operator: " ++ kind.name ++ " '" ++ value ++ "'"
  | patternTooLarge pattern =>
    "invalid like pattern '" ++ pattern
      ++ "': Compiled regex exceeds size limit of 10485760 bytes."

namespace Predicate

/-- The error of a node that is out of place. -/
def misplaced (p : Predicate) : EvalError := .unsupported p.kind p.value

/-! ## Operands -/

/-- The value of a leaf. -/
def leafValue (session : Variables) (record : Record) : Predicate → Except EvalError Value
  | field name => .ok (record.property name)
  | var raw => .ok (resolveVariable raw session)
  | string s => .ok (.string s)
  | integer n => .ok (.integer n)
  | float x => .ok (.float x)
  | boolean b => .ok (.boolean b)
  | null => .ok .null
  | p => .error p.misplaced

/-! ## Comparisons -/

/-- Whether a text matches a pattern that is not too large; `null` on either side matches nothing. -/
def likeHolds (tooLarge : List PatternItem → Bool) (eq : Char → Char → Bool)
    (subject pattern : Value) : Except EvalError Bool :=
  if subject.isNull || pattern.isNull then .ok false
  else
    let items := Pattern.items pattern.text.toList
    if tooLarge items then .error (.patternTooLarge pattern.text)
    else .ok (Pattern.accepts eq items subject.text.toList)

/-- Whether a comparison of two values holds. -/
def comparisonHolds (op : CompareOp) (left right : Value) : Except EvalError Bool :=
  match op with
  | .equal => .ok (left.looseEq right)
  | .notEqual => .ok (!left.looseEq right)
  | .less => .ok (left.order? right == some .lt)
  | .lessEqual => .ok (left.order? right == some .lt || left.order? right == some .eq)
  | .greater => .ok (left.order? right == some .gt)
  | .greaterEqual => .ok (left.order? right == some .gt || left.order? right == some .eq)
  | .like => likeHolds Pattern.isTooLarge Pattern.sameChar left right
  | .ilike => likeHolds Pattern.isTooLarge Pattern.sameUpToCase left right

/-! ## Membership -/

/-- The entries of a list: values of fields, and constants; a variable that holds an array stands
for its items. -/
structure Entered where
  columns : List Value
  constants : List Value

def Entered.add (e : Entered) (item : Predicate) (v : Value) : Entered :=
  match item, v with
  | field _, v => { e with columns := v :: e.columns }
  | var _, .array vs => { e with constants := vs ++ e.constants }
  | _, v => { e with constants := v :: e.constants }

/-- The values of the entries of a list. -/
def entered (session : Variables) (record : Record) : List Predicate → Except EvalError Entered
  | [] => .ok ⟨[], []⟩
  | item :: items => do
    let v ← leafValue session record item
    let e ← entered session record items
    return e.add item v

/-- Whether a value is among the entries.  `null` equals no field, and blank constants stand for
everything missing. -/
def Entered.has (e : Entered) (needle : Value) : Bool :=
  (!needle.isNull && e.columns.any fun c => c.strictEq needle)
    || if needle.isBlank then e.constants.any Value.isBlank
       else e.constants.any fun c => c.strictEq needle

def membershipHolds (session : Variables) (record : Record) (left candidates : Predicate) :
    Except EvalError Bool :=
  match candidates with
  | list items => do
    let needle ← leafValue session record left
    let e ← entered session record items
    return e.has needle
  | p => .error p.misplaced

/-! ## Conditions -/

/-- Whether a record satisfies a predicate. -/
def evaluate (session : Variables) (record : Record) : Predicate → Except EvalError Bool
  | not inner => do
    let b ← evaluate session record inner
    return !b
  | join op left right => do
    let a ← evaluate session record left
    let b ← evaluate session record right
    return match op with
      | .and => a && b
      | .or => a || b
  | compare op left right => do
    let a ← leafValue session record left
    let b ← leafValue session record right
    comparisonHolds op a b
  | isIn left candidates => membershipHolds session record left candidates
  | boolean b => .ok b
  | p => do
    let v ← leafValue session record p
    return v.isTruthy

end Predicate

end RecordFilter
