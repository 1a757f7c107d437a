import RecordFilter.Json.Basic
import RecordFilter.Number.Literal

/-!
# Values

A value is what a field or a session variable holds.  Whole numbers of 64 bits
are kept apart from binary64 numbers.  Values and JSON correspond:

    ofJson (toJson v) = v        where every number of v is finite
    toJson (ofJson j) = j        where every whole number of j has 64 bits
-/

namespace RecordFilter

/-- A value of a record, a session variable or a bind parameter. -/
inductive Value
  | null
  | boolean (b : Bool)
  | integer (n : Int64)
  | float (x : Binary64)
  | string (s : String)
  | array (items : List Value)
  | object (members : List (String × Value))

namespace Value

instance : Inhabited Value := ⟨null⟩

/-! ## Views -/

def isNull : Value → Bool
  | null => true
  | _ => false

/-- What a list of constants treats as missing: `null` and the empty string. -/
def isBlank : Value → Bool
  | null => true
  | string s => s.isEmpty
  | _ => false

/-- The condition that a value stands for on its own. -/
def isTruthy : Value → Bool
  | null => false
  | boolean b => b
  | integer n => n != 0
  | float x => !x.isNan && !x.equal .zero
  | string s => !s.isEmpty
  | array _ => true
  | object _ => true

/-- A number of either kind as a binary64 number. -/
def asBinary64? : Value → Option Binary64
  | integer n => some (.ofInt n.toInt)
  | float x => some x
  | _ => none

/-! ## JSON -/

mutual

/-- A value as JSON; a number that is not finite becomes `null`. -/
def toJson : Value → Json
  | null => .null
  | boolean b => .bool b
  | integer n => .integer n.toInt
  | float x => .ofBinary64 x
  | string s => .string s
  | array items => .array (toJsonItems items)
  | object members => .object (toJsonMembers members)

def toJsonItems : List Value → List Json
  | [] => []
  | v :: vs => toJson v :: toJsonItems vs

def toJsonMembers : List (String × Value) → List (String × Json)
  | [] => []
  | (k, v) :: vs => (k, toJson v) :: toJsonMembers vs

end

/-- A whole number: a 64-bit integer where it is one, else rounded. -/
def ofInt (n : Int) : Value :=
  match int64OfInt? n with
  | some i => integer i
  | none => float (.ofInt n)

mutual

/-- JSON as a value. -/
def ofJson : Json → Value
  | .null => null
  | .bool b => boolean b
  | .integer n => ofInt n
  | .float negative m => float (.finite negative m)
  | .string s => string s
  | .array items => array (ofJsonItems items)
  | .object members => object (ofJsonMembers members)

def ofJsonItems : List Json → List Value
  | [] => []
  | j :: js => ofJson j :: ofJsonItems js

def ofJsonMembers : List (String × Json) → List (String × Value)
  | [] => []
  | (k, j) :: js => (k, ofJson j) :: ofJsonMembers js

end

end Value

end RecordFilter
