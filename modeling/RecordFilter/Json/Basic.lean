import RecordFilter.Number.Text
import RecordFilter.Table

/-!
# JSON data

A JSON value keeps whole numbers apart from numbers with a fraction or an
exponent; the latter are finite.  The members of an object are kept in the order
of their names (`Table`).
-/

namespace RecordFilter

/-- A JSON value. -/
inductive Json
  | null
  | bool (b : Bool)
  | integer (n : Int)
  | float (negative : Bool) (magnitude : Magnitude)
  | string (s : String)
  | array (items : List Json)
  | object (members : List (String × Json))

namespace Json

instance : Inhabited Json := ⟨null⟩

/-- The object with the members of a table. -/
def ofTable (t : Table Json) : Json := object t.entries

/-- A binary64 number as JSON; what is not finite has no JSON number and becomes `null`. -/
def ofBinary64 : Binary64 → Json
  | .finite negative m => float negative m
  | _ => null

/-- The member of an object with a given name. -/
def member? (name : String) : Json → Option Json
  | object members => Entries.get? name members
  | _ => none

def asString? : Json → Option String
  | string s => some s
  | _ => none

/-- The member of an object with a given name, where it is a string. -/
def stringMember? (name : String) (j : Json) : Option String := j.member? name >>= asString?

/-! ## Numerical equality of leaves, structural equality above -/

mutual

/-- Equality of values: numbers of one kind are compared as numbers. -/
def equal : Json → Json → Bool
  | null, null => true
  | bool a, bool b => a == b
  | integer a, integer b => a == b
  | float s m, float t n => Binary64.equal (.finite s m) (.finite t n)
  | string a, string b => a == b
  | array as, array bs => equalItems as bs
  | object as, object bs => equalMembers as bs
  | _, _ => false

def equalItems : List Json → List Json → Bool
  | [], [] => true
  | a :: as, b :: bs => equal a b && equalItems as bs
  | _, _ => false

def equalMembers : List (String × Json) → List (String × Json) → Bool
  | [], [] => true
  | (j, a) :: as, (k, b) :: bs => j == k && equal a b && equalMembers as bs
  | _, _ => false

end

end Json

end RecordFilter
