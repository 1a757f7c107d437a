import RecordFilter.Record

/-!
# Search conditions

What a database makes of a condition, said without the code that writes it: values
of columns and constants, comparisons that are unknown where a value is missing,
and connectives of three truth values.  A row is selected where its condition is
true, so a condition that is unknown selects nothing.

    some true: the row is selected     some false, none: it is not
-/

namespace RecordFilter

namespace Sql

/-! ## Values -/

/-- A value of a column or a constant; a number is `numerator / 10 ^ places`. -/
inductive Datum
  | null
  | boolean (b : Bool)
  | number (numerator : Int) (places : Nat)
  | text (s : String)
  deriving DecidableEq

/-- The comparisons. -/
inductive Relation
  | equal
  | notEqual
  | less
  | lessEqual
  | greater
  | greaterEqual
  deriving DecidableEq

/-- Whether a relation holds of two things in this order. -/
def Relation.admits : Relation → Ordering → Bool
  | equal, o => o.isEq
  | notEqual, o => o.isNe
  | less, o => o.isLT
  | lessEqual, o => o.isLE
  | greater, o => o.isGT
  | greaterEqual, o => o.isGE

namespace Datum

/-- The order of two values of one type: texts by code point, numbers by size. -/
def order? : Datum → Datum → Option Ordering
  | boolean a, boolean b => some (compare a b)
  | number m i, number n j => some (compare (m * pow10 j) (n * pow10 i))
  | text a, text b => some (compareOfLessAndEq a b)
  | _, _ => none

/-- Whether a relation holds of two values: unknown where one is missing, and of values of different
types only `<>` holds. -/
def relate (r : Relation) (a b : Datum) : Option Bool :=
  match a, b with
  | null, _ => none
  | _, null => none
  | a, b =>
    match a.order? b with
    | some o => some (r.admits o)
    | none => some (r == .notEqual)

end Datum

/-! ## Three truth values -/

namespace Truth

def not : Option Bool → Option Bool
  | some b => some !b
  | none => none

def and : Option Bool → Option Bool → Option Bool
  | some false, _ => some false
  | _, some false => some false
  | some true, some true => some true
  | _, _ => none

def or : Option Bool → Option Bool → Option Bool
  | some true, _ => some true
  | _, some true => some true
  | some false, some false => some false
  | _, _ => none

theorem and_some (a b : Bool) : and (some a) (some b) = some (a && b) := by
  cases a <;> cases b <;> rfl

theorem or_some (a b : Bool) : or (some a) (some b) = some (a || b) := by
  cases a <;> cases b <;> rfl

theorem and_eq_true {a b : Option Bool} : and a b = some true ↔ a = some true ∧ b = some true := by
  cases a with
  | none => cases b with
    | none => simp [and]
    | some b => cases b <;> simp [and]
  | some a => cases b with
    | none => cases a <;> simp [and]
    | some b => cases a <;> cases b <;> simp [and]

theorem or_eq_true {a b : Option Bool} : or a b = some true ↔ a = some true ∨ b = some true := by
  cases a with
  | none => cases b with
    | none => simp [or]
    | some b => cases b <;> simp [or]
  | some a => cases b with
    | none => cases a <;> simp [or]
    | some b => cases a <;> cases b <;> simp [or]

/-- One of several. -/
def any : List (Option Bool) → Option Bool
  | [] => some false
  | t :: ts => or t (any ts)

theorem any_eq_true {ts : List (Option Bool)} : any ts = some true ↔ some true ∈ ts := by
  induction ts with
  | nil => simp [any]
  | cons t ts ih => rw [any, or_eq_true, ih, List.mem_cons, eq_comm]

theorem any_map_some {α : Type} (f : α → Bool) (l : List α) :
    any (l.map fun a => some (f a)) = some (l.any f) := by
  induction l with
  | nil => rfl
  | cons a l ih => rw [List.map_cons, any, ih, or_some, List.any_cons]

end Truth

/-! ## Conditions -/

/-- A column, named by its parts, or a constant. -/
inductive Operand
  | column (parts : List String)
  | constant (d : Datum)

/-- A search condition. -/
inductive Search
  | constant (b : Bool)
  | compare (r : Relation) (left right : Operand)
  | isNull (subject : Operand)
  | isNotNull (subject : Operand)
  | isIn (subject : Operand) (items : List Operand)
  | not (inner : Search)
  | and (left right : Search)
  | or (left right : Search)

/-- The values of the columns of a row; parts of a name are joined by dots. -/
abbrev Row := String → Datum

def Operand.datum (row : Row) : Operand → Datum
  | column parts => row (".".intercalate parts)
  | constant d => d

/-- The truth value of a condition for a row. -/
def Search.truth (row : Row) : Search → Option Bool
  | constant b => some b
  | compare r left right => (left.datum row).relate r (right.datum row)
  | isNull subject => some (subject.datum row == .null)
  | isNotNull subject => some !(subject.datum row == .null)
  | isIn subject items =>
    Truth.any (items.map fun item => (subject.datum row).relate .equal (item.datum row))
  | not inner => Truth.not (inner.truth row)
  | and left right => Truth.and (left.truth row) (right.truth row)
  | or left right => Truth.or (left.truth row) (right.truth row)

/-! ## Rows -/

/-- A property as the value of a column; a number is stored exactly, and what a column cannot hold
is missing. -/
def Datum.ofValue : Value → Datum
  | .null => null
  | .boolean b => boolean b
  | .integer n => number n.toInt 0
  | .float (.finite negative m) =>
    number (applySign negative (m.units * Nat.pow 5 1074)) 1074
  | .float _ => null
  | .string s => text s
  | .array _ => null
  | .object _ => null

/-- The row of a record. -/
def rowOf (record : Record) : Row := fun name => .ofValue (record.property name)

end Sql

end RecordFilter
