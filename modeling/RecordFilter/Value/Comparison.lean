import RecordFilter.Number.Decimal28
import RecordFilter.Value.Coercion

/-!
# Comparing values

Three relations on values.  `same` is equality of kind and content, `strictEq`
lets integers and binary64 numbers of one magnitude be equal, and `looseEq`
also compares booleans, texts and arrays with numbers.  `order?` is the order
behind `<`, `<=`, `>` and `>=`; a pair without an order satisfies none of them.
-/

namespace RecordFilter

namespace Value

/-! ## Numbers -/

/-- A number as a decimal, if it has one. -/
def decimal? : Value → Option Decimal28
  | integer n => some (.ofInt n.toInt)
  | float x => Decimal28.ofBinary64? x
  | _ => none

/-- The order of two binary64 numbers, if there are two. -/
def orderOf? : Option Binary64 → Option Binary64 → Option Ordering
  | some x, some y => x.compare? y
  | _, _ => none

/-- The order of an integer and a binary64 number, either one first: as decimals where both have one,
else as binary64. -/
def compareMixed? (v w : Value) : Option Ordering :=
  match v.decimal?, w.decimal? with
  | some a, some b => some (a.compare b)
  | _, _ => orderOf? v.asBinary64? w.asBinary64?

def equalMixed (v w : Value) : Bool := compareMixed? v w == some .eq

/-! ## Equality -/

mutual

/-- Equality of kind and content; numbers of one kind are compared as numbers. -/
def same : Value → Value → Bool
  | null, null => true
  | boolean a, boolean b => a == b
  | integer a, integer b => a == b
  | float x, float y => x.equal y
  | string a, string b => a == b
  | array as, array bs => sameItems as bs
  | object as, object bs => sameMembers as bs
  | _, _ => false

def sameItems : List Value → List Value → Bool
  | [], [] => true
  | a :: as, b :: bs => same a b && sameItems as bs
  | _, _ => false

def sameMembers : List (String × Value) → List (String × Value) → Bool
  | [], [] => true
  | (j, a) :: as, (k, b) :: bs => j == k && same a b && sameMembers as bs
  | _, _ => false

end

mutual

/-- Equality in which an integer and a binary64 number can be equal, also as items of arrays. -/
def strictEq : Value → Value → Bool
  | integer a, integer b => a == b
  | float x, float y => x.equal y
  | integer n, float x => equalMixed (integer n) (float x)
  | float x, integer n => equalMixed (float x) (integer n)
  | array as, array bs => strictEqItems as bs
  | a, b => same a b

def strictEqItems : List Value → List Value → Bool
  | [], [] => true
  | a :: as, b :: bs => strictEq a b && strictEqItems as bs
  | _, _ => false

end

/-- Whether two values have a number each and the numbers are equal. -/
def equalAsNumbers (a b : Value) : Bool :=
  match a.number?, b.number? with
  | some x, some y => x.equal y
  | _, _ => false

/-- Two numbers, two texts, or a number and a text. -/
def looseEqScalar : Value → Value → Bool
  | string a, string b => a == b
  | integer a, integer b => a == b
  | float x, float y => x.equal y
  | integer n, float x => equalMixed (integer n) (float x)
  | float x, integer n => equalMixed (float x) (integer n)
  | a, b => equalAsNumbers a b

/-- A value as the scalar that stands for it in a loose comparison with a value of another kind:
booleans are numbers, arrays and objects are texts. -/
def scalar : Value → Value
  | boolean b => integer (if b then 1 else 0)
  | array items => string (array items).text
  | object members => string (object members).text
  | v => v

/-- How often a value can be converted to a scalar. -/
def conversions : Value → Nat
  | boolean _ => 1
  | array _ => 1
  | object _ => 1
  | _ => 0

/-- Equality across kinds.  `null` equals only itself.  Of two values of different kinds one is converted
at a time: booleans before arrays and objects, and the left one first. -/
def looseEq (v w : Value) : Bool :=
  match v, w with
  | null, null => true
  | null, _ => false
  | _, null => false
  | boolean a, boolean b => a == b
  | array as, array bs => strictEqItems as bs
  | object as, object bs => sameMembers as bs
  | boolean a, w => looseEq (boolean a).scalar w
  | v, boolean b => looseEq v (boolean b).scalar
  | array as, w => looseEq (array as).scalar w
  | object as, w => looseEq (object as).scalar w
  | v, array bs => looseEq v (array bs).scalar
  | v, object bs => looseEq v (object bs).scalar
  | v, w => looseEqScalar v w
termination_by v.conversions + w.conversions
decreasing_by all_goals simp [scalar, conversions]

/-! ## Order -/

/-- The order of two values: texts by code point, all else as numbers. -/
def order? : Value → Value → Option Ordering
  | null, _ => none
  | _, null => none
  | string a, string b => some (compareOfLessAndEq a b)
  | integer a, integer b => some (compare a.toInt b.toInt)
  | float x, float y => x.compare? y
  | integer n, float x => compareMixed? (integer n) (float x)
  | float x, integer n => compareMixed? (float x) (integer n)
  | a, b => orderOf? a.number? b.number?

end Value

end RecordFilter
