import RecordFilter.Number.Literal

/-!
# Operators

Comparisons, the two connectives and the spatial test, with their spellings.
-/

namespace RecordFilter

/-- A comparison of two operands. -/
inductive CompareOp
  | equal
  | notEqual
  | less
  | lessEqual
  | greater
  | greaterEqual
  | like
  | ilike
  deriving DecidableEq

/-- A connective of two conditions. -/
inductive JoinOp
  | and
  | or
  deriving DecidableEq

/-- A test of two places; it has no spelling in expressions. -/
inductive SpatialOp
  | intersects
  deriving DecidableEq

namespace CompareOp

def symbol : CompareOp → String
  | equal => "="
  | notEqual => "<>"
  | less => "<"
  | lessEqual => "<="
  | greater => ">"
  | greaterEqual => ">="
  | like => "like"
  | ilike => "ilike"

/-- The operator of a spelling, in any letter case; `!=` is another spelling of `<>`. -/
def ofSymbol? (s : String) : Option CompareOp :=
  match String.ofList (lowerAscii s.toList) with
  | "=" => some equal
  | "<>" => some notEqual
  | "!=" => some notEqual
  | "<" => some less
  | "<=" => some lessEqual
  | ">" => some greater
  | ">=" => some greaterEqual
  | "like" => some like
  | "ilike" => some ilike
  | _ => none

end CompareOp

namespace JoinOp

def symbol : JoinOp → String
  | and => "&"
  | or => "|"

/-- The spelling in a condition of a database. -/
def keyword : JoinOp → String
  | and => "AND"
  | or => "OR"

end JoinOp

namespace SpatialOp

def name : SpatialOp → String
  | intersects => "intersects"

end SpatialOp

end RecordFilter
