import RecordFilter.Predicate.Basic

/-!
# Printing predicates

`Predicate.text` writes a tree as an expression.  What the expression language
can say is written so that reading it back gives the same tree: numbers with a
fraction keep their point, and connectives are put in parentheses wherever they
would be read in another order.  Geometries and spatial tests have no expression
and are written for reading only.
-/

namespace RecordFilter

namespace Predicate

/-- The literal of a number with a fraction; a whole one keeps a point and a zero. -/
def floatLiteral (x : Binary64) : String :=
  if x.isFinite && !x.plainChars.contains '.' then x.plain ++ ".0" else x.plain

def parenthesized (s : String) : String := "(" ++ s ++ ")"

/-- Whether a tree is a connective, whose operand on the left of `op` needs parentheses. -/
def isJoinOtherThan (op : JoinOp) : Predicate → Bool
  | join inner _ _ => inner != op
  | _ => false

def isJoin : Predicate → Bool
  | join _ _ _ => true
  | _ => false

mutual

/-- The expression of a tree. -/
def text : Predicate → String
  | field name => "[" ++ name ++ "]"
  | var raw => "\x7b" ++ raw ++ "\x7d"
  | string s => quoteSingle s
  | integer n => int64Text n
  | float x => floatLiteral x
  | boolean b => if b then "true" else "false"
  | null => "null"
  | geometry payload => "<geometry " ++ payload.compact ++ ">"
  | list items => parenthesized (", ".intercalate (texts items))
  | compare op left right => left.text ++ " " ++ op.symbol ++ " " ++ right.text
  | isIn left candidates => left.text ++ " in " ++ candidates.text
  | not inner => "not " ++ if inner.isJoin then parenthesized inner.text else inner.text
  | join op left right =>
    (if left.isJoinOtherThan op then parenthesized left.text else left.text)
      ++ " " ++ op.symbol ++ " "
      ++ if right.isJoin then parenthesized right.text else right.text
  | spatial op left right => op.name ++ "(" ++ left.text ++ ", " ++ right.text ++ ")"

def texts : List Predicate → List String
  | [] => []
  | p :: ps => p.text :: texts ps

end

end Predicate

end RecordFilter
