import RecordFilter.Record
import RecordFilter.Sql.Dialect
import RecordFilter.Text.Case

/-!
# Conditions

A condition over the columns of a table, before it is written in a dialect.
`Condition.text` writes it: connectives are always in parentheses, so a reader
needs no order of precedence among them.
-/

namespace RecordFilter

/-- A value in a condition: a column or a constant. -/
inductive Term
  | column (name : String) (castType : Option String)
  | null
  | boolean (b : Bool)
  | integer (n : Int64)
  | number (negative : Bool) (magnitude : Magnitude)
  | string (s : String)

/-- A condition over the columns of a table. -/
inductive Condition
  | constant (b : Bool)
  | compare (op : CompareOp) (left right : Term)
  | missing (subject : Term)
  | present (subject : Term)
  | oneOf (subject : Term) (items : List Term) (orBlank : Bool)
  | not (inner : Condition)
  | join (op : JoinOp) (left right : Condition)
  | verbatim (text : String)

/-! ## Text -/

/-- A column, cast where its target says so. -/
def columnText (name : String) : Option String → String
  | some castType => "CAST(" ++ quoteName name ++ " AS " ++ castType ++ ")"
  | none => quoteName name

/-- A value in a dialect. -/
def Term.text (d : Dialect) : Term → String
  | column name castType => columnText name castType
  | null => "NULL"
  | boolean b => d.boolean b
  | integer n => int64Text n
  | number negative m => (Binary64.finite negative m).plain
  | string s => quoteSingle s

/-- The pattern side of a match without regard to case, where the dialect folds only the column. -/
def Term.folded : Term → Term
  | string s => string (lower s)
  | t => t

/-- A comparison in a dialect. -/
def comparisonText (d : Dialect) (op : CompareOp) (left right : Term) : String :=
  match op, d with
  | .ilike, .cql => "strToLowerCase(" ++ left.text d ++ ") LIKE(" ++ right.folded.text d ++ ")"
  | .ilike, .sql => "lower(" ++ left.text d ++ ") LIKE lower(" ++ right.text d ++ ") ESCAPE \"\\\""
  | .like, .sql => left.text d ++ " LIKE " ++ right.text d ++ " ESCAPE \"\\\""
  | .like, .cql => left.text d ++ " LIKE " ++ right.text d
  | op, d => left.text d ++ " " ++ op.symbol ++ " " ++ right.text d

/-- A membership in a dialect: blank entries are tests of their own, and nothing is in no list. -/
def oneOfText (d : Dialect) (subject : Term) (items : List Term) (orBlank : Bool) : String :=
  let inList := subject.text d ++ " IN (" ++ ", ".intercalate (items.map (·.text d)) ++ ")"
  if orBlank then
    let blanks := subject.text d ++ " IS NULL OR " ++ subject.text d ++ " = ''"
    parenthesize (if items.isEmpty then blanks else blanks ++ " OR " ++ inList)
  else if items.isEmpty then d.condition false
  else inList
where
  parenthesize (s : String) : String := "(" ++ s ++ ")"

/-- The condition in a dialect. -/
def Condition.text (d : Dialect) : Condition → String
  | constant b => d.condition b
  | compare op left right => comparisonText d op left right
  | missing subject => subject.text d ++ " IS NULL"
  | present subject => subject.text d ++ " IS NOT NULL"
  | oneOf subject items orBlank => oneOfText d subject items orBlank
  | not inner => "NOT " ++ inner.text d
  | join op left right => "(" ++ left.text d ++ " " ++ op.keyword ++ " " ++ right.text d ++ ")"
  | verbatim text => text

end RecordFilter
