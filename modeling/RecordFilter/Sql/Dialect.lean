import RecordFilter.Predicate.Printer
import RecordFilter.Table

/-!
# Dialects

Conditions are written in one of two dialects, which differ in their booleans
and in how patterns are matched.  Names and strings are quoted alike: a quote
inside is written twice.
-/

namespace RecordFilter

/-- The dialect of a condition. -/
inductive Dialect
  | sql
  | cql
  deriving DecidableEq

namespace Dialect

instance : Inhabited Dialect := ⟨sql⟩

def name : Dialect → String
  | sql => "SQL"
  | cql => "CQL"

/-- The dialect of a name, in any letter case. -/
def ofName? (s : String) : Option Dialect :=
  match String.ofList (lowerAscii s.toList) with
  | "sql" => some sql
  | "sqlite" => some sql
  | "cql" => some cql
  | _ => none

/-- A boolean where a value is expected. -/
def boolean : Dialect → Bool → String
  | sql, true => "1"
  | sql, false => "0"
  | cql, true => "TRUE"
  | cql, false => "FALSE"

/-- A boolean where a condition is expected. -/
def condition : Dialect → Bool → String
  | sql, true => "1=1"
  | sql, false => "1=0"
  | cql, true => "TRUE"
  | cql, false => "FALSE"

end Dialect

/-! ## Names -/

/-- The parts of a text between separators; a text without one is its only part. -/
def splitParts (sep : Char) : List Char → List (List Char)
  | [] => [[]]
  | c :: cs =>
    if c = sep then [] :: splitParts sep cs
    else match splitParts sep cs with
      | part :: parts => (c :: part) :: parts
      | [] => [[c]]

/-- A text between double quotes, its own quotes written twice. -/
def quoteDouble (cs : List Char) : String :=
  String.ofList ('"' :: cs.flatMap (fun c => if c = '"' then ['"', '"'] else [c]) ++ ['"'])

/-- A column name; the parts of a dotted name are quoted one by one. -/
def quoteName (name : String) : String :=
  ".".intercalate ((splitParts '.' name.toList).map quoteDouble)

/-- The column behind a field, and the type to which it is cast. -/
structure FieldTarget where
  target : String
  castType : Option String
  deriving DecidableEq

/-- The columns of fields. -/
abbrev FieldMap := Table FieldTarget

end RecordFilter
