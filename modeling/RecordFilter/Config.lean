import RecordFilter.Sql.Dialect
import RecordFilter.Toml.Reader
import RecordFilter.Variable

/-!
# Configuration

The settings of a layer: its dialect, its table, the columns of its fields and
its session variables.  What is not set has a default; keys without a meaning are
passed over.
-/

namespace RecordFilter

/-- The settings of a layer. -/
structure Config where
  dialect : Dialect
  table : String
  fieldMap : FieldMap
  session : Variables

namespace Config

/-- The settings of a layer for which nothing is set. -/
def empty : Config := ⟨.sql, "", .empty, .empty⟩

/-- The dialect of a name in a configuration, which is written in capitals or in lower case. -/
def dialectOfName? : String → Option Dialect
  | "SQL" => some .sql
  | "sql" => some .sql
  | "CQL" => some .cql
  | "cql" => some .cql
  | _ => none

/-- A dialect: its name, or a table with its name as the only key and nothing behind it. -/
def dialect? : Json → Option Dialect
  | .string s => dialectOfName? s
  | .object [(s, .object [])] => dialectOfName? s
  | .object [(s, .array [])] => dialectOfName? s
  | _ => none

/-- A text that may be missing. -/
def optionalText? : Option Json → Option (Option String)
  | none => some none
  | some (.string s) => some (some s)
  | some _ => none

/-- A column: a table with a target, or a list that starts with one. -/
def target? : Json → Option FieldTarget
  | .object members => do
    let target ← Entries.get? "target" members >>= Json.asString?
    let castType ← optionalText? (Entries.get? "sql_type" members)
    return ⟨target, castType⟩
  | .array (.string target :: rest) => (optionalText? rest.head?).map fun t => ⟨target, t⟩
  | _ => none

def targets? : List (String × Json) → Option (List (String × FieldTarget))
  | [] => some []
  | (k, j) :: ms => do
    let t ← target? j
    let ts ← targets? ms
    return (k, t) :: ts

def fieldMap? : Json → Option FieldMap
  | .object members => (targets? members).map Table.ofList
  | _ => none

def session? : Json → Option Variables
  | .object members => some ((Table.ofList members).map Value.ofJson)
  | _ => none

/-- A member read where it is present. -/
def setting? {α : Type} (j : Json) (name : String) (read : Json → Option α) (fallback : α) :
    Option α :=
  match j.member? name with
  | some v => read v
  | none => some fallback

/-- The settings in a document. -/
def ofJson? (j : Json) : Option Config := do
  let dialect ← setting? j "dialect" dialect? .sql
  let table ← setting? j "table" Json.asString? ""
  let fieldMap ← setting? j "field_map" fieldMap? .empty
  let session ← setting? j "variables" session? .empty
  return ⟨dialect, table, fieldMap, session⟩

/-- The settings in a TOML text. -/
def ofToml? (text : String) : Option Config := Toml.parse? text >>= ofJson?

end Config

end RecordFilter
