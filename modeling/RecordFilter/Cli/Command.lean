import RecordFilter.Config
import RecordFilter.Description
import RecordFilter.Filter
import RecordFilter.Json.Reader

/-!
# Commands

What the commands of the program compute, apart from reading arguments and
printing.  `check` keeps the members of a collection that pass a filter, in their
order, or decides about a single record.
-/

namespace RecordFilter

/-- Why a command fails. -/
inductive CommandError
  | parse (e : ParseError)
  | eval (e : EvalError)
  | sql (e : SqlError)
  | convert (e : ConvertError)
  | invalidConfig
  | unreadableConfig (path : String)
  | invalidJson
  | unreadableInput
  | noInput
  | invalidVariable (argument : String)

def CommandError.message : CommandError → String
  | parse e => "Parse error: " ++ e.message
  | eval e => "Evaluation error: " ++ e.message
  | sql e => "SQL generation error: " ++ e.message
  | convert e => "Conversion error: " ++ e.message
  | invalidConfig => "Config error: invalid config: not a TOML document with these settings"
  | unreadableConfig path => "Config error: cannot read config " ++ path ++ ": no such text"
  | invalidJson => "Invalid JSON: not a JSON text"
  | unreadableInput => "IO error: stream did not contain valid UTF-8"
  | noInput => "No input provided. Use --input or pipe JSON to stdin."
  | invalidVariable argument => "Invalid variable '" ++ argument ++ "': expected name=value"

namespace Command

/-! ## Session variables -/

/-- The name and the value of an argument `name=value`.  A value is JSON where it can be. -/
def assignment (argument : String) : Except CommandError (String × Value) :=
  match splitAtChar '=' argument with
  | none => .error (.invalidVariable argument)
  | some (name, raw) =>
    if (trim name).isEmpty then .error (.invalidVariable argument)
    else .ok (trim name, match Json.parse? Json.documentDepth raw with
      | some j => .ofJson j
      | none => .ofText raw)

/-- Variables with those of arguments on top. -/
def assignAll (session : Variables) : List String → Except CommandError Variables
  | [] => .ok session
  | argument :: rest => do
    let (name, v) ← assignment argument
    assignAll (session.insert name v) rest

/-! ## Reading -/

def parseFilter (expression : String) : Except CommandError Filter :=
  (Filter.parse expression).mapError .parse

/-- The JSON of an input, which may be missing. -/
def inputJson (input : Option String) : Except CommandError Json :=
  match input with
  | none => .error .noInput
  | some text =>
    match Json.parse? Json.documentDepth text with
    | some j => .ok j
    | none => .error .invalidJson

/-! ## Check -/

/-- The answer of `check`. -/
inductive CheckResult
  | syntaxValid
  | matched (b : Bool)
  | selected (members : List Json)

/-- The members of a collection; a value of another kind is a single record. -/
def collection? (j : Json) : Option (List Json) :=
  match j with
  | .array items => some items
  | .object _ =>
    if j.stringMember? "type" = some "FeatureCollection" then
      match j.member? "features" with
      | some (.array features) => some features
      | _ => some []
    else none
  | _ => none

def passes (f : Filter) (session : Variables) (j : Json) : Except CommandError Bool :=
  (f.evaluate session (Record.ofJson j)).mapError .eval

/-- The members that pass a filter, in their order. -/
def select (f : Filter) (session : Variables) : List Json → Except CommandError (List Json)
  | [] => .ok []
  | j :: js => do
    let b ← passes f session j
    let rest ← select f session js
    return if b then j :: rest else rest

/-- Applies a filter to a record or to a collection of records. -/
def check (expression : String) (input : Option String) (session : Variables)
    (syntaxOnly : Bool) : Except CommandError CheckResult := do
  let f ← parseFilter expression
  if syntaxOnly then return .syntaxValid
  let j ← inputJson input
  match collection? j with
  | some members => return .selected (← select f session members)
  | none => return .matched (← passes f session j)

/-! ## The other commands -/

/-- The fragment of a filter; a dialect and a table given here win over the configured ones. -/
def sql (expression : String) (dialect : Option Dialect) (table : Option String) (config : Config)
    (session : Variables) : Except CommandError Fragment := do
  let f ← parseFilter expression
  let g : Generator :=
    ⟨table.getD config.table, config.fieldMap, session, none, dialect.getD config.dialect⟩
  (f.fragment g).mapError .sql

/-- Bind parameters as JSON. -/
def paramsJson (params : BindParams) : Json := .ofTable (params.map Value.toJson)

/-- The fields that an expression reads. -/
def fields (expression : String) : Except CommandError (List String) := do
  let f ← parseFilter expression
  return f.root.fieldNames

/-- The outline of an expression. -/
def tree (expression : String) : Except CommandError String := do
  let f ← parseFilter expression
  return f.root.outline 0

/-- The expression of a description. -/
def convert (input : Option String) (strictness : Description.Strictness) :
    Except CommandError String := do
  let j ← inputJson input
  match strictness with
  | .strict =>
    let p ← (Description.convert .strict j).mapError .convert
    return p.text
  | .lenient => return (Description.convertLenient j).text

end Command

end RecordFilter
