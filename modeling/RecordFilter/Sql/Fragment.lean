import RecordFilter.Predicate.Basic
import RecordFilter.Value.Comparison

/-!
# Fragments

A fragment is a condition's text with named parameters.  Joining fragments joins
their parameters; a name that is bound to different values on the two sides is an
error, which reports the first such name.
-/

namespace RecordFilter

/-- Why a predicate has no condition. -/
inductive SqlError
  | unsupported (kind : PredicateKind) (value : String)
  | paramConflict (name : String)
  | notSingle (operand : String)
  | unknownDialect (name : String)
  | geometry (reason : String)
  deriving DecidableEq

def SqlError.message : SqlError → String
  | unsupported kind value => "unsupported operator: " ++ kind.name ++ " '" ++ value ++ "'"
  | paramConflict name => "bind parameter '" ++ name ++ "' defined twice with different values"
  | notSingle operand => operand ++ " does not resolve to a single value"
  | unknownDialect name => "unknown dialect '" ++ name ++ "' (expected SQL or CQL)"
  | geometry reason => "geometry provider failed: " ++ reason

/-- Values of named parameters. -/
abbrev BindParams := Table Value

namespace BindParams

/-- Adds one parameter; a name that is bound already has to keep its value. -/
def bind (params : BindParams) (name : String) (v : Value) : Except SqlError BindParams :=
  match params.get? name with
  | some w => if w.same v then .ok params else .error (.paramConflict name)
  | none => .ok (params.insert name v)

/-- Adds parameters in the order of their names. -/
def bindAll (params : BindParams) : List (String × Value) → Except SqlError BindParams
  | [] => .ok params
  | (name, v) :: entries => do
    let params ← params.bind name v
    params.bindAll entries

/-- All parameters of two tables. -/
def merge (params others : BindParams) : Except SqlError BindParams := params.bindAll others.entries

end BindParams

/-- The text of a condition with its parameters. -/
structure Fragment where
  text : String
  params : BindParams

namespace Fragment

def ofText (text : String) : Fragment := ⟨text, .empty⟩

instance : Inhabited Fragment := ⟨ofText ""⟩

/-- Sets a parameter, whatever it was. -/
def withParam (f : Fragment) (name : String) (v : Value) : Fragment :=
  ⟨f.text, f.params.insert name v⟩

/-- Adds parameters to those of a fragment. -/
def mergeParams (f : Fragment) (params : BindParams) : Except SqlError Fragment := do
  let merged ← f.params.merge params
  return ⟨f.text, merged⟩

/-- Joins two fragments by a keyword. -/
def combine (f : Fragment) (keyword : String) (g : Fragment) : Except SqlError Fragment :=
  mergeParams ⟨"(" ++ f.text ++ " " ++ keyword ++ " " ++ g.text ++ ")", f.params⟩ g.params

end Fragment

end RecordFilter
