import RecordFilter.Cli.Arguments
import RecordFilter.Cli.Command
import RecordFilter.Json.Writer

/-!
# Running the program

`Program.run` is a call of the program as a function: from its arguments and from
what surrounds it to what it prints and its exit code.  A failed command exits
with 1 and a wrong call with 2.
-/

namespace RecordFilter

namespace Program

/-- The standard input: a terminal, or a pipe, whose bytes may not be a text. -/
inductive Input
  | terminal
  | piped (text : Option String)

/-- What surrounds a call: the texts of files, a configuration that is named for every call, and
the standard input. -/
structure Surroundings where
  file : String → Option String
  configPath : Option String
  input : Input

/-- What a call prints, and its exit code. -/
structure Result where
  code : Nat
  out : String
  err : String

def version : String := "layerfilter 0.1.0"

/-! ## Reading -/

/-- The file with the configuration of a call, if there is one. -/
def configFile (i : Invocation) (configPath : Option String) : Option String :=
  i.config.or configPath

/-- The configuration of a call. -/
def config (s : Surroundings) (i : Invocation) : Except CommandError Config :=
  match configFile i s.configPath with
  | none => .ok .empty
  | some path =>
    match s.file path with
    | none => .error (.unreadableConfig path)
    | some text =>
      match Config.ofToml? text with
      | some c => .ok c
      | none => .error .invalidConfig

/-- Whether a call reads the standard input. -/
def readsInput : CommandCall → Bool
  | .check _ none _ _ false => true
  | .convert none _ => true
  | _ => false

/-- The input of a call: its own, or the standard input where it is a pipe. -/
def input (s : Surroundings) (own : Option String) : Except CommandError (Option String) :=
  match own, s.input with
  | some text, _ => .ok (some text)
  | none, .terminal => .ok none
  | none, .piped (some text) => .ok (some text)
  | none, .piped none => .error .unreadableInput

/-! ## Commands -/

def line (s : String) : String := s ++ "\n"

def checkText (pretty : Bool) : Command.CheckResult → String
  | .syntaxValid => line "Syntax is valid"
  | .matched b => line (if b then "true" else "false")
  | .selected members =>
    line (if pretty then (Json.array members).pretty else (Json.array members).compact)

def fragmentText (f : Fragment) : String :=
  line f.text ++ if f.params.isEmpty then "" else line (Command.paramsJson f.params).compact

/-- What a command prints. -/
def output (s : Surroundings) (c : Config) : CommandCall → Except CommandError String
  | .check expression own assignments pretty syntaxOnly => do
    let text ← if syntaxOnly then .ok own else input s own
    let session ← Command.assignAll c.session assignments
    let result ← Command.check expression text session syntaxOnly
    return checkText pretty result
  | .sql expression dialect table assignments => do
    let session ← Command.assignAll c.session assignments
    let f ← Command.sql expression dialect table c session
    return fragmentText f
  | .fields expression => do
    let names ← Command.fields expression
    return String.join (names.map line)
  | .tree expression => Command.tree expression
  | .convert own isStrict => do
    let text ← input s own
    let e ← Command.convert text (if isStrict then .strict else .lenient)
    return line e

/-- Runs a call. -/
def runInvocation (s : Surroundings) (i : Invocation) : Result :=
  match config s i >>= fun c => output s c i.call with
  | .ok text => ⟨0, text, ""⟩
  | .error e => ⟨1, "", line e.message⟩

/-- Runs the program on its arguments. -/
def run (s : Surroundings) (arguments : List String) : Result :=
  match Arguments.parse arguments with
  | .ok i => runInvocation s i
  | .error .version => ⟨0, line version, ""⟩
  | .error .help => ⟨0, "", ""⟩
  | .error .usage => ⟨2, "", line "usage: layerfilter [--config FILE] check|sql|fields|tree|convert"⟩

end Program

end RecordFilter
