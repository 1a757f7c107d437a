import RecordFilter.Sql.Dialect
import RecordFilter.Text.Blank

/-!
# Arguments

The arguments of the program: options of its own, a command, and the options and
the one expression of the command.  `--config` and `--log-level` may stand on
either side of the command.
-/

namespace RecordFilter

/-- A command with its arguments. -/
inductive CommandCall
  | check (expression : String) (input : Option String) (assignments : List String)
      (pretty syntaxOnly : Bool)
  | sql (expression : String) (dialect : Option Dialect) (table : Option String)
      (assignments : List String)
  | fields (expression : String)
  | tree (expression : String)
  | convert (input : Option String) (isStrict : Bool)

/-- A call of the program. -/
structure Invocation where
  config : Option String
  call : CommandCall

/-- Why no command is run. -/
inductive Stop
  | usage
  | help
  | version

namespace Arguments

/-! ## Options -/

/-- An option: its names, whether a value follows, and whether it may be repeated. -/
structure OptionSpec where
  long : String
  short : Option Char
  hasValue : Bool
  isRepeatable : Bool
  accepts : String → Bool

def flag (long : String) (short : Option Char) : OptionSpec :=
  ⟨long, short, false, false, fun _ => true⟩

def valued (long : String) (short : Option Char) : OptionSpec :=
  ⟨long, short, true, false, fun _ => true⟩

/-- What has been read of the arguments of a level: options with their values, and the rest. -/
structure Found where
  options : List (String × String)
  positional : List String

namespace Found

def empty : Found := ⟨[], []⟩

/-- The value of an option that may not be repeated. -/
def value? (f : Found) (long : String) : Option String := Entries.get? long f.options

/-- The values of an option in the order of the arguments. -/
def values (f : Found) (long : String) : List String :=
  (f.options.filter fun o => o.1 = long).map (·.2)

def has (f : Found) (long : String) : Bool := (f.value? long).isSome

/-- Takes in an option with its value. -/
def addOption (f : Found) (spec : OptionSpec) (v : String) : Except Stop Found :=
  if !spec.accepts v || (f.has spec.long && !spec.isRepeatable) then .error .usage
  else .ok { f with options := f.options ++ [(spec.long, v)] }

end Found

/-- The options of a level, its commands, and how many other arguments it takes. -/
structure Level where
  options : List OptionSpec
  commands : List String
  positionals : Nat
  hasVersion : Bool

/-! ## One argument -/

/-- How an argument looks. -/
inductive Shape
  | escape
  | long (name : String) (attached : Option String)
  | short (letters : List Char)
  | plain

def shape (argument : String) : Shape :=
  match argument.toList with
  | ['-', '-'] => .escape
  | '-' :: '-' :: cs =>
    match splitAtChar '=' (String.ofList cs) with
    | some (name, v) => .long name (some v)
    | none => .long (String.ofList cs) none
  | '-' :: c :: cs => .short (c :: cs)
  | _ => .plain

def isPlain (argument : String) : Bool :=
  match shape argument with
  | .plain => true
  | _ => false

/-- Takes in an option whose value is the next argument. -/
def takeNext (found : Found) (spec : OptionSpec) :
    List String → Except Stop (Found × List String)
  | v :: rest =>
    if isPlain v then (found.addOption spec v).map fun f => (f, rest) else .error .usage
  | [] => .error .usage

/-- Reads an option with its long name. -/
def long (level : Level) (found : Found) (name : String) (attached : Option String)
    (rest : List String) : Except Stop (Found × List String) :=
  match level.options.find? fun s => s.long = name, attached with
  | some spec, some v =>
    if spec.hasValue then (found.addOption spec v).map fun f => (f, rest) else .error .usage
  | some spec, none =>
    if spec.hasValue then takeNext found spec rest
    else (found.addOption spec "").map fun f => (f, rest)
  | none, some _ => .error .usage
  | none, none =>
    if name = "help" then .error .help
    else if name = "version" && level.hasVersion then .error .version
    else .error .usage

/-- Reads options with their short names; the value of one may follow at once, also behind `=`. -/
def short (level : Level) (found : Found) (rest : List String) :
    List Char → Except Stop (Found × List String)
  | [] => .ok (found, rest)
  | c :: cs =>
    match level.options.find? fun s => s.short = some c with
    | some spec =>
      if spec.hasValue then
        match cs with
        | [] => takeNext found spec rest
        | '=' :: v => (found.addOption spec (String.ofList v)).map fun f => (f, rest)
        | v => (found.addOption spec (String.ofList v)).map fun f => (f, rest)
      else do
        let found ← found.addOption spec ""
        short level found rest cs
    | none =>
      if c = 'h' then .error .help
      else if c = 'V' && level.hasVersion then .error .version
      else .error .usage

/-! ## One level -/

/-- Takes in an argument that is not an option. -/
def plain (level : Level) (found : Found) (argument : String) : Except Stop Found :=
  if found.positional.length < level.positionals then
    .ok { found with positional := found.positional ++ [argument] }
  else .error .usage

def plainAll (level : Level) (found : Found) : List String → Except Stop Found
  | [] => .ok found
  | argument :: rest => do
    let found ← plain level found argument
    plainAll level found rest

/-- Reads the arguments of a level, up to a command if it has commands. -/
def scan (level : Level) :
    Nat → Found → List String → Except Stop (Found × Option (String × List String))
  | 0, _, _ => .error .usage
  | _ + 1, found, [] => .ok (found, none)
  | fuel + 1, found, argument :: rest =>
    if level.commands.contains argument then .ok (found, some (argument, rest))
    else match shape argument with
      | .escape => (plainAll level found rest).map fun f => (f, none)
      | .long name attached => do
        let (found, rest) ← long level found name attached rest
        scan level fuel found rest
      | .short letters => do
        let (found, rest) ← short level found rest letters
        scan level fuel found rest
      | .plain => do
        let found ← plain level found argument
        scan level fuel found rest

def scanAll (level : Level) (arguments : List String) :
    Except Stop (Found × Option (String × List String)) :=
  scan level (arguments.length + 1) .empty arguments

/-! ## The program -/

/-- Options that may stand on either side of the command. -/
def shared : List OptionSpec :=
  [valued "log-level" none, ⟨"config", none, true, false, fun v => !v.isEmpty⟩]

def commandNames : List String := ["check", "sql", "fields", "tree", "convert"]

def program : Level := ⟨shared, "help" :: commandNames, 0, true⟩

def variableOption : OptionSpec := ⟨"var", none, true, true, fun _ => true⟩

/-- The level of a command. -/
def commandLevel : String → Level
  | "check" =>
    ⟨shared ++ [valued "input" (some 'i'), variableOption, flag "pretty" (some 'p'),
      flag "syntax-only" none], [], 1, false⟩
  | "sql" =>
    ⟨shared ++ [⟨"dialect", some 'd', true, false, fun v => (Dialect.ofName? v).isSome⟩,
      valued "table" (some 't'), variableOption], [], 1, false⟩
  | "convert" => ⟨shared ++ [valued "input" (some 'i'), flag "strict" none], [], 0, false⟩
  | _ => ⟨shared, [], 1, false⟩

/-- The call of a command, given its arguments. -/
def commandCall (name : String) (f : Found) : Except Stop CommandCall :=
  match name, f.positional with
  | "check", [e] =>
    .ok (.check e (f.value? "input") (f.values "var") (f.has "pretty") (f.has "syntax-only"))
  | "sql", [e] =>
    .ok (.sql e (f.value? "dialect" >>= Dialect.ofName?) (f.value? "table") (f.values "var"))
  | "fields", [e] => .ok (.fields e)
  | "tree", [e] => .ok (.tree e)
  | "convert", [] => .ok (.convert (f.value? "input") (f.has "strict"))
  | _, _ => .error .usage

/-- What follows `help`: at most the name of a command. -/
def helpOn : List String → Stop
  | [] => .help
  | [name] => if program.commands.contains name then .help else .usage
  | _ => .usage

/-- The call that arguments stand for. -/
def parse (arguments : List String) : Except Stop Invocation := do
  let (outer, command) ← scanAll program arguments
  match command with
  | none => .error .usage
  | some ("help", rest) => .error (helpOn rest)
  | some (name, rest) =>
    let (inner, _) ← scanAll (commandLevel name) rest
    let call ← commandCall name inner
    return ⟨(inner.value? "config").or (outer.value? "config"), call⟩

end Arguments

end RecordFilter
