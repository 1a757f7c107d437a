import RecordFilter.Cli.Run

/-!
# The program

Reads what a call needs from its surroundings, runs it, and prints the result.
-/

open RecordFilter

/-- The text of a file, if there is such a file and it is a text. -/
def readText (path : String) : IO (Option String) := do
  try
    return some (← IO.FS.readFile path)
  catch _ =>
    return none

/-- The standard input, as far as a call reads it. -/
def readInput (isNeeded : Bool) : IO Program.Input := do
  let stdin ← IO.getStdin
  if ← stdin.isTty then return .terminal
  if !isNeeded then return .piped none
  return .piped (String.fromUTF8? (← stdin.readBinToEnd))

def main (arguments : List String) : IO UInt32 := do
  let configPath ← IO.getEnv "LAYERFILTER_CONFIG"
  let (path, isNeeded) := match Arguments.parse arguments with
    | .ok i => (Program.configFile i configPath, Program.readsInput i.call)
    | .error _ => (none, false)
  let text ← match path with
    | some path => readText path
    | none => pure none
  let result := Program.run ⟨fun _ => text, configPath, ← readInput isNeeded⟩ arguments
  IO.print result.out
  IO.eprint result.err
  return result.code.toUInt32
