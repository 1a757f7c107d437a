import RecordFilter.Json.Basic

/-!
# Documents under construction

A TOML document is built line by line.  A table remembers how it came to be,
because that decides what may still be added: a table with a header of its own is
closed to dotted keys, and a table made by dotted keys is closed to headers.  The
finished document is JSON data.
-/

namespace RecordFilter

namespace Toml

/-- How a table came to be: by a header or braces, on the way to a header, or by a dotted key. -/
inductive Form
  | explicit
  | implicit
  | dotted
  deriving DecidableEq

/-- A part of a document. -/
inductive Node
  | value (j : Json)
  | table (form : Form) (entries : List (String × Node))
  | tables (items : List (List (String × Node)))

/-- The entries of a table. -/
abbrev Nodes := List (String × Node)

/-! ## Finished documents -/

mutual

/-- A part of a document as JSON. -/
def Node.toJson : Node → Json
  | .value j => j
  | .table _ entries => .object (nodesToJson entries)
  | .tables items => .array (itemsToJson items)

def nodesToJson : List (String × Node) → List (String × Json)
  | [] => []
  | (k, n) :: ns => (k, n.toJson) :: nodesToJson ns

def itemsToJson : List (List (String × Node)) → List Json
  | [] => []
  | ns :: items => .object (nodesToJson ns) :: itemsToJson items

end

/-! ## Changing a table deep inside -/

/-- The last of some tables changed. -/
def changeLast (change : Nodes → Option Nodes) : List Nodes → Option (List Nodes)
  | [] => none
  | [last] => (change last).map fun last => [last]
  | first :: second :: rest => (changeLast change (second :: rest)).map (first :: ·)

/-- Changes the table at a path below a table of some form.  Tables on the way are made where they
are missing; a path of dotted keys may not pass through a table with a header of its own. -/
def changeAt (dotted : Bool) (change : Form → Nodes → Option Nodes) :
    List String → Form → Nodes → Option Nodes
  | [], form, ns => change form ns
  | key :: path, _, ns =>
    match Entries.get? key ns with
    | none =>
      let form := if dotted then Form.dotted else .implicit
      (changeAt dotted change path form []).map fun made => Entries.insert key (.table form made) ns
    | some (.value _) => none
    | some (.table form below) =>
      if dotted && form = .explicit then none
      else (changeAt dotted change path form below).map fun changed =>
        Entries.insert key (.table form changed) ns
    | some (.tables items) =>
      (changeLast (changeAt dotted change path .explicit) items).map fun changed =>
        Entries.insert key (.tables changed) ns

/-! ## Lines -/

/-- Adds a key to a table; a path of dotted keys has to end in a table made by dotted keys. -/
def addKey (path : List String) (key : String) (j : Json) (form : Form) (ns : Nodes) :
    Option Nodes :=
  changeAt true
    (fun found ns =>
      if (found = .dotted) = path.isEmpty then none
      else match Entries.get? key ns with
        | some _ => none
        | none => some (Entries.insert key (.value j) ns))
    path form ns

/-- Opens the table of a header; a table that is only on the way to another becomes its own. -/
def openTable (key : String) (_form : Form) (ns : Nodes) : Option Nodes :=
  match Entries.get? key ns with
  | none => some (Entries.insert key (.table .explicit []) ns)
  | some (.table .implicit below) => some (Entries.insert key (.table .explicit below) ns)
  | some _ => none

/-- Opens another table of a list of tables. -/
def openItem (key : String) (_form : Form) (ns : Nodes) : Option Nodes :=
  match Entries.get? key ns with
  | none => some (Entries.insert key (.tables [[]]) ns)
  | some (.tables items) => some (Entries.insert key (.tables (items ++ [[]])) ns)
  | some _ => none

/-- A document up to some line: all that it holds, and the header that is in force. -/
structure Document where
  root : Nodes
  current : List String

namespace Document

def empty : Document := ⟨[], []⟩

/-- Takes in a key and its value under the header in force. -/
def addKey (d : Document) (path : List String) (key : String) (j : Json) : Option Document :=
  (changeAt false (Toml.addKey path key j) d.current .explicit d.root).map fun root =>
    { d with root }

/-- Takes in a header. -/
def header (d : Document) (isItem : Bool) (path : List String) (key : String) : Option Document :=
  let change := if isItem then openItem key else openTable key
  (changeAt false change path .explicit d.root).map fun root => ⟨root, path ++ [key]⟩

def toJson (d : Document) : Json := .object (nodesToJson d.root)

end Document

end Toml

end RecordFilter
