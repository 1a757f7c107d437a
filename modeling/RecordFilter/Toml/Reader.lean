import RecordFilter.Json.Reader
import RecordFilter.Toml.Tree

/-!
# Reading TOML

`Toml.parse?` reads a TOML 1.0 document without dates and times as JSON data.
Numbers that are not finite become `null`.
-/

namespace RecordFilter

namespace Toml

open Json (Read hexValue?)

/-! ## Blanks and comments -/

def isBlank (c : Char) : Bool := c = ' ' || c = '\t'

def skipBlank (cs : List Char) : List Char := cs.dropWhile isBlank

/-- Characters that may stand in comments and for themselves in strings. -/
def isTextChar (c : Char) : Bool := c = '\t' || (32 ≤ c.toNat && c.toNat ≠ 127)

/-- Takes the end of a line off the front of a text. -/
def lineBreak? : List Char → Option (List Char)
  | '\n' :: cs => some cs
  | '\r' :: '\n' :: cs => some cs
  | _ => none

/-- Leaves out blanks and a comment. -/
def skipComment (cs : List Char) : List Char :=
  match skipBlank cs with
  | '#' :: rest => rest.dropWhile isTextChar
  | rest => rest

/-- Takes the rest of a line, which may hold a comment, off the front of a text. -/
def lineEnd? (cs : List Char) : Option (List Char) :=
  match skipComment cs with
  | [] => some []
  | rest => lineBreak? rest

/-- Leaves out blanks, comments and ends of lines. -/
def skipLines : Nat → List Char → List Char
  | 0, cs => cs
  | fuel + 1, cs =>
    match lineBreak? (skipComment cs) with
    | some rest => skipLines fuel rest
    | none => skipComment cs

def skipAll (cs : List Char) : List Char := skipLines (cs.length + 1) cs

/-! ## Strings -/

/-- The character with a number. -/
def scalar? (n : Nat) : Option Char := if n.isValidChar then some (Char.ofNat n) else none

/-- The character of an escape, behind its backslash. -/
def escape : Read Char
  | 'b' :: cs => some ('\x08', cs)
  | 't' :: cs => some ('\t', cs)
  | 'n' :: cs => some ('\n', cs)
  | 'f' :: cs => some ('\x0c', cs)
  | 'r' :: cs => some ('\r', cs)
  | '"' :: cs => some ('"', cs)
  | '\\' :: cs => some ('\\', cs)
  | 'u' :: cs => numbered 4 cs
  | 'U' :: cs => numbered 8 cs
  | _ => none
where
  numbered (n : Nat) (cs : List Char) : Option (Char × List Char) :=
    if (cs.take n).length = n then
      (Json.hexNumber? (cs.take n) >>= scalar?).map fun c => (c, cs.drop n)
    else none

/-- A string between double quotes, behind the first. -/
def basicTail : Nat → Read (List Char)
  | 0, _ => none
  | fuel + 1, cs =>
    match cs with
    | '"' :: rest => some ([], rest)
    | '\\' :: rest => do
      let (c, rest) ← escape rest
      let (s, rest) ← basicTail fuel rest
      return (c :: s, rest)
    | c :: rest => if isTextChar c then (basicTail fuel rest).map fun (s, r) => (c :: s, r) else none
    | [] => none

/-- A string between single quotes, behind the first. -/
def literalTail : Read (List Char)
  | [] => none
  | c :: cs =>
    if c = '\x27' then some ([], cs)
    else if isTextChar c then (literalTail cs).map fun (s, r) => (c :: s, r)
    else none

/-- Leaves out blanks and ends of lines. -/
def skipBreaks : List Char → List Char
  | '\r' :: '\n' :: cs => skipBreaks cs
  | c :: cs => if isBlank c || c = '\n' then skipBreaks cs else c :: cs
  | [] => []

/-- The text behind a backslash at the end of a line, from the next character on. -/
def continued? (cs : List Char) : Option (List Char) := (lineBreak? (skipBlank cs)).map skipBreaks

/-- A string between triple quotes, behind the first three.  Two quotes may stand for themselves,
also right before the last three. -/
def multilineTail (quote : Char) (escapes : Bool) : Nat → Read (List Char)
  | 0, _ => none
  | fuel + 1, cs =>
    match cs with
    | [] => none
    | c :: rest =>
      if c = quote then
        let run := (cs.takeWhile (· = quote)).length
        if run < 3 then
          (multilineTail quote escapes fuel (cs.drop run)).map fun (s, r) =>
            (List.replicate run quote ++ s, r)
        else if run ≤ 5 then some (List.replicate (run - 3) quote, cs.drop run)
        else none
      else if escapes && c = '\\' then
        match continued? rest with
        | some rest => multilineTail quote escapes fuel rest
        | none => do
          let (e, rest) ← escape rest
          let (s, rest) ← multilineTail quote escapes fuel rest
          return (e :: s, rest)
      else match lineBreak? cs with
        | some rest => (multilineTail quote escapes fuel rest).map fun (s, r) => ('\n' :: s, r)
        | none =>
          if isTextChar c then
            (multilineTail quote escapes fuel rest).map fun (s, r) => (c :: s, r)
          else none

/-- Leaves out the end of a line right behind the opening quotes. -/
def dropFirstBreak (cs : List Char) : List Char := (lineBreak? cs).getD cs

/-- A string on one line. -/
def lineString : Read String
  | '"' :: cs => (basicTail (cs.length + 1) cs).map fun (s, r) => (String.ofList s, r)
  | '\x27' :: cs => (literalTail cs).map fun (s, r) => (String.ofList s, r)
  | _ => none

/-- A string of either kind. -/
def string : Read String
  | '"' :: '"' :: '"' :: cs =>
    (multilineTail '"' true (cs.length + 1) (dropFirstBreak cs)).map fun (s, r) =>
      (String.ofList s, r)
  | '\x27' :: '\x27' :: '\x27' :: cs =>
    (multilineTail '\x27' false (cs.length + 1) (dropFirstBreak cs)).map fun (s, r) =>
      (String.ofList s, r)
  | cs => lineString cs

/-! ## Keys -/

def isKeyChar (c : Char) : Bool := c.isAlphanum || c = '_' || c = '-'

/-- One part of a key. -/
def simpleKey : Read String
  | [] => none
  | c :: cs =>
    if c = '"' || c = '\x27' then lineString (c :: cs)
    else if isKeyChar c then
      some (String.ofList ((c :: cs).takeWhile isKeyChar), (c :: cs).dropWhile isKeyChar)
    else none

/-- The parts of a key, with blanks around each. -/
def keyParts : Nat → Read (List String)
  | 0, _ => none
  | fuel + 1, cs => do
    let (part, cs) ← simpleKey (skipBlank cs)
    match skipBlank cs with
    | '.' :: cs =>
      let (parts, cs) ← keyParts fuel cs
      return (part :: parts, cs)
    | cs => return ([part], cs)

/-- How deep values may be nested, and how many parts a key may have. -/
def depthLimit : Nat := 79

/-- A key: the path to its table, and its name there. -/
def key : Read (List String × String) := fun cs => do
  let (parts, cs) ← keyParts (cs.length + 1) cs
  if depthLimit < parts.length then none
  let name ← parts.getLast?
  return ((parts.dropLast, name), cs)

/-! ## Numbers -/

/-- Digits with single underscores between them. -/
def digitRun (isOk : Char → Bool) : Nat → Read (List Char)
  | 0, _ => none
  | fuel + 1, cs =>
    match cs with
    | c :: '_' :: d :: rest =>
      if isOk c then
        if isOk d then (digitRun isOk fuel (d :: rest)).map fun (ds, r) => (c :: ds, r)
        else some ([c], '_' :: d :: rest)
      else none
    | c :: rest =>
      if isOk c then
        match digitRun isOk fuel rest with
        | some (ds, r) => some (c :: ds, r)
        | none => some ([c], rest)
      else none
    | [] => none

def decimalRun (cs : List Char) : Option (List Char × List Char) := digitRun isDigit (cs.length + 1) cs

/-- The number of digits in a base. -/
def ofBase (base : Nat) (ds : List Char) : Nat :=
  ds.foldl (fun n c => base * n + (hexValue? c).getD 0) 0

/-- A whole number in another base than ten; it has no sign. -/
def basedInteger (base : Nat) : Read Json := fun cs => do
  let isOk c := match hexValue? c with
    | some n => n < base
    | none => false
  let (ds, cs) ← digitRun isOk (cs.length + 1) cs
  let n ← int64OfInt? (ofBase base ds)
  return (.integer n.toInt, cs)

/-- The digits before the point: a zero stands alone. -/
def wholeRun (cs : List Char) : Option (List Char × List Char) :=
  match cs with
  | '0' :: rest => some (['0'], rest)
  | cs => decimalRun cs

/-- A fraction, if a point announces one. -/
def fractionRun : Read (Option (List Char))
  | '.' :: cs => (decimalRun cs).map fun (ds, r) => (some ds, r)
  | cs => some (none, cs)

/-- An exponent, if a mark announces one. -/
def exponentRun : Read (Option Int)
  | 'e' :: cs | 'E' :: cs =>
    let (negative, cs) := splitSign cs
    (decimalRun cs).map fun (ds, r) => (some (applySign negative (ofDigits ds)), r)
  | cs => some (none, cs)

/-- A number in base ten.  One with a fraction or an exponent may not be too large, unless it is
negative; a whole one has to fit 64 bits. -/
def decimalNumber (negative : Bool) : Read Json := fun cs => do
  let (whole, cs) ← wholeRun cs
  let (fraction, cs) ← fractionRun cs
  let (exponent, cs) ← exponentRun cs
  match fraction, exponent with
  | none, none =>
    let n ← int64OfInt? (applySign negative (ofDigits whole))
    return (.integer n.toInt, cs)
  | _, _ =>
    let x := Binary64.ofDecimal negative (.ofParts whole (fraction.getD []) (exponent.getD 0))
    if x = .infinite false then none
    return (.ofBinary64 x, cs)

def isNamed : List Char → Bool
  | 'i' :: 'n' :: 'f' :: _ => true
  | 'n' :: 'a' :: 'n' :: _ => true
  | _ => false

/-- A number of any kind; the named ones are not finite. -/
def number (cs : List Char) : Option (Json × List Char) :=
  match cs with
  | '0' :: 'x' :: rest => basedInteger 16 rest
  | '0' :: 'o' :: rest => basedInteger 8 rest
  | '0' :: 'b' :: rest => basedInteger 2 rest
  | cs =>
    let signed := cs.head? == some '-' || cs.head? == some '+'
    let text := if signed then cs.drop 1 else cs
    if isNamed text then some (.null, text.drop 3)
    else decimalNumber (cs.head? == some '-') text

/-! ## Values -/

mutual

/-- A value; `depth` is how many arrays and inline tables may still be opened. -/
def value : Nat → Nat → Read Json
  | 0, _, _ => none
  | fuel + 1, depth, cs =>
    match cs with
    | '"' :: _ | '\x27' :: _ => (string cs).map fun (s, r) => (.string s, r)
    | 't' :: cs => Json.word ['r', 'u', 'e'] (.bool true) cs
    | 'f' :: cs => Json.word ['a', 'l', 's', 'e'] (.bool false) cs
    | '[' :: cs =>
      match depth with
      | 0 => none
      | depth + 1 => (items fuel depth cs).map fun (js, r) => (.array js, r)
    | '{' :: cs =>
      match depth, skipBlank cs with
      | 0, _ => none
      | _ + 1, '}' :: rest => some (.object [], rest)
      | depth + 1, _ => (pairs fuel depth [] cs).map fun (ns, r) => (.object (nodesToJson ns), r)
    | cs => number cs

/-- The items of an array up to its closing bracket; a comma may stand behind the last. -/
def items : Nat → Nat → Read (List Json)
  | 0, _, _ => none
  | fuel + 1, depth, cs =>
    match skipAll cs with
    | ']' :: rest => some ([], rest)
    | cs => do
      let (j, cs) ← value fuel depth cs
      match skipAll cs with
      | ',' :: cs =>
        let (js, cs) ← items fuel depth cs
        return (j :: js, cs)
      | ']' :: cs => return ([j], cs)
      | _ => none

/-- The entries of an inline table, added to those before them, up to its closing brace. -/
def pairs : Nat → Nat → Nodes → Read Nodes
  | 0, _, _, _ => none
  | fuel + 1, depth, ns, cs => do
    let ((path, name), cs) ← key cs
    match cs with
    | '=' :: cs =>
      let (j, cs) ← value fuel depth (skipBlank cs)
      let ns ← addKey path name j .explicit ns
      match skipBlank cs with
      | ',' :: cs => pairs fuel depth ns cs
      | '}' :: cs => return (ns, cs)
      | _ => none
    | _ => none

end

/-! ## Lines -/

/-- A header: whether it opens an item of a list, and its key. -/
def header : Read (Bool × List String × String)
  | '[' :: '[' :: cs =>
    match key cs with
    | some ((path, name), ']' :: ']' :: rest) => some ((true, path, name), rest)
    | _ => none
  | '[' :: cs =>
    match key cs with
    | some ((path, name), ']' :: rest) => some ((false, path, name), rest)
    | _ => none
  | _ => none

/-- Takes the lines of a text into a document. -/
def lines : Nat → Document → List Char → Option Document
  | 0, _, _ => none
  | fuel + 1, d, cs =>
    match skipAll cs with
    | [] => some d
    | '[' :: rest => do
      let ((isItem, path, name), rest) ← header ('[' :: rest)
      lines fuel (← d.header isItem path name) (← lineEnd? rest)
    | cs => do
      let ((path, name), cs) ← key cs
      match cs with
      | '=' :: cs =>
        let (j, cs) ← value (2 * cs.length + 1) depthLimit (skipBlank cs)
        lines fuel (← d.addKey path name j) (← lineEnd? cs)
      | _ => none

/-- Leaves out a byte order mark. -/
def dropMark : List Char → List Char
  | '\uFEFF' :: cs => cs
  | cs => cs

/-- The data of a document. -/
def parse? (text : String) : Option Json :=
  let cs := dropMark text.toList
  (lines (cs.length + 1) .empty cs).map Document.toJson

end Toml

end RecordFilter
