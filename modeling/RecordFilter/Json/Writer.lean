import RecordFilter.Json.Basic

/-!
# JSON text

`Json.compact` writes a value without any blank; `Json.pretty` puts every item
and every member on a line of its own, indented by two blanks a level.
-/

namespace RecordFilter

namespace Json

/-! ## Strings -/

def hexDigit (n : Nat) : Char := if n < 10 then Char.ofNat (48 + n) else Char.ofNat (87 + n)

/-- A character of a string: only quotes, backslashes and control characters are escaped. -/
def escapeChar (c : Char) : List Char :=
  if c = '"' then ['\\', '"']
  else if c = '\\' then ['\\', '\\']
  else if c = '\x08' then ['\\', 'b']
  else if c = '\x0c' then ['\\', 'f']
  else if c = '\n' then ['\\', 'n']
  else if c = '\r' then ['\\', 'r']
  else if c = '\t' then ['\\', 't']
  else if c.toNat < 32 then ['\\', 'u', '0', '0', hexDigit (c.toNat / 16), hexDigit (c.toNat % 16)]
  else [c]

def quote (s : String) : String :=
  String.ofList ('"' :: s.toList.flatMap escapeChar ++ ['"'])

def numberText (negative : Bool) (m : Magnitude) : String :=
  String.ofList (Binary64.signText negative (Binary64.dataChars m))

/-! ## Compact form -/

mutual

/-- The value without blanks. -/
def compact : Json → String
  | null => "null"
  | bool b => if b then "true" else "false"
  | integer n => toString n
  | float negative m => numberText negative m
  | string s => quote s
  | array items => "[" ++ ",".intercalate (compactItems items) ++ "]"
  | object members => "\x7b" ++ ",".intercalate (compactMembers members) ++ "\x7d"

def compactItems : List Json → List String
  | [] => []
  | j :: js => compact j :: compactItems js

def compactMembers : List (String × Json) → List String
  | [] => []
  | (k, j) :: js => (quote k ++ ":" ++ compact j) :: compactMembers js

end

/-! ## Indented form -/

def newline (level : Nat) : String := "\n" ++ String.ofList (List.replicate (2 * level) ' ')

/-- Entries between brackets, each on its own line; nothing stands between the brackets of none. -/
def bracketed (opening closing : String) (level : Nat) : List String → String
  | [] => opening ++ closing
  | es =>
    opening ++ newline (level + 1) ++ ("," ++ newline (level + 1)).intercalate es
      ++ newline level ++ closing

mutual

/-- The value with every item and member on its own line, at a level of nesting. -/
def indented (level : Nat) : Json → String
  | array items => bracketed "[" "]" level (indentedItems (level + 1) items)
  | object members => bracketed "\x7b" "\x7d" level (indentedMembers (level + 1) members)
  | null => "null"
  | bool b => if b then "true" else "false"
  | integer n => toString n
  | float negative m => numberText negative m
  | string s => quote s

def indentedItems (level : Nat) : List Json → List String
  | [] => []
  | j :: js => indented level j :: indentedItems level js

def indentedMembers (level : Nat) : List (String × Json) → List String
  | [] => []
  | (k, j) :: js => (quote k ++ ": " ++ indented level j) :: indentedMembers level js

end

def pretty (j : Json) : String := indented 0 j

end Json

end RecordFilter
