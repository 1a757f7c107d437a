import RecordFilter.Text.Case

/-!
# Patterns

A pattern is a list of items: `%` is any run of characters, `_` any one
character, a backslash makes the character behind it stand for itself, and all
other characters stand for themselves.  A pattern is matched from its end: the
flags of a list of items tell for every end of a text whether the items match it.

    accepts eq ps cs = true ↔ cs is in the language of ps
-/

namespace RecordFilter

/-- An item of a pattern. -/
inductive PatternItem
  | anyRun
  | anyChar
  | literal (c : Char)
  deriving DecidableEq

namespace Pattern

/-! ## Reading -/

/-- The items of a pattern; a backslash at the end stands for itself. -/
def items : List Char → List PatternItem
  | [] => []
  | '\\' :: c :: cs => .literal c :: items cs
  | '%' :: cs => .anyRun :: items cs
  | '_' :: cs => .anyChar :: items cs
  | c :: cs => .literal c :: items cs

/-- About how many single-character wildcards a pattern may have. -/
def wildcardLimit : Nat := 10000

/-- Whether a pattern is too large to be matched.  This is an approximation: the limit is on the size of
the compiled pattern, to which runs and literals add as well.  The two differ only on patterns of
thousands of items. -/
def isTooLarge (ps : List PatternItem) : Bool := wildcardLimit < ps.count .anyChar

/-! ## Matching -/

/-- The flags when one character has to satisfy a test and the rest the flags behind it. -/
def flagsOne (ok : Char → Bool) : List Char → List Bool → List Bool
  | c :: cs, _ :: next => (ok c && next.headD false) :: flagsOne ok cs next
  | _, _ => [false]

/-- The flags when any run of characters may come first. -/
def flagsRun : List Bool → List Bool
  | [] => []
  | b :: bs =>
    let later := flagsRun bs
    (b || later.headD false) :: later

/-- For every end of a text, the whole text first, whether the items match it. -/
def flags (eq : Char → Char → Bool) : List PatternItem → List Char → List Bool
  | [], [] => [true]
  | [], _ :: cs => false :: flags eq [] cs
  | .anyRun :: ps, cs => flagsRun (flags eq ps cs)
  | .anyChar :: ps, cs => flagsOne (fun _ => true) cs (flags eq ps cs)
  | .literal l :: ps, cs => flagsOne (eq l) cs (flags eq ps cs)

/-- Whether the items match the whole of a text. -/
def accepts (eq : Char → Char → Bool) (ps : List PatternItem) (cs : List Char) : Bool :=
  (flags eq ps cs).headD false

def sameChar (a b : Char) : Bool := a == b

def sameUpToCase (a b : Char) : Bool := foldChar a == foldChar b

/-! ## Regular expressions -/

/-- Whether a character has a meaning of its own in a regular expression. -/
def isSpecial (c : Char) : Bool :=
  ['\\', '.', '+', '*', '?', '(', ')', '|', '[', ']', '{', '}', '^', '$', '#', '&', '-', '~'].contains c

def itemRegex : PatternItem → List Char
  | .anyRun => ['.', '*']
  | .anyChar => ['.']
  | .literal c => if isSpecial c then ['\\', c] else [c]

/-- The pattern as a regular expression for whole texts. -/
def regex (pattern : String) : String :=
  String.ofList ('^' :: (items pattern.toList).flatMap itemRegex ++ ['$'])

end Pattern

end RecordFilter
