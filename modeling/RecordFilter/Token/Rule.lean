import RecordFilter.Text.Case
import RecordFilter.Text.Word
import RecordFilter.Token.Basic

/-!
# Token rules

The lexical grammar is a table of rules, tried in order.  A rule splits a lexeme
off the front of a text and reads the part of it that carries the token; a text
can have the shape of a rule and still no reading.  Every rule comes with the law
that its lexeme is a non-empty beginning of the text.
-/

namespace RecordFilter

/-- A lexeme split off a text: all of it, the part that is read, and the text behind it. -/
structure Lexeme where
  whole : List Char
  inner : List Char
  rest : List Char

/-- The lexeme is a beginning of `cs`, and not an empty one. -/
def Lexeme.Begins (l : Lexeme) (cs : List Char) : Prop := l.whole ≠ [] ∧ l.whole ++ l.rest = cs

/-- One kind of lexeme and its reading. -/
structure TokenRule where
  split : List Char → Option Lexeme
  read : List Char → Option Token
  begins : ∀ cs l, split cs = some l → l.Begins cs

namespace TokenRule

/-! ## Names between brackets -/

/-- A name of one character or more between two brackets. -/
def splitBracketed (opening closing : Char) (allowed : Char → Bool) : List Char → Option Lexeme
  | [] => none
  | c :: cs =>
    if c = opening then
      match cs.takeWhile allowed, cs.dropWhile allowed with
      | n :: name, d :: rest =>
        if d = closing then some ⟨opening :: (n :: name) ++ [closing], n :: name, rest⟩ else none
      | _, _ => none
    else none

theorem splitBracketed_begins (opening closing : Char) (allowed : Char → Bool) (cs : List Char)
    (l : Lexeme) (h : splitBracketed opening closing allowed cs = some l) : l.Begins cs := by
  cases cs with
  | nil => simp [splitBracketed] at h
  | cons c cs =>
    simp only [splitBracketed] at h
    split at h
    · rename_i hc
      split at h
      · rename_i n name d rest ht hd
        split at h
        · rename_i hdc
          cases h
          refine ⟨by simp, ?_⟩
          have hs := List.takeWhile_append_dropWhile (p := allowed) (l := cs)
          rw [ht, hd] at hs
          simp [← hs, hc, hdc]
        · simp at h
      · simp at h
    · simp at h

/-- `[name]`. -/
def field : TokenRule where
  split := splitBracketed '[' ']' (· != ']')
  read cs := some (.field (String.ofList cs))
  begins := splitBracketed_begins _ _ _

/-- `{name}`; neither brace may occur in the name. -/
def var : TokenRule where
  split := splitBracketed '{' '}' fun c => c != '{' && c != '}'
  read cs := some (.var (String.ofList cs))
  begins := splitBracketed_begins _ _ _

/-! ## Strings -/

/-- The body of a string behind its opening quote: the body up to the last closing quote that can
be reached, and the text behind it.  A quote may close the string, and two quotes may stand for one. -/
def splitBody : List Char → Option (List Char × List Char)
  | [] => none
  | '\x27' :: '\x27' :: cs =>
    match splitBody cs with
    | some (body, rest) => some ('\x27' :: '\x27' :: body, rest)
    | none => some ([], '\x27' :: cs)
  | c :: cs =>
    if c = '\x27' then some ([], cs)
    else (splitBody cs).map fun (body, rest) => (c :: body, rest)

theorem splitBody_append (cs body rest : List Char) (h : splitBody cs = some (body, rest)) :
    body ++ '\x27' :: rest = cs := by
  fun_induction splitBody cs generalizing body rest with
  | case1 => simp at h
  | case2 cs b r hb ih => cases h; simp [ih b r hb]
  | case3 cs hb => cases h; rfl
  | case4 => cases h; rfl
  | case5 _ _ _ _ ih =>
    obtain ⟨⟨b, r⟩, hb, he⟩ := Option.map_eq_some_iff.1 h
    cases he
    simp [ih _ _ hb]

def splitString : List Char → Option Lexeme
  | [] => none
  | c :: cs =>
    if c = '\x27' then
      match splitBody cs with
      | some (body, rest) => some ⟨'\x27' :: body ++ ['\x27'], body, rest⟩
      | none => none
    else none

theorem splitString_begins (cs : List Char) (l : Lexeme) (h : splitString cs = some l) :
    l.Begins cs := by
  cases cs with
  | nil => simp [splitString] at h
  | cons c cs =>
    simp only [splitString] at h
    split at h
    · rename_i hc
      split at h
      · rename_i body rest hb
        cases h
        exact ⟨by simp, by simp [← splitBody_append _ _ _ hb, hc]⟩
      · simp at h
    · simp at h

/-- A body with every pair of quotes made one. -/
def unquote : List Char → List Char
  | [] => []
  | '\x27' :: '\x27' :: cs => '\x27' :: unquote cs
  | c :: cs => c :: unquote cs

/-- `'text'`. -/
def string : TokenRule where
  split := splitString
  read cs := some (.string (String.ofList (unquote cs)))
  begins := splitString_begins

/-! ## Numbers -/

/-- A minus sign, if there is one, set apart. -/
def splitMinus : List Char → List Char × List Char
  | '-' :: cs => (['-'], cs)
  | cs => ([], cs)

theorem splitMinus_append (cs : List Char) : (splitMinus cs).1 ++ (splitMinus cs).2 = cs := by
  unfold splitMinus; split <;> rfl

/-- Digits with a point before the last run: `1.5`, `.5`, `-0.5`. -/
def splitFloat (cs : List Char) : Option Lexeme :=
  let sign := (splitMinus cs).1
  let text := (splitMinus cs).2
  let whole := text.takeWhile isDigit
  match text.dropWhile isDigit with
  | '.' :: behind =>
    let fraction := behind.takeWhile isDigit
    if fraction.isEmpty then none
    else
      let lexeme := sign ++ (whole ++ '.' :: fraction)
      some ⟨lexeme, lexeme, behind.dropWhile isDigit⟩
  | _ => none

theorem splitFloat_begins (cs : List Char) (l : Lexeme) (h : splitFloat cs = some l) :
    l.Begins cs := by
  simp only [splitFloat] at h
  split at h
  · rename_i behind hd
    split at h
    · simp at h
    · cases h
      refine ⟨by simp, ?_⟩
      have hs := List.takeWhile_append_dropWhile (p := isDigit) (l := (splitMinus cs).2)
      rw [hd] at hs
      have hf := List.takeWhile_append_dropWhile (p := isDigit) (l := behind)
      simp only [List.append_assoc, List.cons_append]
      rw [hf, hs, splitMinus_append]
  · simp at h

def splitInteger (cs : List Char) : Option Lexeme :=
  let sign := (splitMinus cs).1
  let text := (splitMinus cs).2
  let ds := text.takeWhile isDigit
  if ds.isEmpty then none else some ⟨sign ++ ds, sign ++ ds, text.dropWhile isDigit⟩

theorem splitInteger_begins (cs : List Char) (l : Lexeme) (h : splitInteger cs = some l) :
    l.Begins cs := by
  simp only [splitInteger] at h
  split at h
  · simp at h
  · rename_i hne
    cases h
    refine ⟨fun h0 => hne (by simp_all), ?_⟩
    simp only [List.append_assoc]
    rw [List.takeWhile_append_dropWhile, splitMinus_append]

def float : TokenRule where
  split := splitFloat
  read cs := (binary64OfChars? cs).map .float
  begins := splitFloat_begins

def integer : TokenRule where
  split := splitInteger
  read cs := (int64OfChars? cs).map .integer
  begins := splitInteger_begins

/-! ## Words -/

/-- Takes a word off the front of a text, in any letter case. -/
def splitFolded : List Char → List Char → Option (List Char × List Char)
  | [], cs => some ([], cs)
  | _ :: _, [] => none
  | w :: ws, c :: cs =>
    if foldChar c = w then (splitFolded ws cs).map fun (text, rest) => (c :: text, rest) else none

theorem splitFolded_append (ws cs text rest : List Char)
    (h : splitFolded ws cs = some (text, rest)) : text ++ rest = cs ∧ text.length = ws.length := by
  fun_induction splitFolded ws cs generalizing text rest with
  | case1 cs => cases h; simp
  | case2 => simp at h
  | case3 =>
    rename_i ih
    obtain ⟨⟨t, r⟩, ht, he⟩ := Option.map_eq_some_iff.1 h
    cases he
    have := ih _ _ ht
    simp [this]
  | case4 => simp at h

/-- Whether a word can end before this text. -/
def endsWord : List Char → Bool
  | [] => true
  | c :: _ => !isWordChar c

/-- One of some words, given in lower case, with the end of a word behind it. -/
def splitWord : List String → List Char → Option Lexeme
  | [], _ => none
  | w :: ws, cs =>
    match splitFolded w.toList cs with
    | some (c :: text, rest) =>
      if endsWord rest then some ⟨c :: text, c :: text, rest⟩ else splitWord ws cs
    | _ => splitWord ws cs

theorem splitWord_begins (ws : List String) (cs : List Char) (l : Lexeme)
    (h : splitWord ws cs = some l) : l.Begins cs := by
  fun_induction splitWord ws cs with
  | case1 => simp at h
  | case2 cs w ws c text rest hw _ =>
    cases h
    exact ⟨by simp, (splitFolded_append _ _ _ _ hw).1⟩
  | case3 => rename_i ih; exact ih h
  | case4 => rename_i ih; exact ih h

/-- One of some words. -/
def word (ws : List String) (read : List Char → Option Token) : TokenRule where
  split := splitWord ws
  read := read
  begins := splitWord_begins ws

/-- The condition that a word names; all but `true` name the false one. -/
def readBoolean (cs : List Char) : Option Token := some (.boolean (lowerAscii cs = "true".toList))

/-- The comparison of a spelling. -/
def readComparison (cs : List Char) : Option Token :=
  (CompareOp.ofSymbol? (String.ofList cs)).map .comparison

/-! ## Symbols -/

/-- One of some spellings. -/
def splitSymbol : List String → List Char → Option Lexeme
  | [], _ => none
  | s :: ss, cs =>
    if s.toList ≠ [] ∧ s.toList.isPrefixOf cs then
      some ⟨s.toList, s.toList, cs.drop s.toList.length⟩
    else splitSymbol ss cs

theorem splitSymbol_begins (ss : List String) (cs : List Char) (l : Lexeme)
    (h : splitSymbol ss cs = some l) : l.Begins cs := by
  fun_induction splitSymbol ss cs with
  | case1 => simp at h
  | case2 cs s ss hs =>
    cases h
    refine ⟨hs.1, ?_⟩
    obtain ⟨t, ht⟩ := List.isPrefixOf_iff_prefix.1 hs.2
    simp [← ht]
  | case3 _ _ _ _ ih => exact ih h

def symbols (ss : List String) (read : List Char → Option Token) : TokenRule where
  split := splitSymbol ss
  read := read
  begins := splitSymbol_begins ss

def readJoin : List Char → Option Token
  | ['&'] => some (.join .and)
  | ['|'] => some (.join .or)
  | _ => none

def readPunctuation : List Char → Option Token
  | ['('] => some .leftParen
  | [')'] => some .rightParen
  | [','] => some .comma
  | _ => none

/-! ## The table -/

/-- The rules in the order in which they are tried. -/
def all : List TokenRule :=
  [field, var, string, float, integer,
   word ["true", "false"] readBoolean,
   word ["null"] fun _ => some .null,
   symbols ["<>", "<=", ">="] readComparison,
   symbols ["<", ">", "="] readComparison,
   word ["like", "ilike"] readComparison,
   word ["in"] fun _ => some .isIn,
   word ["not"] fun _ => some .not,
   symbols ["&", "|"] readJoin,
   symbols ["(", ")", ","] readPunctuation]

end TokenRule

end RecordFilter
