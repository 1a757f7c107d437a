import RecordFilter.Token.Rule

/-!
# Lexer

A `Lexer` delivers the tokens of a text one at a time, with one token of
lookahead.  `Lexer.stream` is all that a lexer will deliver: its tokens with
their offsets, ended by the end of the text or by the first lexical error.
Offsets count characters.

    the tokens of l.stream are what l.next delivers, one after the other
    an error takes nothing but blanks off the text, so it is delivered again
-/

namespace RecordFilter

/-- A text that is not an expression's next token. -/
inductive LexError
  | unexpectedChar (c : Char) (offset : Nat)
  | invalidNumber (text : String) (offset : Nat)
  deriving DecidableEq

namespace LexError

def offset : LexError → Nat
  | unexpectedChar _ offset => offset
  | invalidNumber _ offset => offset

def message : LexError → String
  | unexpectedChar c offset =>
    "unexpected character '" ++ String.ofList [c] ++ "' at position " ++ toString offset
  | invalidNumber text offset => "invalid number '" ++ text ++ "' at position " ++ toString offset

end LexError

/-! ## One token -/

/-- Blanks between tokens. -/
def isGap (c : Char) : Bool := c = ' ' || c = '\t' || c = '\n' || c = '\r'

/-- The first rule that matches the front of a text, and what it splits off. -/
def firstRule? (cs : List Char) : Option (TokenRule × Lexeme) :=
  TokenRule.all.findSome? fun r => (r.split cs).map fun l => (r, l)

/-- What stands at the front of a text behind its blanks. -/
inductive Scan
  | eof
  | token (t : Token) (lexeme : Lexeme)
  | failed (e : LexError)

/-- Reads the front of a text without leading blanks, which starts at an offset. -/
def scanFront (start : Nat) (cs : List Char) : Scan :=
  match cs with
  | [] => .eof
  | c :: _ =>
    match firstRule? cs with
    | none => .failed (.unexpectedChar c start)
    | some (r, l) =>
      match r.read l.inner with
      | none => .failed (.invalidNumber (String.ofList l.inner) start)
      | some t => .token t l

theorem begins_of_firstRule? {cs : List Char} {r : TokenRule} {l : Lexeme}
    (h : firstRule? cs = some (r, l)) : l.Begins cs := by
  obtain ⟨r', _, hr⟩ := List.exists_of_findSome?_eq_some h
  obtain ⟨l', hl, he⟩ := Option.map_eq_some_iff.1 hr
  cases he
  exact TokenRule.begins _ cs _ hl

theorem begins_of_scanFront {start : Nat} {cs : List Char} {t : Token} {l : Lexeme}
    (h : scanFront start cs = .token t l) : l.Begins cs := by
  simp only [scanFront] at h
  split at h
  · simp at h
  · split at h
    · simp at h
    · rename_i hr
      split at h
      · simp at h
      · cases h; exact begins_of_firstRule? hr

/-! ## Streams -/

/-- Tokens with their offsets, ended by the end of the text or by a lexical error. -/
inductive TokenStream
  | eof (offset : Nat)
  | failed (e : LexError)
  | token (t : Token) (offset : Nat) (rest : TokenStream)
  deriving DecidableEq

namespace TokenStream

/-- How many tokens there are. -/
def size : TokenStream → Nat
  | eof _ => 0
  | failed _ => 0
  | token _ _ rest => rest.size + 1

/-- All tokens, the end of the text included, or the lexical error. -/
def tokens : TokenStream → Except LexError (List Token)
  | eof _ => .ok [.eof]
  | failed e => .error e
  | token t _ rest => rest.tokens.map (t :: ·)

end TokenStream

/-- The tokens of a text that starts at an offset. -/
def streamFrom (position : Nat) (cs : List Char) : TokenStream :=
  let start := position + (cs.takeWhile isGap).length
  match _h : scanFront start (cs.dropWhile isGap) with
  | .eof => .eof start
  | .failed e => .failed e
  | .token t l => .token t start (streamFrom (start + l.whole.length) l.rest)
termination_by cs.length
decreasing_by
  obtain ⟨hne, ha⟩ := begins_of_scanFront _h
  have hd := (List.dropWhile_sublist isGap (l := cs)).length_le
  rw [← ha, List.length_append] at hd
  have := List.length_pos_iff.2 hne
  omega

/-! ## Lexers -/

/-- A text that is being read: what is left of it, and a token that was looked at. -/
structure Lexer where
  rest : List Char
  position : Nat
  tokenStart : Nat
  peeked : Option Token

namespace Lexer

def ofString (s : String) : Lexer := ⟨s.toList, 0, 0, none⟩

/-- Reads the next token off the text. -/
def scan (l : Lexer) : Except LexError Token × Lexer :=
  let start := l.position + (l.rest.takeWhile isGap).length
  let cs := l.rest.dropWhile isGap
  match scanFront start cs with
  | .eof => (.ok .eof, ⟨cs, start, start, none⟩)
  | .failed e => (.error e, ⟨cs, start, start, none⟩)
  | .token t lexeme => (.ok t, ⟨lexeme.rest, start + lexeme.whole.length, start, none⟩)

/-- Delivers the next token; the end of the text is delivered over and over. -/
def next (l : Lexer) : Except LexError Token × Lexer :=
  match l.peeked with
  | some t => (.ok t, { l with peeked := none })
  | none => l.scan

/-- Looks at the next token without delivering it. -/
def peek (l : Lexer) : Except LexError Token × Lexer :=
  match l.next with
  | (.ok t, l) => (.ok t, { l with peeked := some t })
  | (.error e, l) => (.error e, l)

/-- Everything that the lexer will deliver. -/
def stream (l : Lexer) : TokenStream :=
  match l.peeked with
  | none => streamFrom l.position l.rest
  | some .eof => .eof l.tokenStart
  | some t => .token t l.tokenStart (streamFrom l.position l.rest)

end Lexer

/-- The tokens of an expression, up to and including its end. -/
def tokenize (s : String) : Except LexError (List Token) := (Lexer.ofString s).stream.tokens

end RecordFilter
