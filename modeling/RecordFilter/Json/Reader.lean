import RecordFilter.Json.Basic
import RecordFilter.Number.Literal

/-!
# Reading JSON text

`Json.parse?` reads the whole of a text or nothing.  Containers may be nested up
to a given depth; a number with a fraction or an exponent is read from its first
digits that fit 64 bits and one power of ten, and must be finite.
-/

namespace RecordFilter

namespace Json

/-- What a reader makes of the front of a text: a result and the text behind it. -/
abbrev Read (α : Type) := List Char → Option (α × List Char)

def isBlank (c : Char) : Bool := c = ' ' || c = '\t' || c = '\n' || c = '\r'

def skipBlank (cs : List Char) : List Char := cs.dropWhile isBlank

/-! ## Numbers -/

/-- A number on its way in: a significand below `2 ^ 64`, a power of ten, and whether room is left. -/
structure Significand where
  value : Nat
  exponent : Int
  full : Bool

/-- Takes in a digit before the point; without room it counts as a power of ten. -/
def Significand.pushWhole (s : Significand) (c : Char) : Significand :=
  let next := s.value * 10 + digitValue c
  if s.full || 0x10000000000000000 ≤ next then ⟨s.value, s.exponent + 1, true⟩ else ⟨next, s.exponent, false⟩

/-- Takes in a digit behind the point; without room it is dropped. -/
def Significand.pushFraction (s : Significand) (c : Char) : Significand :=
  let next := s.value * 10 + digitValue c
  if s.full || 0x10000000000000000 ≤ next then ⟨s.value, s.exponent, true⟩ else ⟨next, s.exponent - 1, false⟩

def tenPower (n : Nat) : Magnitude := (Magnitude.ofDecimal? ⟨1, n⟩).getD .zero

/-- Divides by a power of ten, by `10 ^ 308` at a time where it is larger. -/
def scaleDown (m : Magnitude) (n : Nat) : Magnitude :=
  if n ≤ 308 then (m.div? (tenPower n)).getD m
  else if m.significand = 0 then m
  else scaleDown ((m.div? (tenPower 308)).getD m) (n - 308)
termination_by n

/-- The significand times its power of ten; none where that is too large. -/
def Significand.magnitude? (s : Significand) : Option Magnitude := do
  let m ← Magnitude.ofNat? s.value
  match s.exponent with
  | .ofNat n =>
    if n ≤ 308 then m.mul? (tenPower n)
    else if s.value = 0 then some m
    else none
  | .negSucc n => some (scaleDown m (n + 1))

/-- The largest exponent that is told apart; beyond it the number is zero or too large. -/
def exponentLimit : Nat := 2147483647

/-- The exponent at the front of a text, if a mark announces one. -/
def exponentPart : Read (Option Int)
  | 'e' :: cs | 'E' :: cs =>
    let (negative, cs) := splitSign cs
    let ds := cs.takeWhile isDigit
    if ds.isEmpty then none else some (some (applySign negative (ofDigits ds)), cs.dropWhile isDigit)
  | cs => some (none, cs)

/-- The digits behind a point at the front of a text, if there is a point. -/
def fractionPart : Read (Option (List Char))
  | '.' :: cs =>
    let ds := cs.takeWhile isDigit
    if ds.isEmpty then none else some (some ds, cs.dropWhile isDigit)
  | cs => some (none, cs)

/-- A number with a fraction or an exponent, or too long for 64 bits. -/
def floatOf? (negative : Bool) (whole fraction : List Char) (exponent : Int) : Option Json := do
  let s : Significand := whole.foldl .pushWhole ⟨0, 0, false⟩
  let s : Significand := fraction.foldl .pushFraction ⟨s.value, s.exponent, false⟩
  let m ←
    if exponentLimit < exponent.natAbs then
      if 0 < exponent ∧ s.value ≠ 0 then none else some .zero
    else Significand.magnitude? ⟨s.value, s.exponent + exponent, s.full⟩
  return float negative m

/-- A number without fraction and exponent: whole where it fits 64 bits, and `-0` is not whole. -/
def wholeOf? (negative : Bool) (whole : List Char) : Option Json :=
  let n := ofDigits whole
  if negative then
    if 0 < n ∧ n ≤ 0x8000000000000000 then some (integer (-(n : Int))) else floatOf? negative whole [] 0
  else if n < 0x10000000000000000 then some (integer n)
  else floatOf? negative whole [] 0

def number : Read Json := fun cs => do
  let (negative, cs) := match cs with
    | '-' :: rest => (true, rest)
    | _ => (false, cs)
  let whole := cs.takeWhile isDigit
  if whole.isEmpty || (whole.head? == some '0' && whole.length ≠ 1) then none
  let (fraction, cs) ← fractionPart (cs.dropWhile isDigit)
  let (exponent, cs) ← exponentPart cs
  match fraction, exponent with
  | none, none => return (← wholeOf? negative whole, cs)
  | _, _ => return (← floatOf? negative whole (fraction.getD []) (exponent.getD 0), cs)

/-! ## Strings -/

def hexValue? (c : Char) : Option Nat :=
  if isDigit c then some (digitValue c)
  else if 'a' ≤ c ∧ c ≤ 'f' then some (c.toNat - 87)
  else if 'A' ≤ c ∧ c ≤ 'F' then some (c.toNat - 55)
  else none

def hexNumber? (cs : List Char) : Option Nat :=
  cs.foldlM (fun n c => (hexValue? c).map (16 * n + ·)) 0

/-- The character of a one-letter escape. -/
def escaped? : Char → Option Char
  | '"' => some '"'
  | '\\' => some '\\'
  | '/' => some '/'
  | 'b' => some '\x08'
  | 'f' => some '\x0c'
  | 'n' => some '\n'
  | 'r' => some '\r'
  | 't' => some '\t'
  | _ => none

def isHighSurrogate (n : Nat) : Bool := 0xD800 ≤ n && n ≤ 0xDBFF

def isLowSurrogate (n : Nat) : Bool := 0xDC00 ≤ n && n ≤ 0xDFFF

/-- A piece of a string: a character, or the number of a `u` escape. -/
inductive Piece
  | char (c : Char)
  | unit (n : Nat)

/-- The pieces of a string behind its opening quote. -/
def pieces : Read (List Piece)
  | [] => none
  | '"' :: cs => some ([], cs)
  | '\\' :: 'u' :: a :: b :: c :: d :: cs =>
    match hexNumber? [a, b, c, d] with
    | some n => (pieces cs).map fun (ps, r) => (.unit n :: ps, r)
    | none => none
  | '\\' :: e :: cs =>
    match escaped? e with
    | some c => (pieces cs).map fun (ps, r) => (.char c :: ps, r)
    | none => none
  | c :: cs =>
    if c.toNat < 32 || c = '\\' then none else (pieces cs).map fun (ps, r) => (.char c :: ps, r)

/-- The characters of pieces: a high surrogate and the low one behind it are one character, and
surrogates count only so.  The first argument is a high surrogate that waits for its partner. -/
def joinPieces : Option Nat → List Piece → Option (List Char)
  | none, [] => some []
  | some _, [] => none
  | none, .char c :: ps => (joinPieces none ps).map (c :: ·)
  | some _, .char _ :: _ => none
  | none, .unit n :: ps =>
    if isHighSurrogate n then joinPieces (some n) ps
    else if isLowSurrogate n then none
    else (joinPieces none ps).map (Char.ofNat n :: ·)
  | some high, .unit low :: ps =>
    if isLowSurrogate low then
      (joinPieces none ps).map
        (Char.ofNat (0x10000 + (high - 0xD800) * 0x400 + (low - 0xDC00)) :: ·)
    else none

/-- A string behind its opening quote. -/
def stringTail : Read String := fun cs => do
  let (ps, rest) ← pieces cs
  let s ← joinPieces none ps
  return (String.ofList s, rest)

/-! ## Values -/

/-- Takes a word off the front of a text. -/
def word (w : List Char) (result : Json) : Read Json := fun cs =>
  if w.isPrefixOf cs then some (result, cs.drop w.length) else none

mutual

/-- A value; `depth` is how many containers may still be opened. -/
def value : Nat → Nat → Read Json
  | 0, _, _ => none
  | fuel + 1, depth, cs =>
    match skipBlank cs with
    | 'n' :: cs => word ['u', 'l', 'l'] null cs
    | 't' :: cs => word ['r', 'u', 'e'] (bool true) cs
    | 'f' :: cs => word ['a', 'l', 's', 'e'] (bool false) cs
    | '"' :: cs => (stringTail cs).map fun (s, r) => (string s, r)
    | '[' :: cs =>
      match depth, skipBlank cs with
      | 0, _ => none
      | _ + 1, ']' :: rest => some (array [], rest)
      | depth + 1, _ => (itemList fuel depth cs).map fun (js, r) => (array js, r)
    | '{' :: cs =>
      match depth, skipBlank cs with
      | 0, _ => none
      | _ + 1, '}' :: rest => some (object [], rest)
      | depth + 1, _ => (memberList fuel depth cs).map fun (ms, r) => (ofTable (.ofList ms), r)
    | cs => number cs

/-- One item or more, up to the closing bracket. -/
def itemList : Nat → Nat → Read (List Json)
  | 0, _, _ => none
  | fuel + 1, depth, cs => do
    let (j, cs) ← value fuel depth cs
    match skipBlank cs with
    | ',' :: cs =>
      let (js, cs) ← itemList fuel depth cs
      return (j :: js, cs)
    | ']' :: cs => return ([j], cs)
    | _ => none

/-- One member or more, up to the closing brace. -/
def memberList : Nat → Nat → Read (List (String × Json))
  | 0, _, _ => none
  | fuel + 1, depth, cs => do
    match skipBlank cs with
    | '"' :: cs =>
      let (name, cs) ← stringTail cs
      match skipBlank cs with
      | ':' :: cs =>
        let (j, cs) ← value fuel depth cs
        let m := (name, j)
        match skipBlank cs with
        | ',' :: cs =>
          let (ms, cs) ← memberList fuel depth cs
          return (m :: ms, cs)
        | '}' :: cs => return ([m], cs)
        | _ => none
      | _ => none
    | _ => none

end

/-- The value that a whole text stands for, with containers nested up to `depth`. -/
def parse? (depth : Nat) (text : String) : Option Json :=
  let cs := text.toList
  match value (2 * cs.length + 1) depth cs with
  | some (j, rest) => if (skipBlank rest).isEmpty then some j else none
  | none => none

/-- How deep the containers of a document may be nested. -/
def documentDepth : Nat := 127

end Json

end RecordFilter
