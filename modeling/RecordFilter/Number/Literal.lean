import RecordFilter.Number.Decimal

/-!
# Numeric literals

The texts that denote an integer and the texts that denote a binary64 number.

    integer  := [sign] digit+
    number   := [sign] ( 'inf' | 'infinity' | 'nan' | mantissa [ ('e'|'E') [sign] digit+ ] )
    mantissa := digit+ [ '.' digit* ] | '.' digit+

The words are read in any letter case.
-/

namespace RecordFilter

/-- Takes a sign off the front: whether it is negative, and the text behind it. -/
def splitSign : List Char → Bool × List Char
  | '-' :: cs => (true, cs)
  | '+' :: cs => (false, cs)
  | cs => (false, cs)

def allDigits (cs : List Char) : Bool := !cs.isEmpty && cs.all isDigit

def applySign (negative : Bool) (n : Nat) : Int := if negative then -(n : Int) else n

/-! ## Integers -/

/-- The integer that a text denotes. -/
def intOfChars? (cs : List Char) : Option Int :=
  let (negative, ds) := splitSign cs
  if allDigits ds then some (applySign negative (ofDigits ds)) else none

/-- A 64-bit integer, where `n` is one. -/
def int64OfInt? (n : Int) : Option Int64 :=
  if -0x8000000000000000 ≤ n ∧ n < 0x8000000000000000 then some (.ofInt n) else none

/-- The 64-bit integer that a text denotes; one out of range has no reading. -/
def int64OfChars? (cs : List Char) : Option Int64 := intOfChars? cs >>= int64OfInt?

def int64Text (n : Int64) : String := toString n.toInt

/-! ## Binary64 numbers -/

/-- The exponent behind the mantissa: none at all, or a mark and an integer. -/
def exponentOfChars? : List Char → Option Int
  | [] => some 0
  | 'e' :: cs => intOfChars? cs
  | 'E' :: cs => intOfChars? cs
  | _ => none

/-- The number that an unsigned text denotes, as a decimal. -/
def decimalOfChars? (cs : List Char) : Option Decimal :=
  let whole := cs.takeWhile isDigit
  match cs.dropWhile isDigit with
  | '.' :: rest =>
    let fraction := rest.takeWhile isDigit
    if whole.isEmpty && fraction.isEmpty then none
    else (exponentOfChars? (rest.dropWhile isDigit)).map (.ofParts whole fraction)
  | rest => if whole.isEmpty then none else (exponentOfChars? rest).map (.ofParts whole [])

def lowerAscii (cs : List Char) : List Char := cs.map Char.toLower

/-- The binary64 number that a text denotes; one too large is read as infinite. -/
def binary64OfChars? (cs : List Char) : Option Binary64 :=
  let (negative, rest) := splitSign cs
  match String.ofList (lowerAscii rest) with
  | "nan" => some .nan
  | "inf" => some (.infinite negative)
  | "infinity" => some (.infinite negative)
  | _ => (decimalOfChars? rest).map (.ofDecimal negative)

end RecordFilter
