import RecordFilter.Number.Binary64

/-!
# Decimal notation

A decimal is a coefficient and a power of ten.  It is read from digits
(`Decimal.ofDigits`), rounded to a binary64 number (`Binary64.ofDecimal`) and
laid out as text, either positionally or with an exponent.
-/

namespace RecordFilter

/-- The number `coefficient · 10 ^ exponent`. -/
structure Decimal where
  coefficient : Nat
  exponent : Int
  deriving DecidableEq

def isDigit (c : Char) : Bool := '0' ≤ c && c ≤ '9'

def digitValue (c : Char) : Nat := c.toNat - 48

/-- The number that a run of digits stands for. -/
def ofDigits (ds : List Char) : Nat := ds.foldl (fun n c => 10 * n + digitValue c) 0

/-- The digits of a number, without leading zeros; `0` has one digit. -/
def digits (n : Nat) : List Char := Nat.toDigits 10 n

namespace Decimal

/-- The decimal written `whole.fraction`, times `10 ^ exponent`. -/
def ofParts (whole fraction : List Char) (exponent : Int) : Decimal :=
  ⟨ofDigits (whole ++ fraction), exponent - fraction.length⟩

/-- The place of the leading digit: a non-zero decimal lies in `10 ^ place ≤ d < 10 ^ (place + 1)`. -/
def place (d : Decimal) : Int := (digits d.coefficient).length + d.exponent - 1

/-! ## Layout -/

/-- Positional notation: digits, and a point only where a fraction follows. -/
def positional (d : Decimal) : List Char :=
  let ds := digits d.coefficient
  match d.exponent with
  | .ofNat k => ds ++ List.replicate k '0'
  | .negSucc k =>
    let ds := List.replicate (k + 2 - ds.length) '0' ++ ds
    ds.take (ds.length - (k + 1)) ++ '.' :: ds.drop (ds.length - (k + 1))

/-- Scientific notation: one digit before the point, and the exponent with its sign. -/
def scientific (d : Decimal) : List Char :=
  let exponent := (if d.place < 0 then '-' else '+') :: digits d.place.natAbs
  match digits d.coefficient with
  | [] => []
  | [c] => c :: 'e' :: exponent
  | c :: cs => c :: '.' :: cs ++ 'e' :: exponent

end Decimal

/-! ## Rounding to binary64 -/

/-- The magnitude nearest to a decimal.  Decimals beyond the range of the format are settled by the
place of their leading digit alone, so no power of ten is larger than the digits require. -/
def Magnitude.ofDecimal? (d : Decimal) : Option Magnitude :=
  if d.coefficient = 0 ∨ d.place < -330 then some zero
  else if 310 < d.place then none
  else match d.exponent with
    | .ofNat k => ofRatio? (d.coefficient * pow10 k * pow2 1074) 1
    | .negSucc k => ofRatio? (d.coefficient * pow2 1074) (pow10 (k + 1))

/-- The binary64 number nearest to a decimal. -/
def Binary64.ofDecimal (negative : Bool) (d : Decimal) : Binary64 :=
  ofMagnitude? negative (Magnitude.ofDecimal? d)

end RecordFilter
