import RecordFilter.Number.Binary64

/-!
# Decimals of 28 places

Integers and binary64 numbers are compared as decimals: a coefficient below
`2 ^ 96` and at most 28 places.  A binary64 number is brought to that form by
trading factors of two for factors of five while the coefficient has room, and by
dropping places one at a time, each rounded, when there are more than 28.  So
numbers near zero become zero, and numbers from about `7.9e28` on have no such form.
-/

namespace RecordFilter

/-- The number `± coefficient / 10 ^ places`. -/
structure Decimal28 where
  negative : Bool
  coefficient : Nat
  places : Nat
  deriving DecidableEq

namespace Decimal28

/-- A coefficient and a power of ten on their way to a decimal. -/
structure Scaling where
  coefficient : Nat
  exponent : Int

/-! ## Scaling -/

/-- Multiplies by one half: a factor of two leaves, else a factor of five enters while there is room. -/
def Scaling.half (s : Scaling) : Scaling :=
  if s.coefficient % 2 = 0 then ⟨s.coefficient / 2, s.exponent + 1⟩
  else if s.coefficient * 5 < 0x1000000000000000000000000 then ⟨s.coefficient * 5, s.exponent⟩
  else ⟨s.coefficient / 2, s.exponent + 1⟩

/-- Multiplies by two over ten: a factor of two enters while there is room, else a factor of five leaves. -/
def Scaling.fifth (s : Scaling) : Scaling :=
  if s.coefficient < 0x800000000000000000000000 then ⟨s.coefficient * 2, s.exponent - 1⟩
  else ⟨s.coefficient / 5, s.exponent⟩

/-- Drops places, each rounded with a half going up; a coefficient that reaches zero stays zero. -/
def dropPlaces : Nat → Nat → Nat
  | 0, c => c
  | n + 1, c =>
    if c / 10 = 0 then 0
    else dropPlaces n (if c % 10 < 5 then c / 10 else c / 10 + 1)

/-- Writes out a power of ten, as far as the coefficient has room. -/
def writeOut? : Nat → Nat → Option Nat
  | 0, c => some c
  | n + 1, c => if c * 10 < 0x1000000000000000000000000 then writeOut? n (c * 10) else none

/-- Brings a scaled coefficient to at most 28 places. -/
def Scaling.decimal? (negative : Bool) (s : Scaling) : Option Decimal28 :=
  if 0 < s.exponent then
    (writeOut? s.exponent.toNat s.coefficient).map fun c => ⟨negative, c, 0⟩
  else if s.exponent < -28 then
    some ⟨negative, dropPlaces (-28 - s.exponent).toNat s.coefficient, 28⟩
  else some ⟨negative, s.coefficient, (-s.exponent).toNat⟩

/-- Repeats a step of scaling. -/
def Scaling.times (step : Scaling → Scaling) : Nat → Scaling → Scaling
  | 0, s => s
  | n + 1, s => times step n (step s)

/-! ## Conversion -/

/-- The decimal of a finite magnitude, if it has one. -/
def ofMagnitude? (negative : Bool) (m : Magnitude) : Option Decimal28 :=
  let s : Scaling := ⟨m.significand, (m.shift : Int) - 1074⟩
  if s.coefficient = 0 then some ⟨negative, 0, 0⟩
  else if m.shift ≤ 1074 then (s.times Scaling.half (1074 - m.shift)).decimal? negative
  else (s.times Scaling.fifth (m.shift - 1074)).decimal? negative

/-- The decimal of a binary64 number, if it has one. -/
def ofBinary64? : Binary64 → Option Decimal28
  | .finite negative m => ofMagnitude? negative m
  | _ => none

/-- An integer as a decimal. -/
def ofInt (n : Int) : Decimal28 := ⟨n < 0, n.natAbs, 0⟩

/-! ## Order -/

/-- The signed coefficient. -/
def signed (d : Decimal28) : Int := if d.negative then -(d.coefficient : Int) else d.coefficient

/-- The order of two decimals as rational numbers. -/
def compare (a b : Decimal28) : Ordering :=
  Ord.compare (a.signed * pow10 b.places) (b.signed * pow10 a.places)

end Decimal28

end RecordFilter
