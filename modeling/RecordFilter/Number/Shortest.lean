import RecordFilter.Number.Decimal

/-!
# Shortest decimals

`Magnitude.shortest` is the decimal with the fewest digits that rounds back to a
magnitude, and of those the nearest.  The decimals that round to a magnitude
form an interval; grids of powers of ten are tried from the coarsest to the
finest, and on each grid only the two neighbours of the magnitude can lie in the
interval.
-/

namespace RecordFilter

/-- Which of two equally near decimals is taken. -/
inductive Tie
  | up
  | even

namespace Magnitude

/-! ## The interval that rounds to a magnitude -/

/-- The interval is counted in units of `2 ^ -1076`, in which its ends are whole. -/
def quarters (m : Magnitude) : Nat := 4 * m.units

/-- The lower end: half a step below, and steps are half as long below a power of two. -/
def lowerEnd (m : Magnitude) : Nat :=
  if m.significand = 0x10000000000000 ∧ 0 < m.shift then m.quarters - pow2 m.shift
  else m.quarters - 2 * pow2 m.shift

/-- The upper end: half a step above. -/
def upperEnd (m : Magnitude) : Nat := m.quarters + 2 * pow2 m.shift

/-- Whether `a / scale` quarters round to `m`; an end does when the significand is even. -/
def covers (m : Magnitude) (scale a : Nat) : Bool :=
  if m.significand % 2 = 0 then m.lowerEnd * scale ≤ a && a ≤ m.upperEnd * scale
  else m.lowerEnd * scale < a && a < m.upperEnd * scale

/-! ## Search -/

/-- The nearer of two neighbours `low` and `low + 1` that both round to the magnitude. -/
def nearer (tie : Tie) (low remainder step : Nat) : Nat :=
  if 2 * remainder < step then low
  else if step < 2 * remainder then low + 1
  else match tie with
    | .up => low + 1
    | .even => low + low % 2

/-- The coefficient on the grid of `10 ^ exponent` that rounds to the magnitude, if there is one. -/
def onGrid? (m : Magnitude) (tie : Tie) (exponent : Int) : Option Nat :=
  let scale := pow10 (-exponent).toNat
  let step := pow10 exponent.toNat * pow2 1076
  let value := m.quarters * scale
  let low := value / step
  match m.covers scale (low * step), m.covers scale ((low + 1) * step) with
  | true, true => some (nearer tie low (value % step) step)
  | true, false => some low
  | false, true => some (low + 1)
  | false, false => none

/-- The place of the leading digit of a magnitude that is not zero. -/
def place (m : Magnitude) : Int :=
  (digits (m.quarters * pow10 400 / pow2 1076)).length - 401

/-- The decimal of fewest digits that rounds to the magnitude; seventeen digits always suffice. -/
def shortest (m : Magnitude) (tie : Tie) : Decimal :=
  if m.significand = 0 then ⟨0, 0⟩ else
  let grids := (List.range 18).map fun (i : Nat) => m.place + 1 - (i : Int)
  (grids.findSome? fun k => (m.onGrid? tie k).map fun c => ⟨c, k⟩).getD ⟨0, 0⟩

end Magnitude

end RecordFilter
