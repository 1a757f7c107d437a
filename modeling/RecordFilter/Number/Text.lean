import RecordFilter.Number.Shortest

/-!
# Numbers as text

Two notations share the shortest digits.  The plain one is always positional,
has no point on whole numbers and takes the upper of two equally near digits.
The data one keeps a point or an exponent, switches to an exponent for large and
small numbers and takes the even of two equally near digits.
-/

namespace RecordFilter

namespace Binary64

def signText (negative : Bool) (text : List Char) : List Char :=
  if negative then '-' :: text else text

/-- The plain text: `2`, `0.5`, `-0`, `0.0000001`, `NaN`, `inf`. -/
def plainChars : Binary64 → List Char
  | nan => ['N', 'a', 'N']
  | infinite negative => signText negative ['i', 'n', 'f']
  | finite negative m => signText negative (m.shortest .up).positional

def plain (x : Binary64) : String := String.ofList x.plainChars

/-- The text of a finite magnitude in data: positional from `1e-5` up to below `1e16`. -/
def dataChars (m : Magnitude) : List Char :=
  let d := m.shortest .even
  if d.coefficient = 0 then ['0', '.', '0']
  else if -5 ≤ d.place ∧ d.place < 16 then
    if d.exponent < 0 then d.positional else d.positional ++ ['.', '0']
  else d.scientific

end Binary64

end RecordFilter
