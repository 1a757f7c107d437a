import RecordFilter.Number.Text
import RecordFilter.Text.Blank
import RecordFilter.Value.Basic

/-!
# The text and the number of a value

Every value has a text, and scalars and short arrays have a number.  An array
has the number of its text.  `ofText` reads the text of a default or of an
argument back into a value.
-/

namespace RecordFilter

namespace Value

/-! ## Text -/

mutual

/-- The text of a value; the items of an array are set apart by commas. -/
def text : Value → String
  | null => "null"
  | boolean b => if b then "true" else "false"
  | integer n => int64Text n
  | float x => x.plain
  | string s => s
  | array items => ",".intercalate (itemTexts items)
  | object _ => "[object Object]"

/-- The texts of the items of an array, where `null` has none. -/
def itemTexts : List Value → List String
  | [] => []
  | v :: vs => (if v.isNull then "" else text v) :: itemTexts vs

end

/-! ## Number -/

/-- The number of a text: blanks around it do not count, and an empty text is zero. -/
def numberOfText? (s : String) : Option Binary64 :=
  match trimChars s.toList with
  | [] => some .zero
  | cs =>
    match binary64OfChars? cs with
    | some x => if x.isNan then none else some x
    | none => none

/-- The number that a value stands for where numbers are compared. -/
def number? : Value → Option Binary64
  | null => some .zero
  | boolean b => some (if b then .one else .zero)
  | integer n => some (.ofInt n.toInt)
  | float x => if x.isNan then none else some x
  | string s => numberOfText? s
  | array [] => some .zero
  | array [item] => numberOfText? item.text
  | array (_ :: _ :: _) => none
  | object _ => none

/-! ## Reading -/

/-- The value of a plain text: an integer, a finite number, `true`, `false`, `null`, or itself. -/
def ofText (s : String) : Value :=
  match int64OfChars? s.toList with
  | some n => integer n
  | none =>
    match (binary64OfChars? s.toList).filter (·.isFinite) with
    | some x => float x
    | none =>
      match String.ofList (lowerAscii s.toList) with
      | "true" => boolean true
      | "false" => boolean false
      | "null" => null
      | _ => string s

end Value

end RecordFilter
