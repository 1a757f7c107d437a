import RecordFilter.Number.Decimal
import RecordFilter.Text.Blank

/-!
# Timestamps

A timestamp is read from an RFC 3339 text or from a bare date and is written in
UTC with milliseconds.  Dates are those of the proleptic Gregorian calendar.

    (Date.ofNumber n).number = n
    a leap second keeps its place in the minute in every time zone
-/

namespace RecordFilter

/-! ## Calendar -/

/-- A day of the calendar. -/
structure Date where
  year : Int
  month : Nat
  day : Nat
  deriving DecidableEq

namespace Date

def isLeapYear (year : Int) : Bool := year % 4 = 0 && (year % 100 ≠ 0 || year % 400 = 0)

def daysInMonth (year : Int) (month : Nat) : Nat :=
  if month = 2 then (if isLeapYear year then 29 else 28)
  else if month = 4 ∨ month = 6 ∨ month = 9 ∨ month = 11 then 30
  else 31

/-- Whether there is such a day. -/
def exists? (d : Date) : Bool :=
  1 ≤ d.month && d.month ≤ 12 && 1 ≤ d.day && d.day ≤ daysInMonth d.year d.month

/-- The number of a day, counted from 1 March of the year 0.  Years are counted from March, so a
leap day is the last day of its year. -/
def number (d : Date) : Int :=
  let year : Int := if d.month ≤ 2 then d.year - 1 else d.year
  let month : Int := ((d.month : Int) + 9) % 12
  365 * year + year / 4 - year / 100 + year / 400 + (153 * month + 2) / 5 + d.day - 1

/-- The day with a number. -/
def ofNumber (n : Int) : Date :=
  let era := n / 146097
  let dayOfEra := n % 146097
  let yearOfEra := (dayOfEra - dayOfEra / 1460 + dayOfEra / 36524 - dayOfEra / 146096) / 365
  let dayOfYear := dayOfEra - (365 * yearOfEra + yearOfEra / 4 - yearOfEra / 100)
  let month := (5 * dayOfYear + 2) / 153
  let day := dayOfYear - (153 * month + 2) / 5 + 1
  let civil := if month < 10 then month + 3 else month - 9
  ⟨yearOfEra + 400 * era + (if civil ≤ 2 then 1 else 0), civil.toNat, day.toNat⟩

end Date

/-! ## Timestamps -/

/-- A moment in UTC: the number of its day, its second of the day, and its fraction.  In a leap
second the fraction runs on from one second to two. -/
structure Timestamp where
  day : Int
  second : Nat
  nanosecond : Nat
  deriving DecidableEq

namespace Timestamp

/-- The moment of a local time that is `offset` seconds ahead of UTC. -/
def ofLocal (date : Date) (second nanosecond : Nat) (offset : Int) : Timestamp :=
  let total : Int := date.number * 86400 + second - offset
  ⟨total / 86400, (total % 86400).toNat, nanosecond⟩

/-! ## Writing -/

/-- A number padded with zeros to a width. -/
def padded (width n : Nat) : List Char :=
  let ds := digits n
  List.replicate (width - ds.length) '0' ++ ds

/-- A year: four digits, or a sign and at least four digits where it has not four. -/
def yearText (year : Int) : List Char :=
  if 0 ≤ year ∧ year ≤ 9999 then padded 4 year.toNat
  else (if year < 0 then '-' else '+') :: padded 4 year.natAbs

/-- The timestamp in UTC with milliseconds; a fraction of one is dropped. -/
def text (t : Timestamp) : String :=
  let d := Date.ofNumber t.day
  let second := t.second % 60 + t.nanosecond / 1000000000
  let millisecond := t.nanosecond % 1000000000 / 1000000
  String.ofList (yearText d.year ++ '-' :: padded 2 d.month ++ '-' :: padded 2 d.day
    ++ 'T' :: padded 2 (t.second / 3600) ++ ':' :: padded 2 (t.second / 60 % 60)
    ++ ':' :: padded 2 second ++ '.' :: padded 3 millisecond ++ ['Z'])

/-! ## Reading -/

/-- Why a text is not a timestamp. -/
inductive Problem
  | tooShort
  | invalid
  | outOfRange
  | trailing
  deriving DecidableEq

def Problem.message : Problem → String
  | tooShort => "premature end of input"
  | invalid => "input contains invalid characters"
  | outOfRange => "input is out of range"
  | trailing => "trailing input"

/-- What a step makes of the front of a text: a result and the text behind it. -/
abbrev Step (α : Type) := List Char → Except Problem (α × List Char)

/-- A number of exactly so many digits. -/
def fixedDigits (n : Nat) : Step Nat := fun cs =>
  let ds := cs.take n
  if ds.length = n ∧ ds.all isDigit then .ok (ofDigits ds, cs.drop n) else .error .invalid

/-- One of some characters. -/
def oneOf (allowed : List Char) : Step Unit
  | [] => .error .invalid
  | c :: cs => if allowed.contains c then .ok ((), cs) else .error .invalid

/-- The nanoseconds of the digits behind a point; digits beyond the ninth do not count. -/
def fraction : Step Nat := fun cs =>
  let ds := cs.takeWhile isDigit
  if cs.isEmpty then .error .tooShort
  else if ds.isEmpty then .error .invalid
  else
    let kept := ds.take 9
    .ok (ofDigits kept * pow10 (9 - kept.length), cs.dropWhile isDigit)

/-- Two digits of an offset, which are missing where fewer than two bytes are left. -/
def offsetDigits : Step (Nat × Nat)
  | a :: b :: cs =>
    if isDigit a && isDigit b then .ok ((digitValue a, digitValue b), cs) else .error .invalid
  | [a] => if a.utf8Size < 2 then .error .tooShort else .error .invalid
  | [] => .error .tooShort

/-- The colon in an offset. -/
def offsetColon : Step Unit
  | ':' :: cs => .ok ((), cs)
  | _ :: _ => .error .invalid
  | [] => .error .tooShort

/-- Hours and minutes of an offset, in seconds. -/
def offsetAmount : Step Nat := fun cs => do
  let ((a, b), cs) ← offsetDigits cs
  let (_, cs) ← offsetColon cs
  let ((c, d), cs) ← offsetDigits cs
  if c < 6 then return ((a * 10 + b) * 3600 + (c * 10 + d) * 60, cs) else .error .outOfRange

/-- The offset from UTC in seconds. -/
def offset : Step Int
  | [] => .error .tooShort
  | c :: cs =>
    if c = 'Z' ∨ c = 'z' then .ok (0, cs)
    else if c = '+' then do
      let (n, cs) ← offsetAmount cs
      return ((n : Int), cs)
    else if c = '-' ∨ c = '\u2212' then do
      let (n, cs) ← offsetAmount cs
      return (-(n : Int), cs)
    else .error .invalid

/-- A date and a time of day with its offset, as RFC 3339 lays them down. -/
def ofRfc3339 (text : String) : Except Problem Timestamp := do
  if text.utf8ByteSize < 19 then .error .tooShort
  let cs := text.toList
  let (year, cs) ← fixedDigits 4 cs
  let (_, cs) ← oneOf ['-'] cs
  let (month, cs) ← fixedDigits 2 cs
  let (_, cs) ← oneOf ['-'] cs
  let (day, cs) ← fixedDigits 2 cs
  let date : Date := ⟨year, month, day⟩
  if !date.exists? then .error .outOfRange
  let (_, cs) ← oneOf ['t', 'T', ' '] cs
  let (hour, cs) ← fixedDigits 2 cs
  let (_, cs) ← oneOf [':'] cs
  let (minute, cs) ← fixedDigits 2 cs
  let (_, cs) ← oneOf [':'] cs
  let (second, cs) ← fixedDigits 2 cs
  let (nanosecond, cs) ← match cs with
    | '.' :: cs => fraction cs
    | cs => .ok (0, cs)
  if 24 ≤ hour ∨ 60 ≤ minute ∨ 60 < second then .error .outOfRange
  let (offset, cs) ← offset cs
  if !cs.isEmpty then .error .trailing
  if 86400 ≤ offset.natAbs then .error .outOfRange
  let (second, nanosecond) := if second = 60 then (59, nanosecond + 1000000000) else (second, nanosecond)
  return ofLocal date (hour * 3600 + minute * 60 + second) nanosecond offset

/-- Digits at the front of a text behind white space, at most so many, with the text behind them. -/
def leadingDigits? (most : Nat) (cs : List Char) : Option (Nat × List Char) :=
  let ds := (cs.takeWhile isDigit).take most
  if ds.isEmpty then none else some (ofDigits ds, cs.drop ds.length)

/-- A year: four digits at most, or any number of digits behind a sign. -/
def leadingYear? : List Char → Option (Int × List Char)
  | '-' :: cs => (leadingDigits? cs.length cs).map fun (n, rest) => (-(n : Int), rest)
  | '+' :: cs => (leadingDigits? cs.length cs).map fun (n, rest) => ((n : Int), rest)
  | cs => (leadingDigits? 4 cs).map fun (n, rest) => ((n : Int), rest)

def afterHyphen? : List Char → Option (List Char)
  | '-' :: cs => some (cs.dropWhile isWhiteSpace)
  | _ => none

/-- The first moment of a bare date; white space may stand before each of its numbers. -/
def ofDate? (text : String) : Option Timestamp := do
  let (year, cs) ← leadingYear? (text.toList.dropWhile isWhiteSpace)
  let (month, cs) ← leadingDigits? 2 (← afterHyphen? cs)
  let (day, cs) ← leadingDigits? 2 (← afterHyphen? cs)
  let date : Date := ⟨year, month, day⟩
  if cs.isEmpty ∧ date.exists? ∧ -262143 ≤ year ∧ year ≤ 262142 then
    return ofLocal date 0 0 0
  else none

/-- The timestamp of a text; a text of neither form has the problem that RFC 3339 finds in it. -/
def parse (text : String) : Except Problem Timestamp :=
  match ofRfc3339 text with
  | .ok t => .ok t
  | .error problem =>
    match ofDate? text with
    | some t => .ok t
    | none => .error problem

end Timestamp

end RecordFilter
