import Forecast.Calendar.Date
import Forecast.Json.Codec
import Forecast.Text.Blank

/-!
# Dates as text

A date is written as year, month and day with hyphens: four digits for the years 0 to 9999, a sign
and at least four digits for all others, two digits for month and day.

## Reading

Two readers share one grammar and differ in where they take blanks. Both skip blanks in front of a
number. The *loose* reader, for dates in JSON, also skips them in front of a hyphen; the *strict*
reader, for parameters, does not. A year without a sign has at most four digits, one with a sign any
number of them.

A text is read from left to right and the first flaw decides. A number is out of range as soon as it
has been read; that the month lacks the day, or the calendar the year, is found last, after anything
that trails behind the day.
-/

namespace Forecast

/-- What keeps a text from being a date. -/
inductive DateFlaw
  /-- The text ends where something must follow. -/
  | ended
  /-- Another character stands where a digit or a hyphen must. -/
  | unexpected
  /-- A number is too large, or there is no such date. -/
  | outOfRange
  /-- Something follows the day. -/
  | trailing
deriving DecidableEq, Repr

/-- What is reported of a flaw. -/
def DateFlaw.message : DateFlaw → String
  | ended => "premature end of input"
  | unexpected => "input contains invalid characters"
  | outOfRange => "input is out of range"
  | trailing => "trailing input"

namespace Date

/-- A year as it is written. -/
def yearChars (year : Int) : List Char :=
  let digits := Text.paddedDigits 4 year.natAbs
  if 0 ≤ year ∧ year ≤ 9999 then digits
  else if year < 0 then '-' :: digits
  else '+' :: digits

/-- A date as it is written. -/
def chars (d : Date) : List Char :=
  yearChars d.year ++ '-' :: Text.paddedDigits 2 d.month.number ++ '-' :: Text.paddedDigits 2 d.day

/-- A date as it is written. -/
def toText (d : Date) : String :=
  String.ofList d.chars

instance : ToString Date := ⟨toText⟩

/-- The instant at which a date begins in universal time, as it is written. -/
def midnightText (d : Date) : String :=
  d.toText ++ "T00:00:00+00:00"

/-! ## Reading -/

/-- The value of a run of digits that must not be empty, with the text that follows it. The value is
a number of 63 bits. -/
def readRun (run : List Char × List Char) : Except DateFlaw (Int × List Char) :=
  if run.1.isEmpty then .error (if run.2.isEmpty then .ended else .unexpected)
  else
    let n := Text.digitsValue run.1
    if n < 9223372036854775808 then .ok (n, run.2) else .error .outOfRange

/-- The number, if it lies in the given range. -/
def checkRange (low high : Int) (r : Int × List Char) : Except DateFlaw (Int × List Char) :=
  if low ≤ r.1 ∧ r.1 ≤ high then .ok r else .error .outOfRange

/-- Reads a year, an integer of 32 bits. -/
def readYear (cs : List Char) : Except DateFlaw (Int × List Char) := do
  let r ← match Text.trimStart cs with
    | '-' :: ds => (readRun (Text.spanDigits ds)).map fun r => (-r.1, r.2)
    | '+' :: ds => readRun (Text.spanDigits ds)
    | ds => readRun (Text.spanDigitsUpTo 4 ds)
  checkRange (-2147483648) 2147483647 r

/-- Reads a month or a day of at most two digits. -/
def readPart (high : Int) (cs : List Char) : Except DateFlaw (Int × List Char) := do
  let r ← readRun (Text.spanDigitsUpTo 2 (Text.trimStart cs))
  checkRange 1 high r

/-- Reads a hyphen. -/
def readHyphen (loose : Bool) (cs : List Char) : Except DateFlaw (List Char) :=
  match if loose then Text.trimStart cs else cs with
  | [] => .error .ended
  | '-' :: rest => .ok rest
  | _ => .error .unexpected

/-- Reads a date, skipping blanks in front of hyphens if `loose`. -/
def readChars (loose : Bool) (cs : List Char) : Except DateFlaw Date := do
  let (year, cs) ← readYear cs
  let cs ← readHyphen loose cs
  let (month, cs) ← readPart 12 cs
  let cs ← readHyphen loose cs
  let (day, cs) ← readPart 31 cs
  if (Text.trimStart cs).isEmpty then
    match ofParts? year month.toNat day.toNat with
    | some d => .ok d
    | none => .error .outOfRange
  else .error .trailing

instance : Json.Codec Date where
  encode d := .ofString d.toText
  decode? v := v.string?.bind fun s => (readChars true s.toList).toOption

end Date

end Forecast
