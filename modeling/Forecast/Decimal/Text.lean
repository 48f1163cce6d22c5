import Forecast.Decimal.Rounding
import Forecast.Json.Codec

/-!
# Decimals as text

A decimal is written with exactly as many digits after the point as its scale says, without a point
if the scale is zero, and with a minus if it carries the sign.

## Reading

The plain form has an optional sign, digits, an optional point and digits, with at least one digit;
an underscore may stand anywhere after a digit. The scale is the number of digits after the point.
Digits that no longer fit are dropped, the first of them rounding a half up. A zero is read without
its sign.

The scientific form is tried when a text is not plain: a plain number, a mark and an exponent from
-28 to 28. A negative exponent raises the scale; the digits that then lie beyond the last place are
rounded off, a half up, and a negative number that is rounded to zero keeps its sign.
-/

namespace Forecast.Decimal

/-- The digits after the point, with the point. -/
def fractionChars (d : Decimal) : List Char :=
  if d.scale = 0 then [] else '.' :: Text.paddedDigits d.scale (d.mantissa % tenPow d.scale)

/-- A decimal as it is written. -/
def chars (d : Decimal) : List Char :=
  (if d.negative then ['-'] else []) ++ Nat.toDigits 10 (d.mantissa / tenPow d.scale) ++
    d.fractionChars

/-- A decimal as it is written. -/
def toText (d : Decimal) : String :=
  String.ofList d.chars

instance : ToString Decimal := ⟨toText⟩

/-! ## The plain form -/

/-- The sign in front of a number, and what follows it. -/
def takeSign : List Char → Bool × List Char
  | '-' :: cs => (true, cs)
  | '+' :: cs => (false, cs)
  | cs => (false, cs)

/-- The digits of a text made of digits and underscores. No underscore may come before the first
digit, which `seen` says has come already. -/
def digitsOnly? (seen : Bool) : List Char → Option (List Char)
  | [] => some []
  | c :: cs =>
    if c.isDigit then (digitsOnly? true cs).map (c :: ·)
    else if c = '_' ∧ seen then digitsOnly? seen cs
    else none

/-- A mantissa below ten times `(2 ^ 64 - 1) / 10 - 255` is short: it is read to its last place without
a look past an underscore there. -/
def shortMantissaBound : Nat := 18446744073709549060

/-- Takes the digits after the point into the mantissa while they fit. The first digit that does not
fit rounds the mantissa, and the others are dropped. Underscores are passed over, but one directly
behind the last place ends a short mantissa as it is. -/
def takeFraction? (mantissa scale : Nat) : List Char → Option (Nat × Nat)
  | [] => some (mantissa, scale)
  | c :: cs =>
    let longer := 10 * mantissa + Text.digitValue c
    if c = '_' then
      if scale = 28 ∧ mantissa < shortMantissaBound then some (mantissa, scale)
      else takeFraction? mantissa scale cs
    else if scale < 28 ∧ longer < mantissaBound then takeFraction? longer (scale + 1) cs
    else if Text.digitValue c < 5 then some (mantissa, scale)
    else if mantissa + 1 < mantissaBound then some (mantissa + 1, scale)
    else if scale = 0 then none
    else some ((mantissa + 1 + 4) / 10, scale - 1)

/-- Reads the plain form. -/
def ofPlain? (cs : List Char) : Option Decimal := do
  let (negative, body) := takeSign cs
  let fraction := (body.dropWhile (· != '.')).drop 1
  let whole ← digitsOnly? false (body.takeWhile (· != '.'))
  let places ← digitsOnly? (!whole.isEmpty) fraction
  if whole.isEmpty && places.isEmpty then none
  else if mantissaBound ≤ Text.digitsValue whole then none
  else
    let (mantissa, scale) ← takeFraction? (Text.digitsValue whole) 0 fraction
    (ofParts? negative mantissa scale).map clearZeroSign

/-! ## The scientific form -/

/-- A character other than an exponent mark. -/
def isNoMark (c : Char) : Bool :=
  c != 'e' && c != 'E'

/-- Reads the digits of an exponent, a number of 32 bits with an optional plus. -/
def exponent? (cs : List Char) : Option Nat :=
  let ds := match cs with
    | '+' :: ds => ds
    | ds => ds
  if ds.isEmpty || !ds.all Char.isDigit then none
  else if Text.digitsValue ds < UInt32.size then some (Text.digitsValue ds)
  else none

/-- Moves the point to the left, at most 28 places. The digits beyond the last place are rounded off,
a half upwards; the sign stays. -/
def movePointLeft? (d : Decimal) (places : Nat) : Option Decimal :=
  let scale := d.scale + places
  if places ≤ 28 then
    ofParts? d.negative (halfUp d.mantissa (tenPow (scale - 28))) (min scale 28)
  else none

/-- Moves the point to the right: within the scale by changing the scale, and beyond it by at most 28
places in all by multiplying. -/
def movePointRight? (d : Decimal) (places : Nat) : Option Decimal :=
  if places ≤ d.scale then ofParts? d.negative d.mantissa (d.scale - places)
  else if places ≤ 28 then ofParts? d.negative (d.mantissa * tenPow (places - d.scale)) 0
  else none

/-- Reads the scientific form. -/
def ofScientific? (cs : List Char) : Option Decimal := do
  let d ← ofPlain? (cs.takeWhile isNoMark)
  match cs.dropWhile isNoMark with
  | [] => none
  | _ :: '-' :: ds => (exponent? ds).bind d.movePointLeft?
  | _ :: ds => (exponent? ds).bind d.movePointRight?

/-- Reads a decimal in either form. -/
def ofChars? (cs : List Char) : Option Decimal :=
  (ofPlain? cs).or (ofScientific? cs)

/-- Reads a decimal in either form. -/
def ofText? (s : String) : Option Decimal :=
  ofChars? s.toList

instance : Json.Codec Decimal where
  encode d := .ofString d.toText
  decode? v := v.string?.bind ofText?

end Forecast.Decimal
