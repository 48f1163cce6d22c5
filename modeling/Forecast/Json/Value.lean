import Forecast.PowerOfTen
import Forecast.Text.Digits

/-!
# JSON values

A JSON text as a tree that keeps everything a reader of records can ask about: the order of members,
members that repeat a key, and whether a number was written as an integer.

## What a literal may hold

The escapes of a string literal denote code units, so that a literal can hold half of a surrogate
pair and is then no text. Such a literal is `none`. It is refused wherever its content is needed and
passes wherever the value is skipped.
-/

namespace Forecast.Json

/-- The content of a string literal: a text, or nothing if an unpaired surrogate is in it. -/
abbrev Literal := Option String

/-- A number as it was written. An integer has neither fraction nor exponent and is not `-0`. Anything
else has a sign, all its digits as the mantissa, of which the last `places` stand behind the point,
and an exponent. -/
inductive Numeral
  | integer (value : Int)
  | real (negative : Bool) (mantissa places : Nat) (exponent : Int)
deriving DecidableEq

/-- A JSON value. -/
inductive Value
  | null
  | bool (b : Bool)
  | number (n : Numeral)
  | text (s : Literal)
  | array (items : List Value)
  | object (members : List (Literal × Value))

namespace Numeral

/-- The digits after an exponent mark, with an optional sign, as a whole number. -/
def exponentValue? : List Char → Option Int
  | '-' :: ds => if ds.isEmpty || !ds.all Char.isDigit then none else some (-(Text.digitsValue ds : Int))
  | '+' :: ds => if ds.isEmpty || !ds.all Char.isDigit then none else some (Text.digitsValue ds)
  | ds => if ds.isEmpty || !ds.all Char.isDigit then none else some (Text.digitsValue ds)

/-- A whole part is `0` or starts with another digit. -/
def isWholePart : List Char → Bool
  | [] => false
  | ['0'] => true
  | c :: _ => c != '0'

/-- The parts after the whole part: the digits behind a point, and the exponent behind a mark. A
part that is not written is `none`. -/
def readTail (cs : List Char) : Option (Option (List Char) × Option Int) :=
  let (fraction, rest) := match cs with
    | '.' :: r => ((Text.spanDigits r).1 |> some, (Text.spanDigits r).2)
    | r => (none, r)
  if fraction = some [] then none
  else match rest with
    | [] => some (fraction, none)
    | c :: r => if c = 'e' ∨ c = 'E' then (exponentValue? r).map fun e => (fraction, some e) else none

/-- Reads a complete number. -/
def ofText? (cs : List Char) : Option Numeral := do
  let (negative, body) := match cs with
    | '-' :: r => (true, r)
    | r => (false, r)
  let (whole, rest) := Text.spanDigits body
  if isWholePart whole then
    let (fraction, exponent) ← readTail rest
    match fraction, exponent with
    | none, none =>
      let n := Text.digitsValue whole
      if negative then some (if n = 0 then .real true 0 0 0 else .integer (-(n : Int)))
      else some (.integer n)
    | fraction, exponent =>
      let ds := fraction.getD []
      some (.real negative (Text.digitsValue (whole ++ ds)) ds.length (exponent.getD 0))
  else none

/-- The digits before the point. -/
def wholeDigits : Numeral → List Char
  | integer n => Nat.toDigits 10 n.natAbs
  | real _ m places _ => Nat.toDigits 10 (m / tenPow places)

/-- The digits behind the point. -/
def fractionDigits : Numeral → List Char
  | real _ m (places + 1) _ => Text.paddedDigits (places + 1) (m % tenPow (places + 1))
  | _ => []

/-- Writes a number so that it reads back as it is. -/
def chars : Numeral → List Char
  | integer n => Text.intDigits n
  | real negative m places e =>
    let n := real negative m places e
    (if negative then ['-'] else []) ++ n.wholeDigits ++
      (if places = 0 then [] else '.' :: n.fractionDigits) ++ 'e' :: Text.intDigits e

end Numeral

end Forecast.Json
