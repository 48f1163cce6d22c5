import Forecast.Json.Value
import Forecast.Quotient

/-!
# Finite numbers

A number that is kept for later is brought into 64-bit binary floating point, and must be finite
there. The way is short and costs some precision, so that it decides on its own which of the numbers
close to the largest one pass:

* the leading digits that fit a word of 64 bits are kept, and the others only move the point;
* the kept digits and the power of ten are rounded to 53 bits each;
* their product is the number. It must lie below the bound from which rounding leads to infinity.

A power of ten above `10 ^ 308` is refused unless only zeros were kept, and a negative power can never
lead out of range.
-/

namespace Forecast.Json

/-- The least magnitude `2 ^ 1024 - 2 ^ 970` whose nearest 64-bit binary floating-point value is not
finite. -/
def finiteBound : Nat :=
  (1 <<< 1024) - (1 <<< 970)

/-- The number rounded to its leading 53 bits, a half to the even neighbour. -/
def roundToBits (n : Nat) : Nat :=
  let k := n.log2 - 52
  halfEven n (1 <<< k) <<< k

/-- Takes digits behind those of `kept` while the number fits 64 bits. Gives the number and how many
digits were taken, `taken` of them before. -/
def keepDigits (kept taken : Nat) : List Char → Nat × Nat
  | [] => (kept, taken)
  | c :: cs =>
    let longer := 10 * kept + Text.digitValue c
    if longer < UInt64.size then keepDigits longer (taken + 1) cs else (kept, taken)

/-- The digits of a number that are kept, and the power of ten they are multiplied by. Once a digit
before the point is dropped so are the others before the point, but not those behind it. -/
def Numeral.kept (n : Numeral) : Nat × Int :=
  let (whole, before) := keepDigits 0 0 n.wholeDigits
  let (digits, behind) := keepDigits whole 0 n.fractionDigits
  let exponent := match n with
    | .integer _ => 0
    | .real _ _ _ e => e
  (digits, (n.wholeDigits.length : Int) - before - behind + exponent)

/-- A number is finite in 64-bit binary floating point. -/
def Numeral.isFinite (n : Numeral) : Bool :=
  let (digits, exponent) := n.kept
  digits == 0 || exponent < 0 ||
    (exponent ≤ 308 && roundToBits digits * roundToBits (tenPow exponent.toNat) < finiteBound)

end Forecast.Json
