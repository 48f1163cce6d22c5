import Forecast.Decimal.Arithmetic

/-!
# Means

Dividing a total by a count. A total that the count divides keeps its scale. Otherwise the quotient
is extended digit by digit group: as many places as the scale, the mantissa and a group of nine
allow, until nothing remains or no place is left, where the last digit is rounded, a half to the
even neighbour. An extended quotient is then freed of trailing zeros in a fixed way that can leave
some of them, so that a half is written `0.50`.

## Termination

Each extension uses up places, of which there are 28. Each step of `stripEights` gives back eight.
-/

namespace Forecast.Decimal

/-- The most places, at most nine, by which a quotient can be extended. -/
def roomFor (q scale : Nat) : Nat :=
  ((List.range 10).reverse.find? fun p => decide (scale + p ≤ 28 ∧ q * tenPow p < mantissaBound)).getD 0

/-- A quotient that ran over the bound, without its last digit. A half goes to the even neighbour
unless more followed it. -/
def dropDigit (q : Nat) (more : Bool) : Nat :=
  let r := q % 10
  if r > 5 ∨ (r = 5 ∧ (more ∨ q / 10 % 2 = 1)) then q / 10 + 1 else q / 10

/-- The last rounding of a quotient for which no place is left. -/
def roundLast (n q r scale : Nat) : Nat × Nat :=
  if 2 * r > n ∨ (2 * r = n ∧ q % 2 = 1) then
    if q + 1 < mantissaBound then (q + 1, scale) else (dropDigit (q + 1) true, scale - 1)
  else (q, scale)

/-- Extends the quotient `q` with remainder `r` of a division by `n`, and gives the mantissa and
scale it ends with. -/
def extend (n q r scale : Nat) : Nat × Nat :=
  if r = 0 then (q, scale)
  else
    let p := roomFor q scale
    if p = 0 ∨ 28 < scale + p then roundLast n q r scale
    else
      let q' := q * tenPow p + r * tenPow p / n
      let r' := r * tenPow p % n
      if q' < mantissaBound then extend n q' r' (scale + p)
      else (dropDigit q' (r' ≠ 0), scale + p - 1)
termination_by 28 - scale
decreasing_by omega

/-- Takes eight zeros at a time off a mantissa whose low 32 bits are clear. -/
def stripEights (m scale : Nat) : Nat × Nat :=
  if m % UInt32.size = 0 ∧ 8 ≤ scale ∧ m % tenPow 8 = 0 then stripEights (m / tenPow 8) (scale - 8)
  else (m, scale)
termination_by scale
decreasing_by omega

/-- Takes `2 ^ bits`-divisible zeros off once: `digits` of them, if the mantissa ends in that many
and its last `bits` bits are clear. -/
def stripOnce (bits digits : Nat) (ms : Nat × Nat) : Nat × Nat :=
  if ms.1 % (1 <<< bits) = 0 ∧ digits ≤ ms.2 ∧ ms.1 % tenPow digits = 0 then
    (ms.1 / tenPow digits, ms.2 - digits)
  else ms

/-- An extended quotient without the trailing zeros that groups of eight, four, two and one digit
take off. -/
def strip (ms : Nat × Nat) : Nat × Nat :=
  stripOnce 1 1 (stripOnce 2 2 (stripOnce 4 4 (stripEights ms.1 ms.2)))

/-- The total divided by the positive count `n`; a zero total gives the plain zero. -/
def divideBy (total : Decimal) (n : Nat) : Decimal :=
  if total.isZero then 0
  else if total.mantissa % n = 0 then
    (ofParts? total.negative (total.mantissa / n) total.scale).getD 0
  else
    let (m, scale) := strip (extend n (total.mantissa / n) (total.mantissa % n) total.scale)
    ((ofParts? total.negative m scale).getD 0).clearZeroSign

/-- The mean of a list that is not empty: its sum divided by its length. -/
def mean (ds : List Decimal) : Checked Decimal :=
  return (← sum ds).divideBy ds.length

end Forecast.Decimal
