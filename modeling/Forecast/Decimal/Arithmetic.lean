import Forecast.Fault
import Forecast.Decimal.Rounding

/-!
# Sums, differences and products

Each operation takes the exact result at the natural scale and fits it into a decimal. A zero
operand is treated apart, since its scale must not reach the result: adding a zero leaves the other
operand as it is, and a product with a zero is the plain zero.
-/

namespace Forecast.Decimal

/-- The coefficient at a scale that is at least the decimal's own. -/
def coefficientAt (scale : Nat) (d : Decimal) : Int :=
  d.coefficient * tenPow (scale - d.scale)

/-- The sum of two decimals neither of which is zero. -/
def addExact (a b : Decimal) : Option Decimal :=
  let scale := max a.scale b.scale
  let sum := a.coefficientAt scale + b.coefficientAt scale
  fit (sum < 0) sum.natAbs scale

/-- The sum, unless it is too large. -/
def add? (a b : Decimal) : Option Decimal :=
  if a.isZero then some b else if b.isZero then some a else addExact a b

/-- The difference, unless it is too large. Taking something from zero negates it; taking a zero
from a zero leaves the one that was taken. -/
def sub? (a b : Decimal) : Option Decimal :=
  if a.isZero then some (if b.isZero then b else -b)
  else if b.isZero then some a
  else addExact a (-b)

/-- The product, unless it is too large. -/
def mul? (a b : Decimal) : Option Decimal :=
  if a.isZero || b.isZero then some 0
  else
    (fit (a.negative != b.negative) (a.mantissa * b.mantissa) (a.scale + b.scale)).map clearZeroSign

/-- The sum, or the fault of an addition. -/
def add (a b : Decimal) : Checked Decimal :=
  .ofOption .addition (add? a b)

/-- The difference, or the fault of a subtraction. -/
def sub (a b : Decimal) : Checked Decimal :=
  .ofOption .subtraction (sub? a b)

/-- The product, or the fault of a multiplication. -/
def mul (a b : Decimal) : Checked Decimal :=
  .ofOption .multiplication (mul? a b)

/-- The sum of a list from left to right, starting from zero. -/
def sum (ds : List Decimal) : Checked Decimal :=
  ds.foldlM add 0

@[simp] theorem sum_nil : sum [] = .ok 0 := rfl

end Forecast.Decimal
