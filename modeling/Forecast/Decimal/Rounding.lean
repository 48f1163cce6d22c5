import Forecast.Decimal.Basic
import Forecast.Quotient

/-!
# Rounding

The two places where decimals are rounded:

* `fit` brings an exact result of any size into the range of a decimal by dropping the least number
  of digits, a half going to the even neighbour;
* `roundTo` cuts a decimal to a number of places, a half going away from zero.

## Termination

`excess` counts the digits a mantissa has too many; each step divides the mantissa by ten.
-/

namespace Forecast

namespace Decimal

/-- How many digits must be dropped for the rest to stay below the bound. -/
def excess (m : Nat) : Nat :=
  if m < mantissaBound then 0 else excess (m / 10) + 1
termination_by m
decreasing_by unfold mantissaBound at *; omega

/-- The decimal nearest to `m * 10 ^ -scale` that drops the fewest digits: as many as the scale and
the mantissa have too many, and one more if rounding reaches the bound. There is none if more digits
would have to go than stand after the point. -/
def fit (negative : Bool) (m scale : Nat) : Option Decimal :=
  let k := max (scale - 28) (excess m)
  let q := halfEven m (tenPow k)
  if scale < k then none
  else if q < mantissaBound then ofParts? negative q (scale - k)
  else if scale = k then none
  else ofParts? negative (halfEven q 10) (scale - k - 1)

theorem halfUp_lt {m k : Nat} (hm : m < mantissaBound) (hk : 0 < k) :
    halfUp m (tenPow k) < mantissaBound := by
  have hp : tenPow 1 ≤ tenPow k := tenPow_le_tenPow hk
  rw [tenPow_one] at hp
  unfold halfUp mantissaBound at *
  rw [Nat.div_lt_iff_lt_mul (by omega)]
  omega

/-- The decimal with at most `places` digits after the point, a half rounded away from zero. A zero
keeps its sign; what is only rounded to zero loses it. A decimal that has no more digits stays as it
is. -/
def roundTo (places : Nat) (d : Decimal) : Decimal :=
  if h : d.scale ≤ places then d
  else
    let q := halfUp d.mantissa (tenPow (d.scale - places))
    { negative := d.negative && (d.isZero || q != 0)
      mantissa := q
      scale := places
      mantissa_lt := halfUp_lt d.mantissa_lt (by omega)
      scale_le := by have := d.scale_le; omega }

theorem excess_of_lt {m : Nat} (h : m < mantissaBound) : excess m = 0 := by
  rw [excess, if_pos h]

theorem div_tenPow_excess_lt (m : Nat) : m / tenPow (excess m) < mantissaBound := by
  induction m using excess.induct with
  | case1 m h => rw [excess_of_lt h]; simpa using h
  | case2 m h ih =>
    rw [excess, if_neg h, tenPow_succ, Nat.mul_comm, ← Nat.div_div_eq_div_mul]
    exact ih

/-- A number that is in range already is only given its parts. -/
theorem fit_of_lt (negative : Bool) {m scale : Nat} (hm : m < mantissaBound) (hs : scale ≤ 28) :
    fit negative m scale = some ⟨negative, m, scale, hm, hs⟩ := by
  have hk : max (scale - 28) (excess m) = 0 := by rw [excess_of_lt hm]; omega
  simp only [fit, hk, tenPow_zero, halfEven_one, Nat.not_lt_zero, if_false, Nat.sub_zero, ofParts?,
    hs, hm, and_self, dif_pos, if_true]

theorem roundTo_of_scale_le {places : Nat} {d : Decimal} (h : d.scale ≤ places) :
    d.roundTo places = d := by
  simp [roundTo, h]

theorem scale_roundTo_le (places : Nat) (d : Decimal) : (d.roundTo places).scale ≤ places := by
  unfold roundTo
  split
  · assumption
  · exact Nat.le_refl _

end Decimal

end Forecast
