/-!
# Rounded quotients

The two ways in which the quotient of whole numbers is rounded: to the nearest number with a half
going to the even neighbour, and to the nearest number with a half going up.
-/

namespace Forecast

/-- The quotient rounded to the nearest whole number, a half to the even one. -/
def halfEven (m d : Nat) : Nat :=
  let q := m / d
  let twice := 2 * (m % d)
  if twice < d then q
  else if d < twice then q + 1
  else if q % 2 = 0 then q
  else q + 1

/-- The quotient rounded to the nearest whole number, a half upwards. -/
def halfUp (m d : Nat) : Nat :=
  (2 * m + d) / (2 * d)

theorem halfEven_le (m d : Nat) : halfEven m d ≤ m / d + 1 := by
  unfold halfEven
  dsimp only
  split
  · omega
  · split
    · omega
    · split <;> omega

theorem le_halfEven (m d : Nat) : m / d ≤ halfEven m d := by
  unfold halfEven
  dsimp only
  split
  · omega
  · split
    · omega
    · split <;> omega

@[simp] theorem halfEven_one (m : Nat) : halfEven m 1 = m := by
  simp [halfEven, Nat.mod_one]

@[simp] theorem halfUp_one (m : Nat) : halfUp m 1 = m := by
  unfold halfUp
  omega

end Forecast
