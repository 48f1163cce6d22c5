import Forecast.Proofs.Decimal.ExactSum

/-!
# Order by value

Decimals are ordered by value, and two decimals of one value need not be equal, so that the order is a
preorder. The larger and the smaller of two are bounds as they should be. Rounding to a number of
places goes by the value alone (`units_roundTo`), and so it keeps the order and whatever has no more
places already: a decimal between two such bounds is still between them when it is rounded.
-/

namespace Forecast

theorem halfUp_mono {m n : Nat} (h : m ≤ n) (d : Nat) : halfUp m d ≤ halfUp n d :=
  Nat.div_le_div_right (by omega)

/-- A common factor of the quotient does not count. -/
theorem halfUp_mul_right (m d : Nat) {k : Nat} (hk : 0 < k) : halfUp (m * k) (d * k) = halfUp m d := by
  unfold halfUp
  rw [← Nat.mul_assoc, ← Nat.mul_assoc, ← Nat.add_mul, Nat.mul_div_mul_right _ _ hk]

theorem halfUp_mul_self (q : Nat) {d : Nat} (hd : 0 < d) : halfUp (q * d) d = q := by
  have h := halfUp_mul_right q 1 hd
  rwa [Nat.one_mul, halfUp_one] at h

/-- What keeps the order of magnitudes keeps that of the numbers when the sign is put back. -/
theorem sign_mul_mono {f : Nat → Nat} (hf : Monotone f) {m n : Int} (h : m ≤ n) :
    m.sign * (f m.natAbs : Nat) ≤ n.sign * (f n.natAbs : Nat) := by
  rcases lt_trichotomy m 0 with hm | rfl | hm
  · rw [Int.sign_eq_neg_one_of_neg hm]
    rcases lt_trichotomy n 0 with hn | rfl | hn
    · have := hf (show n.natAbs ≤ m.natAbs by omega)
      rw [Int.sign_eq_neg_one_of_neg hn]
      omega
    · rw [Int.sign_zero]
      omega
    · rw [Int.sign_eq_one_of_pos hn]
      omega
  · rcases eq_or_lt_of_le h with rfl | hn
    · exact le_refl _
    · rw [Int.sign_zero, Int.sign_eq_one_of_pos hn]
      omega
  · have := hf (show m.natAbs ≤ n.natAbs by omega)
    rw [Int.sign_eq_one_of_pos hm, Int.sign_eq_one_of_pos (lt_of_lt_of_le hm h)]
    omega

/-- The multiple of `d` nearest to a whole number, a half away from zero. -/
def nearestMultiple (n : Int) (d : Nat) : Int :=
  n.sign * (halfUp n.natAbs d * d : Nat)

theorem nearestMultiple_zero (d : Nat) : nearestMultiple 0 d = 0 := by
  rw [nearestMultiple, Int.sign_zero, Int.zero_mul]

theorem nearestMultiple_mono {m n : Int} (h : m ≤ n) (d : Nat) :
    nearestMultiple m d ≤ nearestMultiple n d :=
  sign_mul_mono (fun _ _ h => Nat.mul_le_mul_right d (halfUp_mono h d)) h

namespace Decimal

instance : Preorder Decimal where
  le := (· ≤ ·)
  lt := (· < ·)
  le_refl d := Int.le_refl d.units
  le_trans _ _ _ := Int.le_trans
  lt_iff_le_not_ge _ _ := Int.lt_iff_le_and_not_ge

variable {a b c d : Decimal} {places : Nat}

theorem units_one : (1 : Decimal).units = tenPow 28 := by decide

theorem not_lt_iff_le : ¬ a < b ↔ b ≤ a :=
  Int.not_lt

/-! ## The larger and the smaller of two -/

theorem right_le_max (a b : Decimal) : b ≤ max a b := by
  rw [max_def]
  split
  · exact le_refl b
  · exact not_lt_iff_le.1 ‹_›

theorem min_le_right (a b : Decimal) : min a b ≤ b := by
  rw [min_def]
  split
  · exact le_refl b
  · exact not_lt_iff_le.1 ‹_›

theorem le_min_of_le (ha : c ≤ a) (hb : c ≤ b) : c ≤ min a b := by
  rw [min_def]
  split
  · exact hb
  · exact ha

theorem units_max (a b : Decimal) : (max a b).units = max a.units b.units := by
  rw [max_def]
  split
  · rename_i h
    exact (max_eq_right (le_of_lt (lt_iff_units_lt.1 h))).symm
  · rename_i h
    exact (max_eq_left (not_lt_iff_le.1 h)).symm

theorem units_min (a b : Decimal) : (min a b).units = min a.units b.units := by
  rw [min_def]
  split
  · rename_i h
    exact (min_eq_right (le_of_lt (lt_iff_units_lt.1 h))).symm
  · rename_i h
    exact (min_eq_left (not_lt_iff_le.1 h)).symm

/-! ## Sign and magnitude -/

theorem natAbs_units (d : Decimal) : d.units.natAbs = d.mantissa * tenPow (28 - d.scale) := by
  rw [units, Int.natAbs_mul, natAbs_coefficient, Int.natAbs_natCast]

/-- The value is the signed coefficient in units of the scale. -/
theorem units_eq_sign_mul (d : Decimal) :
    d.units = (if d.negative then -1 else 1) * (d.mantissa * tenPow (28 - d.scale) : Nat) := by
  unfold units coefficient
  cases d.negative <;> simp

/-- What is below zero carries the sign and is no zero. -/
theorem lt_zero_iff : d < 0 ↔ d.negative = true ∧ d.isZero = false := by
  rw [lt_iff_units_lt, units_zero]
  cases hz : d.isZero with
  | true => simp [units_of_isZero hz]
  | false =>
    have hmantissa : 0 < d.mantissa := by simpa [isZero, Nat.pos_iff_ne_zero] using hz
    have hpos := Nat.mul_pos hmantissa (tenPow_pos (28 - d.scale))
    rw [units_eq_sign_mul]
    generalize d.mantissa * tenPow (28 - d.scale) = n at hpos
    cases d.negative with
    | true =>
      simp
      omega
    | false => simp

/-! ## Rounding -/

/-- What is rounded is the value in units. -/
theorem units_roundTo (d : Decimal) (hp : places ≤ 28) :
    (d.roundTo places).units = nearestMultiple d.units (tenPow (28 - places)) := by
  unfold nearestMultiple
  rw [natAbs_units]
  by_cases hs : d.scale ≤ places
  · -- a multiple already
    have hq : d.mantissa * tenPow (28 - d.scale) =
        d.mantissa * tenPow (places - d.scale) * tenPow (28 - places) := by
      rw [Nat.mul_assoc, ← tenPow_add, show places - d.scale + (28 - places) = 28 - d.scale by omega]
    rw [roundTo_of_scale_le hs, hq, halfUp_mul_self _ (tenPow_pos _), ← hq, ← natAbs_units,
      Int.sign_mul_natAbs]
  · have ht : tenPow (28 - places) = tenPow (d.scale - places) * tenPow (28 - d.scale) := by
      have := d.scale_le
      rw [← tenPow_add, show d.scale - places + (28 - d.scale) = 28 - places by omega]
    have hq : halfUp (d.mantissa * tenPow (28 - d.scale)) (tenPow (28 - places)) =
        halfUp d.mantissa (tenPow (d.scale - places)) := by
      rw [ht, halfUp_mul_right _ _ (tenPow_pos _)]
    rw [hq]
    generalize hm : halfUp d.mantissa (tenPow (d.scale - places)) = q
    have hround : (d.roundTo places).units =
        (if d.negative && (d.isZero || q != 0) then -1 else 1) * (q * tenPow (28 - places) : Nat) := by
      rw [units_eq_sign_mul, roundTo, dif_neg hs]
      simp only [hm]
    rw [hround]
    by_cases hz : q = 0
    · simp [hz]
    · have hmantissa : 0 < d.mantissa := by
        rw [Nat.pos_iff_ne_zero]
        intro h
        rw [h] at hm
        refine hz (hm.symm.trans (Nat.div_eq_of_lt ?_))
        have := tenPow_pos (d.scale - places)
        omega
      have hpos : 0 < ((d.mantissa * tenPow (28 - d.scale) : Nat) : Int) :=
        Int.natCast_pos.2 (Nat.mul_pos hmantissa (tenPow_pos _))
      rw [units_eq_sign_mul d, Int.sign_mul, Int.sign_eq_one_of_pos hpos]
      cases d.negative <;> simp [hz]

theorem roundTo_mono (hp : places ≤ 28) (h : a ≤ b) : a.roundTo places ≤ b.roundTo places := by
  rw [le_iff_units_le, units_roundTo a hp, units_roundTo b hp]
  exact nearestMultiple_mono h _

/-- Rounding does not lead past a bound that has no more places. -/
theorem le_roundTo (hp : places ≤ 28) (hc : c.scale ≤ places) (h : c ≤ a) : c ≤ a.roundTo places := by
  rw [← roundTo_of_scale_le hc]
  exact roundTo_mono hp h

theorem roundTo_le (hp : places ≤ 28) (hc : c.scale ≤ places) (h : a ≤ c) : a.roundTo places ≤ c := by
  rw [← roundTo_of_scale_le hc]
  exact roundTo_mono hp h

end Decimal

end Forecast
