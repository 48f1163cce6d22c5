import Forecast.Confidence.Score
import Forecast.Proofs.Decimal.Rounded

/-!
# Bounded decimals

A result of any number of digits finds room in a decimal, rounded where it must be, if its value is
bounded by a whole number that does, and it is bounded by it then (`natAbs_rounded_le`). So bounded
decimals have sums, differences and products, which are bounded again (`exists_add_atMost`,
`exists_sub_atMost`, `exists_mul_atMost`), however many places they have: nothing has to be exact here,
and rounding does not lead past a whole number.
-/

namespace Forecast.Decimal

variable {a b c d : Decimal} {m n scale : Nat} {z : Int}

/-- The absolute value is at most the whole number. -/
def AtMost (n : Nat) (d : Decimal) : Prop :=
  d.mantissa ≤ n * tenPow d.scale

theorem atMost_one : (1 : Decimal).AtMost 1 := Nat.le_refl 1

/-- The bound in units. -/
theorem atMost_iff : d.AtMost n ↔ d.units.natAbs ≤ n * tenPow 28 := by
  have hpow : tenPow 28 = tenPow d.scale * tenPow (28 - d.scale) := by
    rw [Nat.mul_comm, tenPow_sub_mul d.scale_le]
  rw [natAbs_units, hpow, ← Nat.mul_assoc]
  exact (Nat.mul_le_mul_right_iff (tenPow_pos _)).symm

/-- What lies between zero and one is at most one. -/
theorem atMost_one_of_le (h : 0 ≤ d) (h' : d ≤ 1) : d.AtMost 1 := by
  rw [le_iff_units_le, units_zero] at h
  rw [le_iff_units_le, units_one] at h'
  rw [atMost_iff]
  omega

/-! ## Rounding -/

/-- Rounding does not lead past a whole number. -/
theorem natAbs_rounded_le (hn : n < mantissaBound) (h : z.natAbs ≤ n * tenPow 56) :
    (rounded z).natAbs ≤ n * tenPow 56 := by
  rw [natAbs_rounded, ← fitted_of_eq_mul hn (by decide : 28 ≤ 56) rfl]
  exact fitted_mono h

theorem natAbs_rounded_lt (hn : n < mantissaBound) (h : z.natAbs ≤ n * tenPow 56) :
    (rounded z).natAbs < mantissaBound * tenPow 56 :=
  lt_of_le_of_lt (natAbs_rounded_le hn h) (Nat.mul_lt_mul_of_pos_right hn (tenPow_pos 56))

/-- A bound that is written in units of `10 ^ -56`. -/
theorem natAbs_mul_le_iff : (z * tenPow 28).natAbs ≤ n * tenPow 56 ↔ z.natAbs ≤ n * tenPow 28 := by
  rw [Int.natAbs_mul, Int.natAbs_natCast, mul_tenPow_56]
  exact Nat.mul_le_mul_right_iff (tenPow_pos 28)

theorem le_natAbs_mul_iff : n * tenPow 56 ≤ (z * tenPow 28).natAbs ↔ n * tenPow 28 ≤ z.natAbs := by
  rw [Int.natAbs_mul, Int.natAbs_natCast, mul_tenPow_56]
  exact Nat.mul_le_mul_right_iff (tenPow_pos 28)

theorem atMost_of_rounded (hn : n < mantissaBound) (h : z.natAbs ≤ n * tenPow 56)
    (hc : c.units * tenPow 28 = rounded z) : c.AtMost n := by
  have hle := natAbs_rounded_le hn h
  rw [← hc] at hle
  exact atMost_iff.2 (natAbs_mul_le_iff.1 hle)

/-! ## Operations -/

theorem units_of_ofInt? (h : ofInt? z = some d) : d.units = z * tenPow 28 := by
  unfold ofInt? at h
  rw [units_eq_sign_mul, negative_of_ofParts? h, mantissa_of_ofParts? h, scale_of_ofParts? h]
  by_cases hz : z < 0
  · simp only [hz, decide_true, if_true]
    push_cast
    rw [← Int.mul_assoc, Int.neg_one_mul, abs_of_neg hz, Int.neg_neg]
  · simp only [hz, decide_false]
    push_cast
    rw [abs_of_nonneg (by omega)]
    simp

theorem exists_ofInt? (z : Int) (h : z.natAbs < mantissaBound) : ∃ d, ofInt? z = some d := by
  rw [ofInt?, ofParts?, dif_pos ⟨h, by decide⟩]
  exact ⟨_, rfl⟩

theorem exists_mul_atMost (ha : a.AtMost m) (hb : b.AtMost n) (h : m * n < mantissaBound) :
    ∃ c, a.mul b = .ok c ∧ c.AtMost (m * n) := by
  have hproduct : (a.units * b.units).natAbs ≤ m * n * tenPow 56 := by
    rw [Int.natAbs_mul, mul_tenPow_56, Nat.mul_assoc, Nat.mul_mul_mul_comm]
    exact Nat.mul_le_mul (atMost_iff.1 ha) (atMost_iff.1 hb)
  obtain ⟨c, hc⟩ := exists_mul_iff.2 (natAbs_rounded_lt h hproduct)
  exact ⟨c, hc, atMost_of_rounded h hproduct (units_of_mul hc)⟩

theorem exists_add_atMost (ha : a.AtMost m) (hb : b.AtMost n) (h : m + n < mantissaBound) :
    ∃ c, a.add b = .ok c ∧ c.AtMost (m + n) := by
  have hsum : ((a.units + b.units) * tenPow 28).natAbs ≤ (m + n) * tenPow 56 := by
    refine natAbs_mul_le_iff.2 ((Int.natAbs_add_le _ _).trans ?_)
    rw [Nat.add_mul]
    exact Nat.add_le_add (atMost_iff.1 ha) (atMost_iff.1 hb)
  obtain ⟨c, hc⟩ := exists_add_iff.2 (natAbs_rounded_lt h hsum)
  exact ⟨c, hc, atMost_of_rounded h hsum (units_of_add hc)⟩

theorem exists_sub_atMost (ha : a.AtMost m) (hb : b.AtMost n) (h : m + n < mantissaBound) :
    ∃ c, a.sub b = .ok c ∧ c.AtMost (m + n) := by
  have hdifference : ((a.units - b.units) * tenPow 28).natAbs ≤ (m + n) * tenPow 56 := by
    refine natAbs_mul_le_iff.2 ((Int.natAbs_sub_le _ _).trans ?_)
    rw [Nat.add_mul]
    exact Nat.add_le_add (atMost_iff.1 ha) (atMost_iff.1 hb)
  obtain ⟨c, hc⟩ := exists_sub_iff.2 (natAbs_rounded_lt h hdifference)
  exact ⟨c, hc, atMost_of_rounded h hdifference (units_of_sub hc)⟩

end Forecast.Decimal
