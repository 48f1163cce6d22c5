/-!
# Powers of ten

Scales and places are counted in powers of ten. `tenPow` is the whole number `10 ^ k`, under a name
of its own with the few laws that moving a decimal point needs.
-/

namespace Forecast

/-- The whole number `10 ^ k`. -/
def tenPow (k : Nat) : Nat :=
  Nat.pow 10 k

@[simp] theorem tenPow_zero : tenPow 0 = 1 := rfl

theorem tenPow_one : tenPow 1 = 10 := rfl

theorem tenPow_succ (k : Nat) : tenPow (k + 1) = tenPow k * 10 := rfl

theorem tenPow_pos (k : Nat) : 0 < tenPow k := by
  induction k with
  | zero => decide
  | succ k ih => rw [tenPow_succ]; omega

theorem tenPow_add (j k : Nat) : tenPow (j + k) = tenPow j * tenPow k := by
  induction k with
  | zero => simp
  | succ k ih => rw [← Nat.add_assoc, tenPow_succ, tenPow_succ, ih, Nat.mul_assoc]

theorem tenPow_le_tenPow {j k : Nat} (h : j ≤ k) : tenPow j ≤ tenPow k := by
  obtain ⟨i, rfl⟩ := Nat.exists_eq_add_of_le h
  rw [tenPow_add]
  exact Nat.le_mul_of_pos_right _ (tenPow_pos i)

/-- A larger power is a multiple of a smaller one. -/
theorem tenPow_sub_mul {j k : Nat} (h : j ≤ k) : tenPow (k - j) * tenPow j = tenPow k := by
  rw [← tenPow_add, Nat.sub_add_cancel h]

end Forecast
