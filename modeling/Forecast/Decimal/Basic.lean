import Forecast.PowerOfTen

/-!
# Decimals

Amounts and scores are decimals: a sign, a mantissa below `2 ^ 96` and a scale of at most 28 places.
Two decimals of one value may differ in scale, and a zero may carry a sign; both are shown when a
decimal is written, so a decimal is kept as it came and is not reduced.

## The value

`Decimal.units` is the value as a whole number of units of `10 ^ -28`, the finest step any decimal
can show. Order and equality of value are order and equality of units.
-/

namespace Forecast

/-- The number `2 ^ 96`, below which all mantissas lie. -/
def Decimal.mantissaBound : Nat := 79228162514264337593543950336

/-- A signed decimal number with a visible scale. -/
structure Decimal where
  negative : Bool
  mantissa : Nat
  scale : Nat
  mantissa_lt : mantissa < Decimal.mantissaBound := by decide
  scale_le : scale ≤ 28 := by decide
deriving DecidableEq

namespace Decimal

/-- The decimal with the given parts, if they are in range. -/
def ofParts? (negative : Bool) (mantissa scale : Nat) : Option Decimal :=
  if h : mantissa < mantissaBound ∧ scale ≤ 28 then some ⟨negative, mantissa, scale, h.1, h.2⟩ else none

/-- The whole number `n`, with scale zero. -/
def ofNat (n : Nat) (h : n < mantissaBound := by decide) : Decimal :=
  { negative := false, mantissa := n, scale := 0, mantissa_lt := h }

/-- The decimal `n * 10 ^ -places`. -/
def ofWord (n : UInt32) (places : Nat) (h : places ≤ 28 := by decide) : Decimal :=
  { negative := false
    mantissa := n.toNat
    scale := places
    mantissa_lt := Nat.lt_of_lt_of_le n.toNat_lt (by decide)
    scale_le := h }

/-- A whole number, written without a point. -/
def whole (n : UInt32) : Decimal := ofWord n 0

/-- A number of tenths, written with one place. -/
def tenths (n : UInt32) : Decimal := ofWord n 1

/-- A number of hundredths, written with two places. -/
def hundredths (n : UInt32) : Decimal := ofWord n 2

/-- A number of thousandths, written with three places. -/
def thousandths (n : UInt32) : Decimal := ofWord n 3

instance : Zero Decimal := ⟨ofNat 0⟩
instance : One Decimal := ⟨ofNat 1⟩
instance : Inhabited Decimal := ⟨0⟩

/-- The mantissa with the sign. -/
def coefficient (d : Decimal) : Int :=
  if d.negative then -(d.mantissa : Int) else d.mantissa

/-- The value in units of `10 ^ -28`. -/
def units (d : Decimal) : Int :=
  d.coefficient * tenPow (28 - d.scale)

/-- A decimal is zero whatever its scale and sign. -/
def isZero (d : Decimal) : Bool :=
  d.mantissa == 0

/-! ## Order by value -/

instance : LT Decimal := ⟨fun a b => a.units < b.units⟩
instance : LE Decimal := ⟨fun a b => a.units ≤ b.units⟩
instance (a b : Decimal) : Decidable (a < b) := Int.decLt a.units b.units
instance (a b : Decimal) : Decidable (a ≤ b) := Int.decLe a.units b.units

theorem lt_iff_units_lt {a b : Decimal} : a < b ↔ a.units < b.units := Iff.rfl
theorem le_iff_units_le {a b : Decimal} : a ≤ b ↔ a.units ≤ b.units := Iff.rfl

/-- The larger of two decimals, the first one if they have the same value. -/
instance : Max Decimal := ⟨fun a b => if a < b then b else a⟩

/-- The smaller of two decimals, the first one if they have the same value. -/
instance : Min Decimal := ⟨fun a b => if b < a then b else a⟩

theorem max_def (a b : Decimal) : max a b = if a < b then b else a := rfl
theorem min_def (a b : Decimal) : min a b = if b < a then b else a := rfl

/-! ## Sign -/

/-- The decimal without its sign. -/
def abs (d : Decimal) : Decimal :=
  { d with negative := false }

/-- The decimal with the other sign, also for a zero. -/
def neg (d : Decimal) : Decimal :=
  { d with negative := !d.negative }

instance : Neg Decimal := ⟨neg⟩

/-- The same number with the sign of a zero cleared. -/
def clearZeroSign (d : Decimal) : Decimal :=
  { d with negative := d.negative && !d.isZero }

theorem units_zero : (0 : Decimal).units = 0 := by decide

theorem isZero_iff_units {d : Decimal} : d.isZero = true ↔ d.units = 0 := by
  simp only [isZero, units, coefficient, beq_iff_eq, Int.mul_eq_zero]
  have hp : (tenPow (28 - d.scale) : Int) ≠ 0 := by
    have := tenPow_pos (28 - d.scale)
    omega
  constructor
  · intro h
    left
    split <;> omega
  · rintro (h | h)
    · split at h <;> omega
    · exact absurd h hp

theorem units_neg (d : Decimal) : (-d).units = -d.units := by
  show (neg d).units = _
  unfold units coefficient neg
  rw [← Int.neg_mul]
  cases d.negative <;> simp

theorem units_abs (d : Decimal) : d.abs.units = d.units.natAbs := by
  unfold units coefficient abs
  cases d.negative <;> simp [Int.natAbs_mul]

theorem units_clearZeroSign (d : Decimal) : d.clearZeroSign.units = d.units := by
  unfold clearZeroSign units coefficient isZero
  cases hn : d.negative <;> by_cases hz : d.mantissa = 0 <;> simp [hz]

@[simp] theorem ofParts?_parts (d : Decimal) :
    ofParts? d.negative d.mantissa d.scale = some d :=
  dif_pos ⟨d.mantissa_lt, d.scale_le⟩

end Decimal

end Forecast
