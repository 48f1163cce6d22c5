import Forecast.Proofs.Decimal.Order
import Forecast.Proofs.Success

/-!
# Rounded results

A sum, a difference or a product with more digits than a decimal can hold is rounded, and how many digits
that takes depends on its size. Still it goes by the value of the exact result alone, however this was
written: in units of `10 ^ -56`, in which the product of two decimals is a whole number, every result is
`rounded` of the exact one (`units_of_mul`, `units_of_add`, `units_of_sub`), and it exists exactly when
that is in range (`exists_mul_iff`, `exists_sub_iff`).

Rounding keeps the order, also across the sizes at which one more digit is dropped (`rounded_mono`), and
leaves decimals alone (`rounded_units`). So the operations keep the order as the exact ones do.
-/

namespace Forecast

/-! ## Quotients rounded to even -/

theorem halfEven_mono {m n d : Nat} (h : m ≤ n) : halfEven m d ≤ halfEven n d := by
  have hdiv : m / d ≤ n / d := Nat.div_le_div_right h
  rcases Nat.lt_or_eq_of_le hdiv with hlt | heq
  · have := halfEven_le m d
    have := le_halfEven n d
    omega
  · -- with the same quotient the remainders are in order
    have hm := Nat.div_add_mod m d
    have hn := Nat.div_add_mod n d
    rw [heq] at hm
    have hmod : m % d ≤ n % d := by omega
    unfold halfEven
    dsimp only
    rw [heq]
    split_ifs <;> omega

/-- A common factor of the quotient does not count. -/
theorem halfEven_mul_right (m d : Nat) {k : Nat} (hk : 0 < k) :
    halfEven (m * k) (d * k) = halfEven m d := by
  have hlt : ∀ a b : Nat, a * k < b * k ↔ a < b := fun _ _ => Nat.mul_lt_mul_right hk
  unfold halfEven
  dsimp only
  rw [Nat.mul_div_mul_right _ _ hk, Nat.mul_mod_mul_right, ← Nat.mul_assoc]
  simp only [hlt]

theorem halfEven_mul_self (q : Nat) {d : Nat} (hd : 0 < d) : halfEven (q * d) d = q := by
  have h := halfEven_mul_right q 1 hd
  rwa [Nat.one_mul, halfEven_one] at h

namespace Decimal

variable {a b c d : Decimal} {negative : Bool} {k m n q scale x y : Nat} {z w : Int}

/-! ## Digits in excess -/

/-- What a power of ten brings below the bound has no more digits too many than that. -/
theorem excess_le (h : m / tenPow n < mantissaBound) : excess m ≤ n := by
  induction n generalizing m with
  | zero =>
    rw [tenPow_zero, Nat.div_one] at h
    rw [excess_of_lt h]
  | succ n ih =>
    rw [excess]
    split
    · omega
    · rw [tenPow_succ, Nat.mul_comm, ← Nat.div_div_eq_div_mul] at h
      have := ih h
      omega

theorem excess_mono (h : m ≤ n) : excess m ≤ excess n :=
  excess_le (lt_of_le_of_lt (Nat.div_le_div_right h) (div_tenPow_excess_lt n))

theorem le_div_of_lt_excess (h : k < excess m) : mantissaBound ≤ m / tenPow k := by
  by_contra hlt
  have := excess_le (Nat.lt_of_not_le hlt)
  omega

theorem div_tenPow_lt (h : excess m ≤ k) : m / tenPow k < mantissaBound :=
  lt_of_le_of_lt (Nat.div_le_div_left (tenPow_le_tenPow h) (tenPow_pos _)) (div_tenPow_excess_lt m)

/-- A number that is too large is so by as many digits more as zeros are written after it. -/
theorem excess_mul_tenPow (h : mantissaBound ≤ m) (k : Nat) :
    excess (m * tenPow k) = excess m + k := by
  induction k with
  | zero => simp
  | succ k ih =>
    have hle := Nat.le_mul_of_pos_right m (tenPow_pos (k + 1))
    rw [excess, if_neg (by omega), tenPow_succ, ← Nat.mul_assoc, Nat.mul_div_cancel _ (by decide), ih]
    rfl

/-! ## Rounding a magnitude -/

/-- A number of units in units of `10 ^ -56`. -/
theorem mul_tenPow_56 (n : Nat) : n * tenPow 56 = n * tenPow 28 * tenPow 28 := by
  rw [show 56 = 28 + 28 from rfl, tenPow_add, Nat.mul_assoc]

/-- What a magnitude in units of `10 ^ -56` is rounded to when it is fitted into a decimal: the last 28
digits are dropped, or more if the rest would be too large. -/
def fitted (x : Nat) : Nat :=
  let k := max 28 (excess x)
  let q := halfEven x (tenPow k)
  if q < mantissaBound then q * tenPow k else halfEven q 10 * tenPow (k + 1)

/-- A magnitude that a decimal has is not rounded. -/
theorem fitted_of_eq_mul (hq : q < mantissaBound) (hk : 28 ≤ k) (hx : x = q * tenPow k) :
    fitted x = x := by
  have hexcess : excess x ≤ k :=
    excess_le (by rwa [hx, Nat.mul_div_cancel _ (tenPow_pos k)])
  unfold fitted
  dsimp only
  have hlt := div_tenPow_lt (m := x) (Nat.le_max_right 28 (excess x))
  generalize hj : max 28 (excess x) = j at hlt
  have hjk : j ≤ k := by omega
  have hsplit : x = q * tenPow (k - j) * tenPow j := by
    rw [Nat.mul_assoc, tenPow_sub_mul hjk, hx]
  have hround : halfEven x (tenPow j) = x / tenPow j := by
    rw [hsplit, halfEven_mul_self _ (tenPow_pos j), Nat.mul_div_cancel _ (tenPow_pos j)]
  rw [hround, if_pos hlt, hsplit, Nat.mul_div_cancel _ (tenPow_pos j)]

@[simp] theorem fitted_zero : fitted 0 = 0 :=
  fitted_of_eq_mul (q := 0) (k := 28) (by decide) (Nat.le_refl 28) (Nat.zero_mul _).symm

/-- The digits that are dropped are those that are dropped at the scale at which the number is written. -/
theorem fitted_mul_tenPow (hs : scale ≤ 56) (m : Nat) :
    fitted (m * tenPow (56 - scale)) =
      let k := max (scale - 28) (excess m)
      let q := halfEven m (tenPow k)
      if q < mantissaBound then q * tenPow (k + (56 - scale))
      else halfEven q 10 * tenPow (k + 1 + (56 - scale)) := by
  dsimp only
  by_cases hexact : m < mantissaBound ∧ scale ≤ 28
  · have hk : max (scale - 28) (excess m) = 0 := by rw [excess_of_lt hexact.1]; omega
    rw [fitted_of_eq_mul hexact.1 (by omega) rfl, hk, tenPow_zero, halfEven_one, if_pos hexact.1,
      Nat.zero_add]
  · have hk : max 28 (excess (m * tenPow (56 - scale))) =
        max (scale - 28) (excess m) + (56 - scale) := by
      by_cases hm : m < mantissaBound
      · have hle : excess (m * tenPow (56 - scale)) ≤ 56 - scale :=
          excess_le (by rwa [Nat.mul_div_cancel _ (tenPow_pos _)])
        rw [excess_of_lt hm]
        omega
      · rw [excess_mul_tenPow (Nat.le_of_not_lt hm)]
        omega
    unfold fitted
    dsimp only
    rw [hk, tenPow_add, halfEven_mul_right _ _ (tenPow_pos _), Nat.add_right_comm, tenPow_add]

/-- Where rounding reaches the bound of mantissas one digit more is dropped, and the last one that is
left is rounded up. -/
theorem halfEven_mantissaBound : mantissaBound ≤ halfEven mantissaBound 10 * 10 := by decide

theorem halfEven_tenPow_le_bound (h : excess m ≤ k) : halfEven m (tenPow k) ≤ mantissaBound := by
  have := div_tenPow_lt h
  have := halfEven_le m (tenPow k)
  omega

/-- However it is rounded, a magnitude does not reach beyond the bound with one digit dropped. -/
theorem fitted_le (hk : 28 ≤ k) (h : excess x ≤ k) :
    fitted x ≤ halfEven mantissaBound 10 * tenPow (k + 1) := by
  have hbound := halfEven_mantissaBound
  unfold fitted
  dsimp only
  have hq := halfEven_tenPow_le_bound (m := x) (Nat.le_max_right 28 (excess x))
  have hj : max 28 (excess x) ≤ k := by omega
  generalize max 28 (excess x) = j at hj hq
  generalize halfEven x (tenPow j) = q at hq
  split
  · calc q * tenPow j ≤ mantissaBound * tenPow k := Nat.mul_le_mul hq (tenPow_le_tenPow hj)
      _ ≤ halfEven mantissaBound 10 * 10 * tenPow k := Nat.mul_le_mul_right _ hbound
      _ = halfEven mantissaBound 10 * tenPow (k + 1) := by
        rw [tenPow_succ, Nat.mul_assoc, Nat.mul_comm 10]
  · exact Nat.mul_le_mul (halfEven_mono hq) (tenPow_le_tenPow (by omega))

/-- Of a magnitude from which `k + 1` digits are dropped there is at least that left. -/
theorem le_fitted (hk : 28 ≤ k) (h : k < excess x) :
    halfEven mantissaBound 10 * tenPow (k + 1) ≤ fitted x := by
  have hbound := halfEven_mantissaBound
  unfold fitted
  dsimp only
  have hj : k + 1 ≤ max 28 (excess x) := by omega
  have hdigits : max 28 (excess x) - 1 < excess x := by omega
  generalize max 28 (excess x) = j at hj hdigits
  obtain ⟨j, rfl⟩ : ∃ i, j = i + 1 := ⟨j - 1, by omega⟩
  have hx : mantissaBound * tenPow j ≤ x :=
    (Nat.le_div_iff_mul_le (tenPow_pos j)).1 (le_div_of_lt_excess hdigits)
  have hq : halfEven mantissaBound 10 ≤ halfEven x (tenPow (j + 1)) := by
    have h := halfEven_mono (d := tenPow (j + 1)) hx
    rwa [tenPow_succ, Nat.mul_comm (tenPow j), halfEven_mul_right _ _ (tenPow_pos j),
      Nat.mul_comm 10, ← tenPow_succ] at h
  have hpow : tenPow (k + 1) ≤ tenPow (j + 1) := tenPow_le_tenPow hj
  split
  · exact Nat.mul_le_mul hq hpow
  · rename_i hfull
    exact Nat.mul_le_mul (halfEven_mono (Nat.le_of_not_lt hfull))
      (tenPow_le_tenPow (by omega))

/-- Rounding keeps the order, whether the same number of digits is dropped or not. -/
theorem fitted_mono (h : x ≤ y) : fitted x ≤ fitted y := by
  have hexcess := excess_mono h
  rcases Nat.lt_or_ge (max 28 (excess x)) (excess y) with hlt | hge
  · exact (fitted_le (Nat.le_max_left _ _) (Nat.le_max_right _ _)).trans
      (le_fitted (Nat.le_max_left _ _) hlt)
  · have hk : max 28 (excess y) = max 28 (excess x) := by omega
    have hq := halfEven_mono (d := tenPow (max 28 (excess x))) h
    have hqy := halfEven_tenPow_le_bound (m := y) (show excess y ≤ max 28 (excess x) by omega)
    have hbound := halfEven_mantissaBound
    unfold fitted
    dsimp only
    rw [hk]
    generalize max 28 (excess x) = k at hq hqy
    split <;> split
    · exact Nat.mul_le_mul_right _ hq
    · rename_i hx hy
      have hfull : halfEven y (tenPow k) = mantissaBound := by omega
      rw [hfull, tenPow_succ, Nat.mul_comm (tenPow k), ← Nat.mul_assoc]
      exact Nat.mul_le_mul_right _ (hq.trans (hqy.trans hbound))
    · omega
    · exact Nat.mul_le_mul_right _ (halfEven_mono hq)

/-! ## Fitted results -/

theorem negative_of_ofParts? (h : ofParts? negative m scale = some d) : d.negative = negative := by
  unfold ofParts? at h
  split at h
  · cases h
    rfl
  · cases h

theorem negative_of_fit (h : fit negative m scale = some d) : d.negative = negative := by
  unfold fit at h
  dsimp only at h
  split at h
  · cases h
  · split at h
    · exact negative_of_ofParts? h
    · split at h
      · cases h
      · exact negative_of_ofParts? h

theorem mantissa_of_ofParts? (h : ofParts? negative m n = some d) : d.mantissa = m := by
  unfold ofParts? at h
  split at h
  · cases h
    rfl
  · cases h

/-- What is fitted has the rounded magnitude. -/
theorem natAbs_units_of_fit (hs : scale ≤ 56) (h : fit negative m scale = some d) :
    d.units.natAbs * tenPow 28 = fitted (m * tenPow (56 - scale)) := by
  have hparts : ∀ {q j : Nat}, j ≤ scale → scale - j ≤ 28 →
      ofParts? negative q (scale - j) = some d →
        d.units.natAbs * tenPow 28 = q * tenPow (j + (56 - scale)) := by
    intro q j hj hplaces h
    rw [natAbs_units, mantissa_of_ofParts? h, scale_of_ofParts? h, Nat.mul_assoc, ← tenPow_add,
      show 28 - (scale - j) + 28 = j + (56 - scale) by omega]
  rw [fitted_mul_tenPow hs]
  unfold fit at h
  dsimp only at h ⊢
  have hk : scale - 28 ≤ max (scale - 28) (excess m) := Nat.le_max_left _ _
  generalize max (scale - 28) (excess m) = k at h hk ⊢
  split at h
  · cases h
  · split at h
    · rename_i hlt
      rw [if_pos hlt]
      exact hparts (by omega) (by omega) h
    · split at h
      · cases h
      · rename_i hfull hne
        rw [if_neg hfull]
        rw [Nat.sub_sub] at h
        exact hparts (by omega) (by omega) h

/-- The value of a decimal is in range. -/
theorem natAbs_units_lt (d : Decimal) : (d.units * tenPow 28).natAbs < mantissaBound * tenPow 56 := by
  have hpow : tenPow (28 - d.scale) * tenPow 28 ≤ tenPow 56 := by
    rw [← tenPow_add]
    exact tenPow_le_tenPow (by omega)
  rw [Int.natAbs_mul, natAbs_units, Int.natAbs_natCast, Nat.mul_assoc]
  exact Nat.lt_of_le_of_lt (Nat.mul_le_mul_left _ hpow)
    (Nat.mul_lt_mul_of_pos_right d.mantissa_lt (tenPow_pos 56))

/-- A magnitude can be fitted if what it is rounded to is in range. -/
theorem exists_fit_iff (negative : Bool) (hs : scale ≤ 56) (m : Nat) :
    (∃ d, fit negative m scale = some d) ↔
      fitted (m * tenPow (56 - scale)) < mantissaBound * tenPow 56 := by
  have hlarge : mantissaBound * tenPow 56 ≤ halfEven mantissaBound 10 * tenPow (56 + 1) := by decide
  constructor
  · rintro ⟨d, hd⟩
    have hlt := natAbs_units_lt d
    rwa [Int.natAbs_mul, Int.natAbs_natCast, natAbs_units_of_fit hs hd] at hlt
  · intro h
    have hdigits : excess m ≤ scale := by
      by_contra hmore
      have hm : mantissaBound ≤ m := by
        have := le_div_of_lt_excess (m := m) (k := 0) (by omega)
        rwa [tenPow_zero, Nat.div_one] at this
      have := le_fitted (k := 56) (x := m * tenPow (56 - scale)) (by decide)
        (by rw [excess_mul_tenPow hm]; omega)
      omega
    rw [fitted_mul_tenPow hs] at h
    unfold fit
    dsimp only at h ⊢
    have hq := halfEven_tenPow_le_bound (Nat.le_max_right (scale - 28) (excess m))
    have hk : max (scale - 28) (excess m) ≤ scale := by omega
    have hplaces : scale - 28 ≤ max (scale - 28) (excess m) := Nat.le_max_left _ _
    generalize max (scale - 28) (excess m) = k at h hq hk hplaces
    generalize halfEven m (tenPow k) = q at h hq
    rw [if_neg (by omega)]
    by_cases hlt : q < mantissaBound
    · rw [if_pos hlt, ofParts?, dif_pos ⟨hlt, by omega⟩]
      exact ⟨_, rfl⟩
    · obtain rfl : q = mantissaBound := by omega
      have hne : scale ≠ k := by
        rintro rfl
        rw [if_neg hlt, show scale + 1 + (56 - scale) = 56 + 1 by omega] at h
        omega
      rw [if_neg hlt, if_neg hne, ofParts?, dif_pos ⟨by decide, by omega⟩]
      exact ⟨_, rfl⟩

/-! ## The end of the range -/

/-- The largest magnitude that is rounded to the decimal before the last one: a half from there, which
goes to the even neighbour. -/
theorem fitted_le_of_le (h : 2 * x ≤ (2 * mantissaBound - 3) * tenPow 56) :
    fitted x ≤ (mantissaBound - 2) * tenPow 56 := by
  have htie : fitted ((2 * mantissaBound - 3) * tenPow 56 / 2) = (mantissaBound - 2) * tenPow 56 := by
    decide +kernel
  rw [← htie]
  exact fitted_mono ((Nat.le_div_iff_mul_le (by decide)).2 (by omega))

/-- Beyond it the last one is reached. -/
theorem le_fitted_of_lt (h : (2 * mantissaBound - 3) * tenPow 56 < 2 * x) :
    (mantissaBound - 1) * tenPow 56 ≤ fitted x := by
  have hnext : fitted ((2 * mantissaBound - 3) * tenPow 56 / 2 + 1) =
      (mantissaBound - 1) * tenPow 56 := by
    decide +kernel
  rw [← hnext]
  exact fitted_mono (Nat.div_lt_of_lt_mul h)

/-- What is out of range is so rounded, too. -/
theorem mantissaBound_le_fitted (h : mantissaBound * tenPow 56 ≤ x) :
    mantissaBound * tenPow 56 ≤ fitted x := by
  have hbound : fitted (mantissaBound * tenPow 56) = halfEven mantissaBound 10 * tenPow 57 := by
    decide +kernel
  refine le_trans ?_ (fitted_mono h)
  rw [hbound]
  decide

/-! ## Rounding a value -/

/-- What a value in units of `10 ^ -56` is rounded to. -/
def rounded (z : Int) : Int :=
  z.sign * (fitted z.natAbs : Nat)

@[simp] theorem rounded_zero : rounded 0 = 0 := by
  rw [rounded, Int.sign_zero, Int.zero_mul]

theorem rounded_mono (h : z ≤ w) : rounded z ≤ rounded w :=
  sign_mul_mono (fun _ _ => fitted_mono) h

theorem natAbs_rounded (z : Int) : (rounded z).natAbs = fitted z.natAbs := by
  rcases eq_or_ne z 0 with rfl | hz
  · simp
  · rw [rounded, Int.natAbs_mul, Int.natAbs_sign_of_ne_zero hz, Nat.one_mul, Int.natAbs_natCast]

theorem rounded_natCast (n : Nat) : rounded n = fitted n := by
  rcases Nat.eq_zero_or_pos n with rfl | hpos
  · simp
  · rw [rounded, Int.sign_eq_one_of_pos (Int.natCast_pos.2 hpos), Int.one_mul, Int.natAbs_natCast]

theorem rounded_neg (z : Int) : rounded (-z) = -rounded z := by
  rw [rounded, rounded, Int.sign_neg, Int.natAbs_neg, Int.neg_mul]

/-- The value of a decimal is not rounded. -/
theorem rounded_units (d : Decimal) : rounded (d.units * tenPow 28) = d.units * tenPow 28 := by
  have hmagnitude : (d.units * tenPow 28).natAbs = d.mantissa * tenPow (28 - d.scale + 28) := by
    rw [Int.natAbs_mul, natAbs_units, Int.natAbs_natCast, Nat.mul_assoc, tenPow_add]
  rw [rounded, fitted_of_eq_mul d.mantissa_lt (Nat.le_add_left _ _) hmagnitude,
    Int.sign_mul_natAbs]

/-! ## Operations -/

/-- A value that is written as a sign and a magnitude is fitted as it is rounded. -/
theorem units_of_fit (hs : scale ≤ 56)
    (hz : z = (if negative then -1 else 1) * (m * tenPow (56 - scale) : Nat))
    (h : fit negative m scale = some d) : d.units * tenPow 28 = rounded z := by
  have hmagnitude := natAbs_units_of_fit hs h
  have hunits := units_eq_sign_mul d
  rw [← natAbs_units, negative_of_fit h] at hunits
  rw [hunits, hz, Int.mul_assoc, ← Int.natCast_mul, hmagnitude]
  cases negative with
  | true => rw [if_pos rfl, Int.neg_one_mul, Int.neg_one_mul, rounded_neg, rounded_natCast]
  | false => rw [if_neg (by decide), Int.one_mul, Int.one_mul, rounded_natCast]

/-- And it can be fitted if the rounded value is in range. -/
theorem exists_fit_iff_rounded (hs : scale ≤ 56)
    (hz : z = (if negative then -1 else 1) * (m * tenPow (56 - scale) : Nat)) :
    (∃ d, fit negative m scale = some d) ↔
      (rounded z).natAbs < mantissaBound * tenPow 56 := by
  rw [exists_fit_iff negative hs m, hz]
  cases negative with
  | true => rw [if_pos rfl, Int.neg_one_mul, rounded_neg, Int.natAbs_neg, rounded_natCast,
      Int.natAbs_natCast]
  | false => rw [if_neg (by decide), Int.one_mul, rounded_natCast, Int.natAbs_natCast]

/-- The exact product as a sign and a magnitude. -/
theorem mul_units_eq (a b : Decimal) : a.units * b.units =
    (if a.negative != b.negative then -1 else 1) *
      (a.mantissa * b.mantissa * tenPow (56 - (a.scale + b.scale)) : Nat) := by
  have ha := a.scale_le
  have hb := b.scale_le
  have hmagnitude : a.mantissa * b.mantissa * tenPow (56 - (a.scale + b.scale)) =
      a.mantissa * tenPow (28 - a.scale) * (b.mantissa * tenPow (28 - b.scale)) := by
    rw [Nat.mul_mul_mul_comm, ← tenPow_add,
      show 28 - a.scale + (28 - b.scale) = 56 - (a.scale + b.scale) by omega]
  rw [units_eq_sign_mul a, units_eq_sign_mul b, hmagnitude, Int.natCast_mul]
  cases a.negative <;> cases b.negative <;> simp

/-- A product is the rounded exact product. -/
theorem units_of_mul (h : a.mul b = .ok c) : c.units * tenPow 28 = rounded (a.units * b.units) := by
  have ha := a.scale_le
  have hb := b.scale_le
  unfold mul mul? at h
  split at h
  · rename_i hzero
    cases h
    rcases Bool.or_eq_true_iff.1 hzero with hzero | hzero <;>
      simp [units_of_isZero hzero, units_zero]
  · cases hd : fit (a.negative != b.negative) (a.mantissa * b.mantissa) (a.scale + b.scale) with
    | none =>
      rw [hd] at h
      cases h
    | some d =>
      rw [hd] at h
      cases h
      rw [units_clearZeroSign]
      exact units_of_fit (by omega) (mul_units_eq a b) hd

theorem exists_mul_iff : (∃ c, a.mul b = .ok c) ↔
    (rounded (a.units * b.units)).natAbs < mantissaBound * tenPow 56 := by
  have ha := a.scale_le
  have hb := b.scale_le
  unfold mul mul?
  split
  · rename_i hzero
    have hproduct : a.units * b.units = 0 := by
      rcases Bool.or_eq_true_iff.1 hzero with hzero | hzero <;> simp [units_of_isZero hzero]
    rw [hproduct, rounded_zero]
    exact ⟨fun _ => by decide, fun _ => ⟨0, rfl⟩⟩
  · rw [← exists_fit_iff_rounded (by omega) (mul_units_eq a b)]
    cases fit (a.negative != b.negative) (a.mantissa * b.mantissa) (a.scale + b.scale) with
    | none => simp
    | some d => simp

/-- The exact sum as a sign and a magnitude, at a scale that both terms have. -/
theorem add_units_eq (ha : a.scale ≤ scale) (hb : b.scale ≤ scale) (hs : scale ≤ 28) :
    (a.units + b.units) * tenPow 28 =
      (if decide (a.coefficientAt scale + b.coefficientAt scale < 0) then -1 else 1) *
        ((a.coefficientAt scale + b.coefficientAt scale).natAbs * tenPow (56 - scale) : Nat) := by
  rw [units_eq_mul ha hs, units_eq_mul hb hs, ← Int.add_mul, Int.mul_assoc, ← Int.natCast_mul,
    ← tenPow_add, show 28 - scale + 28 = 56 - scale by omega, Int.natCast_mul, ← Int.mul_assoc]
  congr 1
  split
  · rename_i h
    have := of_decide_eq_true h
    omega
  · rename_i h
    have := of_decide_eq_false (Bool.eq_false_of_not_eq_true h)
    omega

theorem units_of_addExact (h : addExact a b = some c) :
    c.units * tenPow 28 = rounded ((a.units + b.units) * tenPow 28) := by
  have hscale : max a.scale b.scale ≤ 28 := Nat.max_le.2 ⟨a.scale_le, b.scale_le⟩
  exact units_of_fit (by omega)
    (add_units_eq (Nat.le_max_left _ _) (Nat.le_max_right _ _) hscale) h

theorem exists_addExact_iff : (∃ c, addExact a b = some c) ↔
    (rounded ((a.units + b.units) * tenPow 28)).natAbs < mantissaBound * tenPow 56 := by
  have hscale : max a.scale b.scale ≤ 28 := Nat.max_le.2 ⟨a.scale_le, b.scale_le⟩
  exact exists_fit_iff_rounded (by omega)
    (add_units_eq (Nat.le_max_left _ _) (Nat.le_max_right _ _) hscale)

/-- Next to a zero a sum is the other term, and exact. -/
theorem add_eq_or (a b : Decimal) : (∃ c, a.add b = .ok c ∧ c.units = a.units + b.units) ∨
    a.add b = .ofOption .addition (addExact a b) := by
  unfold add add?
  split
  · rename_i hzero
    exact .inl ⟨b, rfl, by rw [units_of_isZero hzero, Int.zero_add]⟩
  · split
    · rename_i hzero
      exact .inl ⟨a, rfl, by rw [units_of_isZero hzero, Int.add_zero]⟩
    · exact .inr rfl

theorem sub_eq_or (a b : Decimal) : (∃ c, a.sub b = .ok c ∧ c.units = a.units - b.units) ∨
    a.sub b = .ofOption .subtraction (addExact a (-b)) := by
  unfold sub sub?
  split
  · rename_i hzero
    rw [units_of_isZero hzero, Int.zero_sub]
    split
    · rename_i hzero'
      exact .inl ⟨b, rfl, by rw [units_of_isZero hzero', Int.neg_zero]⟩
    · exact .inl ⟨-b, rfl, units_neg b⟩
  · split
    · rename_i hzero
      exact .inl ⟨a, rfl, by rw [units_of_isZero hzero, Int.sub_zero]⟩
    · exact .inr rfl

/-- A sum is the rounded exact sum. -/
theorem units_of_add (h : a.add b = .ok c) :
    c.units * tenPow 28 = rounded ((a.units + b.units) * tenPow 28) := by
  rcases add_eq_or a b with ⟨d, hd, hunits⟩ | hadd
  · obtain rfl := Except.ok.inj (hd.symm.trans h)
    rw [← hunits, rounded_units]
  · exact units_of_addExact (Checked.ofOption_eq_ok_iff.1 (hadd.symm.trans h))

/-- A difference is the rounded exact difference. -/
theorem units_of_sub (h : a.sub b = .ok c) :
    c.units * tenPow 28 = rounded ((a.units - b.units) * tenPow 28) := by
  rcases sub_eq_or a b with ⟨d, hd, hunits⟩ | hsub
  · obtain rfl := Except.ok.inj (hd.symm.trans h)
    rw [← hunits, rounded_units]
  · have hexact := units_of_addExact (Checked.ofOption_eq_ok_iff.1 (hsub.symm.trans h))
    rwa [units_neg, ← Int.sub_eq_add_neg] at hexact

theorem exists_add_iff : (∃ c, a.add b = .ok c) ↔
    (rounded ((a.units + b.units) * tenPow 28)).natAbs < mantissaBound * tenPow 56 := by
  rcases add_eq_or a b with ⟨d, hd, hunits⟩ | hadd
  · rw [← hunits, rounded_units]
    exact ⟨fun _ => natAbs_units_lt d, fun _ => ⟨d, hd⟩⟩
  · rw [hadd, ← exists_addExact_iff]
    simp only [Checked.ofOption_eq_ok_iff]

theorem exists_sub_iff : (∃ c, a.sub b = .ok c) ↔
    (rounded ((a.units - b.units) * tenPow 28)).natAbs < mantissaBound * tenPow 56 := by
  rcases sub_eq_or a b with ⟨d, hd, hunits⟩ | hsub
  · rw [← hunits, rounded_units]
    exact ⟨fun _ => natAbs_units_lt d, fun _ => ⟨d, hd⟩⟩
  · rw [hsub, Int.sub_eq_add_neg, ← units_neg, ← exists_addExact_iff]
    simp only [Checked.ofOption_eq_ok_iff]

/-! ## Exact products -/

/-- A product that a decimal has the value of is not rounded. -/
theorem exists_mul_of_units (h : a.units * b.units = d.units * tenPow 28) :
    ∃ c, a.mul b = .ok c ∧ c.units = d.units := by
  have hrange : (rounded (a.units * b.units)).natAbs < mantissaBound * tenPow 56 := by
    rw [h, rounded_units]
    exact natAbs_units_lt d
  obtain ⟨c, hc⟩ := exists_mul_iff.2 hrange
  have hunits := units_of_mul hc
  rw [h, rounded_units] at hunits
  have hpow : (tenPow 28 : Int) ≠ 0 := by exact_mod_cast (tenPow_pos 28).ne'
  exact ⟨c, hc, Int.eq_of_mul_eq_mul_right hpow hunits⟩

theorem exists_mul_one (a : Decimal) : ∃ c, a.mul 1 = .ok c ∧ c.units = a.units :=
  exists_mul_of_units (by rw [units_one])

/-! ## Order -/

theorem le_of_rounded_le (hz : a.units * tenPow 28 = rounded z) (hw : b.units * tenPow 28 = rounded w)
    (h : z ≤ w) : a ≤ b := by
  have hle := rounded_mono h
  rw [← hz, ← hw] at hle
  exact Int.le_of_mul_le_mul_right hle (by exact_mod_cast tenPow_pos 28)

/-- Adding the same to two decimals keeps their order, however many digits each sum drops. -/
theorem add_mono {n : Decimal} (h : a ≤ b) (hc : a.add n = .ok c) (hd : b.add n = .ok d) : c ≤ d := by
  have hsums : (a.units + n.units) * tenPow 28 ≤ (b.units + n.units) * tenPow 28 :=
    Int.mul_le_mul_of_nonneg_right (Int.add_le_add_right h _) (Int.natCast_nonneg _)
  exact le_of_rounded_le (units_of_add hc) (units_of_add hd) hsums

theorem nonneg_of_rounded (hz : c.units * tenPow 28 = rounded z) (h : 0 ≤ z) : 0 ≤ c :=
  le_of_rounded_le (z := 0) (by simp [units_zero]) hz h

theorem nonpos_of_rounded (hz : c.units * tenPow 28 = rounded z) (h : z ≤ 0) : c ≤ 0 :=
  le_of_rounded_le (w := 0) hz (by simp [units_zero]) h

end Decimal

end Forecast
