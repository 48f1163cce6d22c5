import Forecast.Decimal.Arithmetic
import Mathlib

/-!
# Exact sums

Additions round only when a result has more digits than a decimal can hold. Where a scale bounds the
places of all decimals that are added, and their absolute values at that scale stay together below
the bound of mantissas, no partial sum reaches it: no addition faults and none rounds, in any order.

* `Within s n d`: `d` has at most `s` places and an absolute value of at most `n` units of `10 ^ -s`.
  This is what one addition hands on to the next.
* `SumExact ds`: the decimals of `ds` can be added exactly.
* `add_within`, `sub_within`, `sum_within`: the results are within the sum of the bounds, and their
  values are the sums of the values.
* `sub_exact`: a difference is exact where it can be held itself.
-/

namespace Forecast.Decimal

/-- The absolute value in units of `10 ^ -s`, for a scale of at least the decimal's own. -/
def magnitudeAt (s : Nat) (d : Decimal) : Nat :=
  d.mantissa * tenPow (s - d.scale)

/-- Some scale bounds the places of all decimals, and the sum of their absolute values at that scale
is below the bound of mantissas. -/
def SumExact (ds : List Decimal) : Prop :=
  ∃ s ≤ 28, (∀ d ∈ ds, d.scale ≤ s) ∧ (ds.map (magnitudeAt s)).sum < mantissaBound

/-- The decimal has at most `s` places, and at that scale an absolute value of at most `n`. -/
structure Within (s n : Nat) (d : Decimal) : Prop where
  scale_le : d.scale ≤ s
  magnitude_le : d.magnitudeAt s ≤ n

variable {s m n : Nat} {a b d : Decimal}

/-! ## Values at a scale -/

@[simp] theorem natAbs_coefficient (d : Decimal) : d.coefficient.natAbs = d.mantissa := by
  unfold coefficient
  split <;> omega

theorem natAbs_coefficientAt (s : Nat) (d : Decimal) :
    (d.coefficientAt s).natAbs = d.magnitudeAt s := by
  simp [coefficientAt, magnitudeAt, Int.natAbs_mul]

/-- Moving on to a finer scale multiplies by the power of ten between the two. -/
theorem coefficientAt_mul {t : Nat} (hd : d.scale ≤ t) (ht : t ≤ s) :
    d.coefficientAt t * tenPow (s - t) = d.coefficientAt s := by
  unfold coefficientAt
  rw [Int.mul_assoc, ← Int.natCast_mul, ← tenPow_add, show t - d.scale + (s - t) = s - d.scale by omega]

theorem units_eq_coefficientAt (d : Decimal) : d.units = d.coefficientAt 28 := rfl

/-- The value is fixed by the coefficient at any scale. -/
theorem units_eq_mul (hd : d.scale ≤ s) (hs : s ≤ 28) :
    d.units = d.coefficientAt s * tenPow (28 - s) := by
  rw [units_eq_coefficientAt, coefficientAt_mul hd hs]

theorem natAbs_units_eq_mul (hd : d.scale ≤ s) (hs : s ≤ 28) :
    d.units.natAbs = d.magnitudeAt s * tenPow (28 - s) := by
  rw [units_eq_mul hd hs, Int.natAbs_mul, natAbs_coefficientAt, Int.natAbs_natCast]

theorem units_of_isZero (h : d.isZero = true) : d.units = 0 :=
  isZero_iff_units.1 h

/-! ## One decimal within a bound -/

theorem Within.mono (h : Within s m d) (hmn : m ≤ n) : Within s n d :=
  ⟨h.scale_le, Nat.le_trans h.magnitude_le hmn⟩

theorem within_self (hd : d.scale ≤ s) : Within s (d.magnitudeAt s) d :=
  ⟨hd, Nat.le_refl _⟩

theorem within_zero : Within s 0 0 :=
  ⟨Nat.zero_le s, by simp [magnitudeAt, show (0 : Decimal).mantissa = 0 from rfl]⟩

@[simp] theorem magnitudeAt_neg (s : Nat) (d : Decimal) : (-d).magnitudeAt s = d.magnitudeAt s := rfl

@[simp] theorem magnitudeAt_abs (s : Nat) (d : Decimal) : d.abs.magnitudeAt s = d.magnitudeAt s := rfl

@[simp] theorem scale_neg (d : Decimal) : (-d).scale = d.scale := rfl

@[simp] theorem scale_abs (d : Decimal) : d.abs.scale = d.scale := rfl

theorem Within.neg (h : Within s n d) : Within s n (-d) := ⟨h.scale_le, h.magnitude_le⟩

theorem Within.abs (h : Within s n d) : Within s n d.abs := ⟨h.scale_le, h.magnitude_le⟩

/-! ## Places -/

theorem scale_of_ofParts? {negative : Bool} (h : ofParts? negative m n = some d) : d.scale = n := by
  unfold ofParts? at h
  split at h
  · cases h
    rfl
  · cases h

/-- What is fitted has no more places than there were. -/
theorem scale_le_of_fit {negative : Bool} (h : fit negative m n = some d) : d.scale ≤ n := by
  unfold fit at h
  dsimp only at h
  split at h
  · cases h
  · split at h
    · rw [scale_of_ofParts? h]
      omega
    · split at h
      · cases h
      · rw [scale_of_ofParts? h]
        omega

/-- A sum has no more places than its terms, even where it is rounded. -/
theorem scale_le_of_add {c : Decimal} (ha : a.scale ≤ s) (hb : b.scale ≤ s) (h : a.add b = .ok c) :
    c.scale ≤ s := by
  unfold add add? at h
  split at h
  · cases h
    exact hb
  · split at h
    · cases h
      exact ha
    · cases hc : addExact a b with
      | none =>
        rw [hc] at h
        cases h
      | some c' =>
        rw [hc] at h
        cases h
        exact Nat.le_trans (scale_le_of_fit hc) (Nat.max_le.2 ⟨ha, hb⟩)

/-! ## Additions -/

/-- A sum that can be held at a common scale is exact already at the scale where the two decimals
meet. -/
theorem addExact_of_lt (hs : s ≤ 28) (ha : a.scale ≤ s) (hb : b.scale ≤ s)
    (h : (a.coefficientAt s + b.coefficientAt s).natAbs < mantissaBound) :
    ∃ c, addExact a b = some c ∧
      c.magnitudeAt s = (a.coefficientAt s + b.coefficientAt s).natAbs ∧
      c.units = a.units + b.units ∧ c.scale = max a.scale b.scale := by
  have hat : max a.scale b.scale ≤ s := Nat.max_le.2 ⟨ha, hb⟩
  generalize ht : max a.scale b.scale = t at hat
  have hsa : a.scale ≤ t := by omega
  have hsb : b.scale ≤ t := by omega
  generalize hx : a.coefficientAt t + b.coefficientAt t = x
  -- the sum at the scale `s`, where its size is known
  have hxs : x * tenPow (s - t) = a.coefficientAt s + b.coefficientAt s := by
    rw [← hx, Int.add_mul, coefficientAt_mul hsa hat, coefficientAt_mul hsb hat]
  have hsize : x.natAbs * tenPow (s - t) = (a.coefficientAt s + b.coefficientAt s).natAbs := by
    rw [← hxs, Int.natAbs_mul, Int.natAbs_natCast]
  have hlt : x.natAbs < mantissaBound := by
    have := Nat.le_mul_of_pos_right x.natAbs (tenPow_pos (s - t))
    omega
  have ht28 : t ≤ 28 := Nat.le_trans hat hs
  have hc : (⟨decide (x < 0), x.natAbs, t, hlt, ht28⟩ : Decimal).coefficient = x := by
    simp only [coefficient, decide_eq_true_eq]
    split <;> omega
  refine ⟨⟨decide (x < 0), x.natAbs, t, hlt, ht28⟩, ?_, hsize, ?_, rfl⟩
  · simp only [addExact, ht, hx, fit_of_lt _ hlt ht28]
  · have hu : (⟨decide (x < 0), x.natAbs, t, hlt, ht28⟩ : Decimal).units = x * tenPow (28 - t) := by
      unfold units
      rw [hc]
    rw [hu, ← hx, Int.add_mul, ← units_eq_mul hsa ht28, ← units_eq_mul hsb ht28]

/-- A sum that stays below the bound at a common scale is exact. -/
theorem addExact_within (hs : s ≤ 28) (ha : Within s m a) (hb : Within s n b)
    (h : m + n < mantissaBound) :
    ∃ c, addExact a b = some c ∧ Within s (m + n) c ∧ c.units = a.units + b.units ∧
      c.scale = max a.scale b.scale := by
  have hsize : (a.coefficientAt s + b.coefficientAt s).natAbs ≤ m + n := by
    have hsum := Int.natAbs_add_le (a.coefficientAt s) (b.coefficientAt s)
    rw [natAbs_coefficientAt, natAbs_coefficientAt] at hsum
    have ham := ha.magnitude_le
    have hbn := hb.magnitude_le
    omega
  obtain ⟨c, hc, hmagnitude, hunits, hscale⟩ :=
    addExact_of_lt hs ha.scale_le hb.scale_le (Nat.lt_of_le_of_lt hsize h)
  have hcs : c.scale ≤ s := hscale ▸ Nat.max_le.2 ⟨ha.scale_le, hb.scale_le⟩
  exact ⟨c, hc, ⟨hcs, hmagnitude ▸ hsize⟩, hunits, hscale⟩

theorem add_within (hs : s ≤ 28) (ha : Within s m a) (hb : Within s n b)
    (h : m + n < mantissaBound) :
    ∃ c, a.add b = .ok c ∧ Within s (m + n) c ∧ c.units = a.units + b.units := by
  unfold add add?
  -- next to a zero the other decimal is handed back as it is, and keeps its own scale
  by_cases hza : a.isZero = true
  · rw [if_pos hza]
    exact ⟨b, rfl, hb.mono (by omega), by rw [units_of_isZero hza, Int.zero_add]⟩
  · by_cases hzb : b.isZero = true
    · rw [if_neg hza, if_pos hzb]
      exact ⟨a, rfl, ha.mono (by omega), by rw [units_of_isZero hzb, Int.add_zero]⟩
    · rw [if_neg hza, if_neg hzb]
      obtain ⟨c, hc, hw, hu, -⟩ := addExact_within hs ha hb h
      exact ⟨c, by rw [hc]; rfl, hw, hu⟩

theorem sub_within (hs : s ≤ 28) (ha : Within s m a) (hb : Within s n b)
    (h : m + n < mantissaBound) :
    ∃ c, a.sub b = .ok c ∧ Within s (m + n) c ∧ c.units = a.units - b.units := by
  unfold sub sub?
  by_cases hza : a.isZero = true
  · rw [if_pos hza]
    by_cases hzb : b.isZero = true
    · rw [if_pos hzb]
      exact ⟨b, rfl, hb.mono (by omega), by simp [units_of_isZero hza, units_of_isZero hzb]⟩
    · rw [if_neg hzb]
      exact ⟨-b, rfl, hb.neg.mono (by omega), by simp [units_of_isZero hza, units_neg]⟩
  · by_cases hzb : b.isZero = true
    · rw [if_neg hza, if_pos hzb]
      exact ⟨a, rfl, ha.mono (by omega), by rw [units_of_isZero hzb, Int.sub_zero]⟩
    · rw [if_neg hza, if_neg hzb]
      obtain ⟨c, hc, hw, hu, -⟩ := addExact_within hs ha hb.neg h
      exact ⟨c, by rw [hc]; rfl, hw, by rw [hu, units_neg, Int.sub_eq_add_neg]⟩

/-- A difference that can be held at a common scale is exact, however large its terms are. -/
theorem sub_exact (hs : s ≤ 28) (ha : a.scale ≤ s) (hb : b.scale ≤ s)
    (h : (a.units - b.units).natAbs < mantissaBound * tenPow (28 - s)) :
    ∃ c, a.sub b = .ok c ∧ c.units = a.units - b.units := by
  unfold sub sub?
  by_cases hza : a.isZero = true
  · rw [if_pos hza]
    by_cases hzb : b.isZero = true
    · rw [if_pos hzb]
      exact ⟨b, rfl, by simp [units_of_isZero hza, units_of_isZero hzb]⟩
    · rw [if_neg hzb]
      exact ⟨-b, rfl, by simp [units_of_isZero hza, units_neg]⟩
  · by_cases hzb : b.isZero = true
    · rw [if_neg hza, if_pos hzb]
      exact ⟨a, rfl, by rw [units_of_isZero hzb, Int.sub_zero]⟩
    · rw [if_neg hza, if_neg hzb]
      have hneg : (-b).scale ≤ s := hb
      have hdifference : (a.coefficientAt s + (-b).coefficientAt s) * tenPow (28 - s) =
          a.units - b.units := by
        rw [Int.add_mul, ← units_eq_mul ha hs, ← units_eq_mul hneg hs, units_neg, Int.sub_eq_add_neg]
      rw [← hdifference, Int.natAbs_mul, Int.natAbs_natCast] at h
      obtain ⟨c, hc, -, hu, -⟩ := addExact_of_lt hs ha hneg (Nat.lt_of_mul_lt_mul_right h)
      exact ⟨c, by rw [hc]; rfl, by rw [hu, units_neg, Int.sub_eq_add_neg]⟩

/-! ## Sums of lists -/

/-- From any partial sum on, the rest of the list is added exactly. -/
theorem foldlM_add_within (hs : s ≤ 28) {ds : List Decimal} (ha : Within s m a)
    (hd : ∀ d ∈ ds, d.scale ≤ s) (h : m + (ds.map (magnitudeAt s)).sum < mantissaBound) :
    ∃ c, ds.foldlM add a = .ok c ∧ Within s (m + (ds.map (magnitudeAt s)).sum) c ∧
      c.units = a.units + (ds.map units).sum := by
  induction ds generalizing a m with
  | nil => exact ⟨a, rfl, ha.mono (by simp), by simp⟩
  | cons d ds ih =>
    rw [List.map_cons, List.sum_cons] at h
    -- the partial sum `p` is within what was added so far, so the rest can follow
    obtain ⟨p, hp, hpw, hpu⟩ :=
      add_within hs ha (within_self (hd d List.mem_cons_self)) (by omega)
    obtain ⟨c, hc, hcw, hcu⟩ :=
      ih hpw (fun d' hd' => hd d' (List.mem_cons_of_mem _ hd')) (by omega)
    refine ⟨c, ?_, hcw.mono ?_, ?_⟩
    · rw [List.foldlM_cons, hp]
      exact hc
    · rw [List.map_cons, List.sum_cons, Nat.add_assoc]
    · rw [hcu, hpu, List.map_cons, List.sum_cons, Int.add_assoc]

/-- Whether decimals can be added exactly does not hang on their order. -/
theorem SumExact.perm {ds ds' : List Decimal} (hperm : ds.Perm ds') (h : SumExact ds) :
    SumExact ds' := by
  obtain ⟨s, hs, hscale, hsize⟩ := h
  refine ⟨s, hs, ?_, ?_⟩
  · intro d hd
    exact hscale d (hperm.mem_iff.2 hd)
  · rwa [← (hperm.map (magnitudeAt s)).sum_eq]

theorem scale_le_of_foldlM_add {c : Decimal} {ds : List Decimal} (ha : a.scale ≤ s)
    (hds : ∀ d ∈ ds, d.scale ≤ s) (h : ds.foldlM add a = .ok c) : c.scale ≤ s := by
  induction ds generalizing a with
  | nil =>
    cases h
    exact ha
  | cons d ds ih =>
    obtain ⟨hd, hds⟩ := List.forall_mem_cons.1 hds
    rw [List.foldlM_cons] at h
    cases hp : a.add d with
    | error f =>
      rw [hp] at h
      cases h
    | ok p =>
      rw [hp] at h
      exact ih (scale_le_of_add ha hd hp) hds h

theorem scale_le_of_sum {c : Decimal} {ds : List Decimal} (hds : ∀ d ∈ ds, d.scale ≤ s)
    (h : sum ds = .ok c) : c.scale ≤ s :=
  scale_le_of_foldlM_add (Nat.zero_le s) hds h

theorem sum_within (hs : s ≤ 28) {ds : List Decimal} (hd : ∀ d ∈ ds, d.scale ≤ s)
    (h : (ds.map (magnitudeAt s)).sum < mantissaBound) :
    ∃ c, sum ds = .ok c ∧ Within s (ds.map (magnitudeAt s)).sum c ∧
      c.units = (ds.map units).sum := by
  obtain ⟨c, hc, hw, hu⟩ := foldlM_add_within hs within_zero hd (by simpa using h)
  exact ⟨c, hc, hw.mono (by simp), by rw [hu, units_zero, Int.zero_add]⟩

end Forecast.Decimal
