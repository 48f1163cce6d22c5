import Forecast.Decimal.Mean
import Forecast.Proofs.Decimal.Bounded

/-!
# Decimals without a sign

A difference of two decimals that carry no sign lies between them, and so it is never too large
(`exists_sub`). A sum of such decimals can be too large, but it carries no sign either
(`negative_of_sum`).

The order of the terms does not count for the value of an exact sum. It can count for how the sum is
written, for a zero hands the other term back with the scale it has. Decimals above zero leave nothing
to the order: each sum has the larger scale of its two terms, and so the same decimals have the same
sum and the same mean, digit for digit (`sum_perm`, `mean_perm`).
-/

namespace Forecast.Decimal

variable {a b c d : Decimal} {ds : List Decimal} {negative : Bool} {m n scale : Nat}

/-! ## Sums and differences -/

theorem coefficient_of_not_negative (h : d.negative = false) : d.coefficient = d.mantissa := by
  rw [coefficient, h]
  rfl

/-- At any scale the coefficient is a magnitude. -/
theorem coefficientAt_nonneg (h : d.negative = false) (scale : Nat) : 0 ≤ d.coefficientAt scale := by
  rw [coefficientAt, coefficient_of_not_negative h, ← Int.natCast_mul]
  exact Int.natCast_nonneg _

theorem nonneg_of_not_negative (h : d.negative = false) : 0 ≤ d := by
  rw [le_iff_units_le, units_zero]
  exact coefficientAt_nonneg h 28

theorem negative_of_add (ha : a.negative = false) (hb : b.negative = false) (h : a.add b = .ok c) :
    c.negative = false := by
  unfold add add? at h
  split at h
  · cases h
    exact hb
  · split at h
    · cases h
      exact ha
    · cases hc : addExact a b with
      | none =>
        rw [hc] at h
        cases h
      | some c' =>
        rw [hc] at h
        cases h
        have hsum := negative_of_fit hc
        have hapos := coefficientAt_nonneg ha (max a.scale b.scale)
        have hbpos := coefficientAt_nonneg hb (max a.scale b.scale)
        rw [hsum, decide_eq_false_iff_not]
        omega

theorem negative_of_foldlM_add (ha : a.negative = false) (hds : ∀ d ∈ ds, d.negative = false)
    (h : ds.foldlM add a = .ok c) : c.negative = false := by
  induction ds generalizing a with
  | nil =>
    cases h
    exact ha
  | cons d ds ih =>
    rw [List.foldlM_cons] at h
    obtain ⟨p, hp, h⟩ := bind_eq_ok_iff.1 h
    have hd := List.forall_mem_cons.1 hds
    exact ih (negative_of_add ha hd.1 hp) hd.2 h

theorem negative_of_sum (hds : ∀ d ∈ ds, d.negative = false) (h : sum ds = .ok c) :
    c.negative = false :=
  negative_of_foldlM_add rfl hds h

/-- The sum of the first part of a list can be had where that of the whole list can. -/
theorem exists_sum_of_append {ds' : List Decimal} (h : sum (ds ++ ds') = .ok c) :
    ∃ d, sum ds = .ok d := by
  unfold sum at h
  rw [List.foldlM_append] at h
  obtain ⟨d, hd, -⟩ := bind_eq_ok_iff.1 h
  exact ⟨d, hd⟩

/-- A difference lies between its terms, and is never too large. -/
theorem exists_sub (ha : a.negative = false) (hb : b.negative = false) : ∃ c, a.sub b = .ok c := by
  have hpow : (0 : Int) < tenPow 28 := by exact_mod_cast tenPow_pos 28
  have hapos := nonneg_of_not_negative ha
  have hbpos := nonneg_of_not_negative hb
  rw [le_iff_units_le, units_zero] at hapos hbpos
  have hlow : rounded ((-b).units * tenPow 28) ≤ rounded ((a.units - b.units) * tenPow 28) := by
    rw [units_neg]
    exact rounded_mono (Int.mul_le_mul_of_nonneg_right (by omega) hpow.le)
  have hhigh : rounded ((a.units - b.units) * tenPow 28) ≤ rounded (a.units * tenPow 28) :=
    rounded_mono (Int.mul_le_mul_of_nonneg_right (by omega) hpow.le)
  rw [rounded_units] at hlow hhigh
  have hlt := natAbs_units_lt a
  have hlt' := natAbs_units_lt (-b)
  exact exists_sub_iff.2 (by omega)

/-! ## The order of the terms -/

theorem pos_iff : 0 < d ↔ d.negative = false ∧ d.isZero = false := by
  have hneg : 0 < d ↔ -d < 0 := by
    rw [lt_iff_units_lt, lt_iff_units_lt, units_neg, units_zero]
    omega
  rw [hneg, lt_zero_iff]
  show (!d.negative) = true ∧ d.isZero = false ↔ _
  rw [Bool.not_eq_true']

/-- Without a sign a decimal is told by its value and its scale. -/
theorem eq_of_units_eq (ha : a.negative = false) (hb : b.negative = false)
    (hscale : a.scale = b.scale) (hunits : a.units = b.units) : a = b := by
  have hmantissa : a.mantissa = b.mantissa := by
    rw [units, units, coefficient_of_not_negative ha, coefficient_of_not_negative hb, hscale] at hunits
    have hpow := tenPow_pos (28 - b.scale)
    exact Int.ofNat.inj (Int.eq_of_mul_eq_mul_right (by omega) hunits)
  cases a
  cases b
  cases ha
  cases hb
  cases hscale
  cases hmantissa
  rfl

/-- Above zero a sum has the larger scale of its two terms. -/
theorem add_pos {s : Nat} (hs : s ≤ 28) (ha : Within s m a) (hb : Within s n b) (hapos : 0 < a)
    (hbpos : 0 < b) (h : m + n < mantissaBound) :
    ∃ c, a.add b = .ok c ∧ Within s (m + n) c ∧ c.units = a.units + b.units ∧
      c.scale = max a.scale b.scale ∧ 0 < c := by
  obtain ⟨c, hc, hwithin, hunits, hscale⟩ := addExact_within hs ha hb h
  refine ⟨c, ?_, hwithin, hunits, hscale, ?_⟩
  · rw [add, add?, (pos_iff.1 hapos).2, (pos_iff.1 hbpos).2, hc]
    rfl
  · rw [lt_iff_units_lt, units_zero] at hapos hbpos ⊢
    omega

theorem foldlM_add_pos {s : Nat} (hs : s ≤ 28) (ha : Within s m a) (hapos : 0 < a)
    (hpos : ∀ d ∈ ds, 0 < d) (hscale : ∀ d ∈ ds, d.scale ≤ s)
    (h : m + (ds.map (magnitudeAt s)).sum < mantissaBound) :
    ∃ c, ds.foldlM add a = .ok c ∧ c.units = a.units + (ds.map units).sum ∧
      c.scale = (ds.map Decimal.scale).foldl max a.scale ∧ 0 < c := by
  induction ds generalizing a m with
  | nil => exact ⟨a, rfl, by simp, rfl, hapos⟩
  | cons d ds ih =>
    rw [List.map_cons, List.sum_cons] at h
    obtain ⟨hd, hpos⟩ := List.forall_mem_cons.1 hpos
    obtain ⟨hds, hscale⟩ := List.forall_mem_cons.1 hscale
    obtain ⟨p, hp, hpw, hpu, hps, hppos⟩ := add_pos hs ha (within_self hds) hapos hd (by omega)
    obtain ⟨c, hc, hcu, hcs, hcpos⟩ := ih hpw hppos hpos hscale (by omega)
    refine ⟨c, ?_, ?_, ?_, hcpos⟩
    · rw [List.foldlM_cons, hp]
      exact hc
    · rw [hcu, hpu, List.map_cons, List.sum_cons, Int.add_assoc]
    · rw [hcs, hps, List.map_cons, List.foldl_cons]

/-- The sum of decimals above zero: the sum of the values at the largest scale. -/
theorem sum_pos {s : Nat} (hs : s ≤ 28) (hpos : ∀ d ∈ ds, 0 < d) (hscale : ∀ d ∈ ds, d.scale ≤ s)
    (h : (ds.map (magnitudeAt s)).sum < mantissaBound) :
    ∃ c, sum ds = .ok c ∧ c.units = (ds.map units).sum ∧
      c.scale = (ds.map Decimal.scale).foldl max 0 ∧ c.negative = false := by
  cases ds with
  | nil => exact ⟨0, rfl, rfl, rfl, rfl⟩
  | cons d ds =>
    rw [List.map_cons, List.sum_cons] at h
    obtain ⟨hd, hpos⟩ := List.forall_mem_cons.1 hpos
    obtain ⟨hds, hscale⟩ := List.forall_mem_cons.1 hscale
    obtain ⟨c, hc, hcu, hcs, hcpos⟩ := foldlM_add_pos hs (within_self hds) hd hpos hscale h
    refine ⟨c, hc, ?_, ?_, (pos_iff.1 hcpos).1⟩
    · rw [hcu, List.map_cons, List.sum_cons]
    · rw [hcs, List.map_cons, List.foldl_cons, Nat.zero_max]

theorem sum_perm {s : Nat} {ds' : List Decimal} (hs : s ≤ 28) (hpos : ∀ d ∈ ds, 0 < d)
    (hscale : ∀ d ∈ ds, d.scale ≤ s) (h : (ds.map (magnitudeAt s)).sum < mantissaBound)
    (hperm : ds.Perm ds') : sum ds = sum ds' := by
  obtain ⟨c, hc, hcu, hcs, hcn⟩ := sum_pos hs hpos hscale h
  obtain ⟨c', hc', hcu', hcs', hcn'⟩ := sum_pos hs (fun d hd => hpos d (hperm.mem_iff.2 hd))
    (fun d hd => hscale d (hperm.mem_iff.2 hd)) (by rwa [← (hperm.map _).sum_eq])
  have hunits := (hperm.map units).sum_eq
  have hscales : (ds.map Decimal.scale).foldl max 0 = (ds'.map Decimal.scale).foldl max 0 :=
    (hperm.map Decimal.scale).foldl_eq 0
  rw [hc, hc', eq_of_units_eq hcn hcn' (by omega) (by omega)]

theorem mean_perm {s : Nat} {ds' : List Decimal} (hs : s ≤ 28) (hpos : ∀ d ∈ ds, 0 < d)
    (hscale : ∀ d ∈ ds, d.scale ≤ s) (h : (ds.map (magnitudeAt s)).sum < mantissaBound)
    (hperm : ds.Perm ds') : mean ds = mean ds' := by
  rw [mean, mean, sum_perm hs hpos hscale h hperm, hperm.length_eq]

end Forecast.Decimal
