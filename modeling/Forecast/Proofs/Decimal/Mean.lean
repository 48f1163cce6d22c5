import Forecast.Proofs.Decimal.Unsigned

/-!
# Means between bounds

A mean lies between the least and the greatest of its terms, although the division behind it is not
exact: `exists_mean`. The quotient and the remainder keep their value together while digits are added
(`Dividing.extended`). A digit is rounded only where no place is left, and the bounds, which have no more
places than that, are not passed there. Bounded quotients never run out of digits before they run out of
places, so the divisions for larger quotients do not come into play.
-/

namespace Forecast.Decimal

variable {a b c : Decimal} {ds : List Decimal} {lo hi n q r scale places bits : Nat} {ms : Nat × Nat}

/-- The value of a mantissa at a scale, in units. -/
def inUnits (ms : Nat × Nat) : Nat :=
  ms.1 * tenPow (28 - ms.2)

/-- A mantissa at a scale that a decimal can have, of a value between two numbers of units. -/
structure Between (lo hi : Nat) (ms : Nat × Nat) : Prop where
  scale_le : ms.2 ≤ 28
  le_inUnits : lo ≤ inUnits ms
  inUnits_le : inUnits ms ≤ hi

theorem Between.mantissa_le (h : Between lo hi ms) : ms.1 ≤ hi :=
  (Nat.le_mul_of_pos_right _ (tenPow_pos _)).trans h.inUnits_le

/-! ## Extending a quotient -/

/-- A division by `n` that has come to the quotient `q` and the remainder `r` at a scale, of a value
between two numbers of units. -/
structure Dividing (lo hi n q r scale : Nat) : Prop where
  rest_lt : r < n
  scale_le : scale ≤ 28
  le_value : lo * n ≤ (q * n + r) * tenPow (28 - scale)
  value_le : (q * n + r) * tenPow (28 - scale) ≤ hi * n

theorem scale_add_roomFor_le (hs : scale ≤ 28) (q : Nat) : scale + roomFor q scale ≤ 28 := by
  unfold roomFor
  cases h : (List.range 10).reverse.find? fun p =>
      decide (scale + p ≤ 28 ∧ q * tenPow p < mantissaBound) with
  | none => exact hs
  | some p =>
    have hp := List.find?_some h
    rw [decide_eq_true_iff] at hp
    exact hp.1

/-- While there is room for one more digit some are added. -/
theorem roomFor_pos (hs : scale < 28) (hq : q * 10 < mantissaBound) : 0 < roomFor q scale := by
  have hsplit : (List.range 10).reverse = [9, 8, 7, 6, 5, 4, 3, 2, 1] ++ [0] := by decide
  unfold roomFor
  rw [hsplit, List.find?_append]
  cases h : [9, 8, 7, 6, 5, 4, 3, 2, 1].find? fun p =>
      decide (scale + p ≤ 28 ∧ q * tenPow p < mantissaBound) with
  | none =>
    have hone := List.find?_eq_none.1 h 1 (by decide)
    rw [tenPow_one, decide_eq_true_iff] at hone
    exact absurd ⟨hs, hq⟩ hone
  | some p =>
    have hmem := List.mem_of_find?_eq_some h
    simp only [List.mem_cons, List.not_mem_nil, or_false] at hmem
    simp only [Option.some_or, Option.getD_some]
    omega

namespace Dividing

theorem inUnits_le (h : Dividing lo hi n q r scale) : inUnits (q, scale) ≤ hi := by
  have hn : 0 < n := Nat.zero_lt_of_lt h.rest_lt
  refine Nat.le_of_mul_le_mul_right (Nat.le_trans ?_ h.value_le) hn
  rw [inUnits, Nat.mul_right_comm]
  exact Nat.mul_le_mul_right _ (Nat.le_add_right _ _)

/-- A division that leaves nothing has come to its end. -/
theorem between (h : Dividing lo hi n q 0 scale) : Between lo hi (q, scale) := by
  have hn : 0 < n := h.rest_lt
  refine ⟨h.scale_le, Nat.le_of_mul_le_mul_right ?_ hn, h.inUnits_le⟩
  have hle := h.le_value
  rwa [Nat.add_zero, Nat.mul_right_comm] at hle

/-- Adding digits to the quotient keeps the value. -/
theorem extended (h : Dividing lo hi n q r scale) {p : Nat} (hp : scale + p ≤ 28) :
    Dividing lo hi n (q * tenPow p + r * tenPow p / n) (r * tenPow p % n) (scale + p) := by
  have hn : 0 < n := Nat.zero_lt_of_lt h.rest_lt
  have hvalue : ((q * tenPow p + r * tenPow p / n) * n + r * tenPow p % n) *
      tenPow (28 - (scale + p)) = (q * n + r) * tenPow (28 - scale) := by
    have hdivmod : r * tenPow p / n * n + r * tenPow p % n = r * tenPow p := by
      rw [Nat.mul_comm, Nat.div_add_mod]
    calc ((q * tenPow p + r * tenPow p / n) * n + r * tenPow p % n) * tenPow (28 - (scale + p))
        = (q * tenPow p * n + r * tenPow p) * tenPow (28 - (scale + p)) := by
          rw [Nat.add_mul _ _ n, Nat.add_assoc, hdivmod]
      _ = (q * n + r) * (tenPow p * tenPow (28 - (scale + p))) := by
          rw [Nat.mul_right_comm, ← Nat.add_mul, Nat.mul_assoc]
      _ = (q * n + r) * tenPow (28 - scale) := by
          rw [← tenPow_add, show p + (28 - (scale + p)) = 28 - scale by omega]
  exact ⟨Nat.mod_lt _ hn, hp, by rw [hvalue]; exact h.le_value, by rw [hvalue]; exact h.value_le⟩

/-- Where no place is left the quotient and the next number are between the bounds. -/
theorem between_roundLast (h : Dividing lo hi n q r 28) (hr : r ≠ 0) (hhi : hi < mantissaBound) :
    Between lo hi (roundLast n q r 28) := by
  have hle := h.le_value
  have hge := h.value_le
  have hlt := h.rest_lt
  rw [Nat.sub_self, tenPow_zero, Nat.mul_one] at hle hge
  have hlo : lo < q + 1 := Nat.lt_of_mul_lt_mul_right (a := n) (by rw [Nat.succ_mul]; omega)
  have hhi' : q < hi := Nat.lt_of_mul_lt_mul_right (a := n) (by omega)
  unfold roundLast
  split
  · rw [if_pos (by omega)]
    refine ⟨Nat.le_refl _, ?_, ?_⟩ <;> simp only [inUnits, Nat.sub_self, tenPow_zero, Nat.mul_one] <;>
      omega
  · refine ⟨Nat.le_refl _, ?_, ?_⟩ <;> simp only [inUnits, Nat.sub_self, tenPow_zero, Nat.mul_one] <;>
      omega

/-- However many digits are added, the end is between the bounds. -/
theorem between_extend (h : Dividing lo hi n q r scale) (hhi : hi < mantissaBound) :
    Between lo hi (extend n q r scale) := by
  induction q, r, scale using extend.induct n with
  | case1 q scale =>
    rw [extend, if_pos rfl]
    exact h.between
  | case2 q r scale hr p hp =>
    rw [extend, if_neg hr, if_pos hp]
    -- there is only no room where no place is left
    have hscale : scale = 28 := by
      by_contra hne
      have hlt : scale < 28 := by have := h.scale_le; omega
      have hten : q * 10 ≤ inUnits (q, scale) :=
        Nat.mul_le_mul_left q (tenPow_le_tenPow (show 1 ≤ 28 - scale by omega))
      have hpos := roomFor_pos hlt (q := q) (by have := h.inUnits_le; omega)
      have hroom := scale_add_roomFor_le h.scale_le q
      omega
    subst hscale
    exact h.between_roundLast hr hhi
  | case3 q r scale hr p hp q' r' hq' ih =>
    have hnext : Dividing lo hi n q' r' (scale + p) := h.extended (by omega)
    rw [extend, if_neg hr, if_neg hp]
    dsimp only
    rw [if_pos hq']
    exact ih hnext
  | case4 q r scale hr p hp q' hq' =>
    -- a quotient between the bounds does not run over
    have hnext := (h.extended (p := p) (by omega)).inUnits_le
    have hle : q' ≤ inUnits (q', scale + p) := Nat.le_mul_of_pos_right _ (tenPow_pos _)
    exact absurd (lt_of_le_of_lt (hle.trans hnext) hhi) hq'

end Dividing

/-! ## Taking zeros off -/

namespace Between

variable {k : Nat}

/-- A mantissa without zeros at its end has the same value at the coarser scale. -/
theorem zerosOff (h : Between lo hi (m, scale)) (hk : k ≤ scale) (hm : m % tenPow k = 0) :
    Between lo hi (m / tenPow k, scale - k) := by
  have hscale : scale ≤ 28 := h.scale_le
  have hvalue : inUnits (m / tenPow k, scale - k) = inUnits (m, scale) := by
    have hpow : tenPow (28 - (scale - k)) = tenPow k * tenPow (28 - scale) := by
      rw [← tenPow_add, show k + (28 - scale) = 28 - (scale - k) by omega]
    rw [inUnits, inUnits, hpow, ← Nat.mul_assoc, Nat.div_mul_cancel (Nat.dvd_of_mod_eq_zero hm)]
  refine ⟨by show scale - k ≤ 28; omega, ?_, ?_⟩
  · rw [hvalue]
    exact h.le_inUnits
  · rw [hvalue]
    exact h.inUnits_le

theorem stripEights (h : Between lo hi (m, scale)) : Between lo hi (stripEights m scale) := by
  induction m, scale using stripEights.induct with
  | case1 m scale hzeros ih =>
    rw [Decimal.stripEights, if_pos hzeros]
    exact ih (h.zerosOff hzeros.2.1 hzeros.2.2)
  | case2 m scale hzeros =>
    rw [Decimal.stripEights, if_neg hzeros]
    exact h

theorem stripOnce (h : Between lo hi ms) (bits digits : Nat) :
    Between lo hi (stripOnce bits digits ms) := by
  unfold Decimal.stripOnce
  split
  · rename_i hzeros
    exact h.zerosOff hzeros.2.1 hzeros.2.2
  · exact h

theorem strip (h : Between lo hi ms) : Between lo hi (strip ms) :=
  ((h.stripEights.stripOnce 4 4).stripOnce 2 2).stripOnce 1 1

/-- The decimal with the mantissa and the scale lies between the bounds. -/
theorem units_ofParts? (h : Between lo hi (m, scale)) (hhi : hi < mantissaBound) :
    (lo : Int) ≤ ((ofParts? false m scale).getD 0).units ∧
      ((ofParts? false m scale).getD 0).units ≤ hi := by
  have hm : m < mantissaBound := lt_of_le_of_lt h.mantissa_le hhi
  have hunits : ((ofParts? false m scale).getD 0).units = (inUnits (m, scale) : Nat) := by
    rw [ofParts?, dif_pos ⟨hm, h.scale_le⟩, Option.getD_some, units_eq_sign_mul]
    simp [inUnits]
  have hle := h.le_inUnits
  have hge := h.inUnits_le
  omega

end Between

/-! ## Dividing -/

/-- What is divided by a count lies between the bounds that it lay between as many times. -/
theorem divideBy_between {total : Decimal} (hn : 0 < n) (hnegative : total.negative = false)
    (hhi : hi < mantissaBound) (hlo : lo * n ≤ inUnits (total.mantissa, total.scale))
    (hle : inUnits (total.mantissa, total.scale) ≤ hi * n) :
    (lo : Int) ≤ (total.divideBy n).units ∧ (total.divideBy n).units ≤ hi := by
  have hdividing : Dividing lo hi n (total.mantissa / n) (total.mantissa % n) total.scale := by
    have hdivmod : total.mantissa / n * n + total.mantissa % n = total.mantissa := by
      rw [Nat.mul_comm, Nat.div_add_mod]
    exact ⟨Nat.mod_lt _ hn, total.scale_le, by rw [hdivmod]; exact hlo, by rw [hdivmod]; exact hle⟩
  unfold divideBy
  split
  · rename_i hzero
    rw [isZero, beq_iff_eq] at hzero
    rw [inUnits, hzero, Nat.zero_mul, Nat.le_zero, Nat.mul_eq_zero] at hlo
    rw [units_zero]
    omega
  · rw [hnegative]
    split
    · rename_i hmod
      rw [hmod] at hdividing
      exact hdividing.between.units_ofParts? hhi
    · rw [units_clearZeroSign]
      exact (hdividing.between_extend hhi).strip.units_ofParts? hhi

/-- The mean of decimals above zero that can be added exactly lies between any bounds that they lie
between. -/
theorem exists_mean {ds : List Decimal} {low high : Decimal} {s : Nat} (hs : s ≤ 28) (hne : ds ≠ [])
    (hpos : ∀ d ∈ ds, 0 < d) (hscale : ∀ d ∈ ds, d.scale ≤ s)
    (hsize : (ds.map (magnitudeAt s)).sum < mantissaBound) (hlow : ∀ d ∈ ds, low ≤ d)
    (hhigh : ∀ d ∈ ds, d ≤ high) (hroom : high.units < mantissaBound) :
    ∃ c, mean ds = .ok c ∧ low ≤ c ∧ c ≤ high := by
  obtain ⟨total, htotal, hunits, -, hnegative⟩ := sum_pos hs hpos hscale hsize
  have hvalue : total.units = (inUnits (total.mantissa, total.scale) : Nat) := by
    rw [units_eq_sign_mul, hnegative]
    simp [inUnits]
  -- both bounds in units, the lower one cut at zero
  have hterm : ∀ z ∈ ds.map units, max low.units 0 ≤ z ∧ z ≤ high.units := by
    intro z hz
    obtain ⟨d, hd, rfl⟩ := List.mem_map.1 hz
    have hzero : (0 : Decimal).units < d.units := hpos d hd
    rw [units_zero] at hzero
    exact ⟨max_le (hlow d hd) (le_of_lt hzero), hhigh d hd⟩
  have hsumlow := List.card_nsmul_le_sum (ds.map units) _ fun z hz => (hterm z hz).1
  have hsumhigh := List.sum_le_card_nsmul (ds.map units) _ fun z hz => (hterm z hz).2
  rw [List.length_map, nsmul_eq_mul, ← hunits, hvalue] at hsumlow hsumhigh
  obtain ⟨d, hd⟩ := List.exists_mem_of_ne_nil ds hne
  have hfirst := hterm d.units (List.mem_map_of_mem hd)
  obtain ⟨lo, hlo⟩ := Int.eq_ofNat_of_zero_le (le_max_right low.units 0)
  obtain ⟨hi, hhi⟩ := Int.eq_ofNat_of_zero_le
    ((le_max_right low.units 0).trans (hfirst.1.trans hfirst.2))
  rw [hlo, Int.mul_comm] at hsumlow
  rw [hhi, Int.mul_comm] at hsumhigh
  have hbound : hi < mantissaBound := by omega
  obtain ⟨hle, hge⟩ := divideBy_between (List.length_pos_iff.2 hne) hnegative hbound
    (by exact_mod_cast hsumlow) (by exact_mod_cast hsumhigh)
  refine ⟨total.divideBy ds.length, bind_eq_ok_iff.2 ⟨total, htotal, rfl⟩, ?_, ?_⟩
  · rw [le_iff_units_le]
    exact (le_max_left low.units 0).trans (hlo.trans_le hle)
  · rw [le_iff_units_le]
    exact hge.trans_eq hhi.symm

/-! ## Scores -/

theorem nonneg_of_add (ha : 0 ≤ a) (hb : 0 ≤ b) (h : a.add b = .ok c) : 0 ≤ c := by
  rw [le_iff_units_le, units_zero] at ha hb
  refine nonneg_of_rounded (units_of_add h) (Int.mul_nonneg ?_ (Int.natCast_nonneg _))
  omega

/-- Decimals between zero and one can be summed, rounded where they must be, as long as there is room for
their count. -/
theorem exists_foldlM_add_atMost {k : Nat} (ha : 0 ≤ a) (hak : a.AtMost k)
    (hds : ∀ d ∈ ds, 0 ≤ d ∧ d ≤ 1) (hcount : k + ds.length < mantissaBound) :
    ∃ c, ds.foldlM add a = .ok c ∧ 0 ≤ c ∧ c.AtMost (k + ds.length) := by
  induction ds generalizing a k with
  | nil => exact ⟨a, rfl, ha, hak⟩
  | cons d ds ih =>
    obtain ⟨hd, hds⟩ := List.forall_mem_cons.1 hds
    rw [List.length_cons] at hcount ⊢
    obtain ⟨p, hp, hpk⟩ := exists_add_atMost hak (atMost_one_of_le hd.1 hd.2) (by omega)
    obtain ⟨c, hc, hpos, hck⟩ := ih (nonneg_of_add ha hd.1 hp) hpk hds (by omega)
    rw [Nat.add_right_comm, Nat.add_assoc] at hck
    refine ⟨c, ?_, hpos, hck⟩
    rw [List.foldlM_cons, hp]
    exact hc

/-- And they have a mean between zero and one, however many places they have. -/
theorem exists_mean_of_le_one (hne : ds ≠ []) (hds : ∀ d ∈ ds, 0 ≤ d ∧ d ≤ 1)
    (hcount : ds.length < mantissaBound) : ∃ c, mean ds = .ok c ∧ 0 ≤ c ∧ c ≤ 1 := by
  obtain ⟨total, htotal, hpos, hbound⟩ := exists_foldlM_add_atMost (k := 0) (le_refl (0 : Decimal))
    (Nat.zero_le _) hds (by omega)
  refine ⟨total.divideBy ds.length, bind_eq_ok_iff.2 ⟨total, htotal, rfl⟩, ?_⟩
  rw [le_iff_units_le, le_iff_units_le, units_zero, units_one]
  cases hzero : total.isZero with
  | true =>
    rw [divideBy, if_pos hzero, units_zero]
    exact ⟨le_refl 0, Int.natCast_nonneg _⟩
  | false =>
    have hnegative : total.negative = false := by
      by_contra hsign
      exact not_lt_iff_le.2 hpos (lt_zero_iff.2 ⟨by simpa using hsign, hzero⟩)
    rw [Nat.zero_add, atMost_iff, natAbs_units, Nat.mul_comm ds.length] at hbound
    have hzero : 0 * ds.length ≤ inUnits (total.mantissa, total.scale) := by
      rw [Nat.zero_mul]
      exact Nat.zero_le _
    exact divideBy_between (List.length_pos_iff.2 hne) hnegative (by decide) hzero hbound

end Forecast.Decimal
