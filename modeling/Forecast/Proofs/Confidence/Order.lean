import Forecast.Proofs.Confidence.Range
import Forecast.Proofs.Decimal.Unsigned

/-!
# Scores in any order

The score of a day is taken from the mean of its events. Held scores are above zero and have at most two
places, so that as many of them as can be counted in 64 bits are added exactly, and the score of the day
does not hang on the order of its events, digit for digit (`ConfidenceSettings.dayScore_perm`).
-/

namespace Forecast

open Decimal (magnitudeAt mantissaBound)

namespace HeldScore

variable {score : Decimal}

theorem pos (h : HeldScore score) : 0 < score := by
  have hleast : (0 : Decimal) < .tenths 3 := by decide
  exact lt_of_lt_of_le hleast h.least_le

/-- A held score is a hundred hundredths at the most. -/
theorem magnitudeAt_le (h : HeldScore score) : score.magnitudeAt 2 ≤ 100 := by
  have hone : score.units ≤ (1 : Decimal).units := h.le_one
  have hunits := Decimal.units_eq_mul h.scale_le (show 2 ≤ 28 by decide)
  have hunit : (1 : Decimal).units = 100 * tenPow 26 := by decide
  have hpow : (0 : Int) < tenPow 26 := by exact_mod_cast tenPow_pos 26
  rw [hunits, hunit] at hone
  have hcoefficient := Int.le_of_mul_le_mul_right hone hpow
  have hsign := Decimal.coefficientAt_nonneg (Decimal.pos_iff.1 h.pos).1 2
  have hnat := Decimal.natAbs_coefficientAt 2 score
  omega

end HeldScore

/-- Held scores at two places add up to a hundred for each of them at the most. -/
theorem sum_magnitudeAt_le {scores : List Decimal} (h : ∀ d ∈ scores, HeldScore d) :
    (scores.map (magnitudeAt 2)).sum ≤ scores.length * 100 := by
  have hle : ∀ n ∈ scores.map (magnitudeAt 2), n ≤ 100 := by
    intro n hn
    obtain ⟨d, hd, rfl⟩ := List.mem_map.1 hn
    exact (h d hd).magnitudeAt_le
  have hsum := List.sum_le_card_nsmul _ 100 hle
  rwa [List.length_map] at hsum

/-- As many of them as can be counted fit into a mantissa. -/
theorem sum_magnitudeAt_lt {scores : List Decimal} (h : ∀ d ∈ scores, HeldScore d)
    (hcount : scores.length < UInt64.size) : (scores.map (magnitudeAt 2)).sum < mantissaBound := by
  have hle := sum_magnitudeAt_le h
  have hbound : UInt64.size * 100 < mantissaBound := by decide
  omega

namespace ConfidenceSettings

/-- The score of a day does not hang on the order of its events. -/
theorem dayScore_perm (s : ConfidenceSettings) {es es' : List Event}
    (hheld : ∀ e ∈ es, HeldScore e.confidence) (hcount : es.length < UInt64.size)
    (hperm : es.Perm es') (offset : Int) : s.dayScore es offset = s.dayScore es' offset := by
  have hscores : ∀ d ∈ es.map Event.confidence, HeldScore d := List.forall_mem_map.2 hheld
  have hsize := sum_magnitudeAt_lt hscores (by rwa [List.length_map])
  have hmean := Decimal.mean_perm (show 2 ≤ 28 by decide) (fun d hd => (hscores d hd).pos)
    (fun d hd => (hscores d hd).scale_le) hsize (hperm.map Event.confidence)
  have hempty : es.isEmpty = es'.isEmpty := by
    rw [Bool.eq_iff_iff, List.isEmpty_iff, List.isEmpty_iff]
    constructor
    · rintro rfl
      exact hperm.nil_eq.symm
    · rintro rfl
      exact hperm.eq_nil
  rw [dayScore, dayScore, hmean, hempty]

end ConfidenceSettings

end Forecast
