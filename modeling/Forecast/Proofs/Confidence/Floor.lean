import Forecast.Proofs.Confidence.Decay

/-!
# The configured floor

A score is cut at the floor first and rounded to two places then. So what it is held to is the rounded
floor, and where rounding takes something off, scores come out below the floor that is configured: they
keep it exactly under the settings whose floor is not rounded down (`ConfidenceSettings.keepsFloor_iff`).
-/

namespace Forecast.ConfidenceSettings

variable {s : ConfidenceSettings} {score : Decimal}

/-- Every score there is lies between the configured floor and one. -/
structure KeepsFloor (s : ConfidenceSettings) : Prop where
  pendingScore_between : s.floor ≤ s.pendingScore ∧ s.pendingScore ≤ 1
  decay_between : ∀ base days score, s.decay base days = .ok score → s.floor ≤ score ∧ score ≤ 1
  occurrenceScore_between : ∀ r date today score, s.occurrenceScore r date today = .ok score →
    s.floor ≤ score ∧ score ≤ 1
  dayScore_between : ∀ events offset score, s.dayScore events offset = .ok score →
    s.floor ≤ score ∧ score ≤ 1

/-- A floor that was checked is the one that counts. -/
theorem units_leastScore (h : s.flaw? = none) : s.leastScore.units = s.floor.units := by
  rw [leastScore, Decimal.units_max]
  exact max_eq_left (flaw?_eq_none_iff.1 h).2.1

theorem floor_le_one (h : s.flaw? = none) : s.floor ≤ 1 :=
  ((flaw?_eq_none_iff.1 h).1 ("floor", s.floor) (by simp [scores])).2

/-- What does not come up to the floor is worth the rounded floor. -/
theorem units_bounded_of_le (h : s.flaw? = none) (hs : score ≤ s.floor) :
    (s.bounded score).units = (s.floor.roundTo 2).units := by
  have hfloor := floor_le_one h
  rw [Decimal.le_iff_units_le, Decimal.units_one] at hfloor
  rw [units_bounded, units_leastScore h, max_eq_right hs, min_eq_left hfloor,
    Decimal.units_roundTo _ (by decide)]

/-- No score is below the rounded floor. -/
theorem roundTo_floor_le_bounded (h : s.flaw? = none) (score : Decimal) :
    s.floor.roundTo 2 ≤ s.bounded score := by
  have hleast : s.floor ≤ s.leastScore := by
    rw [Decimal.le_iff_units_le, units_leastScore h]
  have hbounded := bounded_le_bounded (q := score) (.inr hleast)
  rwa [Decimal.le_iff_units_le, units_bounded_of_le h (le_refl s.floor)] at hbounded

/-- **Which floors are kept.** Under settings that pass the check all scores lie between the configured
floor and one if and only if rounding the floor to two places takes nothing off it. -/
theorem keepsFloor_iff (h : s.flaw? = none) : s.KeepsFloor ↔ s.floor ≤ s.floor.roundTo 2 := by
  constructor
  · intro hkeeps
    obtain ⟨product, hproduct, hunits⟩ := s.floor.exists_mul_one
    have hfloor := (hkeeps.decay_between _ _ _ (decay_zero hproduct)).1
    rwa [Decimal.le_iff_units_le, units_bounded_of_le h hunits.le] at hfloor
  · intro hround
    have hbounded : ∀ score, s.floor ≤ s.bounded score ∧ s.bounded score ≤ 1 := fun score =>
      ⟨le_trans hround (roundTo_floor_le_bounded h score), (held_bounded s score).le_one⟩
    have hdecay : ∀ base days score, s.decay base days = .ok score →
        s.floor ≤ score ∧ score ≤ 1 := by
      intro base days score hscore
      obtain ⟨-, product, -, -, rfl⟩ := decay_eq_ok_iff.1 hscore
      exact hbounded product
    refine ⟨hbounded s.pending, hdecay, fun _ _ _ => hdecay _ _, ?_⟩
    intro events offset score hscore
    obtain ⟨mean, hmean⟩ := exists_decay_of_dayScore hscore
    exact hdecay mean offset score hmean

/-- A floor that is rounded up is kept, and nothing is worth as little as that. -/
theorem sample_roundedUp :
    let s : ConfidenceSettings := { floor := .thousandths 305 }
    s.KeepsFloor ∧ s.decay 0 0 = .ok (.hundredths 31) := by
  refine ⟨(keepsFloor_iff ?_).2 ?_, ?_⟩ <;> decide +kernel

/-- One that is rounded down is not: a score of 0.99 passes where the floor is 0.994. -/
theorem floor_roundedDown :
    let s : ConfidenceSettings := { floor := .thousandths 994 }
    s.flaw? = none ∧ s.pendingScore = .hundredths 99 ∧ ¬ s.floor ≤ s.pendingScore := by
  decide +kernel

end Forecast.ConfidenceSettings
