import Forecast.Confidence.Score
import Forecast.Problem
import Forecast.Proofs.Decimal.Order

/-!
# Checked settings

What settings are like that pass the check (`ConfidenceSettings.flaw?_eq_none_iff`). What an occurrence
decays from is a score then, unless another number is stored of its definition
(`ConfidenceSettings.baseScore_between`).
-/

namespace Forecast

namespace ConfidenceSettings

variable {s : ConfidenceSettings} {r : Recurring}

theorem isScore_iff {d : Decimal} : isScore d = true ↔ 0 ≤ d ∧ d ≤ 1 := by
  simp [isScore]

/-- Settings without a flaw: the scores lie between zero and one, the floor is no lower than the lowest
floor, and the decay does not raise a score. -/
theorem flaw?_eq_none_iff : s.flaw? = none ↔
    (∀ score ∈ s.scores, 0 ≤ score.2 ∧ score.2 ≤ 1) ∧ leastFloor ≤ s.floor ∧ 0 ≤ s.decayPerDay := by
  unfold flaw?
  cases h : s.scores.find? fun score => !isScore score.2 with
  | some found =>
    have hbad := List.find?_some h
    have hmem := List.mem_of_find?_eq_some h
    simp only [reduceCtorEq, false_iff]
    rintro ⟨hscores, -⟩
    rw [isScore_iff.2 (hscores found hmem)] at hbad
    cases hbad
  | none =>
    have hscores : ∀ score ∈ s.scores, 0 ≤ score.2 ∧ score.2 ≤ 1 := by
      intro score hscore
      have hgood := List.find?_eq_none.1 h score hscore
      exact isScore_iff.1 (by simpa using hgood)
    by_cases hfloor : s.floor < leastFloor
    · have hlow : ¬ leastFloor ≤ s.floor := fun hle => not_le_of_gt hfloor hle
      simp [hfloor, hlow]
    · by_cases hdecay : s.decayPerDay < 0
      · have hneg : ¬ 0 ≤ s.decayPerDay := fun hle => not_le_of_gt hdecay hle
        simp [hfloor, hdecay, hneg]
      · simp only [hfloor, hdecay, if_false, true_iff]
        exact ⟨hscores, Decimal.not_lt_iff_le.1 hfloor, Decimal.not_lt_iff_le.1 hdecay⟩

/-- What an occurrence decays from is what is stored of its definition, or else one of the scores that
are checked. -/
theorem baseScore_between (h : s.flaw? = none) (hr : r.confidence = none) :
    0 ≤ s.baseScore r ∧ s.baseScore r ≤ 1 := by
  have hscores := (flaw?_eq_none_iff.1 h).1
  unfold baseScore
  rw [hr]
  dsimp only
  split
  · exact hscores ("manual_recurring", _) (by simp [scores])
  · split
    · exact hscores ("auto_recurring", _) (by simp [scores])
    · exact hscores ("new_recurring", _) (by simp [scores])

theorem baseScore_of_stored {stored : Decimal} (s : ConfidenceSettings)
    (hr : r.confidence = some stored) : s.baseScore r = stored := by
  rw [baseScore, hr]

end ConfidenceSettings

theorem Settings.check_eq_ok_iff {s : Settings} :
    s.check = .ok () ↔ 0 ≤ s.lowBalanceThreshold ∧ s.confidence.flaw? = none := by
  unfold Settings.check Settings.flaw?
  by_cases h : s.lowBalanceThreshold < 0
  · have hneg : ¬ 0 ≤ s.lowBalanceThreshold := fun hle => not_le_of_gt h hle
    simp [h, hneg]
  · have hnonneg : 0 ≤ s.lowBalanceThreshold := Decimal.not_lt_iff_le.1 h
    rw [if_neg h]
    cases s.confidence.flaw? <;> simp [hnonneg]

end Forecast
