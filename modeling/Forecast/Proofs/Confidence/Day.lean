import Forecast.Proofs.Confidence.Decay
import Forecast.Proofs.Confidence.Order
import Forecast.Proofs.Decimal.Mean

/-!
# The score of a day among those of its events

The score of a day decays from the mean of the scores of its events. Held scores are added exactly, and
however their mean is rounded then, it lies between the least one of them and the greatest
(`ConfidenceSettings.exists_mean_held`). At one distance all scores decay by one factor, whatever its sign
is, which keeps their order (`ConfidenceSettings.decay_mono`), and a larger score needs no less room
(`ConfidenceSettings.exists_decay_of_le`). So the score of a day stays between what its least and its
greatest event decay to (`ConfidenceSettings.dayScore_among_events`).
-/

namespace Forecast

open Decimal (fitted_mono)

namespace ConfidenceSettings

variable {s : ConfidenceSettings} {p q a b least greatest mean score : Decimal} {days offset : Int}
  {events : List Event}

/-! ## Scores at one distance -/

/-- Under any settings scores at one distance keep their order. -/
theorem decay_mono (hp : 0 ≤ p) (hpq : p ≤ q) (ha : s.decay p days = .ok a)
    (hb : s.decay q days = .ok b) : a ≤ b := by
  obtain ⟨factor, product, hfactor, hproduct, rfl⟩ := decay_eq_ok_iff.1 ha
  obtain ⟨factor', product', hfactor', hproduct', rfl⟩ := decay_eq_ok_iff.1 hb
  obtain rfl := Except.ok.inj (hfactor.symm.trans hfactor')
  exact bounded_product_le hp hpq (le_refl factor) hproduct hproduct'

/-- Where a score has a value at a distance, a smaller one has a value, too. -/
theorem exists_decay_of_le (hp : 0 ≤ p) (hpq : p ≤ q) (hb : s.decay q days = .ok b) :
    ∃ a, s.decay p days = .ok a := by
  obtain ⟨factor, product, hfactor, hproduct, -⟩ := decay_eq_ok_iff.1 hb
  rw [Decimal.le_iff_units_le, Decimal.units_zero] at hp
  rw [Decimal.le_iff_units_le] at hpq
  have hle : (p.units * factor.units).natAbs ≤ (q.units * factor.units).natAbs := by
    rw [Int.natAbs_mul, Int.natAbs_mul]
    exact Nat.mul_le_mul_right _ (by omega)
  have hroom := Decimal.exists_mul_iff.1 ⟨product, hproduct⟩
  rw [Decimal.natAbs_rounded] at hroom
  obtain ⟨smaller, hsmaller⟩ : ∃ c, p.mul factor = .ok c := by
    refine Decimal.exists_mul_iff.2 ?_
    rw [Decimal.natAbs_rounded]
    exact lt_of_le_of_lt (fitted_mono hle) hroom
  exact ⟨_, decay_eq_ok_iff.2 ⟨factor, smaller, hfactor, hsmaller, rfl⟩⟩

/-! ## The mean -/

/-- The mean of held scores lies between the least and the greatest of them. -/
theorem exists_mean_held {scores : List Decimal} (hheld : ∀ d ∈ scores, HeldScore d)
    (hcount : scores.length < UInt64.size) (hleast : IsLeast {d | d ∈ scores} least)
    (hgreatest : IsGreatest {d | d ∈ scores} greatest) :
    ∃ mean, Decimal.mean scores = .ok mean ∧ least ≤ mean ∧ mean ≤ greatest := by
  have hroom : greatest.units < Decimal.mantissaBound := by
    have hone : greatest.units ≤ (1 : Decimal).units := (hheld greatest hgreatest.1).le_one
    have hunit : (1 : Decimal).units < Decimal.mantissaBound := by decide
    omega
  exact Decimal.exists_mean (show 2 ≤ 28 by decide) (List.ne_nil_of_mem hleast.1)
    (fun d hd => (hheld d hd).pos) (fun d hd => (hheld d hd).scale_le)
    (sum_magnitudeAt_lt hheld hcount) (fun d hd => hleast.2 hd) (fun d hd => hgreatest.2 hd) hroom

theorem dayScore_of_mean (hmean : Decimal.mean (events.map Event.confidence) = .ok mean)
    (hne : events ≠ []) (s : ConfidenceSettings) (offset : Int) :
    s.dayScore events offset = s.decay mean offset := by
  rw [dayScore, if_neg (by simpa using hne), hmean, ok_bind]

/-! ## The day -/

/-- **A day's score lies between those of its events.** Under any settings and at any distance, the score
of a day with some events, as many as can be counted, which have held scores, is no less than what the
least of them decays to there, and no more than what the greatest one decays to. Where the greatest one
has a value there, the day has one, and where the day has one, the least one has. The order of the events
does not matter. -/
theorem dayScore_among_events (s : ConfidenceSettings) (hheld : ∀ e ∈ events, HeldScore e.confidence)
    (hcount : events.length < UInt64.size)
    (hleast : IsLeast {d | d ∈ events.map Event.confidence} least)
    (hgreatest : IsGreatest {d | d ∈ events.map Event.confidence} greatest) (offset : Int) :
    (∀ low score, s.decay least offset = .ok low → s.dayScore events offset = .ok score →
      low ≤ score) ∧
    (∀ score high, s.dayScore events offset = .ok score → s.decay greatest offset = .ok high →
      score ≤ high) ∧
    ((∃ high, s.decay greatest offset = .ok high) → ∃ score, s.dayScore events offset = .ok score) ∧
    ((∃ score, s.dayScore events offset = .ok score) → ∃ low, s.decay least offset = .ok low) ∧
    ∀ events', events.Perm events' → s.dayScore events' offset = s.dayScore events offset := by
  have hscores : ∀ d ∈ events.map Event.confidence, HeldScore d := List.forall_mem_map.2 hheld
  have hne : events ≠ [] := by
    rintro rfl
    exact List.not_mem_nil hleast.1
  obtain ⟨mean, hmean, hlow, hhigh⟩ :=
    exists_mean_held hscores (by rwa [List.length_map]) hleast hgreatest
  have hday := dayScore_of_mean hmean hne s offset
  have hpos : 0 ≤ least := le_of_lt (hscores least hleast.1).pos
  refine ⟨?_, ?_, ?_, ?_, ?_⟩
  · intro low score hdecay hscore
    exact decay_mono hpos hlow hdecay (hday.symm.trans hscore)
  · intro score high hscore hdecay
    exact decay_mono (le_trans hpos hlow) hhigh (hday.symm.trans hscore) hdecay
  · rintro ⟨high, hdecay⟩
    rw [hday]
    exact exists_decay_of_le (le_trans hpos hlow) hhigh hdecay
  · rintro ⟨score, hscore⟩
    exact exists_decay_of_le hpos hlow (hday.symm.trans hscore)
  · intro events' hperm
    exact (s.dayScore_perm hheld hcount hperm offset).symm

end ConfidenceSettings

/-- Events of which only the scores differ. -/
def Sample.scored (scores : List Decimal) : List Event :=
  scores.map fun score =>
    { date := { dayNumber := 0 }, flow := .expense, amount := .whole 7, description := "lunch",
      confidence := score, origin := .pending }

namespace ConfidenceSettings

/-- Three scores without a mean of two places, under settings by which scores rise with distance. -/
theorem sample_scored :
    let events := Sample.scored [.hundredths 35, .tenths 5, .tenths 3]
    Sample.unchecked.decay (.tenths 3) 10 = .ok (.hundredths 32) ∧
    Sample.unchecked.dayScore events 10 = .ok (.hundredths 41) ∧
    Sample.unchecked.decay (.tenths 5) 10 = .ok (.hundredths 54) ∧
    Decimal.hundredths 32 ≤ .hundredths 41 ∧ Decimal.hundredths 41 ≤ .hundredths 54 ∧
    Sample.unchecked.dayScore events.reverse 10 = .ok (.hundredths 41) := by
  intro events
  have hlow : Sample.unchecked.decay (.tenths 3) 10 = .ok (.hundredths 32) := by
    decide +kernel
  have hday : Sample.unchecked.dayScore events 10 = .ok (.hundredths 41) := by
    decide +kernel
  have hhigh : Sample.unchecked.decay (.tenths 5) 10 = .ok (.hundredths 54) := by
    decide +kernel
  have hheld : ∀ e ∈ events, HeldScore e.confidence := by
    have hscores : ∀ e ∈ events, .tenths 3 ≤ e.confidence ∧ e.confidence ≤ 1 ∧
        e.confidence.scale ≤ 2 := by
      decide
    intro e he
    obtain ⟨hleast, hone, hscale⟩ := hscores e he
    exact ⟨hleast, hone, hscale⟩
  have hleast : IsLeast {d | d ∈ events.map Event.confidence} (.tenths 3) :=
    ⟨show _ ∈ events.map Event.confidence by decide,
      show ∀ d ∈ events.map Event.confidence, .tenths 3 ≤ d by decide⟩
  have hgreatest : IsGreatest {d | d ∈ events.map Event.confidence} (.tenths 5) :=
    ⟨show _ ∈ events.map Event.confidence by decide,
      show ∀ d ∈ events.map Event.confidence, d ≤ .tenths 5 by decide⟩
  obtain ⟨hbelow, habove, -, -, hperm⟩ :=
    dayScore_among_events Sample.unchecked hheld (by decide) hleast hgreatest 10
  exact ⟨hlow, hday, hhigh, hbelow _ _ hlow hday, habove _ _ hday hhigh,
    (hperm _ events.reverse_perm.symm).trans hday⟩

end ConfidenceSettings

end Forecast
