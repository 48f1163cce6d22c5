import Forecast.Proofs.Confidence.Decay
import Forecast.Proofs.Decimal.Mean

/-!
# Scores without faults

What is taken off a score grows with the distance, and it has to fit into a decimal together with the
whole score that it is taken off, at the longest distance that there is between two dates. This is all
that the scores of a day and of an occurrence depend on, for the mean of scores is a score again
(`Decimal.exists_mean_of_le_one`): they can be had on all dates exactly under the settings of
`ConfidenceSettings.DecayFits` (`ConfidenceSettings.total_iff`). The check does not tell them apart, but
all that take at most the whole score off per day are among them.
-/

namespace Forecast

open Decimal (mantissaBound rounded)

/-- The first and the last date are less than two hundred million days apart. -/
theorem Date.natAbs_longest : (latest.daysSince earliest).natAbs = 191491528 := by decide

/-- No two dates are further apart. -/
theorem Date.natAbs_daysSince_le (a b : Date) :
    (a.daysSince b).natAbs ≤ (latest.daysSince earliest).natAbs := by
  rw [natAbs_longest]
  have ha := a.earliest_le
  have ha' := a.le_latest
  have hb := b.earliest_le
  have hb' := b.le_latest
  unfold Date.daysSince
  omega

namespace ConfidenceSettings

variable {s : ConfidenceSettings} {base c : Decimal} {days : Int} {r : Recurring}

/-- What is taken off over the longest distance there is between two dates stays a whole score and a half
below the bound of mantissas. Then it leaves room for the whole score that it is taken off, also when it
is rounded. -/
def DecayFits (s : ConfidenceSettings) : Prop :=
  2 * ((Date.latest.daysSince Date.earliest).natAbs * s.decayPerDay.units.natAbs) ≤
    (2 * mantissaBound - 3) * tenPow 28

/-- Every score is there that is asked for, as long as there are no more events than can be counted. -/
structure Total (s : ConfidenceSettings) : Prop where
  exists_decay : ∀ base : Decimal, 0 ≤ base → base ≤ 1 → ∀ a b : Date,
    ∃ score, s.decay base (a.daysSince b) = .ok score
  exists_occurrenceScore : ∀ r : Recurring, 0 ≤ s.baseScore r → s.baseScore r ≤ 1 →
    ∀ date today : Date, ∃ score, s.occurrenceScore r date today = .ok score
  exists_dayScore : ∀ events : List Event, (∀ e ∈ events, 0 ≤ e.confidence ∧ e.confidence ≤ 1) →
    events.length < mantissaBound →
    ∀ a b : Date, ∃ score, s.dayScore events (a.daysSince b) = .ok score

/-! ## What fits -/

/-- The share that is taken off, in units of `10 ^ -56`. -/
theorem natAbs_share (days : Int) (rate : Decimal) :
    (days * tenPow 28 * rate.units).natAbs = days.natAbs * rate.units.natAbs * tenPow 28 := by
  rw [Int.natAbs_mul, Int.natAbs_mul, Int.natAbs_natCast, Nat.mul_right_comm]

theorem exists_factor (hdays : days.natAbs < mantissaBound)
    (hshare : 2 * (days.natAbs * s.decayPerDay.units.natAbs) ≤ (2 * mantissaBound - 3) * tenPow 28) :
    ∃ c, s.factor days = .ok c ∧ c.AtMost (mantissaBound - 1) := by
  obtain ⟨distance, hdistance⟩ := Decimal.exists_ofInt? days hdays
  have hrounded : (rounded (distance.units * s.decayPerDay.units)).natAbs ≤
      (mantissaBound - 2) * tenPow 56 := by
    rw [Decimal.natAbs_rounded, Decimal.units_of_ofInt? hdistance, natAbs_share]
    refine Decimal.fitted_le_of_le ?_
    rw [Decimal.mul_tenPow_56, ← Nat.mul_assoc 2]
    exact Nat.mul_le_mul_right _ hshare
  obtain ⟨share, hmul⟩ := Decimal.exists_mul_iff.2 (lt_of_le_of_lt hrounded (by decide))
  have hbound : share.AtMost (mantissaBound - 2) := by
    rw [← Decimal.units_of_mul hmul] at hrounded
    exact Decimal.atMost_iff.2 (Decimal.natAbs_mul_le_iff.1 hrounded)
  obtain ⟨c, hc, hcbound⟩ := Decimal.exists_sub_atMost Decimal.atMost_one hbound (by decide)
  exact ⟨c, factor_eq_ok_iff.2 ⟨distance, share, hdistance, hmul, hc⟩, hcbound⟩

theorem exists_decay (hfits : s.DecayFits) (hbase : base.AtMost 1) (a b : Date) :
    ∃ score, s.decay base (a.daysSince b) = .ok score := by
  have hspan := Date.natAbs_daysSince_le a b
  have hdays : (a.daysSince b).natAbs < mantissaBound := lt_of_le_of_lt hspan (by decide)
  have hshare := Nat.mul_le_mul_left 2 (Nat.mul_le_mul_right s.decayPerDay.units.natAbs hspan)
  obtain ⟨factor, hfactor, hbound⟩ := exists_factor hdays (hshare.trans hfits)
  obtain ⟨product, hproduct, -⟩ := Decimal.exists_mul_atMost hbase hbound (by decide)
  exact ⟨_, decay_eq_ok_iff.2 ⟨factor, product, hfactor, hproduct, rfl⟩⟩

/-- A day has a score: that of the mean of its events, or of one. -/
theorem exists_dayScore {events : List Event} (hfits : s.DecayFits)
    (hscores : ∀ e ∈ events, 0 ≤ e.confidence ∧ e.confidence ≤ 1)
    (hcount : events.length < mantissaBound) (a b : Date) :
    ∃ score, s.dayScore events (a.daysSince b) = .ok score := by
  unfold dayScore
  split
  · exact exists_decay hfits Decimal.atMost_one a b
  · rename_i hempty
    have hne : events.map Event.confidence ≠ [] := by simpa using hempty
    obtain ⟨mean, hmean, hlow, hhigh⟩ := Decimal.exists_mean_of_le_one hne
      (List.forall_mem_map.2 hscores) (by rwa [List.length_map])
    rw [hmean, ok_bind]
    exact exists_decay hfits (Decimal.atMost_one_of_le hlow hhigh) a b

/-- What takes at most the whole score off per day fits. -/
theorem decayFits_of_atMost_one (h : s.decayPerDay.AtMost 1) : s.DecayFits := by
  have hunits := Decimal.atMost_iff.1 h
  have hroom : 2 * 191491528 ≤ 2 * mantissaBound - 3 := by decide
  rw [DecayFits, Date.natAbs_longest]
  calc 2 * (191491528 * s.decayPerDay.units.natAbs) ≤ 2 * (191491528 * (1 * tenPow 28)) :=
        Nat.mul_le_mul_left _ (Nat.mul_le_mul_left _ hunits)
    _ = 2 * 191491528 * tenPow 28 := by rw [Nat.one_mul, Nat.mul_assoc]
    _ ≤ (2 * mantissaBound - 3) * tenPow 28 := Nat.mul_le_mul_right _ hroom

/-! ## What does not fit -/

/-- Where the share is not above zero, it is what the factor is larger by. So if it does not leave room
for the whole score, there is no factor. -/
theorem le_of_factor (h : s.factor days = .ok c) (hsign : days * s.decayPerDay.units ≤ 0) :
    2 * (days.natAbs * s.decayPerDay.units.natAbs) ≤ (2 * mantissaBound - 3) * tenPow 28 := by
  obtain ⟨distance, share, hdistance, hmul, hsub⟩ := factor_eq_ok_iff.1 h
  have hvalue := Decimal.units_of_mul hmul
  rw [Decimal.units_of_ofInt? hdistance] at hvalue
  have hshare : share.units ≤ 0 := by
    refine Decimal.nonpos_of_rounded hvalue ?_
    rw [Int.mul_right_comm]
    exact Int.mul_nonpos_of_nonpos_of_nonneg hsign (Int.natCast_nonneg _)
  have hrange := Decimal.exists_sub_iff.1 ⟨c, hsub⟩
  by_contra hlarge
  -- the share is rounded to the largest decimal at least, and one more is out of range
  have hfull : (mantissaBound - 1) * tenPow 28 ≤ share.units.natAbs := by
    rw [← Decimal.le_natAbs_mul_iff, hvalue, Decimal.natAbs_rounded, natAbs_share]
    refine Decimal.le_fitted_of_lt ?_
    rw [Decimal.mul_tenPow_56, ← Nat.mul_assoc 2]
    exact Nat.mul_lt_mul_of_pos_right (Nat.lt_of_not_le hlarge) (tenPow_pos 28)
  have hout : mantissaBound * tenPow 56 ≤
      (((1 : Decimal).units - share.units) * tenPow 28).natAbs := by
    rw [Nat.sub_mul, Nat.one_mul] at hfull
    rw [Decimal.le_natAbs_mul_iff, Decimal.units_one]
    omega
  have hle := Decimal.mantissaBound_le_fitted hout
  rw [← Decimal.natAbs_rounded] at hle
  omega

/-- **When no score faults.** The scores between zero and one decay to scores on all dates, and so all
occurrences and all days have scores, exactly if the decay fits. -/
theorem total_iff (s : ConfidenceSettings) : s.Total ↔ s.DecayFits := by
  constructor
  · intro h
    -- of the two directions of the longest distance one adds to the whole score
    obtain ⟨days, hdays, hsign, score, hscore⟩ : ∃ days : Int,
        days.natAbs = (Date.latest.daysSince Date.earliest).natAbs ∧
        days * s.decayPerDay.units ≤ 0 ∧ ∃ score, s.decay 1 days = .ok score := by
      have hone : (0 : Decimal) ≤ 1 := by decide
      rcases le_total 0 s.decayPerDay.units with hrate | hrate
      · exact ⟨_, by decide, Int.mul_nonpos_of_nonpos_of_nonneg (by decide) hrate,
          h.exists_decay 1 hone (le_refl 1) Date.earliest Date.latest⟩
      · exact ⟨_, rfl, Int.mul_nonpos_of_nonneg_of_nonpos (by decide) hrate,
          h.exists_decay 1 hone (le_refl 1) Date.latest Date.earliest⟩
    obtain ⟨factor, -, hfactor, -⟩ := decay_eq_ok_iff.1 hscore
    rw [DecayFits, ← hdays]
    exact le_of_factor hfactor hsign
  · intro hfits
    exact ⟨fun base hlow hhigh a b => exists_decay hfits (Decimal.atMost_one_of_le hlow hhigh) a b,
      fun r hlow hhigh date today =>
        exists_decay hfits (Decimal.atMost_one_of_le hlow hhigh) date today,
      fun events hscores hcount a b => exists_dayScore hfits hscores hcount a b⟩

/-- The largest decay there is passes the check, but it cannot be taken off twice. -/
theorem largest_decay_faults :
    let s : Settings := { confidence :=
      { decayPerDay := ⟨false, mantissaBound - 1, 0, by decide, by decide⟩ } }
    let b : Date := ⟨0, by decide, by decide⟩
    let a : Date := ⟨2, by decide, by decide⟩
    s.check = .ok () ∧ s.confidence.decay 1 (a.daysSince b) = .error .multiplication := by
  decide +kernel

/-! ## What the scores decay from -/

/-- What an occurrence decays from is a score: a setting that was checked, or what is stored. -/
theorem atMost_baseScore (h : s.flaw? = none)
    (hr : ∀ stored, r.confidence = some stored → 0 ≤ stored ∧ stored ≤ 1) :
    (s.baseScore r).AtMost 1 := by
  cases hc : r.confidence with
  | none => exact Decimal.atMost_one_of_le (baseScore_between h hc).1 (baseScore_between h hc).2
  | some stored =>
    rw [baseScore_of_stored s hc]
    exact Decimal.atMost_one_of_le (hr stored hc).1 (hr stored hc).2

end ConfidenceSettings

end Forecast
