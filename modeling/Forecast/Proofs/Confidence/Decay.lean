import Forecast.Proofs.Confidence.Check
import Forecast.Proofs.Confidence.Range
import Forecast.Proofs.Decimal.Bounded

/-!
# Scores at a distance

A score decays by a factor that depends on the distance alone (`ConfidenceSettings.factor`). All three
operations behind a decayed score may round, but each keeps the order, and so does holding the result:
under a decay that is not negative no score above zero is worth more further off, and no two of them
change places (`ConfidenceSettings.decay_le_decay`). Far off the factor is below zero, and this is where
scores that are not below zero stay at the floor.

A score below zero comes back there. Only of a definition with such a score stored an occurrence can be
worth more than at no distance at all (`ConfidenceSettings.occurrenceScore_le_held_iff`).
-/

namespace Forecast

open Decimal (mantissaBound rounded)

namespace ConfidenceSettings

variable {s : ConfidenceSettings} {base p q a b c score near far : Decimal}
  {days d₁ d₂ : Int}

/-! ## Holding a score -/

/-- What is held goes by the value: it is the nearest number of hundredths of what was cut at the floor
and at one. -/
theorem units_bounded (s : ConfidenceSettings) (score : Decimal) : (s.bounded score).units =
    nearestMultiple (min (max score.units s.leastScore.units) (tenPow 28)) (tenPow 26) := by
  rw [bounded, Decimal.units_roundTo _ (by decide), Decimal.units_min, Decimal.units_max,
    Decimal.units_one]

/-- Holding keeps the order, and takes all scores up to the floor as one. -/
theorem bounded_le_bounded (h : p ≤ q ∨ p ≤ s.leastScore) : s.bounded p ≤ s.bounded q := by
  rw [Decimal.le_iff_units_le, units_bounded, units_bounded]
  refine nearestMultiple_mono (min_le_min_right _ (max_le ?_ (le_max_right _ _))) _
  rcases h with h | h
  · exact le_max_of_le_left h
  · exact le_max_of_le_right h

theorem leastScore_pos (s : ConfidenceSettings) : 0 < s.leastScore :=
  lt_of_lt_of_le (by decide : (0 : Decimal) < leastFloor) (Decimal.right_le_max s.floor leastFloor)

/-! ## The factor -/

/-- The factor falls with the distance, also where the share that is taken off is rounded. -/
theorem factor_antitone (hrate : 0 ≤ s.decayPerDay) (hdays : d₁ ≤ d₂) (h₁ : s.factor d₁ = .ok near)
    (h₂ : s.factor d₂ = .ok far) : far ≤ near := by
  obtain ⟨distance₁, share₁, hdistance₁, hshare₁, hnear⟩ := factor_eq_ok_iff.1 h₁
  obtain ⟨distance₂, share₂, hdistance₂, hshare₂, hfar⟩ := factor_eq_ok_iff.1 h₂
  have hpow : (0 : Int) ≤ tenPow 28 := Int.natCast_nonneg _
  have hshare : share₁ ≤ share₂ := by
    refine Decimal.le_of_rounded_le (Decimal.units_of_mul hshare₁) (Decimal.units_of_mul hshare₂) ?_
    rw [Decimal.units_of_ofInt? hdistance₁, Decimal.units_of_ofInt? hdistance₂]
    exact Int.mul_le_mul_of_nonneg_right (Int.mul_le_mul_of_nonneg_right hdays hpow) hrate
  refine Decimal.le_of_rounded_le (Decimal.units_of_sub hfar) (Decimal.units_of_sub hnear) ?_
  exact Int.mul_le_mul_of_nonneg_right (Int.sub_le_sub_left hshare _) hpow

/-! ## Order -/

/-- The larger score with the larger factor is worth no less, once both are held. -/
theorem bounded_product_le (hp : 0 ≤ p) (hpq : p ≤ q) (hfactors : far ≤ near)
    (hfar : p.mul far = .ok a) (hnear : q.mul near = .ok b) : s.bounded a ≤ s.bounded b := by
  rw [Decimal.le_iff_units_le, Decimal.units_zero] at hp
  refine bounded_le_bounded ?_
  rcases le_or_gt 0 near.units with hpos | hneg
  · refine .inl (Decimal.le_of_rounded_le (Decimal.units_of_mul hfar) (Decimal.units_of_mul hnear) ?_)
    calc p.units * far.units ≤ p.units * near.units := Int.mul_le_mul_of_nonneg_left hfactors hp
      _ ≤ q.units * near.units := Int.mul_le_mul_of_nonneg_right hpq hpos
  · -- below zero the order of the products may be the other one, but both are below the floor
    have hnonpos : far.units ≤ 0 := le_trans hfactors (le_of_lt hneg)
    refine .inr (le_trans ?_ (le_of_lt s.leastScore_pos))
    exact Decimal.nonpos_of_rounded (Decimal.units_of_mul hfar)
      (Int.mul_nonpos_of_nonneg_of_nonpos hp hnonpos)

/-- **Decay keeps the order.** Under a decay that is not negative, a score that is not below zero and a
larger one keep their order when the smaller one is at least as far off, wherever both have values: a
score never rises with the distance, and scores at one distance do not change places. -/
theorem decay_le_decay (hrate : 0 ≤ s.decayPerDay) (hp : 0 ≤ p) (hpq : p ≤ q) (hdays : d₁ ≤ d₂)
    (hfar : s.decay p d₂ = .ok a) (hnear : s.decay q d₁ = .ok b) : a ≤ b := by
  obtain ⟨far, product₂, hfactor₂, hproduct₂, rfl⟩ := decay_eq_ok_iff.1 hfar
  obtain ⟨near, product₁, hfactor₁, hproduct₁, rfl⟩ := decay_eq_ok_iff.1 hnear
  have hfactors : far ≤ near := factor_antitone hrate hdays hfactor₁ hfactor₂
  exact bounded_product_le hp hpq hfactors hproduct₂ hproduct₁

end ConfidenceSettings

namespace Sample

/-- Settings under which a third of a hundredth is taken off per day, to all places there are. -/
def thirds : ConfidenceSettings :=
  { decayPerDay := ⟨false, 33333333333333333333333333, 28, by decide, by decide⟩ }

/-- Seven ninths, rounded down and rounded up. -/
def sevenNinths : Decimal × Decimal :=
  (⟨false, 7777777777777777777777777777, 28, by decide, by decide⟩,
    ⟨false, 7777777777777777777777777778, 28, by decide, by decide⟩)

end Sample

namespace ConfidenceSettings

/-- All operations round here. -/
theorem sample_thirds :
    Sample.thirds.decay Sample.sevenNinths.1 30 = .ok (.hundredths 70) ∧
    Sample.thirds.decay Sample.sevenNinths.2 (-3) = .ok (.hundredths 79) ∧
    Decimal.hundredths 70 ≤ .hundredths 79 := by
  have hfar : Sample.thirds.decay Sample.sevenNinths.1 30 = .ok (.hundredths 70) := by decide +kernel
  have hnear : Sample.thirds.decay Sample.sevenNinths.2 (-3) = .ok (.hundredths 79) := by
    decide +kernel
  exact ⟨hfar, hnear, decay_le_decay (by decide) (by decide) (by decide) (by decide) hfar hnear⟩

variable {s : ConfidenceSettings} {base score : Decimal} {days : Int} {r : Recurring}

/-! ## The score at no distance -/

theorem factor_zero (s : ConfidenceSettings) : s.factor 0 = .ok 1 := rfl

/-- At no distance the score is just held. -/
theorem decay_zero {product : Decimal} (h : base.mul 1 = .ok product) :
    s.decay base 0 = .ok (s.bounded product) :=
  decay_eq_ok_iff.2 ⟨1, product, s.factor_zero, h, rfl⟩

/-- A score that is not below zero is never raised. -/
theorem exists_held (hrate : 0 ≤ s.decayPerDay) (hbase : 0 ≤ base) (hdays : 0 ≤ days)
    (h : s.decay base days = .ok score) : ∃ held, s.decay base 0 = .ok held ∧ score ≤ held := by
  obtain ⟨far, product, hfactor, hproduct, rfl⟩ := decay_eq_ok_iff.1 h
  obtain ⟨whole, hwhole, -⟩ := base.exists_mul_one
  have hfactors : far ≤ 1 := factor_antitone hrate hdays s.factor_zero hfactor
  exact ⟨_, decay_zero hwhole,
    bounded_product_le hbase (le_refl base) hfactors hproduct hwhole⟩

/-! ## Scores below zero -/

/-- The standard settings with another decay. -/
def withDecay (rate : Decimal) : ConfidenceSettings :=
  { decayPerDay := rate }

theorem flaw?_withDecay {rate : Decimal} (h : 0 ≤ rate) : (withDecay rate).flaw? = none := by
  refine flaw?_eq_none_iff.2 ⟨?_, le_refl leastFloor, h⟩
  show ∀ score ∈ ({} : ConfidenceSettings).scores, 0 ≤ score.2 ∧ score.2 ≤ 1
  decide

theorem bounded_withDecay (rate score : Decimal) :
    (withDecay rate).bounded score = ({} : ConfidenceSettings).bounded score := rfl

/-- At no distance a score below zero is worth the floor. -/
theorem exists_decay_zero_of_neg (rate : Decimal) (hbase : base < 0) :
    ∃ held, (withDecay rate).decay base 0 = .ok held ∧ held ≤ .tenths 3 := by
  obtain ⟨product, hproduct, hunits⟩ := base.exists_mul_one
  have hlow : product ≤ ({} : ConfidenceSettings).leastScore := by
    rw [Decimal.le_iff_units_le, hunits]
    exact le_of_lt (lt_trans hbase (leastScore_pos _))
  refine ⟨_, decay_zero hproduct, ?_⟩
  rw [bounded_withDecay]
  exact le_trans (bounded_le_bounded (q := 0) (.inr hlow)) (by decide)

/-- A score below zero comes back: under some decay it is worth a half and more after a day. -/
theorem exists_product_of_neg (hbase : base < 0) : ∃ rate factor product : Decimal, 0 ≤ rate ∧
    (withDecay rate).factor 1 = .ok factor ∧ base.mul factor = .ok product ∧
      .tenths 5 ≤ product := by
  have hunits : base.units < 0 := hbase
  rcases lt_or_ge (-tenPow 28 : Int) base.units with hsmall | hlarge
  · -- above minus one, a decay so steep that it makes up for the smallest score there is
    have hfactor : (withDecay ⟨false, tenPow 28, 0, by decide, by decide⟩).factor 1 =
        .ok ⟨true, tenPow 28 - 1, 0, by decide, by decide⟩ := by
      decide +kernel
    have hsteep : (⟨true, tenPow 28 - 1, 0, by decide, by decide⟩ : Decimal).units =
        -9999999999999999999999999999 * tenPow 28 := by decide
    have hbound : base.AtMost 1 := Decimal.atMost_iff.2 (by omega)
    obtain ⟨product, hproduct, -⟩ := Decimal.exists_mul_atMost hbound
      (Decimal.atMost_iff.2 (by rw [hsteep]; decide) : Decimal.AtMost (tenPow 28) _) (by decide)
    refine ⟨_, _, product, by decide, hfactor, hproduct, ?_⟩
    refine Decimal.le_of_rounded_le (Decimal.rounded_units _).symm (Decimal.units_of_mul hproduct) ?_
    have hhalf : (Decimal.tenths 5).units = 5000000000000000000000000000 := by decide
    have hpow : (tenPow 28 : Int) = 10000000000000000000000000000 := by decide
    rw [hhalf, hsteep, hpow]
    omega
  · -- from minus one on, a decay that turns the sign around
    have hfactor : (withDecay (.whole 2)).factor 1 = .ok (-.whole 1) := by decide +kernel
    have hminus : (-Decimal.whole 1).units = -tenPow 28 := by decide
    obtain ⟨product, hproduct, hvalue⟩ := Decimal.exists_mul_of_units (a := base)
      (b := -.whole 1) (d := -base) (by rw [hminus, Decimal.units_neg, Int.neg_mul, Int.mul_neg])
    refine ⟨_, _, product, by decide, hfactor, hproduct, ?_⟩
    have hhalf : (Decimal.tenths 5).units ≤ tenPow 28 := by decide
    rw [Decimal.le_iff_units_le, hvalue, Decimal.units_neg]
    omega

/-- So it is raised under some settings that pass the check. -/
theorem exists_raised (hbase : base < 0) : ∃ s : ConfidenceSettings, s.flaw? = none ∧
    ∃ score held, s.decay base 1 = .ok score ∧ s.decay base 0 = .ok held ∧ held < score := by
  obtain ⟨rate, factor, product, hrate, hfactor, hproduct, hhalf⟩ := exists_product_of_neg hbase
  obtain ⟨held, hheld, hle⟩ := exists_decay_zero_of_neg rate hbase
  refine ⟨withDecay rate, flaw?_withDecay hrate, _, held,
    decay_eq_ok_iff.2 ⟨factor, product, hfactor, hproduct, rfl⟩, hheld, ?_⟩
  have hscore : .tenths 5 ≤ (withDecay rate).bounded product := by
    rw [bounded_withDecay]
    exact le_trans (by decide) (bounded_le_bounded (p := .tenths 5) (.inl hhalf))
  exact lt_of_le_of_lt hle (lt_of_lt_of_le (by decide) hscore)

/-- **Whose scores are not raised.** The occurrences of a definition are worth no more than what it is
worth at no distance, under all settings that pass the check and on all dates from today on, if and only
if no score below zero is stored of it. -/
theorem occurrenceScore_le_held_iff (r : Recurring) :
    (∀ s : ConfidenceSettings, s.flaw? = none → ∀ today date : Date, today ≤ date → ∀ score,
      s.occurrenceScore r date today = .ok score →
        ∃ held, s.decay (s.baseScore r) 0 = .ok held ∧ score ≤ held) ↔
      ∀ stored, r.confidence = some stored → 0 ≤ stored := by
  constructor
  · intro h stored hr
    refine Decimal.not_lt_iff_le.1 fun hneg => ?_
    obtain ⟨s, hs, score, held, hscore, hheld, hlt⟩ := exists_raised hneg
    have hday : Date.earliest.next.daysSince Date.earliest = 1 := by decide
    rw [← baseScore_of_stored s hr] at hscore hheld
    rw [← hday] at hscore
    obtain ⟨held', hheld', hle⟩ := h s hs _ _ (by decide) score hscore
    obtain rfl := Except.ok.inj (hheld'.symm.trans hheld)
    exact not_le_of_gt hlt hle
  · intro hr s hs today date hle score hscore
    have hrate := (flaw?_eq_none_iff.1 hs).2.2
    have hbase : 0 ≤ s.baseScore r := by
      cases hc : r.confidence with
      | none => exact (baseScore_between hs hc).1
      | some stored =>
        rw [baseScore_of_stored s hc]
        exact hr stored hc
    have hdays : 0 ≤ date.daysSince today := Int.sub_nonneg_of_le hle
    exact exists_held hrate hbase hdays hscore

/-- Under the standard settings a definition with minus five stored is at the floor today, and sure in
seven hundred days. -/
theorem stored_debt_raised :
    let s : ConfidenceSettings := {}
    let r : Recurring :=
      { id := { value := 20 }, household := { value := 1 }, name := "flat", amount := .whole 800,
        anchorDay := 31, confidence := some (-.whole 5) }
    let today : Date := ⟨0, by decide, by decide⟩
    let date : Date := ⟨700, by decide, by decide⟩
    s.flaw? = none ∧ today ≤ date ∧ s.occurrenceScore r date today = .ok 1 ∧
      s.decay (s.baseScore r) 0 = .ok (.tenths 3) ∧ ¬ (1 : Decimal) ≤ .tenths 3 := by
  decide +kernel

end ConfidenceSettings

end Forecast
