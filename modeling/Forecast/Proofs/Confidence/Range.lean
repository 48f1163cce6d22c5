import Forecast.Proofs.Curve.Trace
import Forecast.Proofs.Decimal.Order
import Forecast.Proofs.Event.Expected
import Forecast.Proofs.Source.Memory

/-!
# The range of scores

Every score goes through `ConfidenceSettings.bounded` last, and what comes out of it is a held score
(`held_bounded`): the larger one of anything and a floor, cut at one, lies between the lowest floor and
one, and rounding to two places does not lead past either, since both have no more places. Whatever
the settings and the stored scores are, and however a mean was rounded on the way, the events of an
outlook and the points of a curve have held scores: `Outlook.scores_held`.
-/

namespace Forecast

/-- A score from 0.3 to one with at most two places. -/
structure HeldScore (score : Decimal) : Prop where
  least_le : .tenths 3 ≤ score
  le_one : score ≤ 1
  scale_le : score.scale ≤ 2

namespace ConfidenceSettings

variable {s : ConfidenceSettings} {base score c : Decimal} {days : Int}

theorem held_bounded (s : ConfidenceSettings) (score : Decimal) : HeldScore (s.bounded score) := by
  have hleast : .tenths 3 ≤ s.leastScore := Decimal.right_le_max s.floor leastFloor
  have hraised : .tenths 3 ≤ max score s.leastScore :=
    le_trans hleast (Decimal.right_le_max score s.leastScore)
  have hcut : .tenths 3 ≤ min (max score s.leastScore) 1 :=
    Decimal.le_min_of_le hraised (by decide)
  exact ⟨Decimal.le_roundTo (by decide) (by decide) hcut,
    Decimal.roundTo_le (by decide) (by decide) (Decimal.min_le_right _ _),
    Decimal.scale_roundTo_le _ _⟩

/-- What is left of a whole score at a distance in days, before it is held. -/
def factor (s : ConfidenceSettings) (days : Int) : Checked Decimal := do
  let days ← Checked.ofOption .multiplication (Decimal.ofInt? days)
  (1 : Decimal).sub (← days.mul s.decayPerDay)

theorem factor_eq_ok_iff : s.factor days = .ok c ↔ ∃ distance share,
    Decimal.ofInt? days = some distance ∧ distance.mul s.decayPerDay = .ok share ∧
      (1 : Decimal).sub share = .ok c := by
  unfold ConfidenceSettings.factor
  simp only [bind_eq_ok_iff, Checked.ofOption_eq_ok_iff]
  constructor
  · rintro ⟨distance, hdistance, share, hshare, h⟩
    exact ⟨distance, share, hdistance, hshare, h⟩
  · rintro ⟨distance, share, hdistance, hshare, h⟩
    exact ⟨distance, hdistance, share, hshare, h⟩

theorem decay_eq_ok_iff : s.decay base days = .ok score ↔ ∃ factor product,
    s.factor days = .ok factor ∧ base.mul factor = .ok product ∧ s.bounded product = score := by
  unfold decay ConfidenceSettings.factor
  simp only [bind_eq_ok_iff, pure_eq_ok_iff]
  constructor
  · rintro ⟨distance, hdistance, share, hshare, factor, hfactor, product, hproduct, h⟩
    exact ⟨factor, product, ⟨distance, hdistance, share, hshare, hfactor⟩, hproduct, h⟩
  · rintro ⟨factor, product, ⟨distance, hdistance, share, hshare, hfactor⟩, hproduct, h⟩
    exact ⟨distance, hdistance, share, hshare, factor, hfactor, product, hproduct, h⟩

theorem held_decay (h : s.decay base days = .ok score) : HeldScore score := by
  obtain ⟨-, product, -, -, rfl⟩ := decay_eq_ok_iff.1 h
  exact held_bounded s product

/-- A day's score is what some mean decays to. -/
theorem exists_decay_of_dayScore {events : List Event} {offset : Int}
    (h : s.dayScore events offset = .ok score) : ∃ mean, s.decay mean offset = .ok score := by
  unfold dayScore at h
  split at h
  · exact ⟨1, h⟩
  · obtain ⟨mean, -, h⟩ := bind_eq_ok_iff.1 h
    exact ⟨mean, h⟩

theorem held_dayScore {events : List Event} {offset : Int}
    (h : s.dayScore events offset = .ok score) : HeldScore score := by
  obtain ⟨mean, hmean⟩ := exists_decay_of_dayScore h
  exact held_decay hmean

end ConfidenceSettings

namespace Outlook

variable {o : Outlook} {e : Event} {es : List Event}

theorem held_pendingEvents (o : Outlook) (entries : List Entry) :
    ∀ e ∈ o.pendingEvents entries, HeldScore e.confidence := by
  intro e he
  obtain ⟨entry, -, rfl⟩ := List.mem_map.1 he
  exact o.confidence.held_bounded o.confidence.pending

theorem held_occurrenceEvent {r : Recurring} {d : Date} (h : o.occurrenceEvent r d = .ok e) :
    HeldScore e.confidence := by
  obtain ⟨score, hscore, h⟩ := bind_eq_ok_iff.1 h
  rw [← pure_eq_ok_iff.1 h]
  exact ConfidenceSettings.held_decay hscore

theorem held_definitionEvents {r : Recurring} (h : o.definitionEvents r = .ok es) :
    ∀ e ∈ es, HeldScore e.confidence := by
  obtain ⟨dates, -, hes⟩ := bind_eq_ok_iff.1 h
  rw [mapM_eq_ok_iff] at hes
  intro e he
  obtain ⟨d, -, hd⟩ := exists_of_mem_right hes he
  exact held_occurrenceEvent hd

theorem held_recurringEvents {definitions : List Recurring}
    (h : o.recurringEvents definitions = .ok es) : ∀ e ∈ es, HeldScore e.confidence := by
  obtain ⟨lists, hlists, rfl⟩ := recurringEvents_eq_ok_iff.1 h
  intro e he
  obtain ⟨l, hl, hel⟩ := List.mem_flatten.1 he
  obtain ⟨r, -, hr⟩ := exists_of_mem_right hlists hl
  exact held_definitionEvents hr e hel

end Outlook

theorem held_balanceCurve {events : List Event} {w : Window} {start : Decimal}
    {s : ConfidenceSettings} {curve : List BalancePoint}
    (h : balanceCurve events w start s = .ok curve) : ∀ p ∈ curve, HeldScore p.confidence := by
  rw [balanceCurve, Walk.along_eq_trace] at h
  refine Walk.trace_forall ?_ h
  intro d es net balance p hp
  obtain ⟨score, hscore, hp⟩ := bind_eq_ok_iff.1 hp
  rw [← pure_eq_ok_iff.1 hp]
  exact ConfidenceSettings.held_dayScore hscore

namespace Outlook

theorem held_of_mem_events {o : Outlook} {es : List Event} {entries : List Entry}
    {definitions : List Recurring}
    (h : o.events entries definitions = .ok es) : ∀ e ∈ es, HeldScore e.confidence := by
  obtain ⟨rs, hrs, hperm⟩ := perm_of_events h
  intro e he
  rcases List.mem_append.1 (hperm.mem_iff.1 he) with he | he
  · exact held_pendingEvents o entries e he
  · exact held_recurringEvents hrs e he

/-- **Scores are held.** Under any settings, checked or not, the expected events of any entries and
definitions and the points of a curve over any events have scores from 0.3 to one with at most two
places, wherever there is no fault. -/
theorem scores_held (o : Outlook) (entries : List Entry) (definitions : List Recurring) :
    (∀ e ∈ o.pendingEvents entries, HeldScore e.confidence) ∧
    (∀ es, o.recurringEvents definitions = .ok es → ∀ e ∈ es, HeldScore e.confidence) ∧
    (∀ es, o.events entries definitions = .ok es → ∀ e ∈ es, HeldScore e.confidence) ∧
    ∀ (events : List Event) (w : Window) (start : Decimal) (curve : List BalancePoint),
      balanceCurve events w start o.confidence = .ok curve →
        ∀ p ∈ curve, HeldScore p.confidence :=
  ⟨held_pendingEvents o entries, fun _ => held_recurringEvents, fun _ => held_of_mem_events,
    fun _ _ _ _ => held_balanceCurve⟩

end Outlook

namespace Sample

/-- Settings that no check would pass: a score above one, a floor below zero, and scores that rise with
distance. -/
def unchecked : ConfidenceSettings where
  pending := .whole 5
  newRecurring := .hundredths 35
  decayPerDay := -.thousandths 7
  floor := -.whole 1

/-- The household seen with the unchecked settings. -/
def uncheckedOutlook : Outlook :=
  { session.outlook with confidence := unchecked }

end Sample

namespace Outlook

/-- Under the unchecked settings the day with five events still has the rounded mean of held scores. -/
theorem sample_unchecked : ∃ es curve,
    Sample.uncheckedOutlook.events Sample.snapshot.entries Sample.snapshot.recurring = .ok es ∧
    balanceCurve es Sample.window 0 Sample.unchecked = .ok curve ∧
    curve.map BalancePoint.confidence = [.hundredths 37, .hundredths 63, .hundredths 38] ∧
    (∀ e ∈ es, HeldScore e.confidence) ∧ ∀ p ∈ curve, HeldScore p.confidence := by
  obtain ⟨es, hes⟩ : ∃ es, Sample.uncheckedOutlook.events Sample.snapshot.entries
      Sample.snapshot.recurring = .ok es :=
    exists_eq_ok (by decide +kernel)
  have hscores : (Sample.uncheckedOutlook.events Sample.snapshot.entries
      Sample.snapshot.recurring >>= fun es =>
        (balanceCurve es Sample.window 0 Sample.unchecked).map
          fun curve => curve.map BalancePoint.confidence) =
      .ok [.hundredths 37, .hundredths 63, .hundredths 38] := by
    decide +kernel
  rw [hes, ok_bind] at hscores
  obtain ⟨curve, hcurve⟩ : ∃ curve,
      balanceCurve es Sample.window 0 Sample.unchecked = .ok curve := by
    cases h : balanceCurve es Sample.window 0 Sample.unchecked with
    | error fault =>
      rw [h] at hscores
      cases hscores
    | ok curve => exact ⟨curve, rfl⟩
  rw [hcurve] at hscores
  obtain ⟨-, -, hevents, hpoints⟩ :=
    scores_held Sample.uncheckedOutlook Sample.snapshot.entries Sample.snapshot.recurring
  exact ⟨es, curve, hes, hcurve, Except.ok.inj hscores, hevents es hes,
    hpoints es Sample.window 0 curve hcurve⟩

end Outlook

end Forecast
