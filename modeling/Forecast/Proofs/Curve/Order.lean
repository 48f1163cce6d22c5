import Forecast.Proofs.Confidence.Order
import Forecast.Proofs.Curve.Alerts
import Forecast.Proofs.Curve.Scored

/-!
# Curves of events in another order

The events of a day are added up in the order in which they come, and so are the days. Where the amounts
can be added exactly this order does not count for the values: events in another order have a curve that
says the same at each point (`exists_balanceCurve_of_perm`), and curves that say the same at each point
have the same alerts (`Alert.sameValues_ofCurve`). How an amount is written may differ, for a zero among
the terms of a sum hands the others on with the places they have.
-/

namespace Forecast

open Decimal (Within mantissaBound)

/-- The points say the same: the same day, amounts of the same value, as many events, and the very same
score. -/
structure BalancePoint.SameValues (p p' : BalancePoint) : Prop where
  figures : p.toScenarioPoint.figures = p'.toScenarioPoint.figures
  confidence : p.confidence = p'.confidence

namespace BalancePoint.SameValues

variable {p p' : BalancePoint}

theorem date (h : p.SameValues p') : p.date = p'.date :=
  congrArg Figures.date h.figures

theorem balance (h : p.SameValues p') : p.balance.units = p'.balance.units :=
  congrArg Figures.balance h.figures

end BalancePoint.SameValues

/-- Points with the same figures take over the scores of a curve. -/
theorem exists_scored_of_figures {curve : List BalancePoint} {ps : List ScenarioPoint}
    (h : curve.map (fun p => p.toScenarioPoint.figures) = ps.map ScenarioPoint.figures) :
    ∃ curve', curve'.map BalancePoint.toScenarioPoint = ps ∧
      List.Forall₂ BalancePoint.SameValues curve curve' := by
  induction curve generalizing ps with
  | nil =>
    rw [List.map_eq_nil_iff.1 h.symm]
    exact ⟨[], rfl, .nil⟩
  | cons p curve ih =>
    cases ps with
    | nil => cases h
    | cons q ps =>
      obtain ⟨hfigures, hrest⟩ := List.cons.inj h
      obtain ⟨curve', rfl, hsame⟩ := ih hrest
      exact ⟨⟨q.date, q.balance, p.confidence, q.netChange, q.eventCount⟩ :: curve', rfl,
        .cons ⟨hfigures, rfl⟩ hsame⟩

section Perm

variable {s m : Nat} {es es' : List Event} {w : Window} {start start' : Decimal}
  {settings : ConfidenceSettings} {curve : List BalancePoint}

/-- Events in another order have a scenario curve with the same figures. -/
theorem exists_scenarioCurve_of_perm (hs : s ≤ 28) (hperm : es.Perm es')
    (hscale : ∀ e ∈ es, e.amount.scale ≤ s) (hstart : Within s m start) (hstart' : Within s m start')
    (hunits : start.units = start'.units) (hsize : m + Event.size s es < mantissaBound)
    (h : balanceCurve es w start settings = .ok curve) :
    ∃ ps, scenarioCurve es' w start' = .ok ps ∧
      curve.map (fun p => p.toScenarioPoint.figures) = ps.map ScenarioPoint.figures := by
  rw [Event.size_perm hperm] at hsize
  obtain ⟨ps, hps, hfigures⟩ := scenarioCurve_figures (w := w) hs
    (fun e he => hscale e (hperm.mem_iff.2 he)) hstart' hsize
  rw [← Event.size_perm hperm] at hsize
  refine ⟨ps, hps, ?_⟩
  rw [balanceCurve_figures hs hscale hstart hsize h, hfigures, hunits]
  refine List.map_congr_left ?_
  intro d _
  rw [Event.total_perm (hperm.filter _), Event.total_perm (hperm.filter _),
    (hperm.filter _).length_eq]

/-- Events in another order have a curve that says the same. -/
theorem exists_balanceCurve_of_perm (hs : s ≤ 28) (hperm : es.Perm es')
    (hscale : ∀ e ∈ es, e.amount.scale ≤ s) (hstart : Within s m start) (hstart' : Within s m start')
    (hunits : start.units = start'.units) (hsize : m + Event.size s es < mantissaBound)
    (hheld : ∀ e ∈ es, HeldScore e.confidence) (hcount : es.length < UInt64.size)
    (h : balanceCurve es w start settings = .ok curve) :
    ∃ curve', balanceCurve es' w start' settings = .ok curve' ∧
      List.Forall₂ BalancePoint.SameValues curve curve' := by
  obtain ⟨ps, hps, hfigures⟩ :=
    exists_scenarioCurve_of_perm hs hperm hscale hstart hstart' hunits hsize h
  obtain ⟨curve', rfl, hsame⟩ := exists_scored_of_figures hfigures
  refine ⟨curve', balanceCurve_eq_ok_iff.2 ⟨hps, ?_⟩, hsame⟩
  intro p' hp'
  obtain ⟨p, hp, hpp'⟩ := exists_of_mem_right hsame hp'
  -- the events of the day are the same in another order
  have hscore := (balanceCurve_eq_ok_iff.1 h).2 p hp
  have hday := hperm.filter fun e => e.date == p.date
  have hdayheld : ∀ e ∈ es.filter (fun e => e.date == p.date), HeldScore e.confidence := by
    intro e he
    exact hheld e (List.mem_of_mem_filter he)
  rw [settings.dayScore_perm hdayheld (lt_of_le_of_lt (List.length_filter_le _ _) hcount) hday]
    at hscore
  rw [← hpp'.date, ← hpp'.confidence]
  exact hscore

end Perm

/-! ## Alerts -/

/-- The alerts say the same: of the same kind, about the same day and with a balance of the same
value. -/
structure Alert.SameValues (a a' : Alert) : Prop where
  kind : a.kind = a'.kind
  date : a.date = a'.date
  balance : a.balance.units = a'.balance.units
  threshold : a.threshold = a'.threshold
  severity : a.severity = a'.severity
  daysUntil : a.daysUntil = a'.daysUntil

/-- The first points below a limit say the same. -/
theorem BalancePoint.sameValues_find? {curve curve' : List BalancePoint}
    (h : List.Forall₂ BalancePoint.SameValues curve curve') (limit : Decimal) :
    Option.Rel BalancePoint.SameValues (curve.find? fun p => p.balance < limit)
      (curve'.find? fun p => p.balance < limit) := by
  induction h with
  | nil => exact .none
  | @cons p p' curve curve' hpp' _ ih =>
    have hiff : p.balance < limit ↔ p'.balance < limit := by
      rw [Decimal.lt_iff_units_lt, Decimal.lt_iff_units_lt, hpp'.balance]
    by_cases hp : p.balance < limit
    · rw [List.find?_cons_of_pos (by simpa using hp), List.find?_cons_of_pos (by simpa using hiff.1 hp)]
      exact .some hpp'
    · rw [List.find?_cons_of_neg (by simpa using hp),
        List.find?_cons_of_neg (by simpa using fun hp' => hp (hiff.2 hp'))]
      exact ih

namespace Alert

variable {p p' : BalancePoint} {curve curve' : List BalancePoint}

theorem sameValues_low (h : p.SameValues p') (threshold : Decimal) (today : Date) :
    (low p threshold today).SameValues (low p' threshold today) := by
  have hnegative : p.balance < 0 ↔ p'.balance < 0 := by
    rw [Decimal.lt_iff_units_lt, Decimal.lt_iff_units_lt, h.balance]
  refine ⟨rfl, h.date, h.balance, rfl, ?_, ?_⟩
  · simp only [low, hnegative]
  · simp only [low, h.date]

theorem sameValues_negative (h : p.SameValues p') (today : Date) :
    (negative p today).SameValues (negative p' today) := by
  refine ⟨rfl, h.date, h.balance, rfl, rfl, ?_⟩
  simp only [negative, h.date]

/-- Curves that say the same have alerts that say the same. -/
theorem sameValues_ofCurve (h : List.Forall₂ BalancePoint.SameValues curve curve')
    (threshold : Decimal) (today : Date) :
    List.Forall₂ SameValues (ofCurve curve threshold today) (ofCurve curve' threshold today) := by
  have hlows := BalancePoint.sameValues_find? h threshold
  have hnegatives := BalancePoint.sameValues_find? h 0
  generalize hl : (curve.find? fun p => p.balance < threshold) = l at hlows
  generalize hl' : (curve'.find? fun p => p.balance < threshold) = l' at hlows
  generalize hn : (curve.find? fun p => p.balance < 0) = n at hnegatives
  generalize hn' : (curve'.find? fun p => p.balance < 0) = n' at hnegatives
  rw [ofCurve_eq hl hn, ofCurve_eq hl' hn']
  cases hlows with
  | none =>
    cases hnegatives with
    | none => exact .nil
    | some hnegative => exact .cons (sameValues_negative hnegative today) .nil
  | some hlow =>
    have hfirst := sameValues_low hlow threshold today
    cases hnegatives with
    | none => exact .cons hfirst .nil
    | some hnegative =>
      have hsecond := sameValues_negative hnegative today
      -- the dates stand to each other in the same way
      dsimp only
      rw [hlow.date, hnegative.date]
      split
      · exact .cons hfirst .nil
      · split
        · exact .cons hfirst (.cons hsecond .nil)
        · exact .cons hsecond (.cons hfirst .nil)

end Alert

end Forecast
