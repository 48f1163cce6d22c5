import Forecast.Proofs.Curve.Figures

/-!
# Scored curves

A curve is a scenario curve with a score at each of its points: it has a value where the scenario curve
has one and each day has a score (`balanceCurve_eq_ok_iff`). The score of a day goes by the events of
the day and by its distance from the first day of the window, and by nothing that a day hands on.
-/

namespace Forecast

/-- The point of a day, with its score. -/
def BalancePoint.ofDay (s : ConfidenceSettings) (w : Window) (date : Date) (es : List Event)
    (net balance : Decimal) : Checked BalancePoint := do
  return {
    date, balance
    confidence := ← s.dayScore es (w.offsetOf date)
    netChange := net
    eventCount := es.length }

theorem balanceCurve_eq_trace (events : List Event) (w : Window) (start : Decimal)
    (s : ConfidenceSettings) :
    balanceCurve events w start s =
      Walk.trace (fun d => events.filter fun e => e.date == d) (BalancePoint.ofDay s w) start w.days :=
  Walk.along_eq_trace events w start (BalancePoint.ofDay s w)

namespace BalancePoint

variable {s : ConfidenceSettings} {w : Window} {on : Date → List Event} {start : Decimal}
  {ds : List Date} {curve : List BalancePoint} {d : Date} {es : List Event} {net balance : Decimal}
  {p : BalancePoint}

theorem of_ofDay (h : ofDay s w d es net balance = .ok p) :
    p.date = d ∧ p.balance = balance ∧ s.dayScore es (w.offsetOf d) = .ok p.confidence := by
  obtain ⟨score, hscore, hp⟩ := bind_eq_ok_iff.1 h
  rw [← pure_eq_ok_iff.1 hp]
  exact ⟨rfl, rfl, hscore⟩

/-- There is a point for each day. -/
theorem dates_of_trace (h : Walk.trace on (ofDay s w) start ds = .ok curve) :
    curve.map BalancePoint.date = ds := by
  have hread := Walk.trace_read (g := fun d _ => d) (fun _ _ _ _ _ hp => (of_ofDay hp).1) h
  exact hread.trans (List.map_id _)

/-- The point of a day is its point in a scenario and its score. -/
theorem ofDay_eq_ok_iff : ofDay s w d es net balance = .ok p ↔
    ScenarioPoint.ofDay d es net balance = .ok p.toScenarioPoint ∧
      s.dayScore es (w.offsetOf d) = .ok p.confidence := by
  constructor
  · intro h
    obtain ⟨score, hscore, hp⟩ := bind_eq_ok_iff.1 h
    rw [← pure_eq_ok_iff.1 hp]
    exact ⟨rfl, hscore⟩
  · rintro ⟨hpoint, hscore⟩
    obtain ⟨date, balance, confidence, net, count⟩ := p
    cases hpoint
    exact bind_eq_ok_iff.2 ⟨confidence, hscore, rfl⟩

/-- The walk with scores is the walk without them, and a score for each day. -/
theorem trace_eq_ok_iff : Walk.trace on (ofDay s w) start ds = .ok curve ↔
    Walk.trace on ScenarioPoint.ofDay start ds = .ok (curve.map toScenarioPoint) ∧
      ∀ p ∈ curve, s.dayScore (on p.date) (w.offsetOf p.date) = .ok p.confidence := by
  induction ds generalizing start curve with
  | nil =>
    constructor
    · intro h
      cases Except.ok.inj h
      exact ⟨rfl, fun p hp => absurd hp List.not_mem_nil⟩
    · rintro ⟨h, -⟩
      rw [List.map_eq_nil_iff.1 (Except.ok.inj h).symm]
      rfl
  | cons day ds ih =>
    simp only [Walk.trace_cons_eq_ok_iff, ofDay_eq_ok_iff]
    constructor
    · rintro ⟨net, hnet, next, hnext, p, ⟨hpoint, hscore⟩, rest, hrest, rfl⟩
      obtain ⟨hrest, hscores⟩ := ih.1 hrest
      refine ⟨⟨net, hnet, next, hnext, _, hpoint, _, hrest, rfl⟩, ?_⟩
      have hdate : day = p.date := congrArg ScenarioPoint.date (Except.ok.inj hpoint)
      exact List.forall_mem_cons.2 ⟨hdate ▸ hscore, hscores⟩
    · rintro ⟨⟨net, hnet, next, hnext, q, hpoint, rest, hrest, heq⟩, hscores⟩
      cases curve with
      | nil => cases heq
      | cons p curve =>
        obtain ⟨hp, hcurve⟩ := List.forall_mem_cons.1 hscores
        obtain ⟨rfl, rfl⟩ := List.cons.inj heq
        have hdate : day = p.date := congrArg ScenarioPoint.date (Except.ok.inj hpoint)
        exact ⟨net, hnet, next, hnext, p, ⟨hpoint, hdate ▸ hp⟩, curve, ih.2 ⟨hrest, hcurve⟩, rfl⟩

/-- A walk without scores can be scored where each of its days has a score. -/
theorem exists_trace {points : List ScenarioPoint}
    (h : Walk.trace on ScenarioPoint.ofDay start ds = .ok points)
    (hscores : ∀ d ∈ ds, ∃ score, s.dayScore (on d) (w.offsetOf d) = .ok score) :
    ∃ curve, Walk.trace on (ofDay s w) start ds = .ok curve := by
  induction ds generalizing start points with
  | nil => exact ⟨[], rfl⟩
  | cons day ds ih =>
    obtain ⟨⟨score, hscore⟩, hscores⟩ := List.forall_mem_cons.1 hscores
    obtain ⟨net, hnet, next, hnext, _, -, rest, hrest, -⟩ := Walk.trace_cons_eq_ok_iff.1 h
    obtain ⟨curve, hcurve⟩ := ih hrest hscores
    have hday : ofDay s w day (on day) net next = .ok ⟨day, next, score, net, (on day).length⟩ :=
      bind_eq_ok_iff.2 ⟨score, hscore, rfl⟩
    exact ⟨_, Walk.trace_cons_eq_ok_iff.2 ⟨net, hnet, next, hnext, _, hday, curve, hcurve, rfl⟩⟩

end BalancePoint

variable {events : List Event} {w : Window} {start : Decimal} {s : ConfidenceSettings}
  {curve : List BalancePoint}

theorem dates_balanceCurve (h : balanceCurve events w start s = .ok curve) :
    curve.map BalancePoint.date = w.days := by
  rw [balanceCurve_eq_trace] at h
  exact BalancePoint.dates_of_trace h

/-- A curve is a scenario curve with the score of each of its days. -/
theorem balanceCurve_eq_ok_iff : balanceCurve events w start s = .ok curve ↔
    scenarioCurve events w start = .ok (curve.map BalancePoint.toScenarioPoint) ∧
      ∀ p ∈ curve, s.dayScore (events.filter fun e => e.date == p.date) (w.offsetOf p.date) =
        .ok p.confidence := by
  rw [balanceCurve_eq_trace, scenarioCurve_eq_trace]
  exact BalancePoint.trace_eq_ok_iff

/-- There is a curve where there is a scenario curve and each day has a score. -/
theorem exists_balanceCurve {points : List ScenarioPoint} (h : scenarioCurve events w start = .ok points)
    (hscores : ∀ d ∈ w.days, ∃ score,
      s.dayScore (events.filter fun e => e.date == d) (w.offsetOf d) = .ok score) :
    ∃ curve, balanceCurve events w start s = .ok curve := by
  rw [scenarioCurve_eq_trace] at h
  rw [balanceCurve_eq_trace]
  exact BalancePoint.exists_trace h hscores

end Forecast
