import Forecast.Curve.Daily
import Forecast.Proofs.Decimal.ExactSum
import Forecast.Proofs.Event.ByDay
import Forecast.Proofs.Success

/-!
# Traces

A walk along a window as a recursion on the days that are left. The points of a trace are in the
order of the days, the events of a day are given by a function, and all that one day hands on to the
next is the balance.

## Main statements

* `along_eq_trace`: a walk along a window is the trace of its days, each with the events of its date.
* `trace_append`: the trace of the first days and then of the others, which starts where that one ends.
* `scenarioCurve_of_balanceCurve`: where a curve has a value, the points of the scenario curve are
  those of the curve without their scores.
* `scenarioCurve_counts`: there is a point for each day, with the number of the events of its date.
-/

namespace Forecast

namespace Walk

variable {π : Type} {on : Date → List Event}
  {point : Date → List Event → Decimal → Decimal → Checked π}

/-- The points of days, from the first one on, with the balance carried from day to day. -/
def trace (on : Date → List Event) (point : Date → List Event → Decimal → Decimal → Checked π)
    (balance : Decimal) : List Date → Checked (List π)
  | [] => .ok []
  | day :: days => do
    let net ← Event.netChange (on day)
    let balance ← balance.add net
    let p ← point day (on day) net balance
    return p :: (← trace on point balance days)

/-- A walk makes the points of the trace and puts them in front of those made before. -/
theorem foldlM_step (days : Event.Days) (walk : Walk π) (ds : List Date) :
    (ds.foldlM (step days point) walk).map Walk.points =
      (trace days.on point walk.balance ds).map fun ps => ps.reverse ++ walk.points := by
  induction ds generalizing walk with
  | nil => rfl
  | cons day ds ih =>
    rw [List.foldlM_cons, trace, step]
    -- a day can fail in three places, and the walk fails where the trace does
    cases Event.netChange (days.on day) with
    | error e => rfl
    | ok net =>
      simp only [bind, Except.bind]
      cases walk.balance.add net with
      | error e => rfl
      | ok balance =>
        simp only
        cases point day (days.on day) net balance with
        | error e => rfl
        | ok p =>
          simp only [pure, Except.pure]
          rw [ih]
          cases trace days.on point balance ds with
          | error e => rfl
          | ok ps => simp [Except.map]

theorem along_eq_trace (events : List Event) (w : Window) (start : Decimal)
    (point : Date → List Event → Decimal → Decimal → Checked π) :
    along events w start point =
      trace (fun d => events.filter fun e => e.date == d) point start w.days := by
  have hon : (Event.byDay events).on = fun d => events.filter fun e => e.date == d :=
    funext (Event.on_byDay events)
  have hrev : along events w start point =
      ((w.days.foldlM (step (Event.byDay events) point) ⟨start, []⟩).map Walk.points).map
        List.reverse := by
    unfold along
    cases w.days.foldlM (step (Event.byDay events) point) ⟨start, []⟩ <;> rfl
  rw [hrev, foldlM_step, hon]
  cases trace (fun d => events.filter fun e => e.date == d) point start w.days with
  | error e => rfl
  | ok ps => simp [Except.map]

/-- What the first day of a trace with a value gives. -/
theorem trace_cons_eq_ok_iff {balance : Decimal} {day : Date} {ds : List Date} {ps : List π} :
    trace on point balance (day :: ds) = .ok ps ↔
      ∃ net, Event.netChange (on day) = .ok net ∧ ∃ next, balance.add net = .ok next ∧
        ∃ p, point day (on day) net next = .ok p ∧ ∃ rest, trace on point next ds = .ok rest ∧
          p :: rest = ps := by
  rw [trace]
  simp only [bind_eq_ok_iff, pure_eq_ok_iff]

/-- A trace sees no more of the events than those of its days. -/
theorem trace_congr {on' : Date → List Event} {balance : Decimal} {ds : List Date}
    (h : ∀ d ∈ ds, on d = on' d) : trace on point balance ds = trace on' point balance ds := by
  induction ds generalizing balance with
  | nil => rfl
  | cons day ds ih =>
    rw [trace, trace, h day List.mem_cons_self]
    simp only [ih fun d hd => h d (List.mem_cons_of_mem _ hd)]

/-- What the last of some points shows is shown by the last of them and one in front, which shows its
own where there are no others. -/
theorem lastOr_cons {β : Type} (f : π → β) (p : π) (ps : List π) (b : β) :
    ((p :: ps).getLast?.map f).getD b = (ps.getLast?.map f).getD (f p) := by
  rw [List.getLast?_cons]
  cases ps.getLast? <;> rfl

/-- A trace can be cut: the second part starts with the balance at which the first part ends. -/
theorem trace_append {balanceOf : π → Decimal}
    (hpoint : ∀ d es net balance p, point d es net balance = .ok p → balanceOf p = balance)
    (balance : Decimal) (ds ds' : List Date) :
    trace on point balance (ds ++ ds') = (do
      let ps ← trace on point balance ds
      let qs ← trace on point ((ps.getLast?.map balanceOf).getD balance) ds'
      return ps ++ qs) := by
  induction ds generalizing balance with
  | nil => exact (bind_pure _).symm
  | cons day ds ih =>
    rw [List.cons_append, trace, trace]
    simp only [bind_assoc, pure_bind]
    refine bind_congr fun net => bind_congr fun next => ?_
    cases hp : point day (on day) net next with
    | error e => rfl
    | ok p =>
      rw [ok_bind, ok_bind, ih next, bind_assoc]
      refine bind_congr fun ps => ?_
      rw [lastOr_cons, hpoint _ _ _ _ _ hp, bind_assoc]
      simp only [pure_bind, List.cons_append]

/-- Traces that differ in how they make a point agree in what they make of it. -/
theorem trace_map {ρ : Type} {f : π → ρ}
    {other : Date → List Event → Decimal → Decimal → Checked ρ}
    (hpoint : ∀ d es net balance p, point d es net balance = .ok p →
      other d es net balance = .ok (f p))
    {balance : Decimal} {ds : List Date} {ps : List π} (h : trace on point balance ds = .ok ps) :
    trace on other balance ds = .ok (ps.map f) := by
  induction ds generalizing balance ps with
  | nil => cases h; rfl
  | cons day ds ih =>
    obtain ⟨net, hnet, next, hnext, p, hp, rest, hrest, rfl⟩ := trace_cons_eq_ok_iff.1 h
    exact trace_cons_eq_ok_iff.2
      ⟨net, hnet, next, hnext, f p, hpoint _ _ _ _ _ hp, rest.map f, ih hrest, rfl⟩

/-- Each point of a trace is made on one of the days, from the sum of its events. -/
theorem exists_day_of_mem_trace {balance : Decimal} {ds : List Date} {ps : List π} {p : π}
    (h : trace on point balance ds = .ok ps) (hp : p ∈ ps) :
    ∃ d ∈ ds, ∃ net, Event.netChange (on d) = .ok net ∧
      ∃ balance, point d (on d) net balance = .ok p := by
  induction ds generalizing balance ps with
  | nil =>
    cases h
    exact absurd hp List.not_mem_nil
  | cons day ds ih =>
    obtain ⟨net, hnet, next, -, q, hq, rest, hrest, rfl⟩ := trace_cons_eq_ok_iff.1 h
    rcases List.mem_cons.1 hp with rfl | hp
    · exact ⟨day, List.mem_cons_self, net, hnet, next, hq⟩
    · obtain ⟨d, hd, hday⟩ := ih hrest hp
      exact ⟨d, List.mem_cons_of_mem _ hd, hday⟩

/-- What every point has that can be made is true of the points of a trace. -/
theorem trace_forall {P : π → Prop}
    (hpoint : ∀ d es net balance p, point d es net balance = .ok p → P p)
    {balance : Decimal} {ds : List Date} {ps : List π} (h : trace on point balance ds = .ok ps) :
    ∀ p ∈ ps, P p := by
  intro p hp
  obtain ⟨d, -, net, -, next, hday⟩ := exists_day_of_mem_trace h hp
  exact hpoint _ _ _ _ _ hday

/-- What is read off a point without its amounts. -/
theorem trace_read {ρ : Type} {f : π → ρ} {g : Date → List Event → ρ}
    (hpoint : ∀ d es net balance p, point d es net balance = .ok p → f p = g d es)
    {balance : Decimal} {ds : List Date} {ps : List π} (h : trace on point balance ds = .ok ps) :
    ps.map f = ds.map fun d => g d (on d) := by
  induction ds generalizing balance ps with
  | nil => cases h; rfl
  | cons day ds ih =>
    obtain ⟨net, -, next, -, p, hp, rest, hrest, rfl⟩ := trace_cons_eq_ok_iff.1 h
    rw [List.map_cons, List.map_cons, hpoint _ _ _ _ _ hp, ih hrest]

end Walk

theorem scenarioCurve_counts {events : List Event} {w : Window} {start : Decimal}
    {ps : List ScenarioPoint} (h : scenarioCurve events w start = .ok ps) :
    ps.map (fun p => (p.date, p.eventCount)) =
      w.days.map fun d => (d, (events.filter fun e => e.date == d).length) := by
  rw [scenarioCurve, Walk.along_eq_trace] at h
  refine Walk.trace_read (g := fun d es => (d, es.length)) ?_ h
  rintro d es net balance _ ⟨⟩
  rfl

/-- The scenario curve is the curve without the scores. -/
theorem scenarioCurve_of_balanceCurve {events : List Event} {w : Window} {start : Decimal}
    {s : ConfidenceSettings} {curve : List BalancePoint}
    (h : balanceCurve events w start s = .ok curve) :
    scenarioCurve events w start = .ok (curve.map BalancePoint.toScenarioPoint) := by
  rw [balanceCurve, Walk.along_eq_trace] at h
  rw [scenarioCurve, Walk.along_eq_trace]
  refine Walk.trace_map ?_ h
  intro d es net balance p hp
  obtain ⟨score, -, hp⟩ := bind_eq_ok_iff.1 hp
  rw [← pure_eq_ok_iff.1 hp]
  rfl

end Forecast
