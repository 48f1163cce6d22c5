import Forecast.Proofs.Curve.Parts
import Forecast.Proofs.Scenario.Addition

/-!
# Curves day by day

What a curve is, said without the walk that makes it and without the drawers that events are put into: a
point for each day of the window, without a gap, each made from the events of its date alone and from
the balance of the day before (`IsDaywise`). A computed curve is that curve and there is no other
(`balanceCurve_daywise`). So nothing hangs on the order of events with different dates, nor on events
outside the window.
-/

namespace Forecast

/-- The balance with which the day at a position begins: that of the day before, or the start. -/
def BalancePoint.before (start : Decimal) (curve : List BalancePoint) (i : Nat) : Decimal :=
  ((curve.take i).getLast?.map BalancePoint.balance).getD start

/-- The point is made from the events of its date, in the order in which they come, and from the balance
with which its day begins. -/
structure BalancePoint.Closes (s : ConfidenceSettings) (w : Window) (events : List Event)
    (before : Decimal) (p : BalancePoint) : Prop where
  eventCount : p.eventCount = (events.filter fun e => e.date == p.date).length
  netChange : Decimal.sum ((events.filter fun e => e.date == p.date).map Event.signedAmount) =
    .ok p.netChange
  balance : before.add p.netChange = .ok p.balance
  confidence : s.dayScore (events.filter fun e => e.date == p.date) (w.offsetOf p.date) =
    .ok p.confidence

/-- The curve has a point for each day of the window, one after the other, each of which closes its
day. -/
structure IsDaywise (events : List Event) (w : Window) (start : Decimal) (s : ConfidenceSettings)
    (curve : List BalancePoint) : Prop where
  length : (curve.length : Int) = w.last.daysSince w.first + 1
  date : ∀ (i : Nat) (p : BalancePoint), curve[i]? = some p →
    p.date.dayNumber = w.first.dayNumber + i
  closes : ∀ (i : Nat) (p : BalancePoint), curve[i]? = some p →
    p.Closes s w events (BalancePoint.before start curve i)

namespace BalancePoint

variable {on : Date → List Event} {s : ConfidenceSettings} {w : Window} {start : Decimal}
  {curve : List BalancePoint}

/-- Behind the first point the rest of the curve begins with the balance of that point. -/
theorem before_cons (start : Decimal) (p : BalancePoint) (curve : List BalancePoint) (i : Nat) :
    before start (p :: curve) (i + 1) = before p.balance curve i := by
  rw [before, List.take_succ_cons, Walk.lastOr_cons]
  rfl

/-- A trace has a point for each day, made from what the day before has left. -/
theorem trace_eq_ok_iff_getElem? {ds : List Date} :
    Walk.trace on (ofDay s w) start ds = .ok curve ↔
      curve.length = ds.length ∧ ∀ i d p, ds[i]? = some d → curve[i]? = some p →
        ∃ net, Event.netChange (on d) = .ok net ∧
          ∃ next, (before start curve i).add net = .ok next ∧
            ofDay s w d (on d) net next = .ok p := by
  induction ds generalizing start curve with
  | nil =>
    constructor
    · intro h
      cases Except.ok.inj h
      exact ⟨rfl, fun i d p hd => absurd hd (by simp)⟩
    · rintro ⟨hlen, -⟩
      rw [List.eq_nil_of_length_eq_zero hlen]
      rfl
  | cons day ds ih =>
    rw [Walk.trace_cons_eq_ok_iff]
    constructor
    · rintro ⟨net, hnet, next, hnext, p, hp, rest, hrest, rfl⟩
      obtain ⟨hlen, hpoints⟩ := ih.1 hrest
      refine ⟨congrArg Nat.succ hlen, fun i d q hd hq => ?_⟩
      cases i with
      | zero =>
        cases hd
        cases hq
        exact ⟨net, hnet, next, hnext, hp⟩
      | succ i =>
        rw [before_cons, (of_ofDay hp).2.1]
        exact hpoints i d q hd hq
    · rintro ⟨hlen, hpoints⟩
      cases curve with
      | nil => cases hlen
      | cons p rest =>
        obtain ⟨net, hnet, next, hnext, hp⟩ := hpoints 0 day p rfl rfl
        refine ⟨net, hnet, next, hnext, p, hp, rest, ih.2 ⟨Nat.succ.inj hlen, ?_⟩, rfl⟩
        intro i d q hd hq
        have hnext := hpoints (i + 1) d q hd hq
        rwa [before_cons, (of_ofDay hp).2.1] at hnext

/-- A point that closes its day is the one that is made of the day. -/
theorem closes_iff {events : List Event} {start : Decimal} {p : BalancePoint} {d : Date}
    (hdate : p.date = d) : p.Closes s w events start ↔
      ∃ net, Event.netChange (events.filter fun e => e.date == d) = .ok net ∧
        ∃ next, start.add net = .ok next ∧
          ofDay s w d (events.filter fun e => e.date == d) net next = .ok p := by
  subst hdate
  constructor
  · rintro ⟨hcount, hnet, hbalance, hscore⟩
    refine ⟨p.netChange, hnet, p.balance, hbalance, bind_eq_ok_iff.2 ⟨p.confidence, hscore, ?_⟩⟩
    rw [← hcount]
    rfl
  · rintro ⟨net, hnet, next, hnext, hp⟩
    obtain ⟨score, hscore, hp⟩ := bind_eq_ok_iff.1 hp
    have hp := pure_eq_ok_iff.1 hp
    have hfields : p.netChange = net ∧ p.balance = next ∧ p.confidence = score ∧
        p.eventCount = (events.filter fun e => e.date == p.date).length := by
      rw [← hp]
      exact ⟨rfl, rfl, rfl, rfl⟩
    obtain ⟨rfl, rfl, rfl, hcount⟩ := hfields
    exact ⟨hcount, hnet, hnext, hscore⟩

end BalancePoint

variable {events events' : List Event} {w : Window} {start : Decimal} {s : ConfidenceSettings}
  {curve : List BalancePoint}

/-- The computed curve is the one that closes day after day. -/
theorem balanceCurve_eq_ok_iff_isDaywise (hw : w.last < Date.latest) :
    balanceCurve events w start s = .ok curve ↔ IsDaywise events w start s curve := by
  have hdays := Window.length_days_of_lt_latest hw
  rw [balanceCurve_eq_trace, BalancePoint.trace_eq_ok_iff_getElem?]
  constructor
  · rintro ⟨hlen, hpoints⟩
    -- the point at a position is made on the day at this position
    have hday {i : Nat} {p : BalancePoint} (hp : curve[i]? = some p) : w.days[i]? = some p.date := by
      obtain ⟨hi, -⟩ := List.getElem?_eq_some_iff.1 hp
      have hd : w.days[i]? = some w.days[i] := List.getElem?_eq_getElem (hlen ▸ hi)
      obtain ⟨net, -, next, -, hday⟩ := hpoints i _ p hd hp
      rw [hd, (BalancePoint.of_ofDay hday).1]
    refine ⟨by rw [hlen, hdays], fun i p hp => ?_, fun i p hp => ?_⟩
    · exact (Window.getElem?_days_eq_some_iff.1 (hday hp)).2
    · exact (BalancePoint.closes_iff rfl).2 (hpoints i _ p (hday hp) hp)
  · rintro ⟨hlength, hdate, hcloses⟩
    have hlen : curve.length = w.days.length := by omega
    refine ⟨hlen, fun i d p hd hp => ?_⟩
    have hnumber := (Window.getElem?_days_eq_some_iff.1 hd).2
    exact (BalancePoint.closes_iff (Date.ext ((hdate i p hp).trans hnumber.symm))).1 (hcloses i p hp)

/-! ## What a curve does not see -/

/-- A walk sees only which events each date has, and in which order. -/
theorem Walk.along_congr {π : Type}
    (h : ∀ d, (events.filter fun e => e.date == d) = events'.filter fun e => e.date == d)
    (w : Window) (start : Decimal)
    (point : Date → List Event → Decimal → Decimal → Checked π) :
    along events w start point = along events' w start point := by
  rw [along_eq_trace, along_eq_trace]
  exact trace_congr fun d _ => h d

/-- **A curve is drawn day by day.** Whatever the events are and in whatever order, a window that ends
before the calendar does has the curve in which each day is closed from the events of its date and the
balance of the day before, and no other. The scenario curve has the same points without their scores.
Neither changes when the events are sorted by date or those outside the window are left out. -/
theorem balanceCurve_daywise (hw : w.last < Date.latest) (events : List Event) (start : Decimal)
    (s : ConfidenceSettings) :
    (∀ curve, balanceCurve events w start s = .ok curve ↔ IsDaywise events w start s curve) ∧
    (∀ curve, balanceCurve events w start s = .ok curve →
      scenarioCurve events w start = .ok (curve.map BalancePoint.toScenarioPoint)) ∧
    (balanceCurve (Event.sortedByDate events) w start s = balanceCurve events w start s ∧
      scenarioCurve (Event.sortedByDate events) w start = scenarioCurve events w start) ∧
    balanceCurve (events.filter fun e => w.contains e.date) w start s =
      balanceCurve events w start s ∧
    scenarioCurve (events.filter fun e => w.contains e.date) w start =
      scenarioCurve events w start := by
  have hsorted := Event.filter_date_sortedByDate events
  refine ⟨fun _ => balanceCurve_eq_ok_iff_isDaywise hw, fun _ => scenarioCurve_of_balanceCurve,
    ⟨?_, ?_⟩, ?_, ?_⟩
  · exact Walk.along_congr hsorted w start (BalancePoint.ofDay s w)
  · exact Walk.along_congr hsorted w start ScenarioPoint.ofDay
  · exact balanceCurve_filter events w start s
  · exact Walk.along_filter events w start ScenarioPoint.ofDay

/-- Events as they come to mind, one of them from before the window. -/
def Sample.mixed : List Event := [
  { date := date 3 1, flow := .income, amount := .whole 2000, description := "salary",
    confidence := .tenths 8, origin := .recurring },
  { date := date 2 29, flow := .expense, amount := .hundredths 3050, description := "groceries",
    confidence := .hundredths 95, origin := .pending },
  { date := date 2 27, flow := .expense, amount := .whole 7, description := "lunch",
    confidence := .hundredths 95, origin := .pending },
  { date := date 2 28, flow := .expense, amount := .whole 800, description := "rent",
    confidence := .tenths 7, origin := .recurring },
  { date := date 2 29, flow := .income, amount := .tenths 55, description := "refund",
    confidence := .tenths 5, origin := .pending }]

/-- The days come in order although the events do not, and the lunch is on none of them. -/
theorem sample_mixed : Sample.window.last < Date.latest ∧ ∃ curve,
    balanceCurve Sample.mixed Sample.window (.whole 100) {} = .ok curve ∧
    curve.map (fun p => (p.date, p.eventCount, p.balance)) =
      [(Sample.date 2 28, 1, -.whole 700), (Sample.date 2 29, 2, -.hundredths 72500),
        (Sample.date 3 1, 1, .hundredths 127500)] ∧
    IsDaywise Sample.mixed Sample.window (.whole 100) {} curve ∧
    scenarioCurve Sample.mixed Sample.window (.whole 100) =
      .ok (curve.map BalancePoint.toScenarioPoint) := by
  obtain ⟨hiff, hscenario, -⟩ :=
    balanceCurve_daywise Sample.last_lt_latest Sample.mixed (.whole 100) {}
  have hpoints : (balanceCurve Sample.mixed Sample.window (.whole 100) {}).map
      (fun curve => curve.map fun p => (p.date, p.eventCount, p.balance)) =
        .ok [(Sample.date 2 28, 1, -.whole 700), (Sample.date 2 29, 2, -.hundredths 72500),
          (Sample.date 3 1, 1, .hundredths 127500)] := by
    decide +kernel
  obtain ⟨curve, hcurve, hpoints⟩ := map_eq_ok_iff.1 hpoints
  exact ⟨Sample.last_lt_latest, curve, hcurve, hpoints, (hiff curve).1 hcurve,
    hscenario curve hcurve⟩

end Forecast
