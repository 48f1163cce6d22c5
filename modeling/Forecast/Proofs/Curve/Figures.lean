import Forecast.Proofs.Curve.Trace
import Forecast.Proofs.Event.Totals

/-!
# Curves in numbers

Where the amounts can be added exactly a curve has a value, and its points say what plain arithmetic
says: the balance of a day is the balance at the start and the total of all events of the window up to
that day, and the change of a day is the total of its events (`scenarioCurve_figures`). Each day of the
trace hands a balance on that is within the bound of what has been added so far, so that the next
addition is exact again.
-/

namespace Forecast

open Decimal (Within mantissaBound)

/-- What a point says, with its amounts as numbers of units. -/
structure Figures where
  date : Date
  balance : Int
  netChange : Int
  eventCount : Nat
deriving DecidableEq

/-- What the point says in numbers. -/
def ScenarioPoint.figures (p : ScenarioPoint) : Figures :=
  { date := p.date, balance := p.balance.units, netChange := p.netChange.units,
    eventCount := p.eventCount }

/-- The point of a day. -/
def ScenarioPoint.ofDay (date : Date) (es : List Event) (net balance : Decimal) :
    Checked ScenarioPoint :=
  .ok { date, balance, netChange := net, eventCount := es.length }

theorem scenarioCurve_eq_trace (events : List Event) (w : Window) (start : Decimal) :
    scenarioCurve events w start =
      Walk.trace (fun d => events.filter fun e => e.date == d) ScenarioPoint.ofDay start w.days :=
  Walk.along_eq_trace events w start ScenarioPoint.ofDay

namespace Walk

variable {s m : Nat} {on : Date → List Event} {ds : List Date} {balance : Decimal}

/-- The total of the events of all days up to a day. -/
def totalUpTo (on : Date → List Event) (ds : List Date) (d : Date) : Int :=
  ((ds.filter fun d' => decide (d' ≤ d)).map fun d' => Event.total (on d')).sum

theorem totalUpTo_cons {first d : Date} (h : first ≤ d) :
    totalUpTo on (first :: ds) d = Event.total (on first) + totalUpTo on ds d := by
  simp [totalUpTo, h]

/-- Before the first of the days nothing has happened. -/
theorem totalUpTo_of_lt {d : Date} (h : ∀ d' ∈ ds, d < d') : totalUpTo on ds d = 0 := by
  have hnone : (ds.filter fun d' => decide (d' ≤ d)) = [] := by
    rw [List.filter_eq_nil_iff]
    intro d' hd'
    simpa using h d' hd'
  simp [totalUpTo, hnone]

theorem trace_figures (hs : s ≤ 28) (hdays : ds.Pairwise (· < ·))
    (hscale : ∀ d ∈ ds, ∀ e ∈ on d, e.amount.scale ≤ s) (hb : Within s m balance)
    (hsize : m + (ds.map fun d => Event.size s (on d)).sum < mantissaBound) :
    ∃ ps, trace on ScenarioPoint.ofDay balance ds = .ok ps ∧
      ps.map ScenarioPoint.figures = ds.map fun d =>
        { date := d, balance := balance.units + totalUpTo on ds d,
          netChange := Event.total (on d), eventCount := (on d).length } := by
  induction ds generalizing m balance with
  | nil => exact ⟨[], rfl, rfl⟩
  | cons first ds ih =>
    have hd := List.pairwise_cons.1 hdays
    rw [List.map_cons, List.sum_cons] at hsize
    obtain ⟨net, hnet, hnetw, hnetu⟩ :=
      Event.netChange_within hs (hscale first List.mem_cons_self) (by omega)
    -- the balance that is handed on has room left for the days that follow
    obtain ⟨next, hnext, hnextw, hnextu⟩ := Decimal.add_within hs hb hnetw (by omega)
    obtain ⟨ps, hps, hfig⟩ :=
      ih hd.2 (fun d hd' => hscale d (List.mem_cons_of_mem _ hd')) hnextw (by omega)
    refine ⟨_, trace_cons_eq_ok_iff.2 ⟨net, hnet, next, hnext, _, rfl, ps, hps, rfl⟩, ?_⟩
    rw [List.map_cons, List.map_cons, hfig]
    congr 1
    · rw [totalUpTo_cons (le_refl first), totalUpTo_of_lt hd.1]
      simp [ScenarioPoint.figures, hnextu, hnetu]
    · refine List.map_congr_left fun d hd' => ?_
      rw [totalUpTo_cons (le_of_lt (hd.1 d hd')), hnextu, hnetu, Int.add_assoc]

/-- The balances of a trace have no more places than the first one and the amounts. -/
theorem scale_le_of_trace {ps : List ScenarioPoint}
    (hscale : ∀ d ∈ ds, ∀ e ∈ on d, e.amount.scale ≤ s) (hb : balance.scale ≤ s)
    (h : trace on ScenarioPoint.ofDay balance ds = .ok ps) : ∀ p ∈ ps, p.balance.scale ≤ s := by
  induction ds generalizing balance ps with
  | nil =>
    cases h
    exact fun p hp => absurd hp List.not_mem_nil
  | cons day ds ih =>
    obtain ⟨hday, hds⟩ := List.forall_mem_cons.1 hscale
    obtain ⟨net, hnet, next, hnext, _, ⟨⟩, rest, hrest, rfl⟩ := trace_cons_eq_ok_iff.1 h
    have hscale := Decimal.scale_le_of_add hb (Event.scale_le_of_netChange hday hnet) hnext
    exact List.forall_mem_cons.2 ⟨hscale, ih hds hscale hrest⟩

/-- Day by day up to a day, the events of the window are those dated in it and not later. -/
theorem totalUpTo_filter (events : List Event) (w : Window) (d : Date) :
    totalUpTo (fun d => events.filter fun e => e.date == d) w.days d =
      Event.total (events.filter fun e => w.upTo d e.date) := by
  rw [totalUpTo, Event.sum_total_days events ((Window.nodup_days w).filter _)]
  congr 1
  refine List.filter_congr fun e _ => ?_
  simp [Window.upTo, List.mem_filter]

end Walk

/-- The points of a curve in numbers. -/
theorem scenarioCurve_figures {s m : Nat} {events : List Event} {w : Window} {start : Decimal}
    (hs : s ≤ 28) (hscale : ∀ e ∈ events, e.amount.scale ≤ s) (hstart : Within s m start)
    (hsize : m + Event.size s events < mantissaBound) :
    ∃ ps, scenarioCurve events w start = .ok ps ∧
      ps.map ScenarioPoint.figures = w.days.map fun d =>
        { date := d
          balance := start.units + Event.total (events.filter fun e => w.upTo d e.date)
          netChange := Event.total (events.filter fun e => e.date == d)
          eventCount := (events.filter fun e => e.date == d).length } := by
  have hle := Event.sum_size_days_le s events (Window.nodup_days w)
  obtain ⟨ps, hps, hfig⟩ := Walk.trace_figures hs (Window.pairwise_days w)
    (fun d _ e he => hscale e (List.mem_of_mem_filter he)) hstart
    (Nat.lt_of_le_of_lt (Nat.add_le_add_left hle m) hsize)
  refine ⟨ps, (scenarioCurve_eq_trace events w start).trans hps, hfig.trans ?_⟩
  refine List.map_congr_left fun d _ => ?_
  rw [Walk.totalUpTo_filter]

theorem scale_le_of_scenarioCurve {s : Nat} {events : List Event} {w : Window} {start : Decimal}
    {ps : List ScenarioPoint} (hscale : ∀ e ∈ events, e.amount.scale ≤ s) (hstart : start.scale ≤ s)
    (h : scenarioCurve events w start = .ok ps) : ∀ p ∈ ps, p.balance.scale ≤ s := by
  rw [scenarioCurve_eq_trace] at h
  exact Walk.scale_le_of_trace (fun d _ e he => hscale e (List.mem_of_mem_filter he)) hstart h

/-- A curve ends with what was there at the start and all that is moved in the window. -/
theorem exists_getLast?_scenarioCurve {s m : Nat} {events : List Event} {w : Window} {start : Decimal}
    {ps : List ScenarioPoint} (hs : s ≤ 28) (hscale : ∀ e ∈ events, e.amount.scale ≤ s)
    (hstart : Within s m start) (hsize : m + Event.size s events < mantissaBound)
    (hw : w.last < Date.latest) (h : scenarioCurve events w start = .ok ps) :
    ∃ p, ps.getLast? = some p ∧ p.balance.scale ≤ s ∧
      p.balance.units = start.units + Event.total (events.filter fun e => w.contains e.date) := by
  obtain ⟨qs, hqs, hfigures⟩ := scenarioCurve_figures (w := w) hs hscale hstart hsize
  cases h.symm.trans hqs
  have hlast := congrArg List.getLast? hfigures
  rw [List.getLast?_map, List.getLast?_map, Window.getLast?_days hw] at hlast
  obtain ⟨p, hp, hfigures⟩ := Option.map_eq_some_iff.1 hlast
  have hplaces := scale_le_of_scenarioCurve hscale hstart.scale_le h p (List.mem_of_getLast? hp)
  have hbalance := congrArg Figures.balance hfigures
  simp only [Window.upTo_last hw] at hbalance
  exact ⟨p, hp, hplaces, hbalance⟩

/-- The points of a curve with a value, in numbers. -/
theorem balanceCurve_figures {s m : Nat} {events : List Event} {w : Window} {start : Decimal}
    {settings : ConfidenceSettings} {curve : List BalancePoint} (hs : s ≤ 28)
    (hscale : ∀ e ∈ events, e.amount.scale ≤ s) (hstart : Within s m start)
    (hsize : m + Event.size s events < mantissaBound)
    (hcurve : balanceCurve events w start settings = .ok curve) :
    curve.map (fun p => p.toScenarioPoint.figures) = w.days.map fun d =>
      { date := d
        balance := start.units + Event.total (events.filter fun e => w.upTo d e.date)
        netChange := Event.total (events.filter fun e => e.date == d)
        eventCount := (events.filter fun e => e.date == d).length } := by
  obtain ⟨ps, hps, hfigures⟩ := scenarioCurve_figures hs hscale hstart hsize
  rw [scenarioCurve_of_balanceCurve hcurve] at hps
  cases hps
  rw [← hfigures, List.map_map]
  rfl

end Forecast
