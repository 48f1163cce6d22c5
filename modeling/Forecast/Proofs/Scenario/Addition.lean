import Forecast.Proofs.Curve.Figures
import Forecast.Proofs.Session.Balance
import Forecast.Proofs.Session.Conduct

/-!
# Adding a transaction

A curve with a hypothetical transaction in it is computed from scratch, from all events with the
transaction among them. Compared with the curve without it nothing changes before the date of the
transaction: `Session.scenarioWith_shifts`. On this date there is one more event, and from then on the
balance is moved by the amount.

## Two walks side by side

The transaction comes behind the other events of its day and changes no other day
(`Event.filter_date_withAdded`), so that two walks with the same balance stay together until they meet
the day (`Walk.trace_follows`). From there on the balances differ, and how far is a matter of numbers
that are added exactly (`scenarioCurve_shifted`).
-/

namespace Forecast

open Decimal (Within SumExact mantissaBound magnitudeAt)

/-- What an amount moves in a direction, in units. -/
def Flow.signed (flow : Flow) (amount : Decimal) : Int :=
  match flow with
  | .income => |amount.units|
  | .expense => -|amount.units|

namespace Event

variable {events : List Event} {added : Event}

theorem units_hypothetical (date : Date) (flow : Flow) (amount : Decimal) (description : String) :
    (hypothetical date flow amount description).signedAmount.units = flow.signed amount := by
  unfold hypothetical Event.of signedAmount Flow.signed
  cases flow with
  | income => simp [Decimal.units_abs]
  | expense => simp [Decimal.units_neg, Decimal.units_abs]

theorem dateLe_total (a b : Event) : dateLe a b = true ∨ dateLe b a = true := by
  simp only [dateLe, decide_eq_true_eq]
  exact LinearOrder.le_total a.date b.date

theorem dateLe_trans (a b c : Event) (hab : dateLe a b = true) (hbc : dateLe b c = true) :
    dateLe a c = true := by
  simp only [dateLe, decide_eq_true_eq] at hab hbc ⊢
  exact hab.trans hbc

/-- Sorting by date leaves the events of a date as they come. -/
theorem filter_date_sortedByDate (events : List Event) (d : Date) :
    ((sortedByDate events).filter fun e => e.date == d) = events.filter fun e => e.date == d := by
  have hsorted : (events.filter fun e => e.date == d).Pairwise fun a b => dateLe a b = true := by
    refine List.pairwise_of_forall_mem_list fun a ha b hb => ?_
    have had : a.date = d := by simpa using (List.mem_filter.1 ha).2
    have hbd : b.date = d := by simpa using (List.mem_filter.1 hb).2
    simp [dateLe, had, hbd]
  rw [sortedByDate, filter_stableSort dateLe_total dateLe_trans, stableSort_of_pairwise hsorted]

/-- One more event comes behind the others of its day and changes no other day. -/
theorem filter_date_withAdded (events : List Event) (added : Event) (d : Date) :
    ((withAdded events added).filter fun e => e.date == d) =
      (events.filter fun e => e.date == d) ++ if added.date = d then [added] else [] := by
  rw [withAdded, filter_date_sortedByDate, List.filter_append]
  by_cases hd : added.date = d <;> simp [hd]

theorem length_filter_date_withAdded (events : List Event) (added : Event) (d : Date) :
    ((withAdded events added).filter fun e => e.date == d).length =
      (events.filter fun e => e.date == d).length + if added.date = d then 1 else 0 := by
  rw [filter_date_withAdded, List.length_append]
  split <;> rfl

theorem perm_withAdded (events : List Event) (added : Event) :
    (withAdded events added).Perm (events ++ [added]) :=
  perm_stableSort _ _

theorem scale_le_withAdded {s : Nat} (h : ∀ e ∈ events, e.amount.scale ≤ s)
    (hadded : added.amount.scale ≤ s) : ∀ e ∈ withAdded events added, e.amount.scale ≤ s := by
  intro e he
  rcases List.mem_append.1 ((perm_withAdded events added).mem_iff.1 he) with he | he
  · exact h e he
  · rw [List.mem_singleton.1 he]
    exact hadded

theorem size_withAdded (s : Nat) (events : List Event) (added : Event) :
    size s (withAdded events added) = size s events + added.amount.magnitudeAt s := by
  rw [size_perm (perm_withAdded events added), size_append]
  simp [size]

/-- One more event adds what it moves to the total of what passes a test, if it passes it. -/
theorem total_filter_withAdded (p : Event → Bool) :
    total ((withAdded events added).filter p) =
      total (events.filter p) + if p added then added.signedAmount.units else 0 := by
  rw [total_perm ((perm_withAdded events added).filter p), List.filter_append, total_append]
  by_cases hp : p added = true <;> simp [hp, total]

end Event

/-! ## Two walks side by side -/

/-- How a point of the curve with one more event on a date stands to the point without it. -/
structure ScenarioPoint.Follows (d : Date) (b p : ScenarioPoint) : Prop where
  /-- It is the point of the same day. -/
  date : p.date = b.date
  /-- Before the date it is the same point. -/
  before : b.date < d → p = b
  /-- On every other day the change and the number of events are the same. -/
  other : b.date ≠ d → p.netChange = b.netChange ∧ p.eventCount = b.eventCount
  /-- On the date there is one more event. -/
  on_date : b.date = d → p.eventCount = b.eventCount + 1

namespace Walk

variable {on on' : Date → List Event} {added : Event} {ds : List Date} {balance balance' : Decimal}

theorem trace_follows (hon : ∀ d, on' d = on d ++ if added.date = d then [added] else [])
    {ps ps' : List ScenarioPoint} (hdays : ds.Pairwise (· < ·))
    (hbalance : (∃ d ∈ ds, d < added.date) → balance' = balance)
    (h : trace on ScenarioPoint.ofDay balance ds = .ok ps)
    (h' : trace on' ScenarioPoint.ofDay balance' ds = .ok ps') :
    List.Forall₂ (ScenarioPoint.Follows added.date) ps ps' := by
  induction ds generalizing balance balance' ps ps' with
  | nil =>
    cases h
    cases h'
    exact .nil
  | cons day ds ih =>
    have hc := List.pairwise_cons.1 hdays
    obtain ⟨net, hnet, next, hnext, _, ⟨⟩, rest, hrest, rfl⟩ := trace_cons_eq_ok_iff.1 h
    obtain ⟨net', hnet', next', hnext', _, ⟨⟩, rest', hrest', rfl⟩ := trace_cons_eq_ok_iff.1 h'
    have hsame : day ≠ added.date → on' day = on day := fun hne => by
      rw [hon, if_neg (Ne.symm hne), List.append_nil]
    have hchange : day ≠ added.date → net' = net := fun hne => by
      rw [hsame hne, hnet] at hnet'
      exact (Except.ok.inj hnet').symm
    -- up to the date both walks carry the same balance
    have hbefore : day < added.date → next' = next := fun hlt => by
      rw [hchange (ne_of_lt hlt), hbalance ⟨day, List.mem_cons_self, hlt⟩, hnext] at hnext'
      exact (Except.ok.inj hnext').symm
    refine .cons ⟨rfl, ?_, ?_, ?_⟩ (ih hc.2 ?_ hrest hrest')
    · intro hlt
      have hne := ne_of_lt hlt
      rw [hbefore hlt, hchange hne, hsame hne]
    · intro hne
      exact ⟨hchange hne, congrArg List.length (hsame hne)⟩
    · intro heq
      show (on' day).length = (on day).length + 1
      rw [hon, if_pos heq.symm, List.length_append, List.length_singleton]
    · rintro ⟨d, hd, hlt⟩
      exact hbefore (lt_trans (hc.1 d hd) hlt)

end Walk

variable {events : List Event} {added : Event} {w : Window} {start : Decimal}
  {ps ps' : List ScenarioPoint}

theorem scenarioCurve_follows (h : scenarioCurve events w start = .ok ps)
    (h' : scenarioCurve (Event.withAdded events added) w start = .ok ps') :
    List.Forall₂ (ScenarioPoint.Follows added.date) ps ps' := by
  rw [scenarioCurve_eq_trace] at h h'
  exact Walk.trace_follows (Event.filter_date_withAdded events added) (Window.pairwise_days w)
    (fun _ => rfl) h h'

/-- An event that is dated on none of the days changes nothing. -/
theorem scenarioCurve_withAdded_of_not_mem (h : added.date ∉ w.days) :
    scenarioCurve (Event.withAdded events added) w start = scenarioCurve events w start := by
  rw [scenarioCurve_eq_trace, scenarioCurve_eq_trace]
  refine Walk.trace_congr fun d hd => ?_
  rw [Event.filter_date_withAdded, if_neg, List.append_nil]
  rintro rfl
  exact h hd

/-! ## In numbers -/

/-- The figures with an amount moved on a date. -/
def Figures.shifted (d : Date) (amount : Int) (f : Figures) : Figures :=
  { date := f.date
    balance := f.balance + if d ≤ f.date then amount else 0
    netChange := f.netChange + if f.date = d then amount else 0
    eventCount := f.eventCount + if f.date = d then 1 else 0 }

/-- Where the amounts can be added exactly the curve is shifted from the date of the event on. -/
theorem scenarioCurve_shifted {s m : Nat} (hs : s ≤ 28) (hscale : ∀ e ∈ events, e.amount.scale ≤ s)
    (hadded : added.amount.scale ≤ s) (hstart : Within s m start)
    (hsize : m + Event.size s events + added.amount.magnitudeAt s < mantissaBound)
    (hin : w.contains added.date = true) (h : scenarioCurve events w start = .ok ps)
    (h' : scenarioCurve (Event.withAdded events added) w start = .ok ps') :
    ps'.map ScenarioPoint.figures =
      ps.map fun p => p.figures.shifted added.date added.signedAmount.units := by
  obtain ⟨qs, hqs, hfig⟩ := scenarioCurve_figures (w := w) hs hscale hstart (by omega)
  obtain ⟨qs', hqs', hfig'⟩ := scenarioCurve_figures (w := w) hs
    (Event.scale_le_withAdded hscale hadded) hstart (by rw [Event.size_withAdded]; omega)
  cases h.symm.trans hqs
  cases h'.symm.trans hqs'
  have hshift := congrArg (List.map (Figures.shifted added.date added.signedAmount.units)) hfig
  rw [List.map_map, List.map_map] at hshift
  rw [hfig']
  refine Eq.trans (List.map_congr_left fun d hd => ?_) hshift.symm
  simp only [Function.comp, Figures.shifted, Event.total_filter_withAdded,
    Event.length_filter_date_withAdded, Window.upTo_of_contains hd hin, decide_eq_true_eq,
    beq_iff_eq, Int.add_assoc, eq_comm (a := d)]

/-- An outlay on the leap day, which has a pending entry and two rents on it. -/
def Sample.outlay : Inquiry :=
  .scenarioWith (.hundredths 5025) (Sample.date 2 29) .expense "outlay"

namespace Session

variable {σ : Type} {s : Session} {source : Source σ} {t : σ} {run : List Inquiry}
  {amount : Decimal} {date : Date} {flow : Flow} {description : String}
  {curve : List BalancePoint} {points : List ScenarioPoint}

/-- **A hypothetical transaction moves the curve from its date on.** When a session has answered with
its curve and with the curve of a hypothetical transaction, in any order and among any other
inquiries, the two have a point for the same days. Before the date of the transaction the points are
the same, on the date there is one more event, and if the date is not in the window all points are the
same. If it is, and the amounts that count can be added exactly, then the balance of the date and of
all later days and the change of the date are moved by the amount, and nothing else is. -/
theorem scenarioWith_shifts
    (hcurve : ⟨.curve, .ok curve⟩ ∈ s.transcript source ({}, t) run)
    (hpoints : ⟨.scenarioWith amount date flow description, .ok points⟩ ∈
      s.transcript source ({}, t) run) :
    List.Forall₂ (ScenarioPoint.Follows date) (curve.map BalancePoint.toScenarioPoint) points ∧
    (s.request.window.contains date = false → points = curve.map BalancePoint.toScenarioPoint) ∧
    ∃ start events, (s.after source ({}, t) run).1 = ⟨some start, some events⟩ ∧
      (∃ accounts, Exchange.accounts (.ok accounts) ∈ s.exchanges source ({}, t) run ∧
        Account.holdings accounts s.request.accounts = .ok start) ∧
      ∀ accounts, Account.holdings accounts s.request.accounts = .ok start →
        SumExact (Account.counted accounts s.request.accounts ++
          (events.map Event.amount ++ [amount])) →
        s.request.window.contains date = true →
        points.map ScenarioPoint.figures =
          curve.map fun b => b.toScenarioPoint.figures.shifted date (flow.signed amount) := by
  obtain ⟨events, start, hevents, hstart, hcurve⟩ := tells_of_transcript hcurve
  obtain ⟨events', start', hevents', hstart', hpoints⟩ := tells_of_transcript hpoints
  have hfound : (s.after source ({}, t) run).1 = ⟨some start, some events⟩ :=
    Memo.eq_of_held (hstart rfl) (hevents rfl)
  rw [hfound] at hevents' hstart'
  cases hevents' rfl
  cases hstart' rfl
  -- both curves are computed from the same events and the same starting balance
  have hbase := scenarioCurve_of_balanceCurve hcurve
  refine ⟨scenarioCurve_follows hbase hpoints, ?_, start, events, hfound,
    accounts_of_found (found_of_after source [] rfl run) (hstart rfl), ?_⟩
  · intro hout
    have hsame : s.told events start (.scenarioWith amount date flow description) =
        .ok (curve.map BalancePoint.toScenarioPoint) :=
      (scenarioCurve_withAdded_of_not_mem (Window.not_mem_days hout)).trans hbase
    exact Except.ok.inj (hpoints.symm.trans hsame)
  · rintro accounts haccounts ⟨scale, hs, hscale, hsize⟩ hin
    rw [List.map_append, List.map_append, List.sum_append, List.sum_append, List.map_map,
      List.map_singleton, List.sum_singleton, ← Nat.add_assoc] at hsize
    obtain ⟨start', hstart', hwithin, -⟩ := Account.holdings_exact hs
      (fun d hd => hscale d (List.mem_append_left _ hd)) (by omega)
    cases haccounts.symm.trans hstart'
    have hevents : ∀ e ∈ events, e.amount.scale ≤ scale := fun e he =>
      hscale _ (List.mem_append_right _ (List.mem_append_left _ (List.mem_map_of_mem he)))
    refine (scenarioCurve_shifted hs hevents ?_ hwithin ?_ hin hbase hpoints).trans ?_
    · exact hscale amount (by simp)
    · exact hsize
    · rw [Event.units_hypothetical, List.map_map]
      rfl

/-- The outlay is asked for before the curve is, and moves the leap day and the day after. -/
theorem sample_outlay : ∃ points curve,
    ⟨Sample.outlay, .ok points⟩ ∈
      Sample.session.transcript Memory.source ({}, Sample.memory) [Sample.outlay, .curve] ∧
    ⟨.curve, .ok curve⟩ ∈
      Sample.session.transcript Memory.source ({}, Sample.memory) [Sample.outlay, .curve] ∧
    points.map ScenarioPoint.figures = curve.map fun b =>
      b.toScenarioPoint.figures.shifted (Sample.date 2 29)
        (Flow.expense.signed (.hundredths 5025)) := by
  obtain ⟨points, hpoints⟩ : ∃ points : List ScenarioPoint,
      ((Sample.session.answer Memory.source Sample.outlay).runFrom ({}, Sample.memory)).1 =
        .ok points :=
    exists_eq_ok (by decide +kernel)
  obtain ⟨curve, hcurve⟩ : ∃ curve : List BalancePoint,
      ((Sample.session.answer Memory.source .curve).runFrom
        ((Sample.session.answer Memory.source Sample.outlay).runFrom ({}, Sample.memory)).2).1 =
          .ok curve :=
    exists_eq_ok (by decide +kernel)
  have houtlay : ⟨Sample.outlay, .ok points⟩ ∈
      Sample.session.transcript Memory.source ({}, Sample.memory) [Sample.outlay, .curve] := by
    rw [transcript, hpoints]
    exact List.mem_cons_self
  have hbase : ⟨.curve, .ok curve⟩ ∈
      Sample.session.transcript Memory.source ({}, Sample.memory) [Sample.outlay, .curve] := by
    rw [transcript, transcript, hcurve]
    exact List.mem_cons_of_mem _ List.mem_cons_self
  obtain ⟨-, -, start, events, hfound, -, hshift⟩ := scenarioWith_shifts hbase houtlay
  have hholdings : Account.holdings (Sample.snapshot.ownedBy Sample.home).accounts none =
      .ok ((Sample.session.after Memory.source ({}, Sample.memory)
        [Sample.outlay, .curve]).1.startingBalance.getD 0) := by
    decide +kernel
  have hexact : SumExact (Account.counted (Sample.snapshot.ownedBy Sample.home).accounts none ++
      (((Sample.session.after Memory.source ({}, Sample.memory)
        [Sample.outlay, .curve]).1.events.getD []).map Event.amount ++ [.hundredths 5025])) :=
    ⟨2, by decide, by decide +kernel, by decide +kernel⟩
  rw [hfound] at hholdings hexact
  exact ⟨points, curve, houtlay, hbase, hshift _ hholdings hexact (by decide +kernel)⟩

end Session

end Forecast
