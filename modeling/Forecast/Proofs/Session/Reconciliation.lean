import Forecast.Proofs.Curve.Scored
import Forecast.Proofs.Event.Causes
import Forecast.Proofs.Event.Parts
import Forecast.Proofs.Report.Totals
import Forecast.Proofs.Session.Found

/-!
# The summary and the curve

The totals of a summary are added up along the list of the events, and the balances of a curve day by
day. They agree: each event has its place on one day of the curve, and it either comes in or goes out
(`Session.summary_reconciles`).

What does not hang on the size of the amounts is said by `Summary.Describes`, and the numbers by
`Summary.Reconciles`.
-/

namespace Forecast

open Decimal (Within SumExact mantissaBound)

namespace Summary

/-- What a summary says of the events and of the curve, however large the amounts are. -/
structure Describes (summary : Summary) (events : List Event) (start : Decimal)
    (curve : List BalancePoint) : Prop where
  income_nonneg : 0 ≤ summary.income
  expenses_nonneg : 0 ≤ summary.expenses
  startingBalance : summary.startingBalance = start
  /-- The balance at the end is the one of the last day. -/
  endingBalance : curve.getLast?.map BalancePoint.balance = some summary.endingBalance
  eventCount : summary.eventCount = events.length
  /-- The days have as many events together. -/
  sum_eventCount : (curve.map BalancePoint.eventCount).sum = summary.eventCount

/-- The three ways to reckon what a projection leaves over come to the same. -/
structure Reconciles (summary : Summary) (curve : List BalancePoint) : Prop where
  totals : summary.netCashFlow.units = summary.income.units - summary.expenses.units
  changes : summary.netCashFlow.units = (curve.map fun p => p.netChange.units).sum
  balances : summary.netCashFlow.units = summary.endingBalance.units - summary.startingBalance.units

variable {o : Outlook} {entries : List Entry} {definitions : List Recurring} {events : List Event}
  {start : Decimal} {settings : ConfidenceSettings} {curve : List BalancePoint} {summary : Summary}

/-- Each event is counted on one day. -/
theorem sum_eventCount_balanceCurve (hw : o.request.window.last < Date.latest)
    (hevents : o.events entries definitions = .ok events)
    (hcurve : balanceCurve events o.request.window start settings = .ok curve) :
    (curve.map BalancePoint.eventCount).sum = events.length := by
  have hcounts := scenarioCurve_counts (scenarioCurve_of_balanceCurve hcurve)
  have hcount := congrArg (List.map Prod.snd) hcounts
  rw [List.map_map, List.map_map, List.map_map] at hcount
  calc (curve.map BalancePoint.eventCount).sum
      = (o.request.window.days.map fun d => (events.filter fun e => e.date == d).length).sum :=
        congrArg List.sum hcount
    _ = (o.request.window.days.flatMap fun d => events.filter fun e => e.date == d).length :=
        List.length_flatMap.symm
    _ = events.length := congrArg List.length (Outlook.flatMap_days_of_events hw hevents)

theorem describes_of_events (hw : o.request.window.last < Date.latest)
    (hevents : o.events entries definitions = .ok events)
    (hcurve : balanceCurve events o.request.window start settings = .ok curve)
    (hsummary : Summary.of events curve start o.request.window = .ok summary) :
    summary.Describes events start curve := by
  have hcount := sum_eventCount_balanceCurve hw hevents hcurve
  obtain ⟨p, hp, -⟩ := Window.exists_getLast?_of_dates hw (dates_balanceCurve hcurve)
  have hunsigned : ∀ e ∈ events, e.amount.negative = false := by
    intro e he
    obtain ⟨c, -, hc⟩ := Outlook.exists_cause_of_mem_events hw hevents e he
    exact hc.negative_eq
  obtain ⟨income, hincome, expenses, hexpenses, net, -, rfl⟩ := of_eq_ok_iff.1 hsummary
  refine ⟨?_, ?_, rfl, ?_, rfl, hcount⟩
  · exact Decimal.nonneg_of_not_negative (negative_of_total hunsigned hincome)
  · exact Decimal.nonneg_of_not_negative (negative_of_total hunsigned hexpenses)
  · rw [hp]
    rfl

/-- The days change by what all the events move. -/
theorem sum_netChange_balanceCurve {s m : Nat} (hs : s ≤ 28)
    (hscale : ∀ e ∈ events, e.amount.scale ≤ s) (hstart : Within s m start)
    (hsize : m + Event.size s events < mantissaBound) (hw : o.request.window.last < Date.latest)
    (hevents : o.events entries definitions = .ok events)
    (hcurve : balanceCurve events o.request.window start settings = .ok curve) :
    (curve.map fun p => p.netChange.units).sum = Event.total events := by
  have hfigures := congrArg (List.map Figures.netChange)
    (balanceCurve_figures hs hscale hstart hsize hcurve)
  rw [List.map_map, List.map_map] at hfigures
  calc (curve.map fun p => p.netChange.units).sum
      = (o.request.window.days.map fun d =>
          Event.total (events.filter fun e => e.date == d)).sum := congrArg List.sum hfigures
    _ = Event.total (o.request.window.days.flatMap fun d => events.filter fun e => e.date == d) :=
        (Event.total_flatMap _ _).symm
    _ = Event.total events := congrArg Event.total (Outlook.flatMap_days_of_events hw hevents)

theorem reconciles_of_exact {s m : Nat} (hs : s ≤ 28)
    (hscale : ∀ e ∈ events, e.amount.scale ≤ s) (hstart : Within s m start)
    (hsize : m + Event.size s events < mantissaBound) (hw : o.request.window.last < Date.latest)
    (hevents : o.events entries definitions = .ok events)
    (hcurve : balanceCurve events o.request.window start settings = .ok curve)
    (hsummary : Summary.of events curve start o.request.window = .ok summary) :
    summary.Reconciles curve := by
  obtain ⟨found, hfound, hexact⟩ := exists_of_exact hs hscale (by omega) curve start o.request.window
  cases hsummary.symm.trans hfound
  have hnet : summary.netCashFlow.units = Event.total events := by
    rw [hexact.netCashFlow, total_eq_unitsOf_sub]
  -- the last day ends with the events of the whole window, and these are all there are
  obtain ⟨p, hp, -, hending⟩ := exists_getLast?_scenarioCurve hs hscale hstart hsize hw
    (scenarioCurve_of_balanceCurve hcurve)
  have hall : (events.filter fun e => o.request.window.contains e.date) = events :=
    List.filter_eq_self.2 (Outlook.contains_of_mem_events hw hevents)
  rw [List.getLast?_map] at hp
  obtain ⟨last, hlast, rfl⟩ := Option.map_eq_some_iff.1 hp
  refine ⟨?_, ?_, ?_⟩
  · rw [hexact.netCashFlow, hexact.income, hexact.expenses]
  · rw [hnet, sum_netChange_balanceCurve hs hscale hstart hsize hw hevents hcurve]
  · rw [hall] at hending
    rw [hnet, hexact.startingBalance, hexact.endingBalance, hlast]
    show _ = last.toScenarioPoint.balance.units - _
    omega

end Summary

namespace Session

variable {σ : Type} {s : Session} {source : Source σ} {t : σ} {run : List Inquiry}
  {curve : List BalancePoint} {summary : Summary}

/-- **The summary reconciles with the curve.** A session that has answered with its curve and with its
summary, in any order and among any other inquiries, over any source, has found the events and the
starting balance that both are told from. The totals carry no sign, the balance at the end is the one of
the last day, and the events are counted as often as the projections show them and the days have them.
If the accounts and the events can be added exactly, then income less expenses, the changes of the days
and the way from the first balance to the last all come to the net cash flow. -/
theorem summary_reconciles (hw : s.request.window.last < Date.latest)
    (hcurve : ⟨.curve, .ok curve⟩ ∈ s.transcript source ({}, t) run)
    (hsummary : ⟨.summary, .ok summary⟩ ∈ s.transcript source ({}, t) run) :
    ∃ events start, s.HasFound source t run events start ∧
      summary.Describes events start curve ∧
      (∀ projections : List Event,
        ⟨.projections, .ok projections⟩ ∈ s.transcript source ({}, t) run →
          summary.eventCount = projections.length) ∧
      ∀ accounts, Account.holdings accounts s.request.accounts = .ok start →
        SumExact (Account.counted accounts s.request.accounts ++ events.map Event.amount) →
        summary.Reconciles curve := by
  obtain ⟨events, start, hfound⟩ := hasFound_of_transcript rfl rfl hcurve
  obtain ⟨entries, definitions, -, -, hevents⟩ := hfound.records
  -- both are told from the same events and the same starting balance
  have hcurve : balanceCurve events s.outlook.request.window start s.settings.confidence =
      .ok curve := hfound.told hcurve
  obtain ⟨curve', hcurve', hsummary⟩ := bind_eq_ok_iff.1 (hfound.told hsummary)
  cases hcurve.symm.trans hcurve'
  have hdescribes := Summary.describes_of_events (o := s.outlook) hw hevents hcurve hsummary
  refine ⟨events, start, hfound, hdescribes, ?_, ?_⟩
  · intro projections h
    cases hfound.told h
    exact hdescribes.eventCount
  · intro accounts haccounts hexact
    obtain ⟨scale, hs, m, hstart, hscale, hsize⟩ :=
      Account.exists_within_of_sumExact haccounts hexact
    rw [List.map_map] at hsize
    exact Summary.reconciles_of_exact (o := s.outlook) hs
      (fun e he => hscale _ (List.mem_map_of_mem he)) hstart hsize hw hevents hcurve hsummary

/-- In three days five events, of which two come in: the totals, asked for before the curve, reconcile
with it. -/
theorem sample_reconciles : ∃ summary curve,
    ⟨.summary, .ok summary⟩ ∈
      Sample.session.transcript Memory.source ({}, Sample.memory) [.summary, .curve] ∧
    ⟨.curve, .ok curve⟩ ∈
      Sample.session.transcript Memory.source ({}, Sample.memory) [.summary, .curve] ∧
    summary.eventCount = 5 ∧
    (curve.map BalancePoint.eventCount).sum = summary.eventCount ∧
    summary.Reconciles curve := by
  obtain ⟨summary, hsummary⟩ : ∃ summary : Summary,
      ((Sample.session.answer Memory.source .summary).runFrom ({}, Sample.memory)).1 = .ok summary :=
    exists_eq_ok (by decide +kernel)
  obtain ⟨curve, hcurve⟩ : ∃ curve : List BalancePoint,
      ((Sample.session.answer Memory.source .curve).runFrom
        ((Sample.session.answer Memory.source .summary).runFrom ({}, Sample.memory)).2).1 =
          .ok curve :=
    exists_eq_ok (by decide +kernel)
  have hcount : ((Sample.session.answer Memory.source .summary).runFrom
      ({}, Sample.memory)).1.map Summary.eventCount = .ok 5 := by
    decide +kernel
  rw [hsummary] at hcount
  have hfirst : ⟨.summary, .ok summary⟩ ∈
      Sample.session.transcript Memory.source ({}, Sample.memory) [.summary, .curve] := by
    rw [transcript, hsummary]
    exact List.mem_cons_self
  have hsecond : ⟨.curve, .ok curve⟩ ∈
      Sample.session.transcript Memory.source ({}, Sample.memory) [.summary, .curve] := by
    rw [transcript, transcript, hcurve]
    exact List.mem_cons_of_mem _ List.mem_cons_self
  obtain ⟨events, start, hfound, hdescribes, -, hreconciles⟩ :=
    summary_reconciles Sample.last_lt_latest hsecond hfirst
  have hholdings : Account.holdings (Sample.snapshot.ownedBy Sample.home).accounts none =
      .ok ((Sample.session.after Memory.source ({}, Sample.memory)
        [.summary, .curve]).1.startingBalance.getD 0) := by
    decide +kernel
  have hexact : SumExact (Account.counted (Sample.snapshot.ownedBy Sample.home).accounts none ++
      ((Sample.session.after Memory.source ({}, Sample.memory)
        [.summary, .curve]).1.events.getD []).map Event.amount) :=
    ⟨2, by decide, by decide +kernel, by decide +kernel⟩
  rw [hfound.held] at hholdings hexact
  exact ⟨summary, curve, hfirst, hsecond, Except.ok.inj hcount, hdescribes.sum_eventCount,
    hreconciles _ hholdings hexact⟩

end Session

end Forecast
