import Forecast.Proofs.Curve.Order
import Forecast.Proofs.Event.Order
import Forecast.Proofs.Report.Totals
import Forecast.Proofs.Session.Balance
import Forecast.Proofs.Session.Snapshots

/-!
# Records in another order

A session over a snapshot and one over the same records in another order tell the same, provided that
the amounts that count can be added exactly: `Session.answers_reordered`. The order of the records
decides the order of additions, which then does not count, and the order of events of one date and flow,
which is all that can be seen of it.

What a session finds over the one and over the other is interchangeable (`Interchangeable`): the same
events in another order, and starting balances of the same value. Everything else is told from that.
-/

namespace Forecast

open Decimal (Within SumExact mantissaBound magnitudeAt)

/-! ## What is found -/

/-- The same records, each list in an order of its own. -/
structure Snapshot.Reordered (snap snap' : Snapshot) : Prop where
  accounts : snap.accounts.Perm snap'.accounts
  entries : snap.entries.Perm snap'.entries
  recurring : snap.recurring.Perm snap'.recurring

theorem Snapshot.Reordered.ownedBy {snap snap' : Snapshot} (h : snap.Reordered snap')
    (household : Uuid) : (snap.ownedBy household).Reordered (snap'.ownedBy household) :=
  ⟨h.accounts.filter _, h.entries.filter _, h.recurring.filter _⟩

/-- Events in another order and starting balances of the same value, so many and so large that they can
be added exactly. -/
structure Interchangeable (es es' : List Event) (start start' : Decimal) : Prop where
  order : Event.SameOrder es es'
  units : start.units = start'.units
  exact : ∃ s ≤ 28, ∃ m, (∀ e ∈ es, e.amount.scale ≤ s) ∧ Within s m start ∧ Within s m start' ∧
    m + Event.size s es < mantissaBound
  held : ∀ e ∈ es, HeldScore e.confidence
  length_lt : es.length < UInt64.size

theorem Interchangeable.perm {es es' : List Event} {start start' : Decimal}
    (h : Interchangeable es es' start start') : es.Perm es' :=
  h.order.perm

namespace Outlook

variable {o : Outlook} {snap snap' : Snapshot} {es : List Event} {start : Decimal}

theorem perm_balances (h : snap.Reordered snap') : (o.balances snap).Perm (o.balances snap') := by
  have howned := (h.ownedBy o.request.household).accounts
  exact ((howned.filter _).map _).append ((howned.filter _).map _)

theorem perm_eventAmounts (h : snap.Reordered snap') :
    (o.eventAmounts snap).Perm (o.eventAmounts snap') := by
  have howned := h.ownedBy o.request.household
  exact ((howned.entries.filter _).map _).append ((howned.recurring.filter _).flatMap_right _)

theorem perm_countedAmounts (h : snap.Reordered snap') :
    (o.countedAmounts snap).Perm (o.countedAmounts snap') :=
  (perm_balances h).append (perm_eventAmounts h)

/-- The accounts hold the same in any order. -/
theorem holdings_reordered (h : snap.Reordered snap') : o.holdings snap = o.holdings snap' := by
  have howned := (h.ownedBy o.request.household).accounts
  have hclass : ∀ c, ((o.countedAccounts snap c).map fun a => a.balance.units).sum =
      ((o.countedAccounts snap' c).map fun a => a.balance.units).sum := by
    intro c
    exact ((howned.filter _).map _).sum_eq
  rw [holdings, holdings, hclass, hclass]

theorem exists_holdings_reordered (h : snap.Reordered snap') (hexact : SumExact (o.countedAmounts snap))
    (hstart : Account.holdings (snap.ownedBy o.request.household).accounts o.request.accounts =
      .ok start) :
    ∃ start', Account.holdings (snap'.ownedBy o.request.household).accounts o.request.accounts =
        .ok start' ∧ start.units = start'.units := by
  have hbalances : ∀ {snap}, SumExact (o.countedAmounts snap) →
      ∃ start, Account.holdings (snap.ownedBy o.request.household).accounts o.request.accounts =
        .ok start ∧ start.units = o.holdings snap := by
    rintro snap ⟨s, hs, hscale, hsize⟩
    rw [countedAmounts, List.map_append, List.sum_append] at hsize
    obtain ⟨start, hstart, -, hunits⟩ := holdings_within hs
      (fun d hd => hscale d (List.mem_append_left _ hd)) (by omega)
    exact ⟨start, hstart, hunits⟩
  obtain ⟨found, hfound, hunits⟩ := hbalances hexact
  obtain ⟨start', hstart', hunits'⟩ := hbalances (hexact.perm (perm_countedAmounts h))
  cases hstart.symm.trans hfound
  exact ⟨start', hstart', by rw [hunits, hunits', holdings_reordered h]⟩

/-- What is found over records in another order is interchangeable with what is found over these. -/
theorem exists_interchangeable (h : snap.Reordered snap') (hw : o.request.window.last < Date.latest)
    (hexact : SumExact (o.countedAmounts snap))
    (hcount : (o.eventAmounts snap).length < UInt64.size)
    (hes : o.events (snap.ownedBy o.request.household).entries
      (snap.ownedBy o.request.household).recurring = .ok es)
    (hstart : Account.holdings (snap.ownedBy o.request.household).accounts o.request.accounts =
      .ok start) :
    ∃ es' start', o.events (snap'.ownedBy o.request.household).entries
        (snap'.ownedBy o.request.household).recurring = .ok es' ∧
      Account.holdings (snap'.ownedBy o.request.household).accounts o.request.accounts =
        .ok start' ∧
      Interchangeable es es' start start' := by
  have howned := h.ownedBy o.request.household
  obtain ⟨es', hes', horder⟩ := exists_events_of_perm howned.entries howned.recurring hes
  obtain ⟨start', hstart', hunits⟩ := exists_holdings_reordered h hexact hstart
  refine ⟨es', start', hes', hstart', horder, hunits, ?_, held_of_mem_events hes, ?_⟩
  · obtain ⟨s, hs, hscale, hsize⟩ := hexact
    obtain ⟨m, hwithin, -, hamounts, hsum⟩ := within_of_events hs hscale hsize hw hes hstart
    -- the balance over the other records leaves the same room for the events
    have hamount := perm_countedAmounts (o := o) h
    have hsum' := (hamount.map (magnitudeAt s)).sum_eq
    obtain ⟨m', hwithin', -, -, hsum''⟩ := within_of_events hs
      (fun d hd => hscale d (hamount.mem_iff.2 hd)) (hsum' ▸ hsize) hw hes' hstart'
    rw [← Event.size_perm horder.perm] at hsum''
    obtain rfl : m = m' := by omega
    exact ⟨s, hs, m, hamounts, hwithin, hwithin', by omega⟩
  · have hlength := (perm_map_amount hw hes).length_eq
    rw [List.length_map, List.length_map] at hlength
    omega

end Outlook

/-! ## What is told -/

/-- The summaries say the same: amounts of the same value, as many events, the same window. -/
structure Summary.SameValues (a a' : Summary) : Prop where
  income : a.income.units = a'.income.units
  expenses : a.expenses.units = a'.expenses.units
  netCashFlow : a.netCashFlow.units = a'.netCashFlow.units
  eventCount : a.eventCount = a'.eventCount
  startingBalance : a.startingBalance.units = a'.startingBalance.units
  endingBalance : a.endingBalance.units = a'.endingBalance.units
  window : a.window = a'.window

/-- The reports say the same. -/
structure Report.SameValues (a a' : Report) : Prop where
  projections : Event.SameOrder a.projections a'.projections
  curve : List.Forall₂ BalancePoint.SameValues a.curve a'.curve
  summary : a.summary.SameValues a'.summary
  alerts : List.Forall₂ Alert.SameValues a.alerts a'.alerts

namespace Interchangeable

variable {es es' : List Event} {start start' : Decimal} {w : Window}
  {settings : ConfidenceSettings} {curve curve' : List BalancePoint} {summary : Summary}

theorem exists_balanceCurve (h : Interchangeable es es' start start')
    (hcurve : balanceCurve es w start settings = .ok curve) :
    ∃ curve', balanceCurve es' w start' settings = .ok curve' ∧
      List.Forall₂ BalancePoint.SameValues curve curve' := by
  obtain ⟨s, hs, m, hscale, hstart, hstart', hsize⟩ := h.exact
  exact exists_balanceCurve_of_perm hs h.perm hscale hstart hstart' h.units hsize h.held h.length_lt
    hcurve

/-- Curves that say the same end with balances of the same value. -/
theorem units_getLast? (h : Interchangeable es es' start start')
    (hcurve : List.Forall₂ BalancePoint.SameValues curve curve') :
    ((curve.getLast?.map BalancePoint.balance).getD start).units =
      ((curve'.getLast?.map BalancePoint.balance).getD start').units := by
  have hunits : curve.map (fun p => p.balance.units) = curve'.map fun p => p.balance.units := by
    rw [← List.forall₂_eq_eq_eq, List.forall₂_map_left_iff, List.forall₂_map_right_iff]
    exact hcurve.imp fun _ _ hp => hp.balance
  have hlast := congrArg List.getLast? hunits
  rw [List.getLast?_map, List.getLast?_map] at hlast
  cases hc : curve.getLast? with
  | none =>
    cases hc' : curve'.getLast? with
    | none => exact h.units
    | some p' => rw [hc, hc'] at hlast; cases hlast
  | some p =>
    cases hc' : curve'.getLast? with
    | none => rw [hc, hc'] at hlast; cases hlast
    | some p' =>
      rw [hc, hc'] at hlast
      exact Option.some.inj hlast

theorem exists_summary (h : Interchangeable es es' start start')
    (hcurve : List.Forall₂ BalancePoint.SameValues curve curve')
    (hsummary : Summary.of es curve start w = .ok summary) :
    ∃ summary', Summary.of es' curve' start' w = .ok summary' ∧ summary.SameValues summary' := by
  obtain ⟨s, hs, m, hscale, -, -, hsize⟩ := h.exact
  obtain ⟨found, hfound, hexact⟩ := Summary.exists_of_exact hs hscale (by omega) curve start w
  obtain ⟨summary', hsummary', hexact'⟩ := Summary.exists_of_exact hs
    (fun e he => hscale e (h.perm.mem_iff.2 he)) (by rw [← Event.size_perm h.perm]; omega)
    curve' start' w
  cases hsummary.symm.trans hfound
  refine ⟨summary', hsummary', ?_, ?_, ?_, ?_, ?_, ?_, ?_⟩
  · rw [hexact.income, hexact'.income, Summary.unitsOf_perm h.perm]
  · rw [hexact.expenses, hexact'.expenses, Summary.unitsOf_perm h.perm]
  · rw [hexact.netCashFlow, hexact'.netCashFlow, Summary.unitsOf_perm h.perm,
      Summary.unitsOf_perm h.perm]
  · rw [hexact.eventCount, hexact'.eventCount, h.perm.length_eq]
  · rw [hexact.startingBalance, hexact'.startingBalance, h.units]
  · rw [hexact.endingBalance, hexact'.endingBalance, h.units_getLast? hcurve]
  · rw [hexact.window, hexact'.window]

end Interchangeable

namespace Session

variable {s : Session} {es es' : List Event} {start start' : Decimal}

theorem exists_toldSummary (h : Interchangeable es es' start start') {summary : Summary}
    (hsummary : s.told es start .summary = .ok summary) :
    ∃ summary' : Summary, s.told es' start' .summary = .ok summary' ∧
      summary.SameValues summary' := by
  obtain ⟨curve, hcurve, hsummary⟩ := bind_eq_ok_iff.1 hsummary
  obtain ⟨curve', hcurve', hsame⟩ := h.exists_balanceCurve hcurve
  obtain ⟨summary', hsummary', hvalues⟩ := h.exists_summary hsame hsummary
  exact ⟨summary', bind_eq_ok_iff.2 ⟨curve', hcurve', hsummary'⟩, hvalues⟩

theorem exists_toldAlerts (h : Interchangeable es es' start start') {alerts : List Alert}
    (halerts : s.toldAlerts es start = .ok alerts) :
    ∃ alerts', s.toldAlerts es' start' = .ok alerts' ∧
      List.Forall₂ Alert.SameValues alerts alerts' := by
  obtain ⟨curve, hcurve, halerts⟩ := bind_eq_ok_iff.1 halerts
  obtain ⟨curve', hcurve', hsame⟩ := h.exists_balanceCurve hcurve
  rw [← pure_eq_ok_iff.1 halerts]
  exact ⟨_, bind_eq_ok_iff.2 ⟨curve', hcurve', rfl⟩, Alert.sameValues_ofCurve hsame _ _⟩

theorem exists_toldReport (h : Interchangeable es es' start start') {report : Report}
    (hreport : s.toldReport es start = .ok report) :
    ∃ report', s.toldReport es' start' = .ok report' ∧ report.SameValues report' := by
  obtain ⟨curve, hcurve, summary, hsummary, rfl⟩ := toldReport_eq_ok_iff.1 hreport
  obtain ⟨curve', hcurve', hsame⟩ := h.exists_balanceCurve hcurve
  obtain ⟨summary', hsummary', hvalues⟩ := h.exists_summary hsame hsummary
  exact ⟨_, toldReport_eq_ok_iff.2 ⟨curve', hcurve', summary', hsummary', rfl⟩, h.order, hsame,
    hvalues, Alert.sameValues_ofCurve hsame _ _⟩

/-! ## What is answered -/

/-- If the inquiry gets an answer from the one memory it gets one from the other, and the two stand in
the relation. -/
def AnswersAlike (s : Session) (m m' : Memory) (past past' : List Inquiry) (q : Inquiry)
    (R : q.Answer → q.Answer → Prop) : Prop :=
  ∀ a, s.answerAfter Memory.source m past q = .ok a →
    ∃ a', s.answerAfter Memory.source m' past' q = .ok a' ∧ R a a'

/-- From both memories a session tells the same. -/
structure TellsTheSame (s : Session) (m m' : Memory) (past past' : List Inquiry) : Prop where
  startingBalance : s.AnswersAlike m m' past past' .startingBalance
    fun (a a' : Decimal) => a.units = a'.units
  projections : s.AnswersAlike m m' past past' .projections Event.SameOrder
  curve : s.AnswersAlike m m' past past' .curve (List.Forall₂ BalancePoint.SameValues)
  summary : s.AnswersAlike m m' past past' .summary Summary.SameValues
  alerts : s.AnswersAlike m m' past past' .alerts (List.Forall₂ Alert.SameValues)
  report : s.AnswersAlike m m' past past' .report Report.SameValues

section Reordered

variable {m m' : Memory} {snap snap' : Snapshot}

/-- What is told alike from interchangeable events and balances is answered alike. -/
theorem answersAlike_of_told {q : Inquiry} {R : q.Answer → q.Answer → Prop}
    (past past' : List Inquiry) (hsnap : m.snapshot s.request.household = .ok snap)
    (hsnap' : m'.snapshot s.request.household = .ok snap') (hreordered : snap.Reordered snap')
    (hw : s.request.window.last < Date.latest) (hexact : SumExact (s.outlook.countedAmounts snap))
    (hcount : (s.outlook.eventAmounts snap).length < UInt64.size) (hevents : q.needsEvents = true)
    (hbalance : q.needsBalance = true)
    (htold : ∀ {es es' start start'}, Interchangeable es es' start start' →
      ∀ a, s.told es start q = .ok a → ∃ a', s.told es' start' q = .ok a' ∧ R a a') :
    s.AnswersAlike m m' past past' q R := by
  intro a ha
  obtain ⟨es, hes, start, hstart, ha⟩ :=
    (answerFrom_eq_ok_iff hevents hbalance).1 ((answerAfter_eq_ok_iff hsnap).1 ha)
  obtain ⟨es', start', hes', hstart', hsame⟩ :=
    Outlook.exists_interchangeable (o := s.outlook) hreordered hw hexact hcount hes hstart
  obtain ⟨a', ha', hR⟩ := htold hsame a ha
  refine ⟨a', (answerAfter_eq_ok_iff hsnap').2 ?_, hR⟩
  exact (answerFrom_eq_ok_iff hevents hbalance).2 ⟨es', hes', start', hstart', ha'⟩

/-- **The order of the records does not count.** Two memories hold the same records of the household,
each list in an order of its own. If the amounts that count can be added exactly, and the events can be
counted in 64 bits as those of any list in memory can, then a session over the one tells the same as a
session over the other, whatever the two were asked before: balances, changes, totals and alerts of the
same value, the very same scores, and the same events, of which only those of one date and flow have
changed places. -/
theorem answers_reordered (past past' : List Inquiry) (hsnap : m.snapshot s.request.household = .ok snap)
    (hsnap' : m'.snapshot s.request.household = .ok snap') (hreordered : snap.Reordered snap')
    (hw : s.request.window.last < Date.latest) (hexact : SumExact (s.outlook.countedAmounts snap))
    (hcount : (s.outlook.eventAmounts snap).length < UInt64.size) :
    s.TellsTheSame m m' past past' := by
  have halike {q : Inquiry} {R : q.Answer → q.Answer → Prop} :=
    answersAlike_of_told (q := q) (R := R) past past' hsnap hsnap' hreordered hw hexact hcount
  constructor
  · intro start h
    have hstart := (answerFrom_startingBalance s _).symm.trans ((answerAfter_eq_ok_iff hsnap).1 h)
    obtain ⟨start', hstart', hunits⟩ :=
      Outlook.exists_holdings_reordered (o := s.outlook) hreordered hexact hstart
    refine ⟨start', (answerAfter_eq_ok_iff hsnap').2 ?_, hunits⟩
    exact (answerFrom_startingBalance s _).trans hstart'
  · intro es h
    have hes := (answerFrom_projections s _).symm.trans ((answerAfter_eq_ok_iff hsnap).1 h)
    have howned := hreordered.ownedBy s.request.household
    obtain ⟨es', hes', horder⟩ :=
      Outlook.exists_events_of_perm howned.entries howned.recurring hes
    refine ⟨es', (answerAfter_eq_ok_iff hsnap').2 ?_, horder⟩
    exact (answerFrom_projections s _).trans hes'
  · exact halike rfl rfl fun h a ha => h.exists_balanceCurve ha
  · exact halike rfl rfl fun h a ha => exists_toldSummary h ha
  · exact halike rfl rfl fun h a ha => exists_toldAlerts h ha
  · exact halike rfl rfl fun h a ha => exists_toldReport h ha

end Reordered

end Session

namespace Sample

/-- The snapshot with each list turned round. -/
def turned : Snapshot :=
  { snapshot with
    accounts := snapshot.accounts.reverse
    entries := snapshot.entries.reverse
    recurring := snapshot.recurring.reverse }

theorem snapshot_reordered : snapshot.Reordered turned :=
  ⟨(List.reverse_perm _).symm, (List.reverse_perm _).symm, (List.reverse_perm _).symm⟩

theorem snapshot_turned : (({} : Memory).insert turned).snapshot session.request.household =
    .ok turned :=
  Memory.snapshot_insert_self {} turned

theorem sumExact_countedAmounts : SumExact (session.outlook.countedAmounts snapshot) :=
  ⟨2, by decide, by decide +kernel, by decide +kernel⟩

end Sample

namespace Session

/-- With its lists turned round the household has the same report, but for the two rents of the leap day,
which have changed places. -/
theorem sample_turned : ∃ report report' : Report,
    Sample.session.answerAfter Memory.source Sample.memory [] .report = .ok report ∧
    Sample.session.answerAfter Memory.source (({} : Memory).insert Sample.turned) [.alerts] .report =
      .ok report' ∧
    report.SameValues report' ∧
    report.projections.map Event.description = ["salary", "groceries", "flat", "garage", "salary"] ∧
    report'.projections.map Event.description =
      ["salary", "groceries", "garage", "flat", "salary"] := by
  have hcount : (Sample.session.outlook.eventAmounts Sample.snapshot).length < UInt64.size := by
    decide +kernel
  have hnames : (Sample.session.answerAfter Memory.source Sample.memory [] .report).map
      (fun r : Report => r.projections.map Event.description) =
        .ok ["salary", "groceries", "flat", "garage", "salary"] := by
    decide +kernel
  have hnames' : (Sample.session.answerAfter Memory.source (({} : Memory).insert Sample.turned)
      [.alerts] .report).map (fun r : Report => r.projections.map Event.description) =
        .ok ["salary", "groceries", "garage", "flat", "salary"] := by
    decide +kernel
  obtain ⟨report, hreport, hnames⟩ := map_eq_ok_iff.1 hnames
  obtain ⟨report', hreport', hsame⟩ := (answers_reordered [] [.alerts] Sample.snapshot_memory
    Sample.snapshot_turned Sample.snapshot_reordered Sample.last_lt_latest
    Sample.sumExact_countedAmounts hcount).report report hreport
  obtain ⟨found, hfound, hnames'⟩ := map_eq_ok_iff.1 hnames'
  cases hreport'.symm.trans hfound
  exact ⟨report, report', hreport, hreport', hsame, hnames, hnames'⟩

end Session

end Forecast
