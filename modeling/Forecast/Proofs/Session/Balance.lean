import Forecast.Proofs.Curve.Figures
import Forecast.Proofs.Event.Count
import Forecast.Proofs.Source.Memory

/-!
# The balance law

What the balance of a day comes to, read off the records without any of the steps between: what the
accounts hold, the entries up to the day, and the definitions as often as they come up to the day
(`Outlook.ledger`). Where the amounts that count can be added exactly, the curve shows this sum on
each day of the window, whatever was asked before: `Session.balance_eq_ledger`.
-/

namespace Forecast

open Decimal (Within SumExact mantissaBound magnitudeAt)

namespace Account

/-- The balances that count: those of the assets and those of the liabilities. -/
def counted (accounts : List Account) (filter : Option (List Uuid)) : List Decimal :=
  balancesOf accounts filter .asset ++ balancesOf accounts filter .liability

/-- Balances that can be added exactly make a balance that is within their sum: that of the assets
less the amount of that of the liabilities. -/
theorem holdings_exact {s : Nat} {accounts : List Account} {filter : Option (List Uuid)}
    (hs : s ≤ 28) (hscale : ∀ d ∈ counted accounts filter, d.scale ≤ s)
    (hsize : ((counted accounts filter).map (magnitudeAt s)).sum < mantissaBound) :
    ∃ start, holdings accounts filter = .ok start ∧
      Within s ((counted accounts filter).map (magnitudeAt s)).sum start ∧
      start.units = ((balancesOf accounts filter .asset).map Decimal.units).sum -
        |((balancesOf accounts filter .liability).map Decimal.units).sum| := by
  rw [counted, List.map_append, List.sum_append] at hsize ⊢
  -- both classes are added on their own, and each has room enough
  obtain ⟨assets, hassets, hassetsw, hassetsu⟩ := Decimal.sum_within hs
    (fun d hd => hscale d (List.mem_append_left _ hd)) (by omega)
  obtain ⟨owed, howed, howedw, howedu⟩ := Decimal.sum_within hs
    (fun d hd => hscale d (List.mem_append_right _ hd)) (by omega)
  obtain ⟨start, hstart, hstartw, hstartu⟩ := Decimal.sub_within hs hassetsw howedw.abs hsize
  refine ⟨start, ?_, hstartw, ?_⟩
  · exact bind_eq_ok_iff.2 ⟨assets, hassets, bind_eq_ok_iff.2 ⟨owed, howed, hstart⟩⟩
  · rw [hstartu, Decimal.units_abs, hassetsu, howedu, Int.natCast_natAbs]

/-- What accounts hold that can be added exactly together with other amounts leaves room for these. -/
theorem exists_within_of_sumExact {accounts : List Account} {filter : Option (List Uuid)}
    {start : Decimal} {ds : List Decimal} (hstart : holdings accounts filter = .ok start)
    (hexact : SumExact (counted accounts filter ++ ds)) :
    ∃ s ≤ 28, ∃ m, Within s m start ∧ (∀ d ∈ ds, d.scale ≤ s) ∧
      m + (ds.map (magnitudeAt s)).sum < mantissaBound := by
  obtain ⟨s, hs, hscale, hsize⟩ := hexact
  rw [List.map_append, List.sum_append] at hsize
  obtain ⟨start', hstart', hwithin, -⟩ := holdings_exact hs
    (fun d hd => hscale d (List.mem_append_left _ hd)) (by omega)
  cases hstart.symm.trans hstart'
  exact ⟨s, hs, _, hwithin, fun d hd => hscale d (List.mem_append_right _ hd), hsize⟩

end Account

namespace Outlook

/-- The accounts of a class that count. -/
def countedAccounts (o : Outlook) (snap : Snapshot) (c : AccountClass) : List Account :=
  (snap.ownedBy o.request.household).accounts.filter fun a =>
    a.isActive && a.classification == c && admits o.request.accounts a.id

/-- The entries of which events are expected. -/
def countedEntries (o : Outlook) (snap : Snapshot) : List Entry :=
  (snap.ownedBy o.request.household).entries.filter o.isPending

/-- The definitions of which events are expected. -/
def countedDefinitions (o : Outlook) (snap : Snapshot) : List Recurring :=
  (snap.ownedBy o.request.household).recurring.filter o.isExpected

/-- The amounts of the events: one for each entry, and one for each time a definition comes. -/
def eventAmounts (o : Outlook) (snap : Snapshot) : List Decimal :=
  (o.countedEntries snap).map Entry.amount ++
    (o.countedDefinitions snap).flatMap fun r =>
      List.replicate (r.series.count o.request.window fun _ => true) r.expectedAmount

/-- The balances of the accounts that count. -/
def balances (o : Outlook) (snap : Snapshot) : List Decimal :=
  (o.countedAccounts snap .asset).map Account.balance ++
    (o.countedAccounts snap .liability).map Account.balance

/-- All that is added up on the way to the last balance. -/
def countedAmounts (o : Outlook) (snap : Snapshot) : List Decimal :=
  o.balances snap ++ o.eventAmounts snap

/-- What the accounts hold together, in units: the assets less the amount of the liabilities. -/
def holdings (o : Outlook) (snap : Snapshot) : Int :=
  ((o.countedAccounts snap .asset).map fun a => a.balance.units).sum -
    |((o.countedAccounts snap .liability).map fun a => a.balance.units).sum|

/-- What the balance of a day comes to, in units: the accounts, the entries up to the day, and the
definitions as often as they come up to the day. -/
def ledger (o : Outlook) (snap : Snapshot) (d : Date) : Int :=
  o.holdings snap +
    (((o.countedEntries snap).filter fun e => decide (e.date ≤ d)).map Entry.movement).sum -
    ((o.countedDefinitions snap).map fun r =>
      r.expectedAmount.units * (r.series.count o.request.window fun d' => decide (d' ≤ d) : Int)).sum

variable {o : Outlook} {snap : Snapshot} {es : List Event} {s : Nat}

/-! ## The amounts of the events -/

theorem perm_map_amount (hw : o.request.window.last < Date.latest)
    (h : o.events (snap.ownedBy o.request.household).entries
      (snap.ownedBy o.request.household).recurring = .ok es) :
    (es.map Event.amount).Perm ((o.eventAmounts snap).map Decimal.abs) := by
  obtain ⟨rs, hrs, hperm⟩ := perm_of_events h
  have hrecurring : rs.map Event.amount = ((o.countedDefinitions snap).flatMap fun r =>
      List.replicate (r.series.count o.request.window fun _ => true) r.expectedAmount).map
        Decimal.abs := by
    have hall := map_recurringEvents hw hrs (fun _ => true) fun r e hr => hr.amount_eq
    rw [List.filter_true] at hall
    rw [hall, List.map_flatMap]
    simp only [List.map_replicate]
    rfl
  have hpending : (o.pendingEvents (snap.ownedBy o.request.household).entries).map Event.amount =
      ((o.countedEntries snap).map Entry.amount).map Decimal.abs := by
    rw [pendingEvents, List.map_map, List.map_map]
    rfl
  rw [eventAmounts, List.map_append, ← hpending, ← hrecurring, ← List.map_append]
  exact hperm.map _

theorem scale_le_of_events (hperm : (es.map Event.amount).Perm ((o.eventAmounts snap).map Decimal.abs))
    (hscale : ∀ d ∈ o.eventAmounts snap, d.scale ≤ s) : ∀ e ∈ es, e.amount.scale ≤ s := by
  intro e he
  have hmem := hperm.mem_iff.1 (List.mem_map_of_mem (f := Event.amount) he)
  obtain ⟨d, hd, heq⟩ := List.mem_map.1 hmem
  rw [← heq]
  exact hscale d hd

theorem size_events (hperm : (es.map Event.amount).Perm ((o.eventAmounts snap).map Decimal.abs)) :
    Event.size s es = ((o.eventAmounts snap).map (magnitudeAt s)).sum := by
  have h := (hperm.map (magnitudeAt s)).sum_eq
  rw [List.map_map, List.map_map] at h
  exact h

/-! ## The total of the events up to a day -/

/-- An entry that is asked for is dated in the window. -/
theorem filter_upTo_isPending (hw : o.request.window.last < Date.latest) (entries : List Entry)
    (d : Date) :
    (entries.filter fun e => o.request.window.upTo d e.date).filter o.isPending =
      (entries.filter o.isPending).filter fun e => decide (e.date ≤ d) := by
  rw [List.filter_filter, List.filter_filter]
  refine List.filter_congr fun e _ => ?_
  by_cases he : o.isPending e = true
  · have hday : e.date ∈ o.request.window.days := by
      simp only [isPending, Entry.isWithin, Bool.and_eq_true] at he
      exact (Window.mem_days_iff_contains hw).2 he.2.1
    simp [Window.upTo, he, hday]
  · simp [he]

/-- The dates of a series are counted among those that are walked. -/
theorem count_upTo (series : Series) (w : Window) (d : Date) :
    series.count w (w.upTo d) = series.count w fun d' => decide (d' ≤ d) := by
  refine congrArg List.length (List.filter_congr fun d' hd' => ?_)
  simp [Window.upTo, hd']

theorem total_events_upTo (hw : o.request.window.last < Date.latest)
    (h : o.events (snap.ownedBy o.request.household).entries
      (snap.ownedBy o.request.household).recurring = .ok es) (d : Date) :
    Event.total (es.filter fun e => o.request.window.upTo d e.date) =
      (((o.countedEntries snap).filter fun e => decide (e.date ≤ d)).map Entry.movement).sum -
        ((o.countedDefinitions snap).map fun r =>
          r.expectedAmount.units *
            (r.series.count o.request.window fun d' => decide (d' ≤ d) : Int)).sum := by
  obtain ⟨rs, hrs, hperm⟩ := perm_of_events h
  rw [Event.total_perm (hperm.filter _), List.filter_append, Event.total_append,
    filter_pendingEvents (o.request.window.upTo d), total_pendingEvents, filter_upTo_isPending hw,
    total_recurringEvents hw hrs (o.request.window.upTo d), Int.sub_eq_add_neg]
  simp only [count_upTo]
  rfl

/-! ## The starting balance -/

/-- The accounts can be added exactly, and what they hold together is the starting balance. -/
theorem holdings_within (hs : s ≤ 28) (hscale : ∀ d ∈ o.balances snap, d.scale ≤ s)
    (hsize : ((o.balances snap).map (magnitudeAt s)).sum < mantissaBound) :
    ∃ start, Account.holdings (snap.ownedBy o.request.household).accounts o.request.accounts =
        .ok start ∧
      Within s ((o.balances snap).map (magnitudeAt s)).sum start ∧
      start.units = o.holdings snap := by
  obtain ⟨start, hstart, hwithin, hunits⟩ := Account.holdings_exact hs hscale hsize
  refine ⟨start, hstart, hwithin, ?_⟩
  rw [hunits, Account.balancesOf, Account.balancesOf, List.map_map, List.map_map]
  rfl

/-- The starting balance has room left for all events, if the amounts that count can be added
exactly. -/
theorem within_of_events {start : Decimal} (hs : s ≤ 28)
    (hscale : ∀ d ∈ o.countedAmounts snap, d.scale ≤ s)
    (hsize : ((o.countedAmounts snap).map (magnitudeAt s)).sum < mantissaBound)
    (hw : o.request.window.last < Date.latest)
    (hevents : o.events (snap.ownedBy o.request.household).entries
      (snap.ownedBy o.request.household).recurring = .ok es)
    (hstart : Account.holdings (snap.ownedBy o.request.household).accounts o.request.accounts =
      .ok start) :
    ∃ m, Within s m start ∧ start.units = o.holdings snap ∧ (∀ e ∈ es, e.amount.scale ≤ s) ∧
      m + Event.size s es = ((o.countedAmounts snap).map (magnitudeAt s)).sum := by
  rw [countedAmounts, List.map_append, List.sum_append] at hsize ⊢
  obtain ⟨start', hstart', hwithin, hunits⟩ := holdings_within hs
    (fun d hd => hscale d (List.mem_append_left _ hd)) (by omega)
  cases hstart.symm.trans hstart'
  -- the amounts of the events are those that were assumed to be small enough
  have hperm := perm_map_amount hw hevents
  exact ⟨_, hwithin, hunits,
    scale_le_of_events hperm fun d hd => hscale d (List.mem_append_right _ hd),
    congrArg _ (size_events hperm)⟩

end Outlook

namespace Session

variable {s : Session} {m : Memory} {snap : Snapshot} {past : List Inquiry}
  {curve : List BalancePoint}

/-- The dates and the balances of a curve, in order. -/
theorem dates_balances_of_curve (hsnap : m.snapshot s.request.household = .ok snap)
    (hw : s.request.window.last < Date.latest) (hexact : SumExact (s.outlook.countedAmounts snap))
    (hcurve : s.curveOver m.records = .ok curve) :
    curve.map (fun p => (p.date, p.balance.units)) =
      s.request.window.days.map fun d => (d, s.outlook.ledger snap d) := by
  obtain ⟨scale, hs, hscale, hsize⟩ := hexact
  obtain ⟨events, start, hevents, hstart, hcurve⟩ := curveOver_of_snapshot hsnap hcurve
  obtain ⟨m, hwithin, hunits, hamounts, hsum⟩ :=
    Outlook.within_of_events (o := s.outlook) hs hscale hsize hw hevents hstart
  have hfigures := balanceCurve_figures hs hamounts hwithin (hsum.trans_lt hsize) hcurve
  have hpairs := congrArg (List.map fun f : Figures => (f.date, f.balance)) hfigures
  rw [List.map_map, List.map_map] at hpairs
  refine hpairs.trans (List.map_congr_left fun d _ => ?_)
  have htotal := Outlook.total_events_upTo (o := s.outlook) hw hevents d
  show (d, start.units + Event.total (events.filter fun e => s.request.window.upTo d e.date)) = _
  rw [Outlook.ledger, Int.add_sub_assoc, ← hunits, ← htotal]
  rfl

/-- **The balance law.** Whatever the session was asked before, its curve has a point for each date of
the window, in order, and the balance of a point is what the ledger of the records comes to on its
date, provided that the amounts that count can be added exactly. -/
theorem balance_eq_ledger (hsnap : m.snapshot s.request.household = .ok snap)
    (hw : s.request.window.last < Date.latest) (hexact : SumExact (s.outlook.countedAmounts snap))
    (hcurve : ((s.curve Memory.source).runFrom (s.after Memory.source ({}, m) past)).1 =
      .ok curve) :
    (curve.map BalancePoint.date).Pairwise (· < ·) ∧
    (∀ d, d ∈ curve.map BalancePoint.date ↔ s.request.window.contains d = true) ∧
    ∀ p ∈ curve, p.balance.units = s.outlook.ledger snap p.date := by
  have hpairs := dates_balances_of_curve hsnap hw hexact
    ((curve_after s Memory.records m past).symm.trans hcurve)
  have hdates : curve.map BalancePoint.date = s.request.window.days := by
    have h := congrArg (List.map Prod.fst) hpairs
    rw [List.map_map, List.map_map] at h
    exact h.trans (List.map_id _)
  refine ⟨?_, ?_, ?_⟩
  · rw [hdates]
    exact Window.pairwise_days _
  · intro d
    rw [hdates, Window.mem_days_iff_contains hw]
  · intro p hp
    have hmem := List.mem_map_of_mem (f := fun p : BalancePoint => (p.date, p.balance.units)) hp
    rw [hpairs] at hmem
    obtain ⟨d, -, heq⟩ := List.mem_map.1 hmem
    obtain ⟨rfl, hbalance⟩ := Prod.mk.inj heq
    exact hbalance.symm

/-- In three days with a leap day among them: the salary twice, two rents and the groceries once. -/
theorem sample_balances : ∃ curve,
    ((Sample.session.curve Memory.source).runFrom
      (Sample.session.after Memory.source ({}, Sample.memory) [.report])).1 = .ok curve ∧
    (∀ p ∈ curve, p.balance.units = Sample.session.outlook.ledger Sample.snapshot p.date) ∧
    curve.map (fun p => (p.date, p.balance)) =
      [(Sample.date 2 28, .hundredths 274950), (Sample.date 2 29, .hundredths 185900),
        (Sample.date 3 1, .hundredths 385900)] := by
  obtain ⟨curve, hcurve⟩ : ∃ curve, ((Sample.session.curve Memory.source).runFrom
      (Sample.session.after Memory.source ({}, Sample.memory) [.report])).1 = .ok curve :=
    exists_eq_ok (by decide +kernel)
  have hbalances : (((Sample.session.curve Memory.source).runFrom
      (Sample.session.after Memory.source ({}, Sample.memory) [.report])).1.map
        fun ps => ps.map fun p => (p.date, p.balance)) =
      .ok [(Sample.date 2 28, .hundredths 274950), (Sample.date 2 29, .hundredths 185900),
        (Sample.date 3 1, .hundredths 385900)] := by
    decide +kernel
  have hexact : SumExact (Sample.session.outlook.countedAmounts Sample.snapshot) :=
    ⟨2, by decide, by decide +kernel, by decide +kernel⟩
  rw [hcurve] at hbalances
  exact ⟨curve, hcurve,
    (balance_eq_ledger Sample.snapshot_memory Sample.last_lt_latest hexact hcurve).2.2,
    Except.ok.inj hbalances⟩

end Session

end Forecast
