import Forecast.Proofs.Confidence.Order
import Forecast.Proofs.Confidence.Safety
import Forecast.Proofs.Report.Totals
import Forecast.Proofs.Scenario.Outcome
import Forecast.Proofs.Session.Balance

/-!
# Sessions without faults

Where the settings pass the check and take at most the whole score off per day, where what is stored of
the definitions are scores and the window ends before the last date there is, no score and no date can
fault (`Session.Safe`). Where besides all amounts can be added exactly, no sum can. And these are all the
computations there are: whatever a session over records in memory is asked, it has an answer
(`Session.exists_answer`).

An inquiry may bring amounts of its own (`Inquiry.amounts`), which are added to those of the records.
-/

namespace Forecast

open Decimal (Within SumExact mantissaBound magnitudeAt)

/-- The amounts that are added because of the inquiry. -/
def Inquiry.amounts : Inquiry → List Decimal
  | scenarioWith amount _ _ _ => [amount]
  | run plan => plan.amounts
  | _ => []

/-! ## Events -/

namespace Outlook

variable {o : Outlook} {r : Recurring} {definitions : List Recurring}

/-- A definition has its events: it comes on dates before the last one, and no score faults on them. -/
theorem exists_definitionEvents (hw : o.request.window.last < Date.latest)
    (hfits : o.confidence.DecayFits) (hbase : (o.confidence.baseScore r).AtMost 1) :
    ∃ es, o.definitionEvents r = .ok es := by
  obtain ⟨es, hes⟩ : ∃ es, (o.request.window.days.filter r.series.occursOn).mapM
      (o.occurrenceEvent r) = .ok es := by
    refine exists_mapM_eq_ok_iff.2 fun d _ => ?_
    obtain ⟨score, hscore⟩ := ConfidenceSettings.exists_decay hfits hbase d o.today
    exact ⟨_, bind_eq_ok_iff.2 ⟨score, hscore, rfl⟩⟩
  exact ⟨es, bind_eq_ok_iff.2 ⟨_, Series.dates_eq_filter _ hw, hes⟩⟩

theorem exists_events (hw : o.request.window.last < Date.latest) (hfits : o.confidence.DecayFits)
    (hbase : ∀ r ∈ definitions.filter o.isExpected, (o.confidence.baseScore r).AtMost 1)
    (entries : List Entry) : ∃ es, o.events entries definitions = .ok es := by
  obtain ⟨lists, hlists⟩ : ∃ lists, (definitions.filter o.isExpected).mapM o.definitionEvents =
      .ok lists :=
    exists_mapM_eq_ok_iff.2 fun r hr => exists_definitionEvents hw hfits (hbase r hr)
  have hrecurring : o.recurringEvents definitions = .ok lists.flatten :=
    recurringEvents_eq_ok_iff.2 ⟨lists, mapM_eq_ok_iff.1 hlists, rfl⟩
  exact ⟨_, events_eq_ok_iff.2 ⟨_, hrecurring, rfl⟩⟩

end Outlook

namespace Session

/-- What keeps the scores and the dates of a session over a snapshot from faults. -/
structure Safe (s : Session) (snap : Snapshot) : Prop where
  last_lt_latest : s.request.window.last < Date.latest
  check_eq_ok : s.settings.check = .ok ()
  decayPerDay_le_one : s.settings.confidence.decayPerDay ≤ 1
  /-- What is stored of a definition in use is a score. -/
  stored_between : ∀ r ∈ s.outlook.countedDefinitions snap, ∀ stored, r.confidence = some stored →
    0 ≤ stored ∧ stored ≤ 1
  /-- There are no more entries than can be counted in 64 bits, as a list in memory is. -/
  entries_length_lt : snap.entries.length < UInt64.size
  /-- Nor are there more definitions. -/
  recurring_length_lt : snap.recurring.length < UInt64.size

variable {s : Session} {snap : Snapshot} {events : List Event} {start : Decimal} {q : Inquiry}
  {curve : List BalancePoint} {scale m : Nat}

namespace Safe

theorem flaw?_eq_none (h : s.Safe snap) : s.settings.confidence.flaw? = none :=
  (Settings.check_eq_ok_iff.1 h.check_eq_ok).2

theorem decayFits (h : s.Safe snap) : s.settings.confidence.DecayFits := by
  have hrate := (ConfidenceSettings.flaw?_eq_none_iff.1 h.flaw?_eq_none).2.2
  exact ConfidenceSettings.decayFits_of_atMost_one
    (Decimal.atMost_one_of_le hrate h.decayPerDay_le_one)

theorem exists_events (h : s.Safe snap) :
    ∃ events, s.outlook.events (snap.ownedBy s.request.household).entries
      (snap.ownedBy s.request.household).recurring = .ok events := by
  refine Outlook.exists_events (o := s.outlook) h.last_lt_latest h.decayFits ?_ _
  intro r hr
  exact ConfidenceSettings.atMost_baseScore h.flaw?_eq_none (h.stored_between r hr)

/-- No day has so many events that the mean of their scores could not be taken. -/
theorem exists_dayScore (h : s.Safe snap)
    (hevents : s.outlook.events (snap.ownedBy s.request.household).entries
      (snap.ownedBy s.request.household).recurring = .ok events) (d : Date) :
    ∃ score, s.settings.confidence.dayScore (events.filter fun e => e.date == d)
      (s.request.window.offsetOf d) = .ok score := by
  have hheld := Outlook.held_of_mem_events hevents
  have hcount := Outlook.length_events_on_le (o := s.outlook) h.last_lt_latest hevents d
  have hentries : (snap.ownedBy s.request.household).entries.length ≤ snap.entries.length :=
    List.length_filter_le _ _
  have hdefinitions : (snap.ownedBy s.request.household).recurring.length ≤ snap.recurring.length :=
    List.length_filter_le _ _
  have hentries' := h.entries_length_lt
  have hdefinitions' := h.recurring_length_lt
  have hroom : UInt64.size * 2 < mantissaBound := by decide
  refine ConfidenceSettings.exists_dayScore h.decayFits ?_ (by omega) d s.request.window.first
  intro e he
  have hscore := hheld e (List.mem_of_mem_filter he)
  exact ⟨le_of_lt hscore.pos, hscore.le_one⟩

theorem exists_toldCurve (h : s.Safe snap)
    (hevents : s.outlook.events (snap.ownedBy s.request.household).entries
      (snap.ownedBy s.request.household).recurring = .ok events) (hs : scale ≤ 28)
    (hscale : ∀ e ∈ events, e.amount.scale ≤ scale) (hstart : Within scale m start)
    (hsize : m + Event.size scale events < mantissaBound) :
    ∃ curve, s.toldCurve events start = .ok curve := by
  obtain ⟨points, hpoints, -⟩ :=
    scenarioCurve_figures (w := s.request.window) hs hscale hstart hsize
  exact exists_balanceCurve hpoints fun d _ => h.exists_dayScore hevents d

end Safe

/-- Where the curve is told and all amounts can be added exactly, everything is told. -/
theorem exists_told (hs : scale ≤ 28) (hscale : ∀ e ∈ events, e.amount.scale ≤ scale)
    (hamounts : ∀ d ∈ q.amounts, d.scale ≤ scale) (hstart : Within scale m start)
    (hsize : m + (Event.size scale events + (q.amounts.map (magnitudeAt scale)).sum) < mantissaBound)
    (hw : s.request.window.last < Date.latest)
    (hin : ∀ e ∈ events, s.request.window.contains e.date = true)
    (hcurve : s.toldCurve events start = .ok curve) : ∃ a, s.told events start q = .ok a := by
  have halerts : s.toldAlerts events start = .ok (s.alertsOf curve) :=
    bind_eq_ok_iff.2 ⟨curve, hcurve, rfl⟩
  obtain ⟨summary, hsummary, -⟩ :=
    Summary.exists_of_exact hs hscale (by omega) curve start s.request.window
  cases q with
  | startingBalance => exact ⟨start, rfl⟩
  | projections => exact ⟨events, rfl⟩
  | projectionsOn date => exact ⟨_, rfl⟩
  | curve => exact ⟨curve, hcurve⟩
  | summary => exact ⟨summary, bind_eq_ok_iff.2 ⟨curve, hcurve, hsummary⟩⟩
  | alerts => exact ⟨_, halerts⟩
  | report => exact ⟨_, toldReport_eq_ok_iff.2 ⟨curve, hcurve, summary, hsummary, rfl⟩⟩
  | scenarioWith amount date flow description =>
    exact (Plan.addTransaction amount date flow description).exists_scenarioCurve hs hscale hamounts
      hstart hsize _
  | scenarioWithout definition =>
    exact (Plan.removeRecurring definition).exists_scenarioCurve hs hscale hamounts hstart hsize _
  | run plan =>
    obtain ⟨outcome, -, houtcome, -⟩ := exists_told_run hs hscale hamounts hstart hsize hw hin hcurve
    exact ⟨outcome, houtcome⟩
  | upcoming limit => exact ⟨_, bind_eq_ok_iff.2 ⟨_, halerts, rfl⟩⟩
  | upcomingStandard => exact ⟨_, bind_eq_ok_iff.2 ⟨_, halerts, rfl⟩⟩

/-- **No fault in the safe region.** A session over a memory that holds its household is safe, and the
balances, the amounts of the events and those of the inquiry can be added exactly. Then every inquiry is
answered, whatever was asked before. -/
theorem exists_answer {m : Memory} (hsnap : m.snapshot s.request.household = .ok snap)
    (hsafe : s.Safe snap) (hexact : SumExact (s.outlook.countedAmounts snap ++ q.amounts))
    (past : List Inquiry) : ∃ a, s.answerAfter Memory.source m past q = .ok a := by
  obtain ⟨scale, hs, hscale, hsize⟩ := hexact
  rw [List.map_append, List.sum_append] at hsize
  have hw := hsafe.last_lt_latest
  obtain ⟨events, hevents⟩ := hsafe.exists_events
  have hbalances : ∀ d ∈ s.outlook.balances snap, d.scale ≤ scale := fun d hd =>
    hscale d (List.mem_append_left _ (List.mem_append_left _ hd))
  have hroom : ((s.outlook.balances snap).map (magnitudeAt scale)).sum ≤
      ((s.outlook.countedAmounts snap).map (magnitudeAt scale)).sum := by
    rw [Outlook.countedAmounts, List.map_append, List.sum_append]
    exact Nat.le_add_right _ _
  obtain ⟨start, hstart, -⟩ := Outlook.holdings_within (o := s.outlook) hs hbalances (by omega)
  -- the starting balance leaves room for the events and for what the inquiry adds
  obtain ⟨room, hwithin, -, hplaces, hsum⟩ := Outlook.within_of_events (o := s.outlook) hs
    (fun d hd => hscale d (List.mem_append_left _ hd)) (by omega) hw hevents hstart
  obtain ⟨curve, hcurve⟩ := hsafe.exists_toldCurve hevents hs hplaces hwithin (by omega)
  obtain ⟨a, ha⟩ := exists_told (q := q) hs hplaces
    (fun d hd => hscale d (List.mem_append_right _ hd)) hwithin (by omega) hw
    (Outlook.contains_of_mem_events (o := s.outlook) hw hevents) hcurve
  exact ⟨a, (answerAfter_eq_ok_iff hsnap).2 ((answerFrom_eq_told hevents hstart q).trans ha)⟩

end Session

namespace Sample

/-- The household with definitions that are sure. -/
def certain : Snapshot :=
  { snapshot with recurring := snapshot.recurring.map fun r => { r with confidence := some 1 } }

/-- The household seen from the first day there is, when each day takes the whole score off. -/
def distant : Session :=
  { session with
    settings := { confidence := { decayPerDay := 1 } }
    today := Date.earliest }

theorem distant_safe : distant.Safe certain where
  last_lt_latest := last_lt_latest
  check_eq_ok := by decide +kernel
  decayPerDay_le_one := by decide
  stored_between := by
    have hall : ∀ r ∈ distant.outlook.countedDefinitions certain, r.confidence = some 1 := by
      decide +kernel
    intro r hr stored hstored
    obtain rfl := Option.some.inj ((hall r hr).symm.trans hstored)
    exact ⟨by decide, by decide⟩
  entries_length_lt := by decide
  recurring_length_lt := by decide

end Sample

namespace Session

/-- From so far away all scores are at the floor, and nothing faults. -/
theorem sample_distant : ∃ outcome : WhatIf,
    Sample.distant.answerAfter Memory.source (({} : Memory).insert Sample.certain) [.report]
      (.run Sample.fee) = .ok outcome ∧
    outcome.expected.map BalancePoint.confidence = [.tenths 3, .tenths 3, .tenths 3] := by
  have hexact : SumExact (Sample.distant.outlook.countedAmounts Sample.certain ++
      Sample.fee.amounts) :=
    ⟨3, by decide, by decide +kernel, by decide +kernel⟩
  have hscores : (Sample.distant.answerAfter Memory.source (({} : Memory).insert Sample.certain)
      [.report] (.run Sample.fee)).map (fun outcome : WhatIf =>
        outcome.expected.map BalancePoint.confidence) = .ok [.tenths 3, .tenths 3, .tenths 3] := by
    decide +kernel
  obtain ⟨outcome, houtcome⟩ := exists_answer (q := .run Sample.fee)
    (Memory.snapshot_insert_self {} Sample.certain) Sample.distant_safe hexact [.report]
  rw [houtcome] at hscores
  exact ⟨outcome, houtcome, Except.ok.inj hscores⟩

end Session

end Forecast
