import Forecast.Proofs.Scenario.Addition

/-!
# Recording a transaction

A hypothetical transaction tells in advance what the curve will be once the transaction is recorded.
Recorded, it is one more pending entry, and takes another way: it passes the filters of the source and
of the session, its event is sorted in among the others of its day, and the curve is one with scores.
All the same the curves show the same figures on each day: `Session.scenarioWith_eq_recorded`.

A curve in numbers hangs only on what the events move on which dates, and not on their order
(`scenarioCurve_figures_perm`). By date and movement the hypothetical event is the event of the entry.
-/

namespace Forecast

open Decimal (Within SumExact mantissaBound magnitudeAt)

namespace Event

variable {es es' : List Event}

/-- The date of the event and what it moves. -/
def moves (e : Event) : Date × Decimal :=
  (e.date, e.signedAmount)

theorem total_filter_date (p : Date → Bool) (es : List Event) :
    total (es.filter fun e => p e.date) =
      (((es.map moves).filter fun m => p m.1).map fun m => m.2.units).sum := by
  rw [List.filter_map, List.map_map]
  rfl

theorem length_filter_date (p : Date → Bool) (es : List Event) :
    (es.filter fun e => p e.date).length = ((es.map moves).filter fun m => p m.1).length := by
  rw [List.filter_map, List.length_map]
  rfl

theorem total_filter_date_perm (h : (es.map moves).Perm (es'.map moves)) (p : Date → Bool) :
    total (es.filter fun e => p e.date) = total (es'.filter fun e => p e.date) := by
  rw [total_filter_date, total_filter_date, ((h.filter _).map _).sum_eq]

theorem length_filter_date_perm (h : (es.map moves).Perm (es'.map moves)) (p : Date → Bool) :
    (es.filter fun e => p e.date).length = (es'.filter fun e => p e.date).length := by
  rw [length_filter_date, length_filter_date, (h.filter _).length_eq]

theorem size_perm_moves (h : (es.map moves).Perm (es'.map moves)) (s : Nat) :
    size s es = size s es' := by
  have hsum := (h.map fun m => m.2.magnitudeAt s).sum_eq
  simpa [size, Function.comp_def, moves] using hsum

theorem scale_le_perm_moves {s : Nat} (h : (es.map moves).Perm (es'.map moves))
    (hscale : ∀ e ∈ es, e.amount.scale ≤ s) : ∀ e ∈ es', e.amount.scale ≤ s := by
  intro e he
  obtain ⟨e₀, he₀, heq⟩ := List.mem_map.1 (h.mem_iff.2 (List.mem_map_of_mem he))
  have hsame : e₀.signedAmount = e.signedAmount := (Prod.mk.inj heq).2
  rw [← scale_signedAmount, ← hsame, scale_signedAmount]
  exact hscale e₀ he₀

end Event

/-- Where the amounts can be added exactly, events that move the same on the same dates make a curve
of the same figures. -/
theorem scenarioCurve_figures_perm {s m : Nat} {es es' : List Event} {w : Window} {start : Decimal}
    {ps ps' : List ScenarioPoint} (hs : s ≤ 28) (hscale : ∀ e ∈ es, e.amount.scale ≤ s)
    (hstart : Within s m start) (hsize : m + Event.size s es < mantissaBound)
    (hperm : (es.map Event.moves).Perm (es'.map Event.moves))
    (h : scenarioCurve es w start = .ok ps) (h' : scenarioCurve es' w start = .ok ps') :
    ps.map ScenarioPoint.figures = ps'.map ScenarioPoint.figures := by
  obtain ⟨qs, hqs, hfig⟩ := scenarioCurve_figures (w := w) hs hscale hstart hsize
  obtain ⟨qs', hqs', hfig'⟩ := scenarioCurve_figures (w := w) hs
    (Event.scale_le_perm_moves hperm hscale) hstart
    (by rw [← Event.size_perm_moves hperm]; exact hsize)
  cases h.symm.trans hqs
  cases h'.symm.trans hqs'
  rw [hfig, hfig']
  refine List.map_congr_left fun d _ => ?_
  rw [Event.total_filter_date_perm hperm (w.upTo d), Event.total_filter_date_perm hperm (· == d),
    Event.length_filter_date_perm hperm (· == d)]

namespace Outlook

variable {o : Outlook} {e : Entry} {entries entries' : List Entry} {definitions : List Recurring}
  {es es' : List Event}

theorem pendingEvents_cons (o : Outlook) (e : Entry) (entries : List Entry) :
    o.pendingEvents (e :: entries) =
      (if o.isPending e then [o.entryEvent e] else []) ++ o.pendingEvents entries := by
  show ((e :: entries).filter o.isPending).map o.entryEvent = _
  by_cases h : o.isPending e = true
  · rw [if_pos h, List.filter_cons_of_pos h]
    rfl
  · rw [if_neg h, List.filter_cons_of_neg h]
    rfl

/-- One more entry, wherever it is put, gives one more event if it is pending and asked for. -/
theorem perm_events_of_entry (hentries : entries'.Perm (e :: entries))
    (h : o.events entries definitions = .ok es) (h' : o.events entries' definitions = .ok es') :
    es'.Perm ((if o.isPending e then [o.entryEvent e] else []) ++ es) := by
  obtain ⟨rs, hrs, hperm⟩ := perm_of_events h
  obtain ⟨rs', hrs', hperm'⟩ := perm_of_events h'
  cases hrs.symm.trans hrs'
  have hpending : (o.pendingEvents entries').Perm (o.pendingEvents (e :: entries)) :=
    (hentries.filter _).map _
  rw [pendingEvents_cons] at hpending
  refine hperm'.trans ((hpending.append_right rs).trans ?_)
  rw [List.append_assoc]
  exact hperm.symm.append_left _

/-- By date and movement the event of an entry is the hypothetical event. -/
theorem moves_entryEvent (o : Outlook) (e : Entry) (description : String) :
    (o.entryEvent e).moves =
      (Event.hypothetical e.date e.classification e.amount description).moves := rfl

/-- The curve with a hypothetical event has the figures of the curve with the event of the entry, if
this is asked for, and of the curve without it, if it is not. -/
theorem figures_of_recorded (o : Outlook) {w : Window} {s m : Nat} {start : Decimal}
    {description : String} {ps ps' : List ScenarioPoint} (hs : s ≤ 28)
    (hscale : ∀ e ∈ es, e.amount.scale ≤ s) (hamount : e.amount.scale ≤ s)
    (hstart : Within s m start)
    (hsize : m + Event.size s es + e.amount.magnitudeAt s < mantissaBound)
    (hperm : es'.Perm ((if w.contains e.date then [o.entryEvent e] else []) ++ es))
    (h : scenarioCurve (Event.withAdded es (.hypothetical e.date e.classification e.amount
      description)) w start = .ok ps)
    (h' : scenarioCurve es' w start = .ok ps') :
    ps.map ScenarioPoint.figures = ps'.map ScenarioPoint.figures := by
  cases hin : w.contains e.date with
  | false =>
    rw [hin, if_neg Bool.false_ne_true, List.nil_append] at hperm
    rw [scenarioCurve_withAdded_of_not_mem (Window.not_mem_days hin)] at h
    exact scenarioCurve_figures_perm hs hscale hstart (by omega) (hperm.map _).symm h h'
  | true =>
    rw [hin, if_pos rfl] at hperm
    have hmoves := ((Event.perm_withAdded es (.hypothetical e.date e.classification e.amount
      description)).trans List.perm_append_comm).map Event.moves
    rw [List.map_append, List.map_singleton, ← o.moves_entryEvent, ← List.map_singleton,
      ← List.map_append] at hmoves
    refine scenarioCurve_figures_perm hs (Event.scale_le_withAdded hscale hamount) hstart ?_
      (hmoves.trans (hperm.map _).symm) h h'
    rw [Event.size_withAdded, ← Nat.add_assoc]
    exact hsize

end Outlook

/-- An outlay on the leap day, recorded as an entry of the household. -/
def Sample.recordedOutlay : Entry where
  id := { value := 40 }
  household := home
  account := checking
  date := date 2 29
  name := "outlay"
  classification := .expense
  amount := .hundredths 5025
  pending := true

/-- The snapshot with other entries. -/
def Snapshot.withEntries (snap : Snapshot) (entries : List Entry) : Snapshot :=
  { snap with entries }

/-- The snapshot of the household with the outlay between its entries. -/
def Sample.snapshotWithOutlay : Snapshot :=
  snapshot.withEntries (snapshot.entries.take 1 ++ recordedOutlay :: snapshot.entries.drop 1)

/-- The snapshot with one more entry among the others has one more among those of its household. -/
theorem Snapshot.perm_entries_ownedBy {snap : Snapshot} {pre post : List Entry} {e : Entry}
    {household : Uuid} (hentries : snap.entries = pre ++ post) (howned : e.household = household) :
    ((snap.withEntries (pre ++ e :: post)).ownedBy household).entries.Perm
      (e :: (snap.ownedBy household).entries) := by
  have hmiddle : (pre ++ e :: post).Perm (e :: (pre ++ post)) := List.perm_middle
  have hperm := hmiddle.filter fun e => e.household == household
  rw [List.filter_cons_of_pos (by simpa using howned), ← hentries] at hperm
  exact hperm

namespace Session

variable {s : Session}

/-- **A hypothetical transaction is worth a recorded one.** Let one more entry be put into the snapshot
of the household, anywhere among the others, pending and on an account of the request. Where the
amounts that count can be added exactly, the hypothetical transaction of its amount, date and direction
makes a curve over the old snapshot that shows on each day what the curve over the new one shows,
whatever was asked of either before. -/
theorem scenarioWith_eq_recorded {m m' : Memory} {snap : Snapshot} {pre post : List Entry}
    {e : Entry} {description : String} {past past' : List Inquiry} {points : List ScenarioPoint}
    {curve : List BalancePoint} (hsnap : m.snapshot s.request.household = .ok snap)
    (hentries : snap.entries = pre ++ post)
    (hsnap' : m'.snapshot s.request.household = .ok (snap.withEntries (pre ++ e :: post)))
    (hw : s.request.window.last < Date.latest) (hpending : e.pending = true)
    (howned : e.household = s.request.household)
    (hadmitted : admits s.request.accounts e.account = true)
    (hexact : SumExact (s.outlook.countedAmounts snap ++ [e.amount]))
    (hpoints : ((s.scenarioWith Memory.source e.amount e.date e.classification description).runFrom
      (s.after Memory.source ({}, m) past)).1 = .ok points)
    (hcurve : ((s.curve Memory.source).runFrom (s.after Memory.source ({}, m') past')).1 =
      .ok curve) :
    points.map ScenarioPoint.figures = curve.map fun b => b.toScenarioPoint.figures := by
  obtain ⟨events, start, hevents, hstart, hpoints⟩ := told_of_snapshot
    (q := .scenarioWith e.amount e.date e.classification description) hsnap hpoints
  have hevents := hevents rfl
  have hstart := hstart rfl
  change scenarioCurve (Event.withAdded events (.hypothetical e.date e.classification e.amount
    description)) s.request.window start = .ok points at hpoints
  obtain ⟨events', start', hevents', hstart', hcurve⟩ :=
    curveOver_of_snapshot hsnap' ((curve_after s Memory.records m' past').symm.trans hcurve)
  cases hstart.symm.trans hstart'
  have hperm := Outlook.perm_events_of_entry (o := s.outlook)
    (Snapshot.perm_entries_ownedBy hentries howned) hevents hevents'
  have hasked : s.outlook.isPending e = s.request.window.contains e.date := by
    simp [Outlook.isPending, Entry.isWithin, hpending, hadmitted, Session.outlook]
  rw [hasked] at hperm
  obtain ⟨scale, hs, hscale, hsize⟩ := hexact
  rw [List.map_append, List.sum_append, List.map_singleton, List.sum_singleton] at hsize
  obtain ⟨m, hwithin, -, hamounts, hsum⟩ := Outlook.within_of_events (o := s.outlook) hs
    (fun d hd => hscale d (List.mem_append_left _ hd)) (by omega) hw hevents hstart
  have hamount : e.amount.scale ≤ scale := hscale _ (List.mem_append_right _ List.mem_cons_self)
  rw [← hsum] at hsize
  have hfigures := s.outlook.figures_of_recorded hs hamounts hamount hwithin hsize hperm hpoints
    (scenarioCurve_of_balanceCurve hcurve)
  rw [hfigures, List.map_map]
  rfl

/-- The outlay of the leap day is put between the entries of the household. -/
theorem sample_recorded : ∃ points curve,
    ((Sample.session.scenarioWith Memory.source (.hundredths 5025) (Sample.date 2 29) .expense
      "outlay").runFrom (Sample.session.after Memory.source ({}, Sample.memory) [.summary])).1 =
        .ok points ∧
    ((Sample.session.curve Memory.source).runFrom
      (Sample.session.after Memory.source ({}, Sample.memory.insert Sample.snapshotWithOutlay)
        [.projections])).1 = .ok curve ∧
    points.map ScenarioPoint.figures = curve.map fun b => b.toScenarioPoint.figures := by
  obtain ⟨points, hpoints⟩ : ∃ points,
      ((Sample.session.scenarioWith Memory.source (.hundredths 5025) (Sample.date 2 29) .expense
        "outlay").runFrom (Sample.session.after Memory.source ({}, Sample.memory) [.summary])).1 =
          .ok points :=
    exists_eq_ok (by decide +kernel)
  obtain ⟨curve, hcurve⟩ : ∃ curve,
      ((Sample.session.curve Memory.source).runFrom
        (Sample.session.after Memory.source ({}, Sample.memory.insert Sample.snapshotWithOutlay)
          [.projections])).1 = .ok curve :=
    exists_eq_ok (by decide +kernel)
  have hexact : SumExact (Sample.session.outlook.countedAmounts Sample.snapshot ++
      [Sample.recordedOutlay.amount]) :=
    ⟨2, by decide, by decide +kernel, by decide +kernel⟩
  exact ⟨points, curve, hpoints, hcurve,
    scenarioWith_eq_recorded (e := Sample.recordedOutlay) Sample.snapshot_memory
      (List.take_append_drop 1 _).symm (Memory.snapshot_insert_self _ _) Sample.last_lt_latest rfl
      rfl rfl hexact hpoints hcurve⟩

end Session

end Forecast
