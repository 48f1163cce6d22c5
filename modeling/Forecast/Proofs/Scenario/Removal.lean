import Forecast.Proofs.Curve.Trace
import Forecast.Proofs.Event.Count
import Forecast.Proofs.Source.Memory

/-!
# Dropping a definition

The curve without a definition takes the definition's events out of those that were found. This is
the curve that one would have if the definition had been deleted from the records before anything was
looked up: `scenarioWithout_eq_deleted`.

The events are found, sorted and kept with the definition in them. Taking out commutes with each of
the steps: a definition's events name it, an entry's events never count as a definition's, and the
order of the others does not hang on what is taken out.
-/

namespace Forecast

/-- The snapshot with every definition of an identifier deleted. -/
def Snapshot.withoutRecurring (snap : Snapshot) (id : Uuid) : Snapshot :=
  { snap with recurring := snap.recurring.filter fun r => r.id != id }

theorem Snapshot.withoutRecurring_ownedBy (snap : Snapshot) (id household : Uuid) :
    (snap.withoutRecurring id).ownedBy household = (snap.ownedBy household).withoutRecurring id := by
  simp only [withoutRecurring, ownedBy, List.filter_filter, Bool.and_comm]

theorem Snapshot.withoutRecurring_of_absent {snap : Snapshot} {id : Uuid}
    (h : ∀ r ∈ snap.recurring, r.id ≠ id) : snap.withoutRecurring id = snap := by
  have hself : (snap.recurring.filter fun r => r.id != id) = snap.recurring := by
    rw [List.filter_eq_self]
    intro r hr
    simpa using h r hr
  rw [withoutRecurring, hself]

/-- An occurrence is taken out exactly if it is one of the definition's. -/
theorem Recurring.Gives.isOccurrenceOf {r : Recurring} {e : Event} (h : r.Gives e) (id : Uuid) :
    e.isOccurrenceOf id = (r.id == id) := by
  rw [Event.isOccurrenceOf, h.origin_eq, h.originId_eq]
  rfl

namespace Outlook

/-- Taking the events of a definition out leaves the events of the other definitions. -/
theorem events_withoutRecurring {o : Outlook} {snap : Snapshot} {es : List Event}
    (h : o.events snap.entries snap.recurring = .ok es) (id : Uuid) :
    o.events (snap.withoutRecurring id).entries (snap.withoutRecurring id).recurring =
      .ok (Event.withoutDefinition es id) := by
  refine events_filter ?_ ?_ h
  · intro r e hr
    rw [hr.isOccurrenceOf]
    rfl
  · -- an entry's event is none of a definition's, whatever identifier it carries
    intro e
    rfl

end Outlook

namespace Session

variable {s : Session} {m : Memory} {snap : Snapshot} {id : Uuid} {past : List Inquiry}
  {points : List ScenarioPoint}

/-- The curve without a definition is computed from the events and the starting balance of the
snapshot in which the definition is deleted. -/
theorem withoutOver_of_snapshot (hsnap : m.snapshot s.request.household = .ok snap)
    (h : s.withoutOver m.records id = .ok points) :
    ∃ events start,
      s.outlook.events ((snap.withoutRecurring id).ownedBy s.request.household).entries
        ((snap.withoutRecurring id).ownedBy s.request.household).recurring = .ok events ∧
      Account.holdings ((snap.withoutRecurring id).ownedBy s.request.household).accounts
        s.request.accounts = .ok start ∧
      scenarioCurve events s.request.window start = .ok points := by
  obtain ⟨events, hevents, start, hstart, hpoints⟩ := withoutOver_eq_ok_iff.1 h
  rw [eventsOver_of_snapshot hsnap, Checked.attempt_eq_ok_iff] at hevents
  rw [balanceOver_of_snapshot hsnap, Checked.attempt_eq_ok_iff] at hstart
  refine ⟨Event.withoutDefinition events id, start, ?_, hstart, hpoints⟩
  rw [Snapshot.withoutRecurring_ownedBy]
  exact s.outlook.events_withoutRecurring hevents id

/-- The curve of the snapshot in which the definition is deleted has the points of the curve without
the definition. -/
theorem toScenarioPoint_of_deleted {m' : Memory} {curve : List BalancePoint}
    (hsnap : m.snapshot s.request.household = .ok snap)
    (hsnap' : m'.snapshot s.request.household = .ok (snap.withoutRecurring id))
    (h : s.withoutOver m.records id = .ok points) (h' : s.curveOver m'.records = .ok curve) :
    points = curve.map BalancePoint.toScenarioPoint := by
  obtain ⟨events, start, hevents, hstart, hpoints⟩ := withoutOver_of_snapshot hsnap h
  obtain ⟨events', start', hevents', hstart', hcurve⟩ := curveOver_of_snapshot hsnap' h'
  cases hevents.symm.trans hevents'
  cases hstart.symm.trans hstart'
  rw [scenarioCurve_of_balanceCurve hcurve] at hpoints
  exact (Except.ok.inj hpoints).symm

/-- **Dropping a definition is the same as deleting it.** Whatever the session was asked before, its
curve without a definition has the points of the curve of a new session over the snapshot with every
definition of that identifier deleted. Each day counts all pending entries and the occurrences of the
other definitions. Where no definition has the identifier the curve is the one with nothing dropped. -/
theorem scenarioWithout_eq_deleted (hsnap : m.snapshot s.request.household = .ok snap)
    (hw : s.request.window.last < Date.latest)
    (hpoints : ((s.scenarioWithout Memory.source id).runFrom
      (s.after Memory.source ({}, m) past)).1 = .ok points) :
    (∀ curve, ((s.curve Memory.source).runFrom ({}, m.insert (snap.withoutRecurring id))).1 =
        .ok curve →
      points = curve.map BalancePoint.toScenarioPoint) ∧
    (∀ p ∈ points, p.eventCount =
      ((snap.ownedBy s.request.household).entries.filter fun e =>
        s.outlook.isPending e && e.date == p.date).length +
      ((((snap.ownedBy s.request.household).withoutRecurring id).recurring.filter
        s.outlook.isExpected).map fun r =>
          r.series.count s.request.window (· == p.date)).sum) ∧
    ((∀ r ∈ snap.recurring, r.id ≠ id) → ∀ past' curve, ((s.curve Memory.source).runFrom
        (s.after Memory.source ({}, m) past')).1 = .ok curve →
      points = curve.map BalancePoint.toScenarioPoint) := by
  have hover : s.withoutOver m.records id = .ok points :=
    (scenarioWithout_after s Memory.records m past id).symm.trans hpoints
  refine ⟨?_, ?_, ?_⟩
  · -- a new session has been asked nothing yet
    intro curve hcurve
    have hsnap' := m.snapshot_insert_self (snap.withoutRecurring id)
    have hhousehold : (snap.withoutRecurring id).household = s.request.household := by
      show snap.household = s.request.household
      exact Memory.household_of_snapshot hsnap
    rw [hhousehold] at hsnap'
    exact toScenarioPoint_of_deleted hsnap hsnap' hover
      ((curve_after s Memory.records _ []).symm.trans hcurve)
  · intro p hp
    obtain ⟨events, start, hevents, -, hcurve⟩ := withoutOver_of_snapshot hsnap hover
    have hmem := List.mem_map_of_mem (f := fun p : ScenarioPoint => (p.date, p.eventCount)) hp
    rw [scenarioCurve_counts hcurve] at hmem
    obtain ⟨d, -, heq⟩ := List.mem_map.1 hmem
    obtain ⟨rfl, hcount⟩ := Prod.mk.inj heq
    rw [← hcount, Outlook.length_events_on hw hevents, Snapshot.withoutRecurring_ownedBy]
    rfl
  · intro habsent past' curve hcurve
    have hsnap' : m.snapshot s.request.household = .ok (snap.withoutRecurring id) := by
      rw [Snapshot.withoutRecurring_of_absent habsent, hsnap]
    exact toScenarioPoint_of_deleted hsnap hsnap' hover
      ((curve_after s Memory.records m past').symm.trans hcurve)

/-- Two definitions of one identifier go, and the entry that shares it stays. -/
theorem sample_withoutRent : ∃ points curve,
    ((Sample.session.scenarioWithout Memory.source Sample.rent).runFrom
      (Sample.session.after Memory.source ({}, Sample.memory) [.curve, .summary])).1 = .ok points ∧
    ((Sample.session.curve Memory.source).runFrom
      ({}, Sample.memory.insert (Sample.snapshot.withoutRecurring Sample.rent))).1 = .ok curve ∧
    points = curve.map BalancePoint.toScenarioPoint ∧
    points.map ScenarioPoint.eventCount = [1, 1, 1] := by
  obtain ⟨points, hpoints⟩ : ∃ points,
      ((Sample.session.scenarioWithout Memory.source Sample.rent).runFrom
        (Sample.session.after Memory.source ({}, Sample.memory) [.curve, .summary])).1 =
          .ok points :=
    exists_eq_ok (by decide +kernel)
  obtain ⟨curve, hcurve⟩ : ∃ curve, ((Sample.session.curve Memory.source).runFrom
      ({}, Sample.memory.insert (Sample.snapshot.withoutRecurring Sample.rent))).1 = .ok curve :=
    exists_eq_ok (by decide +kernel)
  have hcounts : (((Sample.session.scenarioWithout Memory.source Sample.rent).runFrom
      (Sample.session.after Memory.source ({}, Sample.memory) [.curve, .summary])).1.map
        fun ps => ps.map ScenarioPoint.eventCount) = .ok [1, 1, 1] := by
    decide +kernel
  rw [hpoints] at hcounts
  exact ⟨points, curve, hpoints, hcurve,
    (scenarioWithout_eq_deleted Sample.snapshot_memory Sample.last_lt_latest hpoints).1 curve hcurve,
    Except.ok.inj hcounts⟩

end Session

end Forecast
