import Forecast.Proofs.Decimal.Order
import Forecast.Proofs.Event.Count
import Forecast.Proofs.Source.Memory

/-!
# Causes of events

An event is expected of a pending entry, or of a definition on one of the dates its series comes on.
These causes are listed straight from the records, without a walk and without a score
(`Outlook.causes`), and each of them gives an event that is told but for its score (`Cause.Gives`).

The expected events are the events of the causes, one for each, in order (`Outlook.events_exact`): by
date, income first, and those of one date and flow as their causes are listed, the entries before the
definitions.
-/

namespace Forecast

/-- What an event is expected of: a pending entry, or a definition on one of its dates. -/
inductive Cause
  | entry (e : Entry)
  | occurrence (r : Recurring) (d : Date)

namespace Cause

/-- The date on which the money moves. -/
def date : Cause → Date
  | entry e => e.date
  | occurrence _ d => d

/-- The amount as it is recorded, with the sign it came with. -/
def amount : Cause → Decimal
  | entry e => e.amount
  | occurrence r _ => r.expectedAmount

/-- What is moved, in units: an entry moves the magnitude of its amount in the direction of its flow,
and a definition moves its amount with the sign turned round. -/
def movement : Cause → Int
  | entry e => e.movement
  | occurrence r _ => -r.expectedAmount.units

/-- The direction of the money: an entry has its own, and a definition's negative amount comes in. -/
def flow : Cause → Flow
  | entry e => e.classification
  | occurrence r _ => if r.expectedAmount < 0 then .income else .expense

/-- The event is the one of an entry or of a definition, and names and describes it. -/
def Describes : Cause → Event → Prop
  | entry e, event =>
    event.origin = .pending ∧ event.originId = some e.id ∧ event.description = e.name ∧
      event.definition = none ∧ event.least = none ∧ event.greatest = none
  | occurrence r _, event =>
    event.origin = .recurring ∧ event.originId = some r.id ∧ event.description = r.displayName ∧
      event.definition = some r.id ∧ event.least = r.least ∧ event.greatest = r.greatest

/-- The event is the one that is expected of the cause, whatever its score. -/
structure Gives (c : Cause) (e : Event) : Prop where
  date_eq : e.date = c.date
  flow_eq : e.flow = c.flow
  amount_eq : e.amount = c.amount.abs
  negative_eq : e.amount.negative = false
  units_eq : e.signedAmount.units = c.movement
  describes : c.Describes e

end Cause

theorem Flow.ofSigned_eq (amount : Decimal) :
    Flow.ofSigned amount = if amount < 0 then .income else .expense := by
  unfold Flow.ofSigned
  simp only [Decimal.lt_zero_iff, Bool.and_eq_true, Bool.not_eq_true']

namespace Outlook

variable {o : Outlook} {r : Recurring} {d : Date} {e : Event} {es : List Event}
  {entries : List Entry} {definitions : List Recurring}

/-- The causes of the events of a definition: its dates in the window. -/
def occurrences (o : Outlook) (r : Recurring) : List Cause :=
  (o.request.window.days.filter r.series.occursOn).map (.occurrence r)

/-- The causes of all expected events: the pending entries, and then the definitions in use, each on
its dates. -/
def causes (o : Outlook) (entries : List Entry) (definitions : List Recurring) : List Cause :=
  (entries.filter o.isPending).map .entry ++
    (definitions.filter o.isExpected).flatMap o.occurrences

theorem gives_entryEvent (o : Outlook) (e : Entry) : (Cause.entry e).Gives (o.entryEvent e) :=
  ⟨rfl, rfl, rfl, rfl, o.units_entryEvent e, rfl, rfl, rfl, rfl, rfl, rfl⟩

theorem gives_occurrenceEvent (h : o.occurrenceEvent r d = .ok e) :
    (Cause.occurrence r d).Gives e := by
  obtain ⟨hdate, hgives⟩ := of_occurrenceEvent h
  refine ⟨hdate, ?_, hgives.amount_eq, ?_, hgives.units_signedAmount, ?_⟩
  · rw [hgives.flow_eq, Flow.ofSigned_eq]
    rfl
  · rw [hgives.amount_eq]
    rfl
  · obtain ⟨score, -, h⟩ := bind_eq_ok_iff.1 h
    rw [← pure_eq_ok_iff.1 h]
    exact ⟨rfl, rfl, rfl, rfl, rfl, rfl⟩

theorem gives_definitionEvents (hw : o.request.window.last < Date.latest)
    (h : o.definitionEvents r = .ok es) : List.Forall₂ Cause.Gives (o.occurrences r) es := by
  obtain ⟨dates, hdates, hes⟩ := bind_eq_ok_iff.1 h
  rw [Series.dates_eq_filter _ hw] at hdates
  cases hdates
  rw [occurrences, List.forall₂_map_left_iff]
  exact (mapM_eq_ok_iff.1 hes).imp fun _ _ hd => gives_occurrenceEvent hd

theorem gives_recurringEvents (hw : o.request.window.last < Date.latest)
    (h : o.recurringEvents definitions = .ok es) :
    List.Forall₂ Cause.Gives ((definitions.filter o.isExpected).flatMap o.occurrences) es := by
  obtain ⟨lists, hlists, rfl⟩ := recurringEvents_eq_ok_iff.1 h
  rw [List.flatMap_def]
  refine List.rel_flatten ?_
  rw [List.forall₂_map_left_iff]
  exact hlists.imp fun _ _ hr => gives_definitionEvents hw hr

theorem gives_pendingEvents (o : Outlook) (entries : List Entry) :
    List.Forall₂ Cause.Gives ((entries.filter o.isPending).map .entry) (o.pendingEvents entries) := by
  rw [List.forall₂_map_left_iff, pendingEvents, List.forall₂_map_right_iff]
  exact List.forall₂_same.2 fun e _ => o.gives_entryEvent e

/-- Every cause is dated in the window. -/
theorem contains_of_mem_causes {c : Cause} (h : c ∈ o.causes entries definitions) :
    o.request.window.contains c.date = true := by
  rcases List.mem_append.1 h with h | h
  · obtain ⟨e, he, rfl⟩ := List.mem_map.1 h
    have hpending := (List.mem_filter.1 he).2
    simp only [isPending, Entry.isWithin, Bool.and_eq_true] at hpending
    exact hpending.2.1
  · obtain ⟨r, -, hr⟩ := List.mem_flatMap.1 h
    obtain ⟨d, hd, rfl⟩ := List.mem_map.1 hr
    exact (Window.mem_days_iff.1 (List.mem_of_mem_filter hd)).1

end Outlook

namespace Event

theorem le_iff {a b : Event} :
    le a b = true ↔ a.date < b.date ∨ a.date = b.date ∧ (a.flow = .expense → b.flow = .expense) := by
  unfold le
  cases a.flow <;> cases b.flow <;> simp [Flow.rank]

/-- Events of one date and flow stay in the order in which they came. -/
theorem filter_sorted_tied (es : List Event) (d : Date) (flow : Flow) :
    ((sorted es).filter fun e => e.date == d && e.flow == flow) =
      es.filter fun e => e.date == d && e.flow == flow := by
  rw [filter_sorted]
  refine stableSort_of_pairwise (List.pairwise_of_forall_mem_list ?_)
  intro a ha b hb
  simp only [List.mem_filter, Bool.and_eq_true, beq_iff_eq] at ha hb
  exact le_iff.2 (Or.inr ⟨ha.2.1.trans hb.2.1.symm, fun h => hb.2.2.trans (ha.2.2.symm.trans h)⟩)

end Event

namespace Outlook

variable {o : Outlook} {es : List Event} {entries : List Entry} {definitions : List Recurring}

/-- Every expected event has a cause. -/
theorem exists_cause_of_mem_events (hw : o.request.window.last < Date.latest)
    (h : o.events entries definitions = .ok es) :
    ∀ e ∈ es, ∃ c ∈ o.causes entries definitions, c.Gives e := by
  obtain ⟨rs, hrs, hperm⟩ := perm_of_events h
  intro e he
  exact exists_of_mem_right
    (List.rel_append (gives_pendingEvents o entries) (gives_recurringEvents hw hrs))
    (hperm.mem_iff.1 he)

/-- **The expected events are those of their causes.** Each pending entry that the request asks for and
each date of each definition in use gives one event, and there are no others. The events are dated in
the window and come by date, income before expenses; those of one date and flow are in the order of
their causes, entries first. -/
theorem events_exact (hw : o.request.window.last < Date.latest)
    (h : o.events entries definitions = .ok es) :
    ∃ found, List.Forall₂ Cause.Gives (o.causes entries definitions) found ∧
      es.Perm found ∧
      (∀ e ∈ es, o.request.window.contains e.date = true) ∧
      es.Pairwise (fun a b =>
        a.date < b.date ∨ a.date = b.date ∧ (a.flow = .expense → b.flow = .expense)) ∧
      ∀ d flow, (es.filter fun e => e.date == d && e.flow == flow) =
        found.filter fun e => e.date == d && e.flow == flow := by
  obtain ⟨rs, hrs, rfl⟩ := events_eq_ok_iff.1 h
  have hgives := List.rel_append (gives_pendingEvents o entries) (gives_recurringEvents hw hrs)
  have hperm := perm_stableSort Event.le (o.pendingEvents entries ++ rs)
  refine ⟨_, hgives, hperm, ?_, ?_, Event.filter_sorted_tied _⟩
  · intro e he
    obtain ⟨c, hc, hce⟩ := exists_of_mem_right hgives (hperm.mem_iff.1 he)
    rw [hce.date_eq]
    exact contains_of_mem_causes hc
  · exact (pairwise_stableSort Event.le_total Event.le_trans _).imp Event.le_iff.1

/-- On the leap day an income and four expenses: the entry before the three definitions, which are in
the order of the records and not of their amounts or names. -/
theorem sample_events : Sample.session.outlook.request.window.last < Date.latest ∧
    ∃ es found,
      Sample.session.outlook.events Sample.snapshot.entries Sample.snapshot.recurring = .ok es ∧
      es.map (fun e => (e.date, e.description)) =
        [(Sample.date 2 28, "salary"), (Sample.date 2 29, "theirs"), (Sample.date 2 29, "groceries"),
          (Sample.date 2 29, "flat"), (Sample.date 2 29, "garage"), (Sample.date 2 29, "theirs"),
          (Sample.date 3 1, "salary")] ∧
      List.Forall₂ Cause.Gives
        (Sample.session.outlook.causes Sample.snapshot.entries Sample.snapshot.recurring) found ∧
      es.Perm found := by
  have hw : Sample.session.outlook.request.window.last < Date.latest := Sample.last_lt_latest
  obtain ⟨es, hes⟩ : ∃ es, Sample.session.outlook.events Sample.snapshot.entries
      Sample.snapshot.recurring = .ok es :=
    exists_eq_ok (by decide +kernel)
  have hlist : (Sample.session.outlook.events Sample.snapshot.entries
      Sample.snapshot.recurring).map (fun es => es.map fun e => (e.date, e.description)) =
        .ok [(Sample.date 2 28, "salary"), (Sample.date 2 29, "theirs"),
          (Sample.date 2 29, "groceries"), (Sample.date 2 29, "flat"), (Sample.date 2 29, "garage"),
          (Sample.date 2 29, "theirs"), (Sample.date 3 1, "salary")] := by
    decide +kernel
  rw [hes] at hlist
  obtain ⟨found, hgives, hperm, -, -, -⟩ := events_exact hw hes
  exact ⟨hw, es, found, hes, Except.ok.inj hlist, hgives, hperm⟩

end Outlook

end Forecast
