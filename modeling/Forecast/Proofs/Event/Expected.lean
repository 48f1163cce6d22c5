import Forecast.Event.Expected
import Forecast.Proofs.Calendar.Occurrences
import Forecast.Proofs.Event.Totals
import Forecast.Proofs.Success

/-!
# Where expected events come from

The events of a request are those of its pending entries and those of its definitions, in another
order (`perm_of_events`). A definition gives one event for each of its dates, and what the event moves
is the definition's amount with the sign turned round (`events_of_definition`). Leaving definitions
out leaves out their events and keeps the others as they are (`recurringEvents_filter`).
-/

namespace Forecast

/-- The event is one that a definition gives: it has the magnitude and the flow of the expected amount
and names the definition as where it comes from. -/
structure Recurring.Gives (r : Recurring) (e : Event) : Prop where
  amount_eq : e.amount = r.expectedAmount.abs
  flow_eq : e.flow = Flow.ofSigned r.expectedAmount
  origin_eq : e.origin = .recurring
  originId_eq : e.originId = some r.id

theorem Decimal.abs_of_negative {d : Decimal} (h : d.negative = true) : d.abs = -d := by
  show _ = Decimal.neg d
  simp [Decimal.abs, Decimal.neg, h]

theorem Decimal.abs_of_not_negative {d : Decimal} (h : d.negative = false) : d.abs = d := by
  cases d
  cases h
  rfl

/-- A magnitude in the direction that is read off a signed amount is the opposite of this amount. -/
theorem Flow.units_ofSigned {amount : Decimal} {e : Event} (ha : e.amount = amount.abs)
    (hf : e.flow = Flow.ofSigned amount) : e.signedAmount.units = -amount.units := by
  unfold Event.signedAmount
  rw [hf, ha]
  unfold Flow.ofSigned
  by_cases hn : amount.negative = true
  · rw [Decimal.abs_of_negative hn]
    by_cases hz : amount.isZero = true
    · simp [hz, Decimal.units_neg, Decimal.units_of_isZero hz]
    · simp [hn, hz, Decimal.units_neg]
  · have hn' : amount.negative = false := by simpa using hn
    rw [Decimal.abs_of_not_negative hn']
    simp [hn', Decimal.units_neg]

theorem Recurring.Gives.units_signedAmount {r : Recurring} {e : Event} (h : r.Gives e) :
    e.signedAmount.units = -r.expectedAmount.units :=
  Flow.units_ofSigned h.amount_eq h.flow_eq

/-- What a pending entry moves: its amount counts as a magnitude, in the direction of its flow. -/
def Entry.movement (e : Entry) : Int :=
  match e.classification with
  | .income => |e.amount.units|
  | .expense => -|e.amount.units|

namespace Outlook

variable {o : Outlook} {r : Recurring} {d : Date} {e : Event} {es : List Event}
  {entries : List Entry} {definitions : List Recurring}

/-- The entries of which events are expected: pending, and asked for by the request. -/
def isPending (o : Outlook) (e : Entry) : Bool :=
  e.pending && e.isWithin o.request.window o.request.accounts

theorem units_entryEvent (o : Outlook) (e : Entry) :
    (o.entryEvent e).signedAmount.units = e.movement := by
  unfold entryEvent Event.of Event.signedAmount Entry.movement
  cases e.classification with
  | income => simp [Decimal.units_abs]
  | expense => simp [Decimal.units_neg, Decimal.units_abs]

/-! ## Events of definitions -/

theorem of_occurrenceEvent (h : o.occurrenceEvent r d = .ok e) : e.date = d ∧ r.Gives e := by
  obtain ⟨score, -, h⟩ := bind_eq_ok_iff.1 h
  rw [← pure_eq_ok_iff.1 h]
  exact ⟨rfl, rfl, rfl, rfl, rfl⟩

/-- The events of a definition stand on its dates, one on each. -/
theorem events_of_definition (h : o.definitionEvents r = .ok es) :
    r.series.dates o.request.window = .ok (es.map Event.date) ∧ ∀ e ∈ es, r.Gives e := by
  obtain ⟨dates, hdates, hes⟩ := bind_eq_ok_iff.1 h
  rw [mapM_eq_ok_iff] at hes
  rw [hdates]
  clear h hdates
  induction hes with
  | nil => exact ⟨rfl, fun e he => absurd he List.not_mem_nil⟩
  | cons hd _ ih =>
    obtain ⟨hdate, hgives⟩ := of_occurrenceEvent hd
    refine ⟨?_, ?_⟩
    · rw [List.map_cons, hdate]
      simpa using ih.1
    · intro e he
      rcases List.mem_cons.1 he with rfl | he
      · exact hgives
      · exact ih.2 e he

/-- The definitions of which events are expected: active and not paused. -/
def isExpected (o : Outlook) (r : Recurring) : Bool :=
  r.isActive && !r.isPaused o.today

theorem recurringEvents_eq_ok_iff : o.recurringEvents definitions = .ok es ↔
    ∃ lists, List.Forall₂ (fun r l => o.definitionEvents r = .ok l)
      (definitions.filter o.isExpected) lists ∧ lists.flatten = es := by
  unfold recurringEvents
  simp only [bind_eq_ok_iff, pure_eq_ok_iff, mapM_eq_ok_iff]
  rfl

/-- Without some of the definitions there are the events of the others, as they were. -/
theorem recurringEvents_filter {keep : Recurring → Bool} {keepEvent : Event → Bool}
    (hkeep : ∀ r e, r.Gives e → keepEvent e = keep r)
    (h : o.recurringEvents definitions = .ok es) :
    o.recurringEvents (definitions.filter keep) = .ok (es.filter keepEvent) := by
  rw [recurringEvents_eq_ok_iff] at h ⊢
  obtain ⟨lists, hlists, rfl⟩ := h
  rw [List.filter_filter]
  have hcomm : (definitions.filter fun r => o.isExpected r && keep r) =
      (definitions.filter o.isExpected).filter keep := by
    rw [List.filter_filter]
    exact List.filter_congr fun r _ => Bool.and_comm _ _
  rw [hcomm]
  clear hcomm
  generalize definitions.filter o.isExpected = expected at hlists
  induction hlists with
  | nil => exact ⟨[], List.Forall₂.nil, rfl⟩
  | @cons r l expected lists hr _ ih =>
    obtain ⟨lists', hlists', heq⟩ := ih
    -- of a definition's events either all are kept or none
    have hall : ∀ e ∈ l, keepEvent e = keep r := by
      intro e he
      exact hkeep r e ((events_of_definition hr).2 e he)
    rw [List.flatten_cons, List.filter_append, ← heq]
    by_cases hk : keep r = true
    · have hl : l.filter keepEvent = l := List.filter_eq_self.2 fun e he => (hall e he).trans hk
      rw [List.filter_cons_of_pos hk, hl]
      exact ⟨l :: lists', List.Forall₂.cons hr hlists', rfl⟩
    · have hl : l.filter keepEvent = [] := List.filter_eq_nil_iff.2 fun e he => by rwa [hall e he]
      rw [List.filter_cons_of_neg hk, hl]
      exact ⟨lists', hlists', rfl⟩

end Outlook

/-! ## Order -/

namespace Event

theorem le_total (a b : Event) : le a b = true ∨ le b a = true := by
  simp only [le, Bool.or_eq_true, Bool.and_eq_true, beq_iff_eq, decide_eq_true_eq]
  rcases lt_trichotomy a.date b.date with h | h | h
  · exact Or.inl (Or.inl h)
  · rcases Nat.le_total a.flow.rank b.flow.rank with hr | hr
    · exact Or.inl (Or.inr ⟨h, hr⟩)
    · exact Or.inr (Or.inr ⟨h.symm, hr⟩)
  · exact Or.inr (Or.inl h)

theorem le_trans (a b c : Event) (hab : le a b = true) (hbc : le b c = true) : le a c = true := by
  simp only [le, Bool.or_eq_true, Bool.and_eq_true, beq_iff_eq, decide_eq_true_eq] at hab hbc ⊢
  rcases hab with hab | ⟨hab, hr⟩
  · rcases hbc with hbc | ⟨hbc, -⟩
    · exact Or.inl (lt_trans hab hbc)
    · exact Or.inl (hbc ▸ hab)
  · rcases hbc with hbc | ⟨hbc, hr'⟩
    · exact Or.inl (hab ▸ hbc)
    · exact Or.inr ⟨hab.trans hbc, Nat.le_trans hr hr'⟩

/-- Leaving events out does not touch the order of the others. -/
theorem filter_sorted (p : Event → Bool) (es : List Event) :
    (sorted es).filter p = sorted (es.filter p) :=
  filter_stableSort le_total le_trans p es

end Event

/-! ## All events -/

namespace Outlook

variable {o : Outlook} {es : List Event} {entries : List Entry} {definitions : List Recurring}

theorem events_eq_ok_iff : o.events entries definitions = .ok es ↔
    ∃ rs, o.recurringEvents definitions = .ok rs ∧
      Event.sorted (o.pendingEvents entries ++ rs) = es := by
  unfold events
  simp only [bind_eq_ok_iff, pure_eq_ok_iff]

/-- Without some of the definitions there are the other events, as they were and in the same order. -/
theorem events_filter {keep : Recurring → Bool} {keepEvent : Event → Bool}
    (hkeep : ∀ r e, r.Gives e → keepEvent e = keep r)
    (hpending : ∀ e, keepEvent (o.entryEvent e) = true)
    (h : o.events entries definitions = .ok es) :
    o.events entries (definitions.filter keep) = .ok (es.filter keepEvent) := by
  obtain ⟨rs, hrs, rfl⟩ := events_eq_ok_iff.1 h
  refine events_eq_ok_iff.2 ⟨rs.filter keepEvent, recurringEvents_filter hkeep hrs, ?_⟩
  have hself : (o.pendingEvents entries).filter keepEvent = o.pendingEvents entries := by
    rw [List.filter_eq_self]
    intro e he
    obtain ⟨entry, -, rfl⟩ := List.mem_map.1 he
    exact hpending entry
  rw [Event.filter_sorted, List.filter_append, hself]

/-- Sorting changes nothing but the order. -/
theorem perm_of_events (h : o.events entries definitions = .ok es) :
    ∃ rs, o.recurringEvents definitions = .ok rs ∧ es.Perm (o.pendingEvents entries ++ rs) := by
  obtain ⟨rs, hrs, rfl⟩ := events_eq_ok_iff.1 h
  exact ⟨rs, hrs, perm_stableSort _ _⟩

end Outlook

end Forecast
