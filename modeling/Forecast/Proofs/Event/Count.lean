import Forecast.Proofs.Event.Expected

/-!
# Counting expected events

How many events of a definition fall on dates of some kind is how often its series comes there
(`Series.count`), and all events of a definition are alike but for their dates and scores. So whatever
is added up over the events of definitions is, definition by definition, a number of equal terms
(`map_recurringEvents`). A series comes no more than once on a date, so that no date has more events
than there are records (`length_events_on_le`).
-/

namespace Forecast

/-- How often the series comes on dates of a window that pass a test. -/
def Series.count (s : Series) (w : Window) (p : Date → Bool) : Nat :=
  (w.days.filter fun d => p d && s.occursOn d).length

/-- A series comes at most once on a date. -/
theorem Series.count_on_le_one (s : Series) (w : Window) (d : Date) : s.count w (· == d) ≤ 1 := by
  calc s.count w (· == d)
      ≤ w.days.count d := by
        rw [count, ← List.countP_eq_length_filter]
        exact List.countP_mono_left fun d' _ h => (Bool.and_eq_true_iff.1 h).1
    _ ≤ 1 := List.nodup_iff_count_le_one.1 (Window.nodup_days w) d

theorem sum_flatMap_replicate {α : Type} (as : List α) (n : α → Nat) (f : α → Int) :
    (as.flatMap fun a => List.replicate (n a) (f a)).sum = (as.map fun a => n a * f a).sum := by
  induction as with
  | nil => rfl
  | cons a as ih =>
    rw [List.flatMap_cons, List.sum_append, List.sum_replicate_int, ih, List.map_cons, List.sum_cons]

namespace Outlook

variable {o : Outlook} {r : Recurring} {es : List Event} {entries : List Entry}
  {definitions : List Recurring} {β : Type}

/-! ## Definitions -/

theorem map_date_definitionEvents (hw : o.request.window.last < Date.latest)
    (h : o.definitionEvents r = .ok es) :
    es.map Event.date = o.request.window.days.filter r.series.occursOn := by
  obtain ⟨hdates, -⟩ := events_of_definition h
  rw [Series.dates_eq_filter _ hw] at hdates
  exact (Except.ok.inj hdates).symm

theorem length_filter_definitionEvents (hw : o.request.window.last < Date.latest)
    (h : o.definitionEvents r = .ok es) (p : Date → Bool) :
    (es.filter fun e => p e.date).length = r.series.count o.request.window p := by
  have hmap : (es.filter fun e => p e.date).map Event.date = (es.map Event.date).filter p := by
    rw [List.filter_map]
    rfl
  rw [← List.length_map (f := Event.date), hmap, map_date_definitionEvents hw h, List.filter_filter]
  rfl

/-- What is read off the events of definitions on some dates: for each definition the same, once for
each time its series comes. -/
theorem map_recurringEvents (hw : o.request.window.last < Date.latest)
    (h : o.recurringEvents definitions = .ok es) (p : Date → Bool) {f : Event → β}
    {g : Recurring → β} (hfg : ∀ r e, r.Gives e → f e = g r) :
    (es.filter fun e => p e.date).map f =
      (definitions.filter o.isExpected).flatMap fun r =>
        List.replicate (r.series.count o.request.window p) (g r) := by
  obtain ⟨lists, hlists, rfl⟩ := recurringEvents_eq_ok_iff.1 h
  clear h
  generalize definitions.filter o.isExpected = expected at hlists ⊢
  induction hlists with
  | nil => rfl
  | @cons r es _ _ hr _ ih =>
    have hone : (es.filter fun e => p e.date).map f =
        List.replicate (r.series.count o.request.window p) (g r) := by
      rw [List.map_eq_replicate_iff.2, length_filter_definitionEvents hw hr]
      intro e he
      exact hfg r e ((events_of_definition hr).2 e (List.mem_of_mem_filter he))
    rw [List.flatten_cons, List.filter_append, List.map_append, ih, hone, List.flatMap_cons]

/-- The events of definitions on some dates move the expected amounts, each as often as its series
comes. -/
theorem total_recurringEvents (hw : o.request.window.last < Date.latest)
    (h : o.recurringEvents definitions = .ok es) (p : Date → Bool) :
    Event.total (es.filter fun e => p e.date) =
      -((definitions.filter o.isExpected).map fun r =>
        r.expectedAmount.units * (r.series.count o.request.window p : Int)).sum := by
  rw [Event.total, map_recurringEvents hw h p fun _ _ hr => hr.units_signedAmount,
    sum_flatMap_replicate, List.sum_neg, List.map_map]
  refine congrArg List.sum (List.map_congr_left fun r _ => ?_)
  rw [Int.mul_neg, Int.mul_comm]
  rfl

theorem length_recurringEvents (hw : o.request.window.last < Date.latest)
    (h : o.recurringEvents definitions = .ok es) (p : Date → Bool) :
    (es.filter fun e => p e.date).length =
      ((definitions.filter o.isExpected).map fun r => r.series.count o.request.window p).sum := by
  rw [← List.length_map (f := fun _ => ()),
    map_recurringEvents hw h p (g := fun _ => ()) fun _ _ _ => rfl, List.length_flatMap]
  simp only [List.length_replicate]

/-! ## Entries -/

theorem filter_pendingEvents (p : Date → Bool) :
    (o.pendingEvents entries).filter (fun e => p e.date) =
      o.pendingEvents (entries.filter fun e => p e.date) := by
  unfold pendingEvents
  rw [List.filter_map, List.filter_filter, List.filter_filter]
  congr 1
  exact List.filter_congr fun e _ => Bool.and_comm _ _

theorem total_pendingEvents (entries : List Entry) :
    Event.total (o.pendingEvents entries) = ((entries.filter o.isPending).map Entry.movement).sum := by
  rw [Event.total, pendingEvents, List.map_map]
  exact congrArg List.sum (List.map_congr_left fun e _ => o.units_entryEvent e)

/-! ## All events -/

/-- The events of a date are those of its entries and of the definitions that come on it. -/
theorem length_events_on (hw : o.request.window.last < Date.latest)
    (h : o.events entries definitions = .ok es) (d : Date) :
    (es.filter fun e => e.date == d).length =
      (entries.filter fun e => o.isPending e && e.date == d).length +
        ((definitions.filter o.isExpected).map fun r =>
          r.series.count o.request.window (· == d)).sum := by
  obtain ⟨rs, hrs, hperm⟩ := perm_of_events h
  rw [(hperm.filter _).length_eq, List.filter_append, List.length_append,
    length_recurringEvents hw hrs (· == d), filter_pendingEvents (· == d), pendingEvents,
    List.length_map, List.filter_filter]
  rfl

/-- No date has more events than there are records. -/
theorem length_events_on_le (hw : o.request.window.last < Date.latest)
    (h : o.events entries definitions = .ok es) (d : Date) :
    (es.filter fun e => e.date == d).length ≤ entries.length + definitions.length := by
  have hle : ∀ n ∈ (definitions.filter o.isExpected).map fun r =>
      r.series.count o.request.window (· == d), n ≤ 1 := by
    intro n hn
    obtain ⟨r, -, rfl⟩ := List.mem_map.1 hn
    exact r.series.count_on_le_one _ d
  have hdefinitions := List.sum_le_card_nsmul _ 1 hle
  rw [List.length_map, smul_eq_mul, Nat.mul_one] at hdefinitions
  rw [length_events_on hw h]
  exact Nat.add_le_add (List.length_filter_le _ _)
    (hdefinitions.trans (List.length_filter_le _ _))

end Outlook

end Forecast
