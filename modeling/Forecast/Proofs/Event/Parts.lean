import Forecast.Proofs.Calendar.Parts
import Forecast.Proofs.Event.Expected

/-!
# Expected events in parts of a window

Asked for a part of its window, an outlook expects the events of that part as they were, scores and
all, and in the same order (`Outlook.events_part`): a definition comes on the same dates from wherever
its series is walked, and a score goes by the distance from today. A window cut at a date gives its
events in two pieces, those through the date and those beyond it (`Outlook.events_eq_append_iff`).
-/

namespace Forecast

/-- The request for another window. -/
def Request.within (r : Request) (w : Window) : Request :=
  { r with window := w }

/-- The outlook for another window. -/
def Outlook.within (o : Outlook) (w : Window) : Outlook :=
  { o with request := o.request.within w }

/-- A list in which all that passes a test comes before all that does not is cut in two by the test. -/
theorem filter_append_filter_not {α : Type} {p : α → Bool} {as : List α}
    (h : as.Pairwise fun a b => p b = true → p a = true) :
    (as.filter p) ++ as.filter (fun a => !p a) = as := by
  induction as with
  | nil => rfl
  | cons a as ih =>
    obtain ⟨ha, has⟩ := List.pairwise_cons.1 h
    by_cases hp : p a = true
    · rw [List.filter_cons_of_pos hp, List.filter_cons_of_neg (by simpa using hp), List.cons_append,
        ih has]
    · -- nothing that follows passes the test either
      have hnone : as.filter p = [] := List.filter_eq_nil_iff.2 fun b hb hpb => hp (ha b hb hpb)
      have hall : as.filter (fun b => !p b) = as :=
        List.filter_eq_self.2 fun b hb => by simpa using fun hpb => hp (ha b hb hpb)
      rw [List.filter_cons_of_neg hp, List.filter_cons_of_pos (by simpa using hp), hnone, hall,
        List.nil_append]

/-- Events in the order of their dates, day by day over days that hold them all, are the events as they
stand. -/
theorem Event.flatMap_days {ds : List Date} {es : List Event} (hds : ds.Pairwise (· < ·))
    (hes : es.Pairwise fun e e' => e.date ≤ e'.date) (hmem : ∀ e ∈ es, e.date ∈ ds) :
    (ds.flatMap fun d => es.filter fun e => e.date == d) = es := by
  induction ds generalizing es with
  | nil =>
    cases es with
    | nil => rfl
    | cons e es => exact absurd (hmem e List.mem_cons_self) List.not_mem_nil
  | cons d ds ih =>
    obtain ⟨hd, hds⟩ := List.pairwise_cons.1 hds
    -- the events of the first day stand in front
    have hcut : (es.filter fun e => e.date == d) ++ (es.filter fun e => !(e.date == d)) = es := by
      refine filter_append_filter_not (hes.imp_of_mem ?_)
      intro e e' he _ hle he'
      rw [beq_iff_eq] at he' ⊢
      rcases List.mem_cons.1 (hmem e he) with h | h
      · exact h
      · exact absurd (hle.trans_eq he') (not_le_of_gt (hd _ h))
    have hrest : (ds.flatMap fun d' => es.filter fun e => e.date == d') =
        es.filter fun e => !(e.date == d) := by
      refine Eq.trans (List.flatMap_congr fun d' hd' => ?_) (ih hds (hes.filter _) ?_)
      · rw [List.filter_filter]
        refine List.filter_congr fun e _ => ?_
        by_cases he : e.date = d'
        · simp [he, ne_of_gt (hd d' hd')]
        · simp [he]
      · intro e he
        obtain ⟨he, hne⟩ := List.mem_filter.1 he
        exact (List.mem_cons.1 (hmem e he)).resolve_left (by simpa using hne)
    rw [List.flatMap_cons, hrest, hcut]

theorem Event.date_le_of_le {e e' : Event} (h : Event.le e e' = true) : e.date ≤ e'.date := by
  simp only [Event.le, Bool.or_eq_true, Bool.and_eq_true, beq_iff_eq, decide_eq_true_eq] at h
  rcases h with h | ⟨h, -⟩
  · exact le_of_lt h
  · exact le_of_eq h

namespace Outlook

variable {o : Outlook} {v : Window} {b : Date} {r : Recurring} {es : List Event}
  {entries : List Entry} {definitions : List Recurring}

/-! ## A part -/

theorem definitionEvents_part (hv : v.IsPart o.request.window)
    (hw : o.request.window.last < Date.latest) (h : o.definitionEvents r = .ok es) :
    (o.within v).definitionEvents r = .ok (es.filter fun e => v.contains e.date) := by
  obtain ⟨dates, hdates, hes⟩ := bind_eq_ok_iff.1 h
  rw [Series.dates_eq_filter _ hw] at hdates
  cases hdates
  refine bind_eq_ok_iff.2 ⟨(o.request.window.days.filter r.series.occursOn).filter v.contains, ?_, ?_⟩
  · show r.series.dates v = _
    rw [Series.dates_eq_filter _ (lt_of_le_of_lt hv.last_le hw), Window.days_of_part hv hw,
      List.filter_filter, List.filter_filter]
    simp only [Bool.and_comm]
  · refine mapM_filter_eq_ok ?_ hes
    intro d e hd
    rw [(of_occurrenceEvent hd).1]

theorem recurringEvents_part (hv : v.IsPart o.request.window)
    (hw : o.request.window.last < Date.latest) (h : o.recurringEvents definitions = .ok es) :
    (o.within v).recurringEvents definitions = .ok (es.filter fun e => v.contains e.date) := by
  obtain ⟨lists, hlists, rfl⟩ := recurringEvents_eq_ok_iff.1 h
  refine recurringEvents_eq_ok_iff.2 ⟨lists.map fun l => l.filter fun e => v.contains e.date, ?_,
    List.filter_flatten.symm⟩
  rw [List.forall₂_map_right_iff]
  exact hlists.imp fun _ _ hr => definitionEvents_part hv hw hr

theorem pendingEvents_part (hv : v.IsPart o.request.window) (entries : List Entry) :
    (o.within v).pendingEvents entries =
      (o.pendingEvents entries).filter fun e => v.contains e.date := by
  unfold pendingEvents
  rw [List.filter_map, List.filter_filter]
  refine congrArg _ (List.filter_congr fun e _ => ?_)
  show (e.pending && (v.contains e.date && _)) = (v.contains e.date && (e.pending && (_ && _)))
  cases hd : v.contains e.date with
  | false => simp
  | true => simp [hv.contains hd, within, Request.within]

/-- In a part of the window there are the events of the part, as they were. -/
theorem events_part (hv : v.IsPart o.request.window) (hw : o.request.window.last < Date.latest)
    (h : o.events entries definitions = .ok es) :
    (o.within v).events entries definitions = .ok (es.filter fun e => v.contains e.date) := by
  obtain ⟨rs, hrs, rfl⟩ := events_eq_ok_iff.1 h
  refine events_eq_ok_iff.2 ⟨_, recurringEvents_part hv hw hrs, ?_⟩
  rw [pendingEvents_part hv, ← List.filter_append, Event.filter_sorted]

/-! ## Both parts -/

/-- The events of a definition are found part by part. -/
theorem definitionEvents_eq_append (hb : o.request.window.first ≤ b) (hc : b < o.request.window.last)
    (hw : o.request.window.last < Date.latest) (r : Recurring) :
    o.definitionEvents r = (do
      let es ← (o.within (o.request.window.through b hb)).definitionEvents r
      let es' ← (o.within (o.request.window.beyond b hc)).definitionEvents r
      return es ++ es') := by
  have hpart : ∀ w : Window, w.last < Date.latest →
      (o.within w).definitionEvents r = (w.days.filter r.series.occursOn).mapM (o.occurrenceEvent r) := by
    intro w hw
    show r.series.dates w >>= _ = _
    rw [Series.dates_eq_filter _ hw]
    rfl
  have hthrough := hpart (o.request.window.through b hb) (hc.trans hw)
  have hbeyond := hpart (o.request.window.beyond b hc) hw
  have hwhole := hpart o.request.window hw
  rw [Window.days_eq_append hb hc hw, List.filter_append, List.mapM_append] at hwhole
  rw [hthrough, hbeyond]
  exact hwhole

/-- Where both parts have events the whole has. -/
theorem exists_recurringEvents_of_parts (hb : o.request.window.first ≤ b)
    (hc : b < o.request.window.last) (hw : o.request.window.last < Date.latest) {rs rs' : List Event}
    (h : (o.within (o.request.window.through b hb)).recurringEvents definitions = .ok rs)
    (h' : (o.within (o.request.window.beyond b hc)).recurringEvents definitions = .ok rs') :
    ∃ es, o.recurringEvents definitions = .ok es := by
  obtain ⟨lists, hlists, -⟩ := bind_eq_ok_iff.1 h
  obtain ⟨lists', hlists', -⟩ := bind_eq_ok_iff.1 h'
  have hall := exists_mapM_eq_ok_iff.1 ⟨lists, hlists⟩
  have hall' := exists_mapM_eq_ok_iff.1 ⟨lists', hlists'⟩
  obtain ⟨whole, hwhole⟩ : ∃ whole, (definitions.filter o.isExpected).mapM o.definitionEvents =
      .ok whole := by
    refine exists_mapM_eq_ok_iff.2 fun r hr => ?_
    obtain ⟨es, hes⟩ := hall r hr
    obtain ⟨es', hes'⟩ := hall' r hr
    rw [definitionEvents_eq_append hb hc hw, hes, ok_bind, hes']
    exact ⟨es ++ es', rfl⟩
  exact ⟨whole.flatten, bind_eq_ok_iff.2 ⟨whole, hwhole, rfl⟩⟩

/-- The expected events are dated in the window, for the window is a part of itself. -/
theorem contains_of_mem_events (hw : o.request.window.last < Date.latest)
    (h : o.events entries definitions = .ok es) :
    ∀ e ∈ es, o.request.window.contains e.date = true := by
  have hself : o.events entries definitions =
      .ok (es.filter fun e => o.request.window.contains e.date) :=
    events_part ⟨le_refl _, le_refl _⟩ hw h
  exact List.filter_eq_self.1 (Except.ok.inj (hself.symm.trans h))

theorem pairwise_date_of_events (h : o.events entries definitions = .ok es) :
    es.Pairwise fun e e' => e.date ≤ e'.date := by
  obtain ⟨rs, -, rfl⟩ := events_eq_ok_iff.1 h
  exact (pairwise_stableSort Event.le_total Event.le_trans _).imp Event.date_le_of_le

/-- Day by day along the window there are the expected events, in order. -/
theorem flatMap_days_of_events (hw : o.request.window.last < Date.latest)
    (h : o.events entries definitions = .ok es) :
    (o.request.window.days.flatMap fun d => es.filter fun e => e.date == d) = es :=
  Event.flatMap_days (Window.pairwise_days _) (pairwise_date_of_events h) fun e he =>
    (Window.mem_days_iff_contains hw).2 (contains_of_mem_events hw h e he)

/-- The events that are dated no later than a date come first. -/
theorem events_cut (h : o.events entries definitions = .ok es) (b : Date) :
    (es.filter fun e => decide (e.date ≤ b)) ++ (es.filter fun e => !decide (e.date ≤ b)) = es := by
  refine filter_append_filter_not ((pairwise_date_of_events h).imp ?_)
  intro e e' hle he'
  rw [decide_eq_true_iff] at he' ⊢
  exact hle.trans he'

/-- Of the expected events those through a date are the ones dated no later. -/
theorem filter_through (hb : o.request.window.first ≤ b) (hw : o.request.window.last < Date.latest)
    (h : o.events entries definitions = .ok es) :
    (es.filter fun e => (o.request.window.through b hb).contains e.date) =
      es.filter fun e => decide (e.date ≤ b) :=
  List.filter_congr fun e he =>
    Window.contains_through_of_contains hb (contains_of_mem_events hw h e he)

/-- Through a date there are the events that are dated no later. -/
theorem events_through (hb : o.request.window.first ≤ b) (hbl : b ≤ o.request.window.last)
    (hw : o.request.window.last < Date.latest) (h : o.events entries definitions = .ok es) :
    (o.within (o.request.window.through b hb)).events entries definitions =
      .ok (es.filter fun e => decide (e.date ≤ b)) := by
  rw [← filter_through hb hw h]
  exact events_part (Window.isPart_through hb hbl) hw h

/-- The events through a date begin the list, and those beyond it end it. -/
theorem events_through_append_beyond (hb : o.request.window.first ≤ b)
    (hc : b < o.request.window.last) (hw : o.request.window.last < Date.latest)
    (h : o.events entries definitions = .ok es) :
    es.filter (fun e => (o.request.window.through b hb).contains e.date) ++
      es.filter (fun e => (o.request.window.beyond b hc).contains e.date) = es := by
  have hbeyond : (es.filter fun e => (o.request.window.beyond b hc).contains e.date) =
      es.filter fun e => !decide (e.date ≤ b) :=
    List.filter_congr fun e he =>
      Window.contains_beyond_of_contains hc (contains_of_mem_events hw h e he)
  rw [filter_through hb hw h, hbeyond]
  exact events_cut h b

/-- **Events come part by part.** The events of the window are those through a date and then those
beyond it. -/
theorem events_eq_append_iff (hb : o.request.window.first ≤ b) (hc : b < o.request.window.last)
    (hw : o.request.window.last < Date.latest) :
    o.events entries definitions = .ok es ↔
      ∃ es₁ es₂, (o.within (o.request.window.through b hb)).events entries definitions = .ok es₁ ∧
        (o.within (o.request.window.beyond b hc)).events entries definitions = .ok es₂ ∧
        es = es₁ ++ es₂ := by
  have hparts : ∀ {es}, o.events entries definitions = .ok es →
      ∃ es₁ es₂, (o.within (o.request.window.through b hb)).events entries definitions = .ok es₁ ∧
        (o.within (o.request.window.beyond b hc)).events entries definitions = .ok es₂ ∧
        es = es₁ ++ es₂ := fun h =>
    ⟨_, _, events_part (Window.isPart_through hb (le_of_lt hc)) hw h,
      events_part (Window.isPart_beyond hb hc) hw h, (events_through_append_beyond hb hc hw h).symm⟩
  refine ⟨hparts, ?_⟩
  rintro ⟨es₁, es₂, h₁, h₂, rfl⟩
  -- the whole has events, and its parts are the ones that are given
  obtain ⟨rs₁, hrs₁, -⟩ := events_eq_ok_iff.1 h₁
  obtain ⟨rs₂, hrs₂, -⟩ := events_eq_ok_iff.1 h₂
  obtain ⟨rs, hrs⟩ := exists_recurringEvents_of_parts hb hc hw hrs₁ hrs₂
  have hwhole : o.events entries definitions = .ok (Event.sorted (o.pendingEvents entries ++ rs)) :=
    events_eq_ok_iff.2 ⟨rs, hrs, rfl⟩
  obtain ⟨es₁', es₂', h₁', h₂', heq⟩ := hparts hwhole
  cases h₁.symm.trans h₁'
  cases h₂.symm.trans h₂'
  exact hwhole.trans (congrArg _ heq)

end Outlook

end Forecast
