import Forecast.Proofs.Curve.Scored
import Forecast.Proofs.Event.Causes
import Forecast.Proofs.Event.Parts

/-!
# Curves in parts of a window

A walk along a window is a walk through any of its dates and then a walk on from there, with the balance
carried over: `scenarioCurve_eq_append`, and `balanceCurve_through` for the scored curve, whose days are
counted from the first day of the window on. A part of a window is walked with the events of the part
alone (`Walk.along_filter`). Together with the events this makes projections over adjacent windows
compose: `Outlook.adjacent_windows_compose`.
-/

namespace Forecast

namespace Window

variable {w : Window} {b : Date}

theorem days_through (hb : w.first ≤ b) (hbl : b ≤ w.last) (hw : w.last < Date.latest) :
    (w.through b hb).days = w.days.filter fun d => decide (d ≤ b) := by
  rw [days_of_part (isPart_through hb hbl) hw]
  refine List.filter_congr ?_
  intro d hd
  exact contains_through_of_contains hb ((mem_days_iff_contains hw).1 hd)

/-- The days through a date come first. -/
theorem days_through_append (hb : w.first ≤ b) (hbl : b ≤ w.last) (hw : w.last < Date.latest) :
    (w.through b hb).days ++ (w.days.filter fun d => !decide (d ≤ b)) = w.days := by
  rw [days_through hb hbl hw]
  refine filter_append_filter_not ((pairwise_days w).imp ?_)
  intro d d' hd hd'
  rw [decide_eq_true_iff] at hd' ⊢
  exact (le_of_lt hd).trans hd'

end Window

namespace Walk

/-- A walk sees no more of the events than those dated in its window. -/
theorem along_filter {π : Type} (events : List Event) (w : Window) (start : Decimal)
    (point : Date → List Event → Decimal → Decimal → Checked π) :
    along (events.filter fun e => w.contains e.date) w start point =
      along events w start point := by
  rw [along_eq_trace, along_eq_trace]
  refine trace_congr ?_
  intro d hd
  rw [List.filter_filter]
  refine List.filter_congr ?_
  intro e _
  by_cases he : e.date = d
  · rw [he, (Window.mem_days_iff.1 hd).1, Bool.and_true]
  · rw [beq_eq_false_iff_ne.2 he, Bool.false_and]

end Walk

variable {events : List Event} {w : Window} {b : Date} {start : Decimal} {s : ConfidenceSettings}
  {curve : List BalancePoint}

theorem balanceCurve_filter (events : List Event) (w : Window) (start : Decimal)
    (s : ConfidenceSettings) :
    balanceCurve (events.filter fun e => w.contains e.date) w start s =
      balanceCurve events w start s :=
  Walk.along_filter events w start (BalancePoint.ofDay s w)

/-- A scenario curve is the curve through a date and the curve beyond it, which starts with the balance
at which the first one ends. -/
theorem scenarioCurve_eq_append (hb : w.first ≤ b) (hc : b < w.last) (hw : w.last < Date.latest)
    (events : List Event) (start : Decimal) :
    scenarioCurve events w start = (do
      let ps ← scenarioCurve events (w.through b hb) start
      let qs ← scenarioCurve events (w.beyond b hc)
        ((ps.getLast?.map ScenarioPoint.balance).getD start)
      return ps ++ qs) := by
  simp only [scenarioCurve_eq_trace]
  rw [Window.days_eq_append hb hc hw]
  refine Walk.trace_append ?_ start _ _
  rintro d es net balance _ ⟨⟩
  rfl

/-- A curve begins with the curve through a date. What follows is dated later. -/
theorem balanceCurve_through (hb : w.first ≤ b) (hbl : b ≤ w.last) (hw : w.last < Date.latest)
    (h : balanceCurve events w start s = .ok curve) :
    ∃ ps qs, balanceCurve events (w.through b hb) start s = .ok ps ∧ ps ++ qs = curve ∧
      (∀ p ∈ ps, p.date ≤ b) ∧ ∀ q ∈ qs, b < q.date := by
  rw [balanceCurve_eq_trace, ← Window.days_through_append hb hbl hw,
    Walk.trace_append fun _ _ _ _ _ hp => (BalancePoint.of_ofDay hp).2.1] at h
  obtain ⟨ps, hps, h⟩ := bind_eq_ok_iff.1 h
  obtain ⟨qs, hqs, h⟩ := bind_eq_ok_iff.1 h
  have hcurve : balanceCurve events (w.through b hb) start s = .ok ps :=
    (balanceCurve_eq_trace events (w.through b hb) start s).trans hps
  refine ⟨ps, qs, hcurve, pure_eq_ok_iff.1 h, ?_, ?_⟩
  · intro p hp
    have hday := List.mem_map_of_mem (f := BalancePoint.date) hp
    rw [dates_balanceCurve hcurve, Window.days_through hb hbl hw] at hday
    exact of_decide_eq_true (List.mem_filter.1 hday).2
  · intro q hq
    have hday := List.mem_map_of_mem (f := BalancePoint.date) hq
    rw [BalancePoint.dates_of_trace hqs] at hday
    have hlate := (List.mem_filter.1 hday).2
    rw [Bool.not_eq_true', decide_eq_false_iff_not, not_le] at hlate
    exact hlate

namespace Outlook

/-- **Adjacent windows compose.** A window is cut behind any of its dates but the last. Whatever the
records are, its events are those of the first part and then those of the second, which is found from
its own first day on; and whatever the events are, a scenario curve is the curve of the first part and
then that of the second, which starts with the balance at which the first one ends. -/
theorem adjacent_windows_compose (o : Outlook) {b : Date} (hb : o.request.window.first ≤ b)
    (hc : b < o.request.window.last) (hw : o.request.window.last < Date.latest) :
    (∀ entries definitions es, o.events entries definitions = .ok es ↔
      ∃ es₁ es₂, (o.within (o.request.window.through b hb)).events entries definitions = .ok es₁ ∧
        (o.within (o.request.window.beyond b hc)).events entries definitions = .ok es₂ ∧
        es = es₁ ++ es₂) ∧
    ∀ events start, scenarioCurve events o.request.window start = (do
      let ps ← scenarioCurve events (o.request.window.through b hb) start
      let qs ← scenarioCurve events (o.request.window.beyond b hc)
        ((ps.getLast?.map ScenarioPoint.balance).getD start)
      return ps ++ qs) :=
  ⟨fun _ _ _ => events_eq_append_iff hb hc hw, fun events start =>
    scenarioCurve_eq_append hb hc hw events start⟩

end Outlook

namespace Sample

theorem first_le_leapDay : session.outlook.request.window.first ≤ date 2 29 := by decide +kernel

theorem leapDay_lt_last : date 2 29 < session.outlook.request.window.last := by decide +kernel

/-- The outlook through the leap day. -/
def outlookThrough : Outlook :=
  session.outlook.within (session.outlook.request.window.through (date 2 29) first_le_leapDay)

/-- The outlook beyond the leap day. -/
def outlookBeyond : Outlook :=
  session.outlook.within (session.outlook.request.window.beyond (date 2 29) leapDay_lt_last)

end Sample

namespace Outlook

/-- A window that is cut behind the leap day: the salary, which was last seen on the 28th, comes in both
parts, the second time on its own day. -/
theorem sample_cut : ∃ es₁ es₂ : List Event,
    Sample.session.outlook.request.window.first ≤ Sample.date 2 29 ∧
    Sample.date 2 29 < Sample.session.outlook.request.window.last ∧
    Sample.session.outlook.request.window.last < Date.latest ∧
    Sample.session.outlook.events Sample.snapshot.entries Sample.snapshot.recurring =
      .ok (es₁ ++ es₂) ∧
    es₁.map Event.date = Sample.date 2 28 :: List.replicate 5 (Sample.date 2 29) ∧
    es₂.map (fun e => (e.date, e.description)) = [(Sample.date 3 1, "salary")] := by
  have hdates : (Sample.outlookThrough.events Sample.snapshot.entries Sample.snapshot.recurring).map
      (fun es => es.map Event.date) =
        .ok (Sample.date 2 28 :: List.replicate 5 (Sample.date 2 29)) := by
    decide +kernel
  have hbeyond : (Sample.outlookBeyond.events Sample.snapshot.entries Sample.snapshot.recurring).map
      (fun es => es.map fun e => (e.date, e.description)) = .ok [(Sample.date 3 1, "salary")] := by
    decide +kernel
  obtain ⟨es₁, h₁, hdates⟩ := map_eq_ok_iff.1 hdates
  obtain ⟨es₂, h₂, hbeyond⟩ := map_eq_ok_iff.1 hbeyond
  refine ⟨es₁, es₂, Sample.first_le_leapDay, Sample.leapDay_lt_last, Sample.last_lt_latest, ?_, hdates,
    hbeyond⟩
  exact ((adjacent_windows_compose Sample.session.outlook Sample.first_le_leapDay
    Sample.leapDay_lt_last Sample.last_lt_latest).1 _ _ _).2 ⟨es₁, es₂, h₁, h₂, rfl⟩

end Outlook

end Forecast
