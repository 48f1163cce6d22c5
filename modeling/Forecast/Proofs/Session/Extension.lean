import Forecast.Proofs.Curve.Parts
import Forecast.Proofs.Report.Totals
import Forecast.Proofs.Session.Snapshots

/-!
# Longer windows

A report for a longer window tells the same of the days of the shorter one: `Session.report_through`.
The events, the curve and the alerts are found day by day, each from the days before it, and so they can
be cut at any date. The totals cannot, and are computed anew; they never fault where those of the longer
window did not, for a part of a sum is no larger than the sum and a difference lies between its terms.
-/

namespace Forecast

/-! ## Alerts -/

namespace Alert

variable {ps qs : List BalancePoint} {b : Date}

/-- The first point of a kind in the first part of a curve is the one dated there. -/
theorem filter_find?_append (make : BalancePoint → Alert) (hmake : ∀ p, (make p).date = p.date)
    (hps : ∀ p ∈ ps, p.date ≤ b) (hqs : ∀ q ∈ qs, b < q.date) (test : BalancePoint → Bool) :
    ((((ps ++ qs).find? test).map make).toList.filter fun a => decide (a.date ≤ b)) =
      ((ps.find? test).map make).toList := by
  rw [List.find?_append]
  cases hfirst : ps.find? test with
  | some p =>
    have hp := hps p (List.mem_of_find?_eq_some hfirst)
    simp [hmake, hp]
  | none =>
    cases hrest : qs.find? test with
    | none => rfl
    | some q =>
      have hq := hqs q (List.mem_of_find?_eq_some hrest)
      simp [hmake, hq]

/-- The alerts of the first part of a curve are those dated in it. -/
theorem filter_ofCurve_append (hps : ∀ p ∈ ps, p.date ≤ b) (hqs : ∀ q ∈ qs, b < q.date)
    (threshold : Decimal) (today : Date) :
    ((ofCurve (ps ++ qs) threshold today).filter fun a => decide (a.date ≤ b)) =
      ofCurve ps threshold today := by
  have hlows := filter_find?_append (fun p => low p threshold today) (fun _ => rfl) hps hqs
    fun p => p.balance < threshold
  have hnegatives := filter_find?_append (fun p => negative p today) (fun _ => rfl) hps hqs
    fun p => p.balance < 0
  have htotal : ∀ a a' : Alert, decide (a.date ≤ a'.date) = true ∨ decide (a'.date ≤ a.date) = true := by
    intro a a'
    simpa using LinearOrder.le_total a.date a'.date
  have htrans : ∀ a a' a'' : Alert, decide (a.date ≤ a'.date) = true →
      decide (a'.date ≤ a''.date) = true → decide (a.date ≤ a''.date) = true := by
    intro a a' a'' h h'
    rw [decide_eq_true_iff] at h h' ⊢
    exact h.trans h'
  unfold ofCurve
  dsimp only
  rw [filter_stableSort htotal htrans, List.filter_append, ← hlows, ← hnegatives]
  congr 2
  rw [List.filter_filter, List.filter_filter]
  refine List.filter_congr ?_
  intro n _
  -- of the low days only one that is dated alike can stand in for a negative one
  by_cases hn : n.date ≤ b
  · have hany : ∀ as : List Alert, (as.filter fun a => decide (a.date ≤ b)).any
        (fun a => a.date == n.date) = as.any fun a => a.date == n.date := by
      intro as
      rw [List.any_filter]
      refine congrArg as.any (funext fun a => ?_)
      by_cases ha : a.date = n.date <;> simp [ha, hn]
    rw [hany, Bool.and_comm]
  · simp [hn]

end Alert

/-- The report tells of the days up to a date what the other one does. -/
structure Report.Continues (long : Report) (b : Date) (short : Report) : Prop where
  projections : short.projections = long.projections.filter fun e => decide (e.date ≤ b)
  curve_prefix : short.curve <+: long.curve
  curve : short.curve = long.curve.filter fun p => decide (p.date ≤ b)
  alerts : short.alerts = long.alerts.filter fun a => decide (a.date ≤ b)

namespace Session

variable {s : Session} {b : Date} {snap : Snapshot} {long : Report}

/-- The session for another window. -/
def within (s : Session) (w : Window) : Session :=
  { s with request := s.request.within w }

/-- What a snapshot tells of a window it tells of the window through a date. -/
theorem answerFrom_through (hb : s.request.window.first ≤ b) (hbl : b ≤ s.request.window.last)
    (hw : s.request.window.last < Date.latest) (h : s.answerFrom snap .report = .ok long) :
    ∃ short, (s.within (s.request.window.through b hb)).answerFrom snap .report = .ok short ∧
      long.Continues b short := by
  obtain ⟨events, hevents, start, hstart, h⟩ := (answerFrom_eq_ok_iff rfl rfl).1 h
  obtain ⟨curve, hcurve, summary, hsummary, rfl⟩ := toldReport_eq_ok_iff.1 h
  have hevents' := Outlook.events_through (o := s.outlook) hb hbl hw hevents
  obtain ⟨ps, qs, hps, rfl, hearly, hlate⟩ := balanceCurve_through hb hbl hw hcurve
  have hthrough : (events.filter fun e => (s.request.window.through b hb).contains e.date) =
      events.filter fun e => decide (e.date ≤ b) :=
    Outlook.filter_through (o := s.outlook) hb hw hevents
  rw [← balanceCurve_filter, hthrough] at hps
  -- the totals of the events up to the date
  have hunsigned : ∀ e ∈ events.filter fun e => decide (e.date ≤ b), e.amount.negative = false := by
    intro e he
    obtain ⟨c, -, hc⟩ := Outlook.exists_cause_of_mem_events hw hevents e (List.mem_of_mem_filter he)
    exact hc.negative_eq
  rw [← Outlook.events_cut hevents b] at hsummary
  obtain ⟨summary', hsummary'⟩ := Summary.exists_of_append hunsigned hsummary ps
    (s.request.window.through b hb)
  refine ⟨_, (answerFrom_eq_ok_iff rfl rfl).2 ⟨_, hevents', start, hstart,
    toldReport_eq_ok_iff.2 ⟨ps, hps, summary', hsummary', rfl⟩⟩, rfl, ⟨qs, rfl⟩, ?_, ?_⟩
  · show ps = (ps ++ qs).filter fun p => decide (p.date ≤ b)
    have hnone : (qs.filter fun p => decide (p.date ≤ b)) = [] :=
      List.filter_eq_nil_iff.2 fun q hq => by simpa using hlate q hq
    have hall : (ps.filter fun p => decide (p.date ≤ b)) = ps :=
      List.filter_eq_self.2 fun p hp => by simpa using hearly p hp
    rw [List.filter_append, hall, hnone, List.append_nil]
  · exact (Alert.filter_ofCurve_append hearly hlate s.settings.lowBalanceThreshold s.today).symm

/-- Over the source the report for the window and the one for the window through a date go together:
where there is the longer report there is the shorter one, and it tells the same of its days, and a
problem of the one is a problem of the other. The two sessions are apart, and each may have been asked
anything before. -/
structure ReportsThrough {σ : Type} (s : Session) (source : Source σ) (t : σ) (b : Date)
    (hb : s.request.window.first ≤ b) (past past' : List Inquiry) : Prop where
  continues : ∀ long, s.answerAfter source t past .report = .ok long →
    ∃ short, (s.within (s.request.window.through b hb)).answerAfter source t past' .report =
      .ok short ∧ long.Continues b short
  problem : ∀ p, s.answerAfter source t past .report = .error (.problem p) →
    (s.within (s.request.window.through b hb)).answerAfter source t past' .report =
      .error (.problem p)

/-- It is enough that both reports are computed from the snapshot that is found. -/
theorem reportsThrough_of_found {σ : Type} {source : Source σ} {t : σ} {past past' : List Inquiry}
    {found : Outcome Snapshot} (hb : s.request.window.first ≤ b) (hbl : b ≤ s.request.window.last)
    (hw : s.request.window.last < Date.latest)
    (hlong : s.answerAfter source t past .report =
      found.attempt >>= fun snap => (s.answerFrom snap .report).attempt)
    (hshort : (s.within (s.request.window.through b hb)).answerAfter source t past' .report =
      found.attempt >>= fun snap =>
        ((s.within (s.request.window.through b hb)).answerFrom snap .report).attempt) :
    s.ReportsThrough source t b hb past past' := by
  constructor
  · intro long h
    obtain ⟨snap, hsnap, h⟩ := bind_eq_ok_iff.1 (hlong.symm.trans h)
    obtain ⟨short, hreport, hcontinues⟩ :=
      answerFrom_through hb hbl hw (Checked.attempt_eq_ok_iff.1 h)
    refine ⟨short, hshort.trans (bind_eq_ok_iff.2 ⟨snap, hsnap, ?_⟩), hcontinues⟩
    exact Checked.attempt_eq_ok_iff.2 hreport
  · intro p h
    rw [hlong] at h
    rw [hshort]
    cases found with
    | error problem => exact h
    | ok snap =>
      -- a computation can only fault
      change (s.answerFrom snap .report).attempt = _ at h
      cases hreport : s.answerFrom snap .report with
      | error fault => rw [hreport] at h; cases h
      | ok report => rw [hreport] at h; cases h

/-- **A longer window never rewrites the past.** Over either source, whatever it holds and whatever the
sessions were asked before: where there is a report for a window there is one for the window through
any of its dates, and its events, its curve and its alerts are those of the longer report that are
dated no later. -/
theorem report_through (s : Session) {b : Date} (hb : s.request.window.first ≤ b)
    (hbl : b ≤ s.request.window.last) (hw : s.request.window.last < Date.latest) :
    (∀ (m : Memory) past past', s.ReportsThrough Memory.source m b hb past past') ∧
    ∀ (store : SnapshotStore) (t : FileTree) past past',
      s.ReportsThrough store.source t b hb past past' := by
  constructor
  · intro m past past'
    exact reportsThrough_of_found hb hbl hw (answerAfter_memory s m past .report)
      (answerAfter_memory _ m past' .report)
  · intro store t past past'
    exact reportsThrough_of_found hb hbl hw (answerAfter_store s store t past .report)
      (answerAfter_store _ store t past' .report)

end Session

namespace Sample

/-- The session of someone who is warned early. -/
def wary : Session :=
  { session with settings := { lowBalanceThreshold := .whole 2000 } }

theorem first_le_second : wary.request.window.first ≤ date 2 28 := by decide +kernel

theorem second_le_last : date 2 28 ≤ wary.request.window.last := by decide +kernel

/-- The first day only. -/
def waryFirst : Session :=
  wary.within (wary.request.window.through (date 2 28) first_le_second)

end Sample

namespace Session

/-- On the first day all is well, and on the leap day there is a warning. The report for the first day
alone tells the same of it, and of no other. -/
theorem sample_firstDay : ∃ long short : Report,
    Sample.wary.answerAfter Memory.source Sample.memory [] .report = .ok long ∧
    Sample.waryFirst.answerAfter Memory.source Sample.memory [.alerts] .report = .ok short ∧
    long.Continues (Sample.date 2 28) short ∧
    long.curve.map BalancePoint.date = [Sample.date 2 28, Sample.date 2 29, Sample.date 3 1] ∧
    long.alerts.map Alert.date = [Sample.date 2 29] ∧
    short.curve.map BalancePoint.date = [Sample.date 2 28] ∧ short.alerts = [] := by
  have hdates : (Sample.wary.answerAfter Memory.source Sample.memory [] .report).map
      (fun r : Report => (r.curve.map BalancePoint.date, r.alerts.map Alert.date)) =
        .ok ([Sample.date 2 28, Sample.date 2 29, Sample.date 3 1], [Sample.date 2 29]) := by
    decide +kernel
  have hfirst : (Sample.waryFirst.answerAfter Memory.source Sample.memory [.alerts] .report).map
      (fun r : Report => (r.curve.map BalancePoint.date, r.alerts)) =
        .ok ([Sample.date 2 28], []) := by
    decide +kernel
  obtain ⟨long, hlong, hdates⟩ := map_eq_ok_iff.1 hdates
  obtain ⟨short, hshort, hfirst⟩ := map_eq_ok_iff.1 hfirst
  -- the first day has one report only, and it is the one that goes with the longer report
  obtain ⟨short', hshort', hcontinues⟩ := ((report_through Sample.wary Sample.first_le_second
    Sample.second_le_last Sample.last_lt_latest).1 Sample.memory [] [.alerts]).continues long hlong
  cases hshort'.symm.trans hshort
  obtain ⟨hcurve, halerts⟩ := Prod.mk.inj hdates
  obtain ⟨hcurve', halerts'⟩ := Prod.mk.inj hfirst
  exact ⟨long, short, hlong, hshort, hcontinues, hcurve, halerts, hcurve', halerts'⟩

end Session

end Forecast
