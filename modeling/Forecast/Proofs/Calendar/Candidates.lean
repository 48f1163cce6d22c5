import Forecast.Household.Recurring
import Forecast.Proofs.Calendar.Anchored
import Forecast.Proofs.Calendar.Days

/-!
# Where the walk of a series ends

The walk looks at one candidate after the other, the date where it starts and then step by step the
next month's, until one is past the window. Each step goes to the month that follows, so that the
number of months to the end of the window bounds the number of candidates in it
(`Series.exists_past`).

This is so because the calendar has a date past the window. In a window that ends with the calendar
there is no such date: once the walk has come to the last date it stays there, and never ends.
`Recurring.dates_end_iff` says both.
-/

namespace Forecast

namespace Series

variable {anchor : Nat} {w : Window} {c : Date} {n : Nat}

/-- The date that is a number of steps from a date. -/
def stepsFrom (anchor : Nat) (c : Date) (k : Nat) : Date :=
  (fun d => d.nextMonthly anchor)^[k] c

/-- The candidate at a position, which is as many steps from where the walk starts. -/
def candidate (s : Series) (w : Window) (k : Nat) : Date :=
  stepsFrom s.anchor (s.start w) k

theorem stepsFrom_zero (anchor : Nat) (c : Date) : stepsFrom anchor c 0 = c := rfl

theorem stepsFrom_succ (anchor : Nat) (c : Date) (k : Nat) :
    stepsFrom anchor c (k + 1) = (stepsFrom anchor c k).nextMonthly anchor :=
  Function.iterate_succ_apply' _ _ _

/-- As long as the calendar has months, each step goes to the next. -/
theorem ordinal_stepsFrom (anchor : Nat) (c : Date) {k : Nat}
    (h : c.month.ordinal + k ≤ Date.latest.month.ordinal) :
    (stepsFrom anchor c k).month.ordinal = c.month.ordinal + k := by
  induction k with
  | zero => exact (Int.add_zero _).symm
  | succ k ih =>
    have hk := ih (by omega)
    have hlt : (stepsFrom anchor c k).month < Date.latest.month := by
      rw [Month.lt_iff, hk]
      omega
    rw [stepsFrom_succ, Date.month_nextMonthly hlt, Month.next]
    show _ + 1 = _
    rw [hk]
    omega

/-- After a step for each month up to the end of the window, and one more, the walk is past it. -/
theorem lt_stepsFrom (anchor : Nat) (hw : w.last < Date.latest) (c : Date) :
    w.last < stepsFrom anchor c ((w.last.month.ordinal - c.month.ordinal).toNat + 1) := by
  have hc := Month.le_iff.1 c.inCalendar_month.2
  have hl := Month.le_iff.1 w.last.inCalendar_month.2
  generalize hk : (w.last.month.ordinal - c.month.ordinal).toNat = k
  have hmonth := ordinal_stepsFrom anchor c (k := k) (by omega)
  rw [stepsFrom_succ]
  generalize stepsFrom anchor c k = d at hmonth
  rcases d.month_lt_or_eq_latest with hlt | heq
  · apply Date.lt_of_month_lt
    rw [Date.month_nextMonthly hlt, Month.lt_iff, Month.next]
    show _ < _ + 1
    omega
  · -- no month follows, and the step goes to the last date
    rw [Date.nextMonthly_of_month_eq heq]
    exact hw

/-- The candidates of a window that ends before the calendar: all up to some number are not past it,
and the next one is. -/
theorem exists_past (anchor : Nat) (hw : w.last < Date.latest) (c : Date) :
    ∃ n ≤ (w.last.month.ordinal - c.month.ordinal).toNat + 1,
      (∀ k < n, stepsFrom anchor c k ≤ w.last) ∧
        w.last < stepsFrom anchor c n := by
  have hex : ∃ n, w.last < stepsFrom anchor c n := ⟨_, lt_stepsFrom anchor hw c⟩
  exact ⟨Nat.find hex, Nat.find_min' hex (lt_stepsFrom anchor hw c),
    fun k hk => not_lt.1 (Nat.find_min hex hk), Nat.find_spec hex⟩

/-- A walk finds those of its candidates that are in the window, in order. -/
theorem walk_of_past (found : List Date)
    (hin : ∀ k < n, stepsFrom anchor c k ≤ w.last)
    (hpast : w.last < stepsFrom anchor c n) :
    walk anchor w c found = .ok (found.reverse ++
      ((List.range n).map (stepsFrom anchor c)).filter fun d => decide (w.first ≤ d)) := by
  induction n generalizing c found with
  | zero =>
    rw [stepsFrom_zero] at hpast
    rw [walk, if_neg (not_le.2 hpast)]
    simp
  | succ n ih =>
    have hc : c ≤ w.last := hin 0 (Nat.succ_pos n)
    have hw : w.last < Date.latest := lt_of_lt_of_le hpast (Date.le_latest' _)
    have hnext := Date.lt_nextMonthly (lt_of_le_of_lt hc hw) anchor
    have hlist : (List.range (n + 1)).map (stepsFrom anchor c) =
        c :: (List.range n).map (stepsFrom anchor (c.nextMonthly anchor)) := by
      rw [List.range_succ_eq_map, List.map_cons, List.map_map]
      rfl
    rw [walk, if_pos hc, if_pos hnext, hlist, List.filter_cons,
      ih _ (fun k hk => hin (k + 1) (Nat.succ_lt_succ hk)) hpast]
    by_cases hf : w.first ≤ c <;> simp [hf]

/-- No candidate is past a window that ends with the calendar, and the walk has no end. -/
theorem walk_endless (anchor : Nat) (hw : w.last = Date.latest) (c : Date) (found : List Date) :
    walk anchor w c found = .error .endless := by
  have hle : ∀ d : Date, d ≤ w.last := fun d => hw ▸ d.le_latest'
  induction c, found using walk.induct anchor w with
  | case1 c found hc hlt ih =>
    rw [walk, if_pos hc, if_pos hlt]
    exact ih
  | case2 c found hc hlt => rw [walk, if_pos hc, if_neg hlt]
  | case3 c found hc => exact absurd (hle c) hc

end Series

namespace Recurring

/-- **Where the dates of a definition end.** Some candidate is past the window exactly if the window
ends before the calendar. Then the candidates up to the first one past the window are at most one more
than there are months from the start of the walk to the end of the window, and the dates are those
among them that are in the window. Otherwise the walk has no end. -/
theorem dates_end_iff (r : Recurring) (w : Window) :
    ((∃ n, w.last < r.series.candidate w n) ↔ w.last < Date.latest) ∧
    (w.last < Date.latest →
      ∃ n ≤ (w.last.month.ordinal - (r.series.start w).month.ordinal).toNat + 1,
        (∀ k < n, r.series.candidate w k ≤ w.last) ∧ w.last < r.series.candidate w n ∧
          r.series.dates w =
            .ok (((List.range n).map (r.series.candidate w)).filter fun d => decide (w.first ≤ d))) ∧
    (w.last = Date.latest → r.series.dates w = .error .endless) := by
  refine ⟨⟨?_, ?_⟩, ?_, ?_⟩
  · rintro ⟨n, hn⟩
    exact lt_of_lt_of_le hn (Date.le_latest' _)
  · intro hw
    exact ⟨_, Series.lt_stepsFrom r.series.anchor hw (r.series.start w)⟩
  · intro hw
    obtain ⟨n, hn, hin, hpast⟩ := Series.exists_past r.series.anchor hw (r.series.start w)
    exact ⟨n, hn, hin, hpast, Series.walk_of_past [] hin hpast⟩
  · intro hw
    exact Series.walk_endless _ hw _ _

/-- A window of one day, the last of the calendar: no candidate is past it, and a definition for the
31st has no list of dates there. -/
theorem endless_on_latest :
    let r : Recurring :=
      { id := { value := 20 }, household := { value := 1 }, name := "flat", amount := .whole 800,
        anchorDay := 31, nextExpected := some Date.latest }
    let w : Window := ⟨Date.latest, Date.latest, le_refl _⟩
    (¬ ∃ n, w.last < r.series.candidate w n) ∧ r.series.dates w = .error .endless := by
  intro r w
  refine ⟨?_, Series.walk_endless _ rfl _ _⟩
  rintro ⟨n, hn⟩
  exact absurd (Date.le_latest' _) (not_le.2 hn)

end Recurring

end Forecast
