import Forecast.Household.Recurring
import Forecast.Proofs.Calendar.Anchored
import Forecast.Proofs.Calendar.Days

/-!
# Occurrences

Which dates a series has. A series without a seed comes on the anchored date of every month. One with
a seed comes on the seed, wherever in its month that lies, and on the anchored dates of the months
after the seed's.

`Series.occursOn` says so of one date, without a walk. The walk into a window that ends before the
last date of the calendar finds exactly the dates of the window that pass this test, in order:
`Series.dates_eq_filter`, and for definitions `Recurring.dates_exact`.

## How the walk is followed

A walk that stands at `c` still has to come to `c` itself and to the anchored dates of the months
after that of `c` (`Series.comesFrom`). One step to the next month takes off `c` and nothing else.
-/

namespace Forecast

namespace Series

variable {anchor : Nat} {w : Window} {c d : Date}

/-- A walk that stands at `c` comes to the date: it is `c` itself or the anchored one of a later
month. -/
def comesFrom (anchor : Nat) (c d : Date) : Bool :=
  d == c || (decide (c.month < d.month) && d.isAnchored anchor)

/-- The series comes on the date. -/
def occursOn (s : Series) (d : Date) : Bool :=
  match s.seed with
  | none => d.isAnchored s.anchor
  | some n => comesFrom s.anchor n d

theorem comesFrom_iff :
    comesFrom anchor c d = true ↔ d = c ∨ c.month < d.month ∧ d.isAnchored anchor = true := by
  simp [comesFrom]

theorem le_of_comesFrom (h : comesFrom anchor c d = true) : c ≤ d := by
  rcases comesFrom_iff.1 h with rfl | ⟨hm, -⟩
  · exact le_refl d
  · exact le_of_lt (Date.lt_of_month_lt hm)

/-- A step of the walk leaves the date where it stood behind, and no other. -/
theorem comesFrom_nextMonthly (anchor : Nat) (c : Date) (hd : d < Date.latest) :
    comesFrom anchor c d = true ↔ d = c ∨ comesFrom anchor (c.nextMonthly anchor) d = true := by
  rw [comesFrom_iff, comesFrom_iff]
  refine or_congr_right ?_
  have hdm := Month.le_iff.1 d.inCalendar_month.2
  rcases c.month_lt_or_eq_latest with hc | hc
  · rw [Date.month_nextMonthly hc]
    constructor
    · rintro ⟨hm, ha⟩
      rcases Int.lt_or_eq_of_le (Month.next_le_iff.2 hm) with hlt | heq
      · exact Or.inr ⟨hlt, ha⟩
      · refine Or.inl ?_
        rw [Date.isAnchored_iff.1 ha, Date.nextMonthly, Month.ext_ordinal heq]
    · rintro (rfl | ⟨hm, ha⟩)
      · refine ⟨?_, Date.isAnchored_anchored (Date.inCalendar_next hc) anchor⟩
        rw [Date.month_nextMonthly hc]
        exact Month.lt_next _
      · refine ⟨?_, ha⟩
        have := Month.lt_iff.1 hm
        simp only [Month.lt_iff, Month.next] at this ⊢
        omega
  · -- no month follows, and the walk goes on to the last date, which `d` is not
    rw [Date.nextMonthly_of_month_eq hc, hc]
    constructor
    · rintro ⟨hm, -⟩
      have := Month.lt_iff.1 hm
      omega
    · rintro (rfl | ⟨hm, -⟩)
      · exact absurd hd (lt_irrefl _)
      · have := Month.lt_iff.1 hm
        omega

/-- Where the walk ends nothing of the window is left to come. -/
theorem not_contains_of_comesFrom (hc : ¬ c ≤ w.last) (h : comesFrom anchor c d = true) :
    w.contains d = false := by
  rw [← Bool.not_eq_true, Window.contains_iff]
  rintro ⟨-, hd⟩
  exact hc (le_trans (le_of_comesFrom h) hd)

/-- From any date on, the walk adds exactly the dates of the window that it comes to. -/
theorem exists_walk (anchor : Nat) (hw : w.last < Date.latest) (c : Date) (found : List Date) :
    ∃ ds, walk anchor w c found = .ok (found.reverse ++ ds) ∧ ds.Pairwise (· < ·) ∧
      ∀ d, d ∈ ds ↔ w.contains d = true ∧ comesFrom anchor c d = true := by
  induction c, found using walk.induct anchor w with
  | case1 c found hc hlt ih =>
    obtain ⟨ds, hds, hp, hmem⟩ := ih
    have hstep : ∀ d, w.contains d = true →
        (comesFrom anchor c d = true ↔ d = c ∨ comesFrom anchor (c.nextMonthly anchor) d = true) :=
      fun d hd => comesFrom_nextMonthly anchor c (lt_of_le_of_lt (Window.contains_iff.1 hd).2 hw)
    rw [walk, if_pos hc, if_pos hlt]
    by_cases hf : w.first ≤ c
    · rw [dif_pos hf] at hds
      rw [if_pos hf]
      refine ⟨c :: ds, by simpa using hds, ?_, ?_⟩
      · refine List.pairwise_cons.2 ⟨?_, hp⟩
        intro d hd
        exact lt_of_lt_of_le hlt (le_of_comesFrom ((hmem d).1 hd).2)
      · intro d
        have hcc : w.contains c = true := Window.contains_iff.2 ⟨hf, hc⟩
        rw [List.mem_cons, hmem]
        constructor
        · rintro (rfl | ⟨h1, h2⟩)
          · exact ⟨hcc, comesFrom_iff.2 (Or.inl rfl)⟩
          · exact ⟨h1, (hstep d h1).2 (Or.inr h2)⟩
        · rintro ⟨h1, h2⟩
          exact ((hstep d h1).1 h2).imp_right fun h => ⟨h1, h⟩
    · rw [dif_neg hf] at hds
      rw [if_neg hf]
      refine ⟨ds, hds, hp, ?_⟩
      intro d
      rw [hmem]
      refine and_congr_right fun h1 => ?_
      rw [hstep d h1]
      -- the walk still stands before the window
      have hne : d ≠ c := by
        rintro rfl
        exact hf (Window.contains_iff.1 h1).1
      simp [hne]
  | case2 c found hc hlt => exact absurd (Date.lt_nextMonthly (lt_of_le_of_lt hc hw) anchor) hlt
  | case3 c found hc =>
    refine ⟨[], by rw [walk, if_neg hc]; simp, List.Pairwise.nil, ?_⟩
    intro d
    simp only [List.not_mem_nil, false_iff, not_and]
    intro hd h
    rw [not_contains_of_comesFrom hc h] at hd
    cases hd

/-- From the first anchored date on the walk comes to all anchored dates from the window's first day
on. -/
theorem comesFrom_firstMonthly {first : Date} (hfd : first ≤ d) (hd : d < Date.latest) :
    comesFrom anchor (first.firstMonthly anchor) d = true ↔ d.isAnchored anchor = true := by
  have hmonth := Month.le_iff.1 (Date.month_le_month hfd)
  have ham := Month.month_anchored first.inCalendar_month anchor
  -- an anchored date of the first month is the one that is looked at first
  have hsame : d.isAnchored anchor = true → ¬ first.month < d.month →
      d = first.month.anchored anchor := by
    intro ha hm
    rw [Date.isAnchored_iff.1 ha, Month.ext_ordinal (Int.le_antisymm (Int.not_lt.1 hm) hmonth)]
  unfold Date.firstMonthly
  split
  · rw [comesFrom_iff, ham]
    constructor
    · rintro (rfl | ⟨-, ha⟩)
      · exact Date.isAnchored_anchored first.inCalendar_month anchor
      · exact ha
    · intro ha
      by_cases hm : first.month < d.month
      · exact Or.inr ⟨hm, ha⟩
      · exact Or.inl (hsame ha hm)
  · rename_i hlt
    have hne : d ≠ first.month.anchored anchor := by
      rintro rfl
      exact hlt hfd
    -- seen from the first month's anchored date the walk has made one step
    have hstep := comesFrom_nextMonthly anchor (first.month.anchored anchor) hd
    rw [Date.nextMonthly, ham, comesFrom_iff, ham, or_iff_right hne, or_iff_right hne] at hstep
    rw [Date.nextMonthly, ← hstep]
    constructor
    · exact fun h => h.2
    · intro ha
      refine ⟨?_, ha⟩
      by_cases hm : first.month < d.month
      · exact hm
      · exact absurd (hsame ha hm) hne

theorem comesFrom_start {s : Series} (hd : w.contains d = true) (hl : d < Date.latest) :
    comesFrom s.anchor (s.start w) d = true ↔ s.occursOn d = true := by
  unfold start occursOn
  cases s.seed with
  | none => exact comesFrom_firstMonthly (Window.contains_iff.1 hd).1 hl
  | some n => exact Iff.rfl

/-- The dates of a series in a window are the days of the window on which it comes. -/
theorem dates_eq_filter (s : Series) (hw : w.last < Date.latest) :
    s.dates w = .ok (w.days.filter s.occursOn) := by
  obtain ⟨ds, hds, hp, hmem⟩ := exists_walk s.anchor hw (s.start w) []
  rw [dates, hds, List.reverse_nil, List.nil_append]
  refine congrArg Except.ok ?_
  refine hp.eq_of_mem_iff ((Window.pairwise_days w).filter _) fun d => ?_
  rw [hmem, List.mem_filter, Window.mem_days_iff_contains hw]
  refine and_congr_right fun hd => ?_
  exact comesFrom_start hd (lt_of_le_of_lt (Window.contains_iff.1 hd).2 hw)

end Series

/-! ## Definitions -/

namespace Recurring

/-- **The dates of a definition.** In any window that ends before the last date of the calendar the
dates are found, each once and in order. Without a stored date they are the dates of the window on the
definition's day of their month, or on the last day of it where the month has no such day. With a
stored date they are that date itself, whatever its day, and the dates on that day in the months
after it. -/
theorem dates_exact (r : Recurring) {w : Window} (hw : w.last < Date.latest) :
    ∃ ds, r.series.dates w = .ok ds ∧ ds.Pairwise (· < ·) ∧
      ∀ d, d ∈ ds ↔ w.contains d = true ∧
        match r.nextExpected with
        | none => d.day = d.month.anchorDay r.anchorDay.toNat
        | some n => d = n ∨ n.month < d.month ∧ d.day = d.month.anchorDay r.anchorDay.toNat := by
  refine ⟨_, Series.dates_eq_filter r.series hw, (Window.pairwise_days w).filter _, ?_⟩
  intro d
  rw [List.mem_filter, Window.mem_days_iff_contains hw]
  refine and_congr_right fun _ => ?_
  unfold Series.occursOn series
  cases r.nextExpected with
  | none => exact beq_iff_eq
  | some n =>
    rw [Series.comesFrom_iff, Date.isAnchored, beq_iff_eq]

/-- A definition for the 31st that was last seen off its day comes back to the 31st after a February
with a leap day. -/
theorem dates_sample :
    let r : Recurring :=
      { id := { value := 20 }, household := { value := 1 }, name := "flat", amount := .whole 800,
        anchorDay := 31, nextExpected := some (Sample.date 1 5) }
    let w : Window := ⟨Sample.date 1 5, Sample.date 3 31, by decide +kernel⟩
    r.series.dates w =
        .ok [Sample.date 1 5, Sample.date 2 29, Sample.date 3 31] ∧
      ∀ d, d ∈ [Sample.date 1 5, Sample.date 2 29, Sample.date 3 31] ↔ w.contains d = true ∧
        (d = Sample.date 1 5 ∨
          (Sample.date 1 5).month < d.month ∧ d.day = d.month.anchorDay 31) := by
  intro r w
  obtain ⟨ds, hds, -, hmem⟩ := dates_exact r (w := w) (by decide +kernel)
  have hlist : r.series.dates w = .ok [Sample.date 1 5, Sample.date 2 29, Sample.date 3 31] := by
    decide +kernel
  rw [hds] at hlist
  cases hlist
  exact ⟨hds, hmem⟩

end Recurring

end Forecast
