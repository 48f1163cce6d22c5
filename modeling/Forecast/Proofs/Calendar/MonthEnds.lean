import Forecast.Proofs.Calendar.Anchored
import Forecast.Proofs.Calendar.Days

/-!
# Month ends

On which date an anchor falls, said by year, month number and the Gregorian rule, and what the dates that
are found stand for among all others: the last day of a month is the greatest of its dates, and the first
anchored date from a day on is the least of those that are not before it.

## How the last day is found

The last day of a month is the day before the first of the month that follows, and December is followed by
January of the next year. After its last month the calendar has no such first, and its last date is taken,
which is the right one. Before its first month there is nothing to step back to, which is a fault.

An anchor that names no day of the month, 0 or one past its end, is not looked for apart: the date with
that day is tried first, and where there is none the last day is found.

## Main statements

* `Month.length_eq`: the months are as long as the Gregorian rule says.
* `Date.anchoredIn_eq`, `Date.anchoredIn_rollOver`: the dates as they are found from year and number.
* `Date.isGreatest_endOfMonth`, `Date.isLeast_firstMonthly`: their places among all dates.
* `Date.anchors_clamped`: where anchors fall, in every month of the calendar.
-/

namespace Forecast

namespace Month

variable {m : Month} {year : Int} {number : Nat}

/-! ## Months by year and number -/

/-- The number of days of a month by the Gregorian rule: a year that 4 divides has a leap day, unless 100
divides it and 400 does not. -/
def gregorianLength (year : Int) (number : Nat) : Nat :=
  if number = 2 then
    if 400 ∣ year ∨ 4 ∣ year ∧ ¬ 100 ∣ year then 29 else 28
  else if number ∈ [4, 6, 9, 11] then 30
  else 31

/-- The year and number of the month that follows. -/
def rollOver (year : Int) (number : Nat) : Int × Nat :=
  if number = 12 then (year + 1, 1) else (year, number + 1)

theorem isLeapYear_iff : isLeapYear year = true ↔ 400 ∣ year ∨ 4 ∣ year ∧ ¬ 100 ∣ year := by
  simp only [isLeapYear, Bool.or_eq_true, Bool.and_eq_true, beq_iff_eq, bne_iff_ne, ne_eq]
  omega

theorem length_eq (m : Month) : m.length = gregorianLength m.year m.number := by
  obtain ⟨h1, h2⟩ := m.number_bounds
  simp only [length, gregorianLength, ← isLeapYear_iff]
  generalize m.number = n at h1 h2
  interval_cases n <;> rfl

theorem of_rollOver (year : Int) (number : Nat) :
    of (rollOver year number).1 (rollOver year number).2 = (of year number).next := by
  refine ext_ordinal ?_
  unfold rollOver
  split
  · rename_i h
    simp only [of, next, h]
    omega
  · simp only [of, next]
    omega

theorem number_rollOver (year : Int) (h : number ≤ 12) :
    1 ≤ (rollOver year number).2 ∧ (rollOver year number).2 ≤ 12 := by
  unfold rollOver
  split
  · exact ⟨le_refl _, Nat.one_le_ofNat⟩
  · exact ⟨Nat.succ_pos _, by omega⟩

/-- The month that follows, in year and number. -/
theorem parts_next (m : Month) :
    m.next.year = (rollOver m.year m.number).1 ∧ m.next.number = (rollOver m.year m.number).2 := by
  have hnumber := number_rollOver m.year m.number_bounds.2
  have hnext := of_rollOver m.year m.number
  rw [of_year_number] at hnext
  rw [← hnext]
  exact ⟨year_of hnumber, number_of hnumber⟩

/-- The calendar has all months of its years. -/
theorem inCalendar_of (hy : -262143 ≤ year ∧ year ≤ 262142) (hn : 1 ≤ number ∧ number ≤ 12) :
    (of year number).InCalendar := by
  rw [InCalendar, month_earliest, month_latest, le_iff, le_iff]
  simp only [of]
  omega

end Month

namespace Date

open Month

variable {d e s : Date} {m : Month} {year : Int} {number anchor : Nat}

/-! ## How the last day is found -/

/-- The day before the first of the month that follows, or the last date of the calendar if that has no
such first. -/
def lastDayIn (year : Int) (number : Nat) : Checked Date :=
  match ofParts? (rollOver year number).1 (rollOver year number).2 1 with
  | some first => first.subDays 1
  | none => .ok latest

theorem ofParts?_of_number (h : 1 ≤ number ∧ number ≤ 12) (day : Nat) :
    ofParts? year number day = inMonth? (of year number) day :=
  if_pos h

theorem eq_earliest_of_first (h : inMonth? earliest.month 1 = some d) : d = earliest :=
  eq_of_month_day (month_of_inMonth? h) ((day_of_inMonth? h).trans (by decide))

/-- Only the first date of the calendar has no day before it. -/
theorem subDays_one (h : d ≠ earliest) : d.subDays 1 = .ok (clamp (d.dayNumber - 1)) := by
  have hne : d.dayNumber ≠ earliest.dayNumber := fun he => h (Date.ext he)
  have hlow : earliest.dayNumber ≤ d.dayNumber := d.earliest_le
  have hhigh : d.dayNumber ≤ latest.dayNumber := d.le_latest
  have hnumber := Window.dayNumber_clamp (n := d.dayNumber - 1) (by omega)
  have hdate := ofDayNumber?_dayNumber (clamp (d.dayNumber - 1))
  rw [hnumber] at hdate
  rw [subDays, Int.natCast_one, hdate, Checked.ofOption_some]

theorem subDays_one_earliest : earliest.subDays 1 = .error .dateSubtraction := by
  decide

/-- Stepping back fails in the month just before the calendar, and finds the last day of any other. -/
theorem lastDayIn_of_le (h : number ≤ 12) :
    lastDayIn year number =
      if (of year number).next = earliest.month then .error .dateSubtraction
      else .ok (of year number).lastDate := by
  rw [lastDayIn, ofParts?_of_number (number_rollOver year h), of_rollOver, lastDate]
  cases hfirst : inMonth? (of year number).next 1 with
  | none =>
    have hm : (of year number).next ≠ earliest.month := by
      intro hm
      obtain ⟨first, hsome⟩ := exists_inMonth? earliest.inCalendar_month (k := 1) (by decide)
      rw [hm, hsome] at hfirst
      cases hfirst
    rw [if_neg hm]
  | some first =>
    by_cases hm : (of year number).next = earliest.month
    · rw [hm] at hfirst
      rw [if_pos hm, eq_earliest_of_first hfirst]
      exact subDays_one_earliest
    · have hne : first ≠ earliest := by
        rintro rfl
        exact hm (month_of_inMonth? hfirst).symm
      rw [if_neg hm]
      exact subDays_one hne

/-- The month that follows one from which the calendar has dates is not its first. -/
theorem next_ne_earliest (h : earliest.month ≤ m) : m.next ≠ earliest.month := by
  intro heq
  rw [← heq] at h
  exact Int.not_lt.2 h (Month.lt_next m)

/-- The anchored date of a month is the one with that day, and where there is none, the last day that is
found from the month that follows. -/
theorem anchoredIn_eq (year : Int) (number anchor : Nat) :
    anchoredIn year number anchor =
      match ofParts? year number anchor with
      | some d => .ok d
      | none => lastDayIn year number := by
  unfold anchoredIn
  by_cases hbig : 12 < number
  · -- no month has the number, nor the one after it
    have hnumber : ¬ (1 ≤ number ∧ number ≤ 12) := by omega
    have hnext : ¬ (1 ≤ number + 1 ∧ number + 1 ≤ 12) := by omega
    have hlast : lastDayIn year number = .ok latest := by
      rw [lastDayIn, rollOver, if_neg (by omega), ofParts?, if_neg hnext]
    rw [if_pos hbig, ofParts?, if_neg hnumber, hlast]
  · rw [if_neg hbig, lastDayIn_of_le (by omega)]
    by_cases hzero : number = 0
    · -- there is no month 0, but the last day before month 1 is found
      subst hzero
      rfl
    · rw [ofParts?_of_number (by omega)]
      simp only [if_neg hzero, anchored]
      cases hd : inMonth? (of year number) anchor with
      | none => rfl
      | some d =>
        have hle := d.inCalendar_month.1
        rw [month_of_inMonth? hd] at hle
        rw [if_neg (next_ne_earliest hle)]
        rfl

/-- From the first month of the calendar on, the anchored date is found. -/
theorem anchoredIn_of_le (hn : 1 ≤ number ∧ number ≤ 12) (hm : earliest.month ≤ of year number)
    (anchor : Nat) : anchoredIn year number anchor = .ok ((of year number).anchored anchor) := by
  rw [anchoredIn_eq, ofParts?_of_number hn, anchored]
  cases inMonth? (of year number) anchor with
  | none =>
    show lastDayIn year number = _
    rw [lastDayIn_of_le hn.2, if_neg (next_ne_earliest hm)]
    rfl
  | some d => rfl

/-- The step to the next month is the anchored date of the month that follows, in the next year from
December. -/
theorem anchoredIn_rollOver (d : Date) (anchor : Nat) :
    anchoredIn (rollOver d.year d.month.number).1 (rollOver d.year d.month.number).2 anchor =
      .ok (d.nextMonthly anchor) := by
  have hmonth : of (rollOver d.year d.month.number).1 (rollOver d.year d.month.number).2 =
      d.month.next := by
    rw [of_rollOver, year, of_year_number]
  have hle : earliest.month ≤ d.month.next :=
    Int.le_trans d.inCalendar_month.1 (Int.le_of_lt (Month.lt_next _))
  have hnumber := number_rollOver d.year d.month.number_bounds.2
  rw [anchoredIn_of_le hnumber (hmonth ▸ hle), hmonth, nextMonthly]

/-! ## Where an anchor falls -/

/-- The date is in the month with that year and number. It is on the day that the anchor names, if the
month has it, and on the last day of the month otherwise. -/
structure FallsIn (d : Date) (year : Int) (number anchor : Nat) : Prop where
  year_eq : d.year = year
  number_eq : d.month.number = number
  day_of_le : 1 ≤ anchor → anchor ≤ gregorianLength year number → d.day = anchor
  /-- Neither 0 nor a day past the month's end is a day of the month. -/
  day_of_not_le : ¬ (1 ≤ anchor ∧ anchor ≤ gregorianLength year number) →
    d.day = gregorianLength year number

theorem month_eq_iff : d.month = e.month ↔ d.year = e.year ∧ d.month.number = e.month.number := by
  constructor
  · intro h
    exact ⟨congrArg Month.year h, congrArg Month.number h⟩
  · rintro ⟨hy, hn⟩
    rw [← of_year_number d.month, ← of_year_number e.month, hn]
    exact congrArg (of · _) hy

/-- A date is an anchored one exactly if it is where the anchor falls in its month. -/
theorem fallsIn_iff : d.FallsIn d.year d.month.number anchor ↔ d.isAnchored anchor = true := by
  have hlength : gregorianLength d.year d.month.number = d.month.length := (length_eq _).symm
  rw [isAnchored, beq_iff_eq, anchorDay]
  constructor
  · rintro ⟨-, -, hle, hnot⟩
    rw [hlength] at hle hnot
    split
    · rename_i h
      exact hle h.1 h.2
    · rename_i h
      exact hnot h
  · intro h
    refine ⟨rfl, rfl, ?_, ?_⟩
    · intro h1 h2
      rw [h, if_pos ⟨h1, hlength ▸ h2⟩]
    · intro hnot
      rw [hlength] at hnot ⊢
      rw [h, if_neg hnot]

theorem fallsIn_anchored (hm : m.InCalendar) (anchor : Nat) :
    (m.anchored anchor).FallsIn m.year m.number anchor := by
  have h := fallsIn_iff.2 (isAnchored_anchored hm anchor)
  rwa [year, Month.month_anchored hm] at h

/-! ## Month ends and anchored dates in order -/

/-- The last day of a date's month is the greatest of the dates with its year and month number. -/
theorem isGreatest_endOfMonth (d : Date) :
    IsGreatest {e | e.year = d.year ∧ e.month.number = d.month.number} d.endOfMonth := by
  have hmonth : d.endOfMonth.month = d.month := (month_day_lastDate d.inCalendar_month).1
  constructor
  · exact month_eq_iff.1 hmonth
  · intro e he
    have hsame : e.month = d.month := month_eq_iff.2 he
    have hle := e.le_endOfMonth
    rwa [endOfMonth, hsame] at hle

/-- Anchored dates are in the order of their months. -/
theorem anchored_le_of_month_le (hm : m.InCalendar) (he : e.isAnchored anchor = true)
    (h : m ≤ e.month) : m.anchored anchor ≤ e := by
  rcases Int.lt_or_eq_of_le (Month.le_iff.1 h) with hlt | heq
  · apply le_of_lt
    apply lt_of_month_lt
    rw [Month.month_anchored hm]
    exact hlt
  · rw [isAnchored_iff.1 he, Month.ext_ordinal heq]

/-- Where the anchored date of a date's own month is behind it, all anchored dates that are not come in
later months. -/
theorem month_lt_of_isAnchored (hs : ¬ s ≤ s.month.anchored anchor) (he : e.isAnchored anchor = true)
    (hse : s ≤ e) : s.month < e.month := by
  rcases Int.lt_or_eq_of_le (Month.le_iff.1 (month_le_month hse)) with hlt | heq
  · exact hlt
  · rw [isAnchored_iff.1 he, ← Month.ext_ordinal heq] at hse
    exact absurd hse hs

/-- The first anchored date is the least of those that are not before the given one. -/
theorem isLeast_firstMonthly (h : ∃ d, s ≤ d ∧ d.isAnchored anchor = true) :
    IsLeast {d | s ≤ d ∧ d.isAnchored anchor = true} (s.firstMonthly anchor) := by
  unfold firstMonthly
  split
  · -- the month's own anchored date is not behind
    rename_i hs
    refine ⟨⟨hs, isAnchored_anchored s.inCalendar_month anchor⟩, ?_⟩
    rintro e ⟨hse, he⟩
    exact anchored_le_of_month_le s.inCalendar_month he (month_le_month hse)
  · -- it is behind, and the anchored date that there is shows that a month follows
    rename_i hs
    obtain ⟨d, hsd, hd⟩ := h
    have hlast : s.month < latest.month :=
      Int.lt_of_lt_of_le (month_lt_of_isAnchored hs hd hsd) d.inCalendar_month.2
    have hnext := inCalendar_next hlast
    have hlt : s < s.nextMonthly anchor := lt_nextMonthly (lt_of_month_lt hlast) anchor
    refine ⟨⟨le_of_lt hlt, isAnchored_anchored hnext anchor⟩, ?_⟩
    rintro e ⟨hse, he⟩
    exact anchored_le_of_month_le hnext he (month_lt_of_isAnchored hs he hse)

/-- **Anchors and month ends.** In any month of the calendar any anchor has a date: it is in that month,
on the anchor's day if the Gregorian rule gives the month such a day, and on its last day otherwise. The
last day of a date's month is the greatest of its dates. From every month but the last the step to the next
one goes to where the anchor falls in it, which is later. And if there is an anchored date on or after a
date at all, then the least of them is found. -/
theorem anchors_clamped :
    (∀ (year : Int) (number anchor : Nat),
      -262143 ≤ year ∧ year ≤ 262142 → 1 ≤ number ∧ number ≤ 12 →
        ∃ d, anchoredIn year number anchor = .ok d ∧ d.FallsIn year number anchor) ∧
    (∀ d : Date, IsGreatest {e | e.year = d.year ∧ e.month.number = d.month.number} d.endOfMonth) ∧
    (∀ (d : Date) (anchor : Nat), d.month < latest.month →
      let (year, number) := rollOver d.year d.month.number
      anchoredIn year number anchor = .ok (d.nextMonthly anchor) ∧
        (d.nextMonthly anchor).FallsIn year number anchor ∧ d < d.nextMonthly anchor) ∧
    (∀ (s : Date) (anchor : Nat), (∃ d, s ≤ d ∧ d.FallsIn d.year d.month.number anchor) →
      IsLeast {d | s ≤ d ∧ d.FallsIn d.year d.month.number anchor} (s.firstMonthly anchor)) := by
  refine ⟨?_, isGreatest_endOfMonth, ?_, ?_⟩
  · intro year number anchor hy hn
    have hm := inCalendar_of hy hn
    have hfalls := fallsIn_anchored hm anchor
    rw [year_of hn, number_of hn] at hfalls
    exact ⟨_, anchoredIn_of_le hn hm.1 anchor, hfalls⟩
  · intro d anchor hd
    have hfalls := fallsIn_anchored (inCalendar_next hd) anchor
    obtain ⟨hyear, hnumber⟩ := parts_next d.month
    rw [hyear, hnumber] at hfalls
    exact ⟨anchoredIn_rollOver d anchor, hfalls, lt_nextMonthly (lt_of_month_lt hd) anchor⟩
  · intro s anchor
    simp only [fallsIn_iff]
    exact isLeast_firstMonthly

/-- An anchor past the end of a February without and with a leap day, and one of 0 in the last month of the
calendar. From January 31 on, February 29 is the first date for the 30th. -/
theorem sample_februaries :
    (∃ d, anchoredIn 1900 2 30 = .ok d ∧ d.FallsIn 1900 2 30 ∧ d.day = 28) ∧
    (∃ d, anchoredIn 262142 12 0 = .ok d ∧ d.FallsIn 262142 12 0 ∧ d.day = 31) ∧
    IsGreatest {e | e.year = 2024 ∧ e.month.number = 2} (Sample.date 2 29) ∧
    (anchoredIn 2024 2 30 = .ok (Sample.date 2 29) ∧ (Sample.date 2 29).FallsIn 2024 2 30 ∧
      Sample.date 1 31 < Sample.date 2 29) ∧
    IsLeast {d | Sample.date 1 31 ≤ d ∧ d.FallsIn d.year d.month.number 30} (Sample.date 2 29) := by
  obtain ⟨hdate, hend, hnext, hfirst⟩ := anchors_clamped
  obtain ⟨plain, hplain, hplainFalls⟩ := hdate 1900 2 30 (by decide) (by decide)
  obtain ⟨last, hlast, hlastFalls⟩ := hdate 262142 12 0 (by decide) (by decide)
  have hstep : (Sample.date 1 31).nextMonthly 30 = Sample.date 2 29 := by decide +kernel
  have hleap := hnext (Sample.date 1 31) 30 (by decide +kernel)
  have hends := hend (Sample.date 2 5)
  have hleast := hfirst (Sample.date 1 31) 30
    ⟨Sample.date 2 29, by decide +kernel, fallsIn_iff.2 (by decide +kernel)⟩
  have hfound : (Sample.date 1 31).firstMonthly 30 = Sample.date 2 29 := by decide +kernel
  have hendOf : (Sample.date 2 5).endOfMonth = Sample.date 2 29 := by decide +kernel
  have hyear : (Sample.date 2 5).year = 2024 ∧ (Sample.date 2 5).month.number = 2 := by decide +kernel
  have hroll : rollOver (Sample.date 1 31).year (Sample.date 1 31).month.number = (2024, 2) := by
    decide +kernel
  rw [hstep, hroll] at hleap
  rw [hendOf, hyear.1, hyear.2] at hends
  rw [hfound] at hleast
  exact ⟨⟨plain, hplain, hplainFalls, hplainFalls.day_of_not_le (by decide)⟩,
    ⟨last, hlast, hlastFalls, hlastFalls.day_of_not_le (by decide)⟩, hends, hleap, hleast⟩

end Date

end Forecast
