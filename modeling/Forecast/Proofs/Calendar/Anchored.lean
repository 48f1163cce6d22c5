import Forecast.Calendar.Monthly

/-!
# Anchored dates

Where the anchored date of a month lies. Months follow each other as their days do, the calendar
begins and ends with a whole month, and in a month of the calendar the anchored date has the anchor
as its day, or the last day where the month has no such day.

Past the last month there are no dates. The last date of the calendar stands in for all anchored
dates there, so that a step from a date to the next month always goes forward, unless it starts from
the last date itself.

## Main statements

* `Month.month_day_anchored`: the place of the anchored date of a month.
* `Month.anchored_of_latest_lt`: what stands in for it past the calendar.
* `Date.isAnchored_iff`: a date is the anchored one of its month exactly when its day says so.
* `Date.lt_nextMonthly`: a step to the next month goes forward.
-/

namespace Forecast

namespace Month

variable {a b m : Month} {anchor : Nat}

/-- The day of the month on which an anchor falls: the anchor itself, or the month's last day if the
month has no such day. -/
def anchorDay (m : Month) (anchor : Nat) : Nat :=
  if 1 ≤ anchor ∧ anchor ≤ m.length then anchor else m.length

/-- The days of the month are in the calendar. -/
def InCalendar (m : Month) : Prop :=
  Date.earliest.month ≤ m ∧ m ≤ Date.latest.month

/-! ## Order -/

theorem lt_iff : a < b ↔ a.ordinal < b.ordinal := Iff.rfl

theorem le_iff : a ≤ b ↔ a.ordinal ≤ b.ordinal := Iff.rfl

theorem ext_ordinal (h : a.ordinal = b.ordinal) : a = b := by
  cases a; cases b; cases h; rfl

theorem next_le_iff : a.next ≤ b ↔ a < b := Iff.rfl

theorem lt_next (m : Month) : m < m.next := by
  simp only [lt_iff, next]
  omega

theorem firstDay_le_firstDay (h : a ≤ b) : a.firstDay ≤ b.firstDay := by
  rcases Int.lt_or_eq_of_le h with hlt | heq
  · exact Int.le_of_lt (firstDay_lt_firstDay hlt)
  · exact Int.le_of_eq (congrArg firstDay (ext_ordinal heq))

theorem containing_mono {i j : Int} (h : i ≤ j) : containing i ≤ containing j := by
  rw [le_iff]
  by_cases hle : (containing i).ordinal ≤ (containing j).ordinal
  · exact hle
  · have hn : (containing j).next ≤ containing i := next_le_iff.2 (Int.not_le.1 hle)
    have h1 := firstDay_le_firstDay hn
    have h2 := lt_firstDay_next_containing j
    have h3 := firstDay_containing_le i
    omega

theorem month_earliest : Date.earliest.month = of (-262143) 1 := by decide

theorem month_latest : Date.latest.month = of 262142 12 := by decide

/-- The calendar ends with the last day of a month. -/
theorem firstDay_next_latest : Date.latest.month.next.firstDay = Date.latest.dayNumber + 1 := by
  decide

theorem InCalendar.earliest_le_firstDay (h : m.InCalendar) :
    Date.earliest.dayNumber ≤ m.firstDay := by
  have h1 := firstDay_le_firstDay h.1
  rw [month_earliest, ← Date.earliest_eq] at h1
  exact h1

theorem InCalendar.firstDay_next_le (h : m.InCalendar) :
    m.next.firstDay ≤ Date.latest.dayNumber + 1 := by
  rw [← firstDay_next_latest]
  apply firstDay_le_firstDay
  have h2 := le_iff.1 h.2
  simp only [le_iff, next]
  omega

end Month

namespace Date

variable {d e : Date} {m : Month} {anchor k : Nat}

/-! ## Dates by month and day -/

theorem inCalendar_month (d : Date) : d.month.InCalendar :=
  ⟨Month.containing_mono d.earliest_le, Month.containing_mono d.le_latest⟩

theorem month_le_month (h : d ≤ e) : d.month ≤ e.month :=
  Month.containing_mono h

theorem lt_of_month_lt (h : d.month < e.month) : d < e := by
  rw [lt_iff]
  rw [Month.lt_iff] at h
  by_cases hle : e ≤ d
  · have := Month.le_iff.1 (month_le_month hle)
    omega
  · exact Int.not_le.1 hle

theorem eq_of_month_day (hm : d.month = e.month) (hd : d.day = e.day) : d = e := by
  apply Date.ext
  rw [dayNumber_eq d, dayNumber_eq e, hm, hd]

/-- The month and the day in it are read off the day number. -/
theorem month_day_of_dayNumber (hk : 1 ≤ k ∧ k ≤ m.length)
    (h : d.dayNumber = m.firstDay + k - 1) : d.month = m ∧ d.day = k := by
  have hm : d.month = m := by
    rw [month, Month.containing_eq_iff, Month.firstDay_next]
    omega
  refine ⟨hm, ?_⟩
  rw [day, hm]
  omega

theorem ofDayNumber?_eq_some {n : Int} (h : earliest.dayNumber ≤ n ∧ n ≤ latest.dayNumber) :
    ∃ d, ofDayNumber? n = some d :=
  ⟨⟨n, h.1, h.2⟩, dif_pos h⟩

theorem exists_inMonth? (hm : m.InCalendar) (hk : 1 ≤ k ∧ k ≤ m.length) :
    ∃ d, inMonth? m k = some d := by
  have h1 := hm.earliest_le_firstDay
  have h2 := hm.firstDay_next_le
  rw [Month.firstDay_next] at h2
  rw [inMonth?, if_pos hk]
  exact ofDayNumber?_eq_some (by omega)

theorem inMonth?_of_latest_lt (h : latest.month < m) (k : Nat) : inMonth? m k = none := by
  cases hd : inMonth? m k with
  | none => rfl
  | some d =>
    have hle := Month.le_iff.1 d.inCalendar_month.2
    rw [month_of_inMonth? hd] at hle
    have hlt := Month.lt_iff.1 h
    omega

end Date

namespace Month

variable {m : Month} {anchor : Nat}

open Date

/-! ## The anchored date of a month -/

theorem lastDate_of_latest_le (h : Date.latest.month ≤ m) : m.lastDate = Date.latest := by
  have hn : Date.latest.month < m.next := by
    have := le_iff.1 h
    simp only [lt_iff, next]
    omega
  rw [lastDate, inMonth?_of_latest_lt hn]

/-- The last day of a month of the calendar. -/
theorem month_day_lastDate (h : m.InCalendar) :
    m.lastDate.month = m ∧ m.lastDate.day = m.length := by
  have hl := m.length_bounds
  have hb : 1 ≤ m.length ∧ m.length ≤ m.length := by omega
  have hf := firstDay_next m
  rcases Int.lt_or_eq_of_le (le_iff.1 h.2) with hlt | heq
  · -- the last day is the one before the first day of the month that follows
    have hn : m.next.InCalendar := by
      have h1 := le_iff.1 h.1
      constructor
      · simp only [le_iff, next]
        omega
      · exact hlt
    have hl' := m.next.length_bounds
    obtain ⟨first, hfirst⟩ := exists_inMonth? hn (k := 1) (by omega)
    have hd : first.dayNumber = m.next.firstDay := by
      have h3 := dayNumber_eq first
      rw [month_of_inMonth? hfirst, day_of_inMonth? hfirst] at h3
      omega
    have he := h.earliest_le_firstDay
    have hle := h.firstDay_next_le
    have h4 : Date.earliest.dayNumber = -95745824 := rfl
    have h5 : Date.latest.dayNumber = 95745704 := rfl
    rw [lastDate, hfirst]
    apply month_day_of_dayNumber hb
    simp only [clamp]
    omega
  · -- no month follows, and the last day is that of the calendar
    have hm : m = Date.latest.month := ext_ordinal heq
    rw [lastDate_of_latest_le (le_iff.2 (Int.le_of_eq heq.symm))]
    apply month_day_of_dayNumber hb
    have h6 := firstDay_next_latest
    rw [← hm] at h6
    omega

/-- The anchored date of a month lies in it, on the day of the anchor. -/
theorem month_day_anchored (h : m.InCalendar) (anchor : Nat) :
    (m.anchored anchor).month = m ∧ (m.anchored anchor).day = m.anchorDay anchor := by
  unfold anchored anchorDay
  split
  · rename_i hk
    obtain ⟨d, hd⟩ := exists_inMonth? h hk
    rw [hd]
    exact ⟨month_of_inMonth? hd, day_of_inMonth? hd⟩
  · rename_i hk
    rw [inMonth?, if_neg hk]
    exact month_day_lastDate h

theorem month_anchored (h : m.InCalendar) (anchor : Nat) : (m.anchored anchor).month = m :=
  (month_day_anchored h anchor).1

/-- Past the calendar its last date stands in for the anchored ones. -/
theorem anchored_of_latest_lt (h : Date.latest.month < m) (anchor : Nat) :
    m.anchored anchor = Date.latest := by
  rw [anchored, inMonth?_of_latest_lt h]
  exact lastDate_of_latest_le (le_iff.2 (Int.le_of_lt h))

end Month

namespace Date

variable {d e : Date} {anchor : Nat}

/-- The date is the one of its month on which the anchor falls. -/
def isAnchored (d : Date) (anchor : Nat) : Bool :=
  d.day == d.month.anchorDay anchor

theorem isAnchored_iff : d.isAnchored anchor = true ↔ d = d.month.anchored anchor := by
  obtain ⟨hm, hd⟩ := Month.month_day_anchored d.inCalendar_month anchor
  rw [isAnchored, beq_iff_eq]
  constructor
  · intro h
    exact eq_of_month_day hm.symm (by rw [hd, h])
  · intro h
    rw [← hd, ← h]

theorem isAnchored_anchored {m : Month} (h : m.InCalendar) (anchor : Nat) :
    (m.anchored anchor).isAnchored anchor = true := by
  rw [isAnchored_iff, Month.month_anchored h]

/-! ## The next month -/

theorem nextMonthly_of_month_eq (h : d.month = latest.month) (anchor : Nat) :
    d.nextMonthly anchor = latest := by
  rw [nextMonthly, h]
  exact Month.anchored_of_latest_lt (Month.lt_next _) anchor

theorem inCalendar_next (h : d.month < latest.month) : d.month.next.InCalendar := by
  refine ⟨?_, h⟩
  have h1 := Month.le_iff.1 d.inCalendar_month.1
  simp only [Month.le_iff, Month.next]
  omega

theorem month_nextMonthly (h : d.month < latest.month) (anchor : Nat) :
    (d.nextMonthly anchor).month = d.month.next :=
  Month.month_anchored (inCalendar_next h) anchor

theorem month_lt_or_eq_latest (d : Date) : d.month < latest.month ∨ d.month = latest.month :=
  (Int.lt_or_eq_of_le d.inCalendar_month.2).imp_right Month.ext_ordinal

/-- A step to the next month goes forward. -/
theorem lt_nextMonthly (h : d < latest) (anchor : Nat) : d < d.nextMonthly anchor := by
  rcases d.month_lt_or_eq_latest with hlt | heq
  · apply lt_of_month_lt
    rw [month_nextMonthly hlt]
    exact Month.lt_next _
  · rw [nextMonthly_of_month_eq heq]
    exact h

end Date

end Forecast
