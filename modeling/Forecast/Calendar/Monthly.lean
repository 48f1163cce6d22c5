import Forecast.Calendar.Window

/-!
# Monthly dates

Something that comes every month is anchored to a day of the month. In a month without that day it
comes on the last day, so that an anchor of 31 gives February 28 or 29 and returns to 31 in March.

## The ends of the calendar

The last day of a month is found by stepping back from the first day of the next month. When the next
month is past the calendar there is no such day, and the last date of the calendar stands in for it.

## Termination

The dates of a series are walked from its seed until they pass the window. Each step goes to a later
date, except in the last month of the calendar, where the walk comes to stand. A walk that stands
before it passes the window has no end, and is the fault `endless`.
-/

namespace Forecast

namespace Month

/-- The last day of the month. -/
def lastDate (m : Month) : Date :=
  match Date.inMonth? m.next 1 with
  | some first => Date.clamp (first.dayNumber - 1)
  | none => Date.latest

/-- The anchor day of the month, or its last day if it has no such day. -/
def anchored (m : Month) (anchor : Nat) : Date :=
  (Date.inMonth? m anchor).getD m.lastDate

end Month

namespace Date

/-- The last day of the date's month. -/
def endOfMonth (d : Date) : Date :=
  d.month.lastDate

theorem le_endOfMonth (d : Date) : d ≤ d.endOfMonth := by
  have h1 : d.dayNumber < d.month.next.firstDay := Month.lt_firstDay_next_containing d.dayNumber
  unfold endOfMonth Month.lastDate
  split
  · rename_i first h
    have h2 : first.dayNumber = d.month.next.firstDay := by
      have h3 := dayNumber_eq first
      rw [month_of_inMonth? h, day_of_inMonth? h] at h3
      omega
    have h4 := d.earliest_le
    have h5 := d.le_latest
    rw [le_iff]
    simp only [clamp]
    omega
  · exact d.le_latest'

/-- The anchored date of the month after the date's own. -/
def nextMonthly (d : Date) (anchor : Nat) : Date :=
  d.month.next.anchored anchor

/-- The first anchored date on or after the date. -/
def firstMonthly (d : Date) (anchor : Nat) : Date :=
  if d ≤ d.month.anchored anchor then d.month.anchored anchor else d.nextMonthly anchor

/-- The anchored date for any year and month number. No month has a number past 12, and the last date
of the calendar stands in for the last day of one. The month just before the calendar has a month
after it but no last day to step back to, which is a fault. -/
def anchoredIn (year : Int) (number anchor : Nat) : Checked Date :=
  if 12 < number then .ok latest
  else
    let m := Month.of year number
    if m.next = earliest.month then .error .dateSubtraction
    else .ok (if number = 0 then m.lastDate else m.anchored anchor)

end Date

namespace Window

/-- The window from a date to the end of its month. -/
def toEndOfMonth (d : Date) : Window :=
  ⟨d, d.endOfMonth, d.le_endOfMonth⟩

end Window

/-- Something that comes every month on an anchor day. -/
structure Series where
  /-- The day of the month; 0 and days past the month's end mean its last day. -/
  anchor : Nat
  /-- The date from which the series is walked, if one is known. It need not be an anchored one. -/
  seed : Option Date
deriving DecidableEq

namespace Series

/-- The date from which the series is walked into a window. -/
def start (s : Series) (w : Window) : Date :=
  s.seed.getD (w.first.firstMonthly s.anchor)

/-- Walks on from a date, with the dates found so far in reverse. -/
def walk (anchor : Nat) (w : Window) (current : Date) (found : List Date) : Checked (List Date) :=
  if current ≤ w.last then
    if current < current.nextMonthly anchor then
      walk anchor w (current.nextMonthly anchor)
        (if w.first ≤ current then current :: found else found)
    else .error .endless
  else .ok found.reverse
termination_by (Date.latest.dayNumber - current.dayNumber).toNat
decreasing_by
  rename_i h
  have h1 := Date.lt_iff.1 h
  have h2 := (current.nextMonthly anchor).le_latest
  have h3 : Date.latest.dayNumber = 95745704 := rfl
  omega

/-- The dates of the series that fall in a window, in order. -/
def dates (s : Series) (w : Window) : Checked (List Date) :=
  walk s.anchor w (s.start w) []

end Series

end Forecast
