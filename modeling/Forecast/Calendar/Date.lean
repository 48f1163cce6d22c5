import Forecast.Fault
import Forecast.Calendar.Month

/-!
# Dates

A date is a day number inside the calendar, which runs from January 1 of year -262143 to December 31
of year 262142. Dates are equal, ordered and moved as their day numbers are; year, month and day are
read off through the month that contains the day.

## The ends of the calendar

Moving a date by a number of days can leave the calendar, which is a fault. `next` is the only step
that stays inside: the last date has no date after it and stands still.
-/

namespace Forecast

/-- A day of the calendar. -/
structure Date where
  dayNumber : Int
  earliest_le : -95745824 ≤ dayNumber := by decide
  le_latest : dayNumber ≤ 95745704 := by decide
deriving DecidableEq

namespace Date

/-- The first date of the calendar. -/
def earliest : Date := { dayNumber := -95745824 }

/-- The last date of the calendar. -/
def latest : Date := { dayNumber := 95745704 }

theorem earliest_eq : earliest.dayNumber = (Month.of (-262143) 1).firstDay := by decide

@[ext] theorem ext {a b : Date} (h : a.dayNumber = b.dayNumber) : a = b := by
  cases a; cases b; cases h; rfl

instance : Inhabited Date := ⟨earliest⟩

instance : LT Date := ⟨fun a b => a.dayNumber < b.dayNumber⟩
instance : LE Date := ⟨fun a b => a.dayNumber ≤ b.dayNumber⟩
instance (a b : Date) : Decidable (a < b) := Int.decLt a.dayNumber b.dayNumber
instance (a b : Date) : Decidable (a ≤ b) := Int.decLe a.dayNumber b.dayNumber

theorem lt_iff {a b : Date} : a < b ↔ a.dayNumber < b.dayNumber := Iff.rfl
theorem le_iff {a b : Date} : a ≤ b ↔ a.dayNumber ≤ b.dayNumber := Iff.rfl

theorem le_latest' (d : Date) : d ≤ latest := d.le_latest

/-- The date with the given day number, if it is in the calendar. -/
def ofDayNumber? (n : Int) : Option Date :=
  if h : -95745824 ≤ n ∧ n ≤ 95745704 then some ⟨n, h.1, h.2⟩ else none

/-- The date nearest to the given day number. -/
def clamp (n : Int) : Date where
  dayNumber := max (-95745824) (min n 95745704)
  earliest_le := by omega
  le_latest := by omega

@[simp] theorem ofDayNumber?_dayNumber (d : Date) : ofDayNumber? d.dayNumber = some d := by
  simp [ofDayNumber?, d.earliest_le, d.le_latest]

theorem dayNumber_of_ofDayNumber? {n : Int} {d : Date} (h : ofDayNumber? n = some d) :
    d.dayNumber = n := by
  unfold ofDayNumber? at h
  split at h
  · cases h; rfl
  · cases h

/-! ## Moving by days -/

/-- The date a number of days later, or the fault of a date addition. -/
def addDays (d : Date) (days : Nat) : Checked Date :=
  .ofOption .dateAddition (ofDayNumber? (d.dayNumber + days))

/-- The date a number of days earlier, or the fault of a date subtraction. -/
def subDays (d : Date) (days : Nat) : Checked Date :=
  .ofOption .dateSubtraction (ofDayNumber? (d.dayNumber - days))

/-- The date after this one; the last date stands still. -/
def next (d : Date) : Date :=
  clamp (d.dayNumber + 1)

/-- The number of days from `b` to `a`. -/
def daysSince (a b : Date) : Int :=
  a.dayNumber - b.dayNumber

/-! ## Year, month and day -/

/-- The month the date lies in. -/
def month (d : Date) : Month :=
  Month.containing d.dayNumber

/-- The year of the date. -/
def year (d : Date) : Int :=
  d.month.year

/-- The day of the month, from 1. -/
def day (d : Date) : Nat :=
  (d.dayNumber - d.month.firstDay).toNat + 1

/-- The date with the given day in the given month, if the month has that day and the calendar has
the month. -/
def inMonth? (m : Month) (day : Nat) : Option Date :=
  if 1 ≤ day ∧ day ≤ m.length then ofDayNumber? (m.firstDay + day - 1) else none

/-- The date with the given year, month number and day, if there is one. -/
def ofParts? (year : Int) (number day : Nat) : Option Date :=
  if 1 ≤ number ∧ number ≤ 12 then inMonth? (Month.of year number) day else none

theorem firstDay_month_le (d : Date) : d.month.firstDay ≤ d.dayNumber :=
  Month.firstDay_containing_le d.dayNumber

theorem dayNumber_eq (d : Date) : d.dayNumber = d.month.firstDay + d.day - 1 := by
  have h := d.firstDay_month_le
  simp only [day]
  omega

theorem day_bounds (d : Date) : 1 ≤ d.day ∧ d.day ≤ d.month.length := by
  have h1 := d.firstDay_month_le
  have h2 : d.dayNumber < d.month.next.firstDay := Month.lt_firstDay_next_containing d.dayNumber
  rw [Month.firstDay_next] at h2
  simp only [day]
  omega

/-- A date is the day it has in the month it has. -/
@[simp] theorem inMonth?_month_day (d : Date) : inMonth? d.month d.day = some d := by
  rw [inMonth?, if_pos d.day_bounds, ← d.dayNumber_eq, ofDayNumber?_dayNumber]

/-- A date is made up of its year, month number and day. -/
@[simp] theorem ofParts?_parts (d : Date) : ofParts? d.year d.month.number d.day = some d := by
  rw [ofParts?, if_pos d.month.number_bounds, year, Month.of_year_number, inMonth?_month_day]

theorem month_of_inMonth? {m : Month} {day : Nat} {d : Date} (h : inMonth? m day = some d) :
    d.month = m := by
  unfold inMonth? at h
  split at h
  · rename_i hb
    have hd := dayNumber_of_ofDayNumber? h
    rw [month, Month.containing_eq_iff, Month.firstDay_next]
    omega
  · cases h

theorem day_of_inMonth? {m : Month} {day : Nat} {d : Date} (h : inMonth? m day = some d) :
    d.day = day := by
  have hm := month_of_inMonth? h
  unfold inMonth? at h
  split at h
  · rename_i hb
    have hd := dayNumber_of_ofDayNumber? h
    rw [Date.day, hm]
    omega
  · cases h

end Date

end Forecast
