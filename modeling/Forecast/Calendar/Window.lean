import Forecast.Calendar.DateText
import Forecast.Json.Record

/-!
# Windows

A window is a range of dates with both ends in it, the first not after the last.

## The end of the calendar

The days of a window are walked by stepping from each date to the next. There is no step from the
last date of the calendar, so a window that ends there walks one day less than it has.
-/

namespace Forecast

/-- The dates from `first` to `last`. -/
structure Window where
  first : Date
  last : Date
  first_le_last : first ≤ last
deriving DecidableEq

namespace Window

/-- The window with the given ends, unless they are the wrong way round. -/
def make? (first last : Date) : Option Window :=
  if h : first ≤ last then some ⟨first, last, h⟩ else none

/-- The window from a date to the date a number of days later, or the fault of a date addition. -/
def reaching (first : Date) (days : Nat) : Checked Window :=
  if h : first.dayNumber + days ≤ 95745704 then
    .ok
      { first
        last := ⟨first.dayNumber + days, by have := first.earliest_le; omega, h⟩
        first_le_last := by rw [Date.le_iff]; simp only; omega }
  else .error .dateAddition

/-- A date lies in the window. -/
def contains (w : Window) (d : Date) : Bool :=
  w.first ≤ d && d ≤ w.last

/-- The number of days in the window, both ends counted. -/
def length (w : Window) : Nat :=
  (w.last.daysSince w.first).toNat + 1

/-- The position of a date counted from the first day. -/
def offsetOf (w : Window) (d : Date) : Int :=
  d.daysSince w.first

/-- The number of days that are walked. -/
def dayCount (w : Window) : Nat :=
  if w.last = Date.latest then w.length - 1 else w.length

/-- The day at a position. -/
def dayAt (w : Window) (i : Nat) : Date :=
  Date.clamp (w.first.dayNumber + i)

/-- The days that are walked, in order. -/
def days (w : Window) : List Date :=
  (List.range w.dayCount).map w.dayAt

theorem length_days (w : Window) : w.days.length = w.dayCount := by
  simp [days]

theorem contains_iff {w : Window} {d : Date} :
    w.contains d = true ↔ w.first ≤ d ∧ d ≤ w.last := by
  simp [contains]

theorem make?_eq_some_iff {first last : Date} {w : Window} :
    make? first last = some w ↔ w.first = first ∧ w.last = last := by
  unfold make?
  split
  · constructor
    · rintro h
      cases h
      exact ⟨rfl, rfl⟩
    · rintro ⟨rfl, rfl⟩
      rfl
  · rename_i h
    constructor
    · intro h'; cases h'
    · rintro ⟨rfl, rfl⟩
      exact absurd w.first_le_last h

/-- The ends of a window as they are written; nothing is said on their order. -/
structure Ends where
  first : Date
  last : Date
deriving DecidableEq

instance : Json.Codec Ends where
  encode e := .record [Json.field "start" e.first, Json.field "end" e.last]
  decode? v := do
    match ← v.slots? ["start", "end"] with
    | [first, last] => return { first := ← first.required, last := ← last.required }
    | _ => none

instance : Json.Codec Window where
  encode w := Json.encode (Ends.mk w.first w.last)
  decode? v := (Json.decode? v).bind fun (e : Ends) => make? e.first e.last

end Window

end Forecast
