import Forecast.Calendar.Window
import Mathlib

/-!
# The days of a window

Dates are in a linear order. The days that are walked are the dates of the window in ascending order,
without the last date of the calendar: `pairwise_days` and `mem_days_iff`. A window that does not end
with the calendar is walked to its last date (`getLast?_days`).
-/

namespace Forecast

namespace Date

instance : LinearOrder Date where
  le := (· ≤ ·)
  lt := (· < ·)
  le_refl d := Int.le_refl d.dayNumber
  le_trans _ _ _ := Int.le_trans
  lt_iff_le_not_ge _ _ := Int.lt_iff_le_and_not_ge
  le_antisymm _ _ hab hba := Date.ext (Int.le_antisymm hab hba)
  le_total a b := Int.le_total a.dayNumber b.dayNumber
  toDecidableLE := inferInstance

end Date

namespace Window

variable {w : Window} {d : Date}

theorem dayNumber_clamp {n : Int} (h : Date.earliest.dayNumber ≤ n ∧ n ≤ Date.latest.dayNumber) :
    (Date.clamp n).dayNumber = n := by
  have h1 : Date.earliest.dayNumber = -95745824 := rfl
  have h2 : Date.latest.dayNumber = 95745704 := rfl
  simp only [Date.clamp]
  omega

/-- The positions that are walked lie before the last date of the calendar. -/
theorem lt_dayCount_iff {i : Nat} :
    i < w.dayCount ↔ w.first.dayNumber + i ≤ w.last.dayNumber ∧
      w.first.dayNumber + i < Date.latest.dayNumber := by
  have h1 := Date.le_iff.1 w.first_le_last
  have h2 : w.last.dayNumber ≤ Date.latest.dayNumber := w.last.le_latest
  unfold dayCount length
  simp only [Date.daysSince]
  split
  · -- the window ends with the calendar, and its last date is not walked
    rename_i h
    rw [h] at h1 ⊢
    omega
  · rename_i h
    have h3 : w.last.dayNumber ≠ Date.latest.dayNumber := fun he => h (Date.ext he)
    omega

theorem dayNumber_dayAt {i : Nat} (h : i < w.dayCount) :
    (w.dayAt i).dayNumber = w.first.dayNumber + i := by
  have h1 := lt_dayCount_iff.1 h
  have h2 : Date.earliest.dayNumber ≤ w.first.dayNumber := w.first.earliest_le
  exact dayNumber_clamp (by omega)

/-- The dates of the window but for the last one of the calendar are walked. -/
theorem mem_days_iff : d ∈ w.days ↔ w.contains d = true ∧ d < Date.latest := by
  rw [contains_iff, days, List.mem_map]
  constructor
  · rintro ⟨i, hi, rfl⟩
    rw [List.mem_range] at hi
    have h1 := lt_dayCount_iff.1 hi
    simp only [Date.le_iff, Date.lt_iff, dayNumber_dayAt hi]
    omega
  · rintro ⟨⟨h1, h2⟩, h3⟩
    simp only [Date.le_iff, Date.lt_iff] at h1 h2 h3
    have hi : (d.dayNumber - w.first.dayNumber).toNat < w.dayCount := by
      rw [lt_dayCount_iff]
      omega
    refine ⟨_, List.mem_range.2 hi, Date.ext ?_⟩
    rw [dayNumber_dayAt hi]
    omega

theorem mem_days_iff_contains (hw : w.last < Date.latest) : d ∈ w.days ↔ w.contains d = true := by
  rw [mem_days_iff, contains_iff]
  exact ⟨fun h => h.1, fun h => ⟨h, lt_of_le_of_lt h.2 hw⟩⟩

theorem not_mem_days (h : w.contains d = false) : d ∉ w.days := fun hd => by
  rw [(mem_days_iff.1 hd).1] at h
  cases h

theorem pairwise_days (w : Window) : w.days.Pairwise (· < ·) := by
  rw [days, List.pairwise_map]
  refine List.pairwise_lt_range.imp_of_mem ?_
  intro i j hi hj hij
  rw [List.mem_range] at hi hj
  rw [Date.lt_iff, dayNumber_dayAt hi, dayNumber_dayAt hj]
  omega

/-- The date is one of those that are walked, and not past the given one. -/
def upTo (w : Window) (d d' : Date) : Bool :=
  decide (d' ∈ w.days) && decide (d' ≤ d)

/-- Of a date in the window it only matters whether it is past the day. -/
theorem upTo_of_contains {d' : Date} (hd : d ∈ w.days) (h : w.contains d' = true) :
    w.upTo d d' = decide (d' ≤ d) := by
  have hday : d' ≤ d → d' ∈ w.days := fun hle =>
    mem_days_iff.2 ⟨h, lt_of_le_of_lt hle (mem_days_iff.1 hd).2⟩
  by_cases hle : d' ≤ d <;> simp [upTo, hle, hday]

/-- Up to its last date there is the whole window. -/
theorem upTo_last (hw : w.last < Date.latest) (d : Date) : w.upTo w.last d = w.contains d := by
  rw [upTo, Bool.eq_iff_iff, Bool.and_eq_true, decide_eq_true_iff, decide_eq_true_iff,
    mem_days_iff_contains hw]
  exact ⟨fun h => h.1, fun h => ⟨h, (contains_iff.1 h).2⟩⟩

theorem nodup_days (w : Window) : w.days.Nodup :=
  (pairwise_days w).imp ne_of_lt

/-- A window that ends before the calendar does has a day for each step from its first to its last
date. -/
theorem length_days_of_lt_latest (hw : w.last < Date.latest) :
    (w.days.length : Int) = w.last.daysSince w.first + 1 := by
  have h := Date.le_iff.1 w.first_le_last
  rw [length_days, dayCount, if_neg (ne_of_lt hw), Window.length]
  simp only [Date.daysSince]
  omega

theorem getElem?_days_eq_some_iff {i : Nat} :
    w.days[i]? = some d ↔ i < w.days.length ∧ d.dayNumber = w.first.dayNumber + i := by
  rw [length_days]
  constructor
  · intro h
    have hi : i < w.dayCount := by
      have hlt := (List.getElem?_eq_some_iff.1 h).1
      rwa [length_days] at hlt
    rw [days, List.getElem?_map, List.getElem?_range hi, Option.map_some, Option.some.injEq] at h
    exact ⟨hi, by rw [← h, dayNumber_dayAt hi]⟩
  · rintro ⟨hi, hd⟩
    rw [days, List.getElem?_map, List.getElem?_range hi, Option.map_some, Option.some.injEq]
    exact Date.ext (by rw [dayNumber_dayAt hi, hd])

/-- A window that ends before the calendar does is walked to its end. -/
theorem getLast?_days (hw : w.last < Date.latest) : w.days.getLast? = some w.last := by
  have h1 := Date.le_iff.1 w.first_le_last
  have hcount : w.dayCount = (w.last.dayNumber - w.first.dayNumber).toNat + 1 := by
    rw [dayCount, if_neg (ne_of_lt hw)]
    rfl
  rw [days, List.getLast?_map, List.getLast?_range, if_neg (by omega), Option.map_some]
  refine congrArg some (Date.ext ?_)
  rw [dayNumber_dayAt (by omega), hcount]
  omega

/-- What there is one of for each day ends with the last date of the window. -/
theorem exists_getLast?_of_dates {π : Type} {ps : List π} {date : π → Date}
    (hw : w.last < Date.latest) (h : ps.map date = w.days) :
    ∃ p, ps.getLast? = some p ∧ date p = w.last := by
  have hlast : ps.getLast?.map date = some w.last := by
    rw [← List.getLast?_map, h, getLast?_days hw]
  obtain ⟨p, hp, hdate⟩ := Option.map_eq_some_iff.1 hlast
  exact ⟨p, hp, hdate⟩

end Window

/-- A date in the year 2024, which has a leap day. -/
def Sample.date (month day : Nat) : Date :=
  (Date.ofParts? 2024 month day).getD Date.earliest

end Forecast
