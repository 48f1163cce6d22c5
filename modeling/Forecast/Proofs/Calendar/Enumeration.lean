import Forecast.Proofs.Calendar.Parts

/-!
# Enumerating days

The date after another one is found by the calendar, from its month and its day in it (`Date.following?`),
and that is the date with the next day number (`Date.following?_eq_some_iff`). So a walk from date to date
(`Date.onwards`), which has no way to hand out a date that none follows, comes to the dates in the order of
their day numbers, and the days of a window are the walk from its first date as far as its last
(`Window.days_eq_takeWhile`). What is read off a day's place in it is in `Window.days_enumerate`.
-/

namespace Forecast

namespace Date

variable {d d' : Date}

/-! ## The calendar's next date -/

/-- The date after this one: the next day of the month, and behind its last day the first of the next
month. The last date of the calendar has none. -/
def following? (d : Date) : Option Date :=
  if d.day < d.month.length then inMonth? d.month (d.day + 1) else inMonth? d.month.next 1

theorem following?_eq (d : Date) : d.following? = ofDayNumber? (d.dayNumber + 1) := by
  have hday := d.day_bounds
  have hnumber := d.dayNumber_eq
  unfold following? inMonth?
  split
  · rw [if_pos (by omega)]
    exact congrArg ofDayNumber? (by omega)
  · -- the day is the last one of its month
    have hlength := d.month.next.length_bounds
    rw [if_pos (by omega), Month.firstDay_next]
    exact congrArg ofDayNumber? (by omega)

/-- One date follows another exactly if its day number does. -/
theorem following?_eq_some_iff : d.following? = some d' ↔ d'.dayNumber = d.dayNumber + 1 := by
  rw [following?_eq]
  constructor
  · exact dayNumber_of_ofDayNumber?
  · intro h
    rw [← h, ofDayNumber?_dayNumber]

theorem following?_of_lt (h : d < d') : d.following? = some d.next :=
  following?_eq_some_iff.2 (dayNumber_next h)

theorem following?_latest : latest.following? = none := by decide +kernel

theorem lt_of_following? (h : d.following? = some d') : d < d' := by
  rw [lt_iff, following?_eq_some_iff.1 h]
  exact Int.lt_succ _

/-! ## Walking on -/

/-- The dates from one on, each of which is handed out when the next one has been found. -/
def onwards (d : Date) : List Date :=
  match _h : d.following? with
  | none => []
  | some d' => d :: d'.onwards
termination_by (latest.dayNumber - d.dayNumber).toNat
decreasing_by
  have h1 := lt_iff.1 (lt_of_following? ‹_›)
  have h2 : d'.dayNumber ≤ latest.dayNumber := d'.le_latest
  omega

theorem onwards_latest : latest.onwards = [] := by
  rw [onwards]
  split
  · rfl
  · rename_i h
    rw [following?_latest] at h
    cases h

theorem onwards_of_lt (h : d < d') : d.onwards = d :: d.next.onwards := by
  rw [onwards]
  split
  · rename_i hnone
    rw [following?_of_lt h] at hnone
    cases hnone
  · rename_i next hnext
    rw [following?_of_lt h] at hnext
    cases hnext
    rfl

end Date

namespace Window

variable {w : Window} {d : Date}

/-! ## The walk along a window -/

theorem takeWhile_onwards_of_lt {last : Date} (h : last < d) :
    (d.onwards.takeWhile fun d => decide (d ≤ last)) = [] := by
  rcases eq_or_lt_of_le d.le_latest' with rfl | hd
  · rw [Date.onwards_latest, List.takeWhile_nil]
  · rw [Date.onwards_of_lt hd, List.takeWhile_cons_of_neg (by simpa using h)]

theorem dayAt_zero (w : Window) : w.dayAt 0 = w.first := by
  refine Date.ext ?_
  rw [dayAt, Int.natCast_zero, Int.add_zero, dayNumber_clamp ⟨w.first.earliest_le, w.first.le_latest⟩]

/-- A window with more than one date is walked from its first date and then along the rest. -/
theorem days_of_lt (h : w.first < w.last) : w.days = w.first :: (w.beyond w.first h).days := by
  have hnext := Date.dayNumber_next h
  have hlt := Date.lt_iff.1 h
  have hcount : w.dayCount = (w.beyond w.first h).dayCount + 1 := by
    simp only [dayCount, length, beyond, Date.daysSince, hnext]
    split <;> omega
  rw [days, hcount, List.range_succ_eq_map, List.map_cons, List.map_map, dayAt_zero, days]
  refine congrArg (w.first :: ·) (List.map_congr_left fun i _ => ?_)
  simp only [Function.comp_apply, dayAt, beyond, hnext]
  exact congrArg Date.clamp (by omega)

/-- A window with one date is walked unless that is the last date of the calendar. -/
theorem days_of_eq (h : w.first = w.last) :
    w.days = if w.last = Date.latest then [] else [w.first] := by
  have hlength : w.length = 1 := by simp [length, Date.daysSince, h]
  split
  · rename_i hlast
    rw [days, dayCount, if_pos hlast, hlength]
    rfl
  · rename_i hlast
    have hcount : w.dayCount = 1 := by rw [dayCount, if_neg hlast, hlength]
    rw [days, hcount, List.range_one, List.map_singleton, dayAt_zero]

/-- The days of a window are those of the walk from its first date as far as its last. -/
theorem days_eq_takeWhile (w : Window) :
    w.days = w.first.onwards.takeWhile fun d => decide (d ≤ w.last) := by
  -- by induction on how far the last date is away
  obtain ⟨n, hn⟩ : ∃ n : Nat, w.last.dayNumber = w.first.dayNumber + n :=
    Int.le.dest (Date.le_iff.1 w.first_le_last) |>.imp fun _ => Eq.symm
  induction n generalizing w with
  | zero =>
    have heq : w.first = w.last := Date.ext (by omega)
    rw [days_of_eq heq]
    split
    · rename_i hlast
      rw [heq, hlast, Date.onwards_latest, List.takeWhile_nil]
    · rename_i hlast
      have hlt : w.first < Date.latest := heq ▸ lt_of_le_of_ne w.last.le_latest' hlast
      have hnext : w.last < w.first.next := heq ▸ (Date.next_le_iff hlt).1 (le_refl _)
      rw [Date.onwards_of_lt hlt, List.takeWhile_cons_of_pos (by simp [heq]),
        takeWhile_onwards_of_lt hnext]
  | succ n ih =>
    have hlt : w.first < w.last := Date.lt_iff.2 (by omega)
    have hrest := ih (w.beyond w.first hlt) (by
      simp only [beyond, Date.dayNumber_next hlt]
      omega)
    rw [days_of_lt hlt, Date.onwards_of_lt hlt,
      List.takeWhile_cons_of_pos (by simpa using le_of_lt hlt), hrest]
    rfl

/-! ## The place of a day -/

/-- The days are the dates of the window, each followed by the next, and each at the place that its
distance from the first date gives it. All dates of the window are among them but for the last date of the
calendar. -/
structure Enumerates (w : Window) (ds : List Date) : Prop where
  ascending : ds.Pairwise (· < ·)
  consecutive : ds.IsChain fun d d' => d.following? = some d'
  offsetOf : ∀ (i : Nat) (d : Date), ds[i]? = some d → w.offsetOf d = i
  contains_iff : ∀ d, w.contains d = true ↔ d ∈ ds ∨ d = w.last ∧ d = Date.latest
  latest_not_mem : Date.latest ∉ ds
  length : w.last ≠ Date.latest → ds.length = w.length
  length_to_latest : w.last = Date.latest → ds.length + 1 = w.length

theorem isChain_days (w : Window) : w.days.IsChain fun d d' => d.following? = some d' := by
  rw [List.isChain_iff_getElem]
  intro i hi
  have h := (getElem?_days_eq_some_iff.1 (List.getElem?_eq_getElem (Nat.lt_of_succ_lt hi))).2
  have h' := (getElem?_days_eq_some_iff.1 (List.getElem?_eq_getElem hi)).2
  rw [Date.following?_eq_some_iff, h, h']
  omega

/-- A date of the window is walked unless it is the last one of the calendar. -/
theorem contains_iff_mem_days : w.contains d = true ↔ d ∈ w.days ∨ d = w.last ∧ d = Date.latest := by
  rw [mem_days_iff]
  constructor
  · intro h
    rcases eq_or_lt_of_le d.le_latest' with hlatest | hlt
    · -- the last date of the calendar can only be the last one of the window
      have hle : d ≤ w.last := (Window.contains_iff.1 h).2
      have heq : d = w.last := le_antisymm hle (hlatest ▸ w.last.le_latest')
      exact .inr ⟨heq, hlatest⟩
    · exact .inl ⟨h, hlt⟩
  · rintro (⟨h, -⟩ | ⟨rfl, -⟩)
    · exact h
    · exact Window.contains_iff.2 ⟨w.first_le_last, le_refl _⟩

/-- **The days of a window.** They are what a walk from date to date along the calendar comes to from the
first date of the window as far as its last, and they enumerate the window: each is followed by the next,
each stands at its distance from the first, and there are as many as from the one end to the other, both
counted. Only the last date of the calendar is not walked, where the window ends with it. -/
theorem days_enumerate (w : Window) :
    (w.days = w.first.onwards.takeWhile fun d => decide (d ≤ w.last)) ∧
    w.Enumerates w.days ∧
    (w.length : Int) = w.last.dayNumber - w.first.dayNumber + 1 := by
  have hle := Date.le_iff.1 w.first_le_last
  refine ⟨days_eq_takeWhile w, ⟨pairwise_days w, isChain_days w, ?_, fun d => contains_iff_mem_days, ?_,
    ?_, ?_⟩, ?_⟩
  · intro i d hd
    rw [offsetOf, Date.daysSince, (getElem?_days_eq_some_iff.1 hd).2]
    omega
  · intro h
    exact lt_irrefl _ (mem_days_iff.1 h).2
  · intro hlast
    rw [length_days, dayCount, if_neg hlast]
  · intro hlast
    rw [length_days, dayCount, if_pos hlast, length]
    omega
  · rw [length, Date.daysSince]
    omega

end Window

end Forecast
