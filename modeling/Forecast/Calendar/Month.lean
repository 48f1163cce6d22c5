/-!
# Months and day numbers

The proleptic Gregorian calendar as two counts: months from January of year 0, and days from
March 1 of year 0. Counted from March, the leap day is the last day of its year and the month
lengths repeat every five months, so that the first day of a month and the month of a day are both
plain formulas.

## Main statements

* `Month.firstDay_next`: a month's first day and its length give the next month's first day.
* `Month.firstDay_containing_le`, `Month.lt_firstDay_next_containing`: the month computed from a day
  number is the one the day lies in.
-/

namespace Forecast

/-- A month, counted from January of year 0. -/
structure Month where
  ordinal : Int
deriving DecidableEq

namespace Month

/-- The month with the given year and number. The number may lie outside of `1..12`: month 0 is the
December of the year before. -/
def of (year : Int) (number : Nat) : Month :=
  ⟨12 * year + number - 1⟩

/-- The year the month lies in. -/
def year (m : Month) : Int :=
  m.ordinal / 12

/-- The month's place in its year, from 1 to 12. -/
def number (m : Month) : Nat :=
  (m.ordinal % 12).toNat + 1

/-- The month after this one. -/
def next (m : Month) : Month :=
  ⟨m.ordinal + 1⟩

instance : LT Month := ⟨fun a b => a.ordinal < b.ordinal⟩
instance : LE Month := ⟨fun a b => a.ordinal ≤ b.ordinal⟩
instance (a b : Month) : Decidable (a < b) := Int.decLt a.ordinal b.ordinal
instance (a b : Month) : Decidable (a ≤ b) := Int.decLe a.ordinal b.ordinal

/-- A year is a leap year if 4 divides it and not 100, or 400 does. -/
def isLeapYear (year : Int) : Bool :=
  (year % 4 == 0 && year % 100 != 0) || year % 400 == 0

/-- The number of days of the month. -/
def length (m : Month) : Nat :=
  match m.number with
  | 2 => if isLeapYear m.year then 29 else 28
  | 4 | 6 | 9 | 11 => 30
  | _ => 31

/-- The day number of the month's first day. -/
def firstDay (m : Month) : Int :=
  let y := (m.ordinal - 2) / 12
  let k := (m.ordinal - 2) % 12
  365 * y + y / 4 - y / 100 + y / 400 + (153 * k + 2) / 5

/-- The month in which the day with number `n` lies. -/
def containing (n : Int) : Month :=
  let cycle := n / 146097
  let day := n % 146097
  let year := (day - day / 1460 + day / 36524 - day / 146096) / 365
  let dayOfYear := day - (365 * year + year / 4 - year / 100)
  ⟨12 * (400 * cycle + year) + (5 * dayOfYear + 2) / 153 + 2⟩

theorem year_of {year : Int} {number : Nat} (h : 1 ≤ number ∧ number ≤ 12) :
    (of year number).year = year := by
  simp only [Month.year, of]; omega

theorem number_of {year : Int} {number : Nat} (h : 1 ≤ number ∧ number ≤ 12) :
    (of year number).number = number := by
  simp only [Month.number, of]; omega

theorem number_bounds (m : Month) : 1 ≤ m.number ∧ m.number ≤ 12 := by
  simp only [number]; omega

@[simp] theorem of_year_number (m : Month) : of m.year m.number = m := by
  cases m with
  | mk o => simp only [of, year, number, mk.injEq]; omega

theorem length_bounds (m : Month) : 28 ≤ m.length ∧ m.length ≤ 31 := by
  unfold length
  split
  · split <;> omega
  all_goals omega

private theorem isLeapYear_eq_true_iff (y : Int) :
    isLeapYear y = true ↔ (y % 4 = 0 ∧ y % 100 ≠ 0) ∨ y % 400 = 0 := by
  simp [isLeapYear]

/-- The next month starts where this one ends. -/
theorem firstDay_next (m : Month) : m.next.firstDay = m.firstDay + m.length := by
  obtain ⟨o⟩ := m
  have hq : ∃ y : Int, ∃ k : Nat, k < 12 ∧ o = 12 * y + k :=
    ⟨o / 12, (o % 12).toNat, by omega, by omega⟩
  obtain ⟨y, k, hk, rfl⟩ := hq
  have hy : (12 * y + (k : Int)) / 12 = y := by omega
  have hn : (12 * y + (k : Int)) % 12 = k := by omega
  simp only [firstDay, next, length, number, year, hy, hn, Int.toNat_natCast]
  have hl := isLeapYear_eq_true_iff y
  match k, hk with
  | 0, _ | 2, _ | 3, _ | 4, _ | 5, _ | 6, _ | 7, _ | 8, _ | 9, _ | 10, _ | 11, _ =>
    simp only [Nat.reduceAdd]
    omega
  | 1, _ =>
    simp only [Nat.reduceAdd]
    split <;> rename_i h
    · rw [hl] at h; omega
    · rw [hl] at h; omega
  | k + 12, h => omega

/-! ## The month of a day

Within a cycle of 400 years, `yearDays d` is the day count with one day taken out for each leap day
passed, so that dividing it by 365 gives the year. -/

/-- Day `d` of a cycle without the leap days before it. -/
private def yearDays (d : Nat) : Nat :=
  d - d / 1460 + d / 36524 - d / 146096

/-- The first day of year `y` of a cycle. -/
private def yearStart (y : Nat) : Nat :=
  365 * y + y / 4 - y / 100 + y / 400

private theorem yearDays_mono {a b : Nat} (h : a ≤ b) : yearDays a ≤ yearDays b := by
  unfold yearDays; omega

private theorem yearDays_yearStart {y : Nat} (h : y ≤ 399) :
    365 * y ≤ yearDays (yearStart y) ∧ yearDays (yearStart (y + 1) - 1) < 365 * (y + 1) := by
  unfold yearDays yearStart
  have hall : ∀ y ∈ List.range 400,
      365 * y ≤ yearDays (yearStart y) ∧ yearDays (yearStart (y + 1) - 1) < 365 * (y + 1) := by
    decide +kernel
  exact hall y (List.mem_range.mpr (by omega))

private theorem yearDays_div_bounds {d : Nat} (h : d ≤ 146096) :
    yearDays d / 365 ≤ 399 ∧ yearStart (yearDays d / 365) ≤ d ∧
      d < yearStart (yearDays d / 365 + 1) := by
  have hle : yearDays d ≤ 145999 := by
    have := yearDays_mono h
    have h2 : yearDays 146096 = 145999 := by decide
    omega
  generalize hy : yearDays d / 365 = y
  have hy399 : y ≤ 399 := by omega
  refine ⟨hy399, ?_, ?_⟩
  · rcases Nat.lt_or_ge d (yearStart y) with hd | hd
    · exfalso
      cases y with
      | zero => simp [yearStart] at hd
      | succ y =>
        have h1 := (yearDays_yearStart (y := y) (by omega)).2
        have h2 := yearDays_mono (show d ≤ yearStart (y + 1) - 1 by omega)
        omega
    · exact hd
  · rcases Nat.lt_or_ge d (yearStart (y + 1)) with hd | hd
    · exact hd
    · exfalso
      rcases Nat.lt_or_ge y 399 with hlt | hge
      · have h1 := (yearDays_yearStart (y := y + 1) (by omega)).1
        have h2 := yearDays_mono hd
        omega
      · have h3 : yearStart (y + 1) = 146097 := by
          rw [show y = 399 from by omega]; decide
        omega

/-- What `containing` computes, with the cycle, the year in it and the month in that taken apart. -/
private theorem containing_eq (n : Int) :
    ∃ (y k : Nat), y ≤ 399 ∧ k ≤ 11 ∧
      (containing n).ordinal = 12 * (400 * (n / 146097) + y) + k + 2 ∧
      (yearStart y : Int) + ((153 * k + 2) / 5 : Nat) ≤ n % 146097 ∧
      n % 146097 < yearStart (y + 1) ∧
      n % 146097 < (yearStart y : Int) + ((153 * (k + 1) + 2) / 5 : Nat) := by
  have hd : ∃ d : Nat, n % 146097 = d ∧ d ≤ 146096 := ⟨(n % 146097).toNat, by omega, by omega⟩
  obtain ⟨d, hd, hle⟩ := hd
  obtain ⟨h1, h2, h3⟩ := yearDays_div_bounds hle
  simp only [containing, hd]
  generalize hc : n / 146097 = c
  have hyear : ((d : Int) - d / 1460 + d / 36524 - d / 146096) / 365 = ((yearDays d / 365 : Nat) : Int) := by
    unfold yearDays; omega
  rw [hyear]
  generalize hy : yearDays d / 365 = y at h1 h2 h3
  have hstart : (365 * (y : Int) + y / 4 - y / 100) = yearStart y := by
    have e6 : y / 400 = 0 := by omega
    unfold yearStart; omega
  rw [hstart]
  refine ⟨y, (5 * (d - yearStart y) + 2) / 153, h1, ?_, ?_, ?_, ?_, ?_⟩
  · have h4 : yearStart (y + 1) ≤ yearStart y + 366 := by
      have e6 : y / 400 = 0 := by omega
      have e7 : (y + 1) / 400 ≤ 1 := by omega
      have e8 : (y + 1) / 400 = 0 ∨ y = 399 := by omega
      unfold yearStart
      rcases e8 with e8 | e8
      · omega
      · subst e8; decide
    omega
  · omega
  · omega
  · omega
  · omega

/-- The first day of a year is the first day of its cycle and the day in the cycle. -/
private theorem firstDay_of_cycle (c : Int) {y k : Nat} (hy : y ≤ 399) (hk : k ≤ 11) :
    firstDay ⟨12 * (400 * c + y) + k + 2⟩ = 146097 * c + yearStart y + ((153 * k + 2) / 5 : Nat) := by
  have e1 : (12 * (400 * c + (y : Int)) + k + 2 - 2) / 12 = 400 * c + y := by omega
  have e2 : (12 * (400 * c + (y : Int)) + k + 2 - 2) % 12 = k := by omega
  have e3 : (400 * c + (y : Int)) / 4 = 100 * c + y / 4 := by omega
  have e4 : (400 * c + (y : Int)) / 100 = 4 * c + y / 100 := by omega
  have e5 : (400 * c + (y : Int)) / 400 = c := by omega
  have e6 : y / 400 = 0 := by omega
  simp only [firstDay, e1, e2, e3, e4, e5, yearStart, e6]
  omega

/-- The month of a day starts on or before it. -/
theorem firstDay_containing_le (n : Int) : (containing n).firstDay ≤ n := by
  obtain ⟨y, k, hy, hk, ho, h1, -, -⟩ := containing_eq n
  have hn := Int.mul_ediv_add_emod n 146097
  have hm : containing n = ⟨12 * (400 * (n / 146097) + y) + k + 2⟩ := by
    rw [← ho]
  rw [hm, firstDay_of_cycle _ hy hk]
  omega

/-- The month of a day ends on or after it. -/
theorem lt_firstDay_next_containing (n : Int) : n < (containing n).next.firstDay := by
  obtain ⟨y, k, hy, hk, ho, -, h2, h3⟩ := containing_eq n
  have hn := Int.mul_ediv_add_emod n 146097
  have hm : containing n = ⟨12 * (400 * (n / 146097) + y) + k + 2⟩ := by
    rw [← ho]
  rw [hm]
  simp only [next]
  rcases Nat.lt_or_ge k 11 with hlt | hge
  · rw [show 12 * (400 * (n / 146097) + (y : Int)) + k + 2 + 1
        = 12 * (400 * (n / 146097) + y) + ((k + 1 : Nat) : Int) + 2 from by omega,
      firstDay_of_cycle _ hy hlt]
    omega
  · rcases Nat.lt_or_ge y 399 with hy' | hy'
    · rw [show 12 * (400 * (n / 146097) + (y : Int)) + k + 2 + 1
          = 12 * (400 * (n / 146097) + ((y + 1 : Nat) : Int)) + ((0 : Nat) : Int) + 2 from by omega,
        firstDay_of_cycle (y := y + 1) _ hy' (by omega)]
      omega
    · rw [show 12 * (400 * (n / 146097) + (y : Int)) + k + 2 + 1
          = 12 * (400 * (n / 146097 + 1) + ((0 : Nat) : Int)) + ((0 : Nat) : Int) + 2 from by omega,
        firstDay_of_cycle _ (by omega) (by omega)]
      have h4 := Int.emod_lt_of_pos n (b := 146097) (by decide)
      omega

/-- Months start one after the other. -/
theorem firstDay_lt_firstDay {a b : Month} (h : a < b) : a.firstDay < b.firstDay := by
  obtain ⟨a⟩ := a
  obtain ⟨b⟩ := b
  have hab : a < b := h
  obtain ⟨k, rfl⟩ : ∃ k : Nat, b = a + 1 + k := ⟨(b - a - 1).toNat, by omega⟩
  clear h hab
  induction k with
  | zero =>
    have h1 := firstDay_next ⟨a⟩
    have h2 := length_bounds ⟨a⟩
    simp only [next] at h1
    simp only [Int.natCast_zero, Int.add_zero]
    omega
  | succ k ih =>
    have h1 := firstDay_next ⟨a + 1 + k⟩
    have h2 := length_bounds ⟨a + 1 + k⟩
    simp only [next] at h1
    rw [show a + 1 + ((k + 1 : Nat) : Int) = a + 1 + k + 1 from by omega]
    omega

/-- A month contains exactly the days from its first day up to the next month's first day. -/
theorem containing_eq_iff {n : Int} {m : Month} :
    containing n = m ↔ m.firstDay ≤ n ∧ n < m.next.firstDay := by
  constructor
  · rintro rfl
    exact ⟨firstDay_containing_le n, lt_firstDay_next_containing n⟩
  · rintro ⟨h1, h2⟩
    have h3 := firstDay_containing_le n
    have h4 := lt_firstDay_next_containing n
    generalize hc : containing n = c at h3 h4
    obtain ⟨c⟩ := c
    obtain ⟨m⟩ := m
    rcases Int.lt_trichotomy c m with hlt | heq | hgt
    · exfalso
      rcases Int.lt_or_eq_of_le (show c + 1 ≤ m from hlt) with hl | he
      · have := firstDay_lt_firstDay (a := ⟨c + 1⟩) (b := ⟨m⟩) hl
        simp only [next] at h4; omega
      · subst he; simp only [next] at h4; omega
    · rw [heq]
    · exfalso
      rcases Int.lt_or_eq_of_le (show m + 1 ≤ c from hgt) with hl | he
      · have := firstDay_lt_firstDay (a := ⟨m + 1⟩) (b := ⟨c⟩) hl
        simp only [next] at h2; omega
      · subst he; simp only [next] at h2; omega

end Month

end Forecast
