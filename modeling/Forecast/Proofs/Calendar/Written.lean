import Forecast.Calendar.DateText
import Forecast.Proofs.Calendar.Anchored
import Forecast.Proofs.Json.Faithful
import Forecast.Proofs.Text.Digits

/-!
# Written dates

Both readers of dates read a written date, of any year of the calendar, as the date it is
(`Date.readChars_chars`).
-/

namespace Forecast

namespace Date

open Text

/-- The years of the calendar have at most six digits. -/
theorem year_bounds (d : Date) : -262143 ≤ d.year ∧ d.year ≤ 262142 := by
  obtain ⟨hlow, hhigh⟩ := inCalendar_month d
  rw [Month.month_earliest, Month.le_iff] at hlow
  rw [Month.month_latest, Month.le_iff] at hhigh
  simp only [Month.of] at hlow hhigh
  simp only [year, Month.year]
  omega

/-! ## Blanks -/

theorem isBlank_of_isDigit {c : Char} (h : c.isDigit = true) : isBlank c = false := by
  have hrange : 48 ≤ c.toNat ∧ c.toNat ≤ 57 := by
    simpa [Char.isDigit, UInt32.le_iff_toNat_le] using h
  simp only [isBlank, blankRanges, List.any_cons, List.any_nil, Bool.or_false, Bool.or_eq_false_iff,
    Bool.and_eq_false_iff, decide_eq_false_iff_not]
  omega

theorem trimStart_of_not_blank {cs : List Char} (h : ∀ c ∈ cs, isBlank c = false) (hne : cs ≠ [])
    (rest : List Char) : trimStart (cs ++ rest) = cs ++ rest := by
  cases cs with
  | nil => exact absurd rfl hne
  | cons c cs => exact trimStart_cons_of_not_blank (h c List.mem_cons_self) _

theorem trimStart_digits {ds : List Char} (hds : ∀ c ∈ ds, c.isDigit = true) (hne : ds ≠ [])
    (rest : List Char) : trimStart (ds ++ rest) = ds ++ rest :=
  trimStart_of_not_blank (fun c hc => isBlank_of_isDigit (hds c hc)) hne rest

/-! ## Parts -/

theorem readRun_digits {ds : List Char} (hne : ds ≠ [])
    (hlt : digitsValue ds < 9223372036854775808) (rest : List Char) :
    readRun (ds, rest) = .ok (digitsValue ds, rest) := by
  simp [readRun, hne, hlt]

/-- A month or a day is written with two digits. -/
theorem readPart_padded (high : Int) {n : Nat} (h : 1 ≤ n) (hn : (n : Int) ≤ high) (hlt : n < 100)
    (rest : List Char) : readPart high (paddedDigits 2 n ++ rest) = .ok (n, rest) := by
  have hlen : (paddedDigits 2 n).length = 2 := length_paddedDigits (by decide) hlt
  have hne : paddedDigits 2 n ≠ [] := List.ne_nil_of_length_eq_add_one hlen
  have hdigits : ∀ c ∈ paddedDigits 2 n, c.isDigit = true := fun _ => isDigit_of_mem_paddedDigits
  have hsmall : digitsValue (paddedDigits 2 n) < 9223372036854775808 := by
    rw [digitsValue_paddedDigits]
    omega
  rw [readPart, trimStart_digits hdigits hne, spanDigitsUpTo_of_digits hdigits hlen,
    readRun_digits hne hsmall, digitsValue_paddedDigits]
  have hrange : (1 : Int) ≤ n ∧ (n : Int) ≤ high := ⟨by omega, hn⟩
  simp [bind, Except.bind, checkRange, hrange]

theorem readHyphen_hyphen (loose : Bool) (rest : List Char) :
    readHyphen loose ('-' :: rest) = .ok rest := by
  cases loose <;> rfl

theorem readYear_minus (ds : List Char) :
    readYear ('-' :: ds) = ((readRun (spanDigits ds)).map fun r => (-r.1, r.2)) >>=
      checkRange (-2147483648) 2147483647 := rfl

theorem readYear_plus (ds : List Char) :
    readYear ('+' :: ds) = readRun (spanDigits ds) >>= checkRange (-2147483648) 2147483647 := rfl

/-- A year without a sign has at most four digits. -/
theorem readYear_digits {ds : List Char} (hds : ∀ c ∈ ds, c.isDigit = true) (hlen : ds.length = 4)
    (rest : List Char) :
    readYear (ds ++ rest) = readRun (ds, rest) >>= checkRange (-2147483648) 2147483647 := by
  have hspan := spanDigitsUpTo_of_digits hds hlen rest
  have hne : ds ≠ [] := List.ne_nil_of_length_eq_add_one hlen
  have htrim := trimStart_digits hds hne rest
  obtain ⟨c, cs, rfl⟩ := List.exists_cons_of_ne_nil hne
  have hc := hds c List.mem_cons_self
  have hminus : c ≠ '-' := ne_of_isDigit hc (by decide)
  have hplus : c ≠ '+' := ne_of_isDigit hc (by decide)
  rw [List.cons_append] at hspan htrim ⊢
  simp only [readYear, htrim]
  split
  · rename_i heq
    cases heq
    exact absurd rfl hminus
  · rename_i heq
    cases heq
    exact absurd rfl hplus
  · rw [hspan]

theorem readYear_yearChars {year : Int} (h : -262143 ≤ year ∧ year ≤ 262142) {rest : List Char}
    (hrest : StartsOffDigit rest) : readYear (yearChars year ++ rest) = .ok (year, rest) := by
  have hdigits : ∀ c ∈ paddedDigits 4 year.natAbs, c.isDigit = true :=
    fun _ => isDigit_of_mem_paddedDigits
  have hne : paddedDigits 4 year.natAbs ≠ [] :=
    List.append_ne_nil_of_right_ne_nil _ Nat.toDigits_ne_nil
  have hrun : readRun (paddedDigits 4 year.natAbs, rest) = .ok (year.natAbs, rest) := by
    rw [readRun_digits hne (by rw [digitsValue_paddedDigits]; omega), digitsValue_paddedDigits]
  have hspan := spanDigits_of_digits hdigits hrest
  have hrange : (-2147483648 : Int) ≤ year ∧ year ≤ 2147483647 := by omega
  have hchecked : checkRange (-2147483648) 2147483647 (year, rest) = .ok (year, rest) :=
    if_pos hrange
  rcases lt_or_ge year 0 with hneg | hpos
  · have hchars : yearChars year = '-' :: paddedDigits 4 year.natAbs := by
      rw [yearChars, if_neg (by omega), if_pos hneg]
    have hback : -(year.natAbs : Int) = year := by omega
    rw [hchars, List.cons_append, readYear_minus, hspan, hrun, Except.map, hback]
    exact hchecked
  have hback : (year.natAbs : Int) = year := by omega
  rw [hback] at hrun
  by_cases hfour : year ≤ 9999
  · have hchars : yearChars year = paddedDigits 4 year.natAbs := by
      rw [yearChars, if_pos ⟨hpos, hfour⟩]
    have hlen : (paddedDigits 4 year.natAbs).length = 4 :=
      length_paddedDigits (by decide) (show year.natAbs < 10000 by omega)
    rw [hchars, readYear_digits hdigits hlen, hrun]
    exact hchecked
  · have hchars : yearChars year = '+' :: paddedDigits 4 year.natAbs := by
      rw [yearChars, if_neg (by omega), if_neg (by omega)]
    rw [hchars, List.cons_append, readYear_plus, hspan, hrun]
    exact hchecked

/-- Both readers read a date as it was written. -/
theorem readChars_chars (loose : Bool) (d : Date) : readChars loose d.chars = .ok d := by
  obtain ⟨hone, hlast⟩ := d.day_bounds
  obtain ⟨hmonth, hmonths⟩ := d.month.number_bounds
  have hlength := d.month.length_bounds
  have hyear (rest : List Char) :
      readYear (yearChars d.year ++ '-' :: rest) = .ok (d.year, '-' :: rest) :=
    readYear_yearChars d.year_bounds (startsOffDigit_cons (by decide) _)
  have hnumber (rest : List Char) :
      readPart 12 (paddedDigits 2 d.month.number ++ rest) = .ok (d.month.number, rest) :=
    readPart_padded 12 hmonth (by omega) (by omega) rest
  have hday : readPart 31 (paddedDigits 2 d.day) = .ok (d.day, []) := by
    have := readPart_padded 31 hone (by omega) (by omega) []
    rwa [List.append_nil] at this
  simp [readChars, chars, hyear, readHyphen_hyphen, hnumber, hday, bind, Except.bind, trimStart]

open Json

instance : Settles Date where

instance : AlwaysFits Date := ⟨fun _ => trivial⟩
instance : Unsigned Date := ⟨fun _ => rfl⟩

instance : Faithful Date where
  decode?_encode {d} _ := by
    show (readChars true d.toText.toList).toOption = _
    rw [toText, String.toList_ofList, readChars_chars]
    rfl
  settled _ := .of_unsigned _

instance : NeverNull Date := ⟨fun d => ofString_ne_null d.toText⟩

end Date

end Forecast
