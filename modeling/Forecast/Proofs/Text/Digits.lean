import Forecast.PowerOfTen
import Forecast.Text.Digits
import Mathlib

/-!
# Written digits

What a reader finds in the digits that were written: all of them, and in them the number. A run of
digits ends where something else follows, or where it is as long as it may be.
-/

namespace Forecast.Text

theorem ne_of_isDigit {c d : Char} (hc : c.isDigit = true) (hd : d.isDigit = false) : c ≠ d := by
  rintro rfl
  rw [hc] at hd
  cases hd

theorem isDigit_of_mem_toDigits {n : Nat} {c : Char} (h : c ∈ Nat.toDigits 10 n) :
    c.isDigit = true :=
  Nat.isDigit_of_mem_toDigits (by decide) (by decide) h

/-- A written number starts with a digit. -/
theorem exists_toDigits_eq_cons (n : Nat) :
    ∃ c cs, Nat.toDigits 10 n = c :: cs ∧ c.isDigit = true := by
  cases h : Nat.toDigits 10 n with
  | nil => exact absurd h Nat.toDigits_ne_nil
  | cons c cs => exact ⟨c, cs, rfl, isDigit_of_mem_toDigits (h ▸ List.mem_cons_self)⟩

theorem isDigit_of_mem_paddedDigits {width n : Nat} {c : Char} (h : c ∈ paddedDigits width n) :
    c.isDigit = true := by
  rw [paddedDigits, List.leftpad, List.mem_append] at h
  rcases h with h | h
  · rw [List.eq_of_mem_replicate h]
    decide
  · exact isDigit_of_mem_toDigits h

theorem length_paddedDigits {width n : Nat} (hw : 0 < width) (h : n < tenPow width) :
    (paddedDigits width n).length = width := by
  have hle : (Nat.toDigits 10 n).length ≤ width := (Nat.length_toDigits_le_iff (by decide) hw).2 h
  rw [paddedDigits, List.length_leftpad]
  omega

theorem digitsValue_append (xs ys : List Char) :
    digitsValue (xs ++ ys) = digitsValue xs * tenPow ys.length + digitsValue ys := by
  rw [digitsValue, Nat.ofDigitChars_append, Nat.ofDigitChars_eq_ofDigitChars_zero, Nat.mul_comm]
  rfl

@[simp] theorem digitsValue_paddedDigits (width n : Nat) :
    digitsValue (paddedDigits width n) = n := by
  rw [paddedDigits, List.leftpad, digitsValue, Nat.ofDigitChars_append,
    Nat.ofDigitChars_replicate_zero, Nat.mul_zero]
  exact digitsValue_toDigits n

/-- A number is written by its digits before a point and those behind it. -/
theorem digitsValue_parts (m : Nat) {places : Nat} (h : 0 < places) :
    digitsValue (Nat.toDigits 10 (m / tenPow places) ++ paddedDigits places (m % tenPow places)) =
      m := by
  have hlt : m % tenPow places < tenPow places := Nat.mod_lt _ (tenPow_pos places)
  rw [digitsValue_append, length_paddedDigits h hlt, digitsValue_toDigits,
    digitsValue_paddedDigits]
  exact Nat.div_add_mod' m (tenPow places)

/-- Written numbers start with a zero only if they are zero. -/
theorem head?_toDigits_ne_zero {n : Nat} (h : n ≠ 0) : (Nat.toDigits 10 n).head? ≠ some '0' := by
  induction n using Nat.strong_induction_on with
  | _ n ih =>
    rcases Nat.lt_or_ge n 10 with hlt | hge
    · rw [Nat.toDigits_of_lt_base hlt, List.head?_cons, ne_eq, Option.some.injEq,
        Nat.digitChar_eq_zero]
      exact h
    · have hrec := ih (n / 10) (by omega) (by omega)
      rw [Nat.toDigits_of_base_le (by decide) hge,
        List.head?_append_of_ne_nil _ Nat.toDigits_ne_nil]
      exact hrec

/-! ## Runs -/

/-- No digit stands at the front. -/
def StartsOffDigit (cs : List Char) : Prop :=
  ∀ c ∈ cs.head?, c.isDigit = false

theorem startsOffDigit_nil : StartsOffDigit [] := by
  simp [StartsOffDigit]

theorem startsOffDigit_cons {c : Char} (h : c.isDigit = false) (cs : List Char) :
    StartsOffDigit (c :: cs) := by
  simpa [StartsOffDigit] using h

theorem spanDigits_of_digits {ds rest : List Char} (hds : ∀ c ∈ ds, c.isDigit = true)
    (hrest : StartsOffDigit rest) : spanDigits (ds ++ rest) = (ds, rest) := by
  have htake : rest.takeWhile Char.isDigit = [] := by
    cases rest with
    | nil => rfl
    | cons c cs => simp [hrest c rfl]
  have hdrop : rest.dropWhile Char.isDigit = rest := by
    cases rest with
    | nil => rfl
    | cons c cs => simp [hrest c rfl]
  rw [spanDigits, List.takeWhile_append_of_pos hds, List.dropWhile_append_of_pos hds, htake, hdrop,
    List.append_nil]

/-- A run of the greatest length ends whatever follows it. -/
theorem spanDigitsUpTo_of_digits {width : Nat} {ds : List Char} (hds : ∀ c ∈ ds, c.isDigit = true)
    (hlen : ds.length = width) (rest : List Char) :
    spanDigitsUpTo width (ds ++ rest) = (ds, rest) := by
  subst hlen
  have hrun : ds.takeWhile Char.isDigit = ds := List.takeWhile_eq_self_iff.2 hds
  simp [spanDigitsUpTo, hrun]

end Forecast.Text
