import Forecast.Json.Lexer
import Forecast.Proofs.Text.Digits

/-!
# Written numbers

A number reads back as it was written (`Numeral.ofText?_chars`): an integer as an integer, and any
other with its sign, all of its digits and its exponent.
-/

namespace Forecast.Json.Numeral

open Text

/-- The sign of a number that carries one. -/
def signChars (negative : Bool) : List Char :=
  if negative then ['-'] else []

theorem isWholePart_toDigits (n : Nat) : isWholePart (Nat.toDigits 10 n) = true := by
  by_cases hn : n = 0
  · subst hn
    decide
  · have hhead := head?_toDigits_ne_zero hn
    cases hds : Nat.toDigits 10 n with
    | nil => exact absurd hds Nat.toDigits_ne_nil
    | cons c cs =>
      rw [hds, List.head?_cons, ne_eq, Option.some.injEq] at hhead
      unfold isWholePart
      split
      · contradiction
      · rfl
      · rename_i c' cs' _ heq
        cases heq
        simpa using hhead

/-- The digits of a number are some digits and nothing else. -/
theorem toDigits_isRun (n : Nat) :
    (Nat.toDigits 10 n).isEmpty = false ∧ (Nat.toDigits 10 n).all Char.isDigit = true := by
  refine ⟨?_, List.all_eq_true.2 fun c hc => isDigit_of_mem_toDigits hc⟩
  rw [List.isEmpty_eq_false_iff]
  exact Nat.toDigits_ne_nil

theorem intDigits_eq_signed (n : Int) :
    intDigits n = signChars (decide (n < 0)) ++ Nat.toDigits 10 n.natAbs := by
  unfold intDigits signChars
  by_cases hn : n < 0 <;> simp [hn]

theorem exponentValue?_intDigits (e : Int) : exponentValue? (intDigits e) = some e := by
  obtain ⟨hne, hall⟩ := toDigits_isRun e.natAbs
  unfold intDigits
  by_cases he : e < 0
  · rw [if_pos he]
    simp only [exponentValue?, hne, hall, digitsValue_toDigits, Bool.not_true, Bool.or_self,
      Bool.false_eq_true, if_false, Option.some.injEq]
    omega
  · rw [if_neg he]
    obtain ⟨c, cs, hcs, hc⟩ := exists_toDigits_eq_cons e.natAbs
    unfold exponentValue?
    split
    · rename_i heq
      rw [hcs] at heq
      cases heq
      exact absurd hc (by decide)
    · rename_i heq
      rw [hcs] at heq
      cases heq
      exact absurd hc (by decide)
    · simp only [hne, hall, digitsValue_toDigits, Bool.not_true, Bool.or_self, Bool.false_eq_true,
        if_false, Option.some.injEq]
      omega

/-! ## What follows the whole part -/

theorem readTail_nil : readTail [] = some (none, none) := rfl

theorem readTail_exponent (e : Int) :
    readTail ('e' :: intDigits e) = some (none, some e) := by
  simp [readTail, exponentValue?_intDigits]

theorem readTail_fraction {ds : List Char} (hds : ∀ c ∈ ds, c.isDigit = true) (hne : ds ≠ [])
    (e : Int) : readTail ('.' :: (ds ++ 'e' :: intDigits e)) = some (some ds, some e) := by
  have hrest : StartsOffDigit ('e' :: intDigits e) := startsOffDigit_cons (by decide) _
  simp [readTail, spanDigits_of_digits hds hrest, hne, exponentValue?_intDigits]

/-- The sign is taken off a number: what is left starts with a digit. -/
theorem ofText?_signed (negative : Bool) (w : Nat) {tail : List Char}
    (htail : StartsOffDigit tail) :
    ofText? (signChars negative ++ Nat.toDigits 10 w ++ tail) = (readTail tail).bind fun
      | (none, none) =>
        some (if negative then if w = 0 then .real true 0 0 0 else .integer (-(w : Int))
          else .integer w)
      | (fraction, exponent) =>
        some (.real negative (digitsValue (Nat.toDigits 10 w ++ fraction.getD []))
          (fraction.getD []).length (exponent.getD 0)) := by
  have hspan : spanDigits (Nat.toDigits 10 w ++ tail) = (Nat.toDigits 10 w, tail) :=
    spanDigits_of_digits (fun _ => isDigit_of_mem_toDigits) htail
  cases negative with
  | true =>
    simp only [signChars, if_true, List.cons_append, List.nil_append, ofText?, hspan,
      isWholePart_toDigits, digitsValue_toDigits, Option.bind_eq_bind]
    rcases readTail tail with _ | ⟨_ | _, _ | _⟩ <;> rfl
  | false =>
    obtain ⟨c, cs, hcs, hc⟩ := exists_toDigits_eq_cons w
    have hne : c ≠ '-' := ne_of_isDigit hc (by decide)
    rw [hcs, List.cons_append] at hspan
    have hwhole := isWholePart_toDigits w
    have hvalue := digitsValue_toDigits w
    rw [hcs] at hwhole hvalue
    simp only [ofText?, signChars, Bool.false_eq_true, if_false, hcs, List.nil_append,
      List.cons_append, List.cons.injEq, hne, false_and, imp_self, implies_true, hspan, hwhole,
      hvalue, if_true, Option.bind_eq_bind]
    rcases readTail tail with _ | ⟨_ | _, _ | _⟩ <;> rfl

theorem ofText?_integer (n : Int) : ofText? (intDigits n) = some (.integer n) := by
  rw [intDigits_eq_signed, ← List.append_nil (_ ++ _), ofText?_signed _ _ startsOffDigit_nil,
    readTail_nil]
  by_cases hn : n < 0
  · have hne : n.natAbs ≠ 0 := by omega
    simp only [hn, hne, decide_true, if_true, if_false, Option.bind_some, Option.some.injEq,
      integer.injEq]
    omega
  · simp only [hn, decide_false, Bool.false_eq_true, if_false, Option.bind_some, Option.some.injEq,
      integer.injEq]
    omega

theorem ofText?_real (negative : Bool) (m places : Nat) (e : Int) :
    ofText? (chars (.real negative m places e)) = some (.real negative m places e) := by
  cases places with
  | zero =>
    have htail : StartsOffDigit ('e' :: intDigits e) := startsOffDigit_cons (by decide) _
    have hwritten : chars (.real negative m 0 e) =
        signChars negative ++ Nat.toDigits 10 m ++ 'e' :: intDigits e := by
      simp [chars, signChars, wholeDigits, Nat.div_one]
    rw [hwritten, ofText?_signed _ _ htail, readTail_exponent]
    simp [digitsValue_toDigits]
  | succ places =>
    have hlt : m % tenPow (places + 1) < tenPow (places + 1) := Nat.mod_lt _ (tenPow_pos _)
    have hlen := length_paddedDigits (Nat.succ_pos places) hlt
    have hne : paddedDigits (places + 1) (m % tenPow (places + 1)) ≠ [] := by
      rw [← List.length_pos_iff, hlen]
      exact Nat.succ_pos places
    have hwritten : chars (.real negative m (places + 1) e) =
        signChars negative ++ Nat.toDigits 10 (m / tenPow (places + 1)) ++
          '.' :: (paddedDigits (places + 1) (m % tenPow (places + 1)) ++ 'e' :: intDigits e) := by
      simp [chars, signChars, wholeDigits, fractionDigits]
    rw [hwritten, ofText?_signed _ _ (startsOffDigit_cons (by decide) _),
      readTail_fraction (fun _ => isDigit_of_mem_paddedDigits) hne]
    simp [digitsValue_parts m (Nat.succ_pos places), hlen]

/-- A number reads back as it was written. -/
theorem ofText?_chars (n : Numeral) : ofText? n.chars = some n := by
  cases n with
  | integer n => exact ofText?_integer n
  | real negative m places e => exact ofText?_real negative m places e

/-! ## The characters of a number -/

theorem isNumberChar_of_isDigit {c : Char} (h : c.isDigit = true) : isNumberChar c = true := by
  simp [isNumberChar, h]

theorem isNumberChar_of_mem_intDigits {n : Int} {c : Char} (h : c ∈ intDigits n) :
    isNumberChar c = true := by
  have hdigits : ∀ d ∈ Nat.toDigits 10 n.natAbs, isNumberChar d = true := fun _ hd =>
    isNumberChar_of_isDigit (isDigit_of_mem_toDigits hd)
  unfold intDigits at h
  split at h
  · rcases List.mem_cons.1 h with rfl | h
    · decide
    · exact hdigits c h
  · exact hdigits c h

/-- A number is made of its own characters only. -/
theorem isNumberChar_of_mem_chars {n : Numeral} {c : Char} (h : c ∈ n.chars) :
    isNumberChar c = true := by
  cases n with
  | integer n => exact isNumberChar_of_mem_intDigits h
  | real negative m places e =>
    simp only [chars, List.mem_append, List.mem_cons] at h
    rcases h with ((h | h) | h) | rfl | h
    · split at h
      · rw [List.mem_singleton.1 h]
        decide
      · exact absurd h List.not_mem_nil
    · exact isNumberChar_of_isDigit (isDigit_of_mem_toDigits h)
    · cases places with
      | zero => exact absurd h List.not_mem_nil
      | succ places =>
        rw [if_neg (Nat.succ_ne_zero places), List.mem_cons] at h
        rcases h with rfl | h
        · decide
        · exact isNumberChar_of_isDigit (isDigit_of_mem_paddedDigits h)
    · decide
    · exact isNumberChar_of_mem_intDigits h

/-- A number starts with its sign or with a digit. -/
theorem chars_eq_cons (n : Numeral) :
    ∃ c cs, n.chars = c :: cs ∧ (c = '-' ∨ c.isDigit = true) := by
  have hsigned (negative : Bool) (w : Nat) (tail : List Char) :
      ∃ c cs, signChars negative ++ Nat.toDigits 10 w ++ tail = c :: cs ∧
        (c = '-' ∨ c.isDigit = true) := by
    cases negative with
    | true => exact ⟨'-', _, rfl, .inl rfl⟩
    | false =>
      obtain ⟨c, cs, hcs, hc⟩ := exists_toDigits_eq_cons w
      exact ⟨c, cs ++ tail, by simp [signChars, hcs], .inr hc⟩
  cases n with
  | integer n =>
    obtain ⟨c, cs, hcs, hc⟩ := hsigned (decide (n < 0)) n.natAbs []
    refine ⟨c, cs, ?_, hc⟩
    rw [← hcs, chars, intDigits_eq_signed, List.append_nil]
  | real negative m places e =>
    have := hsigned negative (m / tenPow places)
    simp only [chars, wholeDigits, List.append_assoc] at this ⊢
    exact this _

end Forecast.Json.Numeral
