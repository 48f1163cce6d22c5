import Forecast.Decimal.Text
import Forecast.Proofs.Json.Faithful
import Forecast.Proofs.Text.Digits

/-!
# Written decimals

A decimal reads back with the mantissa, the scale and the sign that it was written with, except that
a zero has no sign (`Decimal.ofText?_toText`). The plain form never gives a negative zero
(`Decimal.clearZeroSign_of_ofPlain?`): only the scientific form does, when it rounds a negative
number to zero.
-/

namespace Forecast.Decimal

open Text

theorem clearZeroSign_idem (d : Decimal) : d.clearZeroSign.clearZeroSign = d.clearZeroSign := by
  simp only [clearZeroSign, isZero, Bool.and_assoc, Bool.and_self]

/-- The plain form is read without the sign of a zero. -/
theorem clearZeroSign_of_ofPlain? {cs : List Char} {d : Decimal} (h : ofPlain? cs = some d) :
    d.clearZeroSign = d := by
  unfold ofPlain? at h
  obtain ⟨whole, -, h⟩ := Option.bind_eq_some_iff.1 h
  obtain ⟨places, -, h⟩ := Option.bind_eq_some_iff.1 h
  split at h
  · cases h
  split at h
  · cases h
  obtain ⟨⟨mantissa, scale⟩, -, h⟩ := Option.bind_eq_some_iff.1 h
  obtain ⟨d', -, rfl⟩ := Option.map_eq_some_iff.1 h
  exact clearZeroSign_idem d'

/-! ## The parts of a written decimal -/

theorem takeSign_written (negative : Bool) (n : Nat) (rest : List Char) :
    takeSign ((if negative then ['-'] else []) ++ (Nat.toDigits 10 n ++ rest)) =
      (negative, Nat.toDigits 10 n ++ rest) := by
  cases negative with
  | true => rfl
  | false =>
    obtain ⟨c, cs, hcs, hc⟩ := exists_toDigits_eq_cons n
    have hminus : c ≠ '-' := ne_of_isDigit hc (by decide)
    have hplus : c ≠ '+' := ne_of_isDigit hc (by decide)
    simp [hcs, takeSign, hminus, hplus]

theorem digitsOnly?_of_digits (seen : Bool) {ds : List Char} (h : ∀ c ∈ ds, c.isDigit = true) :
    digitsOnly? seen ds = some ds := by
  induction ds generalizing seen with
  | nil => rfl
  | cons c cs ih =>
    rw [digitsOnly?, if_pos (h c List.mem_cons_self), ih true fun d hd =>
      h d (List.mem_cons_of_mem _ hd), Option.map_some]

/-- Digits are taken in to the last one while there are places for them and the mantissa is in
range. -/
theorem takeFraction?_of_digits {mantissa scale : Nat} {ds : List Char}
    (hds : ∀ c ∈ ds, c.isDigit = true) (hscale : scale + ds.length ≤ 28)
    (hlt : mantissa * tenPow ds.length + digitsValue ds < mantissaBound) :
    takeFraction? mantissa scale ds =
      some (mantissa * tenPow ds.length + digitsValue ds, scale + ds.length) := by
  -- what has been taken in is a part of the whole, so that it is in range throughout
  induction ds generalizing mantissa scale with
  | nil => simp [takeFraction?, digitsValue]
  | cons c cs ih =>
    have hvalue : mantissa * tenPow (c :: cs).length + digitsValue (c :: cs) =
        (10 * mantissa + digitValue c) * tenPow cs.length + digitsValue cs := by
      have hhead : digitsValue (c :: cs) = digitValue c * tenPow cs.length + digitsValue cs := by
        rw [← List.singleton_append, digitsValue_append]
        simp [digitsValue, digitValue, Nat.ofDigitChars_cons]
      rw [hhead, List.length_cons, tenPow_succ]
      ring
    rw [hvalue] at hlt ⊢
    have hlonger : 10 * mantissa + digitValue c < mantissaBound := by
      have := Nat.le_mul_of_pos_right (10 * mantissa + digitValue c) (tenPow_pos cs.length)
      omega
    have hne : c ≠ '_' := ne_of_isDigit (hds c List.mem_cons_self) (by decide)
    rw [List.length_cons] at hscale ⊢
    rw [takeFraction?, if_neg hne, if_pos ⟨by omega, hlonger⟩,
      ih (fun d hd => hds d (List.mem_cons_of_mem _ hd)) (by omega) hlt]
    simp only [Option.some.injEq, Prod.mk.injEq, true_and]
    omega

/-- The digits behind the point of a written decimal, and what they say of the mantissa. -/
theorem exists_fractionDigits (d : Decimal) :
    ∃ ds, d.fractionChars = (if d.scale = 0 then [] else '.' :: ds) ∧
      (∀ c ∈ ds, c.isDigit = true) ∧ ds.length = d.scale ∧
      d.mantissa / tenPow d.scale * tenPow ds.length + digitsValue ds = d.mantissa := by
  by_cases hs : d.scale = 0
  · refine ⟨[], ?_, nofun, hs.symm, ?_⟩
    · rw [fractionChars, if_pos hs, if_pos hs]
    · simp [hs, digitsValue]
  · have hlt : d.mantissa % tenPow d.scale < tenPow d.scale := Nat.mod_lt _ (tenPow_pos _)
    have hlen := length_paddedDigits (Nat.pos_of_ne_zero hs) hlt
    refine ⟨_, ?_, fun c => isDigit_of_mem_paddedDigits, hlen, ?_⟩
    · rw [fractionChars, if_neg hs]
    · rw [hlen, digitsValue_paddedDigits]
      exact Nat.div_add_mod' d.mantissa (tenPow d.scale)

/-- A written decimal is plain, and is read with all of its parts but the sign of a zero. -/
theorem ofPlain?_chars (d : Decimal) : ofPlain? d.chars = some d.clearZeroSign := by
  obtain ⟨ds, hfraction, hds, hlen, hvalue⟩ := exists_fractionDigits d
  have hpoint : ∀ c ∈ Nat.toDigits 10 (d.mantissa / tenPow d.scale), (c != '.') = true :=
    fun c hc => bne_iff_ne.2 (ne_of_isDigit (isDigit_of_mem_toDigits hc) (by decide))
  have htake : (Nat.toDigits 10 (d.mantissa / tenPow d.scale) ++ d.fractionChars).takeWhile
      (· != '.') = Nat.toDigits 10 (d.mantissa / tenPow d.scale) := by
    rw [List.takeWhile_append_of_pos hpoint, hfraction]
    split <;> simp
  have hdrop : ((Nat.toDigits 10 (d.mantissa / tenPow d.scale) ++ d.fractionChars).dropWhile
      (· != '.')).drop 1 = ds := by
    rw [List.dropWhile_append_of_pos hpoint, hfraction]
    split
    · rename_i hs
      rw [List.length_eq_zero_iff.1 (hlen.trans hs)]
      rfl
    · simp
  have hwhole : digitsOnly? false (Nat.toDigits 10 (d.mantissa / tenPow d.scale)) =
      some (Nat.toDigits 10 (d.mantissa / tenPow d.scale)) :=
    digitsOnly?_of_digits false fun _ => isDigit_of_mem_toDigits
  have hsome : ((Nat.toDigits 10 (d.mantissa / tenPow d.scale)).isEmpty && ds.isEmpty) = false := by
    rw [List.isEmpty_eq_false_iff.2 Nat.toDigits_ne_nil, Bool.false_and]
  have hsmall : ¬mantissaBound ≤ d.mantissa / tenPow d.scale :=
    Nat.not_le.2 (Nat.lt_of_le_of_lt (Nat.div_le_self _ _) d.mantissa_lt)
  have htaken : takeFraction? (d.mantissa / tenPow d.scale) 0 ds = some (d.mantissa, d.scale) := by
    have hle : 0 + ds.length ≤ 28 := by
      rw [Nat.zero_add, hlen]
      exact d.scale_le
    rw [takeFraction?_of_digits hds hle (hvalue.symm ▸ d.mantissa_lt), hvalue, Nat.zero_add, hlen]
  rw [ofPlain?, chars, List.append_assoc, takeSign_written]
  simp only [htake, hdrop, hwhole, digitsOnly?_of_digits _ hds, Option.bind_eq_bind,
    Option.bind_some, digitsValue_toDigits, hsome, hsmall, Bool.false_eq_true, if_false, htaken,
    ofParts?_parts, Option.map_some]

/-- A decimal reads back as it was written, a negative zero as zero. -/
theorem ofText?_toText (d : Decimal) : ofText? d.toText = some d.clearZeroSign := by
  rw [ofText?, toText, String.toList_ofList, ofChars?, ofPlain?_chars, Option.some_or]

open Json

instance : Settles Decimal where
  settle := clearZeroSign

instance : AlwaysFits Decimal := ⟨fun _ => trivial⟩

instance : Faithful Decimal where
  decode?_encode {d} _ := ofText?_toText d
  settled {v d} h := by
    obtain ⟨s, hs, hd⟩ := Option.bind_eq_some_iff.1 h
    have hv : v = .text (some s) := by
      cases v <;> cases hs
      rfl
    subst hv
    exact ⟨trivial, fun hclean => hclean s .text d hd⟩

instance : NeverNull Decimal := ⟨fun d => ofString_ne_null d.toText⟩

end Forecast.Decimal
