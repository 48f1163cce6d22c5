/-!
# Digits

Written numbers: runs of ASCII digits and their values, fixed widths, and hexadecimal digits. The
decimal digits themselves come from `Nat.toDigits` and `Nat.ofDigitChars`, whose lemmas say that
writing and reading a number are inverse.
-/

namespace Forecast.Text

/-- The longest run of decimal digits at the front of the text, and what follows it. -/
def spanDigits (cs : List Char) : List Char × List Char :=
  (cs.takeWhile Char.isDigit, cs.dropWhile Char.isDigit)

/-- The same with a run of at most `width` digits. -/
def spanDigitsUpTo (width : Nat) (cs : List Char) : List Char × List Char :=
  let run := (cs.take width).takeWhile Char.isDigit
  (run, cs.drop run.length)

/-- The value of a run of decimal digits. -/
def digitsValue (ds : List Char) : Nat :=
  Nat.ofDigitChars 10 ds 0

/-- The value of one decimal digit. -/
def digitValue (c : Char) : Nat :=
  c.toNat - '0'.toNat

/-- The number in decimal digits, with zeros in front up to `width` places. -/
def paddedDigits (width n : Nat) : List Char :=
  (Nat.toDigits 10 n).leftpad width '0'

/-- The number in decimal digits with its sign, if it is negative. -/
def intDigits (n : Int) : List Char :=
  if n < 0 then '-' :: Nat.toDigits 10 n.natAbs else Nat.toDigits 10 n.natAbs

/-- The value of a hexadecimal digit in either case. -/
def hexValue? (c : Char) : Option Nat :=
  let n := c.toNat
  if 0x30 ≤ n ∧ n ≤ 0x39 then some (n - 0x30)
  else if 0x61 ≤ n ∧ n ≤ 0x66 then some (n - 0x61 + 10)
  else if 0x41 ≤ n ∧ n ≤ 0x46 then some (n - 0x41 + 10)
  else none

/-- The value of a run of hexadecimal digits, the most significant first. -/
def hexDigitsValue? (cs : List Char) : Option Nat :=
  cs.foldlM (fun value c => (hexValue? c).map (16 * value + ·)) 0

/-- The last `width` hexadecimal digits of the number, in lower case. -/
def hexDigits : Nat → Nat → List Char
  | 0, _ => []
  | width + 1, n => hexDigits width (n / 16) ++ [(n % 16).digitChar]

theorem digitsValue_toDigits (n : Nat) : digitsValue (Nat.toDigits 10 n) = n :=
  Nat.ofDigitChars_toDigits (by decide) (by decide)

theorem hexValue?_digitChar {n : Nat} (h : n < 16) : hexValue? n.digitChar = some n := by
  have hall : ∀ k ∈ List.range 16, hexValue? k.digitChar = some k := by decide
  exact hall n (List.mem_range.mpr h)

theorem length_hexDigits (width n : Nat) : (hexDigits width n).length = width := by
  induction width generalizing n with
  | zero => rfl
  | succ width ih => simp [hexDigits, ih]

theorem hexDigitsValue?_hexDigits (width n : Nat) (h : n < Nat.pow 16 width) :
    hexDigitsValue? (hexDigits width n) = some n := by
  induction width generalizing n with
  | zero => simp_all [hexDigits, hexDigitsValue?]
  | succ width ih =>
    have hlt : n / 16 < Nat.pow 16 width := by
      rw [Nat.div_lt_iff_lt_mul (by decide)]
      exact h
    have hrec := ih (n / 16) hlt
    unfold hexDigitsValue? at hrec ⊢
    rw [hexDigits, List.foldlM_append, hrec]
    simp only [List.foldlM_cons, List.foldlM_nil, Option.bind_eq_bind, Option.bind_some,
      hexValue?_digitChar (Nat.mod_lt n (by decide : 0 < 16)), Option.map_some, Option.pure_def]
    rw [Nat.div_add_mod]

end Forecast.Text
