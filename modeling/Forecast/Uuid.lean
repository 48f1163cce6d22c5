import Forecast.Json.Codec

/-!
# Identifiers

Accounts, entries, definitions and households are told apart by 128-bit identifiers, written as 32
hexadecimal digits in groups of 8, 4, 4, 4 and 12 with hyphens between them, in lower case.

An identifier is read from four spellings, in which the case of letters does not matter: hyphenated,
the bare digits, hyphenated in braces, and hyphenated behind `urn:uuid:`.
-/

namespace Forecast

/-- The number `2 ^ 128` of identifiers. -/
def Uuid.size : Nat := 340282366920938463463374607431768211456

/-- A 128-bit identifier. -/
structure Uuid where
  value : Nat
  value_lt : value < Uuid.size := by decide
deriving DecidableEq

namespace Uuid

instance : LT Uuid := ⟨fun a b => a.value < b.value⟩
instance : LE Uuid := ⟨fun a b => a.value ≤ b.value⟩
instance (a b : Uuid) : Decidable (a < b) := Nat.decLt a.value b.value
instance (a b : Uuid) : Decidable (a ≤ b) := Nat.decLe a.value b.value

/-- The hyphenated spelling. -/
def chars (u : Uuid) : List Char :=
  let ds := Text.hexDigits 32 u.value
  ds.take 8 ++ '-' :: (ds.drop 8).take 4 ++ '-' :: (ds.drop 12).take 4 ++ '-' ::
    (ds.drop 16).take 4 ++ '-' :: ds.drop 20

/-- The hyphenated spelling. -/
def toText (u : Uuid) : String :=
  String.ofList u.chars

instance : ToString Uuid := ⟨toText⟩

/-- The identifier with the given 32 digits. -/
def ofDigits? (ds : List Char) : Option Uuid :=
  if ds.length = 32 then
    (Text.hexDigitsValue? ds).bind fun n => if h : n < size then some ⟨n, h⟩ else none
  else none

/-- Reads the hyphenated spelling: hyphens stand in four places, and digits in all others. -/
def ofHyphenated? (cs : List Char) : Option Uuid :=
  if cs.length = 36 ∧ cs[8]? = some '-' ∧ cs[13]? = some '-' ∧ cs[18]? = some '-' ∧
      cs[23]? = some '-' then
    ofDigits? (cs.take 8 ++ (cs.drop 9).take 4 ++ (cs.drop 14).take 4 ++ (cs.drop 19).take 4 ++
      cs.drop 24)
  else none

/-- What stands before an identifier that is given as a name. -/
def urnMark : List Char := ['u', 'r', 'n', ':', 'u', 'u', 'i', 'd', ':']

/-- Reads any of the four spellings. -/
def ofChars? (cs : List Char) : Option Uuid :=
  if cs.length = 32 then ofDigits? cs
  else if cs.length = 36 then ofHyphenated? cs
  else if cs.head? = some '\x7b' ∧ cs.getLast? = some '\x7d' then ofHyphenated? cs.tail.dropLast
  else if (cs.take 9).map Char.toLower = urnMark then ofHyphenated? (cs.drop 9)
  else none

/-- Reads any of the four spellings. -/
def ofText? (s : String) : Option Uuid :=
  ofChars? s.toList

instance : Json.Codec Uuid where
  encode u := .ofString u.toText
  decode? v := v.string?.bind ofText?

end Uuid

end Forecast
