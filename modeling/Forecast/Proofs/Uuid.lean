import Forecast.Proofs.Json.Faithful
import Forecast.Uuid

/-!
# Written identifiers

An identifier reads back from its hyphenated spelling (`Uuid.ofText?_toText`).
-/

namespace Forecast.Uuid

open Text

theorem ofDigits?_hexDigits (u : Uuid) : ofDigits? (hexDigits 32 u.value) = some u := by
  have hlt : u.value < Nat.pow 16 32 := u.value_lt
  rw [ofDigits?, if_pos (length_hexDigits 32 u.value), hexDigitsValue?_hexDigits 32 u.value hlt,
    Option.bind_some, dif_pos u.value_lt]

/-- Five groups with hyphens between them are taken apart where they were put together. -/
theorem ofHyphenated?_groups {a b c d e : List Char} (ha : a.length = 8) (hb : b.length = 4)
    (hc : c.length = 4) (hd : d.length = 4) (he : e.length = 12) :
    ofHyphenated? (a ++ '-' :: b ++ '-' :: c ++ '-' :: d ++ '-' :: e) =
      ofDigits? (a ++ b ++ c ++ d ++ e) := by
  rw [ofHyphenated?, if_pos]
  · simp [List.drop_append, List.drop_of_length_le, ha, hb, hc, hd]
  · simp [ha, hb, hc, hd, he]

theorem ofHyphenated?_chars (u : Uuid) : ofHyphenated? u.chars = some u := by
  have hlen := length_hexDigits 32 u.value
  have hdigits := ofDigits?_hexDigits u
  rw [chars]
  generalize hexDigits 32 u.value = ds at hlen hdigits ⊢
  have hgroup (i : Nat) : (ds.drop i).take 4 ++ ds.drop (i + 4) = ds.drop i := by
    rw [← List.drop_drop, List.take_append_drop]
  have hgroups : ds.take 8 ++ (ds.drop 8).take 4 ++ (ds.drop 12).take 4 ++ (ds.drop 16).take 4 ++
      ds.drop 20 = ds := by
    simp only [List.append_assoc]
    rw [hgroup 16, hgroup 12, hgroup 8, List.take_append_drop]
  rw [ofHyphenated?_groups (by simp [hlen]) (by simp [hlen]) (by simp [hlen]) (by simp [hlen])
    (by simp [hlen]), hgroups]
  exact hdigits

/-- An identifier reads back from its hyphenated spelling. -/
theorem ofText?_toText (u : Uuid) : ofText? u.toText = some u := by
  have hlen : u.chars.length = 36 := by
    simp [chars, length_hexDigits]
  rw [ofText?, toText, String.toList_ofList, ofChars?, if_neg (by omega), if_pos hlen,
    ofHyphenated?_chars]

open Json

instance : Settles Uuid where

instance : AlwaysFits Uuid := ⟨fun _ => trivial⟩
instance : Unsigned Uuid := ⟨fun _ => rfl⟩

instance : Faithful Uuid where
  decode?_encode {u} _ := by
    show (Value.ofString u.toText).string?.bind ofText? = some u
    rw [Value.ofString, Value.string?, Option.bind_some, ofText?_toText]
  settled _ := .of_unsigned _

instance : NeverNull Uuid := ⟨fun u => ofString_ne_null u.toText⟩

end Forecast.Uuid
