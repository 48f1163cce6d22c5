import Forecast.Proofs.Uuid
import Forecast.Storage.SnapshotStore

/-!
# Names of snapshot files

A household is told by the name of its file, and no two households share a name
(`SnapshotStore.householdOf?_fileName`). The staging file beside it has a name of its own, which is no
household's: a listing never shows it, and it is never in the way of another file.
-/

namespace Forecast

/-! ## Stems and extensions -/

theorem Path.splitName_ofList {stem extension : List Char} (hstem : stem ≠ [])
    (hpoint : '.' ∉ extension) :
    splitName (String.ofList (stem ++ '.' :: extension)) =
      (String.ofList stem, some (String.ofList extension)) := by
  have hlast : (((stem ++ '.' :: extension).reverse.takeWhile (· != '.')).reverse) = extension := by
    rw [List.reverse_append, List.reverse_cons, List.append_assoc, List.takeWhile_append_of_pos]
    · simp
    · intro c hc
      rw [bne_iff_ne]
      rintro rfl
      exact hpoint (List.mem_reverse.1 hc)
  have hlength : (stem ++ '.' :: extension).length = stem.length + extension.length + 1 := by
    rw [List.length_append, List.length_cons, Nat.add_assoc]
  have hcut : (stem ++ '.' :: extension).length - extension.length - 1 = stem.length := by
    omega
  have hdot : ¬ (extension.length = (stem ++ '.' :: extension).length ∨
      (stem ++ '.' :: extension).take stem.length = []) := by
    rw [List.take_left, hlength]
    rintro (h | h)
    · omega
    · exact hstem h
  simp only [splitName, String.toList_ofList, hlast, hcut]
  rw [if_neg hdot, List.take_left]

theorem Route.staging_ofPath (p : Path) {stem extension : List Char} (hstem : stem ≠ [])
    (hpoint : stem ≠ ['.']) (hextension : '.' ∉ extension)
    (hup : String.ofList (stem ++ '.' :: extension) ≠ up) :
    (ofPath (p ++ [String.ofList (stem ++ '.' :: extension)])).staging =
      ofPath (p ++ [String.ofList stem ++ ".tmp"]) := by
  have hne : String.ofList stem ≠ "." := by
    intro h
    exact hpoint (by rw [← String.toList_ofList (l := stem), h]; rfl)
  unfold staging
  rw [show (ofPath (p ++ [_])).steps.getLast? = some _ from List.getLast?_concat]
  dsimp only
  rw [if_neg hup, Path.splitName_ofList hstem hextension]
  split
  · rename_i h
    exact absurd (congrArg Prod.fst h) hne
  · rename_i h
    obtain ⟨rfl, -⟩ := Prod.mk.inj h
    rw [show (ofPath (p ++ [_])).steps.dropLast = p from List.dropLast_concat]
    rfl

theorem Text.isSome_hexValue? {c : Char} {width n : Nat} (h : c ∈ hexDigits width n) :
    (hexValue? c).isSome = true := by
  induction width generalizing n with
  | zero => cases h
  | succ width ih =>
    rcases List.mem_append.1 h with h | h
    · exact ih h
    · rw [List.mem_singleton.1 h, hexValue?_digitChar (Nat.mod_lt n (by decide))]
      rfl

namespace Uuid

theorem length_chars (u : Uuid) : u.chars.length = 36 := by
  simp [chars, Text.length_hexDigits]

theorem mem_chars {u : Uuid} {c : Char} (h : c ∈ u.chars) :
    c = '-' ∨ (Text.hexValue? c).isSome = true := by
  have hdigits : c = '-' ∨ c ∈ Text.hexDigits 32 u.value := by
    have hpart : ∀ i k, c ∈ ((Text.hexDigits 32 u.value).drop i).take k →
        c ∈ Text.hexDigits 32 u.value :=
      fun i k hc => List.mem_of_mem_drop (List.mem_of_mem_take hc)
    simp only [chars, List.mem_append, List.mem_cons] at h
    rcases h with (((h | h | h) | h | h) | h | h) | h | h
    · exact .inr (List.mem_of_mem_take h)
    · exact .inl h
    · exact .inr (hpart _ _ h)
    · exact .inl h
    · exact .inr (hpart _ _ h)
    · exact .inl h
    · exact .inr (hpart _ _ h)
    · exact .inl h
    · exact .inr (List.mem_of_mem_drop h)
  exact hdigits.imp_right Text.isSome_hexValue?

theorem not_mem_chars {u : Uuid} {c : Char} (hc : c ≠ '-' ∧ Text.hexValue? c = none) : c ∉ u.chars := by
  intro h
  rcases mem_chars h with h | h
  · exact hc.1 h
  · rw [hc.2] at h
    cases h

end Uuid

/-! ## Names -/

theorem utf8Len_le (cs : List Char) : String.utf8Len cs ≤ 4 * cs.length := by
  induction cs with
  | nil => exact Nat.zero_le _
  | cons c cs ih =>
    have := c.utf8Size_le_four
    simp only [String.utf8Len_cons, List.length_cons]
    omega

/-- A short text without a null character is a name. -/
theorem Route.isName_ofList {cs : List Char} (hup : cs ≠ ['.', '.']) (hlength : cs.length ≤ 63)
    (hnul : '\x00' ∉ cs) : isName (String.ofList cs) = true := by
  have hne : String.ofList cs ≠ up := by
    intro h
    exact hup (by rw [← String.toList_ofList (l := cs), h]; rfl)
  have hsize : (String.ofList cs).utf8ByteSize ≤ 255 := by
    have := utf8Len_le cs
    rw [String.utf8ByteSize_ofList]
    omega
  simp only [isName, Bool.and_eq_true, bne_iff_ne, decide_eq_true_eq, Bool.not_eq_eq_eq_not,
    Bool.not_true, String.toList_ofList]
  exact ⟨⟨hne, hsize⟩, by simpa using hnul⟩

namespace SnapshotStore

variable {u v : Uuid}

/-- The name of the staging file of a household. -/
def stagingName (household : Uuid) : String :=
  household.toText ++ ".tmp"

theorem fileName_eq (u : Uuid) : fileName u = String.ofList (u.chars ++ '.' :: ['j', 's', 'o', 'n']) := by
  simp [fileName, Uuid.toText, extension, ← String.toList_inj]

theorem stagingName_eq (u : Uuid) : stagingName u = String.ofList (u.chars ++ '.' :: ['t', 'm', 'p']) := by
  simp [stagingName, Uuid.toText]

theorem householdOf?_ofList (u : Uuid) {extension : List Char} (h : '.' ∉ extension) :
    householdOf? (String.ofList (u.chars ++ '.' :: extension)) =
      if String.ofList extension = SnapshotStore.extension then some u else none := by
  have hstem : u.chars ≠ [] := List.ne_nil_of_length_pos (by rw [u.length_chars]; decide)
  unfold householdOf?
  rw [Path.splitName_ofList hstem h]
  dsimp only
  rw [show String.ofList u.chars = u.toText from rfl, Uuid.ofText?_toText]

/-- The name of a file tells its household. -/
theorem householdOf?_fileName (u : Uuid) : householdOf? (fileName u) = some u := by
  rw [fileName_eq, householdOf?_ofList u (by decide), if_pos (by decide)]

/-- The name of a staging file tells no household. -/
theorem householdOf?_stagingName (u : Uuid) : householdOf? (stagingName u) = none := by
  rw [stagingName_eq, householdOf?_ofList u (by decide), if_neg (by decide)]

theorem fileName_inj : fileName u = fileName v ↔ u = v := by
  constructor
  · intro h
    have := householdOf?_fileName u
    rw [h, householdOf?_fileName] at this
    exact (Option.some.inj this).symm
  · rintro rfl
    rfl

theorem stagingName_ne_fileName (u v : Uuid) : stagingName u ≠ fileName v := by
  intro h
  have := householdOf?_stagingName u
  rw [h, householdOf?_fileName] at this
  cases this

theorem isName_ofList (u : Uuid) {extension : List Char} (hlength : extension.length ≤ 26)
    (hnul : '\x00' ∉ extension) :
    Route.isName (String.ofList (u.chars ++ '.' :: extension)) = true := by
  have hlen : (u.chars ++ '.' :: extension).length = 37 + extension.length := by
    rw [List.length_append, List.length_cons, u.length_chars]
    omega
  refine Route.isName_ofList ?_ (by omega) ?_
  · intro h
    rw [h] at hlen
    simp at hlen
    omega
  · have hchars := u.not_mem_chars (c := '\x00') (by decide)
    simp [hchars, hnul]

theorem isName_fileName (u : Uuid) : Route.isName (fileName u) = true := by
  rw [fileName_eq]
  exact isName_ofList u (by decide) (by decide)

theorem isName_stagingName (u : Uuid) : Route.isName (stagingName u) = true := by
  rw [stagingName_eq]
  exact isName_ofList u (by decide) (by decide)

theorem staging_pathOf (store : SnapshotStore) (u : Uuid) :
    (Route.ofPath (store.pathOf u)).staging = .ofPath (store.folder ++ [stagingName u]) := by
  rw [pathOf, fileName_eq]
  have hlen := u.length_chars
  refine Route.staging_ofPath _ ?_ ?_ (by decide) ?_
  · rintro h
    rw [h] at hlen
    cases hlen
  · rintro h
    rw [h] at hlen
    cases hlen
  · intro h
    have := congrArg (List.length ∘ String.toList) h
    simp [hlen, Route.up] at this

end SnapshotStore

end Forecast
