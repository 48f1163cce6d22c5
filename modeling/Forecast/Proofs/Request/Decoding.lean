import Forecast.Proofs.Calendar.Days
import Forecast.Proofs.Success
import Forecast.Request

/-!
# Requests in JSON

What a text must hold to be a request is said once, for both of its readers: a household, the two ends
of a window and a list of accounts (`Request.Spells`). The codec takes such a text for a request if the
ends are in order (`Request.read?_eq_some_iff`); `Request.ofJson` takes it too, tells an inverted window
apart from a text that spells no request at all, and forgets a list of accounts without any in it
(`Request.ofJson_eq_ok_iff`, `Request.ofJson_eq_error_iff`).
-/

namespace Forecast

/-! ## Slots -/

theorem Json.Slot.required_eq_some_iff {α : Type} [Json.Codec α] {s : Json.Slot} {a : α} :
    s.required = some a ↔ ∃ v, s = .given v ∧ Json.decode? v = some a := by
  cases s with
  | given v =>
    constructor
    · intro h
      exact ⟨v, rfl, h⟩
    · rintro ⟨_, ⟨⟩, h⟩
      exact h
  | absent => exact ⟨nofun, nofun⟩
  | cutOff => exact ⟨nofun, nofun⟩

/-! ## Windows -/

/-- The ends of a window. -/
def Window.ends (w : Window) : Window.Ends := ⟨w.first, w.last⟩

namespace Window

variable {first last : Date} {w : Window}

/-- A window is read where its ends are. -/
theorem decode?_eq_some_iff {v : Json.Value} :
    Json.decode? v = some w ↔ Json.decode? v = some w.ends := by
  show (Json.decode? v : Option Ends).bind _ = _ ↔ _
  rw [Option.bind_eq_some_iff]
  constructor
  · rintro ⟨e, he, hw⟩
    obtain ⟨hfirst, hlast⟩ := make?_eq_some_iff.1 hw
    rw [he, ends, hfirst, hlast]
  · intro h
    exact ⟨w.ends, h, make?_eq_some_iff.2 ⟨rfl, rfl⟩⟩

theorem required_eq_some_iff {s : Json.Slot} : s.required = some w ↔ s.required = some w.ends := by
  simp only [Json.Slot.required_eq_some_iff, decode?_eq_some_iff]

theorem read?_eq_some_iff {t : String} : Json.read? t = some w ↔ Json.read? t = some w.ends := by
  simp only [Json.read?, Option.bind_eq_some_iff, decode?_eq_some_iff]

theorem make?_eq_none_iff : make? first last = none ↔ last < first := by
  simp [make?]

end Window

namespace Request

variable {first last : Date} {w : Window} {p : Problem} {t : String} {r : Request}

theorem windowBetween_eq_ok_iff :
    windowBetween first last = .ok w ↔ w.first = first ∧ w.last = last := by
  rw [← Window.make?_eq_some_iff, windowBetween]
  cases Window.make? first last with
  | none => exact ⟨nofun, nofun⟩
  | some w' => simp

theorem windowBetween_eq_error_iff :
    windowBetween first last = .error p ↔ last < first ∧ p = .invertedRange first last := by
  rw [← Window.make?_eq_none_iff, windowBetween]
  cases Window.make? first last with
  | none => simp [eq_comm]
  | some w' => simp

/-! ## What a text spells -/

/-- The text holds all that makes a request, as an object or as an array: a household, the ends of a
window in any order, and a list of accounts, which may be missing. -/
def Spells (t : String) (household : Uuid) (ends : Window.Ends) (accounts : Option (List Uuid)) :
    Prop :=
  ∃ v a b c, Json.Value.parse? t = some v ∧
    v.slots? ["family_id", "window", "account_ids"] = some [a, b, c] ∧
    a.required = some household ∧ b.required = some ends ∧ c.optional = some accounts

theorem read?_draft_iff {d : Draft} :
    Json.read? t = some d ↔ Spells t d.household d.ends d.accounts := by
  unfold Json.read? Spells
  rw [Option.bind_eq_some_iff]
  constructor
  · rintro ⟨v, hv, hd⟩
    obtain ⟨slots, hslots, hd⟩ := Option.bind_eq_some_iff.1 hd
    split at hd
    · simp only [Option.bind_eq_bind, Option.bind_eq_some_iff, Option.pure_def,
        Option.some.injEq] at hd
      obtain ⟨_, hhousehold, _, hends, _, haccounts, rfl⟩ := hd
      exact ⟨v, _, _, _, hv, hslots, hhousehold, hends, haccounts⟩
    · cases hd
  · rintro ⟨v, a, b, c, hv, hslots, hhousehold, hends, haccounts⟩
    refine ⟨v, hv, Option.bind_eq_some_iff.2 ⟨_, hslots, ?_⟩⟩
    simp [hhousehold, hends, haccounts]

/-- A text spells one request at most. -/
theorem Spells.unique {d d' : Draft} (h : Spells t d.household d.ends d.accounts)
    (h' : Spells t d'.household d'.ends d'.accounts) : d = d' :=
  Option.some.inj ((read?_draft_iff.2 h).symm.trans (read?_draft_iff.2 h'))

/-- A request is read where what it is made of is. -/
theorem decode?_eq_some_iff {v : Json.Value} : Json.decode? v = some r ↔
    Json.decode? v = some (⟨r.household, r.window.ends, r.accounts⟩ : Draft) := by
  obtain ⟨household, w, accounts⟩ := r
  show (v.slots? _).bind _ = _ ↔ (v.slots? _).bind _ = _
  simp only [Option.bind_eq_some_iff]
  refine exists_congr fun slots => and_congr_right fun _ => ?_
  split
  · simp [Option.bind_eq_some_iff, Window.required_eq_some_iff]
  · simp

/-- The codec reads a request from what spells one. -/
theorem read?_eq_some_iff :
    Json.read? t = some r ↔ Spells t r.household r.window.ends r.accounts := by
  rw [← read?_draft_iff (d := ⟨_, _, _⟩)]
  simp only [Json.read?, Option.bind_eq_some_iff, decode?_eq_some_iff]

/-! ## The reader that tells inverted windows apart -/

/-- The request with no list of accounts in place of an empty one. -/
def normal (r : Request) : Request :=
  { r with accounts := if r.accounts = some [] then none else r.accounts }

theorem withAccounts_getD (r : Request) (accounts : Option (List Uuid)) :
    r.withAccounts (accounts.getD []) = normal { r with accounts } := by
  cases accounts with
  | none => rfl
  | some ids =>
    cases ids with
    | nil => rfl
    | cons id ids => rfl

theorem ofJson_eq_ok_iff {r' : Request} :
    ofJson t = .ok r' ↔ ∃ r : Request, Json.read? t = some r ∧ r' = r.normal := by
  unfold ofJson
  simp only [bind_eq_ok_iff, pure_eq_ok_iff, Outcome.ofJson_eq_ok_iff, read?_draft_iff,
    windowBetween_eq_ok_iff, withAccounts_getD]
  constructor
  · rintro ⟨⟨household, ⟨_, _⟩, accounts⟩, h, w, ⟨rfl, rfl⟩, rfl⟩
    exact ⟨⟨household, w, accounts⟩, read?_eq_some_iff.2 h, rfl⟩
  · rintro ⟨r, h, rfl⟩
    exact ⟨⟨r.household, r.window.ends, r.accounts⟩, read?_eq_some_iff.1 h, r.window, ⟨rfl, rfl⟩, rfl⟩

/-- A text is refused either because its window is inverted, with all else in place, or because it
does not spell a request at all. -/
theorem ofJson_eq_error_iff :
    ofJson t = .error p ↔
      (∃ household first last accounts, Spells t household ⟨first, last⟩ accounts ∧ last < first ∧
        p = .invertedRange first last) ∨
      (∀ household ends accounts, ¬ Spells t household ends accounts) ∧ p = .malformed := by
  unfold ofJson
  cases hdraft : (Outcome.ofJson t : Outcome Draft) with
  | error flaw =>
    obtain ⟨hnone, rfl⟩ := Outcome.ofJson_eq_error_iff.1 hdraft
    have hspells : ∀ household ends accounts, ¬ Spells t household ends accounts := by
      intro household ends accounts h
      have hread := (read?_draft_iff (d := ⟨household, ends, accounts⟩)).2 h
      rw [hnone] at hread
      cases hread
    constructor
    · rintro ⟨⟩
      exact .inr ⟨hspells, rfl⟩
    · rintro (⟨_, _, _, _, h, -, -⟩ | ⟨-, rfl⟩)
      · exact absurd h (hspells _ _ _)
      · rfl
  | ok d =>
    have hd : Spells t d.household d.ends d.accounts :=
      read?_draft_iff.1 (Outcome.ofJson_eq_ok_iff.1 hdraft)
    rw [ok_bind]
    cases hw : windowBetween d.ends.first d.ends.last with
    | error flaw =>
      obtain ⟨hlt, rfl⟩ := windowBetween_eq_error_iff.1 hw
      constructor
      · rintro ⟨⟩
        exact .inl ⟨_, _, _, _, hd, hlt, rfl⟩
      · rintro (⟨household, first, last, accounts, h, -, rfl⟩ | ⟨hnone, -⟩)
        · have heq : (⟨household, ⟨first, last⟩, accounts⟩ : Draft) = d := h.unique hd
          subst heq
          rfl
        · exact absurd hd (hnone _ _ _)
    | ok w =>
      constructor
      · nofun
      · rintro (⟨household, first, last, accounts, h, hlt, -⟩ | ⟨hnone, -⟩)
        · have heq : (⟨household, ⟨first, last⟩, accounts⟩ : Draft) = d := h.unique hd
          subst heq
          cases hw.symm.trans (windowBetween_eq_error_iff.2 ⟨hlt, rfl⟩)
        · exact absurd hd (hnone _ _ _)

end Request

end Forecast
