import Forecast.Proofs.Calendar.Days
import Forecast.Proofs.Session.Reading
import Forecast.Source.Memory

/-!
# Sessions over records in memory

What a session finds in the snapshot of its household: only the records that belong to the household
count. The accounts and the period are looked at by the source and once more by the session, which
changes nothing.
-/

namespace Forecast

variable {m : Memory} {household : Uuid} {snap : Snapshot}

/-- The records of a snapshot that belong to a household. -/
def Snapshot.ownedBy (snap : Snapshot) (household : Uuid) : Snapshot :=
  { snap with
    accounts := snap.accounts.filter fun a => a.household == household
    entries := snap.entries.filter fun e => e.household == household
    recurring := snap.recurring.filter fun r => r.household == household }

namespace Memory

theorem household_of_snapshot (h : m.snapshot household = .ok snap) : snap.household = household := by
  unfold snapshot at h
  split at h
  · rename_i found hfound
    cases h
    simpa using List.find?_some hfound
  · cases h

theorem accounts_of_snapshot (h : m.snapshot household = .ok snap) :
    m.accounts household = .ok (snap.ownedBy household).accounts := by
  rw [accounts, h]
  rfl

theorem entries_of_snapshot (h : m.snapshot household = .ok snap) (w : Window)
    (filter : Option (List Uuid)) :
    m.entries household w filter = .ok ((snap.ownedBy household).entriesWithin w filter) := by
  rw [entries, h, ok_bind]
  simp only [Snapshot.entriesWithin, Snapshot.ownedBy, List.filter_filter, Bool.and_comm]
  rfl

theorem recurring_of_snapshot (h : m.snapshot household = .ok snap) :
    m.recurring household = .ok (snap.ownedBy household).recurring := by
  rw [recurring, h]
  rfl

end Memory

namespace Outlook

/-- The events of entries are those of the entries that the request asks for. -/
theorem pendingEvents_entriesWithin (o : Outlook) (snap : Snapshot) :
    o.pendingEvents (snap.entriesWithin o.request.window o.request.accounts) =
      o.pendingEvents snap.entries := by
  unfold pendingEvents Snapshot.entriesWithin
  rw [List.filter_filter]
  congr 1
  refine List.filter_congr fun e _ => ?_
  cases e.isWithin o.request.window o.request.accounts <;> simp

theorem events_entriesWithin (o : Outlook) (snap : Snapshot) (definitions : List Recurring) :
    o.events (snap.entriesWithin o.request.window o.request.accounts) definitions =
      o.events snap.entries definitions := by
  rw [events, pendingEvents_entriesWithin, events]

end Outlook

namespace Session

variable {s : Session}

theorem eventsOver_of_snapshot (h : m.snapshot s.request.household = .ok snap) :
    s.eventsOver m.records =
      (s.outlook.events (snap.ownedBy s.request.household).entries
        (snap.ownedBy s.request.household).recurring).attempt := by
  show ((m.entries _ _ _).attempt >>= fun _ => (m.recurring _).attempt >>= fun _ => _) = _
  rw [Memory.entries_of_snapshot h, Memory.recurring_of_snapshot h]
  exact congrArg Checked.attempt (s.outlook.events_entriesWithin _ _)

theorem balanceOver_of_snapshot (h : m.snapshot s.request.household = .ok snap) :
    s.balanceOver m.records =
      (Account.holdings (snap.ownedBy s.request.household).accounts s.request.accounts).attempt := by
  show ((m.accounts _).attempt >>= fun _ => _) = _
  rw [Memory.accounts_of_snapshot h]
  rfl

/-- What an answer is told from. -/
theorem told_of_snapshot {past : List Inquiry} {q : Inquiry} {a : q.Answer}
    (hsnap : m.snapshot s.request.household = .ok snap)
    (h : ((s.answer Memory.source q).runFrom (s.after Memory.source ({}, m) past)).1 = .ok a) :
    ∃ events start,
      (q.needsEvents = true → s.outlook.events (snap.ownedBy s.request.household).entries
        (snap.ownedBy s.request.household).recurring = .ok events) ∧
      (q.needsBalance = true → Account.holdings (snap.ownedBy s.request.household).accounts
        s.request.accounts = .ok start) ∧
      s.told events start q = .ok a := by
  obtain ⟨events, start, hevents, hstart, ha⟩ := told_of_reading Memory.records h
  rw [eventsOver_of_snapshot hsnap, Checked.attempt_eq_ok_iff] at hevents
  rw [balanceOver_of_snapshot hsnap, Checked.attempt_eq_ok_iff] at hstart
  exact ⟨events, start, hevents, hstart, ha⟩

/-- What a curve is computed from. -/
theorem curveOver_of_snapshot {curve : List BalancePoint}
    (hsnap : m.snapshot s.request.household = .ok snap) (h : s.curveOver m.records = .ok curve) :
    ∃ events start,
      s.outlook.events (snap.ownedBy s.request.household).entries
        (snap.ownedBy s.request.household).recurring = .ok events ∧
      Account.holdings (snap.ownedBy s.request.household).accounts s.request.accounts = .ok start ∧
      balanceCurve events s.request.window start s.settings.confidence = .ok curve := by
  obtain ⟨events, hevents, start, hstart, hcurve⟩ := curveOver_eq_ok_iff.1 h
  rw [eventsOver_of_snapshot hsnap, Checked.attempt_eq_ok_iff] at hevents
  rw [balanceOver_of_snapshot hsnap, Checked.attempt_eq_ok_iff] at hstart
  exact ⟨events, start, hevents, hstart, hcurve⟩

end Session

/-! ## A household

A household with a little of everything, at the end of a February with a leap day, on which the
theorems about sessions are tried: records of a neighbour among its own, an entry that is cleared,
definitions that share an identifier with each other and with an entry, one that is paused, one out of
use, and one that was last seen off its day.
-/

namespace Sample

def home : Uuid := { value := 1 }

def neighbour : Uuid := { value := 2 }

def checking : Uuid := { value := 10 }

/-- The identifier of two definitions and an entry. -/
def rent : Uuid := { value := 20 }

/-- An account of the neighbour's. -/
def stray : Account where
  id := { value := 13 }
  household := neighbour
  name := "theirs"
  classification := .asset
  balance := .whole 77

def snapshot : Snapshot where
  household := home
  accounts := [
    { id := checking, household := home, name := "checking", classification := .asset,
      balance := .whole 1000 },
    { id := { value := 11 }, household := home, name := "card", classification := .liability,
      balance := -.hundredths 25050 },
    { id := { value := 12 }, household := home, name := "old", classification := .asset,
      status := .inactive, balance := .whole 3 },
    stray]
  entries := [
    { id := rent, household := home, account := checking, date := date 2 29, name := "groceries",
      classification := .expense, amount := -.whole 30, pending := true },
    { id := { value := 31 }, household := home, account := checking, date := date 2 29,
      name := "refund", classification := .income, amount := .whole 5 },
    { id := { value := 32 }, household := neighbour, account := checking, date := date 2 29,
      name := "theirs", classification := .income, amount := .whole 6, pending := true }]
  recurring := [
    { id := rent, household := home, name := "flat", amount := .whole 800, anchorDay := 31 },
    { id := { value := 21 }, household := home, name := "salary", amount := -.whole 2000,
      anchorDay := 1, nextExpected := some (date 2 28) },
    { id := rent, household := home, name := "garage", amount := .tenths 605, anchorDay := 0 },
    { id := { value := 22 }, household := home, name := "club", amount := .whole 9,
      anchorDay := 29, pausedUntil := some (date 3 31) },
    { id := { value := 23 }, household := home, name := "paper", amount := .whole 4,
      anchorDay := 29, status := .inactive },
    { id := { value := 24 }, household := neighbour, name := "theirs", amount := .whole 8,
      anchorDay := 29 }]

def memory : Memory := ({} : Memory).insert snapshot

/-- From the 28th of February to the first of March. -/
def window : Window := ⟨date 2 28, date 3 1, by decide +kernel⟩

def session : Session where
  request := { household := home, window }
  settings := {}
  today := date 2 20

theorem snapshot_memory : memory.snapshot session.request.household = .ok snapshot :=
  Memory.snapshot_insert_self {} snapshot

theorem last_lt_latest : session.request.window.last < Date.latest := by decide +kernel

end Sample

end Forecast
