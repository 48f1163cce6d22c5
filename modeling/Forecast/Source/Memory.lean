import Forecast.Source.Basic

/-!
# Records in memory

A source that holds one snapshot for each household. It serves only those records of a snapshot that
belong to the household it is asked for.
-/

namespace Forecast

/-- Snapshots by household. -/
structure Memory where
  snapshots : List Snapshot := []
deriving DecidableEq

namespace Memory

/-- The snapshots with one more, in place of any other of its household. -/
def insert (m : Memory) (s : Snapshot) : Memory :=
  { snapshots := s :: m.snapshots.filter fun other => other.household != s.household }

/-- The snapshot of a household. -/
def snapshot (m : Memory) (household : Uuid) : Outcome Snapshot :=
  match m.snapshots.find? fun s => s.household == household with
  | some s => .ok s
  | none => .error (.unknownHousehold household)

/-- The accounts of a household. -/
def accounts (m : Memory) (household : Uuid) : Outcome (List Account) := do
  return (← m.snapshot household).accounts.filter fun a => a.household == household

/-- The entries of a household in a window on the accounts that pass a filter. -/
def entries (m : Memory) (household : Uuid) (w : Window) (filter : Option (List Uuid)) :
    Outcome (List Entry) := do
  return ((← m.snapshot household).entriesWithin w filter).filter fun e => e.household == household

/-- The definitions of a household. -/
def recurring (m : Memory) (household : Uuid) : Outcome (List Recurring) := do
  return (← m.snapshot household).recurring.filter fun r => r.household == household

/-- What the snapshots answer. -/
def records (m : Memory) : Records where
  accounts := m.accounts
  entries := m.entries
  recurring := m.recurring

/-- The source of the snapshots. -/
def source : Source Memory :=
  .reading records

theorem snapshot_insert_self (m : Memory) (s : Snapshot) :
    (m.insert s).snapshot s.household = .ok s := by
  simp [snapshot, insert]

theorem snapshot_insert_of_ne (m : Memory) (s : Snapshot) {household : Uuid}
    (h : household ≠ s.household) : (m.insert s).snapshot household = m.snapshot household := by
  have h' : (s.household == household) = false := by simpa using Ne.symm h
  have hf : List.find? (fun t : Snapshot => t.household == household)
      (m.snapshots.filter fun other => other.household != s.household)
      = m.snapshots.find? fun t => t.household == household := by
    rw [List.find?_filter]
    congr 1
    funext t
    by_cases ht : t.household = household
    · simp [ht, h]
    · simp [ht]
  simp only [snapshot, insert, List.find?_cons, h', hf]

end Memory

end Forecast
