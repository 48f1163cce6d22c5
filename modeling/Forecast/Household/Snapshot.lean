import Forecast.Household.Recurring

/-!
# Snapshots

All records of one household as they are handed over and stored. A snapshot may hold records that
belong to another household; whoever serves it decides what becomes of them.
-/

namespace Forecast

/-- The records of one household. -/
structure Snapshot where
  household : Uuid
  currency : String := "USD"
  accounts : List Account := []
  entries : List Entry := []
  recurring : List Recurring := []
deriving DecidableEq

namespace Snapshot

instance : Json.Codec Snapshot where
  encode s := .record
    [Json.field "family_id" s.household, Json.field "currency" s.currency,
      Json.field "accounts" s.accounts, Json.field "entries" s.entries,
      Json.field "recurring" s.recurring]
  decode? v := do
    match ← v.slots? ["family_id", "currency", "accounts", "entries", "recurring"] with
    | [household, currency, accounts, entries, recurring] =>
      return {
        household := ← household.required
        currency := ← currency.defaulted "USD"
        accounts := ← accounts.defaulted []
        entries := ← entries.defaulted []
        recurring := ← recurring.defaulted [] }
    | _ => none

/-- The snapshot with one more account at the end. -/
def addAccount (s : Snapshot) (a : Account) : Snapshot :=
  { s with accounts := s.accounts ++ [a] }

/-- The snapshot with one more entry at the end. -/
def addEntry (s : Snapshot) (e : Entry) : Snapshot :=
  { s with entries := s.entries ++ [e] }

/-- The snapshot with one more definition at the end. -/
def addRecurring (s : Snapshot) (r : Recurring) : Snapshot :=
  { s with recurring := s.recurring ++ [r] }

/-- The entries in a window on the accounts that pass a filter. -/
def entriesWithin (s : Snapshot) (w : Window) (filter : Option (List Uuid)) : List Entry :=
  s.entries.filter fun e => e.isWithin w filter

end Snapshot

end Forecast
