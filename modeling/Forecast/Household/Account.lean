import Forecast.Decimal.Arithmetic
import Forecast.Decimal.Text
import Forecast.Json.Record
import Forecast.Uuid

/-!
# Accounts

What a household owns and owes. The balance a projection starts from is what the active accounts
hold: the assets less the amount of the liabilities, however the liabilities are signed.
-/

namespace Forecast

/-- An account is owned or owed. -/
inductive AccountClass
  | asset
  | liability
deriving DecidableEq

/-- Only active accounts count. -/
inductive AccountStatus
  | active
  | inactive
deriving DecidableEq

instance : Json.Named AccountClass where
  all := [.asset, .liability]
  name
    | .asset => "asset"
    | .liability => "liability"

instance : Json.Named AccountStatus where
  all := [.active, .inactive]
  name
    | .active => "active"
    | .inactive => "inactive"

/-- An account of a household. -/
structure Account where
  id : Uuid
  household : Uuid
  name : String
  classification : AccountClass
  status : AccountStatus := .active
  balance : Decimal
  currency : Option String := none
deriving DecidableEq

/-- An identifier passes a filter that lists it. A filter that is absent or empty lets all pass. -/
def admits (filter : Option (List Uuid)) (id : Uuid) : Bool :=
  match filter with
  | some (first :: rest) => (first :: rest).contains id
  | _ => true

namespace Account

/-- The account counts. -/
def isActive (a : Account) : Bool :=
  a.status == .active

instance : Json.Codec Account where
  encode a := .record
    [Json.field "id" a.id, Json.field "family_id" a.household, Json.field "name" a.name,
      Json.field "classification" a.classification, Json.field "status" a.status,
      Json.field "balance" a.balance, Json.fieldIfSome "currency" a.currency]
  decode? v := do
    match ← v.slots?
        ["id", "family_id", "name", "classification", "status", "balance", "currency"] with
    | [id, household, name, classification, status, balance, currency] =>
      return {
        id := ← id.required
        household := ← household.required
        name := ← name.required
        classification := ← classification.required
        status := ← status.defaulted .active
        balance := ← balance.required
        currency := ← currency.optional }
    | _ => none

/-- The balances of the active accounts of a class that pass the filter. -/
def balancesOf (accounts : List Account) (filter : Option (List Uuid)) (c : AccountClass) :
    List Decimal :=
  (accounts.filter fun a => a.isActive && a.classification == c && admits filter a.id).map balance

/-- What the accounts that pass the filter hold together. -/
def holdings (accounts : List Account) (filter : Option (List Uuid)) : Checked Decimal := do
  let assets ← Decimal.sum (balancesOf accounts filter .asset)
  let liabilities ← Decimal.sum (balancesOf accounts filter .liability)
  assets.sub liabilities.abs

end Account

end Forecast
