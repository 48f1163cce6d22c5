import Forecast.Calendar.Window
import Forecast.Household.Account

/-!
# Entries

A transaction recorded on an account. The direction of the money is its flow; the sign that the
amount came with says nothing. An entry is pending until the bank has cleared it.
-/

namespace Forecast

/-- The direction in which money moves, seen from the household. -/
inductive Flow
  | income
  | expense
deriving DecidableEq

instance : Json.Named Flow where
  all := [.income, .expense]
  name
    | .income => "income"
    | .expense => "expense"

namespace Flow

/-- The place of a flow among the events of a day: income comes first. -/
def rank : Flow → Nat
  | income => 0
  | expense => 1

/-- The flow of a signed amount: what is negative comes in, and anything else goes out. -/
def ofSigned (amount : Decimal) : Flow :=
  if amount.negative && !amount.isZero then income else expense

end Flow

/-- A transaction recorded on an account. -/
structure Entry where
  id : Uuid
  household : Uuid
  account : Uuid
  date : Date
  name : String
  classification : Flow
  amount : Decimal
  pending : Bool := false
deriving DecidableEq

namespace Entry

instance : Json.Codec Entry where
  encode e := .record
    [Json.field "id" e.id, Json.field "family_id" e.household, Json.field "account_id" e.account,
      Json.field "date" e.date, Json.field "name" e.name,
      Json.field "classification" e.classification, Json.field "amount" e.amount,
      Json.field "pending" e.pending]
  decode? v := do
    match ← v.slots?
        ["id", "family_id", "account_id", "date", "name", "classification", "amount",
          "pending"] with
    | [id, household, account, date, name, classification, amount, pending] =>
      return {
        id := ← id.required
        household := ← household.required
        account := ← account.required
        date := ← date.required
        name := ← name.required
        classification := ← classification.required
        amount := ← amount.required
        pending := ← pending.defaulted false }
    | _ => none

/-- The entry is dated in the window and stands on an account that passes the filter. -/
def isWithin (e : Entry) (w : Window) (filter : Option (List Uuid)) : Bool :=
  w.contains e.date && admits filter e.account

end Entry

end Forecast
