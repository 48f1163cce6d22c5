import Forecast.Calendar.Monthly
import Forecast.Household.Entry

/-!
# Recurring definitions

An income or expense that is expected every month. A negative amount comes in and any other goes
out. A definition can be inactive, or paused up to and including a date.
-/

namespace Forecast

/-- Only active definitions are expected. -/
inductive RecurringStatus
  | active
  | inactive
deriving DecidableEq

instance : Json.Named RecurringStatus where
  all := [.active, .inactive]
  name
    | .active => "active"
    | .inactive => "inactive"

/-- An expected monthly income or expense. -/
structure Recurring where
  id : Uuid
  household : Uuid
  name : String
  merchant : Option String := none
  amount : Decimal
  anchorDay : UInt32
  status : RecurringStatus := .active
  pausedUntil : Option Date := none
  /-- Entered by hand, not found in the history. -/
  manual : Bool := false
  occurrences : UInt32 := 0
  average : Option Decimal := none
  least : Option Decimal := none
  greatest : Option Decimal := none
  /-- A stored score that replaces the computed one. -/
  confidence : Option Decimal := none
  nextExpected : Option Date := none
deriving DecidableEq

namespace Recurring

/-- The definition is in use. -/
def isActive (r : Recurring) : Bool :=
  r.status == .active

/-- The definition is paused while the date up to which it is has not passed. -/
def isPaused (r : Recurring) (today : Date) : Bool :=
  match r.pausedUntil with
  | some d => today ≤ d
  | none => false

/-- The merchant's name, or the definition's own. -/
def displayName (r : Recurring) : String :=
  r.merchant.getD r.name

/-- The signed amount each occurrence is expected to have: the average for a definition entered by
hand, if it has one. -/
def expectedAmount (r : Recurring) : Decimal :=
  if r.manual then r.average.getD r.amount else r.amount

/-- The dates on which the definition is expected. -/
def series (r : Recurring) : Series :=
  { anchor := r.anchorDay.toNat, seed := r.nextExpected }

instance : Json.Codec Recurring where
  encode r := .record
    [Json.field "id" r.id, Json.field "family_id" r.household, Json.field "name" r.name,
      Json.fieldIfSome "merchant_name" r.merchant, Json.field "amount" r.amount,
      Json.field "expected_day_of_month" r.anchorDay, Json.field "status" r.status,
      Json.fieldIfSome "paused_until" r.pausedUntil, Json.field "manual" r.manual,
      Json.field "occurrence_count" r.occurrences,
      Json.fieldIfSome "expected_amount_avg" r.average,
      Json.fieldIfSome "expected_amount_min" r.least,
      Json.fieldIfSome "expected_amount_max" r.greatest,
      Json.fieldIfSome "confidence_score" r.confidence,
      Json.fieldIfSome "next_expected_date" r.nextExpected]
  decode? v := do
    match ← v.slots?
        ["id", "family_id", "name", "merchant_name", "amount", "expected_day_of_month", "status",
          "paused_until", "manual", "occurrence_count", "expected_amount_avg",
          "expected_amount_min", "expected_amount_max", "confidence_score",
          "next_expected_date"] with
    | [id, household, name, merchant, amount, anchorDay, status, pausedUntil, manual, occurrences,
        average, least, greatest, confidence, nextExpected] =>
      return {
        id := ← id.required
        household := ← household.required
        name := ← name.required
        merchant := ← merchant.optional
        amount := ← amount.required
        anchorDay := ← anchorDay.required
        status := ← status.defaulted .active
        pausedUntil := ← pausedUntil.optional
        manual := ← manual.defaulted false
        occurrences := ← occurrences.defaulted 0
        average := ← average.optional
        least := ← least.optional
        greatest := ← greatest.optional
        confidence := ← confidence.optional
        nextExpected := ← nextExpected.optional }
    | _ => none

end Recurring

end Forecast
