import Forecast.Decimal.Text
import Forecast.Calendar.DateText
import Forecast.Json.Record

/-!
# Points

The balance at the end of a day, with the change of the day and the number of its events. The points
of a projection also have a score; those of a scenario do not.
-/

namespace Forecast

/-- The projected balance at the end of a day. -/
structure BalancePoint where
  date : Date
  balance : Decimal
  confidence : Decimal
  netChange : Decimal
  eventCount : Nat
deriving DecidableEq

/-- The balance at the end of a day in a scenario. -/
structure ScenarioPoint where
  date : Date
  balance : Decimal
  netChange : Decimal
  eventCount : Nat
deriving DecidableEq

instance : Json.Codec BalancePoint where
  encode p := .record
    [Json.field "date" p.date, Json.field "balance" p.balance,
      Json.field "confidence" p.confidence, Json.field "net_change" p.netChange,
      Json.field "event_count" p.eventCount]
  decode? v := do
    match ← v.slots? ["date", "balance", "confidence", "net_change", "event_count"] with
    | [date, balance, confidence, netChange, eventCount] =>
      return {
        date := ← date.required
        balance := ← balance.required
        confidence := ← confidence.required
        netChange := ← netChange.required
        eventCount := ← eventCount.required }
    | _ => none

instance : Json.Codec ScenarioPoint where
  encode p := .record
    [Json.field "date" p.date, Json.field "balance" p.balance,
      Json.field "net_change" p.netChange, Json.field "event_count" p.eventCount]
  decode? v := do
    match ← v.slots? ["date", "balance", "net_change", "event_count"] with
    | [date, balance, netChange, eventCount] =>
      return {
        date := ← date.required
        balance := ← balance.required
        netChange := ← netChange.required
        eventCount := ← eventCount.required }
    | _ => none

/-- The point without its score. -/
def BalancePoint.toScenarioPoint (p : BalancePoint) : ScenarioPoint :=
  { date := p.date, balance := p.balance, netChange := p.netChange, eventCount := p.eventCount }

end Forecast
