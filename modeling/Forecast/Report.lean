import Forecast.Curve.Alert
import Forecast.Event.Basic

/-!
# Reports

What a view shows of a projection: the totals, the whole, or the next events with the alerts.
-/

namespace Forecast

/-- The totals of a projection. -/
structure Summary where
  income : Decimal
  expenses : Decimal
  netCashFlow : Decimal
  eventCount : Nat
  startingBalance : Decimal
  endingBalance : Decimal
  window : Window
deriving DecidableEq

namespace Summary

instance : Json.Codec Summary where
  encode s := .record
    [Json.field "total_income" s.income, Json.field "total_expenses" s.expenses,
      Json.field "net_cash_flow" s.netCashFlow, Json.field "event_count" s.eventCount,
      Json.field "starting_balance" s.startingBalance,
      Json.field "ending_balance" s.endingBalance, Json.field "date_range" s.window]
  decode? v := do
    match ← v.slots?
        ["total_income", "total_expenses", "net_cash_flow", "event_count", "starting_balance",
          "ending_balance", "date_range"] with
    | [income, expenses, netCashFlow, eventCount, startingBalance, endingBalance, window] =>
      return {
        income := ← income.required
        expenses := ← expenses.required
        netCashFlow := ← netCashFlow.required
        eventCount := ← eventCount.required
        startingBalance := ← startingBalance.required
        endingBalance := ← endingBalance.required
        window := ← window.required }
    | _ => none

/-- The sum of the amounts of one flow. -/
def total (events : List Event) (flow : Flow) : Checked Decimal :=
  Decimal.sum ((events.filter fun e => e.flow == flow).map Event.amount)

/-- The totals of the events, with the balances at both ends of a curve. A curve without points ends
where it starts. -/
def of (events : List Event) (curve : List BalancePoint) (startingBalance : Decimal)
    (window : Window) : Checked Summary := do
  let income ← total events .income
  let expenses ← total events .expense
  return {
    income, expenses
    netCashFlow := ← income.sub expenses
    eventCount := events.length
    startingBalance
    endingBalance := (curve.getLast?.map BalancePoint.balance).getD startingBalance
    window }

end Summary

/-- Everything about a projection. -/
structure Report where
  projections : List Event
  curve : List BalancePoint
  summary : Summary
  alerts : List Alert
deriving DecidableEq

instance : Json.Codec Report where
  encode r := .record
    [Json.field "projections" r.projections, Json.field "balance_curve" r.curve,
      Json.field "summary" r.summary, Json.field "alerts" r.alerts]
  decode? v := do
    match ← v.slots? ["projections", "balance_curve", "summary", "alerts"] with
    | [projections, curve, summary, alerts] =>
      return {
        projections := ← projections.required
        curve := ← curve.required
        summary := ← summary.required
        alerts := ← alerts.required }
    | _ => none

/-- The next events and the alerts. -/
structure Upcoming where
  events : List Event
  alerts : List Alert
deriving DecidableEq

instance : Json.Codec Upcoming where
  encode u := .record [Json.field "events" u.events, Json.field "alerts" u.alerts]
  decode? v := do
    match ← v.slots? ["events", "alerts"] with
    | [events, alerts] => return { events := ← events.required, alerts := ← alerts.required }
    | _ => none

end Forecast
