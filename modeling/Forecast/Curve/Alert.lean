import Forecast.Curve.Point
import Forecast.Sorting

/-!
# Alerts

The days of a curve to warn of: the first one with a low balance and the first one with a negative
balance. When both are dated alike one alert is enough, and it is the one for the low balance.
-/

namespace Forecast

/-- What an alert warns of. -/
inductive AlertKind
  | lowBalance
  | overdraft
deriving DecidableEq

instance : Json.Named AlertKind where
  all := [.lowBalance, .overdraft]
  name
    | .lowBalance => "low_balance"
    | .overdraft => "overdraft"

/-- How bad it is. -/
inductive Severity
  | warning
  | critical
deriving DecidableEq

instance : Json.Named Severity where
  all := [.warning, .critical]
  name
    | .warning => "warning"
    | .critical => "critical"

namespace Severity

/-- A warning is less severe than something critical. -/
def rank : Severity → Nat
  | warning => 0
  | critical => 1

/-- The severities from the least severe on. -/
def sorted (list : List Severity) : List Severity :=
  stableSort (fun a b => a.rank ≤ b.rank) list

end Severity

/-- A warning about a day. -/
structure Alert where
  kind : AlertKind
  date : Date
  balance : Decimal
  /-- The balance below which a day is low, in the alert for such a day. -/
  threshold : Option Decimal := none
  severity : Severity
  /-- The distance from today, negative for days that have passed. -/
  daysUntil : Int
deriving DecidableEq

namespace Alert

instance : Json.Codec Alert where
  encode a := .record
    [Json.field "kind" a.kind, Json.field "date" a.date,
      Json.field "projected_balance" a.balance, Json.fieldIfSome "threshold" a.threshold,
      Json.field "severity" a.severity, Json.field "days_until" a.daysUntil]
  decode? v := do
    match ← v.slots?
        ["kind", "date", "projected_balance", "threshold", "severity", "days_until"] with
    | [kind, date, balance, threshold, severity, daysUntil] =>
      return {
        kind := ← kind.required
        date := ← date.required
        balance := ← balance.required
        threshold := ← threshold.optional
        severity := ← severity.required
        daysUntil := ← daysUntil.required }
    | _ => none

/-- The alert for a day with a low balance. -/
def low (p : BalancePoint) (threshold : Decimal) (today : Date) : Alert where
  kind := .lowBalance
  date := p.date
  balance := p.balance
  threshold := some threshold
  severity := if p.balance < 0 then .critical else .warning
  daysUntil := p.date.daysSince today

/-- The alert for a day with a negative balance. -/
def negative (p : BalancePoint) (today : Date) : Alert where
  kind := .overdraft
  date := p.date
  balance := p.balance
  severity := .critical
  daysUntil := p.date.daysSince today

/-- The alerts of a curve, by date. -/
def ofCurve (curve : List BalancePoint) (threshold : Decimal) (today : Date) : List Alert :=
  let lows := ((curve.find? fun p => p.balance < threshold).map fun p => low p threshold today).toList
  let negatives := ((curve.find? fun p => p.balance < 0).map fun p => negative p today).toList
  stableSort (fun a b => a.date ≤ b.date)
    (lows ++ negatives.filter fun n => !lows.any fun l => l.date == n.date)

end Alert

end Forecast
