import Forecast.Curve.Point

/-!
# Day statuses

What a calendar shows of a day: its balance is negative, low, or has risen since the day before.
-/

namespace Forecast

/-- The status of a day. -/
inductive DayStatus
  | negative
  | warning
  | positive
  | neutral
deriving DecidableEq

instance : Json.Named DayStatus where
  all := [.negative, .warning, .positive, .neutral]
  name
    | .negative => "negative"
    | .warning => "warning"
    | .positive => "positive"
    | .neutral => "neutral"

namespace DayStatus

/-- The status of a day with a balance, the balance of the day before if there is one, and the
balance below which a day is low. -/
def ofBalance (balance : Decimal) (previous : Option Decimal) (threshold : Decimal) : DayStatus :=
  if balance < 0 then negative
  else if balance < threshold then warning
  else if previous.any (· < balance) then positive
  else neutral

/-- The statuses of the days of a curve. -/
def ofCurve (curve : List BalancePoint) (threshold : Decimal) : List DayStatus :=
  List.zipWith (fun p previous => ofBalance p.balance previous threshold) curve
    (none :: curve.map fun p => some p.balance)

end DayStatus

end Forecast
