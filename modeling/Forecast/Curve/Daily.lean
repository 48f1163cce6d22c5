import Forecast.Confidence.Score
import Forecast.Curve.Point

/-!
# Daily curves

A curve has a point for each day of a window. It is walked from the first day on with the running
balance: the day's events are summed, the sum is added to the balance, and the point is made. Both
kinds of curve are the same walk with another way to make a point.
-/

namespace Forecast

/-- A walk along a window: the balance so far and the points made, in reverse. -/
structure Walk (π : Type) where
  balance : Decimal
  points : List π

namespace Walk

variable {π : Type}

/-- Goes on by one day. The point is made from the day, its events, its net change and the balance
at its end. -/
def step (days : Event.Days) (point : Date → List Event → Decimal → Decimal → Checked π)
    (walk : Walk π) (day : Date) : Checked (Walk π) := do
  let events := days.on day
  let net ← Event.netChange events
  let balance ← walk.balance.add net
  let p ← point day events net balance
  return { balance, points := p :: walk.points }

/-- The points of all days of a window. -/
def along (events : List Event) (w : Window) (start : Decimal)
    (point : Date → List Event → Decimal → Decimal → Checked π) : Checked (List π) := do
  let walk ← w.days.foldlM (step (Event.byDay events) point) { balance := start, points := [] }
  return walk.points.reverse

end Walk

/-- The curve of a projection. -/
def balanceCurve (events : List Event) (w : Window) (start : Decimal) (s : ConfidenceSettings) :
    Checked (List BalancePoint) :=
  Walk.along events w start fun date es net balance => do
    return {
      date, balance
      confidence := ← s.dayScore es (w.offsetOf date)
      netChange := net
      eventCount := es.length }

/-- The curve of a scenario. -/
def scenarioCurve (events : List Event) (w : Window) (start : Decimal) :
    Checked (List ScenarioPoint) :=
  Walk.along events w start fun date es net balance =>
    .ok { date, balance, netChange := net, eventCount := es.length }

end Forecast
