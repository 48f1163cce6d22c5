import Forecast.Curve.Point
import Forecast.Decimal.Arithmetic

/-!
# Comparisons

What a scenario makes of the balance at the end: the difference to two places, and whether it is for
the better. The impact goes by the balances themselves, so a difference that is rounded away still
has one.
-/

namespace Forecast

/-- The direction of a change. -/
inductive Impact
  | positive
  | negative
  | neutral
deriving DecidableEq

instance : Json.Named Impact where
  all := [.positive, .negative, .neutral]
  name
    | .positive => "positive"
    | .negative => "negative"
    | .neutral => "neutral"

/-- The ends of two curves, compared. -/
structure Comparison where
  expected : Decimal
  scenario : Decimal
  difference : Decimal
  impact : Impact
deriving DecidableEq

namespace Comparison

instance : Json.Codec Comparison where
  encode c := .record
    [Json.field "original_ending_balance" c.expected,
      Json.field "scenario_ending_balance" c.scenario, Json.field "difference" c.difference,
      Json.field "impact" c.impact]
  decode? v := do
    match ← v.slots?
        ["original_ending_balance", "scenario_ending_balance", "difference", "impact"] with
    | [expected, scenario, difference, impact] =>
      return {
        expected := ← expected.required
        scenario := ← scenario.required
        difference := ← difference.required
        impact := ← impact.required }
    | _ => none

/-- The direction from one balance to another. -/
def impactOf (expected scenario : Decimal) : Impact :=
  if expected < scenario then .positive
  else if scenario < expected then .negative
  else .neutral

/-- The comparison of two balances. -/
def ofBalances (expected scenario : Decimal) : Checked Comparison := do
  return {
    expected, scenario
    difference := (← scenario.sub expected).roundTo 2
    impact := impactOf expected scenario }

/-- The comparison of the ends of two curves, unless one of them is empty. -/
def between (expected : List BalancePoint) (scenario : List ScenarioPoint) :
    Checked (Option Comparison) :=
  match expected.getLast?, scenario.getLast? with
  | some e, some s => (ofBalances e.balance s.balance).map some
  | _, _ => .ok none

end Comparison

/-- A curve, the curve of a plan, and their comparison. -/
structure WhatIf where
  expected : List BalancePoint
  scenario : List ScenarioPoint
  comparison : Option Comparison
deriving DecidableEq

instance : Json.Codec WhatIf where
  encode o := .record
    [Json.field "original" o.expected, Json.field "scenario" o.scenario,
      Json.field "comparison" o.comparison]
  decode? v := do
    match ← v.slots? ["original", "scenario", "comparison"] with
    | [expected, scenario, comparison] =>
      return {
        expected := ← expected.required
        scenario := ← scenario.required
        comparison := ← comparison.positional }
    | _ => none

end Forecast
