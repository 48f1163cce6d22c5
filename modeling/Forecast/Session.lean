import Forecast.Curve.Alert
import Forecast.Curve.Daily
import Forecast.Event.Expected
import Forecast.Report
import Forecast.Scenario.Comparison
import Forecast.Scenario.Plan
import Forecast.Source.Basic

/-!
# Sessions

A session answers everything about one request. It asks its source only when it must: the starting
balance and the list of events are found on first use and kept. What could not be found is not kept,
so that asking again may succeed.

## Order of calls

The events are found before the starting balance, and the entries before the definitions. The first
failure ends an operation; what was kept before it stays kept.

## The clock

The date is read anew whenever something is asked, while what was found is kept. Events stay as they
were expected on the date on which they were found, whereas alerts count their days from the date on
which they are told. `Session.on` is the session on another date.
-/

namespace Forecast

/-- What is asked for, under which settings, and on which date. -/
structure Session where
  request : Request
  settings : Settings
  /-- What the clock says when something is asked. -/
  today : Date

/-- What a session has found so far. -/
structure Memo where
  startingBalance : Option Decimal := none
  events : Option (List Event) := none
deriving DecidableEq

/-- An operation of a session over a source with a state of type `σ`. -/
abbrev Operation (σ : Type) := ExceptT Failure (StateM (Memo × σ))

namespace Operation

variable {σ α : Type}

/-- Asks the source. -/
def fetch (ask : StateM σ (Outcome α)) : Operation σ α :=
  ExceptT.mk fun (memo, s) =>
    let (answer, s) := ask s
    (answer.attempt, (memo, s))

/-- Computes. -/
def compute (value : Checked α) : Operation σ α :=
  ExceptT.mk fun s => (value.attempt, s)

/-- What has been found so far. -/
def memo : Operation σ Memo :=
  ExceptT.mk fun s => (.ok s.1, s)

/-- Keeps what has been found. -/
def keep (change : Memo → Memo) : Operation σ Unit :=
  ExceptT.mk fun (memo, s) => (.ok (), (change memo, s))

end Operation

namespace Session

variable {σ : Type}

/-- The session on a date. -/
def on (s : Session) (today : Date) : Session := { s with today }

/-- What decides which events are expected. -/
def outlook (s : Session) : Outlook :=
  { request := s.request, confidence := s.settings.confidence, today := s.today }

/-- What the accounts of the request hold before the first event. -/
def startingBalance (s : Session) (source : Source σ) : Operation σ Decimal := do
  match (← Operation.memo).startingBalance with
  | some balance => return balance
  | none =>
    let accounts ← Operation.fetch (source.accounts s.request.household)
    let balance ← Operation.compute (Account.holdings accounts s.request.accounts)
    Operation.keep fun memo => { memo with startingBalance := some balance }
    return balance

/-- The expected events in order. -/
def projections (s : Session) (source : Source σ) : Operation σ (List Event) := do
  match (← Operation.memo).events with
  | some events => return events
  | none =>
    let entries ← Operation.fetch
      (source.entries s.request.household s.request.window s.request.accounts)
    let definitions ← Operation.fetch (source.recurring s.request.household)
    let events ← Operation.compute (s.outlook.events entries definitions)
    Operation.keep fun memo => { memo with events := some events }
    return events

/-- The curve of the expected events. -/
def curve (s : Session) (source : Source σ) : Operation σ (List BalancePoint) := do
  let events ← s.projections source
  let start ← s.startingBalance source
  Operation.compute (balanceCurve events s.request.window start s.settings.confidence)

/-- The totals, with the end of the given curve. -/
def summaryOf (s : Session) (source : Source σ) (curve : List BalancePoint) :
    Operation σ Summary := do
  let events ← s.projections source
  let start ← s.startingBalance source
  Operation.compute (Summary.of events curve start s.request.window)

/-- The alerts of the given curve. -/
def alertsOf (s : Session) (curve : List BalancePoint) : List Alert :=
  Alert.ofCurve curve s.settings.lowBalanceThreshold s.today

/-- The totals. -/
def summary (s : Session) (source : Source σ) : Operation σ Summary := do
  s.summaryOf source (← s.curve source)

/-- The alerts. -/
def alerts (s : Session) (source : Source σ) : Operation σ (List Alert) := do
  return s.alertsOf (← s.curve source)

/-- Everything about the projection. -/
def report (s : Session) (source : Source σ) : Operation σ Report := do
  let curve ← s.curve source
  let summary ← s.summaryOf source curve
  return { projections := ← s.projections source, curve, summary, alerts := s.alertsOf curve }

/-- The events of a date. -/
def projectionsOn (s : Session) (source : Source σ) (date : Date) : Operation σ (List Event) := do
  return (← s.projections source).filter fun e => e.date == date

/-- The curve of other events from the same starting balance. -/
def scenarioOf (s : Session) (source : Source σ) (events : List Event) :
    Operation σ (List ScenarioPoint) := do
  let start ← s.startingBalance source
  Operation.compute (scenarioCurve events s.request.window start)

/-- The curve with one more transaction. -/
def scenarioWith (s : Session) (source : Source σ) (amount : Decimal) (date : Date) (flow : Flow)
    (description : String) : Operation σ (List ScenarioPoint) := do
  let events ← s.projections source
  s.scenarioOf source (Event.withAdded events (.hypothetical date flow amount description))

/-- The curve without a definition. -/
def scenarioWithout (s : Session) (source : Source σ) (definition : Uuid) :
    Operation σ (List ScenarioPoint) := do
  let events ← s.projections source
  s.scenarioOf source (Event.withoutDefinition events definition)

/-- The curve of a plan, given the curve without it. -/
def planned (s : Session) (source : Source σ) (expected : List BalancePoint) :
    Plan → Operation σ (List ScenarioPoint)
  | .addTransaction amount date flow description =>
    s.scenarioWith source amount date flow description
  | .removeRecurring definition => s.scenarioWithout source definition
  | .baseline => return expected.map BalancePoint.toScenarioPoint

/-- The curve of a plan, compared with the curve without it. -/
def run (s : Session) (source : Source σ) (plan : Plan) : Operation σ WhatIf := do
  let expected ← s.curve source
  let scenario ← s.planned source expected plan
  let comparison ← Operation.compute (Comparison.between expected scenario)
  return { expected, scenario, comparison }

/-- The first events of the window, at most `limit`, with the alerts. -/
def upcoming (s : Session) (source : Source σ) (limit : UInt64) : Operation σ Upcoming := do
  let events ← s.projections source
  return { events := events.take limit.toNat, alerts := ← s.alerts source }

/-- As many upcoming events as the settings say. -/
def upcomingStandard (s : Session) (source : Source σ) : Operation σ Upcoming :=
  s.upcoming source s.settings.upcomingLimit

end Session

end Forecast
