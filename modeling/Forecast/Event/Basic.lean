import Forecast.Household.Entry
import Forecast.Sorting

/-!
# Events

A movement of money that is expected on a date, with a score for how sure it is. The amount is a
magnitude and the flow gives its direction; an event that is read from JSON keeps the amount as it
was written.

## Order

Events are shown by date, income before expenses, and otherwise in the order in which they were
found. A hypothetical event is put in by date alone, behind the others of its day.
-/

namespace Forecast

/-- Where an event comes from. -/
inductive Origin
  | pending
  | recurring
  | scenario
deriving DecidableEq

instance : Json.Named Origin where
  all := [.pending, .recurring, .scenario]
  name
    | .pending => "pending"
    | .recurring => "recurring"
    | .scenario => "scenario"

/-- An expected movement of money. -/
structure Event where
  date : Date
  flow : Flow
  amount : Decimal
  description : String
  confidence : Decimal
  origin : Origin
  originId : Option Uuid := none
  definition : Option Uuid := none
  least : Option Decimal := none
  greatest : Option Decimal := none
deriving DecidableEq

namespace Event

instance : Json.Codec Event where
  encode e := .record
    [Json.field "date" e.date, Json.field "kind" e.flow, Json.field "amount" e.amount,
      Json.field "description" e.description, Json.field "confidence" e.confidence,
      Json.field "origin" e.origin, Json.field "origin_id" e.originId,
      Json.fieldIfSome "recurring_ref" e.definition, Json.fieldIfSome "amount_min" e.least,
      Json.fieldIfSome "amount_max" e.greatest]
  decode? v := do
    match ← v.slots?
        ["date", "kind", "amount", "description", "confidence", "origin", "origin_id",
          "recurring_ref", "amount_min", "amount_max"] with
    | [date, flow, amount, description, confidence, origin, originId, definition, least,
        greatest] =>
      return {
        date := ← date.required
        flow := ← flow.required
        amount := ← amount.required
        description := ← description.required
        confidence := ← confidence.required
        origin := ← origin.required
        originId := ← originId.positional
        definition := ← definition.optional
        least := ← least.optional
        greatest := ← greatest.optional }
    | _ => none

/-- An event with the magnitude of an amount. -/
def of (date : Date) (flow : Flow) (amount : Decimal) (description : String)
    (confidence : Decimal) (origin : Origin) (originId : Option Uuid) : Event :=
  { date, flow, amount := amount.abs, description, confidence, origin, originId }

/-- A hypothetical event, which is sure. -/
def hypothetical (date : Date) (flow : Flow) (amount : Decimal) (description : String) : Event :=
  of date flow amount description 1 .scenario none

/-- The amount with its direction: what comes in is positive. -/
def signedAmount (e : Event) : Decimal :=
  match e.flow with
  | .income => e.amount
  | .expense => -e.amount

/-- The event is an occurrence of a definition. -/
def isOccurrenceOf (e : Event) (definition : Uuid) : Bool :=
  e.origin == .recurring && e.originId == some definition

/-- One event does not come after the other by date. -/
def dateLe (a b : Event) : Bool :=
  a.date ≤ b.date

/-- One event does not come after the other by date and flow. -/
def le (a b : Event) : Bool :=
  a.date < b.date || (a.date == b.date && a.flow.rank ≤ b.flow.rank)

/-- The events by date, income before expenses. -/
def sorted (events : List Event) : List Event :=
  stableSort le events

/-- The events by date alone. -/
def sortedByDate (events : List Event) : List Event :=
  stableSort dateLe events

/-- The sum of the signed amounts. -/
def netChange (events : List Event) : Checked Decimal :=
  Decimal.sum (events.map signedAmount)

/-! ## Events by day -/

/-- The days that have events, in order, each with its events as they came. -/
abbrev Days := List (Date × List Event)

/-- Adds an event behind the others of its day. -/
def addToDay (e : Event) : Days → Days
  | [] => [(e.date, [e])]
  | (d, es) :: days =>
    if e.date < d then (e.date, [e]) :: (d, es) :: days
    else if e.date = d then (d, es ++ [e]) :: days
    else (d, es) :: addToDay e days

/-- The events by day. -/
def byDay (events : List Event) : Days :=
  events.foldl (fun days e => addToDay e days) []

/-- The events of a day. -/
def Days.on (days : Days) (d : Date) : List Event :=
  ((days.find? fun day => day.1 == d).map Prod.snd).getD []

end Event

end Forecast
