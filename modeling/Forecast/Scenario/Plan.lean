import Forecast.Event.Basic
import Forecast.Json.Finite
import Forecast.Json.Record
import Forecast.Text.Blank

/-!
# Plans

A plan is a hypothetical change to a projection: one more transaction, a definition dropped, or
nothing at all.

## Reading

A plan is written as an object that names its kind in the member `type`, at any place, or as an array
that starts with the kind. A reader cannot know the kind before it has seen the whole, so here even
what is skipped must be sound: every literal a text, every number finite, and no more than 127
containers inside one another. The flow of a transaction may also be written as an object with an
empty object in it.
-/

namespace Forecast

namespace Json

namespace Value

mutual

/-- Every literal in the value is a text, every number is finite, and at most `depth` containers lie
inside one another. -/
def isSound (depth : Nat) : Value → Bool
  | null | bool _ => true
  | number n => n.isFinite
  | text s => s.isSome
  | array items =>
    match depth with
    | 0 => false
    | depth + 1 => areSoundItems depth items
  | object members =>
    match depth with
    | 0 => false
    | depth + 1 => areSoundMembers depth members

/-- The same for all items of an array. -/
def areSoundItems (depth : Nat) : List Value → Bool
  | [] => true
  | v :: vs => v.isSound depth && areSoundItems depth vs

/-- The same for all members of an object. -/
def areSoundMembers (depth : Nat) : List (Literal × Value) → Bool
  | [] => true
  | (k, v) :: ms => k.isSome && v.isSound depth && areSoundMembers depth ms

end

/-- An empty object. -/
def isEmptyObject : Value → Bool
  | object [] => true
  | _ => false

end Value

end Json

/-- A hypothetical change. -/
inductive Plan
  | addTransaction (amount : Decimal) (date : Date) (flow : Flow) (description : String)
  | removeRecurring (definition : Uuid)
  | baseline
deriving DecidableEq

namespace Plan

/-- Reads a plan of a known kind from the value that holds its fields. -/
def ofFields? (kind : String) (fields : Json.Value) : Option Plan :=
  match kind with
  | "add_transaction" => do
    match ← fields.slots? ["amount", "date", "kind", "description"] with
    | [amount, date, .given flow, description] =>
      let name ← flow.choiceName? fun v => v.isNull || v.isEmptyObject
      return .addTransaction (← amount.required) (← date.required) (← Json.Named.ofName? name)
        (← description.required)
    | _ => none
  | "remove_recurring" => do
    match ← fields.slots? ["recurring_id"] with
    | [definition] => return .removeRecurring (← definition.required)
    | _ => none
  | "baseline" => (fields.slots? []).map fun _ => .baseline
  | _ => none

instance : Json.Codec Plan where
  encode
    | .addTransaction amount date flow description => .record
      [Json.field "type" "add_transaction", Json.field "amount" amount, Json.field "date" date,
        Json.field "kind" flow, Json.field "description" description]
    | .removeRecurring definition => .record
      [Json.field "type" "remove_recurring", Json.field "recurring_id" definition]
    | .baseline => .record [Json.field "type" "baseline"]
  decode? v :=
    if v.isSound 127 then
      match v with
      | .object members =>
        match Json.Slot.ofMembers? members "type" with
        | some (.given (.text (some kind))) => ofFields? kind v
        | _ => none
      | .array (.text (some kind) :: fields) => ofFields? kind (.array fields)
      | _ => none
    else none

/-- How a hypothetical transaction is described unless it has a description of its own. -/
def standardDescription : String := "Hypothetical transaction"

/-- The plan that adds a transaction with a signed amount: what is negative comes in. A description
of blanks alone counts as none. -/
def addSigned (amount : Decimal) (date : Date) (description : Option String) : Plan :=
  .addTransaction amount.abs date (.ofSigned amount)
    ((description.filter fun s => !(Text.trim s.toList).isEmpty).getD standardDescription)

end Plan

namespace Event

/-- The events with a hypothetical one behind the others of its day. -/
def withAdded (events : List Event) (added : Event) : List Event :=
  sortedByDate (events ++ [added])

/-- The events without the occurrences of a definition. -/
def withoutDefinition (events : List Event) (definition : Uuid) : List Event :=
  events.filter fun e => !e.isOccurrenceOf definition

end Event

end Forecast
