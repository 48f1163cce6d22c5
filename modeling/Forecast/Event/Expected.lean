import Forecast.Confidence.Score
import Forecast.Request

/-!
# Expected events

The events of a request: one for each pending entry and one for each occurrence of each definition
that is active and not paused. Entries come first, each in the order given, and the whole is sorted
by date and flow.
-/

namespace Forecast

/-- What decides which events are expected and how sure they are. -/
structure Outlook where
  request : Request
  confidence : ConfidenceSettings
  today : Date

namespace Outlook

/-- The event of a pending entry. -/
def entryEvent (o : Outlook) (e : Entry) : Event :=
  .of e.date e.classification e.amount e.name o.confidence.pendingScore .pending (some e.id)

/-- The events of the pending entries in the window on the accounts of the request. -/
def pendingEvents (o : Outlook) (entries : List Entry) : List Event :=
  (entries.filter fun e => e.pending && e.isWithin o.request.window o.request.accounts).map
    o.entryEvent

/-- The event of an occurrence of a definition. -/
def occurrenceEvent (o : Outlook) (r : Recurring) (date : Date) : Checked Event := do
  let score ← o.confidence.occurrenceScore r date o.today
  let event := Event.of date (.ofSigned r.expectedAmount) r.expectedAmount r.displayName score
    .recurring (some r.id)
  return { event with definition := some r.id, least := r.least, greatest := r.greatest }

/-- The events of a definition. -/
def definitionEvents (o : Outlook) (r : Recurring) : Checked (List Event) := do
  (← r.series.dates o.request.window).mapM (o.occurrenceEvent r)

/-- The events of the definitions that are active and not paused. -/
def recurringEvents (o : Outlook) (definitions : List Recurring) : Checked (List Event) := do
  let expected := definitions.filter fun r => r.isActive && !r.isPaused o.today
  return (← expected.mapM o.definitionEvents).flatten

/-- All expected events in order. -/
def events (o : Outlook) (entries : List Entry) (definitions : List Recurring) :
    Checked (List Event) := do
  return Event.sorted (o.pendingEvents entries ++ (← o.recurringEvents definitions))

end Outlook

end Forecast
