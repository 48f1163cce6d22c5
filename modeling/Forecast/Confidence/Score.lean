import Forecast.Confidence.Settings
import Forecast.Decimal.Mean
import Forecast.Event.Basic
import Forecast.Household.Recurring

/-!
# Scores

How sure an event or a day is. A score falls with distance: `decay` takes a share of it off for each
day, holds the rest between the floor and one, and rounds it to two places.

An occurrence of a definition decays with its distance from today. A day decays from the mean of its
events, or from one, with its distance from the start of the window; an occurrence inside a curve
goes through both.
-/

namespace Forecast

/-- A whole number as a decimal, if it is small enough. -/
def Decimal.ofInt? (n : Int) : Option Decimal :=
  Decimal.ofParts? (n < 0) n.natAbs 0

namespace ConfidenceSettings

/-- The floor of all scores: the configured one, but not below the lowest floor there is. -/
def leastScore (s : ConfidenceSettings) : Decimal :=
  max s.floor leastFloor

/-- A score held between the floor and one, with two places. -/
def bounded (s : ConfidenceSettings) (score : Decimal) : Decimal :=
  (min (max score s.leastScore) 1).roundTo 2

/-- What is left of a score at a distance in days. -/
def decay (s : ConfidenceSettings) (score : Decimal) (days : Int) : Checked Decimal := do
  let days ← Checked.ofOption .multiplication (Decimal.ofInt? days)
  let factor ← (1 : Decimal).sub (← days.mul s.decayPerDay)
  return s.bounded (← score.mul factor)

/-- The score of a pending entry, whatever its distance. -/
def pendingScore (s : ConfidenceSettings) : Decimal :=
  s.bounded s.pending

/-- The score a definition's occurrences decay from: its own if it has one, and else by how the
definition came to be known. -/
def baseScore (s : ConfidenceSettings) (r : Recurring) : Decimal :=
  match r.confidence with
  | some stored => stored
  | none =>
    if r.manual then s.manualRecurring
    else if s.establishedOccurrences ≤ r.occurrences then s.autoRecurring
    else s.newRecurring

/-- The score of an occurrence on a date. -/
def occurrenceScore (s : ConfidenceSettings) (r : Recurring) (date today : Date) :
    Checked Decimal :=
  s.decay (s.baseScore r) (date.daysSince today)

/-- The score of a day with the given events at a distance from the start of the window. -/
def dayScore (s : ConfidenceSettings) (events : List Event) (offset : Int) : Checked Decimal := do
  let mean ← if events.isEmpty then pure 1 else Decimal.mean (events.map Event.confidence)
  s.decay mean offset

end ConfidenceSettings

/-- A coarse degree of confidence. -/
inductive ConfidenceLevel
  | high
  | medium
  | low
deriving DecidableEq

instance : Json.Named ConfidenceLevel where
  all := [.high, .medium, .low]
  name
    | .high => "high"
    | .medium => "medium"
    | .low => "low"

namespace ConfidenceLevel

/-- The degree of a score: high from 0.8, medium from 0.5. -/
def ofScore (score : Decimal) : ConfidenceLevel :=
  if Decimal.tenths 8 ≤ score then high
  else if Decimal.tenths 5 ≤ score then medium
  else low

end ConfidenceLevel

/-- A score in whole percent. What is negative or does not fit 32 bits is shown as zero. -/
def percentage (score : Decimal) : Checked Nat := do
  let percent := (← score.mul (.whole 100)).roundTo 0
  return if percent.negative || UInt32.size ≤ percent.mantissa then 0 else percent.mantissa

end Forecast
