import Forecast.Decimal.Text
import Forecast.Json.Record

/-!
# Settings of the confidence scores

The scores that events start from, how fast they fall with distance, and the floor below which they
do not fall. Every setting has a default, so that a stored text may hold any part of them.

## Checks

Scores and floor must lie between 0 and 1, the floor no lower than `leastFloor`, and the decay must
not be negative. `flaw?` gives the first check that fails.
-/

namespace Forecast

/-- The lowest confidence that any score can have. -/
def leastFloor : Decimal := .tenths 3

/-- The scores and the decay of the confidence model. -/
structure ConfidenceSettings where
  pending : Decimal := .hundredths 95
  autoRecurring : Decimal := .hundredths 85
  manualRecurring : Decimal := .hundredths 70
  newRecurring : Decimal := .hundredths 50
  /-- How often a detected definition must have been seen to count as established. -/
  establishedOccurrences : UInt32 := 3
  decayPerDay : Decimal := .thousandths 2
  floor : Decimal := leastFloor
deriving DecidableEq

/-- Why settings are refused, with the value that is at fault. -/
inductive SettingFlaw
  | negativeThreshold (value : Decimal)
  | scoreOutOfRange (name : String) (value : Decimal)
  | floorTooLow (value : Decimal)
  | negativeDecay (value : Decimal)
deriving DecidableEq

/-- What is reported of a flaw. -/
def SettingFlaw.message : SettingFlaw → String
  | negativeThreshold value => s!"low_balance_threshold must not be negative, got {value}"
  | scoreOutOfRange name value => s!"confidence.{name} must lie in [0, 1], got {value}"
  | floorTooLow value => s!"confidence.floor must be at least {leastFloor}, got {value}"
  | negativeDecay value => s!"confidence.decay_per_day must not be negative, got {value}"

namespace ConfidenceSettings

/-- The settings that must lie between 0 and 1, in the order in which they are checked. -/
def scores (s : ConfidenceSettings) : List (String × Decimal) :=
  [("pending", s.pending), ("auto_recurring", s.autoRecurring),
    ("manual_recurring", s.manualRecurring), ("new_recurring", s.newRecurring), ("floor", s.floor)]

/-- A score lies between 0 and 1. -/
def isScore (d : Decimal) : Bool :=
  0 ≤ d && d ≤ 1

/-- The first flaw of the settings. -/
def flaw? (s : ConfidenceSettings) : Option SettingFlaw :=
  match s.scores.find? fun score => !isScore score.2 with
  | some (name, value) => some (.scoreOutOfRange name value)
  | none =>
    if s.floor < leastFloor then some (.floorTooLow s.floor)
    else if s.decayPerDay < 0 then some (.negativeDecay s.decayPerDay)
    else none

instance : Json.Codec ConfidenceSettings where
  encode s := .record
    [Json.field "pending" s.pending, Json.field "auto_recurring" s.autoRecurring,
      Json.field "manual_recurring" s.manualRecurring, Json.field "new_recurring" s.newRecurring,
      Json.field "established_occurrences" s.establishedOccurrences,
      Json.field "decay_per_day" s.decayPerDay, Json.field "floor" s.floor]
  decode? v := do
    match ← v.slots?
        ["pending", "auto_recurring", "manual_recurring", "new_recurring",
          "established_occurrences", "decay_per_day", "floor"] with
    | [pending, autoRecurring, manualRecurring, newRecurring, establishedOccurrences, decayPerDay,
        floor] =>
      let standard : ConfidenceSettings := {}
      return {
        pending := ← pending.defaulted standard.pending
        autoRecurring := ← autoRecurring.defaulted standard.autoRecurring
        manualRecurring := ← manualRecurring.defaulted standard.manualRecurring
        newRecurring := ← newRecurring.defaulted standard.newRecurring
        establishedOccurrences :=
          ← establishedOccurrences.defaulted standard.establishedOccurrences
        decayPerDay := ← decayPerDay.defaulted standard.decayPerDay
        floor := ← floor.defaulted standard.floor }
    | _ => none

end ConfidenceSettings

end Forecast
