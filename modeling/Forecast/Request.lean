import Forecast.Calendar.Monthly
import Forecast.Failure
import Forecast.Household.Account

/-!
# Requests

A request says which household is projected over which window, and which of its accounts count. An
empty list of accounts means that all do, and is stored as no filter wherever a request is built.

## Two ways to read a request

A request in JSON is read by its codec, which takes an inverted window for malformed, or by
`ofJson`, which reports it as an inverted range. From parameters it is read by `ofParams`: a blank
parameter counts as absent and falls back to a default.
-/

namespace Forecast

/-- The household, window and accounts of a projection. -/
structure Request where
  household : Uuid
  window : Window
  accounts : Option (List Uuid) := none
deriving DecidableEq

namespace Request

instance : Json.Codec Request where
  encode r := .record
    [Json.field "family_id" r.household, Json.field "window" r.window,
      Json.fieldIfSome "account_ids" r.accounts]
  decode? v := do
    match ← v.slots? ["family_id", "window", "account_ids"] with
    | [household, window, accounts] =>
      return {
        household := ← household.required
        window := ← window.required
        accounts := ← accounts.optional }
    | _ => none

/-- The request restricted to the given accounts; an empty list is no restriction. -/
def withAccounts (r : Request) (accounts : List Uuid) : Request :=
  { r with accounts := if accounts.isEmpty then none else some accounts }

/-- The request for the days from today on that the settings say. -/
def standard (household : Uuid) (today : Date) (settings : Settings) : Checked Request := do
  return { household, window := ← Window.reaching today settings.defaultWindowDays.toNat }

/-- The request for a number of days from today on. -/
def upcoming (household : Uuid) (today : Date) (days : UInt32) : Checked Request := do
  return { household, window := ← Window.reaching today days.toNat }

/-- The window between two dates, or the problem that they are the wrong way round. -/
def windowBetween (first last : Date) : Outcome Window :=
  match Window.make? first last with
  | some w => .ok w
  | none => .error (.invertedRange first last)

/-- Reads a date parameter. An absent or blank one is none. -/
def readDate (raw : Option String) : Outcome (Option Date) :=
  let cs := Text.trim ((raw.getD "").toList)
  if cs.isEmpty then .ok none
  else
    match Date.readChars false cs with
    | .ok d => .ok (some d)
    | .error flaw => .error (.badDate (String.ofList cs) flaw)

/-- Reads a request from parameters. The first day falls back to today and the last to the default
distance from today. -/
def ofParams (household : Uuid) (first last : Option String) (accounts : Option (List Uuid))
    (today : Date) (settings : Settings) : Attempt Request := do
  let first := (← readDate first).getD today
  let last ← match ← readDate last with
    | some d => pure d
    | none => today.addDays settings.defaultWindowDays.toNat
  let window ← windowBetween first last
  return ({ household, window : Request }).withAccounts (accounts.getD [])

/-- A request as it is written, with the ends of its window in any order. -/
structure Draft where
  household : Uuid
  ends : Window.Ends
  accounts : Option (List Uuid)
deriving DecidableEq

instance : Json.Codec Draft where
  encode r := .record
    [Json.field "family_id" r.household, Json.field "window" r.ends,
      Json.fieldIfSome "account_ids" r.accounts]
  decode? v := do
    match ← v.slots? ["family_id", "window", "account_ids"] with
    | [household, ends, accounts] =>
      return {
        household := ← household.required
        ends := ← ends.required
        accounts := ← accounts.optional }
    | _ => none

/-- Reads a request in JSON, reporting an inverted window. -/
def ofJson (s : String) : Outcome Request := do
  let draft : Draft ← Outcome.ofJson s
  let window ← windowBetween draft.ends.first draft.ends.last
  return ({ household := draft.household, window : Request }).withAccounts (draft.accounts.getD [])

end Request

end Forecast
