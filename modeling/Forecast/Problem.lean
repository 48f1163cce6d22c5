import Forecast.Calendar.DateText
import Forecast.Settings
import Forecast.Uuid

/-!
# Problems

What can go wrong with what a caller or a store hands over. A problem names its cause; the wording is
in `Problem.message`.
-/

namespace Forecast

/-- Why a store cannot be used. -/
inductive StorageCause
  /-- The file system refused. -/
  | files
  /-- A snapshot file holds the records of another household. -/
  | foreign (path : String) (owner : Uuid)
  /-- A reason in words. -/
  | reported (text : String)
deriving DecidableEq

/-- What can go wrong. -/
inductive Problem
  | invertedRange (first last : Date)
  | badDate (text : String) (flaw : DateFlaw)
  | unknownHousehold (id : Uuid)
  | storage (cause : StorageCause)
  /-- A text is not the JSON form of what it should be. -/
  | malformed
  | badSettings (flaw : SettingFlaw)
deriving DecidableEq

/-- What is reported of a cause. -/
def StorageCause.message : StorageCause → String
  | files => "file system failure"
  | foreign path owner => s!"snapshot `{path}` belongs to household {owner}"
  | reported text => text

/-- What is reported of a problem. -/
def Problem.message : Problem → String
  | invertedRange first last => s!"Invalid date range: start {first} is after end {last}"
  | badDate text flaw => s!"Invalid date: `{text}`: {flaw.message}"
  | unknownHousehold id => s!"Household not found: {id}"
  | storage cause => s!"Storage error: {cause.message}"
  | malformed => "Serialization error: not the expected JSON form"
  | badSettings flaw => s!"Configuration error: {flaw.message}"

/-- A value, or the problem that kept it from being had. -/
abbrev Outcome := Except Problem

/-- A JSON text as a value of the type. -/
def Outcome.ofJson {α : Type} [Json.Codec α] (s : String) : Outcome α :=
  match Json.read? s with
  | some a => .ok a
  | none => .error .malformed

/-- Settings without a flaw. -/
def Settings.check (s : Settings) : Outcome Unit :=
  match s.flaw? with
  | some flaw => .error (.badSettings flaw)
  | none => .ok ()

end Forecast
