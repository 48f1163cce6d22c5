import Forecast.Confidence.Settings

/-!
# Settings

What a projection takes from its user: the balance below which a day is low, how far a projection
and an upcoming view reach, how many events the latter shows, and the confidence settings.
-/

namespace Forecast

/-- The settings of a projection. -/
structure Settings where
  lowBalanceThreshold : Decimal := .whole 500
  defaultWindowDays : UInt32 := 90
  upcomingDays : UInt32 := 7
  upcomingLimit : UInt64 := 10
  confidence : ConfidenceSettings := {}
deriving DecidableEq

namespace Settings

/-- The first flaw of the settings. -/
def flaw? (s : Settings) : Option SettingFlaw :=
  if s.lowBalanceThreshold < 0 then some (.negativeThreshold s.lowBalanceThreshold)
  else s.confidence.flaw?

instance : Json.Codec Settings where
  encode s := .record
    [Json.field "low_balance_threshold" s.lowBalanceThreshold,
      Json.field "default_window_days" s.defaultWindowDays,
      Json.field "upcoming_days" s.upcomingDays, Json.field "upcoming_limit" s.upcomingLimit,
      Json.field "confidence" s.confidence]
  decode? v := do
    match ← v.slots?
        ["low_balance_threshold", "default_window_days", "upcoming_days", "upcoming_limit",
          "confidence"] with
    | [lowBalanceThreshold, defaultWindowDays, upcomingDays, upcomingLimit, confidence] =>
      let standard : Settings := {}
      return {
        lowBalanceThreshold := ← lowBalanceThreshold.defaulted standard.lowBalanceThreshold
        defaultWindowDays := ← defaultWindowDays.defaulted standard.defaultWindowDays
        upcomingDays := ← upcomingDays.defaulted standard.upcomingDays
        upcomingLimit := ← upcomingLimit.defaulted standard.upcomingLimit
        confidence := ← confidence.defaulted standard.confidence }
    | _ => none

end Settings

end Forecast
