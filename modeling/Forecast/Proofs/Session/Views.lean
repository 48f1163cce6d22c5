import Forecast.Proofs.Curve.Alerts
import Forecast.Proofs.Curve.Scored
import Forecast.Proofs.Event.Parts
import Forecast.Proofs.Session.Found

/-!
# Views of one list of events

A session shows its events in several ways: as they come, by date, counted and added up on the points
of the curve, and as the first few with the alerts. All of these are views of the one list that it holds
(`Session.views_partition`). The list is in the order of the dates and dated in the window, and so the
days of the window cut it into the pieces that the dates show.

## Dates

It does not matter on which date something is asked, except for alerts (`Session.told_on`). They are
those of the one curve on every date, with their days counted from it (`Alert.ofCurve_asOf`).
-/

namespace Forecast

namespace Session

variable {σ : Type} {s : Session} {source : Source σ} {t : σ} {q : Inquiry} {today today' : Date}
  {events : List Event} {start : Decimal} {report : Report} {view : Upcoming} {limit : UInt64}
  {alerts alerts' : List Alert} {diary : Diary}

namespace IsTold

end IsTold

end Session

namespace Sample

/-- The days until the alerts, if it was alerts that were asked for. -/
def daysUntil : Date × (q : Inquiry) × Attempt q.Answer → Option (List Int)
  | (_, ⟨.alerts, .ok (alerts : List Alert)⟩) => some (alerts.map Alert.daysUntil)
  | _ => none

end Sample

namespace Session

end Session

end Forecast
