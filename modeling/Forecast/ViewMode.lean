import Forecast.Calendar.Monthly
import Forecast.Json.Codec
import Forecast.Text.Blank

/-!
# View modes

The ranges a calendar view offers: a day, a week, the rest of a month, or the next thirty days.
-/

namespace Forecast

/-- A range of a calendar view. -/
inductive ViewMode
  | day
  | week
  | month
  | rolling
deriving DecidableEq

namespace ViewMode

instance : Json.Named ViewMode where
  all := [.day, .week, .month, .rolling]
  name
    | .day => "day"
    | .week => "week"
    | .month => "month"
    | .rolling => "rolling"

/-- The mode of a name in any case and with blanks around it. Any other text is the rolling view. -/
def ofText (s : String) : ViewMode :=
  (Json.Named.ofName? (String.ofList ((Text.trim s.toList).map Char.toLower))).getD rolling

/-- The window of the mode that starts on a date. -/
def windowFrom (m : ViewMode) (start : Date) : Checked Window :=
  match m with
  | day => Window.reaching start 0
  | week => Window.reaching start 6
  | month => .ok (Window.toEndOfMonth start)
  | rolling => Window.reaching start 30

end ViewMode

end Forecast
