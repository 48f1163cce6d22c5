import Forecast.Household.Snapshot
import Forecast.Problem

/-!
# Sources

Where the records of households come from. A source is asked three things, and each answer is
records or a problem. Asking may change the source: it has a state, and a source that counts its
calls, fails at times or reads from files is one like any other.
-/

namespace Forecast

/-- A source of records with a state of type `σ`. -/
structure Source (σ : Type) where
  accounts : Uuid → StateM σ (Outcome (List Account))
  /-- The entries in a window on the accounts that pass a filter. -/
  entries : Uuid → Window → Option (List Uuid) → StateM σ (Outcome (List Entry))
  recurring : Uuid → StateM σ (Outcome (List Recurring))

/-- What a source answers while its state stays as it is. -/
structure Records where
  accounts : Uuid → Outcome (List Account)
  entries : Uuid → Window → Option (List Uuid) → Outcome (List Entry)
  recurring : Uuid → Outcome (List Recurring)

/-- The source that answers from its state and leaves it as it is. -/
def Source.reading {σ : Type} (records : σ → Records) : Source σ where
  accounts id s := ((records s).accounts id, s)
  entries id w filter s := ((records s).entries id w filter, s)
  recurring id s := ((records s).recurring id, s)

end Forecast
