import Forecast.Fault
import Forecast.Problem

/-!
# Failures

An operation that reads what it was given and computes with it can meet a problem or stop with a
fault. Its steps are lifted into one kind of result, and the first failure ends it.
-/

namespace Forecast

/-- A problem to report, or a fault of a computation. -/
inductive Failure
  | problem (p : Problem)
  | fault (f : Fault)
deriving DecidableEq

/-- A value, or the failure that kept it from being had. -/
abbrev Attempt := Except Failure

/-- An outcome as an attempt. -/
def Outcome.attempt {α : Type} (r : Outcome α) : Attempt α :=
  r.mapError .problem

/-- A computation as an attempt. -/
def Checked.attempt {α : Type} (r : Checked α) : Attempt α :=
  r.mapError .fault

instance : MonadLift Outcome Attempt := ⟨Outcome.attempt⟩
instance : MonadLift Checked Attempt := ⟨Checked.attempt⟩

end Forecast
