/-!
# Faults

A computation on money or dates can leave what the library can represent. Such a computation has
no value and no error to report to a caller: it stops with a fault that names the operation. Every
function that may stop so answers in `Checked`, and the first fault in the order of the computation
is the one that is seen.
-/

namespace Forecast

/-- Why a computation has no value. -/
inductive Fault
  /-- A date moved past the last date of the calendar. -/
  | dateAddition
  /-- A date moved before the first date of the calendar. -/
  | dateSubtraction
  /-- A sum of amounts too large for a decimal. -/
  | addition
  /-- A difference of amounts too large for a decimal. -/
  | subtraction
  /-- A product too large for a decimal. -/
  | multiplication
  /-- A sequence of dates that stands still before it passes the end it runs to. -/
  | endless
deriving DecidableEq, Repr

/-- A value, or the fault that kept it from being computed. -/
abbrev Checked := Except Fault

/-- The value if there is one, and the given fault otherwise. -/
def Checked.ofOption {α : Type} (fault : Fault) : Option α → Checked α
  | some a => .ok a
  | none => .error fault

@[simp] theorem Checked.ofOption_some {α : Type} (fault : Fault) (a : α) :
    Checked.ofOption fault (some a) = .ok a := rfl

@[simp] theorem Checked.ofOption_none {α : Type} (fault : Fault) :
    Checked.ofOption fault (none : Option α) = .error fault := rfl

end Forecast
