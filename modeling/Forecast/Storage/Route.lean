import Forecast.Storage.Path

/-!
# Routes

A route is the way to a file or folder as it is spelled: names that lead down and two points that lead
back up. It is not a path, since every name on the way must be that of a folder, also one that is left
again at once. Where a route leads thus depends on the file system it is followed in.

## Limits

A name has at most 255 bytes and does not hold the null character, and a route is spelled with at most
4095 bytes. A route is followed as far as a name that is too long, whereas a null character anywhere
in it spoils all of it.
-/

namespace Forecast

/-- A way through a file system, from its top on. -/
structure Route where
  /-- Names, and two points for each step back up. -/
  steps : List String
  /-- The route is spelled with a slash or a single point at its end, and can only lead to a folder. -/
  toFolder : Bool := false
deriving DecidableEq

namespace Route

/-- The way straight down to a path. -/
def ofPath (p : Path) : Route := { steps := p }

instance : Coe Path Route := ⟨ofPath⟩

/-- The step back up. -/
def up : String := ".."

/-- A text that can be the name of a file or folder. -/
def isName (name : String) : Bool :=
  name != up && name.utf8ByteSize ≤ 255 && !name.toList.contains '\x00'

/-- The parts of a spelling that are steps: neither empty nor a single point. -/
def isStep (part : List Char) : Bool :=
  part != [] && part != ['.']

/-- The route that a text spells, seen from a folder. A slash in front leads from the top. -/
def ofText? (base : Path) (s : String) : Option Route :=
  let parts := Path.splitAtSlashes s.toList
  let names := (parts.filter isStep).map String.ofList
  if (Path.join base.toText s).utf8ByteSize ≤ 4095 then
    some
      { steps := if s.toList.head? = some '/' then names else base ++ names
        toFolder := !(parts.getLast?.any isStep) }
  else none

/-- A route that can be followed at all. -/
def isUsable (r : Route) : Bool :=
  r.steps.all fun name => !name.toList.contains '\x00'

/-- The path that one step leads to. The top is above itself. -/
def stepFrom? (p : Path) (name : String) : Option Path :=
  if name = up then some p.dropLast
  else if isName name then some (p ++ [name])
  else none

/-- The route to the folder above. -/
def parent (r : Route) : Route := { steps := r.steps.dropLast }

/-- The route to the staging file: the last name with the extension `tmp`. To this end the extension
it has is cut off the spelling. From a name such as `..old` that leaves a step back up, and the route
then leads to a folder, unless a slash stood behind the name. -/
def staging (r : Route) : Route :=
  match r.steps.getLast? with
  | none => r
  | some name =>
    if name = up then r
    else
      match Path.splitName name with
      | (".", some _) => { steps := r.steps.dropLast ++ [if r.toFolder then "..tmp" else up] }
      | (stem, _) => { steps := r.steps.dropLast ++ [stem ++ ".tmp"] }

theorem parent_ofPath (p : Path) : (ofPath p).parent = ofPath p.dropLast := rfl

theorem stepFrom?_of_isName (p : Path) {name : String} (h : isName name = true) :
    stepFrom? p name = some (p ++ [name]) := by
  have hne : name ≠ up := by
    simp only [isName, Bool.and_eq_true, bne_iff_ne, ne_eq] at h
    exact h.1.1
  simp [stepFrom?, hne, h]

theorem isUsable_ofPath {p : Path} (h : ∀ name ∈ p, isName name = true) :
    (ofPath p).isUsable = true := by
  simp only [isUsable, ofPath, List.all_eq_true]
  intro name hname
  have := h name hname
  simp only [isName, Bool.and_eq_true] at this
  exact this.2

end Route

end Forecast
