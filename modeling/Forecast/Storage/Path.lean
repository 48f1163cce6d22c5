/-!
# Paths

A path is a place in a file system: the list of names from its top down. A folder that is given from
outside, such as a user's home, is a text that is only joined with names and shown.

The extension of a name is what stands behind its last point; a name that starts with its only point
has none.
-/

namespace Forecast

/-- The names on the way from the top of a file system down to a file or folder. The top itself is
the empty path. -/
abbrev Path := List String

namespace Path

/-- The path as a text with slashes. -/
def toText (p : Path) : String :=
  String.intercalate "/" p

/-- A text cut at each slash. -/
def splitAtSlashes : List Char → List (List Char)
  | [] => [[]]
  | c :: cs =>
    if c = '/' then [] :: splitAtSlashes cs
    else
      match splitAtSlashes cs with
      | [] => [[c]]
      | name :: names => (c :: name) :: names

/-- The stem and the extension of a name. -/
def splitName (name : String) : String × Option String :=
  let cs := name.toList
  let extension := (cs.reverse.takeWhile (· != '.')).reverse
  let stem := cs.take (cs.length - extension.length - 1)
  if extension.length = cs.length ∨ stem = [] then (name, none)
  else (String.ofList stem, some (String.ofList extension))

/-- A location with a name behind it. A slash comes between them unless there is one already. -/
def join (base name : String) : String :=
  if base.isEmpty || base.toList.getLast? == some '/' then base ++ name else base ++ "/" ++ name

end Path

end Forecast
