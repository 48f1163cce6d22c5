import Forecast.Json.Codec

/-!
# Records

A record is written as an object with its fields in order, leaving out the fields it does not have.
It is read from an object in any order or from an array of its fields in order.

## Reading

In an object every key must be a text, a field may come at most once, and members that are no field
are skipped whatever they hold. An array may end early but not have more items than there are
fields. What a field makes of its slot is up to the field:

* a required field must be given;
* a field with a default need not be, but cannot be `null`;
* an optional field may be left out or be `null`; a *positional* one cannot be cut off from an array.
-/

namespace Forecast.Json

/-- What a record holds for a field. -/
inductive Slot
  /-- An object without the field. -/
  | absent
  /-- An array that ends before the field. -/
  | cutOff
  | given (v : Value)

namespace Slot

/-- A field that must be given. -/
def required {α : Type} [Codec α] : Slot → Option α
  | given v => decode? v
  | _ => none

/-- A field with a default for when it is not given. -/
def defaulted {α : Type} [Codec α] (default : α) : Slot → Option α
  | given v => decode? v
  | _ => some default

/-- A field that may be missing or `null`. -/
def optional {α : Type} [Codec α] : Slot → Option (Option α)
  | given v => decode? v
  | _ => some none

/-- A field that may be missing from an object or `null`, but has its place in an array. -/
def positional {α : Type} [Codec α] : Slot → Option (Option α)
  | given v => decode? v
  | absent => some none
  | cutOff => none

end Slot

/-- The slot of a field among the members of an object; a field that comes twice has none. -/
def Slot.ofMembers? (members : List (Literal × Value)) (name : String) : Option Slot :=
  match members.filter fun m => m.1 == some name with
  | [] => some .absent
  | [m] => some (.given m.2)
  | _ => none

namespace Value

/-- The slots of the fields with the given names. -/
def slots? (names : List String) : Value → Option (List Slot)
  | object members =>
    if members.all fun m => m.1.isSome then names.mapM (Slot.ofMembers? members) else none
  | array items =>
    if items.length ≤ names.length then
      some (items.map .given ++ List.replicate (names.length - items.length) .cutOff)
    else none
  | _ => none

/-- The object with the given fields, without those that have no value. -/
def record (fields : List (String × Option Value)) : Value :=
  object (fields.filterMap fun f => f.2.map fun v => (some f.1, v))

end Value

/-- A field of a record that is always written. -/
def field {α : Type} [Codec α] (name : String) (a : α) : String × Option Value :=
  (name, some (encode a))

/-- A field of a record that is left out when it has no value. -/
def fieldIfSome {α : Type} [Codec α] (name : String) (a : Option α) : String × Option Value :=
  (name, a.map encode)

end Forecast.Json
