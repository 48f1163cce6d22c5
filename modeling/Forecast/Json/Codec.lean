import Forecast.Json.Writer

/-!
# Codecs

A codec writes the values of a type as JSON values and reads them back. Reading answers nothing for
a value of another shape; which part of it was wrong is not recorded.

Whole numbers are read from integers in the range of their type only: neither `1.0` nor `1e2` nor
`-0` is one.
-/

namespace Forecast.Json

/-- How the values of a type are written and read. -/
class Codec (α : Type) where
  encode : α → Value
  decode? : Value → Option α

export Codec (encode decode?)

/-- Reads a JSON text as a value of the type. -/
def read? {α : Type} [Codec α] (s : String) : Option α :=
  (Value.parse? s).bind decode?

/-- Writes a value without blanks. -/
def write {α : Type} [Codec α] (a : α) : String :=
  (encode a).compact

/-- Writes a value on indented lines. -/
def writeLines {α : Type} [Codec α] (a : α) : String :=
  (encode a).indented

/-- The integer a value was written as. -/
def Value.integer? : Value → Option Int
  | .number (.integer n) => some n
  | _ => none

/-- The text of a value. -/
def Value.string? : Value → Option String
  | .text s => s
  | _ => none

/-- The items of an array. -/
def Value.items? : Value → Option (List Value)
  | .array vs => some vs
  | _ => none

/-- A text value. -/
def Value.ofString (s : String) : Value := .text (some s)

/-- A whole number as a value. -/
def Value.ofInt (n : Int) : Value := .number (.integer n)

/-- The integer of a value, if it lies in the given range, ends included. -/
def Value.integerIn? (low high : Int) (v : Value) : Option Int := do
  let n ← v.integer?
  if low ≤ n ∧ n ≤ high then some n else none

instance : Codec Bool where
  encode := .bool
  decode?
    | .bool b => some b
    | _ => none

instance : Codec String where
  encode := Value.ofString
  decode? := Value.string?

instance : Codec UInt32 where
  encode n := .ofInt n.toNat
  decode? v := (v.integerIn? 0 4294967295).map fun n => UInt32.ofNat n.toNat

instance : Codec UInt64 where
  encode n := .ofInt n.toNat
  decode? v := (v.integerIn? 0 18446744073709551615).map fun n => UInt64.ofNat n.toNat

/-- A count of things in memory is a natural number of 64 bits. -/
instance : Codec Nat where
  encode n := .ofInt n
  decode? v := (v.integerIn? 0 18446744073709551615).map Int.toNat

/-- A difference of days is an integer of 64 bits. -/
instance : Codec Int where
  encode := Value.ofInt
  decode? := Value.integerIn? (-9223372036854775808) 9223372036854775807

instance {α : Type} [Codec α] : Codec (List α) where
  encode as := .array (as.map encode)
  decode? v := v.items?.bind fun vs => vs.mapM decode?

/-- An absent value is written `null`. -/
instance {α : Type} [Codec α] : Codec (Option α) where
  encode
    | some a => encode a
    | none => .null
  decode?
    | .null => some none
    | v => (decode? v).map some

/-! ## Names

A choice among names is written as its name. It is also read from an object whose only member is the
name with `null`. -/

/-- The name that a choice is read from, if it has the long form with a value that `isUnit` takes. -/
def Value.choiceName? (isUnit : Value → Bool) : Value → Option String
  | .text s => s
  | .object [(k, v)] => if isUnit v then k else none
  | _ => none

/-- The value of the long form of a choice. -/
def Value.isNull : Value → Bool
  | .null => true
  | _ => false

/-- A type whose values have names of their own. -/
class Named (α : Type) where
  all : List α
  name : α → String

/-- The value with the given name. -/
def Named.ofName? {α : Type} [Named α] (s : String) : Option α :=
  (Named.all (α := α)).find? fun a => Named.name a == s

instance {α : Type} [Named α] : Codec α where
  encode a := .ofString (Named.name a)
  decode? v := (v.choiceName? Value.isNull).bind Named.ofName?

end Forecast.Json
