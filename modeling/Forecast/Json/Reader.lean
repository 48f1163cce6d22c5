import Forecast.Json.Lexer

/-!
# Reading values

Tokens are put together into a value by a machine with a stack: one frame for each array or object
that is open. The machine is a fold over the tokens, so that values nested to any depth are read.
-/

namespace Forecast.Json

/-- A container that is open. Items and members read so far are kept in reverse. -/
inductive Frame
  | array (items : List Value)
  | object (members : List (Literal × Value))
  /-- An object whose last key awaits its value. -/
  | entry (members : List (Literal × Value)) (key : Literal)

/-- What may come next. -/
inductive Phase
  /-- A value. -/
  | value
  /-- The first item of an array, or its end. -/
  | firstItem
  /-- The first key of an object, or its end. -/
  | firstKey
  /-- A key, after a comma. -/
  | key
  /-- The colon after a key. -/
  | colon (key : Literal)
  /-- Whatever may follow a value that has just ended. -/
  | after (v : Value)

/-- The state of the machine: what may come next, and the open containers from the inside out. -/
structure Reader where
  phase : Phase
  stack : List Frame

namespace Reader

/-- A token where a value must start. -/
def beginValue (stack : List Frame) : Token → Option Reader
  | .null => some ⟨.after .null, stack⟩
  | .bool b => some ⟨.after (.bool b), stack⟩
  | .number n => some ⟨.after (.number n), stack⟩
  | .text s => some ⟨.after (.text s), stack⟩
  | .openArray => some ⟨.firstItem, .array [] :: stack⟩
  | .openObject => some ⟨.firstKey, .object [] :: stack⟩
  | _ => none

/-- A token after the value `v`: it goes on with the container the value stands in, or closes it. -/
def afterValue (v : Value) : List Frame → Token → Option Reader
  | .array items :: stack, .comma => some ⟨.value, .array (v :: items) :: stack⟩
  | .array items :: stack, .closeArray => some ⟨.after (.array (v :: items).reverse), stack⟩
  | .entry members key :: stack, .comma => some ⟨.key, .object ((key, v) :: members) :: stack⟩
  | .entry members key :: stack, .closeObject =>
    some ⟨.after (.object ((key, v) :: members).reverse), stack⟩
  | _, _ => none

/-- Takes one token. -/
def step (r : Reader) (t : Token) : Option Reader :=
  match r.phase with
  | .value => beginValue r.stack t
  | .firstItem =>
    match t, r.stack with
    | .closeArray, .array items :: stack => some ⟨.after (.array items.reverse), stack⟩
    | t, stack => beginValue stack t
  | .firstKey =>
    match t, r.stack with
    | .text s, stack => some ⟨.colon s, stack⟩
    | .closeObject, .object members :: stack => some ⟨.after (.object members.reverse), stack⟩
    | _, _ => none
  | .key =>
    match t with
    | .text s => some ⟨.colon s, r.stack⟩
    | _ => none
  | .colon key =>
    match t, r.stack with
    | .colon, .object members :: stack => some ⟨.value, .entry members key :: stack⟩
    | _, _ => none
  | .after v => afterValue v r.stack t

/-- The machine before the first token. -/
def initial : Reader := ⟨.value, []⟩

/-- Takes a list of tokens. -/
def run (r : Reader) (ts : List Token) : Option Reader :=
  ts.foldlM step r

@[simp] theorem run_nil (r : Reader) : r.run [] = some r := rfl

@[simp] theorem run_cons (r : Reader) (t : Token) (ts : List Token) :
    r.run (t :: ts) = (r.step t).bind fun r' => r'.run ts := rfl

theorem run_append (r : Reader) (ts us : List Token) :
    r.run (ts ++ us) = (r.run ts).bind fun r' => r'.run us := by
  simp [run, List.foldlM_append]

/-- The value read, if one has ended and no container is open. -/
def result? : Reader → Option Value
  | ⟨.after v, []⟩ => some v
  | _ => none

end Reader

namespace Value

/-- The value that a list of tokens spells. -/
def ofTokens? (ts : List Token) : Option Value :=
  (Reader.initial.run ts).bind Reader.result?

/-- Reads a JSON text. -/
def ofText? (cs : List Char) : Option Value :=
  (tokens? cs).bind ofTokens?

/-- Reads a JSON text. -/
def parse? (s : String) : Option Value :=
  ofText? s.toList

end Value

end Forecast.Json
