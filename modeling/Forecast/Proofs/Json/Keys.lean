import Forecast.Json.Record
import Mathlib

/-!
# Keys of a record that is read

What a value holds under the keys of a record is what the slots of the record hold
(`map_given?_of_slots?`). A field with a default is thus what stands under its key, or the default if
nothing does (`Value.Fills`).
-/

namespace Forecast.Json

variable {α β γ : Type} {keys : List String} {key : String} {v : Value}

/-- What a value holds under one of the keys of a record: in an object the member of that name, in an
array the item in the place of the key. -/
def Value.under? (keys : List String) (key : String) : Value → Option Value
  | object members => (members.find? fun m => m.1 == some key).map Prod.snd
  | array items => items[keys.idxOf key]?
  | _ => none

/-- What a slot holds. -/
def Slot.given? : Slot → Option Value
  | given v => some v
  | _ => none

theorem Slot.given?_of_ofMembers? {members : List (Literal × Value)} {s : Slot}
    (h : ofMembers? members key = some s) (keys : List String) :
    s.given? = (Value.object members).under? keys key := by
  unfold ofMembers? at h
  rw [Value.under?, ← List.head?_filter]
  split at h
  · rename_i hnone
    cases h
    rw [hnone]
    rfl
  · rename_i m hm
    cases h
    rw [hm]
    rfl
  · cases h

/-- What is made of a list step by step, seen through a function. -/
theorem map_eq_map_of_mapM {f : α → Option β} {g : β → γ} {u : α → γ} {as : List α} {bs : List β}
    (h : as.mapM f = some bs) (hfg : ∀ a b, f a = some b → g b = u a) : bs.map g = as.map u := by
  induction as generalizing bs with
  | nil =>
    cases h
    rfl
  | cons a as ih =>
    rw [List.mapM_cons] at h
    obtain ⟨b, hb, h⟩ := Option.bind_eq_some_iff.1 h
    obtain ⟨bs', hbs, h⟩ := Option.bind_eq_some_iff.1 h
    cases h
    rw [List.map_cons, List.map_cons, hfg a b hb, ih hbs]

/-- The items of an array stand under the keys in order, and nothing under the keys that are left. -/
theorem map_given?_of_items {items : List Value} (hd : keys.Nodup)
    (hlength : items.length ≤ keys.length) :
    (items.map Slot.given ++ List.replicate (keys.length - items.length) Slot.cutOff).map Slot.given? =
      keys.map fun key => (Value.array items).under? keys key := by
  refine List.ext_getElem ?_ fun i hi hi' => ?_
  · rw [List.length_map, List.length_append, List.length_map, List.length_replicate, List.length_map]
    omega
  · rw [List.length_map] at hi'
    rw [List.getElem_map, List.getElem_map, Value.under?, hd.idxOf_getElem i hi', List.getElem_append]
    split
    · rename_i hitem
      rw [List.length_map] at hitem
      rw [List.getElem_map, List.getElem?_eq_getElem hitem]
      rfl
    · rename_i hitem
      rw [List.length_map] at hitem
      rw [List.getElem_replicate, List.getElem?_eq_none (Nat.le_of_not_lt hitem)]
      rfl

/-- The slots of a record hold what the value holds under the keys. -/
theorem map_given?_of_slots? {slots : List Slot} (hd : keys.Nodup) (h : v.slots? keys = some slots) :
    slots.map Slot.given? = keys.map fun key => v.under? keys key := by
  cases v with
  | object members =>
    rw [Value.slots?] at h
    split at h
    · exact map_eq_map_of_mapM h fun key s hs => Slot.given?_of_ofMembers? hs keys
    · cases h
  | array items =>
    rw [Value.slots?] at h
    split at h
    · cases h
      exact map_given?_of_items hd ‹_›
    · cases h
  | null => cases h
  | bool b => cases h
  | number n => cases h
  | text t => cases h

/-- What a field with a default is read as. -/
structure Value.Fills [Codec α] (keys : List String) (v : Value) (key : String) (default a : α) :
    Prop where
  given : ∀ w, v.under? keys key = some w → decode? w = some a
  missing : v.under? keys key = none → a = default

theorem Value.Fills.of_slot [Codec α] {s : Slot} {default a : α} (hs : s.given? = v.under? keys key)
    (h : s.defaulted default = some a) : v.Fills keys key default a := by
  constructor
  · intro w hw
    rw [hw] at hs
    cases s with
    | given w' =>
      cases hs
      exact h
    | absent => cases hs
    | cutOff => cases hs
  · intro hnone
    rw [hnone] at hs
    cases s with
    | given w => cases hs
    | absent =>
      cases h
      rfl
    | cutOff =>
      cases h
      rfl

end Forecast.Json
