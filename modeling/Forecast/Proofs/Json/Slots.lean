import Forecast.Json.Record
import Forecast.Proofs.Json.Faithful

/-!
# Slots of a written record

A record is faithful field by field. Written, it has the slots of its fields (`slots?_record`), and
each field takes the settled value out of its slot. An object with the same fields in another order
has the same slots (`Value.HasFields.slots?_eq`). Read from any value, in whatever order and whatever is
missing, it is made of slots that are clean if the value is (`slots?_isClean`), so that what its fields
take out of them is settled.
-/

namespace Forecast.Json

namespace Slot

/-- The slot of a field that was written, if it was. -/
def written : Option Value → Slot
  | some v => .given v
  | none => .absent

/-- What the slot holds is clean. -/
def IsClean : Slot → Prop
  | given v => v.IsClean
  | _ => True

/-! ## What a field makes of its slot -/

section Written

variable {α : Type} [Codec α] [Settles α] [Faithful α] (name : String)

@[simp] theorem required_field {a : α} (h : Fits a) :
    (written (field name a).2).required = some (settle a) :=
  decode?_encode h

@[simp] theorem defaulted_field {a : α} (h : Fits a) (default : α) :
    (written (field name a).2).defaulted default = some (settle a) :=
  decode?_encode h

@[simp] theorem optional_fieldIfSome [NeverNull α] {a : Option α} (h : Fits a) :
    (written (fieldIfSome name a).2).optional = some (settle a) := by
  cases a with
  | none => rfl
  | some a => exact decode?_encode (α := Option α) h

@[simp] theorem positional_field [NeverNull α] {a : Option α} (h : Fits a) :
    (written (field name a).2).positional = some (settle a) :=
  decode?_encode (α := Option α) h

end Written

section Read

variable {α : Type} [Codec α] [Settles α] [Faithful α] {s : Slot} {clean : Prop}

theorem required_settled {a : α} (h : s.required = some a) (hs : clean → s.IsClean) :
    Settled clean a := by
  cases s with
  | absent => cases h
  | cutOff => cases h
  | given v => exact ⟨(settled h).fits, fun hclean => (settled h).settle_eq (hs hclean)⟩

theorem defaulted_settled {a default : α} (h : s.defaulted default = some a)
    (hs : clean → s.IsClean) (hdefault : Settled clean default) : Settled clean a := by
  cases s with
  | given v => exact required_settled (s := .given v) h hs
  | absent =>
    cases h
    exact hdefault
  | cutOff =>
    cases h
    exact hdefault

theorem optional_settled [NeverNull α] {a : Option α} (h : s.optional = some a)
    (hs : clean → s.IsClean) : Settled clean a := by
  cases s with
  | given v => exact required_settled (s := .given v) h hs
  | absent =>
    cases h
    exact .none
  | cutOff =>
    cases h
    exact .none

theorem positional_settled [NeverNull α] {a : Option α} (h : s.positional = some a)
    (hs : clean → s.IsClean) : Settled clean a := by
  cases s with
  | given v => exact required_settled (s := .given v) h hs
  | absent =>
    cases h
    exact .none
  | cutOff => cases h

end Read

/-! ## The members of a written record -/

/-- The members that fields are written as. -/
abbrev members (fields : List (String × Option Value)) : List (Literal × Value) :=
  fields.filterMap fun f => f.2.map fun v => (some f.1, v)

theorem isSome_key_of_mem {fields : List (String × Option Value)} {m : Literal × Value}
    (h : m ∈ members fields) : m.1.isSome = true := by
  obtain ⟨f, -, hfm⟩ := List.mem_filterMap.1 h
  obtain ⟨v, -, rfl⟩ := Option.map_eq_some_iff.1 hfm
  rfl

theorem filter_members_of_notMem {fields : List (String × Option Value)} {name : String}
    (h : name ∉ fields.map Prod.fst) :
    ((members fields).filter fun m => m.1 == some name) = [] := by
  rw [List.filter_eq_nil_iff]
  intro m hm hname
  obtain ⟨f, hf, hfm⟩ := List.mem_filterMap.1 hm
  obtain ⟨v, -, rfl⟩ := Option.map_eq_some_iff.1 hfm
  have heq : f.1 = name := by simpa using hname
  exact h (heq ▸ List.mem_map_of_mem hf)

theorem filter_members_of_mem {fields : List (String × Option Value)}
    (hd : (fields.map Prod.fst).Nodup) {f : String × Option Value} (hf : f ∈ fields) :
    ((members fields).filter fun m => m.1 == some f.1) =
      (f.2.map fun v => (some f.1, v)).toList := by
  induction fields with
  | nil => exact absurd hf List.not_mem_nil
  | cons g gs ih =>
    obtain ⟨hg, hgs⟩ := List.nodup_cons.1 hd
    have hsplit : members (g :: gs) = (g.2.map fun v => (some g.1, v)).toList ++ members gs := by
      cases hg2 : g.2 <;> simp [members, hg2]
    rw [hsplit, List.filter_append]
    rcases List.mem_cons.1 hf with rfl | hf
    · rw [filter_members_of_notMem hg, List.append_nil]
      cases f.2 <;> simp
    · -- the member of another field has another name
      have hne : g.1 ≠ f.1 := fun heq => hg (heq ▸ List.mem_map_of_mem hf)
      rw [ih hgs hf]
      cases g.2 <;> simp [hne]

theorem ofMembers?_members {fields : List (String × Option Value)}
    (hd : (fields.map Prod.fst).Nodup) {f : String × Option Value} (hf : f ∈ fields) :
    ofMembers? (members fields) f.1 = some (written f.2) := by
  rw [ofMembers?, filter_members_of_mem hd hf]
  cases f.2 <;> rfl

theorem ofMembers?_isClean {members : List (Literal × Value)} {name : String} {s : Slot}
    (h : ofMembers? members name = some s) (hclean : ∀ m ∈ members, m.2.IsClean) : s.IsClean := by
  unfold ofMembers? at h
  split at h
  · cases h
    trivial
  · rename_i m hm
    cases h
    exact hclean m (List.mem_of_mem_filter (hm ▸ List.mem_singleton_self m))
  · cases h

end Slot

/-! ## Records -/

/-- A record that was written has the slots of its fields. -/
theorem slots?_record {names : List String} {fields asked : List (String × Option Value)}
    (hn : asked.map Prod.fst = names) (hsub : asked ⊆ fields) (hd : (fields.map Prod.fst).Nodup) :
    (Value.record fields).slots? names = some (asked.map fun f => Slot.written f.2) := by
  subst hn
  have hkeys : ((Slot.members fields).all fun m => m.1.isSome) = true :=
    List.all_eq_true.2 fun _ => Slot.isSome_key_of_mem
  rw [Value.record, Value.slots?, if_pos hkeys]
  exact mapM_map_eq_some fun f hf => Slot.ofMembers?_members hd (hsub hf)

/-- What is made of some slots of a record, made of one that was written. -/
theorem bind_slots?_part {β : Type} {names : List String}
    {fields asked : List (String × Option Value)} {make : List Slot → Option β} {b : β}
    (hn : asked.map Prod.fst = names) (hsub : asked ⊆ fields) (hd : (fields.map Prod.fst).Nodup)
    (h : make (asked.map fun f => Slot.written f.2) = some b) :
    ((Value.record fields).slots? names).bind make = some b := by
  rw [slots?_record hn hsub hd, Option.bind_some, h]

/-- What is made of all slots of a record, made of one that was written. -/
theorem bind_slots?_record {β : Type} {names : List String} {fields : List (String × Option Value)}
    {make : List Slot → Option β} {b : β} (hn : fields.map Prod.fst = names) (hd : names.Nodup)
    (h : make (fields.map fun f => Slot.written f.2) = some b) :
    ((Value.record fields).slots? names).bind make = some b :=
  bind_slots?_part hn (List.Subset.refl fields) (hn ▸ hd) h

/-! ## Records in any order -/

/-- The value is an object that holds the fields in any order, and maybe members of other names. -/
def Value.HasFields (fields : List (String × Option Value)) (v : Value) : Prop :=
  ∃ members others, v = .object members ∧ members.Perm (Slot.members fields ++ others) ∧
    ∀ m ∈ others, ∃ key, m.1 = some key ∧ key ∉ fields.map Prod.fst

/-- A record has its fields. -/
theorem hasFields_record (fields : List (String × Option Value)) :
    (Value.record fields).HasFields fields :=
  ⟨_, [], rfl, by rw [List.append_nil], fun _ h => absurd h List.not_mem_nil⟩

theorem Slot.ofMembers?_of_perm {members members' : List (Literal × Value)}
    (h : members.Perm members') (name : String) :
    ofMembers? members name = ofMembers? members' name := by
  have hfound := h.filter fun m => m.1 == some name
  unfold ofMembers?
  generalize members.filter (fun m => m.1 == some name) = found at hfound ⊢
  generalize members'.filter (fun m => m.1 == some name) = found' at hfound ⊢
  match found, found', hfound with
  | [], _, hfound => rw [hfound.nil_eq]
  | [m], _, hfound => rw [hfound.singleton_eq]
  | _ :: _ :: _, [], hfound => cases hfound.eq_nil
  | _ :: _ :: _, [m], hfound => cases hfound.eq_singleton
  | _ :: _ :: _, _ :: _ :: _, _ => rfl

/-- An object has the slots of the fields that it holds, whatever their order is and whatever other
members it has. -/
theorem Value.HasFields.slots?_eq {names : List String} {fields : List (String × Option Value)}
    {v : Value} (h : v.HasFields fields) (hn : fields.map Prod.fst = names) (hd : names.Nodup) :
    v.slots? names = some (fields.map fun f => Slot.written f.2) := by
  subst hn
  obtain ⟨members, others, rfl, hperm, hothers⟩ := h
  have hkeys : (members.all fun m => m.1.isSome) = true := by
    rw [List.all_eq_true]
    intro m hm
    rcases List.mem_append.1 (hperm.mem_iff.1 hm) with hm | hm
    · exact Slot.isSome_key_of_mem hm
    · obtain ⟨key, hkey, -⟩ := hothers m hm
      rw [hkey]
      rfl
  rw [slots?, if_pos hkeys]
  refine mapM_map_eq_some fun f hf => ?_
  have hnone : (others.filter fun m => m.1 == some f.1) = [] := by
    rw [List.filter_eq_nil_iff]
    intro m hm hname
    obtain ⟨key, hkey, hnot⟩ := hothers m hm
    have heq : key = f.1 := by simpa [hkey] using hname
    exact hnot (heq ▸ List.mem_map_of_mem hf)
  rw [Slot.ofMembers?_of_perm hperm, Slot.ofMembers?, List.filter_append, hnone, List.append_nil]
  exact Slot.ofMembers?_members hd hf

theorem record_ne_null (fields : List (String × Option Value)) : Value.record fields ≠ .null :=
  nofun

theorem slots?_isClean {names : List String} {v : Value} {slots : List Slot}
    (h : v.slots? names = some slots) (hv : v.IsClean) : ∀ s ∈ slots, s.IsClean := by
  cases v with
  | object members =>
    rw [Value.slots?] at h
    split at h
    · intro s hs
      obtain ⟨name, -, hname⟩ := exists_of_mem_mapM h hs
      exact Slot.ofMembers?_isClean hname fun m hm => hv.member hm
    · cases h
  | array items =>
    rw [Value.slots?] at h
    split at h
    · cases h
      intro s hs
      rcases List.mem_append.1 hs with hs | hs
      · obtain ⟨w, hw, rfl⟩ := List.mem_map.1 hs
        exact hv.item hw
      · rw [List.eq_of_mem_replicate hs]
        trivial
    · cases h
  | null => cases h
  | bool b => cases h
  | number n => cases h
  | text t => cases h

/-- What is made of the slots of a value is settled if it is when the slots are clean. -/
theorem settled_of_slots {α : Type} [Settles α] {names : List String} {v : Value}
    {make : List Slot → Option α} {a : α} (h : (v.slots? names).bind make = some a)
    (hmake : ∀ slots, make slots = some a → (v.IsClean → ∀ s ∈ slots, s.IsClean) →
      Settled v.IsClean a) : Settled v.IsClean a := by
  obtain ⟨slots, hslots, hsome⟩ := Option.bind_eq_some_iff.1 h
  exact hmake slots hsome (slots?_isClean hslots)

end Forecast.Json
