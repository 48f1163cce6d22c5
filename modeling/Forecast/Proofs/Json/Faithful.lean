import Forecast.Decimal.Text
import Forecast.Json.Codec
import Forecast.Proofs.Json.Reading

/-!
# Faithful codecs

What becomes of a value that is written and read again. A text keeps everything but the sign of a
zero, so that a value comes back *settled* (`Settles.settle`): the same value in which no decimal is
a negative zero. A codec is *faithful* (`Faithful`) if a value that it writes is read as the settled
value, and if what it reads is settled unless a text in it is read as a negative zero
(`Value.IsClean`).

The rules are given for whole numbers, texts, names, lists and optional values. What holds of JSON
values then holds of texts (`read?_write`, `read?_writeLines`).
-/

namespace Forecast.Json

/-- How a value comes back that is written and read. -/
class Settles (α : Type) where
  /-- The value without negative zeros. -/
  settle : α → α := id
  /-- The counts in the value are ones of 64 bits, as all that are read or held in memory are. -/
  Fits : α → Prop := fun _ => True

export Settles (settle Fits)

/-- The value is a text or holds it, however deep. Keys do not count. -/
inductive Value.Holds (s : String) : Value → Prop
  | text : Holds s (.text (some s))
  | item {items : List Value} {v : Value} (h : v ∈ items) (hv : Holds s v) : Holds s (.array items)
  | member {members : List (Literal × Value)} {m : Literal × Value} (h : m ∈ members)
    (hm : Holds s m.2) : Holds s (.object members)

/-- No text in the value is read as a negative zero. -/
def Value.IsClean (v : Value) : Prop :=
  ∀ s, v.Holds s → ∀ d, Decimal.ofText? s = some d → d.clearZeroSign = d

theorem Value.IsClean.item {items : List Value} (h : IsClean (.array items)) {v : Value}
    (hv : v ∈ items) : v.IsClean :=
  fun s hs => h s (.item hv hs)

theorem Value.IsClean.member {members : List (Literal × Value)} (h : IsClean (.object members))
    {m : Literal × Value} (hm : m ∈ members) : m.2.IsClean :=
  fun s hs => h s (.member hm hs)

/-- A value that was read, from something clean if `clean` holds. -/
structure Settled {α : Type} [Settles α] (clean : Prop) (a : α) : Prop where
  fits : Fits a
  settle_eq : clean → settle a = a

/-- A codec that writes values and reads them back settled. -/
class Faithful (α : Type) [Codec α] [Settles α] : Prop where
  decode?_encode {a : α} (h : Fits a) : decode? (encode a) = some (settle a)
  settled {v : Value} {a : α} (h : decode? v = some a) : Settled v.IsClean a

/-- A codec that does not write a value as `null`. -/
class NeverNull (α : Type) [Codec α] : Prop where
  encode_ne_null (a : α) : encode a ≠ .null

/-- A type without counts. -/
class AlwaysFits (α : Type) [Settles α] : Prop where
  fits (a : α) : Fits a

/-- A type without decimals. -/
class Unsigned (α : Type) [Settles α] : Prop where
  settle_eq_self (a : α) : settle a = a

export Faithful (decode?_encode settled)

@[simp] theorem settle_eq_self {α : Type} [Settles α] [Unsigned α] (a : α) : settle a = a :=
  Unsigned.settle_eq_self a

@[simp] theorem fits {α : Type} [Settles α] [AlwaysFits α] (a : α) : Fits a :=
  AlwaysFits.fits a

/-- What has neither decimals nor counts comes back as it is. -/
theorem Settled.of_unsigned {α : Type} [Settles α] [AlwaysFits α] [Unsigned α] {clean : Prop}
    (a : α) : Settled clean a :=
  ⟨AlwaysFits.fits a, fun _ => settle_eq_self a⟩

/-! ## Scalars -/

instance : Settles Bool where

instance : AlwaysFits Bool := ⟨fun _ => trivial⟩
instance : Unsigned Bool := ⟨fun _ => rfl⟩

instance : Faithful Bool where
  decode?_encode _ := rfl
  settled _ := .of_unsigned _

instance : Settles String where

instance : AlwaysFits String := ⟨fun _ => trivial⟩
instance : Unsigned String := ⟨fun _ => rfl⟩

instance : Faithful String where
  decode?_encode _ := rfl
  settled _ := .of_unsigned _

theorem ofString_ne_null (s : String) : Value.ofString s ≠ .null := nofun

instance : NeverNull String := ⟨ofString_ne_null⟩

theorem integerIn?_ofInt {low high n : Int} (h : low ≤ n ∧ n ≤ high) :
    (Value.ofInt n).integerIn? low high = some n := by
  simp [Value.integerIn?, Value.ofInt, Value.integer?, h]

theorem bounds_of_integerIn? {low high n : Int} {v : Value} (h : v.integerIn? low high = some n) :
    low ≤ n ∧ n ≤ high := by
  obtain ⟨m, -, hm⟩ := Option.bind_eq_some_iff.1 h
  split at hm
  · rename_i hb
    cases hm
    exact hb
  · cases hm

instance : Settles UInt32 where

instance : AlwaysFits UInt32 := ⟨fun _ => trivial⟩
instance : Unsigned UInt32 := ⟨fun _ => rfl⟩

instance : Faithful UInt32 where
  decode?_encode {n} _ := by
    have hn : (0 : Int) ≤ n.toNat ∧ (n.toNat : Int) ≤ 4294967295 := by
      have := n.toNat_lt
      omega
    show ((Value.ofInt n.toNat).integerIn? 0 4294967295).map _ = _
    rw [integerIn?_ofInt hn, Option.map_some, Int.toNat_natCast, UInt32.ofNat_toNat]
    rfl
  settled _ := .of_unsigned _

instance : Settles UInt64 where

instance : AlwaysFits UInt64 := ⟨fun _ => trivial⟩
instance : Unsigned UInt64 := ⟨fun _ => rfl⟩

instance : Faithful UInt64 where
  decode?_encode {n} _ := by
    have hn : (0 : Int) ≤ n.toNat ∧ (n.toNat : Int) ≤ 18446744073709551615 := by
      have := n.toNat_lt
      omega
    show ((Value.ofInt n.toNat).integerIn? 0 18446744073709551615).map _ = _
    rw [integerIn?_ofInt hn, Option.map_some, Int.toNat_natCast, UInt64.ofNat_toNat]
    rfl
  settled _ := .of_unsigned _

instance : Settles Nat where
  Fits n := n < UInt64.size

instance : Unsigned Nat := ⟨fun _ => rfl⟩

instance : Faithful Nat where
  decode?_encode {n} h := by
    have hn : (0 : Int) ≤ n ∧ (n : Int) ≤ 18446744073709551615 := by
      have : n < 18446744073709551616 := h
      omega
    show ((Value.ofInt n).integerIn? 0 18446744073709551615).map _ = _
    rw [integerIn?_ofInt hn, Option.map_some, Int.toNat_natCast]
    rfl
  settled {v a} h := by
    obtain ⟨n, hn, rfl⟩ := Option.map_eq_some_iff.1 h
    have hb := bounds_of_integerIn? hn
    refine ⟨?_, fun _ => rfl⟩
    show n.toNat < 18446744073709551616
    omega

instance : Settles Int where
  Fits n := -9223372036854775808 ≤ n ∧ n ≤ 9223372036854775807

instance : Unsigned Int := ⟨fun _ => rfl⟩

instance : Faithful Int where
  decode?_encode h := integerIn?_ofInt h
  settled h := ⟨bounds_of_integerIn? h, fun _ => rfl⟩

/-! ## Names -/

/-- A type in which no two values have the same name, and in whose list none is missing. -/
class LawfulNamed (α : Type) [Named α] : Prop where
  ofName?_name (a : α) : Named.ofName? (Named.name a) = some a

instance {α : Type} [Named α] : Settles α where

instance {α : Type} [Named α] : AlwaysFits α := ⟨fun _ => trivial⟩
instance {α : Type} [Named α] : Unsigned α := ⟨fun _ => rfl⟩

instance {α : Type} [Named α] [LawfulNamed α] : Faithful α where
  decode?_encode {a} _ := LawfulNamed.ofName?_name a
  settled _ := .of_unsigned _

/-! ## Lists and optional values -/

section Containers

variable {α : Type} [Codec α] [Settles α]

theorem mapM_map_eq_some {β γ δ : Type} {f : β → γ} {g : γ → Option δ} {k : β → δ} {bs : List β}
    (h : ∀ b ∈ bs, g (f b) = some (k b)) : (bs.map f).mapM g = some (bs.map k) := by
  induction bs with
  | nil => rfl
  | cons b bs ih =>
    rw [List.map_cons, List.mapM_cons, h b List.mem_cons_self,
      ih fun c hc => h c (List.mem_cons_of_mem _ hc)]
    rfl

theorem exists_of_mem_mapM {β γ : Type} {f : β → Option γ} {bs : List β} {cs : List γ}
    (h : bs.mapM f = some cs) {c : γ} (hc : c ∈ cs) : ∃ b ∈ bs, f b = some c := by
  induction bs generalizing cs with
  | nil =>
    cases h
    exact absurd hc List.not_mem_nil
  | cons b bs ih =>
    rw [List.mapM_cons] at h
    obtain ⟨c', hc', h⟩ := Option.bind_eq_some_iff.1 h
    obtain ⟨cs', hcs', h⟩ := Option.bind_eq_some_iff.1 h
    cases h
    rcases List.mem_cons.1 hc with rfl | hc
    · exact ⟨b, List.mem_cons_self, hc'⟩
    · obtain ⟨b', hb', h'⟩ := ih hcs' hc
      exact ⟨b', List.mem_cons_of_mem _ hb', h'⟩

instance : Settles (List α) where
  settle as := as.map settle
  Fits as := ∀ a ∈ as, Fits a

omit [Codec α] in
instance [AlwaysFits α] : AlwaysFits (List α) := ⟨fun _ a _ => fits a⟩

omit [Codec α] in
instance [Unsigned α] : Unsigned (List α) := ⟨fun as => List.map_id'' settle_eq_self as⟩

instance [Faithful α] : Faithful (List α) where
  decode?_encode h := mapM_map_eq_some fun a ha => decode?_encode (h a ha)
  settled {v as} h := by
    obtain ⟨vs, hvs, h⟩ := Option.bind_eq_some_iff.1 h
    have hv : v = .array vs := by
      cases v <;> cases hvs
      rfl
    subst hv
    have hread (a : α) (ha : a ∈ as) : Settled (Value.array vs).IsClean a := by
      obtain ⟨w, hw, hwa⟩ := exists_of_mem_mapM h ha
      have hsettled := settled hwa
      exact ⟨hsettled.fits, fun hclean => hsettled.settle_eq (hclean.item hw)⟩
    refine ⟨fun a ha => (hread a ha).fits, fun hclean => ?_⟩
    exact (List.map_congr_left fun a ha => (hread a ha).settle_eq hclean).trans (List.map_id as)

instance : NeverNull (List α) := ⟨nofun⟩

omit [Codec α] in
theorem Settled.nil {clean : Prop} : Settled clean ([] : List α) :=
  ⟨fun _ h => absurd h List.not_mem_nil, fun _ => rfl⟩

instance : Settles (Option α) where
  settle a := a.map settle
  Fits a := ∀ x ∈ a, Fits x

omit [Codec α] in
instance [AlwaysFits α] : AlwaysFits (Option α) := ⟨fun _ x _ => fits x⟩

omit [Codec α] in
instance [Unsigned α] : Unsigned (Option α) where
  settle_eq_self a := by
    cases a with
    | none => rfl
    | some a => exact congrArg some (settle_eq_self a)

omit [Settles α] in
/-- What is not written as `null` is read as a value that is there. -/
theorem decode?_option {v : Value} (hv : v ≠ .null) :
    (decode? v : Option (Option α)) = (decode? v).map some := by
  cases v with
  | null => exact absurd rfl hv
  | bool b => rfl
  | number n => rfl
  | text s => rfl
  | array items => rfl
  | object members => rfl

omit [Codec α] in
theorem Settled.none {clean : Prop} : Settled clean (none : Option α) :=
  ⟨nofun, fun _ => rfl⟩

omit [Codec α] in
theorem Settled.some {clean : Prop} {a : α} (h : Settled clean a) : Settled clean (some a) where
  fits x hx := by
    cases hx
    exact h.fits
  settle_eq hclean := congrArg Option.some (h.settle_eq hclean)

/-- `null` stands for an absent value, so that it must not also stand for one that is there. -/
instance [Faithful α] [NeverNull α] : Faithful (Option α) where
  decode?_encode {a} h := by
    cases a with
    | none => rfl
    | some a =>
      show (decode? (encode a) : Option (Option α)) = _
      rw [decode?_option (NeverNull.encode_ne_null a), decode?_encode (h a rfl)]
      rfl
  settled {v a} h := by
    by_cases hv : v = .null
    · subst hv
      cases h
      exact .none
    · rw [decode?_option hv] at h
      obtain ⟨x, hx, rfl⟩ := Option.map_eq_some_iff.1 h
      exact (settled hx).some

end Containers

/-! ## Texts -/

section Texts

variable {α : Type} [Codec α] [Settles α] [Faithful α] {a : α}

/-- A value is read back settled from its compact text. -/
theorem read?_write (h : Fits a) : read? (write a) = some (settle a) := by
  rw [read?, write, Value.parse?_compact, Option.bind_some, decode?_encode h]

/-- A value is read back settled from its indented text. -/
theorem read?_writeLines (h : Fits a) : read? (writeLines a) = some (settle a) := by
  rw [read?, writeLines, Value.parse?_indented, Option.bind_some, decode?_encode h]

end Texts

end Forecast.Json
