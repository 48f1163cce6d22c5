import Forecast.Proofs.Household.Written
import Forecast.Proofs.Storage.Files
import Forecast.Proofs.Storage.Names
import Forecast.Proofs.Storage.Ownership

/-!
# A store is a map

A store of snapshots that is opened where nothing is yet keeps what a memory keeps into which the same
snapshots are inserted (`SnapshotStore.Represents`): the last snapshot of each household, and nothing
else. Each snapshot that is saved replaces the one of its household and leaves the others alone, so that
the two go together over any number of saves (`SnapshotStore.represents_saveAll`).

What is loaded went through a text and is the snapshot that was saved in every field. Its decimals have
the value and the scale that they had (`Snapshot.Same`).
-/

namespace Forecast

open Json

/-! ## The same in every field -/

/-- The same value with the same scale. The sign of a zero does not count. -/
def Decimal.Same (d d' : Decimal) : Prop :=
  d.units = d'.units ∧ d.scale = d'.scale

/-- The same account, with the same decimals. -/
structure Account.Same (a a' : Account) : Prop where
  fields : a' = { a with balance := a'.balance }
  balance : a.balance.Same a'.balance

/-- The same entry, with the same decimals. -/
structure Entry.Same (e e' : Entry) : Prop where
  fields : e' = { e with amount := e'.amount }
  amount : e.amount.Same e'.amount

/-- The same definition, with the same decimals. -/
structure Recurring.Same (r r' : Recurring) : Prop where
  fields : r' =
    { r with
      amount := r'.amount, average := r'.average, least := r'.least, greatest := r'.greatest,
      confidence := r'.confidence }
  amount : r.amount.Same r'.amount
  average : Option.Rel Decimal.Same r.average r'.average
  least : Option.Rel Decimal.Same r.least r'.least
  greatest : Option.Rel Decimal.Same r.greatest r'.greatest
  confidence : Option.Rel Decimal.Same r.confidence r'.confidence

/-- The same snapshot, record by record. -/
structure Snapshot.Same (s s' : Snapshot) : Prop where
  household : s.household = s'.household
  currency : s.currency = s'.currency
  accounts : List.Forall₂ Account.Same s.accounts s'.accounts
  entries : List.Forall₂ Entry.Same s.entries s'.entries
  recurring : List.Forall₂ Recurring.Same s.recurring s'.recurring

theorem Decimal.same_settle (d : Decimal) : d.Same (settle d) :=
  ⟨(units_clearZeroSign d).symm, rfl⟩

theorem Decimal.rel_settle (d : Option Decimal) : Option.Rel Same d (settle d) := by
  cases d with
  | none => exact .none
  | some d => exact .some (same_settle d)

theorem Snapshot.same_settle (s : Snapshot) : s.Same (settle s) where
  household := rfl
  currency := rfl
  accounts := List.forall₂_map_right_iff.2 <| List.forall₂_same.2 fun a _ =>
    ⟨rfl, a.balance.same_settle⟩
  entries := List.forall₂_map_right_iff.2 <| List.forall₂_same.2 fun e _ =>
    ⟨rfl, e.amount.same_settle⟩
  recurring := List.forall₂_map_right_iff.2 <| List.forall₂_same.2 fun r _ =>
    ⟨rfl, r.amount.same_settle, Decimal.rel_settle _, Decimal.rel_settle _, Decimal.rel_settle _,
      Decimal.rel_settle _⟩

/-! ## The memory that stands for a store -/

/-- The last of the snapshots that is one of the household. -/
def Snapshot.lastSaved (saved : List Snapshot) (f : Uuid) : Option Snapshot :=
  saved.reverse.find? fun s => s.household == f

namespace Memory

variable {m : Memory} {f : Uuid}

theorem snapshot_eq_error_iff {p : Problem} : m.snapshot f = .error p ↔
    (∀ s ∈ m.snapshots, s.household ≠ f) ∧ p = .unknownHousehold f := by
  unfold snapshot
  cases h : m.snapshots.find? fun s => s.household == f with
  | none =>
    constructor
    · rintro ⟨⟩
      exact ⟨fun s hs => by simpa using List.find?_eq_none.1 h s hs, rfl⟩
    · rintro ⟨-, rfl⟩
      rfl
  | some s =>
    constructor
    · nofun
    · rintro ⟨hnone, -⟩
      exact absurd (by simpa using List.find?_some h) (hnone s (List.mem_of_find?_eq_some h))

theorem snapshot_foldl_insert (saved : List Snapshot) (m : Memory) (f : Uuid) :
    (saved.foldl insert m).snapshot f =
      match Snapshot.lastSaved saved f with
      | some snap => .ok snap
      | none => m.snapshot f := by
  induction saved generalizing m with
  | nil => rfl
  | cons snap saved ih =>
    rw [List.foldl_cons, ih]
    unfold Snapshot.lastSaved
    rw [List.reverse_cons, List.find?_append]
    cases saved.reverse.find? fun s => s.household == f with
    | some later => rfl
    | none =>
      by_cases h : snap.household = f
      · subst h
        simp [snapshot_insert_self]
      · simp [snapshot_insert_of_ne m snap (Ne.symm h), h]

theorem exists_household_insert (m : Memory) (snap : Snapshot) :
    (∃ s ∈ (m.insert snap).snapshots, s.household = f) ↔
      snap.household = f ∨ ∃ s ∈ m.snapshots, s.household = f := by
  by_cases h : snap.household = f
  · simp [insert, h]
  · simp only [insert, List.mem_cons, List.mem_filter, bne_iff_ne, h, false_or]
    constructor
    · rintro ⟨s, rfl | ⟨hs, -⟩, hf⟩
      · exact absurd hf h
      · exact ⟨s, hs, hf⟩
    · rintro ⟨s, hs, rfl⟩
      exact ⟨s, .inr ⟨hs, Ne.symm h⟩, rfl⟩

theorem exists_household_foldl_insert (saved : List Snapshot) (m : Memory) :
    (∃ s ∈ (saved.foldl insert m).snapshots, s.household = f) ↔
      (∃ s ∈ saved, s.household = f) ∨ ∃ s ∈ m.snapshots, s.household = f := by
  induction saved generalizing m with
  | nil => simp
  | cons snap saved ih =>
    rw [List.foldl_cons, ih, exists_household_insert, List.exists_mem_cons_iff, or_left_comm, or_assoc]

end Memory

/-! ## The order of households -/

namespace Uuid

variable {a b c : Uuid}

theorem decide_le_total (a b : Uuid) : decide (a ≤ b) = true ∨ decide (b ≤ a) = true :=
  (Nat.le_total a.value b.value).imp decide_eq_true decide_eq_true

theorem decide_le_trans (a b c : Uuid) (hab : decide (a ≤ b) = true) (hbc : decide (b ≤ c) = true) :
    decide (a ≤ c) = true :=
  decide_eq_true (Nat.le_trans (of_decide_eq_true hab) (of_decide_eq_true hbc))

theorem lt_of_le_of_ne (hle : a ≤ b) (hne : a ≠ b) : a < b := by
  refine Nat.lt_of_le_of_ne hle fun hvalue => hne ?_
  cases a
  cases b
  cases hvalue
  rfl

end Uuid

namespace SnapshotStore

open FileAction FileTree

variable {store : SnapshotStore} {t : FileTree} {m : Memory} {f : Uuid} {snap : Snapshot}

/-- The store can be opened, and nothing is below its root: the names on the way are names of folders,
no file is in the way, and a folder that is missing can be made. -/
structure IsFresh (store : SnapshotStore) (t : FileTree) : Prop where
  names : ∀ name ∈ store.root, Route.isName name = true
  top : t.node? [] = some .folder
  free : ∀ r, r <+: store.root → ∀ c, t.node? r ≠ some (.file c)
  empty : ∀ q, store.root <+: q → q ≠ store.root → t.node? q = none

/-- The files of the store hold the snapshots of the memory, one for each household, and there is
nothing else in its folder. -/
structure Represents (store : SnapshotStore) (t : FileTree) (m : Memory) : Prop where
  root : ∀ name ∈ store.root, Route.isName name = true
  folders : t.HasFolders store.folder
  file : ∀ f snap, m.snapshot f = .ok snap →
    t.node? (store.pathOf f) = some (.file (.text (writeLines snap)))
  names : (t.namesIn store.folder).Perm (m.snapshots.map fun s => fileName s.household)
  nodup : (m.snapshots.map Snapshot.household).Nodup

theorem isName_folder (h : ∀ name ∈ store.root, Route.isName name = true) :
    ∀ name ∈ store.folder, Route.isName name = true :=
  List.forall_mem_append.2 ⟨h, List.forall_mem_singleton.2 (by decide)⟩

theorem isName_pathOf (h : ∀ name ∈ store.root, Route.isName name = true) (f : Uuid) :
    ∀ name ∈ store.pathOf f, Route.isName name = true :=
  List.forall_mem_append.2 ⟨isName_folder h, List.forall_mem_singleton.2 (isName_fileName f)⟩

/-! ## Opening -/

theorem represents_prepare (h : store.IsFresh t) :
    ∃ t', store.prepare.runOn t = (.ok (), t') ∧ store.Represents t' {} := by
  -- the root is made first, and below it there is still nothing
  obtain ⟨t₁, hroot, hfolders₁, hrest₁⟩ := exists_runOn_ensureFolder h.names h.top h.free
  have hbelow : ∀ names, names ≠ [] → t₁.node? (store.root ++ names) = none := by
    intro names hnames
    rw [hrest₁ _ fun hle => hnames (by simpa using hle.length_le)]
    exact h.empty _ (List.prefix_append _ _) (by simp [hnames])
  have hfree₁ : ∀ r, r <+: store.folder → ∀ c, t₁.node? r ≠ some (.file c) := by
    intro r hr c
    rcases List.prefix_concat_iff.1 hr with rfl | hr
    · rw [hbelow _ (List.cons_ne_nil _ _)]
      nofun
    · rw [hfolders₁ r hr]
      nofun
  obtain ⟨t', hfolder, hfolders, hrest⟩ :=
    exists_runOn_ensureFolder (isName_folder h.names) (hfolders₁ [] List.nil_prefix) hfree₁
  refine ⟨t', (runOn_bind_of_ok hroot _).trans hfolder, h.names, hfolders, nofun, ?_, List.nodup_nil⟩
  have hnone : t'.namesIn store.folder = [] := by
    refine List.eq_nil_iff_forall_not_mem.2 fun name hname => ?_
    rw [mem_namesIn, hrest _ (not_concat_prefix_self _ _), folder, List.append_assoc,
      hbelow _ (by simp)] at hname
    cases hname
  rw [hnone]
  exact List.Perm.refl _

/-! ## Loading -/

namespace Represents

/-- What is saved under a name of the folder belongs to a household of the memory. -/
theorem node?_eq_none (h : store.Represents t m) {name : String}
    (hname : ∀ s ∈ m.snapshots, fileName s.household ≠ name) :
    t.node? (store.folder ++ [name]) = none := by
  rw [← Option.not_isSome_iff_eq_none, ← mem_namesIn, h.names.mem_iff, List.mem_map]
  rintro ⟨s, hs, heq⟩
  exact hname s hs heq

theorem node?_of_unknown (h : store.Represents t m) {p : Problem} (hf : m.snapshot f = .error p) :
    t.node? (store.pathOf f) = none :=
  h.node?_eq_none fun s hs heq => (Memory.snapshot_eq_error_iff.1 hf).1 s hs (fileName_inj.1 heq)

theorem node?_staging (h : store.Represents t m) (f : Uuid) :
    t.node? (store.folder ++ [stagingName f]) = none :=
  h.node?_eq_none fun s _ heq => stagingName_ne_fileName f s.household heq.symm

theorem runOn_loadFrom (h : store.Represents t m) (hsnap : m.snapshot f = .ok snap) :
    (loadFrom (.ofPath (store.pathOf f))).runOn t = (.ok (settle snap), t) := by
  have hread := runOn_read_ofPath (isName_pathOf h.root f) h.folders (h.file f snap hsnap)
  unfold loadFrom
  rw [pathOf, runOn_bind_of_ok hread, Outcome.ofJson_eq_ok_iff.2 (read?_writeLines (fits snap))]
  rfl

/-- What is loaded is what the memory holds, as it comes back from a text. -/
theorem runOn_load (h : store.Represents t m) (f : Uuid) :
    (store.load f).runOn t = ((m.snapshot f).map settle, t) := by
  unfold load
  rw [runOn_bind_of_ok (runOn_get t)]
  cases hsnap : m.snapshot f with
  | error p =>
    obtain ⟨-, rfl⟩ := Memory.snapshot_eq_error_iff.1 hsnap
    rw [if_neg (by simp [FileTree.contains, h.node?_of_unknown hsnap])]
    rfl
  | ok snap =>
    have hhousehold : (settle snap).household = f :=
      (Memory.household_of_snapshot hsnap : snap.household = f)
    rw [if_pos (by simp [FileTree.contains, h.file f snap hsnap]),
      runOn_bind_of_ok (h.runOn_loadFrom hsnap), if_pos hhousehold]
    rfl

/-! ## Saving -/

/-- Saving a snapshot is inserting it into the memory. -/
theorem save (h : store.Represents t m) (snap : Snapshot) :
    ∃ t', (store.save snap).runOn t = (.ok (), t') ∧ store.Represents t' (m.insert snap) := by
  have hfile : t.node? (store.pathOf snap.household) ≠ some .folder := by
    cases hsnap : m.snapshot snap.household with
    | error p => simp [h.node?_of_unknown hsnap]
    | ok old => simp [h.file _ old hsnap]
  have hfree : t.node? (store.folder ++ [stagingName snap.household]) ≠ some .folder := by
    simp [h.node?_staging]
  refine ⟨_, runOn_writeAtomic (writeLines snap) (isName_folder h.root)
    (isName_fileName snap.household) (isName_stagingName snap.household)
    (stagingName_ne_fileName _ _) (staging_pathOf store snap.household) h.folders hfile hfree,
    h.root, h.folders.written, fun f other hf => ?_, ?_, ?_⟩
  · by_cases hne : f = snap.household
    · subst hne
      rw [Memory.snapshot_insert_self] at hf
      cases hf
      exact node?_written_self
    · rw [Memory.snapshot_insert_of_ne m snap hne] at hf
      rw [pathOf, node?_written_of_ne (fun heq => hne (fileName_inj.1 heq))
        (stagingName_ne_fileName _ _).symm]
      exact h.file f other hf
  · rw [namesIn_written]
    refine ((h.names.filter _).filter _).cons _ |>.trans (List.Perm.of_eq ?_)
    show _ :: _ = (snap :: m.snapshots.filter _).map _
    rw [List.map_cons, List.filter_filter, List.filter_map]
    refine congrArg (_ :: List.map _ ·) (List.filter_congr fun s _ => ?_)
    have htmp : fileName s.household ≠ stagingName snap.household :=
      (stagingName_ne_fileName _ _).symm
    rw [Bool.eq_iff_iff]
    simp [htmp, fileName_inj]
  · refine List.nodup_cons.2 ⟨?_, h.nodup.sublist (List.filter_sublist.map _)⟩
    simp

end Represents

/-! ## Listing -/

/-- The households of a folder are listed in order, each as often as names stand for it. -/
theorem exists_runOn_list (hfolder : t.node? store.folder = some .folder) :
    ∃ ids, store.list.runOn t = (.ok ids, t) ∧ ids.Pairwise (· ≤ ·) ∧
      ids.Perm ((t.namesIn store.folder).filterMap householdOf?) := by
  refine ⟨stableSort (fun a b => decide (a ≤ b)) ((t.namesIn store.folder).filterMap householdOf?),
    ?_, ?_, perm_stableSort _ _⟩
  · unfold list
    rw [runOn_bind_of_ok (runOn_get t), hfolder]
    rfl
  · exact (pairwise_stableSort Uuid.decide_le_total Uuid.decide_le_trans _).imp of_decide_eq_true

/-- Households in order that are listed once each. -/
theorem pairwise_lt_of_nodup {ids : List Uuid} (hordered : ids.Pairwise (· ≤ ·)) (hids : ids.Nodup) :
    ids.Pairwise (· < ·) :=
  (hordered.and hids).imp fun hab => Uuid.lt_of_le_of_ne hab.1 hab.2

theorem Represents.exists_runOn_list (h : store.Represents t m) :
    ∃ ids, store.list.runOn t = (.ok ids, t) ∧ ids.Pairwise (· < ·) ∧
      ∀ f, f ∈ ids ↔ ∃ s ∈ m.snapshots, s.household = f := by
  obtain ⟨ids, hlist, hordered, hnames⟩ :=
    SnapshotStore.exists_runOn_list (h.folders _ (List.prefix_refl _))
  have hids : ids.Perm (m.snapshots.map Snapshot.household) := by
    refine (hnames.trans (h.names.filterMap householdOf?)).trans (List.Perm.of_eq ?_)
    rw [List.filterMap_map, ← List.filterMap_eq_map]
    refine List.filterMap_congr fun s _ => ?_
    rw [Function.comp_apply, householdOf?_fileName, Function.comp_apply]
  refine ⟨ids, hlist, pairwise_lt_of_nodup hordered (hids.nodup_iff.2 h.nodup), fun f => ?_⟩
  rw [hids.mem_iff, List.mem_map]

/-! ## Any number of saves -/

/-- Saves snapshots, one after the other. -/
def saveAll (store : SnapshotStore) : List Snapshot → FileAction Unit
  | [] => pure ()
  | snap :: saved => do
    store.save snap
    store.saveAll saved

theorem represents_saveAll (h : store.Represents t m) (saved : List Snapshot) :
    ∃ t', (store.saveAll saved).runOn t = (.ok (), t') ∧
      store.Represents t' (saved.foldl Memory.insert m) := by
  induction saved generalizing t m with
  | nil => exact ⟨t, rfl, h⟩
  | cons snap saved ih =>
    obtain ⟨t₁, hrun, h₁⟩ := h.save snap
    obtain ⟨t', hrest, h'⟩ := ih h₁
    exact ⟨t', (runOn_bind_of_ok hrun _).trans hrest, h'⟩

/-- **A store is a map from households to snapshots.** Opened where nothing is yet and after any
snapshots were saved, it loads the last one of each household, the same in every field, and knows of no
household that was not saved. One more save changes nothing that is loaded for another household. The
households are listed once each, in ascending order. Loading and listing leave the files as they are.
Whatever the files hold, no snapshot of another household is loaded. -/
theorem saves_make_map (h : store.IsFresh t) (saved : List Snapshot) :
    ∃ t', (do store.prepare; store.saveAll saved : FileAction Unit).runOn t = (.ok (), t') ∧
      (∀ f snap, Snapshot.lastSaved saved f = some snap →
        ∃ loaded, (store.load f).runOn t' = (.ok loaded, t') ∧ snap.Same loaded) ∧
      (∀ f, Snapshot.lastSaved saved f = none →
        (store.load f).runOn t' = (.error (.unknownHousehold f), t')) ∧
      (∀ snap f, f ≠ snap.household → ∃ t'', (store.save snap).runOn t' = (.ok (), t'') ∧
        ((store.load f).runOn t'').1 = ((store.load f).runOn t').1) ∧
      (∃ ids, store.list.runOn t' = (.ok ids, t') ∧ ids.Pairwise (· < ·) ∧
        ∀ f, f ∈ ids ↔ ∃ snap ∈ saved, snap.household = f) ∧
      ∀ files files' f snap, (store.load f).runOn files = (.ok snap, files') → snap.household = f := by
  obtain ⟨t₀, hprepare, h₀⟩ := represents_prepare h
  obtain ⟨t', hsaves, h'⟩ := represents_saveAll h₀ saved
  refine ⟨t', (runOn_bind_of_ok hprepare _).trans hsaves, fun f snap hlast => ?_, fun f hlast => ?_,
    fun snap f hf => ?_, ?_, fun files files' f snap hload => ?_⟩
  · refine ⟨settle snap, ?_, snap.same_settle⟩
    rw [h'.runOn_load, Memory.snapshot_foldl_insert, hlast]
    rfl
  · rw [h'.runOn_load, Memory.snapshot_foldl_insert, hlast]
    rfl
  · obtain ⟨t'', hsave, h''⟩ := h'.save snap
    refine ⟨t'', hsave, ?_⟩
    rw [h''.runOn_load, h'.runOn_load, Memory.snapshot_insert_of_ne _ _ hf]
  · obtain ⟨ids, hlist, hids, hmem⟩ := h'.exists_runOn_list
    refine ⟨ids, hlist, hids, fun f => ?_⟩
    rw [hmem, Memory.exists_household_foldl_insert]
    simp
  · exact household_of_load (congrArg Prod.fst hload)

end SnapshotStore

namespace Sample

/-- A store in a folder that is still to be made. -/
def shelf : SnapshotStore := { root := ["data", "shelf"] }

def disk : FileTree :=
  ⟨[([], .folder), (["notes"], .file (.text "theirs"))]⟩

theorem isFresh_shelf : shelf.IsFresh disk where
  names := by decide
  top := by decide
  free := by
    intro r hr c
    have hinits : r ∈ [[], ["data"], ["data", "shelf"]] := (List.mem_inits r _).2 hr
    rcases List.mem_cons.1 hinits with rfl | hinits
    · simp [disk, FileTree.node?]
    · rcases List.mem_pair.1 hinits with rfl | rfl <;> simp [disk, FileTree.node?]
  empty := by
    rintro _ ⟨q, rfl⟩ -
    simp [shelf, disk, FileTree.node?]

end Sample

/-- The household whose snapshot was saved twice has the later one, though another one was saved in
between. -/
theorem SnapshotStore.sample_saved : Sample.shelf.IsFresh Sample.disk ∧
    ∃ t', (do
        Sample.shelf.prepare
        Sample.shelf.saveAll [Sample.strays, { household := Sample.neighbour }, Sample.snapshot] :
        FileAction Unit).runOn Sample.disk = (.ok (), t') ∧
      (∃ loaded, (Sample.shelf.load Sample.home).runOn t' = (.ok loaded, t') ∧
        Sample.snapshot.Same loaded) ∧
      (Sample.shelf.load Sample.checking).runOn t' =
        (.error (.unknownHousehold Sample.checking), t') ∧
      ∃ ids, Sample.shelf.list.runOn t' = (.ok ids, t') ∧ ids.Pairwise (· < ·) ∧
        ∀ f, f ∈ ids ↔ f = Sample.home ∨ f = Sample.neighbour := by
  obtain ⟨t', hrun, hlast, hnone, -, ⟨ids, hlist, hids, hmem⟩, -⟩ :=
    SnapshotStore.saves_make_map Sample.isFresh_shelf
      [Sample.strays, { household := Sample.neighbour }, Sample.snapshot]
  refine ⟨Sample.isFresh_shelf, t', hrun, hlast _ _ (by decide), hnone _ (by decide), ids, hlist, hids,
    fun f => ?_⟩
  rw [hmem]
  simp [Sample.strays, Sample.snapshot, eq_comm, or_comm]

end Forecast
