import Forecast.Proofs.Storage.Saved

/-!
# What is listed and what can be loaded

A listing tells a household by every spelling of its identifier, whereas a snapshot is only looked for
under the one name that a store gives its file. A folder into which others put files may thus list a
household more than once, or one that cannot be loaded. It does neither exactly if every file that
stands for a household has the name that the store would have given it:
`SnapshotStore.lists_loadable_iff`.

No path of a file system has two things at it (`FileTree.IsProper`), and no writing changes that.
-/

namespace Forecast

/-- What is made of different things has no duplicates exactly if no two of them make the same. -/
theorem nodup_filterMap_iff {α β : Type} {f : α → Option β} {as : List α} (h : as.Nodup) :
    (as.filterMap f).Nodup ↔ ∀ a ∈ as, ∀ a' ∈ as, ∀ b, f a = some b → f a' = some b → a = a' := by
  unfold List.Nodup
  rw [List.pairwise_filterMap]
  constructor
  · intro hpair a ha a' ha' b hb hb'
    by_contra hne
    have hsymm : Std.Symm fun a a' => ∀ b, f a = some b → ∀ b', f a' = some b' → b ≠ b' :=
      ⟨fun _ _ hab b hb b' hb' => (hab b' hb' b hb).symm⟩
    exact hpair.forall ha ha' hne b hb b hb' rfl
  · intro hinj
    refine h.imp_of_mem fun {a a'} ha ha' hne b hb b' hb' => ?_
    rintro rfl
    exact hne (hinj a ha a' ha' b hb hb')

/-! ## Proper trees -/

namespace FileTree

variable {t : FileTree} {p : Path} {n : Node}

/-- At no path are two things. -/
def IsProper (t : FileTree) : Prop :=
  (t.nodes.map Prod.fst).Nodup

theorem isProper_empty : empty.IsProper :=
  List.nodup_singleton _

theorem IsProper.keep (h : t.IsProper) (test : Path → Bool) : (t.keep test).IsProper :=
  h.sublist (List.filter_sublist.map _)

theorem IsProper.put (h : t.IsProper) (p : Path) (n : Node) : (t.put p n).IsProper := by
  refine List.nodup_cons.2 ⟨?_, h.keep fun q => q != p⟩
  simp

theorem IsProper.erase (h : t.IsProper) (p : Path) : (t.erase p).IsProper :=
  h.keep fun q => !p.isPrefixOf q

/-- A name comes once below a path. -/
theorem IsProper.nodup_namesIn (h : t.IsProper) (p : Path) : (t.namesIn p).Nodup := by
  have hnames : t.namesIn p = (t.nodes.map Prod.fst).filterMap fun q =>
      if q.dropLast == p && q != [] then q.getLast? else none := by
    rw [List.filterMap_map]
    rfl
  rw [hnames, nodup_filterMap_iff h]
  intro q _ q' _ name hq hq'
  rw [nameBelow_eq_some_iff] at hq hq'
  rw [hq, hq']

end FileTree

namespace FileAction

open FileTree

variable {α β : Type} {t : FileTree}

/-- The action leaves a proper tree proper, also where it is refused. -/
def KeepsProper (action : FileAction α) : Prop :=
  ∀ t, t.IsProper → (action.runOn t).2.IsProper

theorem KeepsProper.bind {x : FileAction α} {f : α → FileAction β} (hx : x.KeepsProper)
    (hf : ∀ a, (f a).KeepsProper) : (x >>= f).KeepsProper := by
  intro t ht
  have hx := hx t ht
  rw [runOn_bind]
  cases h : x.runOn t with
  | mk r t' =>
    rw [h] at hx
    cases r with
    | error e => exact hx
    | ok a => exact hf a t' hx

theorem keepsProper_makeBelow (p : Path) (names : List String) : (makeBelow p names).KeepsProper := by
  induction names generalizing p with
  | nil => exact fun t ht => ht
  | cons name names ih =>
    intro t ht
    unfold makeBelow
    split
    · exact ht
    · rename_i q _
      rw [runOn_bind_of_ok (runOn_get t)]
      split
      · exact ht
      · exact ih q t ht
      · exact ih q _ (ht.put q .folder)

theorem keepsProper_makeFolders (r : Route) : (makeFolders r).KeepsProper := by
  unfold makeFolders
  split
  · exact keepsProper_makeBelow [] r.steps
  · exact fun t ht => ht

theorem keepsProper_ensureFolder (r : Route) : (ensureFolder r).KeepsProper := by
  intro t ht
  rw [runOn_ensureFolder_eq]
  split
  · exact ht
  · exact keepsProper_makeFolders r t ht

theorem keepsProper_write (r : Route) (content : Content) : (write r content).KeepsProper := by
  intro t ht
  unfold write
  rw [runOn_bind_of_ok (runOn_get t)]
  split
  · exact ht.put _ _
  · exact ht

theorem keepsProper_move (source target : Route) : (move source target).KeepsProper := by
  intro t ht
  unfold move
  rw [runOn_bind_of_ok (runOn_get t)]
  split
  · split
    · exact (ht.erase _).put _ _
    · exact ht
  · exact ht

theorem keepsProper_writeAtomic (r : Route) (text : String) : (writeAtomic r text).KeepsProper :=
  (keepsProper_ensureFolder _).bind fun _ => (keepsProper_write _ _).bind fun _ => keepsProper_move _ _

theorem keepsProper_writeFile (r : Route) (content : Content) : (writeFile r content).KeepsProper :=
  (keepsProper_makeFolders _).bind fun _ => keepsProper_write _ _

end FileAction

namespace SnapshotStore

open FileAction FileTree

variable {store : SnapshotStore} {t : FileTree} {f : Uuid}

theorem keepsProper_prepare (store : SnapshotStore) : store.prepare.KeepsProper :=
  (keepsProper_ensureFolder _).bind fun _ => keepsProper_ensureFolder _

/-! ## Loading from any folder -/

/-- A file that cannot be read as a snapshot is reported as such. -/
theorem loadFrom_ne_unknown (r : Route) (t : FileTree) (f : Uuid) :
    ((loadFrom r).runOn t).1 ≠ .error (.unknownHousehold f) := by
  unfold loadFrom
  rw [runOn_bind]
  rcases runOn_read_cases r t with ⟨s, hread⟩ | hread
  · rw [hread]
    intro h
    cases (Outcome.ofJson_eq_error_iff.1 h).2
  · rw [hread]
    nofun

/-- A household is unknown exactly if nothing is under the name of its file. -/
theorem load_unknown_iff :
    ((store.load f).runOn t).1 = .error (.unknownHousehold f) ↔
      fileName f ∉ t.namesIn store.folder := by
  rw [mem_namesIn]
  unfold load
  rw [runOn_bind_of_ok (runOn_get t)]
  by_cases hfile : t.contains (store.pathOf f) = true
  · rw [if_pos hfile]
    refine iff_of_false ?_ (not_not_intro hfile)
    have hload := loadFrom_ne_unknown (.ofPath (store.pathOf f)) t f
    rw [runOn_bind]
    cases hrun : (loadFrom (.ofPath (store.pathOf f))).runOn t with
    | mk r t' =>
      rw [hrun] at hload
      cases r with
      | error e => exact hload
      | ok snap =>
        dsimp only
        split <;> nofun
  · rw [if_neg hfile]
    exact iff_of_true rfl hfile

/-- **What a store lists can be loaded** exactly if every file in its folder that stands for a
household has the name that the store gives it. Whatever the folder holds, the households are listed
in order, each as often as files stand for it, and one is unknown to loading exactly if no file has its
name. -/
theorem lists_loadable_iff (hproper : t.IsProper) (hfolder : t.node? store.folder = some .folder) :
    ∃ ids, store.list.runOn t = (.ok ids, t) ∧ ids.Pairwise (· ≤ ·) ∧
      (∀ f, ids.count f = (t.namesIn store.folder).countP fun name => householdOf? name == some f) ∧
      (∀ f, ((store.load f).runOn t).1 = .error (.unknownHousehold f) ↔
        fileName f ∉ t.namesIn store.folder) ∧
      ((ids.Pairwise (· < ·) ∧
          ∀ f ∈ ids, ((store.load f).runOn t).1 ≠ .error (.unknownHousehold f)) ↔
        ∀ name ∈ t.namesIn store.folder, ∀ f, householdOf? name = some f → name = fileName f) := by
  obtain ⟨ids, hlist, hordered, hperm⟩ := exists_runOn_list hfolder
  have hnodup : ids.Nodup ↔ _ :=
    hperm.nodup_iff.trans (nodup_filterMap_iff (f := householdOf?) (hproper.nodup_namesIn store.folder))
  have hmem : ∀ f, f ∈ ids ↔ ∃ name ∈ t.namesIn store.folder, householdOf? name = some f := by
    intro f
    rw [hperm.mem_iff, List.mem_filterMap]
  refine ⟨ids, hlist, hordered, fun f => ?_, fun f => load_unknown_iff, ?_⟩
  · rw [hperm.count_eq, List.count_filterMap]
  · simp only [ne_eq, load_unknown_iff, not_not]
    constructor
    · rintro ⟨hascending, hnamed⟩ name hname f hf
      have hlisted : f ∈ ids := (hmem f).2 ⟨name, hname, hf⟩
      have hids : ids.Nodup := hascending.imp fun hlt => by
        rintro rfl
        exact Nat.lt_irrefl _ hlt
      exact hnodup.1 hids name hname _ (hnamed f hlisted) f hf (householdOf?_fileName f)
    · intro hspelled
      constructor
      · refine pairwise_lt_of_nodup hordered (hnodup.2 fun name hname name' hname' f hf hf' => ?_)
        rw [hspelled name hname f hf, hspelled name' hname' f hf']
      · intro f hf
        obtain ⟨name, hname, hf⟩ := (hmem f).1 hf
        rw [← hspelled name hname f hf]
        exact hname

end SnapshotStore

/-! ## Files of others -/

namespace Sample

/-- A household that is saved, and a file beside it that stands for none. -/
def filed : FileAction Unit := do
  store.prepare
  store.save { household := home }
  FileAction.writeFile (.ofPath (store.folder ++ ["notes.json"])) .undecodable

/-- The same with files that are named by the bare digits of two households, of which only one was
saved. -/
def filedByDigits : FileAction Unit := do
  filed
  FileAction.writeFile (.ofPath (store.folder ++ ["00000000000000000000000000000001.json"])) .undecodable
  FileAction.writeFile (.ofPath (store.folder ++ ["00000000000000000000000000000002.json"])) .undecodable

/-- What is there after a household was saved. -/
def cabinet : FileTree :=
  ⟨[(store.folder ++ ["notes.json"], .file .undecodable),
    (store.pathOf home, .file (.text (Json.writeLines ({ household := home } : Snapshot)))),
    (store.folder, .folder), ([], .folder)]⟩

/-- What is there with the files named by digits. -/
def cabinetWithDigits : FileTree :=
  ⟨(store.folder ++ ["00000000000000000000000000000002.json"], .file .undecodable) ::
    (store.folder ++ ["00000000000000000000000000000001.json"], .file .undecodable) :: cabinet.nodes⟩

theorem runOn_filed : filed.runOn .empty = (.ok (), cabinet) := by
  decide +kernel

theorem runOn_filedByDigits : filedByDigits.runOn .empty = (.ok (), cabinetWithDigits) := by
  unfold filedByDigits
  rw [FileAction.runOn_bind_of_ok runOn_filed]
  decide +kernel

theorem keepsProper_filed : filed.KeepsProper :=
  (SnapshotStore.keepsProper_prepare store).bind fun _ =>
    (FileAction.keepsProper_writeAtomic _ _).bind fun _ => FileAction.keepsProper_writeFile _ _

theorem keepsProper_filedByDigits : filedByDigits.KeepsProper :=
  keepsProper_filed.bind fun _ =>
    (FileAction.keepsProper_writeFile _ _).bind fun _ => FileAction.keepsProper_writeFile _ _

theorem isProper_cabinet : cabinet.IsProper := by
  have h := keepsProper_filed _ FileTree.isProper_empty
  rwa [runOn_filed] at h

theorem isProper_cabinetWithDigits : cabinetWithDigits.IsProper := by
  have h := keepsProper_filedByDigits _ FileTree.isProper_empty
  rwa [runOn_filedByDigits] at h

theorem node?_folder_cabinet : cabinet.node? store.folder = some .folder := by
  decide +kernel

theorem namesIn_cabinet :
    cabinet.namesIn store.folder = ["notes.json", SnapshotStore.fileName home] := by
  decide +kernel

end Sample

namespace SnapshotStore

/-- Beside the file of a household one with another name does no harm. -/
theorem sample_cabinet : Sample.filed.runOn .empty = (.ok (), Sample.cabinet) ∧
    Sample.cabinet.IsProper ∧ Sample.cabinet.node? Sample.store.folder = some .folder ∧
    ∃ ids, Sample.store.list.runOn Sample.cabinet = (.ok ids, Sample.cabinet) ∧
      ids.Pairwise (· < ·) ∧ ids.count Sample.home = 1 ∧
      ∀ f ∈ ids, ((Sample.store.load f).runOn Sample.cabinet).1 ≠ .error (.unknownHousehold f) := by
  have hnotes : householdOf? "notes.json" = none := by decide
  have hhome := householdOf?_fileName Sample.home
  obtain ⟨ids, hlist, -, hcount, -, hiff⟩ :=
    lists_loadable_iff Sample.isProper_cabinet Sample.node?_folder_cabinet
  obtain ⟨hids, hload⟩ := hiff.2 fun name hname f hf => by
    rw [Sample.namesIn_cabinet] at hname
    rcases List.mem_pair.1 hname with rfl | rfl
    · rw [hnotes] at hf
      cases hf
    · rw [Option.some.inj (hhome.symm.trans hf)]
  refine ⟨Sample.runOn_filed, Sample.isProper_cabinet, Sample.node?_folder_cabinet, ids, hlist, hids, ?_,
    hload⟩
  rw [hcount, Sample.namesIn_cabinet]
  simp [hnotes, hhome]

/-- A file that is named by bare digits is listed, beside the one that was saved or alone, and is not
found. -/
theorem bare_digits_listed :
    Sample.filedByDigits.runOn .empty = (.ok (), Sample.cabinetWithDigits) ∧
    Sample.cabinetWithDigits.IsProper ∧
    Sample.store.list.runOn Sample.cabinetWithDigits =
      (.ok [Sample.home, Sample.home, Sample.neighbour], Sample.cabinetWithDigits) ∧
    (Sample.store.load Sample.neighbour).runOn Sample.cabinetWithDigits =
      (.error (.unknownHousehold Sample.neighbour), Sample.cabinetWithDigits) :=
  ⟨Sample.runOn_filedByDigits, Sample.isProper_cabinetWithDigits, by decide +kernel,
    by decide +kernel⟩

end SnapshotStore

end Forecast
