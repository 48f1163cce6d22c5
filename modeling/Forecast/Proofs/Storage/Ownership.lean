import Forecast.Proofs.Source.Memory
import Forecast.Storage.SnapshotStore

/-!
# Records of other households

A snapshot can hold records that belong to another household than its own. A source in memory leaves
them out and a store does not, so that the store and the source that is loaded from it agree on a
question exactly if no such record is among the answers: `SnapshotStore.sources_agree_iff`. Where they
agree on what a session asks of them, the session cannot tell them apart.
-/

namespace Forecast

namespace SnapshotStore

variable {store : SnapshotStore} {t : FileTree} {household : Uuid} {snap : Snapshot}

/-- An action in two steps has an answer when each of them does. -/
theorem answer_bind_eq_ok_iff {α β : Type} {x : FileAction α} {f : α → FileAction β} {b : β} :
    answer t (x >>= f) = .ok b ↔
      ∃ a, answer t x = .ok a ∧ answer (x.run.run t).2 (f a) = .ok b := by
  unfold answer
  rw [ExceptT.run_bind, StateT.run_bind]
  cases x.run.run t with
  | mk r t' =>
    cases r with
    | error e =>
      constructor
      · intro h
        cases h
      · rintro ⟨a, ha, -⟩
        cases ha
    | ok a =>
      constructor
      · intro h
        exact ⟨a, rfl, h⟩
      · rintro ⟨a', ha, h⟩
        cases ha
        exact h

theorem loadSource_of_load (h : answer t (store.load household) = .ok snap) :
    answer t (store.loadSource household) = .ok (({} : Memory).insert snap) :=
  answer_bind_eq_ok_iff.2 ⟨snap, h, rfl⟩

/-- A file with the records of another household is refused. -/
theorem household_of_load (h : answer t (store.load household) = .ok snap) :
    snap.household = household := by
  obtain ⟨t', -, h⟩ := answer_bind_eq_ok_iff.1 h
  split at h
  · obtain ⟨found, -, h⟩ := answer_bind_eq_ok_iff.1 h
    split at h
    · rename_i hfound
      cases h
      exact hfound
    · cases h
  · cases h

/-! ## What the two answer -/

theorem accounts_of_load (h : answer t (store.load household) = .ok snap) :
    (store.records t).accounts household = .ok snap.accounts := by
  simp only [records, h]
  rfl

theorem entries_of_load (h : answer t (store.load household) = .ok snap) (w : Window)
    (filter : Option (List Uuid)) :
    (store.records t).entries household w filter = .ok (snap.entriesWithin w filter) := by
  simp only [records, h]
  rfl

theorem recurring_of_load (h : answer t (store.load household) = .ok snap) :
    (store.records t).recurring household = .ok snap.recurring := by
  simp only [records, h]
  rfl

end SnapshotStore

/-- Records are all there after the others were left out exactly if there are no others. -/
theorem ok_eq_ok_filter_iff {α : Type} {as : List α} {p : α → Bool} :
    (.ok as : Outcome (List α)) = .ok (as.filter p) ↔ ∀ a ∈ as, p a = true := by
  rw [Except.ok.injEq, eq_comm, List.filter_eq_self]

namespace SnapshotStore

variable {store : SnapshotStore} {t : FileTree} {household : Uuid} {snap : Snapshot}

/-- **Where a store and the source loaded from it agree.** On the accounts, on the entries of a window
on some accounts, and on the definitions they agree exactly if those of the snapshot all belong to the
household. A session for which they all do gets the same answers over both, whatever it is asked and
was asked before. -/
theorem sources_agree_iff (h : answer t (store.load household) = .ok snap) :
    ∃ m, answer t (store.loadSource household) = .ok m ∧
      ((store.records t).accounts household = m.records.accounts household ↔
        ∀ a ∈ snap.accounts, a.household = household) ∧
      (∀ w filter,
        (store.records t).entries household w filter = m.records.entries household w filter ↔
          ∀ e ∈ snap.entries, e.isWithin w filter = true → e.household = household) ∧
      ((store.records t).recurring household = m.records.recurring household ↔
        ∀ r ∈ snap.recurring, r.household = household) ∧
      ∀ s : Session, s.request.household = household →
        (∀ a ∈ snap.accounts, a.household = household) →
        (∀ e ∈ snap.entries, e.isWithin s.request.window s.request.accounts = true →
          e.household = household) →
        (∀ r ∈ snap.recurring, r.household = household) →
        ∀ past q, ((s.answer store.source q).runFrom (s.after store.source ({}, t) past)).1 =
          ((s.answer Memory.source q).runFrom (s.after Memory.source ({}, m) past)).1 := by
  have hsnap : (({} : Memory).insert snap).snapshot household = .ok snap := by
    rw [← household_of_load h]
    exact Memory.snapshot_insert_self _ snap
  have haccounts : (store.records t).accounts household =
      (({} : Memory).insert snap).records.accounts household ↔
        ∀ a ∈ snap.accounts, a.household = household := by
    show _ = Memory.accounts _ household ↔ _
    rw [accounts_of_load h, Memory.accounts_of_snapshot hsnap]
    simp only [Snapshot.ownedBy, ok_eq_ok_filter_iff, beq_iff_eq]
  have hentries : ∀ w filter, (store.records t).entries household w filter =
      (({} : Memory).insert snap).records.entries household w filter ↔
        ∀ e ∈ snap.entries, e.isWithin w filter = true → e.household = household := by
    intro w filter
    show _ = Memory.entries _ household w filter ↔ _
    rw [entries_of_load h, Memory.entries, hsnap, ok_bind]
    refine ok_eq_ok_filter_iff.trans ?_
    simp only [Snapshot.entriesWithin, List.mem_filter, and_imp, beq_iff_eq]
  have hrecurring : (store.records t).recurring household =
      (({} : Memory).insert snap).records.recurring household ↔
        ∀ r ∈ snap.recurring, r.household = household := by
    show _ = Memory.recurring _ household ↔ _
    rw [recurring_of_load h, Memory.recurring_of_snapshot hsnap]
    simp only [Snapshot.ownedBy, ok_eq_ok_filter_iff, beq_iff_eq]
  refine ⟨({} : Memory).insert snap, loadSource_of_load h, haccounts, hentries, hrecurring, ?_⟩
  rintro s rfl ha he hr past q
  exact Session.answer_after_congr
    (Session.eventsOver_congr ((hentries _ _).2 he) (hrecurring.2 hr))
    (Session.balanceOver_congr (haccounts.2 ha)) past q

end SnapshotStore

/-! ## A stray account -/

namespace Sample

def store : SnapshotStore := { root := [] }

/-- A snapshot with one account, which is the neighbour's. -/
def strays : Snapshot where
  household := home
  accounts := [stray]

/-- The file of the household in the store. -/
def strayText : String :=
  "\x7b\"family_id\":\"00000000-0000-0000-0000-000000000001\",\"accounts\":[\x7b" ++
  "\"id\":\"00000000-0000-0000-0000-00000000000d\"," ++
  "\"family_id\":\"00000000-0000-0000-0000-000000000002\"," ++
  "\"name\":\"theirs\",\"classification\":\"asset\",\"balance\":\"77\"\x7d]\x7d"

def files : FileTree :=
  ⟨[([], .folder), (store.folder, .folder), (store.pathOf home, .file (.text strayText))]⟩

set_option maxRecDepth 100000 in
theorem load_strays : SnapshotStore.answer files (store.load home) = .ok strays := by
  decide +kernel

end Sample

namespace SnapshotStore

/-- With a stray account in the file the two agree on the definitions and not on the accounts. -/
theorem sample_agreement : answer Sample.files (Sample.store.load Sample.home) = .ok Sample.strays ∧
    ∃ m, answer Sample.files (Sample.store.loadSource Sample.home) = .ok m ∧
      (Sample.store.records Sample.files).accounts Sample.home ≠ m.records.accounts Sample.home ∧
      (Sample.store.records Sample.files).recurring Sample.home =
        m.records.recurring Sample.home := by
  obtain ⟨m, hm, haccounts, -, hrecurring, -⟩ := sources_agree_iff Sample.load_strays
  refine ⟨Sample.load_strays, m, hm, ?_, hrecurring.2 (by decide)⟩
  intro h
  exact absurd (haccounts.1 h) (by decide)

/-- The neighbour's account is served by the store and not by the source loaded from it, and a
session over the store counts what is on it. -/
theorem stray_account_served :
    (Sample.store.records Sample.files).accounts Sample.home = .ok Sample.strays.accounts ∧
    ((Sample.session.startingBalance Sample.store.source).runFrom ({}, Sample.files)).1 =
      .ok (.whole 77) ∧
    ∃ m, answer Sample.files (Sample.store.loadSource Sample.home) = .ok m ∧
      m.records.accounts Sample.home = .ok [] ∧
      ((Sample.session.startingBalance Memory.source).runFrom ({}, m)).1 = .ok 0 := by
  refine ⟨accounts_of_load Sample.load_strays, ?_, ({} : Memory).insert Sample.strays,
    loadSource_of_load Sample.load_strays, by decide +kernel, by decide +kernel⟩
  have hfresh := Session.reads_fresh Sample.session Sample.store.records Sample.files
  have hgives := (Session.gives_startingBalance Sample.session Sample.store.records Sample.files
    _ hfresh).1
  rw [Session.balanceOver, show Sample.session.request.household = Sample.home from rfl,
    accounts_of_load Sample.load_strays] at hgives
  exact hgives.trans (by decide +kernel)

end SnapshotStore

end Forecast
