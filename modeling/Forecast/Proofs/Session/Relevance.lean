import Forecast.Proofs.Scenario.Addition
import Forecast.Proofs.Session.Snapshots

/-!
# Records that do not count

Most of what a source holds is looked at and left out: other households, accounts that are closed or not
asked for, entries that are cleared or outside the window, definitions that are out of use or paused.
The filters stand in the source, in the sum of the accounts and in the list of the events. Together they
let through what counts (`Outlook.countsAccount`, `countsEntry`, `countsDefinition`) and nothing else:
two memories that differ in other records only (`Memory.DifferOnly`) answer every inquiry alike
(`Session.answer_of_differOnly`).
-/

namespace Forecast

/-- Two lists that differ only in elements that do not count: each of these may be missing from one of
them or be another one. -/
inductive DifferOnly {α : Type} (counts : α → Bool) : List α → List α → Prop
  | nil : DifferOnly counts [] []
  | same (a : α) {as as' : List α} (h : DifferOnly counts as as') :
      DifferOnly counts (a :: as) (a :: as')
  | deleted {a : α} {as as' : List α} (ha : counts a = false) (h : DifferOnly counts as as') :
      DifferOnly counts (a :: as) as'
  | inserted {a : α} {as as' : List α} (ha : counts a = false) (h : DifferOnly counts as as') :
      DifferOnly counts as (a :: as')
  | altered {a a' : α} {as as' : List α} (ha : counts a = false) (ha' : counts a' = false)
      (h : DifferOnly counts as as') : DifferOnly counts (a :: as) (a' :: as')

/-- What counts is the same in both lists, and in the same order. -/
theorem DifferOnly.filter_eq {α : Type} {counts : α → Bool} {as as' : List α}
    (h : DifferOnly counts as as') : as.filter counts = as'.filter counts := by
  induction h with
  | nil => rfl
  | same a _ ih => rw [List.filter_cons, List.filter_cons, ih]
  | deleted ha _ ih => rw [List.filter_cons_of_neg (by simp [ha]), ih]
  | inserted ha _ ih => rw [List.filter_cons_of_neg (by simp [ha]), ih]
  | altered ha ha' _ ih =>
    rw [List.filter_cons_of_neg (by simp [ha]), List.filter_cons_of_neg (by simp [ha']), ih]

/-- What passes a narrower test is found among what passes a wider one. -/
theorem filter_eq_of_filter_eq {α : Type} {p q : α → Bool} {as as' : List α}
    (hqp : ∀ a, q a = true → p a = true) (h : as.filter p = as'.filter p) :
    as.filter q = as'.filter q := by
  have hnarrow : ∀ as : List α, (as.filter p).filter q = as.filter q := by
    intro as
    rw [List.filter_filter]
    refine List.filter_congr ?_
    intro a _
    cases hq : q a with
    | false => rfl
    | true => rw [hqp a hq, Bool.and_self]
  rw [← hnarrow as, h, hnarrow as']

namespace Outlook

variable {o : Outlook} {snap snap' : Snapshot} {entries entries' : List Entry}
  {definitions definitions' : List Recurring}

/-- The account counts: it belongs to the household, is active and passes the filter. -/
def countsAccount (o : Outlook) (a : Account) : Bool :=
  a.household == o.request.household && (a.isActive && admits o.request.accounts a.id)

/-- The entry counts: it belongs to the household, is pending and dated in the window, and stands on an
account that passes the filter. -/
def countsEntry (o : Outlook) (e : Entry) : Bool :=
  e.household == o.request.household && o.isPending e

/-- The definition counts: it belongs to the household, is active and is not paused today. -/
def countsDefinition (o : Outlook) (r : Recurring) : Bool :=
  r.household == o.request.household && o.isExpected r

/-- Two snapshots that differ only in records that do not count. -/
structure SnapshotsDifferOnly (o : Outlook) (snap snap' : Snapshot) : Prop where
  accounts : DifferOnly o.countsAccount snap.accounts snap'.accounts
  entries : DifferOnly o.countsEntry snap.entries snap'.entries
  recurring : DifferOnly o.countsDefinition snap.recurring snap'.recurring

/-- The events hang on the entries and the definitions of which events are expected. -/
theorem events_congr (hentries : entries.filter o.isPending = entries'.filter o.isPending)
    (hdefinitions : definitions.filter o.isExpected = definitions'.filter o.isExpected) :
    o.events entries definitions = o.events entries' definitions' := by
  have hpending : o.pendingEvents entries = o.pendingEvents entries' :=
    congrArg (List.map o.entryEvent) hentries
  have hrecurring : o.recurringEvents definitions = o.recurringEvents definitions' := by
    show (do return (← (definitions.filter o.isExpected).mapM o.definitionEvents).flatten) =
      (do return (← (definitions'.filter o.isExpected).mapM o.definitionEvents).flatten)
    rw [hdefinitions]
  rw [events, events, hpending, hrecurring]

theorem events_of_differOnly (h : o.SnapshotsDifferOnly snap snap') :
    o.events (snap.ownedBy o.request.household).entries (snap.ownedBy o.request.household).recurring =
      o.events (snap'.ownedBy o.request.household).entries
        (snap'.ownedBy o.request.household).recurring := by
  refine events_congr ?_ ?_
  · show (snap.entries.filter _).filter o.isPending = (snap'.entries.filter _).filter o.isPending
    rw [List.filter_filter, List.filter_filter]
    refine filter_eq_of_filter_eq ?_ h.entries.filter_eq
    intro e he
    rwa [countsEntry, Bool.and_comm]
  · show (snap.recurring.filter _).filter o.isExpected = (snap'.recurring.filter _).filter o.isExpected
    rw [List.filter_filter, List.filter_filter]
    refine filter_eq_of_filter_eq ?_ h.recurring.filter_eq
    intro r hr
    rwa [countsDefinition, Bool.and_comm]

theorem holdings_of_differOnly (h : o.SnapshotsDifferOnly snap snap') :
    Account.holdings (snap.ownedBy o.request.household).accounts o.request.accounts =
      Account.holdings (snap'.ownedBy o.request.household).accounts o.request.accounts := by
  have hclass : ∀ c, Account.balancesOf (snap.ownedBy o.request.household).accounts
      o.request.accounts c =
        Account.balancesOf (snap'.ownedBy o.request.household).accounts o.request.accounts c := by
    intro c
    unfold Account.balancesOf Snapshot.ownedBy
    rw [List.filter_filter, List.filter_filter]
    refine congrArg (List.map Account.balance) (filter_eq_of_filter_eq ?_ h.accounts.filter_eq)
    intro a ha
    simp only [Bool.and_eq_true] at ha
    simp only [countsAccount, ha.1.1.1, ha.1.2, ha.2, Bool.and_self]
  rw [Account.holdings, Account.holdings, hclass, hclass]

end Outlook

/-- Two memories that differ only in what does not count for a request: either neither holds a snapshot
of the household, or both do and the two differ only in records that do not count. Nothing is said on
other households. -/
inductive Memory.DifferOnly (o : Outlook) (m m' : Memory) : Prop
  | unknown {p p' : Problem} (h : m.snapshot o.request.household = .error p)
      (h' : m'.snapshot o.request.household = .error p')
  | known {snap snap' : Snapshot} (h : m.snapshot o.request.household = .ok snap)
      (h' : m'.snapshot o.request.household = .ok snap') (hdiffer : o.SnapshotsDifferOnly snap snap')

theorem Memory.problem_of_snapshot {m : Memory} {household : Uuid} {p : Problem}
    (h : m.snapshot household = .error p) : p = .unknownHousehold household := by
  unfold snapshot at h
  split at h
  · cases h
  · cases h
    rfl

namespace Session

/-- **Records that do not count have no influence.** From two memories that differ only in such records,
every inquiry gets the same answer, with its faults and problems, whatever was asked before. -/
theorem answer_of_differOnly (s : Session) {m m' : Memory} (h : Memory.DifferOnly s.outlook m m')
    (past past' : List Inquiry) (q : Inquiry) :
    s.answerAfter Memory.source m past q = s.answerAfter Memory.source m' past' q := by
  rw [answerAfter_memory, answerAfter_memory]
  unfold Memory.served
  cases h with
  | unknown hm hm' =>
    obtain rfl := Memory.problem_of_snapshot hm
    obtain rfl := Memory.problem_of_snapshot hm'
    rw [show m.snapshot s.request.household = _ from hm,
      show m'.snapshot s.request.household = _ from hm']
  | known hm hm' hdiffer =>
    rw [show m.snapshot s.request.household = _ from hm,
      show m'.snapshot s.request.household = _ from hm']
    exact congrArg Checked.attempt (answerFrom_congr (Outlook.events_of_differOnly hdiffer)
      (Outlook.holdings_of_differOnly hdiffer) q)

end Session

namespace Sample

/-- The snapshot with other records that do not count: another account out of use in place of the old one
and none of the neighbour's, a later refund and a pending entry outside the window in place of the
others, and another two definitions that are out of use or paused. -/
def rearranged : Snapshot :=
  { snapshot with
    accounts := snapshot.accounts.take 2 ++
      [{ id := { value := 41 }, household := home, name := "older", classification := .asset,
         status := .inactive, balance := .whole 4000 }]
    entries := snapshot.entries.take 1 ++
      [{ id := { value := 42 }, household := home, account := checking, date := date 3 1,
         name := "refund", classification := .income, amount := .whole 500 },
       { id := { value := 43 }, household := home, account := checking, date := date 3 2,
         name := "dentist", classification := .expense, amount := .whole 80, pending := true }]
    recurring := snapshot.recurring.take 3 ++
      [{ id := { value := 44 }, household := home, name := "paper", amount := .whole 4,
         anchorDay := 29, status := .inactive },
       { id := { value := 45 }, household := home, name := "club", amount := .whole 90,
         anchorDay := 29, pausedUntil := some (date 3 31) }] }

/-- The household with these records, next to a neighbour with a snapshot of their own. -/
def crowded : Memory :=
  (({} : Memory).insert { snapshot with household := neighbour }).insert rearranged

theorem rearranged_differOnly : session.outlook.SnapshotsDifferOnly snapshot rearranged where
  accounts := .same _ (.same _ (.altered (by decide +kernel) (by decide +kernel)
    (.deleted (by decide +kernel) .nil)))
  entries := .same _ (.altered (by decide +kernel) (by decide +kernel)
    (.altered (by decide +kernel) (by decide +kernel) .nil))
  recurring := .same _ (.same _ (.same _ (.altered (by decide +kernel) (by decide +kernel)
    (.altered (by decide +kernel) (by decide +kernel) (.deleted (by decide +kernel) .nil)))))

theorem crowded_differOnly : Memory.DifferOnly session.outlook memory crowded :=
  .known snapshot_memory (Memory.snapshot_insert_self _ rearranged) rearranged_differOnly

end Sample

namespace Session

/-- The curve with an outlay on the leap day is the same in both. -/
theorem sample_crowded : ∃ points : List ScenarioPoint,
    Memory.DifferOnly Sample.session.outlook Sample.memory Sample.crowded ∧
    Sample.session.answerAfter Memory.source Sample.memory [] Sample.outlay = .ok points ∧
    Sample.session.answerAfter Memory.source Sample.crowded [.alerts] Sample.outlay = .ok points ∧
    points.map (fun p => (p.date, p.balance)) =
      [(Sample.date 2 28, .hundredths 274950), (Sample.date 2 29, .hundredths 180875),
        (Sample.date 3 1, .hundredths 380875)] := by
  have hbalances : (Sample.session.answerAfter Memory.source Sample.memory [] Sample.outlay).map
      (fun points : List ScenarioPoint => points.map fun p => (p.date, p.balance)) =
        .ok [(Sample.date 2 28, .hundredths 274950), (Sample.date 2 29, .hundredths 180875),
          (Sample.date 3 1, .hundredths 380875)] := by
    decide +kernel
  obtain ⟨points, hpoints, hbalances⟩ := map_eq_ok_iff.1 hbalances
  have hsame := answer_of_differOnly Sample.session Sample.crowded_differOnly [] [.alerts]
    Sample.outlay
  exact ⟨points, Sample.crowded_differOnly, hpoints, hsame.symm.trans hpoints, hbalances⟩

end Session

end Forecast
