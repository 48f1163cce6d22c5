import Forecast.Proofs.Source.Memory
import Forecast.Storage.SnapshotStore

/-!
# Sessions over snapshots

Both sources find one snapshot of the household and serve its records, the one in memory those that
belong to the household and the one in files all of them. So whatever a session over either is asked,
and whatever it was asked before, it finds the snapshot and computes the answer from its records:
`Session.answerAfter_memory` and `Session.answerAfter_store`.
-/

namespace Forecast

/-- The answers from the snapshot that is found for a household. -/
def Records.ofSnapshot (find : Uuid → Outcome Snapshot) : Records where
  accounts household := (find household).map Snapshot.accounts
  entries household w filter := (find household).map fun snap => snap.entriesWithin w filter
  recurring household := (find household).map Snapshot.recurring

/-- What is served of a household from a file: its snapshot. -/
def SnapshotStore.served (store : SnapshotStore) (t : FileTree) (household : Uuid) : Outcome Snapshot :=
  answer t (store.load household)

/-- What is served of a household from memory: of its snapshot the records that belong to it. -/
def Memory.served (m : Memory) (household : Uuid) : Outcome Snapshot :=
  (m.snapshot household).map fun snap => snap.ownedBy household

theorem SnapshotStore.records_eq_ofSnapshot (store : SnapshotStore) (t : FileTree) :
    store.records t = .ofSnapshot (store.served t) := rfl

theorem Memory.records_eq_ofSnapshot (m : Memory) : m.records = .ofSnapshot m.served := by
  have haccounts : m.accounts = fun household => (m.served household).map Snapshot.accounts := by
    funext household
    unfold accounts served
    cases m.snapshot household <;> rfl
  have hentries : m.entries = fun household w filter =>
      (m.served household).map fun snap => snap.entriesWithin w filter := by
    funext household w filter
    unfold served
    cases h : m.snapshot household with
    | error p => rw [entries, h]; rfl
    | ok snap => exact entries_of_snapshot h w filter
  have hrecurring : m.recurring = fun household => (m.served household).map Snapshot.recurring := by
    funext household
    unfold recurring served
    cases m.snapshot household <;> rfl
  rw [records, haccounts, hentries, hrecurring]
  rfl

theorem Inquiry.needsBalance_of_not_needsEvents {q : Inquiry} (h : q.needsEvents = false) :
    q.needsBalance = true := by
  cases q <;> first | rfl | cases h

namespace Session

open Operation

variable {σ : Type} (s : Session)

/-! ## Answers from records -/

/-- The events in records, if the inquiry needs them. -/
def eventsNeeded (r : Records) (q : Inquiry) : Attempt (List Event) :=
  if q.needsEvents then s.eventsOver r else .ok []

/-- The starting balance in records, if the inquiry needs it. -/
def balanceNeeded (r : Records) (q : Inquiry) : Attempt Decimal :=
  if q.needsBalance then s.balanceOver r else .ok 0

/-- The answer to an inquiry in records. -/
def answerOver (r : Records) (q : Inquiry) : Attempt q.Answer := do
  let events ← s.eventsNeeded r q
  let start ← s.balanceNeeded r q
  (s.told events start q).attempt

theorem gives_answer (records : σ → Records) (t : σ) (q : Inquiry) :
    Gives (s.Reads records t) (s.answer (.reading records) q) (s.answerOver (records t) q) := by
  have hevents : Gives (s.Reads records t) (s.eventsFor (.reading records) q)
      (s.eventsNeeded (records t) q) := by
    unfold eventsFor eventsNeeded
    split
    · exact gives_projections s records t
    · exact fun _ h => ⟨rfl, h⟩
  have hbalance : Gives (s.Reads records t) (s.balanceFor (.reading records) q)
      (s.balanceNeeded (records t) q) := by
    unfold balanceFor balanceNeeded
    split
    · exact gives_startingBalance s records t
    · exact fun _ h => ⟨rfl, h⟩
  rw [answer_eq]
  exact hevents.bind fun events _ => hbalance.bind fun start _ => Gives.compute _

/-- The answer to an inquiry that comes after others. -/
def answerAfter (source : Source σ) (t : σ) (past : List Inquiry) (q : Inquiry) : Attempt q.Answer :=
  ((s.answer source q).runFrom (s.after source ({}, t) past)).1

/-- A source that only reads answers from its records, whatever was asked before. -/
theorem answerAfter_reading (records : σ → Records) (t : σ) (past : List Inquiry) (q : Inquiry) :
    s.answerAfter (.reading records) t past q = s.answerOver (records t) q :=
  (s.gives_answer records t q _ (reads_after s records t past)).1

/-! ## Answers from a snapshot -/

/-- The events in a snapshot, if the inquiry needs them. -/
def eventsFrom (snap : Snapshot) (q : Inquiry) : Checked (List Event) :=
  if q.needsEvents then s.outlook.events snap.entries snap.recurring else .ok []

/-- The starting balance in a snapshot, if the inquiry needs it. -/
def balanceFrom (snap : Snapshot) (q : Inquiry) : Checked Decimal :=
  if q.needsBalance then Account.holdings snap.accounts s.request.accounts else .ok 0

/-- The answer to an inquiry in a snapshot. -/
def answerFrom (snap : Snapshot) (q : Inquiry) : Checked q.Answer := do
  let events ← s.eventsFrom snap q
  let start ← s.balanceFrom snap q
  s.told events start q

variable {s} {find : Uuid → Outcome Snapshot}

/-- The answer hangs on the events and the starting balance. -/
theorem answerFrom_congr {snap snap' : Snapshot}
    (hevents : s.outlook.events snap.entries snap.recurring =
      s.outlook.events snap'.entries snap'.recurring)
    (hholdings : Account.holdings snap.accounts s.request.accounts =
      Account.holdings snap'.accounts s.request.accounts) (q : Inquiry) :
    s.answerFrom snap q = s.answerFrom snap' q := by
  unfold answerFrom eventsFrom balanceFrom
  rw [hevents, hholdings]

theorem answerFrom_startingBalance (s : Session) (snap : Snapshot) :
    s.answerFrom snap .startingBalance = Account.holdings snap.accounts s.request.accounts := by
  show (Account.holdings snap.accounts s.request.accounts >>= pure) = _
  exact bind_pure _

theorem answerFrom_projections (s : Session) (snap : Snapshot) :
    s.answerFrom snap .projections = s.outlook.events snap.entries snap.recurring := by
  show (s.outlook.events snap.entries snap.recurring >>= pure) = _
  exact bind_pure _

theorem answerFrom_eq_ok_iff {snap : Snapshot} {q : Inquiry} {a : q.Answer}
    (hq : q.needsEvents = true) (hq' : q.needsBalance = true) :
    s.answerFrom snap q = .ok a ↔
      ∃ events, s.outlook.events snap.entries snap.recurring = .ok events ∧
        ∃ start, Account.holdings snap.accounts s.request.accounts = .ok start ∧
          s.told events start q = .ok a := by
  rw [answerFrom, eventsFrom, balanceFrom, if_pos hq, if_pos hq']
  simp only [bind_eq_ok_iff]

/-- The report of events from a starting balance. -/
def toldReport (s : Session) (events : List Event) (start : Decimal) : Checked Report := do
  let curve ← s.toldCurve events start
  let summary ← Summary.of events curve start s.request.window
  return { projections := events, curve, summary, alerts := s.alertsOf curve }

theorem toldReport_eq_ok_iff {events : List Event} {start : Decimal} {report : Report} :
    s.toldReport events start = .ok report ↔
      ∃ curve, balanceCurve events s.request.window start s.settings.confidence = .ok curve ∧
        ∃ summary, Summary.of events curve start s.request.window = .ok summary ∧
          { projections := events, curve, summary, alerts := s.alertsOf curve } = report := by
  simp only [toldReport, toldCurve, bind_eq_ok_iff, pure_eq_ok_iff]

theorem answerOver_of_error {p : Problem} (h : find s.request.household = .error p) (q : Inquiry) :
    s.answerOver (.ofSnapshot find) q = .error (.problem p) := by
  have hevents : s.eventsOver (.ofSnapshot find) = .error (.problem p) := by
    simp only [eventsOver, Records.ofSnapshot, h]
    rfl
  have hbalance : s.balanceOver (.ofSnapshot find) = .error (.problem p) := by
    simp only [balanceOver, Records.ofSnapshot, h]
    rfl
  unfold answerOver eventsNeeded balanceNeeded
  rw [hevents, hbalance]
  -- each inquiry needs one of the two
  cases hq : q.needsEvents with
  | true => rfl
  | false =>
    rw [Inquiry.needsBalance_of_not_needsEvents hq]
    rfl

theorem answerOver_of_ok {snap : Snapshot} (h : find s.request.household = .ok snap) (q : Inquiry) :
    s.answerOver (.ofSnapshot find) q = (s.answerFrom snap q).attempt := by
  have hevents : s.eventsNeeded (.ofSnapshot find) q = (s.eventsFrom snap q).attempt := by
    have hover : s.eventsOver (.ofSnapshot find) =
        (s.outlook.events snap.entries snap.recurring).attempt := by
      simp only [eventsOver, Records.ofSnapshot, h]
      exact congrArg Checked.attempt (s.outlook.events_entriesWithin snap _)
    unfold eventsNeeded eventsFrom
    rw [hover]
    cases q.needsEvents <;> rfl
  have hbalance : s.balanceNeeded (.ofSnapshot find) q = (s.balanceFrom snap q).attempt := by
    have hover : s.balanceOver (.ofSnapshot find) =
        (Account.holdings snap.accounts s.request.accounts).attempt := by
      simp only [balanceOver, Records.ofSnapshot, h]
      rfl
    unfold balanceNeeded balanceFrom
    rw [hover]
    cases q.needsBalance <;> rfl
  simp only [answerOver, hevents, hbalance, answerFrom, Checked.attempt_bind]

/-- The snapshot of the household is looked for, and the answer is computed from its records. -/
theorem answerOver_ofSnapshot (s : Session) (find : Uuid → Outcome Snapshot) (q : Inquiry) :
    s.answerOver (.ofSnapshot find) q = (do
      let snap ← (find s.request.household).attempt
      (s.answerFrom snap q).attempt) := by
  cases h : find s.request.household with
  | error p => exact answerOver_of_error h q
  | ok snap => exact answerOver_of_ok h q

/-! ## The two sources -/

theorem answerAfter_memory (s : Session) (m : Memory) (past : List Inquiry) (q : Inquiry) :
    s.answerAfter Memory.source m past q = (do
      let snap ← (m.served s.request.household).attempt
      (s.answerFrom snap q).attempt) := by
  rw [Memory.source, answerAfter_reading, Memory.records_eq_ofSnapshot, answerOver_ofSnapshot]

theorem answerAfter_eq_ok_iff {m : Memory} {snap : Snapshot}
    (hsnap : m.snapshot s.request.household = .ok snap) {past : List Inquiry} {q : Inquiry}
    {a : q.Answer} :
    s.answerAfter Memory.source m past q = .ok a ↔
      s.answerFrom (snap.ownedBy s.request.household) q = .ok a := by
  rw [answerAfter_memory, Memory.served, hsnap]
  exact Checked.attempt_eq_ok_iff

theorem answerAfter_store (s : Session) (store : SnapshotStore) (t : FileTree) (past : List Inquiry)
    (q : Inquiry) :
    s.answerAfter store.source t past q = (do
      let snap ← (store.served t s.request.household).attempt
      (s.answerFrom snap q).attempt) := by
  rw [SnapshotStore.source, answerAfter_reading, SnapshotStore.records_eq_ofSnapshot,
    answerOver_ofSnapshot]

end Session

end Forecast
