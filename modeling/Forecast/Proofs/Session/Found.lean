import Forecast.Proofs.Session.Balance
import Forecast.Proofs.Session.Conduct
import Forecast.Proofs.Session.Snapshots

/-!
# What a session has found

Whatever a new session is asked, and over whatever source, all of its answers are told from one list of
events and one starting balance: those that it holds in the end (`Session.told_of_transcript`). Where an
answer needs both, both were found in answers of the source (`Session.HasFound`).
-/

namespace Forecast

namespace Session

variable {σ : Type} {s : Session} {source : Source σ} {st : Memo × σ} {t : σ} {run : List Inquiry}
  {q : Inquiry}

/-- What is told hangs on no more than the inquiry needs. -/
theorem told_congr {events events' : List Event} {start start' : Decimal}
    (hevents : q.needsEvents = true → events = events')
    (hstart : q.needsBalance = true → start = start') :
    s.told events start q = s.told events' start' q := by
  cases q with
  | startingBalance => rw [hstart rfl]; rfl
  | projections | projectionsOn => rw [hevents rfl]; rfl
  | curve | summary | alerts | report | scenarioWith | scenarioWithout | run
  | upcoming | upcomingStandard => rw [hevents rfl, hstart rfl]

theorem told_needed (s : Session) (events : List Event) (start : Decimal) (q : Inquiry) :
    s.told (if q.needsEvents then events else []) (if q.needsBalance then start else 0) q =
      s.told events start q :=
  told_congr (fun hq => if_pos hq) fun hq => if_pos hq

/-- An answer in a snapshot is told from the events and the starting balance in it. -/
theorem answerFrom_eq_told {snap : Snapshot} {events : List Event} {start : Decimal}
    (hevents : s.outlook.events snap.entries snap.recurring = .ok events)
    (hstart : Account.holdings snap.accounts s.request.accounts = .ok start) (q : Inquiry) :
    s.answerFrom snap q = s.told events start q := by
  have hfrom : s.eventsFrom snap q = .ok (if q.needsEvents then events else []) := by
    rw [eventsFrom, hevents, ← apply_ite]
  have hbalance : s.balanceFrom snap q = .ok (if q.needsBalance then start else 0) := by
    rw [balanceFrom, hstart, ← apply_ite]
  rw [answerFrom, hfrom, ok_bind, hbalance, ok_bind, told_needed]

/-- What is not held is needed for nothing that is told. -/
theorem Tells.told_getD {memo : Memo} {v : Checked q.Answer} (h : s.Tells memo q v) :
    s.told (memo.events.getD []) (memo.startingBalance.getD 0) q = v := by
  obtain ⟨events, start, hevents, hstart, hv⟩ := h
  refine (told_congr ?_ ?_).trans hv
  · intro hq
    rw [hevents hq, Option.getD_some]
  · intro hq
    rw [hstart hq, Option.getD_some]

/-- Each answer of a run is told from the events and the starting balance that are held in the end. -/
theorem told_of_transcript {a : q.Answer} (h : ⟨q, .ok a⟩ ∈ s.transcript source st run) :
    s.told ((s.after source st run).1.events.getD [])
      ((s.after source st run).1.startingBalance.getD 0) q = .ok a :=
  (tells_of_transcript h).told_getD

/-- Where both are held an inquiry is answered with what is told from them, and nothing else is found. -/
theorem computes_answer (events : List Event) (start : Decimal) (q : Inquiry) :
    Operation.Computes (s.answer source q) events start (s.told events start q) := by
  have hevents : Operation.Computes (s.eventsFor source q) events start
      (.ok (if q.needsEvents then events else [])) := by
    unfold eventsFor
    cases q.needsEvents with
    | true => exact .projections
    | false => exact .pure _
  have hbalance : Operation.Computes (s.balanceFor source q) events start
      (.ok (if q.needsBalance then start else 0)) := by
    unfold balanceFor
    cases q.needsBalance with
    | true => exact .startingBalance
    | false => exact .pure _
  rw [answer_eq, ← told_needed]
  exact hevents.bind fun es => hbalance.bind fun b => .compute (s.told es b q)

/-- The events that are held after a run are those of entries and definitions that were answered in it. -/
theorem records_of_held {events : List Event}
    (h : (s.after source ({}, t) run).1.events = some events) :
    ∃ entries definitions,
      Exchange.entries (.ok entries) ∈ s.exchanges source ({}, t) run ∧
      Exchange.recurring (.ok definitions) ∈ s.exchanges source ({}, t) run ∧
      s.outlook.events entries definitions = .ok events :=
  records_of_found (found_of_after source [] rfl run) h

/-- After a run the session holds these events and this starting balance. -/
structure HasFound (s : Session) (source : Source σ) (t : σ) (run : List Inquiry)
    (events : List Event) (start : Decimal) : Prop where
  held : (s.after source ({}, t) run).1 = ⟨some start, some events⟩
  /-- The starting balance is what the accounts of an answer hold. -/
  accounts : ∃ accounts, Exchange.accounts (.ok accounts) ∈ s.exchanges source ({}, t) run ∧
    Account.holdings accounts s.request.accounts = .ok start
  /-- The events are those of entries and definitions that were answered. -/
  records : ∃ entries definitions,
    Exchange.entries (.ok entries) ∈ s.exchanges source ({}, t) run ∧
    Exchange.recurring (.ok definitions) ∈ s.exchanges source ({}, t) run ∧
    s.outlook.events entries definitions = .ok events

/-- An answer that needs both is only given where both are found. -/
theorem hasFound_of_transcript {a : q.Answer} (hevents : q.needsEvents = true)
    (hbalance : q.needsBalance = true) (h : ⟨q, .ok a⟩ ∈ s.transcript source ({}, t) run) :
    ∃ events start, s.HasFound source t run events start := by
  obtain ⟨events, start, hes, hstart, -⟩ := tells_of_transcript h
  have haccounts := accounts_of_found (found_of_after source [] rfl run) (hstart hbalance)
  exact ⟨events, start, Memo.eq_of_held (hstart hbalance) (hes hevents), haccounts,
    records_of_held (hes hevents)⟩

namespace HasFound

variable {events : List Event} {start : Decimal}

/-- Every answer of the run is told from what was found. -/
theorem told (h : s.HasFound source t run events start) {a : q.Answer}
    (ha : ⟨q, .ok a⟩ ∈ s.transcript source ({}, t) run) : s.told events start q = .ok a := by
  have htold := told_of_transcript ha
  rw [h.held] at htold
  exact htold

/-- And so is every answer that follows the run. -/
theorem answerAfter_eq (h : s.HasFound source t run events start) (q : Inquiry) :
    s.answerAfter source t run q = (s.told events start q).attempt := by
  have hst : s.after source ({}, t) run = (⟨some start, some events⟩, (s.after source ({}, t) run).2) :=
    Prod.ext h.held rfl
  rw [answerAfter, hst, computes_answer events start q]

end HasFound

end Session

end Forecast
