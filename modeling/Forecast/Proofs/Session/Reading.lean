import Forecast.Proofs.Session.Told

/-!
# Sessions over records

Over a source that only reads, a session finds what the records say: the events `eventsOver` and the
starting balance `balanceOver`, which are functions of the records. What the session keeps is one of
these two (`Memo.FoundIn`), so that it makes no difference what was asked before: after any inquiries
`curve` and `scenarioWithout` give the same (`curve_after`, `scenarioWithout_after`).

## Main statements

* `Operation.Gives`: what an operation gives in every state that satisfies an invariant.
* `gives_projections`, `gives_startingBalance`: what is found is what the records say.
* `told_of_reading`: every answer is told from what the records say.
* `answer_after_congr`: sources that lead to the same events and the same starting balance answer
  every inquiry alike.
-/

namespace Forecast

namespace Operation

variable {σ τ α β : Type} {P : Memo × σ → Prop} {Q : Memo × τ → Prop}

/-- From each state with the invariant the operation gives the value, and the invariant still holds. -/
def Gives (P : Memo × σ → Prop) (x : Operation σ α) (v : Attempt α) : Prop :=
  ∀ st, P st → (x.runFrom st).1 = v ∧ P (x.runFrom st).2

namespace Gives

theorem compute (value : Checked α) : Gives P (Operation.compute value) value.attempt :=
  fun _ h => ⟨rfl, h⟩

theorem bind {x : Operation σ α} {f : α → Operation σ β} {v : Attempt α} {g : α → Attempt β}
    (hx : Gives P x v) (hf : ∀ a, v = .ok a → Gives P (f a) (g a)) :
    Gives P (x >>= f) (v >>= g) := by
  intro st h
  obtain ⟨hv, hst⟩ := hx st h
  rw [runFrom_bind]
  cases hrun : x.runFrom st with
  | mk r st' =>
    rw [hrun] at hv hst
    subst hv
    cases r with
    | error e => exact ⟨rfl, hst⟩
    | ok a => exact hf a rfl st' hst

/-- Keeping something that is consistent with the invariant. -/
theorem keep {change : Memo → Memo} (a : α) (hkeep : ∀ st, P st → P (change st.1, st.2)) :
    Gives P (do Operation.keep change; return a) (Pure.pure a) :=
  fun st h => ⟨rfl, hkeep st h⟩

/-- Operations that give the same agree. -/
theorem agree {x : Operation σ α} {y : Operation τ α} {v : Attempt α} (hx : Gives P x v)
    (hy : Gives Q y v) : Agree (fun st st' => P st ∧ Q st') x y := by
  intro st st' h
  obtain ⟨hxv, hxs⟩ := hx st h.1
  obtain ⟨hyv, hys⟩ := hy st' h.2
  exact ⟨hxv.trans hyv.symm, hxs, hys⟩

end Gives

end Operation

namespace Session

/-- The events of the request in records. -/
def eventsOver (s : Session) (r : Records) : Attempt (List Event) := do
  let entries ← (r.entries s.request.household s.request.window s.request.accounts).attempt
  let definitions ← (r.recurring s.request.household).attempt
  (s.outlook.events entries definitions).attempt

/-- What the accounts of the request hold in records. -/
def balanceOver (s : Session) (r : Records) : Attempt Decimal := do
  let accounts ← (r.accounts s.request.household).attempt
  (Account.holdings accounts s.request.accounts).attempt

/-- The curve of the request in records. -/
def curveOver (s : Session) (r : Records) : Attempt (List BalancePoint) := do
  let events ← s.eventsOver r
  let start ← s.balanceOver r
  (balanceCurve events s.request.window start s.settings.confidence).attempt

/-- The curve of the request in records, without the events of a definition. -/
def withoutOver (s : Session) (r : Records) (id : Uuid) : Attempt (List ScenarioPoint) := do
  let events ← s.eventsOver r
  let start ← s.balanceOver r
  (scenarioCurve (Event.withoutDefinition events id) s.request.window start).attempt

theorem curveOver_eq_ok_iff {s : Session} {r : Records} {curve : List BalancePoint} :
    s.curveOver r = .ok curve ↔ ∃ events, s.eventsOver r = .ok events ∧
      ∃ start, s.balanceOver r = .ok start ∧
        balanceCurve events s.request.window start s.settings.confidence = .ok curve := by
  simp only [curveOver, bind_eq_ok_iff, Checked.attempt_eq_ok_iff]

theorem withoutOver_eq_ok_iff {s : Session} {r : Records} {id : Uuid}
    {points : List ScenarioPoint} :
    s.withoutOver r id = .ok points ↔ ∃ events, s.eventsOver r = .ok events ∧
      ∃ start, s.balanceOver r = .ok start ∧
        scenarioCurve (Event.withoutDefinition events id) s.request.window start = .ok points := by
  simp only [withoutOver, bind_eq_ok_iff, Checked.attempt_eq_ok_iff]

end Session

/-- All that the memo holds was found in the records. -/
structure Memo.FoundIn (s : Session) (r : Records) (memo : Memo) : Prop where
  events : ∀ es, memo.events = some es → s.eventsOver r = .ok es
  balance : ∀ b, memo.startingBalance = some b → s.balanceOver r = .ok b

namespace Session

variable {σ τ : Type} {s : Session} {records : σ → Records} {t : σ}

open Operation

/-- The source is as it was, and the memo was found in its records. -/
def Reads (s : Session) (records : σ → Records) (t : σ) (st : Memo × σ) : Prop :=
  st.2 = t ∧ st.1.FoundIn s (records t)

theorem reads_fresh (s : Session) (records : σ → Records) (t : σ) :
    s.Reads records t ({}, t) :=
  ⟨rfl, fun _ h => absurd h (by simp), fun _ h => absurd h (by simp)⟩

/-! ## What is found -/

/-- A question that leaves the source as it is gives its answer and leaves the memo as it is. -/
theorem gives_fetch {α : Type} {ask : StateM σ (Outcome α)} {answer : σ → Outcome α}
    (h : ∀ u, ask.run u = (answer u, u)) : Gives (s.Reads records t) (fetch ask) (answer t).attempt := by
  rintro ⟨memo, _⟩ ⟨rfl, hmemo⟩
  rw [runFrom_fetch, h]
  exact ⟨rfl, rfl, hmemo⟩

theorem gives_projections (s : Session) (records : σ → Records) (t : σ) :
    Gives (s.Reads records t) (s.projections (.reading records)) (s.eventsOver (records t)) := by
  intro st h
  unfold projections
  rw [runFrom_bind, runFrom_memo]
  dsimp only
  cases hm : st.1.events with
  | some es => exact ⟨(h.2.events es hm).symm, h⟩
  | none =>
    refine (gives_fetch fun _ => rfl).bind (fun entries hentries => ?_) st h
    -- each answer is remembered, for the list that is kept to be traced back to all of them
    refine (gives_fetch fun _ => rfl).bind fun definitions hdefinitions => ?_
    rw [← bind_pure (Checked.attempt _)]
    refine (Gives.compute _).bind fun es hes => ?_
    refine Gives.keep es fun st h => ⟨h.1, ?_, h.2.balance⟩
    rintro _ ⟨⟩
    rw [eventsOver, hentries, ok_bind, hdefinitions, ok_bind, hes]

theorem gives_startingBalance (s : Session) (records : σ → Records) (t : σ) :
    Gives (s.Reads records t) (s.startingBalance (.reading records)) (s.balanceOver (records t)) := by
  intro st h
  unfold startingBalance
  rw [runFrom_bind, runFrom_memo]
  dsimp only
  cases hm : st.1.startingBalance with
  | some b => exact ⟨(h.2.balance b hm).symm, h⟩
  | none =>
    refine (gives_fetch fun _ => rfl).bind (fun accounts haccounts => ?_) st h
    rw [← bind_pure (Checked.attempt _)]
    refine (Gives.compute _).bind fun b hb => ?_
    refine Gives.keep b fun st h => ⟨h.1, h.2.events, ?_⟩
    rintro _ ⟨⟩
    rw [balanceOver, haccounts, ok_bind, hb]

/-! ## What is answered, whatever was asked before -/

/-- The events are found in what is answered to two questions, and the balance in a third answer. -/
theorem eventsOver_congr {r r' : Records}
    (hentries : r.entries s.request.household s.request.window s.request.accounts =
      r'.entries s.request.household s.request.window s.request.accounts)
    (hrecurring : r.recurring s.request.household = r'.recurring s.request.household) :
    s.eventsOver r = s.eventsOver r' := by
  rw [eventsOver, hentries, hrecurring, eventsOver]

theorem balanceOver_congr {r r' : Records}
    (haccounts : r.accounts s.request.household = r'.accounts s.request.household) :
    s.balanceOver r = s.balanceOver r' := by
  rw [balanceOver, haccounts, balanceOver]

/-- Sources that lead to the same events and the same starting balance answer everything alike,
whatever was asked before. -/
theorem answer_after_congr {other : τ → Records} {u : τ}
    (hevents : s.eventsOver (records t) = s.eventsOver (other u))
    (hbalance : s.balanceOver (records t) = s.balanceOver (other u)) (past : List Inquiry)
    (q : Inquiry) :
    ((s.answer (.reading records) q).runFrom (s.after (.reading records) ({}, t) past)).1 =
      ((s.answer (.reading other) q).runFrom (s.after (.reading other) ({}, u) past)).1 := by
  have hp := (gives_projections s records t).agree (hevents ▸ gives_projections s other u)
  have hb := (gives_startingBalance s records t).agree (hbalance ▸ gives_startingBalance s other u)
  have hafter := Agree.after hp hb past ⟨reads_fresh s records t, reads_fresh s other u⟩
  exact (Agree.answer hp hb q _ _ hafter).1

/-- Asking changes nothing that is read. -/
theorem reads_after (s : Session) (records : σ → Records) (t : σ) (past : List Inquiry) :
    s.Reads records t (s.after (.reading records) ({}, t) past) :=
  (Agree.after
    ((gives_projections s records t).agree (gives_projections s records t))
    ((gives_startingBalance s records t).agree (gives_startingBalance s records t)) past
    ⟨reads_fresh s records t, reads_fresh s records t⟩).1

theorem curve_after (s : Session) (records : σ → Records) (t : σ) (past : List Inquiry) :
    ((s.curve (.reading records)).runFrom (s.after (.reading records) ({}, t) past)).1 =
      s.curveOver (records t) := by
  refine (((gives_projections s records t).bind fun events _ => ?_) _
    (reads_after s records t past)).1
  exact (gives_startingBalance s records t).bind fun start _ => Gives.compute _

theorem scenarioWithout_after (s : Session) (records : σ → Records) (t : σ) (past : List Inquiry)
    (id : Uuid) :
    ((s.scenarioWithout (.reading records) id).runFrom
      (s.after (.reading records) ({}, t) past)).1 = s.withoutOver (records t) id := by
  refine (((gives_projections s records t).bind fun events _ => ?_) _
    (reads_after s records t past)).1
  exact (gives_startingBalance s records t).bind fun start _ => Gives.compute _

/-- Over a source that only reads every answer is told from what its records say, whatever was asked
before. -/
theorem told_of_reading (records : σ → Records) {t : σ} {past : List Inquiry} {q : Inquiry}
    {a : q.Answer}
    (h : ((s.answer (.reading records) q).runFrom (s.after (.reading records) ({}, t) past)).1 =
      .ok a) :
    ∃ events start, (q.needsEvents = true → s.eventsOver (records t) = .ok events) ∧
      (q.needsBalance = true → s.balanceOver (records t) = .ok start) ∧
      s.told events start q = .ok a := by
  have hrun : (s.answer (.reading records) q).runFrom
      ((s.after (.reading records) ({}, t) past).1, (s.after (.reading records) ({}, t) past).2) =
        (.ok a, (s.after (.reading records) ({}, t) (past ++ [q])).1,
          (s.after (.reading records) ({}, t) (past ++ [q])).2) := by
    rw [after_append]
    exact Prod.ext h rfl
  have hfound := (reads_after s records t (past ++ [q])).2
  rcases tells_of_answer hrun with ⟨v, ⟨events, start, hevents, hstart, hv⟩, hok⟩ | ⟨⟨e, he⟩, -⟩
  · refine ⟨events, start, fun hq => hfound.events _ (hevents hq),
      fun hq => hfound.balance _ (hstart hq), ?_⟩
    rw [hv]
    exact Checked.attempt_eq_ok_iff.1 hok.symm
  · cases he

end Session

end Forecast
