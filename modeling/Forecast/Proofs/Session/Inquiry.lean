import Forecast.Session

/-!
# Inquiries

All that a session can be asked, as data, so that one statement speaks of every operation and of any
sequence of operations on one session.

## Agreement

Two operations agree if they answer alike from states that correspond and leave states that correspond
again. All operations of a session are built from two: finding the events and finding the starting
balance. Where these agree, so does everything a session can be asked (`Operation.Agree.answer`),
whatever the sources behind them are.
-/

namespace Forecast

/-- What a session can be asked. -/
inductive Inquiry
  | startingBalance
  | projections
  | curve
  | summary
  | alerts
  | report
  | projectionsOn (date : Date)
  | scenarioWith (amount : Decimal) (date : Date) (flow : Flow) (description : String)
  | scenarioWithout (definition : Uuid)
  | run (plan : Plan)
  | upcoming (limit : UInt64)
  | upcomingStandard

/-- What an inquiry is answered with. -/
def Inquiry.Answer : Inquiry → Type
  | startingBalance => Decimal
  | projections => List Event
  | curve => List BalancePoint
  | summary => Summary
  | alerts => List Alert
  | report => Report
  | projectionsOn _ => List Event
  | scenarioWith .. => List ScenarioPoint
  | scenarioWithout _ => List ScenarioPoint
  | run _ => WhatIf
  | upcoming _ => Upcoming
  | upcomingStandard => Upcoming

namespace Operation

variable {σ α : Type}

/-- The result of an operation in a state, with the state it leaves. -/
def runFrom (op : Operation σ α) (st : Memo × σ) : Attempt α × (Memo × σ) :=
  op.run.run st

theorem runFrom_bind {β : Type} (op : Operation σ α) (f : α → Operation σ β) (st : Memo × σ) :
    (op >>= f).runFrom st =
      match op.runFrom st with
      | (.ok a, st') => (f a).runFrom st'
      | (.error e, st') => (.error e, st') := by
  unfold runFrom
  rw [ExceptT.run_bind, StateT.run_bind]
  cases h : op.run.run st with
  | mk r st' => cases r <;> rfl

theorem runFrom_compute (value : Checked α) (st : Memo × σ) :
    (compute value : Operation σ α).runFrom st = (value.attempt, st) := rfl

theorem runFrom_memo (st : Memo × σ) : (memo : Operation σ Memo).runFrom st = (.ok st.1, st) := rfl

theorem runFrom_fetch (ask : StateM σ (Outcome α)) (st : Memo × σ) :
    (fetch ask).runFrom st = ((ask.run st.2).1.attempt, st.1, (ask.run st.2).2) := rfl

end Operation

namespace Session

variable {σ : Type}

/-- Answers an inquiry. -/
def answer (s : Session) (source : Source σ) : (q : Inquiry) → Operation σ q.Answer
  | .startingBalance => s.startingBalance source
  | .projections => s.projections source
  | .curve => s.curve source
  | .summary => s.summary source
  | .alerts => s.alerts source
  | .report => s.report source
  | .projectionsOn date => s.projectionsOn source date
  | .scenarioWith amount date flow description => s.scenarioWith source amount date flow description
  | .scenarioWithout definition => s.scenarioWithout source definition
  | .run plan => s.run source plan
  | .upcoming limit => s.upcoming source limit
  | .upcomingStandard => s.upcomingStandard source

/-- The state after inquiries, asked one after the other. -/
def after (s : Session) (source : Source σ) (st : Memo × σ) (past : List Inquiry) : Memo × σ :=
  past.foldl (fun st q => ((s.answer source q).runFrom st).2) st

theorem after_append (s : Session) (source : Source σ) (st : Memo × σ) (run later : List Inquiry) :
    s.after source st (run ++ later) = s.after source (s.after source st run) later :=
  List.foldl_append

end Session

namespace Operation

variable {σ τ α β : Type} {R : Memo × σ → Memo × τ → Prop}

/-- From states that correspond the operations answer alike and leave states that correspond. -/
def Agree (R : Memo × σ → Memo × τ → Prop) (x : Operation σ α) (y : Operation τ α) : Prop :=
  ∀ st st', R st st' → (x.runFrom st).1 = (y.runFrom st').1 ∧ R (x.runFrom st).2 (y.runFrom st').2

namespace Agree

theorem pure (a : α) : Agree R (Pure.pure a) (Pure.pure a) :=
  fun _ _ h => ⟨rfl, h⟩

theorem compute (value : Checked α) : Agree R (Operation.compute value) (Operation.compute value) :=
  fun _ _ h => ⟨rfl, h⟩

theorem bind {x : Operation σ α} {y : Operation τ α} {f : α → Operation σ β}
    {g : α → Operation τ β} (hxy : Agree R x y) (hfg : ∀ a, Agree R (f a) (g a)) :
    Agree R (x >>= f) (y >>= g) := by
  intro st st' h
  obtain ⟨hres, hst⟩ := hxy st st' h
  rw [runFrom_bind, runFrom_bind]
  cases hx : x.runFrom st with
  | mk r st₁ =>
    cases hy : y.runFrom st' with
    | mk r' st₁' =>
      rw [hx, hy] at hres hst
      cases hres
      cases r with
      | error e => exact ⟨rfl, hst⟩
      | ok a => exact hfg a st₁ st₁' hst

section Session

variable {s : Session} {src : Source σ} {tgt : Source τ}
  (hp : Agree R (s.projections src) (s.projections tgt))
  (hb : Agree R (s.startingBalance src) (s.startingBalance tgt))

include hp hb

theorem curve : Agree R (s.curve src) (s.curve tgt) :=
  hp.bind fun _ => hb.bind fun _ => compute _

theorem alerts : Agree R (s.alerts src) (s.alerts tgt) :=
  (curve hp hb).bind fun _ => pure _

theorem summaryOf (curve : List BalancePoint) :
    Agree R (s.summaryOf src curve) (s.summaryOf tgt curve) :=
  hp.bind fun _ => hb.bind fun _ => compute _

omit hp in
theorem scenarioOf (events : List Event) :
    Agree R (s.scenarioOf src events) (s.scenarioOf tgt events) :=
  hb.bind fun _ => compute _

theorem scenarioWith (amount : Decimal) (date : Date) (flow : Flow) (description : String) :
    Agree R (s.scenarioWith src amount date flow description)
      (s.scenarioWith tgt amount date flow description) :=
  hp.bind fun _ => scenarioOf hb _

theorem scenarioWithout (definition : Uuid) :
    Agree R (s.scenarioWithout src definition) (s.scenarioWithout tgt definition) :=
  hp.bind fun _ => scenarioOf hb _

theorem planned (expected : List BalancePoint) (plan : Plan) :
    Agree R (s.planned src expected plan) (s.planned tgt expected plan) := by
  cases plan with
  | addTransaction amount date flow description => exact scenarioWith hp hb amount date flow description
  | removeRecurring definition => exact scenarioWithout hp hb definition
  | baseline => exact pure _

theorem upcoming (limit : UInt64) : Agree R (s.upcoming src limit) (s.upcoming tgt limit) :=
  hp.bind fun _ => (alerts hp hb).bind fun _ => pure _

/-- Sessions that find the same events and the same starting balance answer everything alike. -/
theorem answer (q : Inquiry) : Agree R (s.answer src q) (s.answer tgt q) := by
  cases q with
  | startingBalance => exact hb
  | projections => exact hp
  | curve => exact curve hp hb
  | summary => exact (curve hp hb).bind fun c => summaryOf hp hb c
  | alerts => exact alerts hp hb
  | report =>
    exact (curve hp hb).bind fun c => (summaryOf hp hb c).bind fun _ => hp.bind fun _ => pure _
  | projectionsOn date => exact hp.bind fun _ => pure _
  | scenarioWith amount date flow description => exact scenarioWith hp hb amount date flow description
  | scenarioWithout definition => exact scenarioWithout hp hb definition
  | run plan =>
    exact (curve hp hb).bind fun c => (planned hp hb c plan).bind fun _ =>
      (compute _).bind fun _ => pure _
  | upcoming limit => exact upcoming hp hb limit
  | upcomingStandard => exact upcoming hp hb _

/-- And so after any number of inquiries the states still correspond. -/
theorem after (past : List Inquiry) {st : Memo × σ} {st' : Memo × τ} (h : R st st') :
    R (s.after src st past) (s.after tgt st' past) := by
  induction past generalizing st st' with
  | nil => exact h
  | cons q past ih => exact ih (answer hp hb q st st' h).2

end Session

end Agree

end Operation

end Forecast
