import Forecast.Proofs.Session.Lookup

/-!
# What a session tells

All that a session answers is a function of the events and the starting balance: `Session.told`. An
inquiry looks up what it needs of the two, the events first, and then computes this function
(`Session.answer_eq`), whatever the source is and whatever was asked before.

## How the operations are brought to this form

Most operations look things up more than once. Once found, both are held, and an operation that meets
them again only computes (`Operation.Computes`). So when an operation begins with both look-ups, all
that follows is one computation (`Operation.Uses`).
-/

namespace Forecast

namespace Memo

theorem eq_of_held {memo : Memo} {start : Decimal} {events : List Event}
    (hstart : memo.startingBalance = some start) (hevents : memo.events = some events) :
    memo = ⟨some start, some events⟩ := by
  cases memo
  cases hstart
  cases hevents
  rfl

/-- What the one memo holds the other holds too. -/
structure Kept (memo memo' : Memo) : Prop where
  events : ∀ es, memo.events = some es → memo'.events = some es
  startingBalance : ∀ b, memo.startingBalance = some b → memo'.startingBalance = some b

theorem Kept.refl (memo : Memo) : memo.Kept memo :=
  ⟨fun _ h => h, fun _ h => h⟩

theorem Kept.trans {a b c : Memo} (hab : a.Kept b) (hbc : b.Kept c) : a.Kept c :=
  ⟨fun es h => hbc.events es (hab.events es h),
    fun d h => hbc.startingBalance d (hab.startingBalance d h)⟩

end Memo

namespace Inquiry

/-- The answer hangs on the events. -/
def needsEvents : Inquiry → Bool
  | startingBalance => false
  | _ => true

/-- The answer hangs on the starting balance. -/
def needsBalance : Inquiry → Bool
  | projections => false
  | projectionsOn _ => false
  | _ => true

end Inquiry

namespace Session

variable (s : Session) (events : List Event) (start : Decimal)

/-- The curve of events from a starting balance. -/
def toldCurve : Checked (List BalancePoint) :=
  balanceCurve events s.request.window start s.settings.confidence

/-- The curve of a plan, given the curve without it. -/
def toldPlan (expected : List BalancePoint) : Plan → Checked (List ScenarioPoint)
  | .addTransaction amount date flow description =>
    scenarioCurve (Event.withAdded events (.hypothetical date flow amount description))
      s.request.window start
  | .removeRecurring definition =>
    scenarioCurve (Event.withoutDefinition events definition) s.request.window start
  | .baseline => .ok (expected.map BalancePoint.toScenarioPoint)

/-- The alerts of the curve of events from a starting balance. -/
def toldAlerts : Checked (List Alert) := do
  return s.alertsOf (← s.toldCurve events start)

/-- The first events, with the alerts of the curve. -/
def toldUpcoming (limit : UInt64) : Checked Upcoming := do
  return { events := events.take limit.toNat, alerts := ← s.toldAlerts events start }

/-- The answer to an inquiry, as a function of the events and the starting balance. -/
def told : (q : Inquiry) → Checked q.Answer
  | .startingBalance => .ok start
  | .projections => .ok events
  | .curve => s.toldCurve events start
  | .summary => do Summary.of events (← s.toldCurve events start) start s.request.window
  | .alerts => s.toldAlerts events start
  | .report => do
    let curve ← s.toldCurve events start
    let summary ← Summary.of events curve start s.request.window
    return { projections := events, curve, summary, alerts := s.alertsOf curve }
  | .projectionsOn date => .ok (events.filter fun e => e.date == date)
  | .scenarioWith amount date flow description =>
    scenarioCurve (Event.withAdded events (.hypothetical date flow amount description))
      s.request.window start
  | .scenarioWithout definition =>
    scenarioCurve (Event.withoutDefinition events definition) s.request.window start
  | .run plan => do
    let expected ← s.toldCurve events start
    let scenario ← s.toldPlan events start expected plan
    let comparison ← Comparison.between expected scenario
    return { expected, scenario, comparison }
  | .upcoming limit => s.toldUpcoming events start limit
  | .upcomingStandard => s.toldUpcoming events start s.settings.upcomingLimit

end Session

namespace Operation

variable {σ α β : Type} {s : Session} {source : Source σ} {x : Operation σ α}
  {f : α → Operation σ β} {events : List Event} {start : Decimal} {v : Checked α}
  {g : α → Checked β}

/-- Where both the events and the starting balance are held, the operation computes the value and
leaves everything as it is. -/
def Computes (x : Operation σ α) (events : List Event) (start : Decimal) (v : Checked α) : Prop :=
  ∀ t : σ, x.runFrom (⟨some start, some events⟩, t) = (v.attempt, ⟨some start, some events⟩, t)

namespace Computes

theorem pure (a : α) : Computes (Pure.pure a : Operation σ α) events start (.ok a) :=
  fun _ => rfl

theorem compute (v : Checked α) : Computes (Operation.compute v : Operation σ α) events start v :=
  fun _ => rfl

theorem bind (hx : Computes x events start v) (hf : ∀ a, Computes (f a) events start (g a)) :
    Computes (x >>= f) events start (v >>= g) := by
  intro t
  rw [runFrom_bind, hx t]
  cases v with
  | error e => rfl
  | ok a => exact hf a t

theorem projections : Computes (s.projections source) events start (.ok events) :=
  Session.runFrom_projections_of_held rfl

theorem startingBalance : Computes (s.startingBalance source) events start (.ok start) :=
  Session.runFrom_startingBalance_of_held rfl

end Computes

/-- Operations that end alike wherever they start are the same. -/
theorem ext {x y : Operation σ α} (h : ∀ memo t, x.runFrom (memo, t) = y.runFrom (memo, t)) : x = y :=
  funext fun st => h st.1 st.2

/-- After both look-ups both are held, and only then does it matter what follows. -/
theorem lookup_congr {k k' : List Event → Decimal → Operation σ α}
    (h : ∀ events start t, (k events start).runFrom (⟨some start, some events⟩, t) =
      (k' events start).runFrom (⟨some start, some events⟩, t)) :
    (do k (← s.projections source) (← s.startingBalance source)) =
      (do k' (← s.projections source) (← s.startingBalance source)) := by
  refine ext fun memo t => ?_
  rw [runFrom_bind, runFrom_bind]
  cases hp : (s.projections source).runFrom (memo, t) with
  | mk r st =>
  cases r with
  | error e => rfl
  | ok events =>
    obtain ⟨memo₁, t₁⟩ := st
    dsimp only
    rw [runFrom_bind, runFrom_bind]
    cases hb : (s.startingBalance source).runFrom (memo₁, t₁) with
    | mk r st =>
    cases r with
    | error e => rfl
    | ok start =>
      obtain ⟨memo₂, t₂⟩ := st
      have hheld : memo₂ = ⟨some start, some events⟩ := by
        rw [Session.memo_of_startingBalance hb, Session.memo_of_projections hp]
      rw [hheld]
      exact h events start t₂

/-- The operation looks up the events and then the starting balance, and computes the rest. -/
def Uses (s : Session) (source : Source σ) (x : Operation σ α)
    (u : List Event → Decimal → Checked α) : Prop :=
  x = do compute (u (← s.projections source) (← s.startingBalance source))

namespace Uses

variable {u : List Event → Decimal → Checked α} {k : α → List Event → Decimal → Checked β}

/-- What follows both look-ups meets both held. -/
theorem bind (hx : Uses s source x u)
    (hf : ∀ a events start, Computes (f a) events start (k a events start)) :
    Uses s source (x >>= f) fun events start => u events start >>= fun a => k a events start := by
  unfold Uses at hx ⊢
  rw [hx, bind_assoc]
  simp only [bind_assoc]
  refine lookup_congr fun events start t => ?_
  exact ((Computes.compute _).bind fun a => hf a events start) t

/-- Looking up the events once more changes nothing. -/
theorem of_projections {f : List Event → Operation σ β}
    {k : List Event → List Event → Decimal → Checked β}
    (hf : ∀ events, Uses s source (f events) (k events)) :
    Uses s source (do f (← s.projections source)) fun events => k events events := by
  refine ext fun memo t => ?_
  rw [runFrom_bind, runFrom_bind]
  cases hp : (s.projections source).runFrom (memo, t) with
  | mk r st =>
  cases r with
  | error e => rfl
  | ok events =>
    obtain ⟨memo₁, t₁⟩ := st
    have hheld : memo₁.events = some events := by rw [Session.memo_of_projections hp]
    dsimp only
    rw [hf events, runFrom_bind, Session.runFrom_projections_of_held hheld]

end Uses

/-! ## The operations of a session -/

namespace Computes

theorem summaryOf (curve : List BalancePoint) : Computes (s.summaryOf source curve) events start
    (Summary.of events curve start s.request.window) :=
  projections.bind fun _ => startingBalance.bind fun _ => compute _

theorem scenarioOf (others : List Event) : Computes (s.scenarioOf source others) events start
    (scenarioCurve others s.request.window start) :=
  startingBalance.bind fun _ => compute _

theorem planned (expected : List BalancePoint) (plan : Plan) :
    Computes (s.planned source expected plan) events start
      (s.toldPlan events start expected plan) := by
  cases plan with
  | addTransaction amount date flow description => exact projections.bind fun _ => scenarioOf _
  | removeRecurring definition => exact projections.bind fun _ => scenarioOf _
  | baseline => exact pure _

end Computes

namespace Uses

theorem curve : Uses s source (s.curve source) s.toldCurve := rfl

theorem alerts : Uses s source (s.alerts source) s.toldAlerts :=
  curve.bind fun _ _ _ => .pure _

theorem upcoming (limit : UInt64) : Uses s source (s.upcoming source limit) fun events start =>
    s.toldUpcoming events start limit := by
  -- the events stand first, and are looked up once more for the alerts
  have hrest : ∀ first : List Event, Uses s source
      (do return (⟨first.take limit.toNat, ← s.alerts source⟩ : Upcoming))
      fun events start => do
        return (⟨first.take limit.toNat, ← s.toldAlerts events start⟩ : Upcoming) :=
    fun _ => alerts.bind fun _ _ _ => .pure _
  -- taken for itself, for the goal does not tell what follows the first look-up
  have hall := of_projections hrest
  exact hall

/-- Every inquiry that needs both looks them up, the events first, and computes the rest. -/
theorem answer {q : Inquiry} (hevents : q.needsEvents = true) (hbalance : q.needsBalance = true) :
    Uses s source (s.answer source q) fun events start => s.told events start q := by
  cases q with
  | startingBalance => cases hevents
  | projections => cases hbalance
  | projectionsOn date => cases hbalance
  | curve => exact curve
  | summary => exact curve.bind fun _ _ _ => .summaryOf _
  | alerts => exact alerts
  | report =>
    exact curve.bind fun _ _ _ => (Computes.summaryOf _).bind fun _ =>
      Computes.projections.bind fun _ => .pure _
  | scenarioWith amount date flow description => rfl
  | scenarioWithout definition => rfl
  | run plan =>
    exact curve.bind fun _ _ _ => (Computes.planned _ plan).bind fun _ =>
      (Computes.compute _).bind fun _ => .pure _
  | upcoming limit => exact upcoming limit
  | upcomingStandard => exact upcoming _

end Uses

end Operation

namespace Session

variable {σ : Type}

/-- The events, if the inquiry needs them. -/
def eventsFor (s : Session) (source : Source σ) (q : Inquiry) : Operation σ (List Event) :=
  if q.needsEvents then s.projections source else pure []

/-- The starting balance, if the inquiry needs it. -/
def balanceFor (s : Session) (source : Source σ) (q : Inquiry) : Operation σ Decimal :=
  if q.needsBalance then s.startingBalance source else pure 0

/-- An inquiry looks up what it needs, the events first, and computes its answer from it. -/
theorem answer_eq (s : Session) (source : Source σ) (q : Inquiry) :
    s.answer source q = (do
      let events ← s.eventsFor source q
      let start ← s.balanceFor source q
      Operation.compute (s.told events start q)) := by
  cases q with
  | startingBalance => exact (bind_pure _).symm
  | projections => exact (bind_pure _).symm
  | projectionsOn date => rfl
  | curve | summary | alerts | report | scenarioWith | scenarioWithout | run
  | upcoming | upcomingStandard => exact Operation.Uses.answer rfl rfl

/-- What an inquiry can come to: one of the look-ups fails, or the answer is told. -/
inductive Answered (s : Session) (source : Source σ) (q : Inquiry) (memo : Memo) (t : σ) :
    Attempt q.Answer → Memo → σ → Prop
  | noEvents {e memo' t'}
      (hevents : (s.eventsFor source q).runFrom (memo, t) = (.error e, memo', t')) :
      Answered s source q memo t (.error e) memo' t'
  | noBalance {events memo₁ t₁ e memo' t'}
      (hevents : (s.eventsFor source q).runFrom (memo, t) = (.ok events, memo₁, t₁))
      (hbalance : (s.balanceFor source q).runFrom (memo₁, t₁) = (.error e, memo', t')) :
      Answered s source q memo t (.error e) memo' t'
  | told {events memo₁ t₁ start memo' t'}
      (hevents : (s.eventsFor source q).runFrom (memo, t) = (.ok events, memo₁, t₁))
      (hbalance : (s.balanceFor source q).runFrom (memo₁, t₁) = (.ok start, memo', t')) :
      Answered s source q memo t (s.told events start q).attempt memo' t'

/-! ## What an inquiry leaves behind -/

variable {s : Session} {source : Source σ} {q : Inquiry} {memo memo' : Memo} {t t' : σ}
  {events : List Event} {start : Decimal} {e : Failure}

/-- The events are looked up if they are needed. Otherwise nothing is done. -/
theorem eventsFor_cases {r : Attempt (List Event)}
    (h : (s.eventsFor source q).runFrom (memo, t) = (r, memo', t')) :
    (q.needsEvents = false ∧ r = .ok [] ∧ memo' = memo ∧ t' = t) ∨
      (q.needsEvents = true ∧ EventsFound s source memo t r memo' t') := by
  unfold eventsFor at h
  cases hq : q.needsEvents with
  | false =>
    rw [hq] at h
    cases h
    exact .inl ⟨rfl, rfl, rfl, rfl⟩
  | true =>
    rw [hq] at h
    exact .inr ⟨rfl, eventsFound_of_runFrom h⟩

/-- The starting balance is looked up if it is needed. Otherwise nothing is done. -/
theorem balanceFor_cases {r : Attempt Decimal}
    (h : (s.balanceFor source q).runFrom (memo, t) = (r, memo', t')) :
    (q.needsBalance = false ∧ r = .ok 0 ∧ memo' = memo ∧ t' = t) ∨
      (q.needsBalance = true ∧ BalanceFound s source memo t r memo' t') := by
  unfold balanceFor at h
  cases hq : q.needsBalance with
  | false =>
    rw [hq] at h
    cases h
    exact .inl ⟨rfl, rfl, rfl, rfl⟩
  | true =>
    rw [hq] at h
    exact .inr ⟨rfl, balanceFound_of_runFrom h⟩

theorem held_of_eventsFor
    (h : (s.eventsFor source q).runFrom (memo, t) = (.ok events, memo', t')) :
    memo.Kept memo' ∧ (q.needsEvents = true → memo'.events = some events) := by
  rcases eventsFor_cases h with ⟨hq, -, rfl, -⟩ | ⟨-, hfound⟩
  · rw [hq]
    exact ⟨.refl memo', nofun⟩
  · cases hfound with
    | held hm => exact ⟨.refl memo, fun _ => hm⟩
    | found hm =>
      refine ⟨⟨fun es hes => ?_, fun _ hb => hb⟩, fun _ => rfl⟩
      rw [hm] at hes
      cases hes

/-- Looking for the events leaves the starting balance alone. -/
theorem startingBalance_of_eventsFor {r : Attempt (List Event)}
    (h : (s.eventsFor source q).runFrom (memo, t) = (r, memo', t')) :
    memo'.startingBalance = memo.startingBalance := by
  rcases eventsFor_cases h with ⟨-, -, rfl, -⟩ | ⟨-, hfound⟩
  · rfl
  · cases hfound <;> rfl

theorem none_of_eventsFor
    (h : (s.eventsFor source q).runFrom (memo, t) = (.error e, memo', t')) :
    memo' = memo ∧ q.needsEvents = true ∧ memo.events = none := by
  rcases eventsFor_cases h with ⟨-, hr, -⟩ | ⟨hq, hfound⟩
  · cases hr
  · cases hfound with
    | noEntries hm | noDefinitions hm | fault hm => exact ⟨rfl, hq, hm⟩

theorem held_of_balanceFor
    (h : (s.balanceFor source q).runFrom (memo, t) = (.ok start, memo', t')) :
    memo.Kept memo' ∧ (q.needsBalance = true → memo'.startingBalance = some start) := by
  rcases balanceFor_cases h with ⟨hq, -, rfl, -⟩ | ⟨-, hfound⟩
  · rw [hq]
    exact ⟨.refl memo', nofun⟩
  · cases hfound with
    | held hm => exact ⟨.refl memo, fun _ => hm⟩
    | found hm =>
      refine ⟨⟨fun _ hes => hes, fun b hb => ?_⟩, fun _ => rfl⟩
      rw [hm] at hb
      cases hb

theorem none_of_balanceFor
    (h : (s.balanceFor source q).runFrom (memo, t) = (.error e, memo', t')) :
    memo' = memo ∧ q.needsBalance = true ∧ memo.startingBalance = none := by
  rcases balanceFor_cases h with ⟨-, hr, -⟩ | ⟨hq, hfound⟩
  · cases hr
  · cases hfound with
    | noAccounts hm | fault hm => exact ⟨rfl, hq, hm⟩

theorem answered_of_runFrom {r : Attempt q.Answer}
    (h : (s.answer source q).runFrom (memo, t) = (r, memo', t')) :
    Answered s source q memo t r memo' t' := by
  rw [answer_eq, Operation.runFrom_bind] at h
  cases hevents : (s.eventsFor source q).runFrom (memo, t) with
  | mk events st =>
  obtain ⟨memo₁, t₁⟩ := st
  rw [hevents] at h
  cases events with
  | error e =>
    cases h
    exact .noEvents hevents
  | ok events =>
    dsimp only at h
    rw [Operation.runFrom_bind] at h
    cases hbalance : (s.balanceFor source q).runFrom (memo₁, t₁) with
    | mk start st =>
    obtain ⟨memo₂, t₂⟩ := st
    rw [hbalance] at h
    cases start with
    | error e =>
      cases h
      exact .noBalance hevents hbalance
    | ok start =>
      cases h
      exact .told hevents hbalance

/-- The memo holds what the inquiry needs, and the value is told from it. -/
def Tells (s : Session) (memo : Memo) (q : Inquiry) (v : Checked q.Answer) : Prop :=
  ∃ events start, (q.needsEvents = true → memo.events = some events) ∧
    (q.needsBalance = true → memo.startingBalance = some start) ∧ s.told events start q = v

theorem Tells.kept {v : Checked q.Answer} (h : s.Tells memo q v) (hkept : memo.Kept memo') :
    s.Tells memo' q v := by
  obtain ⟨events, start, hevents, hstart, hv⟩ := h
  exact ⟨events, start, fun hq => hkept.events _ (hevents hq),
    fun hq => hkept.startingBalance _ (hstart hq), hv⟩

theorem kept_of_answer {r : Attempt q.Answer}
    (h : (s.answer source q).runFrom (memo, t) = (r, memo', t')) : memo.Kept memo' := by
  cases answered_of_runFrom h with
  | noEvents hevents => rw [(none_of_eventsFor hevents).1]; exact .refl memo
  | noBalance hevents hbalance =>
    rw [(none_of_balanceFor hbalance).1]
    exact (held_of_eventsFor hevents).1
  | told hevents hbalance => exact (held_of_eventsFor hevents).1.trans (held_of_balanceFor hbalance).1

/-- An inquiry is answered with what its memo then tells, and fails if it tells nothing. -/
theorem tells_of_answer {r : Attempt q.Answer}
    (h : (s.answer source q).runFrom (memo, t) = (r, memo', t')) :
    (∃ v, s.Tells memo' q v ∧ r = v.attempt) ∨ (∃ e, r = .error e) ∧ ∀ v, ¬ s.Tells memo' q v := by
  cases answered_of_runFrom h with
  | noEvents hevents =>
    obtain ⟨hmemo, hq, hnone⟩ := none_of_eventsFor hevents
    refine Or.inr ⟨⟨_, rfl⟩, ?_⟩
    rintro v ⟨events, start, hheld, -, -⟩
    rw [hmemo, hnone] at hheld
    cases hheld hq
  | noBalance hevents hbalance =>
    obtain ⟨hmemo, hq, hnone⟩ := none_of_balanceFor hbalance
    refine Or.inr ⟨⟨_, rfl⟩, ?_⟩
    rintro v ⟨events, start, -, hheld, -⟩
    rw [hmemo, hnone] at hheld
    cases hheld hq
  | told hevents hbalance =>
    refine Or.inl ⟨_, ⟨_, _, fun hq => ?_, (held_of_balanceFor hbalance).2, rfl⟩, rfl⟩
    exact (held_of_balanceFor hbalance).1.events _ ((held_of_eventsFor hevents).2 hq)

end Session

end Forecast
