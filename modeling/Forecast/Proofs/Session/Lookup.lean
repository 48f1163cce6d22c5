import Forecast.Proofs.Session.Inquiry
import Forecast.Proofs.Success

/-!
# Looking up

A session looks two things up, the events and the starting balance. What a look-up can come to, over
any source, is said once: `Session.EventsFound` and `Session.BalanceFound`. What is held is given back
without a question. Otherwise the source is asked until it refuses an answer, and what is computed from
the answers is held. A refusal or a fault leaves the memo as it was.
-/

namespace Forecast

namespace Session

variable {σ : Type}

/-- What looking for the events can come to, from a memo and a state of the source. -/
inductive EventsFound (s : Session) (source : Source σ) (memo : Memo) (t : σ) :
    Attempt (List Event) → Memo → σ → Prop
  | held {events} (h : memo.events = some events) : EventsFound s source memo t (.ok events) memo t
  | noEntries {p t'} (h : memo.events = none)
      (hentries : (source.entries s.request.household s.request.window s.request.accounts).run t =
        (.error p, t')) :
      EventsFound s source memo t (.error (.problem p)) memo t'
  | noDefinitions {entries p t' t''} (h : memo.events = none)
      (hentries : (source.entries s.request.household s.request.window s.request.accounts).run t =
        (.ok entries, t'))
      (hrecurring : (source.recurring s.request.household).run t' = (.error p, t'')) :
      EventsFound s source memo t (.error (.problem p)) memo t''
  | fault {entries definitions f t' t''} (h : memo.events = none)
      (hentries : (source.entries s.request.household s.request.window s.request.accounts).run t =
        (.ok entries, t'))
      (hrecurring : (source.recurring s.request.household).run t' = (.ok definitions, t''))
      (hevents : s.outlook.events entries definitions = .error f) :
      EventsFound s source memo t (.error (.fault f)) memo t''
  | found {entries definitions events t' t''} (h : memo.events = none)
      (hentries : (source.entries s.request.household s.request.window s.request.accounts).run t =
        (.ok entries, t'))
      (hrecurring : (source.recurring s.request.household).run t' = (.ok definitions, t''))
      (hevents : s.outlook.events entries definitions = .ok events) :
      EventsFound s source memo t (.ok events) { memo with events := some events } t''

/-- What looking for the starting balance can come to, from a memo and a state of the source. -/
inductive BalanceFound (s : Session) (source : Source σ) (memo : Memo) (t : σ) :
    Attempt Decimal → Memo → σ → Prop
  | held {balance} (h : memo.startingBalance = some balance) :
      BalanceFound s source memo t (.ok balance) memo t
  | noAccounts {p t'} (h : memo.startingBalance = none)
      (haccounts : (source.accounts s.request.household).run t = (.error p, t')) :
      BalanceFound s source memo t (.error (.problem p)) memo t'
  | fault {accounts f t'} (h : memo.startingBalance = none)
      (haccounts : (source.accounts s.request.household).run t = (.ok accounts, t'))
      (hbalance : Account.holdings accounts s.request.accounts = .error f) :
      BalanceFound s source memo t (.error (.fault f)) memo t'
  | found {accounts balance t'} (h : memo.startingBalance = none)
      (haccounts : (source.accounts s.request.household).run t = (.ok accounts, t'))
      (hbalance : Account.holdings accounts s.request.accounts = .ok balance) :
      BalanceFound s source memo t (.ok balance) { memo with startingBalance := some balance } t'

variable {s : Session} {source : Source σ} {memo memo' : Memo} {t t' : σ}
  {events : List Event} {start : Decimal}

open Operation

theorem eventsFound_of_runFrom {r : Attempt (List Event)}
    (h : (s.projections source).runFrom (memo, t) = (r, memo', t')) :
    EventsFound s source memo t r memo' t' := by
  unfold projections at h
  rw [runFrom_bind, runFrom_memo] at h
  dsimp only at h
  cases hm : memo.events with
  | some events =>
    rw [hm] at h
    cases h
    exact .held hm
  | none =>
    rw [hm] at h
    dsimp only at h
    rw [runFrom_bind, runFrom_fetch] at h
    dsimp only at h
    cases hentries : (source.entries s.request.household s.request.window s.request.accounts).run t with
    | mk answer t₁ =>
    rw [hentries] at h
    cases answer with
    | error p =>
      cases h
      exact .noEntries hm hentries
    | ok entries =>
      dsimp only [Outcome.attempt, Except.mapError] at h
      rw [runFrom_bind, runFrom_fetch] at h
      dsimp only at h
      cases hrecurring : (source.recurring s.request.household).run t₁ with
      | mk answer t₂ =>
      rw [hrecurring] at h
      cases answer with
      | error p =>
        cases h
        exact .noDefinitions hm hentries hrecurring
      | ok definitions =>
        dsimp only [Outcome.attempt, Except.mapError] at h
        rw [runFrom_bind, runFrom_compute] at h
        cases hevents : s.outlook.events entries definitions with
        | error f =>
          rw [hevents] at h
          cases h
          exact .fault hm hentries hrecurring hevents
        | ok events =>
          rw [hevents] at h
          cases h
          exact .found hm hentries hrecurring hevents

theorem balanceFound_of_runFrom {r : Attempt Decimal}
    (h : (s.startingBalance source).runFrom (memo, t) = (r, memo', t')) :
    BalanceFound s source memo t r memo' t' := by
  unfold startingBalance at h
  rw [runFrom_bind, runFrom_memo] at h
  dsimp only at h
  cases hm : memo.startingBalance with
  | some balance =>
    rw [hm] at h
    cases h
    exact .held hm
  | none =>
    rw [hm] at h
    dsimp only at h
    rw [runFrom_bind, runFrom_fetch] at h
    dsimp only at h
    cases haccounts : (source.accounts s.request.household).run t with
    | mk answer t₁ =>
    rw [haccounts] at h
    cases answer with
    | error p =>
      cases h
      exact .noAccounts hm haccounts
    | ok accounts =>
      dsimp only [Outcome.attempt, Except.mapError] at h
      rw [runFrom_bind, runFrom_compute] at h
      cases hbalance : Account.holdings accounts s.request.accounts with
      | error f =>
        rw [hbalance] at h
        cases h
        exact .fault hm haccounts hbalance
      | ok balance =>
        rw [hbalance] at h
        cases h
        exact .found hm haccounts hbalance

theorem runFrom_projections_of_held (h : memo.events = some events) (t : σ) :
    (s.projections source).runFrom (memo, t) = (.ok events, memo, t) := by
  unfold projections
  rw [runFrom_bind, runFrom_memo]
  dsimp only
  rw [h]
  rfl

theorem runFrom_startingBalance_of_held (h : memo.startingBalance = some start) (t : σ) :
    (s.startingBalance source).runFrom (memo, t) = (.ok start, memo, t) := by
  unfold startingBalance
  rw [runFrom_bind, runFrom_memo]
  dsimp only
  rw [h]
  rfl

/-- Events that were found are held, and nothing else is. -/
theorem memo_of_projections (h : (s.projections source).runFrom (memo, t) = (.ok events, memo', t')) :
    memo' = { memo with events := some events } := by
  cases eventsFound_of_runFrom h with
  | held hm =>
    cases memo
    cases hm
    rfl
  | found => rfl

/-- A starting balance that was found is held, and nothing else is. -/
theorem memo_of_startingBalance
    (h : (s.startingBalance source).runFrom (memo, t) = (.ok start, memo', t')) :
    memo' = { memo with startingBalance := some start } := by
  cases balanceFound_of_runFrom h with
  | held hm =>
    cases memo
    cases hm
    rfl
  | found => rfl

end Session

end Forecast
