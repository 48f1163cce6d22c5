import Forecast.Proofs.Session.Exchange

/-!
# How a session deals with its source

Over any source, which may answer and refuse as it likes and differently each time, a run is a function
of what was found first: what a session holds is read off its exchanges (`Session.found`), and every
answer is told from what is held (`Session.Tells`).

## The step and the run

One inquiry is described from any memo (`Session.Conduct`): which questions it leads to, which problem
it gives back and what it leaves behind. A look-up that fails leaves the memo as it was, so the same
questions are put again when the inquiry is repeated. A run then follows by induction
(`Session.Refines`).
-/

namespace Forecast

/-- The problem of an attempt that met one. -/
def Attempt.problem? {α : Type} : Attempt α → Option Problem
  | .error (.problem p) => some p
  | _ => none

namespace Memo

/-- The questions for the events, unless they are held or not needed. -/
def missingEvents (memo : Memo) (q : Inquiry) : List Call :=
  if q.needsEvents && memo.events.isNone then [.entries, .recurring] else []

/-- The question for the starting balance, unless it is held or not needed. -/
def missingBalance (memo : Memo) (q : Inquiry) : List Call :=
  if q.needsBalance && memo.startingBalance.isNone then [.accounts] else []

/-- The questions that an inquiry leads to, in order. -/
def missing (memo : Memo) (q : Inquiry) : List Call :=
  memo.missingEvents q ++ memo.missingBalance q

end Memo

/-- How questions are put: in the order given, and until one is refused. The problem with which it is
refused is the problem of the attempt, and an attempt that succeeds has put them all. -/
structure Asked {α : Type} (calls : List Call) (r : Attempt α) (asked : List Exchange) : Prop where
  calls_prefix : asked.map Exchange.call <+: calls
  quiet : asked.Pairwise fun x _ => x.problem? = none
  problem : asked.findSome? Exchange.problem? = r.problem?
  complete : ∀ a, r = .ok a → asked.map Exchange.call = calls

namespace Memo

variable {memo memo' : Memo} {q : Inquiry} {c : Call}

theorem ne_accounts_of_mem_missingEvents (h : c ∈ memo.missingEvents q) : c ≠ .accounts := by
  unfold missingEvents at h
  split at h
  · rcases List.mem_pair.1 h with rfl | rfl <;> nofun
  · cases h

theorem eq_accounts_of_mem_missingBalance (h : c ∈ memo.missingBalance q) : c = .accounts := by
  unfold missingBalance at h
  split at h
  · exact List.mem_singleton.1 h
  · cases h

theorem missingBalance_congr (h : memo'.startingBalance = memo.startingBalance) :
    memo'.missingBalance q = memo.missingBalance q := by
  rw [missingBalance, missingBalance, h]

/-- Nothing is missing of events that are held or not needed. -/
theorem missingEvents_of_held {events : List Event}
    (h : q.needsEvents = true → memo.events = some events) : memo.missingEvents q = [] := by
  unfold missingEvents
  cases hq : q.needsEvents with
  | false => rfl
  | true => rw [h hq]; rfl

theorem missingBalance_of_none (hq : q.needsBalance = true) (h : memo.startingBalance = none) :
    memo.missingBalance q = [.accounts] := by
  unfold missingBalance
  rw [hq, h]
  rfl

end Memo

namespace Asked

variable {α β : Type} {calls calls' later : List Call} {asked asked' : List Exchange}

theorem nil_attempt (v : Checked α) : Asked [] v.attempt [] where
  calls_prefix := List.prefix_refl _
  quiet := .nil
  problem := by cases v <;> rfl
  complete _ _ := rfl

theorem call_mem {r : Attempt α} (h : Asked calls r asked) {x : Exchange} (hx : x ∈ asked) :
    x.call ∈ calls :=
  h.calls_prefix.subset (List.mem_map_of_mem hx)

/-- Where the attempt meets no problem, no question was refused. -/
theorem answered {r : Attempt α} (h : Asked calls r asked) (hr : r.problem? = none) :
    ∀ x ∈ asked, x.problem? = none :=
  List.findSome?_eq_none_iff.1 (h.problem.trans hr)

/-- The first question is refused, and no other is put. -/
theorem refused (x : Exchange) {p : Problem} (h : x.problem? = some p) (later : List Call) :
    Asked (x.call :: later) (.error (.problem p) : Attempt α) [x] where
  calls_prefix := List.prefix_append [x.call] later
  quiet := List.pairwise_singleton _ _
  problem := by rw [List.findSome?_singleton, h]; rfl
  complete _ ha := nomatch ha

/-- The first question is answered, and the others follow. -/
theorem cons (x : Exchange) {r : Attempt α} (h : x.problem? = none) (h' : Asked calls r asked) :
    Asked (x.call :: calls) r (x :: asked) where
  calls_prefix := (List.prefix_cons_inj _).2 h'.calls_prefix
  quiet := List.pairwise_cons.2 ⟨fun _ _ => h, h'.quiet⟩
  problem := by rw [List.findSome?_cons_of_isNone (by rw [h]; rfl), h'.problem]
  complete a ha := congrArg (x.call :: ·) (h'.complete a ha)

/-- A failure ends the questions, whatever was to follow. -/
theorem error {e : Failure} (h : Asked calls (.error e : Attempt α) asked)
    (hcalls : calls <+: calls') : Asked calls' (.error e : Attempt β) asked where
  calls_prefix := h.calls_prefix.trans hcalls
  quiet := h.quiet
  problem := by
    rw [h.problem]
    cases e <;> rfl
  complete a ha := nomatch ha

/-- After a success other questions can follow. -/
theorem append {a : α} {r : Attempt β} (h : Asked calls (.ok a : Attempt α) asked)
    (h' : Asked later r asked') : Asked (calls ++ later) r (asked ++ asked') := by
  have hnone := h.answered rfl
  refine ⟨?_, ?_, ?_, ?_⟩
  · rw [List.map_append, h.complete a rfl]
    exact (List.prefix_append_right_inj calls).2 h'.calls_prefix
  · exact List.pairwise_append.2 ⟨h.quiet, h'.quiet, fun x hx _ _ => hnone x hx⟩
  · rw [List.findSome?_append, h.problem]
    exact h'.problem
  · intro b hb
    rw [List.map_append, h.complete a rfl, h'.complete b hb]

/-- Computing after a success puts no question. -/
theorem attempt {a : α} (h : Asked calls (.ok a : Attempt α) asked) (v : Checked β) :
    Asked calls v.attempt asked := by
  have := h.append (nil_attempt v)
  rwa [List.append_nil, List.append_nil] at this

end Asked

namespace Session

variable {σ : Type} {s : Session} {source : Source σ} {memo memo' : Memo} {t t' : σ}
  {log log' asked : List Exchange} {q : Inquiry}

/-! ## What was found first -/

/-- The first events that were found: those of the first entries and definitions, asked for one after
the other, that have events. -/
def eventsIn (s : Session) : List Exchange → Option (List Event)
  | .entries (.ok entries) :: .recurring (.ok definitions) :: log =>
    (s.outlook.events entries definitions).toOption.or (s.eventsIn log)
  | _ :: log => s.eventsIn log
  | [] => none

/-- The first starting balance that was found: that of the first accounts that have one. -/
def balanceIn (s : Session) (log : List Exchange) : Option Decimal :=
  log.findSome? fun
    | .accounts (.ok accounts) => (Account.holdings accounts s.request.accounts).toOption
    | _ => none

/-- What was found first in the exchanges of a run. -/
def found (s : Session) (log : List Exchange) : Memo :=
  { startingBalance := s.balanceIn log, events := s.eventsIn log }

theorem balanceIn_append (s : Session) (log asked : List Exchange) :
    s.balanceIn (log ++ asked) = (s.balanceIn log).or (s.balanceIn asked) :=
  List.findSome?_append

/-- Definitions are asked for after their entries, so a run can be cut anywhere else. -/
theorem eventsIn_append (s : Session) (log : List Exchange)
    (h : ∀ answer rest, asked ≠ .recurring answer :: rest) :
    s.eventsIn (log ++ asked) = (s.eventsIn log).or (s.eventsIn asked) := by
  induction log using eventsIn.induct with
  | case1 entries definitions log ih =>
    rw [List.cons_append, List.cons_append, eventsIn, eventsIn, ih, Option.or_assoc]
  | case2 x log hx ih =>
    rw [List.cons_append, eventsIn, eventsIn]
    · exact ih
    · exact hx
    · rintro entries definitions rest rfl hrest
      cases log with
      | nil => exact h _ _ hrest
      | cons y log =>
        cases hrest
        exact hx _ _ _ rfl rfl
  | case3 => simp [eventsIn]

theorem found_append (s : Session) (log : List Exchange)
    (h : ∀ answer rest, asked ≠ .recurring answer :: rest) :
    s.found (log ++ asked) =
      { startingBalance := (s.found log).startingBalance.or (s.balanceIn asked)
        events := (s.found log).events.or (s.eventsIn asked) } := by
  rw [found, balanceIn_append, eventsIn_append s log h]
  rfl

/-- The starting balance that is held is what the accounts of some answer hold. -/
theorem accounts_of_found (h : memo = s.found log) {start : Decimal}
    (hstart : memo.startingBalance = some start) :
    ∃ accounts, Exchange.accounts (.ok accounts) ∈ log ∧
      Account.holdings accounts s.request.accounts = .ok start := by
  rw [h] at hstart
  obtain ⟨x, hx, hholdings⟩ := List.exists_of_findSome?_eq_some hstart
  split at hholdings
  · rename_i accounts
    refine ⟨accounts, hx, ?_⟩
    cases hh : Account.holdings accounts s.request.accounts with
    | error f => rw [hh] at hholdings; cases hholdings
    | ok b => rw [hh] at hholdings; cases hholdings; rfl
  · cases hholdings

/-- The events that are held are those of entries and definitions that were answered. -/
theorem records_of_found (h : memo = s.found log) {events : List Event}
    (hevents : memo.events = some events) :
    ∃ entries definitions, Exchange.entries (.ok entries) ∈ log ∧
      Exchange.recurring (.ok definitions) ∈ log ∧
      s.outlook.events entries definitions = .ok events := by
  rw [h] at hevents
  change s.eventsIn log = some events at hevents
  clear h
  induction log using eventsIn.induct with
  | case1 entries definitions log ih =>
    rw [eventsIn] at hevents
    cases hfirst : s.outlook.events entries definitions with
    | ok found =>
      rw [hfirst] at hevents
      cases hevents
      exact ⟨entries, definitions, by simp, by simp, hfirst⟩
    | error f =>
      -- these have no events, and others were asked for later
      rw [hfirst] at hevents
      obtain ⟨entries', definitions', hentries, hdefinitions, hfound⟩ := ih hevents
      exact ⟨entries', definitions', by simp [hentries], by simp [hdefinitions], hfound⟩
  | case2 x log hx ih =>
    rw [eventsIn] at hevents
    · obtain ⟨entries, definitions, hentries, hdefinitions, hfound⟩ := ih hevents
      exact ⟨entries, definitions, List.mem_cons_of_mem _ hentries,
        List.mem_cons_of_mem _ hdefinitions, hfound⟩
    · exact hx
  | case3 => cases hevents

/-! ## Looking up -/

open Operation Exchange

/-- Looking for the events asks for what is missing, and holds what was found first. -/
theorem asked_eventsFor {r : Attempt (List Event)}
    (h : (s.eventsFor source.noted q).runFrom (memo, t, log) = (r, memo', t', log')) :
    ∃ asked, log' = log ++ asked ∧ Asked (memo.missingEvents q) r asked ∧
      (memo = s.found log → memo' = s.found log') := by
  unfold Memo.missingEvents
  rcases eventsFor_cases h with ⟨hq, rfl, rfl, ht⟩ | ⟨hq, hfound⟩
  · cases ht
    rw [hq]
    exact ⟨[], (List.append_nil _).symm, .nil_attempt (.ok _), fun hm => hm⟩
  · rw [hq]
    cases hfound with
    | held hm =>
      refine ⟨[], (List.append_nil _).symm, ?_, fun hm => hm⟩
      rw [hm]
      exact .nil_attempt (.ok _)
    | @noEntries p _ hm hentries =>
      cases run_note hentries
      refine ⟨_, rfl, ?_, ?_⟩
      · rw [hm]
        exact .refused (.entries (.error p)) rfl _
      · rintro rfl
        rw [found_append s log (by simp)]
        simp [eventsIn, balanceIn]
    | @noDefinitions entries p t₁ _ hm hentries hrecurring =>
      obtain ⟨t₁, log₁⟩ := t₁
      cases run_note hentries
      cases run_note hrecurring
      refine ⟨_, List.append_assoc _ _ _, ?_, ?_⟩
      · rw [hm]
        exact .cons (.entries (.ok entries)) rfl (.refused (.recurring (.error p)) rfl _)
      · rintro rfl
        rw [List.append_assoc, found_append s log (by simp)]
        simp [eventsIn, balanceIn]
    | @fault entries definitions f t₁ _ hm hentries hrecurring hevents =>
      obtain ⟨t₁, log₁⟩ := t₁
      cases run_note hentries
      cases run_note hrecurring
      refine ⟨_, List.append_assoc _ _ _, ?_, ?_⟩
      · rw [hm]
        exact .cons (.entries (.ok entries)) rfl
          (.cons (.recurring (.ok definitions)) rfl (.nil_attempt (.error f)))
      · rintro rfl
        rw [List.append_assoc, found_append s log (by simp)]
        simp [eventsIn, balanceIn, hevents, Except.toOption]
    | @found entries definitions events t₁ _ hm hentries hrecurring hevents =>
      obtain ⟨t₁, log₁⟩ := t₁
      cases run_note hentries
      cases run_note hrecurring
      refine ⟨_, List.append_assoc _ _ _, ?_, ?_⟩
      · rw [hm]
        exact .cons (.entries (.ok entries)) rfl
          (.cons (.recurring (.ok definitions)) rfl (.nil_attempt (.ok events)))
      · rintro rfl
        rw [List.append_assoc, found_append s log (by simp)]
        simp [eventsIn, balanceIn, hevents, hm, Except.toOption]

/-- Looking for the starting balance asks for what is missing, and holds what was found first. -/
theorem asked_balanceFor {r : Attempt Decimal}
    (h : (s.balanceFor source.noted q).runFrom (memo, t, log) = (r, memo', t', log')) :
    ∃ asked, log' = log ++ asked ∧ Asked (memo.missingBalance q) r asked ∧
      (memo = s.found log → memo' = s.found log') := by
  unfold Memo.missingBalance
  rcases balanceFor_cases h with ⟨hq, rfl, rfl, ht⟩ | ⟨hq, hfound⟩
  · cases ht
    rw [hq]
    exact ⟨[], (List.append_nil _).symm, .nil_attempt (.ok _), fun hm => hm⟩
  · rw [hq]
    cases hfound with
    | held hm =>
      refine ⟨[], (List.append_nil _).symm, ?_, fun hm => hm⟩
      rw [hm]
      exact .nil_attempt (.ok _)
    | @noAccounts p _ hm haccounts =>
      cases run_note haccounts
      refine ⟨_, rfl, ?_, ?_⟩
      · rw [hm]
        exact .refused (.accounts (.error p)) rfl _
      · rintro rfl
        rw [found_append s log (by simp)]
        simp [eventsIn, balanceIn]
    | @fault accounts f _ hm haccounts hbalance =>
      cases run_note haccounts
      refine ⟨_, rfl, ?_, ?_⟩
      · rw [hm]
        exact .cons (.accounts (.ok accounts)) rfl (.nil_attempt (.error f))
      · rintro rfl
        rw [found_append s log (by simp)]
        simp [eventsIn, balanceIn, hbalance, Except.toOption]
    | @found accounts balance _ hm haccounts hbalance =>
      cases run_note haccounts
      refine ⟨_, rfl, ?_, ?_⟩
      · rw [hm]
        exact .cons (.accounts (.ok accounts)) rfl (.nil_attempt (.ok balance))
      · rintro rfl
        rw [found_append s log (by simp)]
        simp [eventsIn, balanceIn, hbalance, hm, Except.toOption]

/-! ## One inquiry -/

/-- How one inquiry goes, from one memo to the next. -/
structure Conduct (s : Session) (q : Inquiry) (memo : Memo) (asked : List Exchange)
    (r : Attempt q.Answer) (memo' : Memo) : Prop where
  /-- Only what is missing is asked for, and the problem met is the answer. -/
  questions : Asked (memo.missing q) r asked
  /-- What is held stays. -/
  kept : memo.Kept memo'
  /-- The answer is told from what is held then, and is a failure if that does not tell it. -/
  told : (∃ v, s.Tells memo' q v ∧ r = v.attempt) ∨ (∃ e, r = .error e) ∧ ∀ v, ¬ s.Tells memo' q v
  /-- Where the entries or the definitions are refused, nothing comes to be held. -/
  events_refused : ∀ x ∈ asked, x.problem? ≠ none → x.call ≠ .accounts → memo' = memo
  /-- Where the accounts are refused, they are all that is missing. -/
  accounts_refused : ∀ x ∈ asked, x.problem? ≠ none → x.call = .accounts →
    memo'.missing q = [.accounts]

/-- An inquiry goes as described, and if what was found first was held before, it is held after. -/
theorem conduct_noted {r : Attempt q.Answer}
    (h : (s.answer source.noted q).runFrom (memo, t, log) = (r, memo', t', log')) :
    ∃ asked, log' = log ++ asked ∧ s.Conduct q memo asked r memo' ∧
      (memo = s.found log → memo' = s.found log') := by
  have hkept := kept_of_answer h
  have htold := tells_of_answer h
  cases answered_of_runFrom h with
  | noEvents hevents =>
    obtain ⟨hmemo, -, -⟩ := none_of_eventsFor hevents
    obtain ⟨asked, hlog, hasked, hfound⟩ := asked_eventsFor hevents
    refine ⟨asked, hlog, ⟨hasked.error (List.prefix_append _ _), hkept, htold,
      fun _ _ _ _ => hmemo, ?_⟩, hfound⟩
    intro x hx _ hcall
    exact absurd hcall (Memo.ne_accounts_of_mem_missingEvents (hasked.call_mem hx))
  | @noBalance events memo₁ t₁ e _ _ hevents hbalance =>
    obtain ⟨t₁, log₁⟩ := t₁
    obtain ⟨hmemo, hq, hnone⟩ := none_of_balanceFor hbalance
    obtain ⟨asked, hlog, hasked, hfound⟩ := asked_eventsFor hevents
    obtain ⟨asked₁, hlog₁, hasked₁, hfound₁⟩ := asked_balanceFor hbalance
    rw [Memo.missingBalance_congr (startingBalance_of_eventsFor hevents)] at hasked₁
    have hall : Asked (memo.missing q) (.error e : Attempt q.Answer) (asked ++ asked₁) :=
      (hasked.append hasked₁).error (List.prefix_refl _)
    refine ⟨asked ++ asked₁, ?_, ⟨hall, hkept, htold, ?_, ?_⟩, fun hm => hfound₁ (hfound hm)⟩
    · rw [hlog₁, hlog, List.append_assoc]
    · intro x hx hrefused hcall
      rcases List.mem_append.1 hx with hx | hx
      · exact absurd (hasked.answered rfl x hx) hrefused
      · exact absurd (Memo.eq_accounts_of_mem_missingBalance (hasked₁.call_mem hx)) hcall
    · intro x hx hrefused hcall
      rw [hmemo, Memo.missing, Memo.missingEvents_of_held (held_of_eventsFor hevents).2,
        Memo.missingBalance_of_none hq hnone, List.nil_append]
  | @told events memo₁ t₁ start _ _ hevents hbalance =>
    obtain ⟨t₁, log₁⟩ := t₁
    obtain ⟨asked, hlog, hasked, hfound⟩ := asked_eventsFor hevents
    obtain ⟨asked₁, hlog₁, hasked₁, hfound₁⟩ := asked_balanceFor hbalance
    rw [Memo.missingBalance_congr (startingBalance_of_eventsFor hevents)] at hasked₁
    have hall := hasked.append hasked₁
    have hquiet := hall.answered rfl
    refine ⟨asked ++ asked₁, ?_, ⟨hall.attempt _, hkept, htold, ?_, ?_⟩,
      fun hm => hfound₁ (hfound hm)⟩
    · rw [hlog₁, hlog, List.append_assoc]
    · intro x hx hrefused
      exact absurd (hquiet x hx) hrefused
    · intro x hx hrefused
      exact absurd (hquiet x hx) hrefused

theorem found_of_answer (source : Source σ) {st : Memo × σ} (h : st.1 = s.found log) (q : Inquiry) :
    ((s.answer source q).runFrom st).2.1 = s.found (log ++ s.exchanges source st [q]) := by
  obtain ⟨-, -, -, hfound⟩ := conduct_noted (s.answer_noted source q st.1 st.2 log)
  exact hfound h

/-! ## Runs -/

/-- What is held after a run is what was found first in its exchanges. -/
theorem found_of_after (source : Source σ) (log : List Exchange) {st : Memo × σ}
    (h : st.1 = s.found log) (run : List Inquiry) :
    (s.after source st run).1 = s.found (log ++ s.exchanges source st run) := by
  induction run generalizing st log with
  | nil =>
    rw [exchanges_nil, List.append_nil]
    exact h
  | cons q run ih =>
    rw [exchanges_cons, ← List.append_assoc]
    exact ih _ (found_of_answer source h q)

end Session

end Forecast
