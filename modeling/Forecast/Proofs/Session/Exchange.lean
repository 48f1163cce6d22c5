import Forecast.Proofs.Session.Runs

/-!
# Exchanges

What passes between a session and its source: each question with its answer, in the order in which
they were put. A source can note them without answering differently (`Source.noted`,
`Session.answer_noted`), so that the exchanges of a run can be spoken of over any source
(`Session.exchanges`).
-/

namespace Forecast

/-- What a source can be asked. -/
inductive Call
  | accounts
  | entries
  | recurring

/-- A question to a source with its answer. -/
inductive Exchange
  | accounts (answer : Outcome (List Account))
  | entries (answer : Outcome (List Entry))
  | recurring (answer : Outcome (List Recurring))

namespace Exchange

variable {σ α : Type}

/-- What was asked. -/
def call : Exchange → Call
  | accounts _ => .accounts
  | entries _ => .entries
  | recurring _ => .recurring

/-- The problem that was answered, if the question was refused. -/
def problem? : Exchange → Option Problem
  | accounts (.error p) => some p
  | entries (.error p) => some p
  | recurring (.error p) => some p
  | _ => none

/-- Asks, and notes the exchange behind those before. -/
def note (exchange : Outcome α → Exchange) (ask : StateM σ (Outcome α)) :
    StateM (σ × List Exchange) (Outcome α) :=
  fun (t, log) =>
    let (answer, t) := ask t
    (answer, t, log ++ [exchange answer])

theorem run_note {exchange : Outcome α → Exchange} {ask : StateM σ (Outcome α)} {t t' : σ}
    {log log' : List Exchange} {answer : Outcome α}
    (h : (note exchange ask).run (t, log) = (answer, t', log')) : log' = log ++ [exchange answer] := by
  cases h
  rfl

/-- What is asked and noted does not hang on what was noted before. -/
theorem note_behind (exchange : Outcome α → Exchange) (ask : StateM σ (Outcome α))
    {log : List Exchange} {st st' : σ × List Exchange} (h : st.1 = st'.1 ∧ st'.2 = log ++ st.2) :
    ((note exchange ask).run st).1 = ((note exchange ask).run st').1 ∧
      ((note exchange ask).run st).2.1 = ((note exchange ask).run st').2.1 ∧
        ((note exchange ask).run st').2.2 = log ++ ((note exchange ask).run st).2.2 := by
  obtain ⟨t, before⟩ := st
  obtain ⟨t', before'⟩ := st'
  obtain ⟨ht, hlog⟩ := h
  cases ht
  cases hlog
  exact ⟨rfl, rfl, List.append_assoc log before _⟩

end Exchange

/-- The source with its exchanges noted. -/
def Source.noted {σ : Type} (source : Source σ) : Source (σ × List Exchange) where
  accounts id := Exchange.note .accounts (source.accounts id)
  entries id w filter := Exchange.note .entries (source.entries id w filter)
  recurring id := Exchange.note .recurring (source.recurring id)

/-- From states that correspond the sources answer alike and are left in states that correspond. -/
structure Source.Alike {σ τ : Type} (Q : σ → τ → Prop) (src : Source σ) (tgt : Source τ) : Prop where
  accounts : ∀ id t t', Q t t' → ((src.accounts id).run t).1 = ((tgt.accounts id).run t').1 ∧
    Q ((src.accounts id).run t).2 ((tgt.accounts id).run t').2
  entries : ∀ id w filter t t', Q t t' →
    ((src.entries id w filter).run t).1 = ((tgt.entries id w filter).run t').1 ∧
    Q ((src.entries id w filter).run t).2 ((tgt.entries id w filter).run t').2
  recurring : ∀ id t t', Q t t' → ((src.recurring id).run t).1 = ((tgt.recurring id).run t').1 ∧
    Q ((src.recurring id).run t).2 ((tgt.recurring id).run t').2

namespace Session

variable {σ τ : Type} {s : Session} {src : Source σ} {tgt : Source τ} {Q : σ → τ → Prop}

open Operation

/-- The memos are the same and the states of the sources correspond. -/
def Paired (Q : σ → τ → Prop) (st : Memo × σ) (st' : Memo × τ) : Prop :=
  st.1 = st'.1 ∧ Q st.2 st'.2

theorem agree_fetch {α : Type} {ask : StateM σ (Outcome α)} {ask' : StateM τ (Outcome α)}
    (h : ∀ t t', Q t t' → (ask.run t).1 = (ask'.run t').1 ∧ Q (ask.run t).2 (ask'.run t').2) :
    Agree (Paired Q) (fetch ask) (fetch ask') := by
  rintro ⟨memo, t⟩ ⟨memo', t'⟩ ⟨hmemo, ht⟩
  obtain ⟨hanswer, hstate⟩ := h t t' ht
  rw [runFrom_fetch, runFrom_fetch]
  exact ⟨congrArg Outcome.attempt hanswer, hmemo, hstate⟩

theorem agree_memo : Agree (Paired Q) memo memo := by
  rintro st st' h
  exact ⟨congrArg Except.ok h.1, h⟩

theorem agree_keep (change : Memo → Memo) : Agree (Paired Q) (keep change) (keep change) := by
  rintro st st' h
  exact ⟨rfl, congrArg change h.1, h.2⟩

theorem agree_projections (h : Source.Alike Q src tgt) :
    Agree (Paired Q) (s.projections src) (s.projections tgt) := by
  refine agree_memo.bind fun memo => ?_
  cases memo.events with
  | some events => exact .pure _
  | none =>
    refine (agree_fetch (h.entries _ _ _)).bind fun _ => ?_
    refine (agree_fetch (h.recurring _)).bind fun _ => ?_
    exact (Agree.compute _).bind fun _ => (agree_keep _).bind fun _ => .pure _

theorem agree_startingBalance (h : Source.Alike Q src tgt) :
    Agree (Paired Q) (s.startingBalance src) (s.startingBalance tgt) := by
  refine agree_memo.bind fun memo => ?_
  cases memo.startingBalance with
  | some balance => exact .pure _
  | none =>
    refine (agree_fetch (h.accounts _)).bind fun _ => ?_
    exact (Agree.compute _).bind fun _ => (agree_keep _).bind fun _ => .pure _

/-! ## Noting changes nothing -/

variable {source : Source σ}

/-- The exchanges of a run of inquiries, from a memo and a state of the source. -/
def exchanges (s : Session) (source : Source σ) (st : Memo × σ) (run : List Inquiry) :
    List Exchange :=
  (s.after source.noted (st.1, st.2, []) run).2.2

/-- A source does not answer differently because its exchanges are noted. -/
theorem alike_noted (source : Source σ) : Source.Alike (fun t st => t = st.1) source source.noted where
  accounts _ _ _ h := by cases h; exact ⟨rfl, rfl⟩
  entries _ _ _ _ _ h := by cases h; exact ⟨rfl, rfl⟩
  recurring _ _ _ h := by cases h; exact ⟨rfl, rfl⟩

/-- Nor does it note them differently because of those before. -/
theorem alike_noted_behind (source : Source σ) (log : List Exchange) :
    Source.Alike (fun st st' => st.1 = st'.1 ∧ st'.2 = log ++ st.2) source.noted source.noted where
  accounts _ _ _ h := Exchange.note_behind _ _ h
  entries _ _ _ _ _ h := Exchange.note_behind _ _ h
  recurring _ _ _ h := Exchange.note_behind _ _ h

/-- A run over the source with its exchanges noted is the run over the source, with the exchanges put
behind those before. -/
theorem after_noted (s : Session) (source : Source σ) (memo : Memo) (t : σ) (log : List Exchange)
    (run : List Inquiry) :
    s.after source.noted (memo, t, log) run =
      ((s.after source (memo, t) run).1, (s.after source (memo, t) run).2,
        log ++ s.exchanges source (memo, t) run) := by
  have halike := alike_noted source
  obtain ⟨hmemo, ht⟩ := Agree.after (s := s) (agree_projections halike)
    (agree_startingBalance halike) run
    (show Paired _ (memo, t) (memo, t, log) from ⟨rfl, rfl⟩)
  have hbehind := alike_noted_behind source log
  obtain ⟨-, -, hlog⟩ := Agree.after (s := s) (agree_projections hbehind)
    (agree_startingBalance hbehind) run
    (show Paired _ (memo, t, []) (memo, t, log) from ⟨rfl, rfl, (List.append_nil log).symm⟩)
  exact Prod.ext hmemo.symm (Prod.ext ht.symm hlog)

theorem answer_noted (s : Session) (source : Source σ) (q : Inquiry) (memo : Memo) (t : σ)
    (log : List Exchange) :
    (s.answer source.noted q).runFrom (memo, t, log) =
      (((s.answer source q).runFrom (memo, t)).1, ((s.answer source q).runFrom (memo, t)).2.1,
        ((s.answer source q).runFrom (memo, t)).2.2, log ++ s.exchanges source (memo, t) [q]) := by
  have halike := alike_noted source
  have hanswer := (Agree.answer (s := s) (agree_projections halike) (agree_startingBalance halike) q
    (memo, t) (memo, t, log) ⟨rfl, rfl⟩).1
  exact Prod.ext hanswer.symm (s.after_noted source memo t log [q])

theorem exchanges_nil (s : Session) (source : Source σ) (st : Memo × σ) :
    s.exchanges source st [] = [] := rfl

/-- The exchanges of a run that goes on are put behind those before. -/
theorem exchanges_append (s : Session) (source : Source σ) (st : Memo × σ)
    (run later : List Inquiry) :
    s.exchanges source st (run ++ later) =
      s.exchanges source st run ++ s.exchanges source (s.after source st run) later := by
  unfold exchanges
  rw [after_append, after_noted s source st.1 st.2 [] run, List.nil_append, after_noted]
  rfl

theorem exchanges_cons (s : Session) (source : Source σ) (st : Memo × σ) (q : Inquiry)
    (run : List Inquiry) :
    s.exchanges source st (q :: run) = s.exchanges source st [q] ++
      s.exchanges source ((s.answer source q).runFrom st).2 run :=
  s.exchanges_append source st [q] run

end Session

end Forecast
