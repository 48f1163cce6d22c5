import Forecast.Proofs.Session.Told

/-!
# Runs

What is asked of a session, one inquiry after the other. The clock is read anew for each of them, whereas
what has been found is kept for all of them (`Session.diary`). What is held stays as it is, and every
answer is told on its own date from what is held in the end (`Session.tells_of_diary`). A run on one date
is a run over dates that are all alike (`Session.diary_today`).

## Dates within an inquiry

The clock is read when the events are found and again when alerts are told, and the date may change in
between. An inquiry that needs the events finds them before anything else, so that it can be taken apart
there: the events are looked up on the one date, and the answer, which meets them held, is given on the
other (`Session.visit`). On one date this is the answer as it is given at once (`Session.visit_eq_answer`).
-/

namespace Forecast

/-- An inquiry, and what the clock says meanwhile. -/
structure Visit where
  inquiry : Inquiry
  /-- The date when the events are found, if they are not held. -/
  found : Date
  /-- The date when alerts are told. -/
  told : Date

/-- What was answered on which date. -/
abbrev Diary := List (Date × (q : Inquiry) × Attempt q.Answer)

namespace Diary

/-- The inquiry had the answer on the date. -/
def TellsOn (diary : Diary) (today : Date) (q : Inquiry) (a : q.Answer) : Prop :=
  (today, ⟨q, .ok a⟩) ∈ diary

/-- The inquiry had the answer on some date. -/
def Tells (diary : Diary) (q : Inquiry) (a : q.Answer) : Prop :=
  ∃ today, diary.TellsOn today q a

end Diary

namespace Session

variable {σ : Type} {s : Session} {source : Source σ} {st : Memo × σ} {q : Inquiry}
  {memo memo' : Memo} {t t' : σ} {v : Visit} {today : Date}

/-! ## One visit -/

/-- The answer of a session on the dates of a visit. -/
def visit (s : Session) (source : Source σ) (v : Visit) : Operation σ v.inquiry.Answer := do
  let _ ← (s.on v.found).eventsFor source v.inquiry
  (s.on v.told).answer source v.inquiry

/-- Events that were looked up are held, or are not needed. -/
theorem runFrom_eventsFor_again {events : List Event}
    (h : (s.eventsFor source q).runFrom (memo, t) = (.ok events, memo', t')) :
    (s.eventsFor source q).runFrom (memo', t') = (.ok events, memo', t') := by
  rcases eventsFor_cases h with ⟨-, -, rfl, rfl⟩ | ⟨hq, -⟩
  · exact h
  · rw [eventsFor, if_pos hq, runFrom_projections_of_held ((held_of_eventsFor h).2 hq)]

/-- Where the date does not change the answer is given at once. -/
theorem visit_eq_answer (s : Session) (source : Source σ) (q : Inquiry) (today : Date) :
    s.visit source ⟨q, today, today⟩ = (s.on today).answer source q := by
  refine Operation.ext fun memo t => ?_
  unfold visit
  rw [answer_eq, Operation.runFrom_bind, Operation.runFrom_bind]
  rcases hevents : ((s.on today).eventsFor source q).runFrom (memo, t) with ⟨r, memo₁, t₁⟩
  cases r with
  | error e => rfl
  | ok events =>
    dsimp only
    rw [Operation.runFrom_bind, runFrom_eventsFor_again hevents]

/-- What a visit can come to: the events are not found, or there is an answer from where they are held. -/
theorem visit_cases {r : Attempt v.inquiry.Answer}
    (h : (s.visit source v).runFrom (memo, t) = (r, memo', t')) :
    (∃ e, r = .error e ∧
      ((s.on v.found).eventsFor source v.inquiry).runFrom (memo, t) = (.error e, memo', t')) ∨
    ∃ events memo₁ t₁,
      ((s.on v.found).eventsFor source v.inquiry).runFrom (memo, t) = (.ok events, memo₁, t₁) ∧
      ((s.on v.told).answer source v.inquiry).runFrom (memo₁, t₁) = (r, memo', t') := by
  unfold visit at h
  rw [Operation.runFrom_bind] at h
  cases hevents : ((s.on v.found).eventsFor source v.inquiry).runFrom (memo, t) with
  | mk r₁ st₁ =>
  rw [hevents] at h
  cases r₁ with
  | error e =>
    cases h
    exact .inl ⟨e, rfl, rfl⟩
  | ok events => exact .inr ⟨events, st₁.1, st₁.2, rfl, h⟩

theorem kept_of_visit {r : Attempt v.inquiry.Answer}
    (h : (s.visit source v).runFrom (memo, t) = (r, memo', t')) : memo.Kept memo' := by
  rcases visit_cases h with ⟨e, -, hevents⟩ | ⟨events, memo₁, t₁, hevents, hanswer⟩
  · rw [(none_of_eventsFor hevents).1]
    exact .refl memo
  · exact (held_of_eventsFor hevents).1.trans (kept_of_answer hanswer)

theorem tells_of_visit {a : v.inquiry.Answer}
    (h : (s.visit source v).runFrom (memo, t) = (.ok a, memo', t')) :
    (s.on v.told).Tells memo' v.inquiry (.ok a) := by
  rcases visit_cases h with ⟨e, he, -⟩ | ⟨events, memo₁, t₁, -, hanswer⟩
  · cases he
  · rcases tells_of_answer hanswer with ⟨told, htold, hok⟩ | ⟨⟨e, he⟩, -⟩
    · rwa [Checked.attempt_eq_ok_iff.1 hok.symm] at htold
    · cases he

/-- The state after visits. -/
def afterVisits (s : Session) (source : Source σ) (st : Memo × σ) (past : List Visit) : Memo × σ :=
  past.foldl (fun st v => ((s.visit source v).runFrom st).2) st

/-- The inquiries of visits with their dates and answers, in order. -/
def diary (s : Session) (source : Source σ) : Memo × σ → List Visit → Diary
  | _, [] => []
  | st, v :: run =>
    (v.told, ⟨v.inquiry, ((s.visit source v).runFrom st).1⟩) ::
      s.diary source ((s.visit source v).runFrom st).2 run

/-- What is held stays as it is, whatever is asked and on whatever dates. -/
theorem kept_afterVisits (s : Session) (source : Source σ) (st : Memo × σ) (run : List Visit) :
    st.1.Kept (s.afterVisits source st run).1 := by
  induction run generalizing st with
  | nil => exact .refl _
  | cons v run ih =>
    have hrun : (s.visit source v).runFrom (st.1, st.2) = (_, _, _) := rfl
    exact (kept_of_visit hrun).trans (ih _)

/-- Each answer of a run is told on its date from what is held in the end. -/
theorem tells_of_diary {run : List Visit} {a : q.Answer}
    (h : (s.diary source st run).TellsOn today q a) :
    (s.on today).Tells (s.afterVisits source st run).1 q (.ok a) := by
  induction run generalizing st with
  | nil => cases h
  | cons v run ih =>
    show (s.on today).Tells (s.afterVisits source ((s.visit source v).runFrom st).2 run).1 q _
    rcases List.mem_cons.1 h with heq | h
    · obtain ⟨rfl, hanswer⟩ := Prod.mk.inj heq
      obtain ⟨rfl, ha⟩ := Sigma.mk.inj_iff.1 hanswer
      have hrun : (s.visit source v).runFrom (st.1, st.2) = (.ok a, _, _) :=
        Prod.ext (eq_of_heq ha).symm rfl
      exact (tells_of_visit hrun).kept (kept_afterVisits s source _ run)
    · exact ih h

/-- The inquiries of a run on the date of the session with their answers, in order. -/
def transcript (s : Session) (source : Source σ) :
    Memo × σ → List Inquiry → List ((q : Inquiry) × Attempt q.Answer)
  | _, [] => []
  | st, q :: run =>
    ⟨q, ((s.answer source q).runFrom st).1⟩ ::
      s.transcript source ((s.answer source q).runFrom st).2 run

/-- An inquiry on the date of the session. -/
def visitToday (s : Session) (q : Inquiry) : Visit := ⟨q, s.today, s.today⟩

theorem visit_visitToday (s : Session) (source : Source σ) (q : Inquiry) :
    s.visit source (s.visitToday q) = s.answer source q :=
  s.visit_eq_answer source q s.today

/-- A run on one date is a run over dates that are all alike. -/
theorem afterVisits_today (s : Session) (source : Source σ) (st : Memo × σ) (run : List Inquiry) :
    s.afterVisits source st (run.map s.visitToday) = s.after source st run := by
  rw [afterVisits, List.foldl_map]
  simp only [visit_visitToday]
  rfl

theorem diary_today (s : Session) (source : Source σ) (st : Memo × σ) (run : List Inquiry) :
    s.diary source st (run.map s.visitToday) =
      (s.transcript source st run).map (s.today, ·) := by
  induction run generalizing st with
  | nil => rfl
  | cons q run ih =>
    rw [List.map_cons, diary, visit_visitToday, ih]
    rfl

/-- Each answer of a run is told from what is held in the end. -/
theorem tells_of_transcript {run : List Inquiry} {a : q.Answer}
    (h : ⟨q, .ok a⟩ ∈ s.transcript source st run) : s.Tells (s.after source st run).1 q (.ok a) := by
  have hdiary : (s.diary source st (run.map s.visitToday)).TellsOn s.today q a := by
    rw [diary_today]
    exact List.mem_map_of_mem h
  rw [← afterVisits_today]
  exact tells_of_diary hdiary

end Session

end Forecast
