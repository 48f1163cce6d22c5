import Forecast.Failure
import Mathlib

/-!
# Successes

When a computation made of steps that can fail has a value: when each step has one. The steps are
taken apart one at a time, and the computation is then followed through the values they gave.
-/

namespace Forecast

variable {ε α β : Type}

theorem exists_eq_ok {x : Except ε α} (h : x.toBool = true) : ∃ a, x = .ok a := by
  cases x with
  | error e => cases h
  | ok a => exact ⟨a, rfl⟩

theorem bind_eq_ok_iff {x : Except ε α} {f : α → Except ε β} {b : β} :
    x >>= f = .ok b ↔ ∃ a, x = .ok a ∧ f a = .ok b := by
  cases x with
  | error e => simp [bind, Except.bind]
  | ok a => simp [bind, Except.bind]

theorem map_eq_ok_iff {x : Except ε α} {f : α → β} {b : β} :
    x.map f = .ok b ↔ ∃ a, x = .ok a ∧ f a = b := by
  cases x with
  | error e => simp [Except.map]
  | ok a => simp [Except.map]

theorem ok_bind (a : α) (f : α → Except ε β) : (.ok a : Except ε α) >>= f = f a := rfl

theorem pure_eq_ok_iff {a b : α} : (pure a : Except ε α) = .ok b ↔ a = b := by
  simp [pure, Except.pure]

/-- A list of computations has values when each of them does, in order. -/
theorem mapM_eq_ok_iff {f : α → Except ε β} {as : List α} {bs : List β} :
    as.mapM f = .ok bs ↔ List.Forall₂ (fun a b => f a = .ok b) as bs := by
  induction as generalizing bs with
  | nil =>
    rw [List.mapM_nil, pure_eq_ok_iff, List.forall₂_nil_left_iff]
    exact eq_comm
  | cons a as ih =>
    simp only [List.mapM_cons, bind_eq_ok_iff, pure_eq_ok_iff, List.forall₂_cons_left_iff]
    constructor
    · rintro ⟨b, hb, bs', hbs, rfl⟩
      exact ⟨b, bs', hb, ih.1 hbs, rfl⟩
    · rintro ⟨b, bs', hb, hbs, rfl⟩
      exact ⟨b, hb, bs', ih.2 hbs, rfl⟩

/-- Of the computations that pass a test there are the values that pass the matching one. -/
theorem mapM_filter_eq_ok {f : α → Except ε β} {p : α → Bool} {q : β → Bool} {as : List α}
    {bs : List β} (hpq : ∀ a b, f a = .ok b → p a = q b) (h : as.mapM f = .ok bs) :
    (as.filter p).mapM f = .ok (bs.filter q) := by
  rw [mapM_eq_ok_iff] at h ⊢
  refine List.rel_filter ?_ h
  intro a b hab
  exact Bool.eq_iff_iff.1 (hpq a b hab)

/-- In another order the computations have the same values in another order. -/
theorem exists_mapM_of_perm {f : α → Except ε β} {as as' : List α} {bs : List β}
    (hperm : as.Perm as') (h : as.mapM f = .ok bs) : ∃ bs', as'.mapM f = .ok bs' ∧ bs.Perm bs' := by
  obtain ⟨bs', hbs', hp⟩ := List.perm_comp_forall₂ hperm.symm (mapM_eq_ok_iff.1 h)
  exact ⟨bs', mapM_eq_ok_iff.2 hbs', hp.symm⟩

/-- A list of computations has values when each of them does. -/
theorem exists_mapM_eq_ok_iff {f : α → Except ε β} {as : List α} :
    (∃ bs, as.mapM f = .ok bs) ↔ ∀ a ∈ as, ∃ b, f a = .ok b := by
  induction as with
  | nil => exact ⟨fun _ _ h => absurd h List.not_mem_nil, fun _ => ⟨[], rfl⟩⟩
  | cons a as ih =>
    simp only [List.mapM_cons, bind_eq_ok_iff, pure_eq_ok_iff, List.forall_mem_cons, ← ih]
    constructor
    · rintro ⟨_, b, hb, bs, hbs, rfl⟩
      exact ⟨⟨b, hb⟩, bs, hbs⟩
    · rintro ⟨⟨b, hb⟩, bs, hbs⟩
      exact ⟨_, b, hb, bs, hbs, rfl⟩

/-- What is found on the right of two related lists comes from something on the left. -/
theorem exists_of_mem_right {R : α → β → Prop} {as : List α} {bs : List β}
    (h : List.Forall₂ R as bs) {b : β} (hb : b ∈ bs) : ∃ a ∈ as, R a b := by
  induction h with
  | nil => exact absurd hb List.not_mem_nil
  | @cons a _ _ _ hab _ ih =>
    rcases List.mem_cons.1 hb with rfl | hb
    · exact ⟨a, List.mem_cons_self, hab⟩
    · obtain ⟨a', ha', h'⟩ := ih hb
      exact ⟨a', List.mem_cons_of_mem _ ha', h'⟩

theorem Checked.ofOption_eq_ok_iff {fault : Fault} {x : Option α} {a : α} :
    Checked.ofOption fault x = .ok a ↔ x = some a := by
  cases x <;> simp

/-- A computation in steps is attempted step by step. -/
theorem Checked.attempt_bind (x : Checked α) (f : α → Checked β) :
    (x >>= f).attempt = x.attempt >>= fun a => (f a).attempt := by
  cases x <;> rfl

theorem Checked.attempt_eq_ok_iff {r : Checked α} {a : α} : r.attempt = .ok a ↔ r = .ok a := by
  cases r with
  | error e => simp [Checked.attempt, Except.mapError]
  | ok b => simp [Checked.attempt, Except.mapError]

theorem Outcome.attempt_eq_ok_iff {r : Outcome α} {a : α} : r.attempt = .ok a ↔ r = .ok a := by
  cases r with
  | error e => simp [Outcome.attempt, Except.mapError]
  | ok b => simp [Outcome.attempt, Except.mapError]

section Outcome

variable [Json.Codec α] {t : String} {a : α} {p : Problem}

/-- A text is read where it is one of the type. -/
theorem Outcome.ofJson_eq_ok_iff : (Outcome.ofJson t : Outcome α) = .ok a ↔ Json.read? t = some a := by
  unfold Outcome.ofJson
  cases (Json.read? t : Option α) with
  | none => exact ⟨nofun, nofun⟩
  | some b => simp

theorem Outcome.ofJson_eq_error_iff : (Outcome.ofJson t : Outcome α) = .error p ↔
    (Json.read? t : Option α) = none ∧ p = .malformed := by
  unfold Outcome.ofJson
  cases (Json.read? t : Option α) with
  | none => simp [eq_comm]
  | some b => simp

end Outcome

end Forecast
