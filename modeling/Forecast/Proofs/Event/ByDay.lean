import Forecast.Event.Basic
import Forecast.Proofs.Calendar.Days

/-!
# Events by day

Grouping events by day only sorts them into drawers: the events of a day are the events of that date
in the order in which they came (`on_byDay`). Look-up finds the first drawer with the day on it, which
is the only one because the days stay in ascending order (`pairwise_addToDay`).
-/

namespace Forecast.Event

variable {days : Days} {e : Event} {d : Date}

/-- Each day stands once, and before all later days. -/
def Days.Ascending (days : Days) : Prop :=
  days.Pairwise fun a b => a.1 < b.1

theorem on_nil (d : Date) : Days.on [] d = [] := rfl

theorem on_cons (day : Date × List Event) (days : Days) (d : Date) :
    Days.on (day :: days) d = if day.1 = d then day.2 else Days.on days d := by
  unfold Days.on
  by_cases h : day.1 = d
  · rw [List.find?_cons_of_pos (by simpa using h), if_pos h]
    rfl
  · rw [List.find?_cons_of_neg (by simpa using h), if_neg h]

/-- A day before all that are there has no events yet. -/
theorem on_of_forall_lt (h : ∀ day ∈ days, d < day.1) : days.on d = [] := by
  induction days with
  | nil => rfl
  | cons day days ih =>
    rw [on_cons, if_neg (ne_of_gt (h day List.mem_cons_self))]
    exact ih fun day' hday' => h day' (List.mem_cons_of_mem _ hday')

/-- The days that are there after one more event: those from before and the day of the event. -/
theorem fst_of_mem_addToDay {day : Date × List Event} (h : day ∈ addToDay e days) :
    day.1 = e.date ∨ ∃ day' ∈ days, day'.1 = day.1 := by
  induction days with
  | nil => exact Or.inl (by rw [List.mem_singleton.1 h])
  | cons first days ih =>
    obtain ⟨d, es⟩ := first
    rw [addToDay] at h
    split at h
    · rcases List.mem_cons.1 h with rfl | h
      · exact Or.inl rfl
      · exact Or.inr ⟨day, h, rfl⟩
    · split at h
      · rcases List.mem_cons.1 h with rfl | h
        · exact Or.inr ⟨(d, es), List.mem_cons_self, rfl⟩
        · exact Or.inr ⟨day, List.mem_cons_of_mem _ h, rfl⟩
      · rcases List.mem_cons.1 h with rfl | h
        · exact Or.inr ⟨(d, es), List.mem_cons_self, rfl⟩
        · rcases ih h with h | ⟨day', hd, he⟩
          · exact Or.inl h
          · exact Or.inr ⟨day', List.mem_cons_of_mem _ hd, he⟩

theorem pairwise_addToDay (e : Event) (h : days.Ascending) : (addToDay e days).Ascending := by
  induction days with
  | nil => exact List.pairwise_singleton _ _
  | cons first days ih =>
    obtain ⟨d, es⟩ := first
    have hc := List.pairwise_cons.1 h
    rw [addToDay]
    split
    · rename_i hlt
      refine List.pairwise_cons.2 ⟨?_, h⟩
      intro day hday
      rcases List.mem_cons.1 hday with rfl | hday
      · exact hlt
      · exact lt_trans hlt (hc.1 day hday)
    · split
      · exact List.pairwise_cons.2 ⟨fun day hday => hc.1 day hday, hc.2⟩
      · rename_i hge hne
        refine List.pairwise_cons.2 ⟨?_, ih hc.2⟩
        intro day hday
        rcases fst_of_mem_addToDay hday with he | ⟨day', hd, he⟩
        · rw [he]
          exact lt_of_le_of_ne (not_lt.1 hge) (Ne.symm hne)
        · rw [← he]
          exact hc.1 day' hd

/-- One more event comes behind the others of its day and changes no other day. -/
theorem on_addToDay (h : days.Ascending) (d : Date) :
    (addToDay e days).on d = days.on d ++ if e.date = d then [e] else [] := by
  induction days with
  | nil =>
    rw [addToDay, on_cons, on_nil, List.nil_append]
  | cons first days ih =>
    obtain ⟨d₀, es⟩ := first
    have hc := List.pairwise_cons.1 h
    rw [addToDay]
    split
    · -- the event opens a day in front of all others
      rename_i hlt
      rw [on_cons]
      by_cases hd : e.date = d
      · have hnone : Days.on ((d₀, es) :: days) d = [] := by
          apply on_of_forall_lt
          intro day hday
          rw [← hd]
          rcases List.mem_cons.1 hday with rfl | hday
          · exact hlt
          · exact lt_trans hlt (hc.1 day hday)
        rw [if_pos hd, if_pos hd, hnone, List.nil_append]
      · rw [if_neg hd, if_neg hd, List.append_nil]
    · split
      · -- its day is the first one
        rename_i heq
        rw [on_cons, on_cons]
        by_cases hd : d₀ = d
        · rw [if_pos hd, if_pos hd, if_pos (heq.trans hd)]
        · rw [if_neg hd, if_neg hd, if_neg (heq ▸ hd), List.append_nil]
      · -- it goes further back, past a day that is not its own
        rename_i hne
        rw [on_cons, on_cons, ih hc.2]
        by_cases hd : d₀ = d
        · rw [if_pos hd, if_pos hd, if_neg fun he => hne (he.trans hd.symm), List.append_nil]
        · rw [if_neg hd, if_neg hd]

theorem foldl_addToDay (events : List Event) (h : days.Ascending) (d : Date) :
    (events.foldl (fun days e => addToDay e days) days).on d =
      days.on d ++ events.filter fun e => e.date == d := by
  induction events generalizing days with
  | nil => rw [List.foldl_nil, List.filter_nil, List.append_nil]
  | cons e events ih =>
    rw [List.foldl_cons, ih (pairwise_addToDay e h), on_addToDay h, List.append_assoc]
    by_cases hd : e.date = d <;> simp [hd]

/-- The events of a day are those with its date, in the order in which they came. -/
theorem on_byDay (events : List Event) (d : Date) :
    (byDay events).on d = events.filter fun e => e.date == d := by
  rw [byDay, foldl_addToDay events List.Pairwise.nil, on_nil, List.nil_append]

end Forecast.Event
