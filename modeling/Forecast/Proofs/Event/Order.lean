import Forecast.Proofs.Event.Causes

/-!
# Events of records in another order

Records in another order are expected of the same events, and only events of one date and flow can come
in another order: `Outlook.exists_events_of_perm`. The list is sorted by date and flow, so that each
place in it belongs to one date and flow, whatever order the records are in.
-/

namespace Forecast

namespace Event

variable {es es' : List Event}

/-- What events are sorted by. -/
def key (e : Event) : Date × Flow :=
  (e.date, e.flow)

/-- The one list has the events of the other, and at each place an event of the same date and flow: only
such events have changed places. -/
structure SameOrder (es es' : List Event) : Prop where
  perm : es.Perm es'
  keys : es.map key = es'.map key

/-- The order of the dates and flows of sorted events. -/
def KeyLe (k k' : Date × Flow) : Prop :=
  k.1 < k'.1 ∨ k.1 = k'.1 ∧ (k.2 = .expense → k'.2 = .expense)

theorem keyLe_antisymm {k k' : Date × Flow} (h : KeyLe k k') (h' : KeyLe k' k) : k = k' := by
  rcases h with hlt | ⟨hdate, hflow⟩
  · rcases h' with hlt' | ⟨hdate, -⟩
    · exact absurd hlt (lt_asymm hlt')
    · exact absurd hdate.symm (ne_of_lt hlt)
  · rcases h' with hlt | ⟨-, hflow'⟩
    · exact absurd hdate.symm (ne_of_lt hlt)
    · obtain ⟨d, flow⟩ := k
      obtain ⟨d', flow'⟩ := k'
      cases hdate
      -- each of the flows is an expense if the other one is
      cases flow <;> cases flow' <;> simp at hflow hflow' ⊢

/-- The same events, sorted, have the same dates and flows at the same places. -/
theorem sameOrder_of_perm (hperm : es.Perm es') (hes : es.Pairwise fun a b => le a b = true)
    (hes' : es'.Pairwise fun a b => le a b = true) : SameOrder es es' := by
  have hsorted : ∀ {as : List Event}, as.Pairwise (fun a b => le a b = true) →
      (as.map key).Pairwise KeyLe := by
    intro as has
    exact List.pairwise_map.2 (has.imp le_iff.1)
  refine ⟨hperm, List.Perm.eq_of_pairwise ?_ (hsorted hes) (hsorted hes') (hperm.map key)⟩
  intro k k' _ _ h h'
  exact keyLe_antisymm h h'

end Event

namespace Outlook

variable {o : Outlook} {es : List Event} {entries entries' : List Entry}
  {definitions definitions' : List Recurring}

theorem exists_recurringEvents_of_perm (hperm : definitions.Perm definitions')
    (h : o.recurringEvents definitions = .ok es) :
    ∃ es', o.recurringEvents definitions' = .ok es' ∧ es.Perm es' := by
  obtain ⟨lists, hlists, rfl⟩ := recurringEvents_eq_ok_iff.1 h
  obtain ⟨lists', hlists', hp⟩ :=
    exists_mapM_of_perm (hperm.filter o.isExpected) (mapM_eq_ok_iff.2 hlists)
  exact ⟨_, recurringEvents_eq_ok_iff.2 ⟨lists', mapM_eq_ok_iff.1 hlists', rfl⟩, hp.flatten⟩

theorem pendingEvents_perm (o : Outlook) (hperm : entries.Perm entries') :
    (o.pendingEvents entries).Perm (o.pendingEvents entries') :=
  (hperm.filter _).map o.entryEvent

/-- Records in another order give the same events, and only events of one date and flow have changed
places. -/
theorem exists_events_of_perm (hentries : entries.Perm entries')
    (hdefinitions : definitions.Perm definitions') (h : o.events entries definitions = .ok es) :
    ∃ es', o.events entries' definitions' = .ok es' ∧ Event.SameOrder es es' := by
  obtain ⟨rs, hrs, rfl⟩ := events_eq_ok_iff.1 h
  obtain ⟨rs', hrs', hp⟩ := exists_recurringEvents_of_perm hdefinitions hrs
  have hperm : (Event.sorted (o.pendingEvents entries ++ rs)).Perm
      (Event.sorted (o.pendingEvents entries' ++ rs')) :=
    (perm_stableSort _ _).trans
      (((o.pendingEvents_perm hentries).append hp).trans (perm_stableSort _ _).symm)
  exact ⟨_, events_eq_ok_iff.2 ⟨rs', hrs', rfl⟩, Event.sameOrder_of_perm hperm
    (pairwise_stableSort Event.le_total Event.le_trans _)
    (pairwise_stableSort Event.le_total Event.le_trans _)⟩

end Outlook

end Forecast
