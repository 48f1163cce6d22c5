import Forecast.Proofs.Decimal.Unsigned
import Forecast.Proofs.Event.Totals
import Forecast.Report

/-!
# Totals of reports

A summary has a value where both of its sums do and can be subtracted (`Summary.of_eq_ok_iff`). The
amounts of expected events carry no sign, and so the difference is never too large: the first events of
a list have a summary where all of them have (`Summary.exists_of_append`). Where the amounts can be
added exactly there is a summary, and it says what plain arithmetic says (`Summary.exists_of_exact`).
-/

namespace Forecast

open Decimal (Within mantissaBound magnitudeAt)

namespace Summary

variable {es es' : List Event} {curve : List BalancePoint} {start : Decimal} {w : Window}
  {flow : Flow} {summary : Summary} {s : Nat}

theorem of_eq_ok_iff : Summary.of es curve start w = .ok summary ↔
    ∃ income, total es .income = .ok income ∧ ∃ expenses, total es .expense = .ok expenses ∧
      ∃ net, income.sub expenses = .ok net ∧
        { income, expenses, netCashFlow := net, eventCount := es.length, startingBalance := start,
          endingBalance := (curve.getLast?.map BalancePoint.balance).getD start,
          window := w } = summary := by
  unfold Summary.of
  simp only [bind_eq_ok_iff, pure_eq_ok_iff]

/-! ## The first events of a list -/

theorem exists_total_of_append {d : Decimal} (h : total (es ++ es') flow = .ok d) :
    ∃ d', total es flow = .ok d' := by
  unfold total at h ⊢
  rw [List.filter_append, List.map_append] at h
  exact Decimal.exists_sum_of_append h

theorem negative_of_total {d : Decimal} (hes : ∀ e ∈ es, e.amount.negative = false)
    (h : total es flow = .ok d) : d.negative = false := by
  refine Decimal.negative_of_sum ?_ h
  intro amount hamount
  obtain ⟨e, he, rfl⟩ := List.mem_map.1 hamount
  exact hes e (List.mem_of_mem_filter he)

/-- The first part of the events has totals where all events have, whatever the curve and the window
are. -/
theorem exists_of_append (hes : ∀ e ∈ es, e.amount.negative = false)
    (h : Summary.of (es ++ es') curve start w = .ok summary) (ps : List BalancePoint)
    (v : Window) : ∃ summary', Summary.of es ps start v = .ok summary' := by
  obtain ⟨income, hincome, expenses, hexpenses, -⟩ := of_eq_ok_iff.1 h
  obtain ⟨income', hincome'⟩ := exists_total_of_append hincome
  obtain ⟨expenses', hexpenses'⟩ := exists_total_of_append hexpenses
  obtain ⟨net, hnet⟩ := Decimal.exists_sub (negative_of_total hes hincome')
    (negative_of_total hes hexpenses')
  exact ⟨_, of_eq_ok_iff.2 ⟨income', hincome', expenses', hexpenses', net, hnet, rfl⟩⟩

/-! ## In numbers -/

/-- The sum of the amounts of one flow, in units. -/
def unitsOf (es : List Event) (flow : Flow) : Int :=
  ((es.filter fun e => e.flow == flow).map fun e => e.amount.units).sum

theorem unitsOf_perm (hperm : es.Perm es') (flow : Flow) : unitsOf es flow = unitsOf es' flow :=
  ((hperm.filter _).map _).sum_eq

/-- What the events move together is what comes in less what goes out. -/
theorem total_eq_unitsOf_sub (es : List Event) :
    Event.total es = unitsOf es .income - unitsOf es .expense := by
  unfold Event.total unitsOf
  induction es with
  | nil => rfl
  | cons e es ih =>
    rw [List.map_cons, List.sum_cons, ih]
    -- an event is of one flow and not of the other
    cases hflow : e.flow with
    | income => simp [hflow, Event.signedAmount, Int.add_sub_assoc]
    | expense =>
      simp [hflow, Event.signedAmount, Decimal.units_neg]
      omega

/-- The amounts of both flows are the amounts of all events. -/
theorem size_flows (s : Nat) (es : List Event) :
    Event.size s (es.filter fun e => e.flow == .income) +
      Event.size s (es.filter fun e => e.flow == .expense) = Event.size s es := by
  have hother : (es.filter fun e => !(e.flow == .income)) = es.filter fun e => e.flow == .expense := by
    refine List.filter_congr ?_
    intro e _
    cases e.flow <;> rfl
  have hperm := List.filter_append_perm (fun e : Event => e.flow == .income) es
  rw [hother] at hperm
  rw [← Event.size_append, Event.size_perm hperm]

theorem total_within (flow : Flow) (hs : s ≤ 28) (hscale : ∀ e ∈ es, e.amount.scale ≤ s)
    (hsize : Event.size s (es.filter fun e => e.flow == flow) < mantissaBound) :
    ∃ d, total es flow = .ok d ∧ Within s (Event.size s (es.filter fun e => e.flow == flow)) d ∧
      d.units = unitsOf es flow := by
  have hmap : ((es.filter fun e => e.flow == flow).map Event.amount).map (magnitudeAt s) =
      (es.filter fun e => e.flow == flow).map fun e => e.amount.magnitudeAt s := List.map_map
  have hscales : ∀ d ∈ (es.filter fun e => e.flow == flow).map Event.amount, d.scale ≤ s := by
    intro d hd
    obtain ⟨e, he, rfl⟩ := List.mem_map.1 hd
    exact hscale e (List.mem_of_mem_filter he)
  obtain ⟨d, hd, hwithin, hunits⟩ := Decimal.sum_within hs hscales (by rw [hmap]; exact hsize)
  rw [hmap] at hwithin
  refine ⟨d, hd, hwithin, ?_⟩
  rw [hunits, List.map_map]
  rfl

/-- The summary says what plain arithmetic says of the events. -/
structure IsExact (es : List Event) (curve : List BalancePoint) (start : Decimal) (w : Window)
    (summary : Summary) : Prop where
  income : summary.income.units = unitsOf es .income
  expenses : summary.expenses.units = unitsOf es .expense
  netCashFlow : summary.netCashFlow.units = unitsOf es .income - unitsOf es .expense
  eventCount : summary.eventCount = es.length
  startingBalance : summary.startingBalance = start
  endingBalance : summary.endingBalance = (curve.getLast?.map BalancePoint.balance).getD start
  window : summary.window = w

/-- Amounts that can be added exactly have the totals that plain arithmetic gives them. -/
theorem exists_of_exact (hs : s ≤ 28) (hscale : ∀ e ∈ es, e.amount.scale ≤ s)
    (hsize : Event.size s es < mantissaBound) (curve : List BalancePoint) (start : Decimal)
    (w : Window) :
    ∃ summary, Summary.of es curve start w = .ok summary ∧ summary.IsExact es curve start w := by
  have hflows := size_flows s es
  obtain ⟨income, hincome, hincomew, hincomeu⟩ := total_within .income hs hscale (by omega)
  obtain ⟨expenses, hexpenses, hexpensesw, hexpensesu⟩ := total_within .expense hs hscale (by omega)
  obtain ⟨net, hnet, -, hnetu⟩ := Decimal.sub_within hs hincomew hexpensesw (by omega)
  refine ⟨_, of_eq_ok_iff.2 ⟨income, hincome, expenses, hexpenses, net, hnet, rfl⟩, hincomeu,
    hexpensesu, ?_, rfl, rfl, rfl, rfl⟩
  show net.units = _
  rw [hnetu, hincomeu, hexpensesu]

end Summary

end Forecast
