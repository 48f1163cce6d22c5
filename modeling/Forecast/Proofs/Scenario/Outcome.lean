import Forecast.Proofs.Curve.Scored
import Forecast.Proofs.Decimal.Order
import Forecast.Proofs.Event.Parts
import Forecast.Proofs.Scenario.Addition
import Forecast.Proofs.Session.Found

/-!
# The outcome of a plan

Each kind of plan comes to its curve on a way of its own: one more event is sorted in, a definition's
events are left out, or the scores are taken off the curve that is there already. On each of them the
curve is that of the events with the plan applied (`Plan.apply`), and so its end differs from the end of
the expected curve by what the plan changes (`Plan.change`). The impact goes by this change itself and
the difference by its rounding, and the two never point in opposite directions:
`Session.run_consistent`.
-/

namespace Forecast

open Decimal (Within SumExact mantissaBound magnitudeAt)

namespace Plan

/-- The events with the plan applied to them. -/
def apply (events : List Event) : Plan → List Event
  | .addTransaction amount date flow description =>
    Event.withAdded events (.hypothetical date flow amount description)
  | .removeRecurring definition => Event.withoutDefinition events definition
  | .baseline => events

/-- The amounts that the plan brings in. -/
def amounts : Plan → List Decimal
  | .addTransaction amount _ _ _ => [amount]
  | .removeRecurring _ => []
  | .baseline => []

/-- What the plan changes in the window, in units. A transaction moves its amount if it is dated there,
and what a definition's events move goes with them. -/
def change (w : Window) (events : List Event) : Plan → Int
  | .addTransaction amount date flow _ => if w.contains date then flow.signed amount else 0
  | .removeRecurring definition =>
    -Event.total (events.filter fun e => e.isOccurrenceOf definition)
  | .baseline => 0

variable {events : List Event} {plan : Plan} {w : Window} {s : Nat}

theorem scale_le_apply (hscale : ∀ e ∈ events, e.amount.scale ≤ s)
    (hplan : ∀ d ∈ plan.amounts, d.scale ≤ s) : ∀ e ∈ plan.apply events, e.amount.scale ≤ s := by
  cases plan with
  | addTransaction amount date flow description =>
    exact Event.scale_le_withAdded hscale (hplan amount (List.mem_singleton_self amount))
  | removeRecurring definition => exact fun e he => hscale e (List.mem_of_mem_filter he)
  | baseline => exact hscale

theorem size_apply_le (s : Nat) (events : List Event) (plan : Plan) :
    Event.size s (plan.apply events) ≤
      Event.size s events + (plan.amounts.map (magnitudeAt s)).sum := by
  cases plan with
  | addTransaction amount date flow description =>
    rw [apply, Event.size_withAdded, amounts, List.map_singleton, List.sum_singleton]
    exact Nat.le_refl _
  | removeRecurring definition =>
    exact Nat.le_add_right_of_le (Event.size_sublist List.filter_sublist)
  | baseline => exact Nat.le_add_right _ _

/-- Where the amounts can be added exactly together with those of the plan, the plan has a curve. -/
theorem exists_scenarioCurve {start : Decimal} {m : Nat} (plan : Plan) (hs : s ≤ 28)
    (hscale : ∀ e ∈ events, e.amount.scale ≤ s) (hplan : ∀ d ∈ plan.amounts, d.scale ≤ s)
    (hstart : Within s m start)
    (hsize : m + (Event.size s events + (plan.amounts.map (magnitudeAt s)).sum) < mantissaBound)
    (w : Window) : ∃ points, scenarioCurve (plan.apply events) w start = .ok points := by
  have hroom := size_apply_le s events plan
  obtain ⟨points, hpoints, -⟩ :=
    scenarioCurve_figures (w := w) hs (scale_le_apply hscale hplan) hstart (by omega)
  exact ⟨points, hpoints⟩

/-- What the events move in the window changes by what the plan changes. -/
theorem total_apply (hin : ∀ e ∈ events, w.contains e.date = true) (plan : Plan) :
    Event.total ((plan.apply events).filter fun e => w.contains e.date) =
      Event.total (events.filter fun e => w.contains e.date) + plan.change w events := by
  cases plan with
  | addTransaction amount date flow description =>
    rw [apply, Event.total_filter_withAdded, Event.units_hypothetical]
    rfl
  | removeRecurring definition =>
    have hall : (events.filter fun e => w.contains e.date) = events := List.filter_eq_self.2 hin
    have hrest : ((Event.withoutDefinition events definition).filter fun e => w.contains e.date) =
        Event.withoutDefinition events definition :=
      List.filter_eq_self.2 fun e he => hin e (List.mem_of_mem_filter he)
    have hparts := Event.total_filter_add_filter_not (fun e => e.isOccurrenceOf definition) events
    rw [apply, hrest, hall, change, Event.withoutDefinition]
    omega
  | baseline => exact (Int.add_zero _).symm

theorem natAbs_signed (flow : Flow) (amount : Decimal) :
    (flow.signed amount).natAbs = amount.units.natAbs := by
  cases flow with
  | income => exact Int.natAbs_abs _
  | expense => exact (Int.natAbs_neg _).trans (Int.natAbs_abs _)

/-- The change is no larger than the amounts it is made of. -/
theorem natAbs_change_le (hs : s ≤ 28) (hscale : ∀ e ∈ events, e.amount.scale ≤ s)
    (hplan : ∀ d ∈ plan.amounts, d.scale ≤ s) :
    (plan.change w events).natAbs ≤
      (Event.size s events + (plan.amounts.map (magnitudeAt s)).sum) * tenPow (28 - s) := by
  cases plan with
  | addTransaction amount date flow description =>
    have hsigned : (flow.signed amount).natAbs = amount.magnitudeAt s * tenPow (28 - s) := by
      rw [natAbs_signed, Decimal.natAbs_units_eq_mul (hplan amount (List.mem_singleton_self amount)) hs]
    rw [change, amounts, List.map_singleton, List.sum_singleton, Nat.add_mul]
    split
    · omega
    · exact Nat.zero_le _
  | removeRecurring definition =>
    have htotal := Event.natAbs_total_le hs
      (fun e he => hscale e (List.mem_of_mem_filter he) :
        ∀ e ∈ events.filter fun e => e.isOccurrenceOf definition, e.amount.scale ≤ s)
    have hsize := Nat.mul_le_mul_right (tenPow (28 - s))
      (Event.size_sublist (s := s) (List.filter_sublist (p := fun e : Event =>
        e.isOccurrenceOf definition) (l := events)))
    rw [change, Int.natAbs_neg]
    exact htotal.trans hsize
  | baseline => exact Nat.zero_le _

/-- A plan with a signed amount takes the amount off, for what is negative comes in. -/
theorem change_addSigned (events : List Event) {date : Date} (hin : w.contains date = true)
    (amount : Decimal) (description : Option String) :
    (addSigned amount date description).change w events = -amount.units := by
  have hmoved : (Event.hypothetical date (.ofSigned amount) amount.abs "").signedAmount.units =
      -amount.units :=
    Flow.units_ofSigned rfl rfl
  rw [Event.units_hypothetical] at hmoved
  rw [addSigned, change, if_pos hin, hmoved]

end Plan

/-! ## Comparisons -/

/-- The direction of a number of units. -/
def Impact.ofChange (n : Int) : Impact :=
  if 0 < n then .positive
  else if n < 0 then .negative
  else .neutral

namespace Impact

variable {n : Int}

theorem ofChange_eq_positive_iff : ofChange n = .positive ↔ 0 < n := by
  unfold ofChange
  split
  · simpa
  · split <;> simp <;> omega

theorem ofChange_eq_negative_iff : ofChange n = .negative ↔ n < 0 := by
  unfold ofChange
  split
  · simp
    omega
  · split <;> simp <;> omega

theorem ofChange_eq_neutral_iff : ofChange n = .neutral ↔ n = 0 := by
  unfold ofChange
  split
  · simp
    omega
  · split <;> simp <;> omega

end Impact

namespace Comparison

/-- The comparison is that of two balances which are this change apart. -/
structure Weighs (c : Comparison) (change : Int) : Prop where
  balances : c.scenario.units - c.expected.units = change
  /-- The difference is the change to two places, a half away from zero. -/
  difference : c.difference.units = nearestMultiple change (tenPow 26)
  scale_difference_le : c.difference.scale ≤ 2
  impact : c.impact = .ofChange change
  /-- The difference is rounded to zero at most, and never beyond. -/
  nonneg_of_positive : c.impact = .positive → 0 ≤ c.difference
  nonpos_of_negative : c.impact = .negative → c.difference ≤ 0
  zero_of_neutral : c.impact = .neutral → c.difference.units = 0

variable {expected scenario : Decimal} {change : Int} {s : Nat}

theorem impactOf_eq (h : scenario.units = expected.units + change) :
    impactOf expected scenario = .ofChange change := by
  have hpositive : expected.units < scenario.units ↔ 0 < change := by omega
  have hnegative : scenario.units < expected.units ↔ change < 0 := by omega
  unfold impactOf Impact.ofChange
  simp only [Decimal.lt_iff_units_lt, hpositive, hnegative]

/-- Balances whose distance can be held have a comparison, however large they are themselves. -/
theorem exists_ofBalances (hs : s ≤ 28) (hexpected : expected.scale ≤ s) (hscenario : scenario.scale ≤ s)
    (h : scenario.units = expected.units + change)
    (hsize : change.natAbs < mantissaBound * tenPow (28 - s)) :
    ∃ c, ofBalances expected scenario = .ok c ∧ c.Weighs change := by
  have hchange : scenario.units - expected.units = change := by omega
  obtain ⟨d, hd, hunits⟩ := Decimal.sub_exact hs hscenario hexpected (by rwa [hchange])
  have hdifference : (d.roundTo 2).units = nearestMultiple change (tenPow 26) := by
    rw [Decimal.units_roundTo d (by decide), hunits, hchange]
  have himpact := impactOf_eq h
  refine ⟨_, bind_eq_ok_iff.2 ⟨d, hd, rfl⟩, hchange, hdifference, Decimal.scale_roundTo_le 2 d,
    himpact, ?_, ?_, ?_⟩
  · intro hpositive
    have hpos := Impact.ofChange_eq_positive_iff.1 (himpact.symm.trans hpositive)
    rw [Decimal.le_iff_units_le, Decimal.units_zero, hdifference, ← nearestMultiple_zero (tenPow 26)]
    exact nearestMultiple_mono (le_of_lt hpos) _
  · intro hnegative
    have hneg := Impact.ofChange_eq_negative_iff.1 (himpact.symm.trans hnegative)
    rw [Decimal.le_iff_units_le, Decimal.units_zero, hdifference, ← nearestMultiple_zero (tenPow 26)]
    exact nearestMultiple_mono (le_of_lt hneg) _
  · intro hneutral
    have hzero := Impact.ofChange_eq_neutral_iff.1 (himpact.symm.trans hneutral)
    rw [hdifference, hzero, nearestMultiple_zero]

end Comparison

/-- A fee of less than half a cent on the leap day. -/
def Sample.fee : Plan :=
  .addSigned (.thousandths 4) (Sample.date 2 29) none

/-! ## Runs of plans -/

namespace Session

variable {s : Session} {events : List Event} {start : Decimal} {plan : Plan}
  {expected : List BalancePoint}

/-- Whatever the plan is, its curve is that of the events with the plan applied. -/
theorem toldPlan_eq (hcurve : s.toldCurve events start = .ok expected) (plan : Plan) :
    s.toldPlan events start expected plan =
      scenarioCurve (plan.apply events) s.request.window start := by
  cases plan with
  | addTransaction amount date flow description => rfl
  | removeRecurring definition => rfl
  | baseline => exact (scenarioCurve_of_balanceCurve hcurve).symm

theorem told_run_eq_ok_iff {outcome : WhatIf} :
    s.told events start (.run plan) = .ok outcome ↔
      s.toldCurve events start = .ok outcome.expected ∧
      scenarioCurve (plan.apply events) s.request.window start = .ok outcome.scenario ∧
      Comparison.between outcome.expected outcome.scenario = .ok outcome.comparison := by
  constructor
  · intro h
    obtain ⟨expected, hexpected, h⟩ := bind_eq_ok_iff.1 h
    obtain ⟨scenario, hscenario, h⟩ := bind_eq_ok_iff.1 h
    obtain ⟨comparison, hcomparison, h⟩ := bind_eq_ok_iff.1 h
    rw [toldPlan_eq hexpected] at hscenario
    rw [← pure_eq_ok_iff.1 h]
    exact ⟨hexpected, hscenario, hcomparison⟩
  · rintro ⟨hexpected, hscenario, hcomparison⟩
    rw [← toldPlan_eq hexpected] at hscenario
    exact bind_eq_ok_iff.2 ⟨_, hexpected, bind_eq_ok_iff.2 ⟨_, hscenario,
      bind_eq_ok_iff.2 ⟨_, hcomparison, rfl⟩⟩⟩

/-- Where the curve is told and all amounts can be added exactly, the outcome of a plan is told, and it
compares the ends. -/
theorem exists_told_run {scale m : Nat} (hs : scale ≤ 28)
    (hscale : ∀ e ∈ events, e.amount.scale ≤ scale) (hplan : ∀ d ∈ plan.amounts, d.scale ≤ scale)
    (hstart : Within scale m start)
    (hsize : m + (Event.size scale events + (plan.amounts.map (magnitudeAt scale)).sum) < mantissaBound)
    (hw : s.request.window.last < Date.latest)
    (hin : ∀ e ∈ events, s.request.window.contains e.date = true)
    (hcurve : s.toldCurve events start = .ok expected) :
    ∃ (outcome : WhatIf) (comparison : Comparison), s.told events start (.run plan) = .ok outcome ∧
      outcome.comparison = some comparison ∧
      comparison.Weighs (plan.change s.request.window events) := by
  have happly := Plan.scale_le_apply hscale hplan
  have hroom := Plan.size_apply_le scale events plan
  obtain ⟨scenario, hscenario⟩ :=
    plan.exists_scenarioCurve hs hscale hplan hstart hsize s.request.window
  -- both curves end with what was there and what is moved in the window
  obtain ⟨p, hp, hplaces, hbalance⟩ := exists_getLast?_scenarioCurve hs hscale hstart (by omega) hw
    (scenarioCurve_of_balanceCurve hcurve)
  obtain ⟨p', hp', hplaces', hbalance'⟩ := exists_getLast?_scenarioCurve hs happly hstart (by omega) hw
    hscenario
  rw [Plan.total_apply hin, ← Int.add_assoc, ← hbalance] at hbalance'
  rw [List.getLast?_map] at hp
  obtain ⟨last, hlast, rfl⟩ := Option.map_eq_some_iff.1 hp
  have hchange : (plan.change s.request.window events).natAbs <
      mantissaBound * tenPow (28 - scale) :=
    Nat.lt_of_le_of_lt (Plan.natAbs_change_le hs hscale hplan)
      (Nat.mul_lt_mul_of_pos_right (by omega) (tenPow_pos _))
  obtain ⟨c, hc, hweighs⟩ :=
    Comparison.exists_ofBalances hs hplaces hplaces' hbalance' hchange
  have hbetween : Comparison.between expected scenario = .ok (some c) := by
    rw [Comparison.between, hlast, hp']
    exact map_eq_ok_iff.2 ⟨c, hc, rfl⟩
  exact ⟨⟨expected, scenario, some c⟩, c, told_run_eq_ok_iff.2 ⟨hcurve, hscenario, hbetween⟩, rfl,
    hweighs⟩

/-- Both curves have a last day, and the comparison is that of their ends. -/
theorem exists_comparison {outcome : WhatIf} (hw : s.request.window.last < Date.latest)
    (h : s.told events start (.run plan) = .ok outcome) :
    outcome.scenario.map ScenarioPoint.date = outcome.expected.map BalancePoint.date ∧
    ∃ comparison, outcome.comparison = some comparison ∧
      outcome.expected.getLast?.map BalancePoint.balance = some comparison.expected ∧
      outcome.scenario.getLast?.map ScenarioPoint.balance = some comparison.scenario := by
  obtain ⟨hcurve, hscenario, hcomparison⟩ := told_run_eq_ok_iff.1 h
  have hdates := dates_balanceCurve hcurve
  have hdates' : outcome.scenario.map ScenarioPoint.date = s.request.window.days := by
    have hcounts := congrArg (List.map Prod.fst) (scenarioCurve_counts hscenario)
    rw [List.map_map, List.map_map] at hcounts
    exact hcounts.trans (List.map_id _)
  refine ⟨hdates'.trans hdates.symm, ?_⟩
  obtain ⟨e, he, -⟩ := Window.exists_getLast?_of_dates hw hdates
  obtain ⟨p, hp, -⟩ := Window.exists_getLast?_of_dates hw hdates'
  rw [Comparison.between, he, hp] at hcomparison
  obtain ⟨c, hc, hsome⟩ := map_eq_ok_iff.1 hcomparison
  obtain ⟨d, -, hc⟩ := bind_eq_ok_iff.1 hc
  rw [← pure_eq_ok_iff.1 hc] at hsome
  refine ⟨_, hsome.symm, ?_, ?_⟩
  · rw [he]
    rfl
  · rw [hp]
    rfl

variable {σ : Type} {source : Source σ} {t : σ} {run : List Inquiry} {outcome : WhatIf}

/-- **The outcome of a plan is consistent.** A session, over any source and asked anything else besides,
has answered what would be with a plan. Then the expected curve is the one that the session tells before
and after, the curve of the plan has a point for the same days, and the ends of the two are compared. If
the accounts, the events and the amounts of the plan can be added exactly, then the comparison is that
of two balances which are the change of the plan apart. A plan with a signed amount in the window takes
this amount off. -/
theorem run_consistent (hw : s.request.window.last < Date.latest)
    (houtcome : ⟨.run plan, .ok outcome⟩ ∈ s.transcript source ({}, t) run) :
    ∃ events start, s.HasFound source t run events start ∧
      s.answerAfter source t run .curve = .ok outcome.expected ∧
      (∀ curve : List BalancePoint, ⟨.curve, .ok curve⟩ ∈ s.transcript source ({}, t) run →
        outcome.expected = curve) ∧
      outcome.scenario.map ScenarioPoint.date = outcome.expected.map BalancePoint.date ∧
      ∃ comparison, outcome.comparison = some comparison ∧
        outcome.expected.getLast?.map BalancePoint.balance = some comparison.expected ∧
        outcome.scenario.getLast?.map ScenarioPoint.balance = some comparison.scenario ∧
        (∀ accounts, Account.holdings accounts s.request.accounts = .ok start →
          SumExact (Account.counted accounts s.request.accounts ++
            (events.map Event.amount ++ plan.amounts)) →
          comparison.Weighs (plan.change s.request.window events)) ∧
        ∀ amount date description, plan = .addSigned amount date description →
          s.request.window.contains date = true →
          plan.change s.request.window events = -amount.units := by
  obtain ⟨events, start, hfound⟩ := hasFound_of_transcript rfl rfl houtcome
  obtain ⟨entries, definitions, -, -, hevents⟩ := hfound.records
  have htold := hfound.told houtcome
  have hcurve := (told_run_eq_ok_iff.1 htold).1
  obtain ⟨hdates, comparison, hcomparison, hexpected, hscenario⟩ := exists_comparison hw htold
  refine ⟨events, start, hfound, ?_, ?_, hdates, comparison, hcomparison, hexpected, hscenario,
    ?_, ?_⟩
  · exact (hfound.answerAfter_eq .curve).trans (Checked.attempt_eq_ok_iff.2 hcurve)
  · intro curve h
    exact Except.ok.inj (hcurve.symm.trans (hfound.told h))
  · intro accounts haccounts hexact
    obtain ⟨scale, hs, m, hstart, hscale, hsize⟩ :=
      Account.exists_within_of_sumExact haccounts hexact
    rw [List.map_append, List.sum_append, List.map_map] at hsize
    have hplan : ∀ d ∈ plan.amounts, d.scale ≤ scale := fun d hd =>
      hscale d (List.mem_append_right _ hd)
    obtain ⟨outcome', comparison', htold', hcomparison', hweighs⟩ := exists_told_run hs
      (fun e he => hscale _ (List.mem_append_left _ (List.mem_map_of_mem he))) hplan hstart hsize hw
      (Outlook.contains_of_mem_events (o := s.outlook) hw hevents) hcurve
    cases htold.symm.trans htold'
    cases hcomparison.symm.trans hcomparison'
    exact hweighs
  · rintro amount date description rfl hin
    exact Plan.change_addSigned events hin amount description

/-- The fee is rounded away in the difference, and is for the worse all the same. -/
theorem sample_fee : ∃ (outcome : WhatIf) (comparison : Comparison),
    ⟨.run Sample.fee, .ok outcome⟩ ∈
      Sample.session.transcript Memory.source ({}, Sample.memory) [.alerts, .run Sample.fee] ∧
    outcome.comparison = some comparison ∧
    comparison.Weighs (-(Decimal.thousandths 4).units) ∧
    comparison.impact = .negative ∧ comparison.difference.units = 0 := by
  obtain ⟨outcome, houtcome⟩ : ∃ outcome : WhatIf,
      ((Sample.session.answer Memory.source (.run Sample.fee)).runFrom
        ((Sample.session.answer Memory.source .alerts).runFrom ({}, Sample.memory)).2).1 =
          .ok outcome :=
    exists_eq_ok (by decide +kernel)
  have hmem : ⟨.run Sample.fee, .ok outcome⟩ ∈
      Sample.session.transcript Memory.source ({}, Sample.memory) [.alerts, .run Sample.fee] := by
    rw [transcript, transcript, houtcome]
    exact List.mem_cons_of_mem _ List.mem_cons_self
  obtain ⟨events, start, hfound, -, -, -, comparison, hcomparison, -, -, hweighs, hsigned⟩ :=
    run_consistent Sample.last_lt_latest hmem
  have hholdings : Account.holdings (Sample.snapshot.ownedBy Sample.home).accounts none =
      .ok ((Sample.session.after Memory.source ({}, Sample.memory)
        [.alerts, .run Sample.fee]).1.startingBalance.getD 0) := by
    decide +kernel
  have hexact : SumExact (Account.counted (Sample.snapshot.ownedBy Sample.home).accounts none ++
      (((Sample.session.after Memory.source ({}, Sample.memory)
        [.alerts, .run Sample.fee]).1.events.getD []).map Event.amount ++ Sample.fee.amounts)) :=
    ⟨3, by decide, by decide +kernel, by decide +kernel⟩
  rw [hfound.held] at hholdings hexact
  have hfee := hweighs _ hholdings hexact
  rw [hsigned _ _ _ rfl (by decide +kernel)] at hfee
  refine ⟨outcome, comparison, hmem, hcomparison, hfee, hfee.impact.trans (by decide), ?_⟩
  rw [hfee.difference]
  decide

end Session

end Forecast
