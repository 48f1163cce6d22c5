import Forecast.Confidence.Score
import Forecast.Curve.Status
import Forecast.Proofs.Household.Written
import Forecast.Report

/-!
# Written results

What a projection answers has faithful codecs: events and curves, alerts and reports. The counts in
it must be ones of 64 bits, as they are in what is read.
-/

namespace Forecast

open Json

instance : LawfulNamed Origin := ⟨fun a => by cases a <;> decide⟩
instance : LawfulNamed DayStatus := ⟨fun a => by cases a <;> decide⟩
instance : LawfulNamed AlertKind := ⟨fun a => by cases a <;> decide⟩
instance : LawfulNamed Severity := ⟨fun a => by cases a <;> decide⟩
instance : LawfulNamed ConfidenceLevel := ⟨fun a => by cases a <;> decide⟩

/-! ## Events and curves -/

instance : Settles Event where
  settle e :=
    { e with
      amount := settle e.amount, confidence := settle e.confidence, least := settle e.least,
      greatest := settle e.greatest }

instance : AlwaysFits Event := ⟨fun _ => trivial⟩

theorem Event.settle_eq (e : Event) : settle e =
    { e with
      amount := settle e.amount, confidence := settle e.confidence, least := settle e.least,
      greatest := settle e.greatest } := rfl

instance : Faithful Event where
  decode?_encode _ := by
    refine bind_slots?_record rfl (by decide) ?_
    simp [Event.settle_eq]
  settled h := by
    refine settled_of_slots h fun slots h hclean => ?_
    split at h
    · simp only [Option.bind_eq_bind, Option.bind_eq_some_iff, Option.pure_def,
        Option.some.injEq] at h
      obtain ⟨_, -, _, -, _, hamount, _, -, _, hconfidence, _, -, _, -, _, -, _, hleast, _,
        hgreatest, rfl⟩ := h
      have hamount := Slot.required_settled hamount fun hv => hclean hv _ (by simp)
      have hconfidence := Slot.required_settled hconfidence fun hv => hclean hv _ (by simp)
      have hleast := Slot.optional_settled hleast fun hv => hclean hv _ (by simp)
      have hgreatest := Slot.optional_settled hgreatest fun hv => hclean hv _ (by simp)
      refine ⟨trivial, fun hv => ?_⟩
      simp only [Event.settle_eq, hamount.settle_eq hv, hconfidence.settle_eq hv,
        hleast.settle_eq hv, hgreatest.settle_eq hv]
    · cases h

instance : Settles BalancePoint where
  settle b :=
    { b with
      balance := settle b.balance, confidence := settle b.confidence,
      netChange := settle b.netChange }
  Fits b := Fits b.eventCount

theorem BalancePoint.settle_eq (b : BalancePoint) : settle b =
    { b with
      balance := settle b.balance, confidence := settle b.confidence,
      netChange := settle b.netChange } := rfl

instance : Faithful BalancePoint where
  decode?_encode {b} h := by
    have heventCount : Fits b.eventCount := h
    refine bind_slots?_record rfl (by decide) ?_
    simp [BalancePoint.settle_eq, heventCount]
  settled h := by
    refine settled_of_slots h fun slots h hclean => ?_
    split at h
    · simp only [Option.bind_eq_bind, Option.bind_eq_some_iff, Option.pure_def,
        Option.some.injEq] at h
      obtain ⟨_, -, _, hbalance, _, hconfidence, _, hnetChange, _, heventCount, rfl⟩ := h
      have hbalance := Slot.required_settled hbalance fun hv => hclean hv _ (by simp)
      have hconfidence := Slot.required_settled hconfidence fun hv => hclean hv _ (by simp)
      have hnetChange := Slot.required_settled hnetChange fun hv => hclean hv _ (by simp)
      have heventCount := Slot.required_settled heventCount fun hv => hclean hv _ (by simp)
      refine ⟨heventCount.fits, fun hv => ?_⟩
      simp only [BalancePoint.settle_eq, hbalance.settle_eq hv, hconfidence.settle_eq hv,
        hnetChange.settle_eq hv]
    · cases h

instance : Settles ScenarioPoint where
  settle s := { s with balance := settle s.balance, netChange := settle s.netChange }
  Fits s := Fits s.eventCount

theorem ScenarioPoint.settle_eq (s : ScenarioPoint) : settle s =
    { s with
      balance := settle s.balance, netChange := settle s.netChange } := rfl

instance : Faithful ScenarioPoint where
  decode?_encode {s} h := by
    have heventCount : Fits s.eventCount := h
    refine bind_slots?_record rfl (by decide) ?_
    simp [ScenarioPoint.settle_eq, heventCount]
  settled h := by
    refine settled_of_slots h fun slots h hclean => ?_
    split at h
    · simp only [Option.bind_eq_bind, Option.bind_eq_some_iff, Option.pure_def,
        Option.some.injEq] at h
      obtain ⟨_, -, _, hbalance, _, hnetChange, _, heventCount, rfl⟩ := h
      have hbalance := Slot.required_settled hbalance fun hv => hclean hv _ (by simp)
      have hnetChange := Slot.required_settled hnetChange fun hv => hclean hv _ (by simp)
      have heventCount := Slot.required_settled heventCount fun hv => hclean hv _ (by simp)
      refine ⟨heventCount.fits, fun hv => ?_⟩
      simp only [ScenarioPoint.settle_eq, hbalance.settle_eq hv, hnetChange.settle_eq hv]
    · cases h

instance : Settles Alert where
  settle a := { a with balance := settle a.balance, threshold := settle a.threshold }
  Fits a := Fits a.daysUntil

theorem Alert.settle_eq (a : Alert) : settle a =
    { a with
      balance := settle a.balance, threshold := settle a.threshold } := rfl

instance : Faithful Alert where
  decode?_encode {a} h := by
    have hdaysUntil : Fits a.daysUntil := h
    refine bind_slots?_record rfl (by decide) ?_
    simp [Alert.settle_eq, hdaysUntil]
  settled h := by
    refine settled_of_slots h fun slots h hclean => ?_
    split at h
    · simp only [Option.bind_eq_bind, Option.bind_eq_some_iff, Option.pure_def,
        Option.some.injEq] at h
      obtain ⟨_, -, _, -, _, hbalance, _, hthreshold, _, -, _, hdaysUntil, rfl⟩ := h
      have hbalance := Slot.required_settled hbalance fun hv => hclean hv _ (by simp)
      have hthreshold := Slot.optional_settled hthreshold fun hv => hclean hv _ (by simp)
      have hdaysUntil := Slot.required_settled hdaysUntil fun hv => hclean hv _ (by simp)
      refine ⟨hdaysUntil.fits, fun hv => ?_⟩
      simp only [Alert.settle_eq, hbalance.settle_eq hv, hthreshold.settle_eq hv]
    · cases h

/-! ## Reports -/

instance : Settles Summary where
  settle s :=
    { s with
      income := settle s.income, expenses := settle s.expenses, netCashFlow := settle s.netCashFlow,
      startingBalance := settle s.startingBalance, endingBalance := settle s.endingBalance }
  Fits s := Fits s.eventCount

theorem Summary.settle_eq (s : Summary) : settle s =
    { s with
      income := settle s.income, expenses := settle s.expenses, netCashFlow := settle s.netCashFlow,
      startingBalance := settle s.startingBalance, endingBalance := settle s.endingBalance } := rfl

instance : Faithful Summary where
  decode?_encode {s} h := by
    have heventCount : Fits s.eventCount := h
    refine bind_slots?_record rfl (by decide) ?_
    simp [Summary.settle_eq, heventCount]
  settled h := by
    refine settled_of_slots h fun slots h hclean => ?_
    split at h
    · simp only [Option.bind_eq_bind, Option.bind_eq_some_iff, Option.pure_def,
        Option.some.injEq] at h
      obtain ⟨_, hincome, _, hexpenses, _, hnetCashFlow, _, heventCount, _, hstartingBalance, _,
        hendingBalance, _, -, rfl⟩ := h
      have hincome := Slot.required_settled hincome fun hv => hclean hv _ (by simp)
      have hexpenses := Slot.required_settled hexpenses fun hv => hclean hv _ (by simp)
      have hnetCashFlow := Slot.required_settled hnetCashFlow fun hv => hclean hv _ (by simp)
      have heventCount := Slot.required_settled heventCount fun hv => hclean hv _ (by simp)
      have hstartingBalance := Slot.required_settled hstartingBalance
        fun hv => hclean hv _ (by simp)
      have hendingBalance := Slot.required_settled hendingBalance fun hv => hclean hv _ (by simp)
      refine ⟨heventCount.fits, fun hv => ?_⟩
      simp only [Summary.settle_eq, hincome.settle_eq hv, hexpenses.settle_eq hv,
        hnetCashFlow.settle_eq hv, hstartingBalance.settle_eq hv, hendingBalance.settle_eq hv]
    · cases h

instance : Settles Report where
  settle r :=
    { r with
      projections := settle r.projections, curve := settle r.curve, summary := settle r.summary,
      alerts := settle r.alerts }
  Fits r := Fits r.curve ∧ Fits r.summary ∧ Fits r.alerts

theorem Report.settle_eq (r : Report) : settle r =
    { r with
      projections := settle r.projections, curve := settle r.curve, summary := settle r.summary,
      alerts := settle r.alerts } := rfl

instance : Faithful Report where
  decode?_encode {r} h := by
    obtain ⟨hcurve, hsummary, halerts⟩ := h
    refine bind_slots?_record rfl (by decide) ?_
    simp [Report.settle_eq, hcurve, hsummary, halerts]
  settled h := by
    refine settled_of_slots h fun slots h hclean => ?_
    split at h
    · simp only [Option.bind_eq_bind, Option.bind_eq_some_iff, Option.pure_def,
        Option.some.injEq] at h
      obtain ⟨_, hprojections, _, hcurve, _, hsummary, _, halerts, rfl⟩ := h
      have hprojections := Slot.required_settled hprojections fun hv => hclean hv _ (by simp)
      have hcurve := Slot.required_settled hcurve fun hv => hclean hv _ (by simp)
      have hsummary := Slot.required_settled hsummary fun hv => hclean hv _ (by simp)
      have halerts := Slot.required_settled halerts fun hv => hclean hv _ (by simp)
      refine ⟨⟨hcurve.fits, hsummary.fits, halerts.fits⟩, fun hv => ?_⟩
      simp only [Report.settle_eq, hprojections.settle_eq hv, hcurve.settle_eq hv,
        hsummary.settle_eq hv, halerts.settle_eq hv]
    · cases h

instance : Settles Upcoming where
  settle u := { u with events := settle u.events, alerts := settle u.alerts }
  Fits u := Fits u.alerts

theorem Upcoming.settle_eq (u : Upcoming) : settle u =
    { u with
      events := settle u.events, alerts := settle u.alerts } := rfl

instance : Faithful Upcoming where
  decode?_encode {u} h := by
    have halerts : Fits u.alerts := h
    refine bind_slots?_record rfl (by decide) ?_
    simp [Upcoming.settle_eq, halerts]
  settled h := by
    refine settled_of_slots h fun slots h hclean => ?_
    split at h
    · simp only [Option.bind_eq_bind, Option.bind_eq_some_iff, Option.pure_def,
        Option.some.injEq] at h
      obtain ⟨_, hevents, _, halerts, rfl⟩ := h
      have hevents := Slot.required_settled hevents fun hv => hclean hv _ (by simp)
      have halerts := Slot.required_settled halerts fun hv => hclean hv _ (by simp)
      refine ⟨halerts.fits, fun hv => ?_⟩
      simp only [Upcoming.settle_eq, hevents.settle_eq hv, halerts.settle_eq hv]
    · cases h

end Forecast
