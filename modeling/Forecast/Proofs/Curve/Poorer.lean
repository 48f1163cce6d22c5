import Forecast.Proofs.Curve.Statuses
import Forecast.Proofs.Curve.Scored
import Forecast.Proofs.Decimal.Rounded
import Forecast.Proofs.Source.Memory

/-!
# Poorer starts

Two walks through the same days with the same events, one of which starts with no more than the other.
Addition rounds where it must, and how much it drops depends on the running balance, but rounding keeps
the order, so that the poorer walk stays the poorer one from day to day (`Walk.trace_forall₂`). What falls
below a limit on the richer curve has then fallen below any higher limit on the poorer one, on that day or
earlier (`exists_firstBelow_le`), and there the poorer curve has its alert: `Alert.poorer_alerts`.
-/

namespace Forecast

/-- The same day, with a balance that is no larger. -/
structure BalancePoint.AtMost (p p' : BalancePoint) : Prop where
  date : p.date = p'.date
  balance : p.balance ≤ p'.balance

variable {on : Date → List Event} {start start' limit limit' threshold threshold' : Decimal}
  {curve curve' : List BalancePoint} {q : BalancePoint} {today : Date}

/-! ## Day by day -/

/-- If the points of a day stand in a relation whenever the balances do that they are made of, then so do
the points of two walks. -/
theorem Walk.trace_forall₂ {π π' : Type} {point : Date → List Event → Decimal → Decimal → Checked π}
    {point' : Date → List Event → Decimal → Decimal → Checked π'} {R : π → π' → Prop}
    (hpoint : ∀ d es net balance balance' p p', balance ≤ balance' →
      point d es net balance = .ok p → point' d es net balance' = .ok p' → R p p')
    (hstart : start ≤ start') {ds : List Date} {ps : List π} {ps' : List π'}
    (h : trace on point start ds = .ok ps) (h' : trace on point' start' ds = .ok ps') :
    List.Forall₂ R ps ps' := by
  induction ds generalizing start start' ps ps' with
  | nil =>
    cases h
    cases h'
    exact .nil
  | cons day ds ih =>
    obtain ⟨net, hnet, next, hnext, p, hp, rest, hrest, rfl⟩ := trace_cons_eq_ok_iff.1 h
    obtain ⟨net', hnet', next', hnext', p', hp', rest', hrest', rfl⟩ := trace_cons_eq_ok_iff.1 h'
    -- both walks add the same net change
    obtain rfl := Except.ok.inj (hnet.symm.trans hnet')
    have hle : next ≤ next' := Decimal.add_mono hstart hnext hnext'
    exact .cons (hpoint _ _ _ _ _ _ _ hle hp hp') (ih hle hrest hrest')

/-- The curve of a poorer start has at most the balance of the other one on each day. The scores do not
count for that. -/
theorem balanceCurve_atMost {events : List Event} {w : Window} {s s' : ConfidenceSettings}
    (hstart : start ≤ start') (h : balanceCurve events w start s = .ok curve)
    (h' : balanceCurve events w start' s' = .ok curve') :
    List.Forall₂ BalancePoint.AtMost curve curve' := by
  rw [balanceCurve_eq_trace] at h h'
  refine Walk.trace_forall₂ ?_ hstart h h'
  intro d es net balance balance' p p' hle hp hp'
  obtain ⟨hdate, hbalance, -⟩ := BalancePoint.of_ofDay hp
  obtain ⟨hdate', hbalance', -⟩ := BalancePoint.of_ofDay hp'
  exact ⟨hdate.trans hdate'.symm, hbalance ▸ hbalance' ▸ hle⟩

/-! ## First days -/

/-- Where the richer curve first falls below a limit, the poorer one is below any higher limit, and has
been since that day or an earlier one. -/
theorem exists_firstBelow_le (hdates : (curve.map BalancePoint.date).Pairwise (· < ·))
    (hpoints : List.Forall₂ BalancePoint.AtMost curve curve') (hlimit : limit' ≤ limit)
    (hq : FirstBelow curve' limit' q) : ∃ p, FirstBelow curve limit p ∧ p.date ≤ q.date := by
  obtain ⟨p, hp, hpq⟩ := exists_of_mem_right hpoints hq.mem
  have hbelow : p.balance < limit := lt_of_le_of_lt hpq.balance (lt_of_lt_of_le hq.below hlimit)
  obtain ⟨first, hfirst⟩ := (exists_firstBelow_iff hdates).2 ⟨p, hp, hbelow⟩
  exact ⟨first, hfirst, hpq.date ▸ hfirst.earliest p hp hbelow⟩

/-! ## Alerts -/

namespace Alert

/-- Each alert of the one list that counts has one that counts in the other list, dated no later. -/
def Foretold (counts : Alert → Prop) (alerts alerts' : List Alert) : Prop :=
  ∀ a' ∈ alerts', counts a' → ∃ a ∈ alerts, counts a ∧ a.date ≤ a'.date

/-- It is enough that the alerts that count are about the first days below two limits, of which the
poorer curve has the higher one. -/
theorem foretold_of_firstBelow {alerts alerts' : List Alert} {counts : Alert → Prop}
    (hdates : (curve.map BalancePoint.date).Pairwise (· < ·))
    (hpoints : List.Forall₂ BalancePoint.AtMost curve curve') (hlimit : limit' ≤ limit)
    (habout : ∀ a ∈ alerts, counts a →
      ∃ p, FirstBelow curve limit p ∧ a.date = p.date ∧ a.balance = p.balance)
    (habout' : ∀ a' ∈ alerts', counts a' →
      ∃ q, FirstBelow curve' limit' q ∧ a'.date = q.date ∧ a'.balance = q.balance)
    (hexists : ∀ p, FirstBelow curve limit p → ∃ a ∈ alerts, counts a) :
    Foretold counts alerts alerts' := by
  intro a' ha' hcounts'
  obtain ⟨q, hq, hdate', -⟩ := habout' a' ha' hcounts'
  obtain ⟨first, hfirst, hle⟩ := exists_firstBelow_le hdates hpoints hlimit hq
  obtain ⟨a, ha, hcounts⟩ := hexists first hfirst
  obtain ⟨p, hp, hdate, -⟩ := habout a ha hcounts
  refine ⟨a, ha, hcounts, ?_⟩
  rw [hdate, hdate', hp.unique hdates hfirst]
  exact hle

/-- **A poorer start never looks safer.** Two curves of the same events over the same window, one of which
starts with no more than the other: day by day its balance is at most that of the other, also where sums
are rounded. If its threshold is no lower either, and neither is negative, then each alert of a low
balance and each critical alert of the other curve has one of its sort on this curve that is dated no
later. -/
theorem poorer_alerts {events : List Event} {w : Window} {s s' : ConfidenceSettings}
    (hstart : start ≤ start') (hthreshold : threshold' ≤ threshold) (hnonneg : 0 ≤ threshold')
    (h : balanceCurve events w start s = .ok curve)
    (h' : balanceCurve events w start' s' = .ok curve') (today : Date) :
    List.Forall₂ BalancePoint.AtMost curve curve' ∧
    Foretold (fun a => a.kind = .lowBalance)
      (ofCurve curve threshold today) (ofCurve curve' threshold' today) ∧
    Foretold (fun a => a.severity = .critical)
      (ofCurve curve threshold today) (ofCurve curve' threshold' today) := by
  have hpoints := balanceCurve_atMost hstart h h'
  have hnonneg' : 0 ≤ threshold := le_trans hnonneg hthreshold
  have hdates : (curve.map BalancePoint.date).Pairwise (· < ·) := by
    rw [dates_balanceCurve h]
    exact w.pairwise_days
  have hdates' : (curve'.map BalancePoint.date).Pairwise (· < ·) := by
    rw [dates_balanceCurve h']
    exact w.pairwise_days
  refine ⟨hpoints, foretold_of_firstBelow hdates hpoints hthreshold ?_ ?_ ?_,
    foretold_of_firstBelow hdates hpoints (le_refl 0) ?_ ?_ ?_⟩
  · intro a ha hlow
    exact (((ordered_ofCurve hdates).isAbout a ha).of_low hlow).2
  · intro a' ha' hlow
    exact (((ordered_ofCurve hdates').isAbout a' ha').of_low hlow).2
  · intro p hp
    exact exists_low hdates hnonneg' hp today
  · intro a ha hcritical
    exact firstBelow_of_critical hdates hnonneg' ha hcritical
  · intro a' ha' hcritical
    exact firstBelow_of_critical hdates' hnonneg ha' hcritical
  · intro p hp
    exact exists_critical hdates hnonneg' hp today

end Alert

namespace Sample

/-- A third of ten is paid, with a digit too many for a balance of two digits before the point, and more
follows two days later. -/
def thirdPaid : List Event := [
  { date := date 2 28, flow := .expense,
    amount := { negative := false, mantissa := 3333333333333333333333333333, scale := 27 },
    description := "share", confidence := .hundredths 95, origin := .pending },
  { date := date 3 1, flow := .expense, amount := .whole 120, description := "groceries",
    confidence := .hundredths 95, origin := .pending }]

/-- What an alert says without its amounts. -/
def told (curve : List BalancePoint) (threshold : Decimal) : List (AlertKind × Date × Severity) :=
  (Alert.ofCurve curve threshold (date 2 27)).map fun a => (a.kind, a.date, a.severity)

end Sample

namespace Alert

/-- The richer balance has one digit too many for a decimal and is rounded, the poorer one is not. The
richer curve is low two days before it is negative and has two alerts; the poorer one is both at once and
has one, which answers for both. -/
theorem sample_thirdPaid :
    (.whole 1 : Decimal) ≤ .whole 100 ∧ (.whole 98 : Decimal) ≤ .whole 100 ∧
    (0 : Decimal) ≤ .whole 98 ∧ ∃ curve curve',
      balanceCurve Sample.thirdPaid Sample.window (.whole 1) {} = .ok curve ∧
      balanceCurve Sample.thirdPaid Sample.window (.whole 100) {} = .ok curve' ∧
      (curve.head?.map fun p => p.balance.toText) = some "-2.333333333333333333333333333" ∧
      (curve'.head?.map fun p => p.balance.toText) = some "96.66666666666666666666666667" ∧
      Sample.told curve (.whole 100) = [(.lowBalance, Sample.date 2 28, .critical)] ∧
      Sample.told curve' (.whole 98) =
        [(.lowBalance, Sample.date 2 28, .warning), (.overdraft, Sample.date 3 1, .critical)] ∧
      List.Forall₂ BalancePoint.AtMost curve curve' ∧
      Foretold (fun a => a.kind = .lowBalance) (ofCurve curve (.whole 100) (Sample.date 2 27))
        (ofCurve curve' (.whole 98) (Sample.date 2 27)) ∧
      Foretold (fun a => a.severity = .critical) (ofCurve curve (.whole 100) (Sample.date 2 27))
        (ofCurve curve' (.whole 98) (Sample.date 2 27)) := by
  have hpoor : (balanceCurve Sample.thirdPaid Sample.window (.whole 1) {}).map
      (fun curve => (curve.head?.map fun p => p.balance.toText, Sample.told curve (.whole 100))) =
        .ok (some "-2.333333333333333333333333333",
          [(.lowBalance, Sample.date 2 28, .critical)]) := by
    decide +kernel
  have hrich : (balanceCurve Sample.thirdPaid Sample.window (.whole 100) {}).map
      (fun curve => (curve.head?.map fun p => p.balance.toText, Sample.told curve (.whole 98))) =
        .ok (some "96.66666666666666666666666667",
          [(.lowBalance, Sample.date 2 28, .warning), (.overdraft, Sample.date 3 1, .critical)]) := by
    decide +kernel
  obtain ⟨curve, h, hpoor⟩ := map_eq_ok_iff.1 hpoor
  obtain ⟨curve', h', hrich⟩ := map_eq_ok_iff.1 hrich
  have hstart : (.whole 1 : Decimal) ≤ .whole 100 := by decide
  have hthreshold : (.whole 98 : Decimal) ≤ .whole 100 := by decide
  have hnonneg : (0 : Decimal) ≤ .whole 98 := by decide
  exact ⟨hstart, hthreshold, hnonneg, curve, curve', h, h', congrArg Prod.fst hpoor,
    congrArg Prod.fst hrich, congrArg Prod.snd hpoor, congrArg Prod.snd hrich,
    poorer_alerts hstart hthreshold hnonneg h h' (Sample.date 2 27)⟩

end Alert

end Forecast
