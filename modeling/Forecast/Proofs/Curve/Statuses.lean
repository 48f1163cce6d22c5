import Forecast.Curve.Status
import Forecast.Proofs.Curve.Alerts

/-!
# Statuses and alerts

A calendar marks each day of a curve, alerts name the first days that are bad, and the two are computed
apart. What a day is marked as is said for each day by itself, in terms of its balance and the balance of
the day before (`DayStatus.getElem?_ofCurve`). The first day with a mark that stands for a balance below a
limit is then the earliest one below that limit (`FirstMarked.iff_firstBelow`), which is the day an alert is
about, so that the two tell the same story (`DayStatus.tells_alerts`).
-/

namespace Forecast

variable {curve : List BalancePoint} {threshold limit balance : Decimal} {previous : Option Decimal}
  {marks : List DayStatus} {p q : BalancePoint} {today : Date}

namespace DayStatus

/-! ## The marks of days -/

/-- The balance of the day before the one with the given index. -/
def previous? (curve : List BalancePoint) : Nat → Option Decimal
  | 0 => none
  | i + 1 => curve[i]?.map BalancePoint.balance

/-- Each day has a status, and it depends on its balance and on the one of the day before. -/
theorem getElem?_ofCurve (curve : List BalancePoint) (threshold : Decimal) (i : Nat) :
    (ofCurve curve threshold)[i]? =
      curve[i]?.map fun p => ofBalance p.balance (previous? curve i) threshold := by
  rw [ofCurve, List.getElem?_zipWith]
  cases hp : curve[i]? with
  | none => rfl
  | some p =>
    cases i with
    | zero => rfl
    | succ i =>
      -- a day with a successor is on the curve
      have hlt : i < curve.length := Nat.lt_of_succ_lt (List.getElem?_eq_some_iff.1 hp).1
      rw [List.getElem?_cons_succ, List.getElem?_map, previous?, List.getElem?_eq_getElem hlt]
      rfl

theorem length_ofCurve (curve : List BalancePoint) (threshold : Decimal) :
    (ofCurve curve threshold).length = curve.length := by
  simp [ofCurve]

theorem ofBalance_eq_negative_iff : ofBalance balance previous threshold = negative ↔ balance < 0 := by
  unfold ofBalance
  by_cases hnegative : balance < 0
  · simp [hnegative]
  · simp only [hnegative, if_false, iff_false]
    split_ifs <;> simp

/-- A low balance is a negative one or else a warning. -/
theorem ofBalance_mem_low_iff (hthreshold : 0 ≤ threshold) :
    ofBalance balance previous threshold ∈ [negative, warning] ↔ balance < threshold := by
  unfold ofBalance
  by_cases hlow : balance < threshold
  · by_cases hnegative : balance < 0 <;> simp [hlow, hnegative]
  · have hnonneg : ¬ balance < 0 := fun h => hlow (lt_of_lt_of_le h hthreshold)
    simp only [hlow, hnonneg, if_false, iff_false]
    split_ifs <;> simp

/-- A day is marked as positive if it is not low and its balance has risen. -/
theorem ofBalance_eq_positive_iff (hthreshold : 0 ≤ threshold) :
    ofBalance balance previous threshold = positive ↔
      threshold ≤ balance ∧ ∃ b, previous = some b ∧ b < balance := by
  unfold ofBalance
  by_cases hlow : balance < threshold
  · have hnot : ¬ threshold ≤ balance := not_le_of_gt hlow
    by_cases hnegative : balance < 0 <;> simp [hlow, hnegative, hnot]
  · have hnonneg : ¬ balance < 0 := fun h => hlow (lt_of_lt_of_le h hthreshold)
    cases previous with
    | none => simp [hlow, hnonneg]
    | some b => simp [hlow, hnonneg, Decimal.not_lt_iff_le.1 hlow]

end DayStatus

/-! ## The first mark -/

/-- The point is the first one of the curve with one of the marks. -/
def FirstMarked (curve : List BalancePoint) (threshold : Decimal) (marks : List DayStatus)
    (p : BalancePoint) : Prop :=
  ∃ i : Nat, curve[i]? = some p ∧ (∃ m ∈ marks, (DayStatus.ofCurve curve threshold)[i]? = some m) ∧
    ∀ j < i, ∀ m ∈ marks, (DayStatus.ofCurve curve threshold)[j]? ≠ some m

/-- In a curve whose dates ascend the order of two points is that of their dates. -/
theorem date_lt_of_getElem? (hdates : (curve.map BalancePoint.date).Pairwise (· < ·)) {i j : Nat}
    (hp : curve[i]? = some p) (hq : curve[j]? = some q) (hij : i < j) : p.date < q.date := by
  obtain ⟨hi, rfl⟩ := List.getElem?_eq_some_iff.1 hp
  obtain ⟨hj, rfl⟩ := List.getElem?_eq_some_iff.1 hq
  exact List.pairwise_iff_getElem.1 (List.pairwise_map.1 hdates) i j hi hj hij

section

variable (hmarks : ∀ balance previous,
  DayStatus.ofBalance balance previous threshold ∈ marks ↔ balance < limit)

include hmarks

/-- If the marks stand for the balances below a limit, a point has one of them exactly if its balance is
below the limit. -/
theorem exists_mark_iff {i : Nat} (hp : curve[i]? = some p) :
    (∃ m ∈ marks, (DayStatus.ofCurve curve threshold)[i]? = some m) ↔ p.balance < limit := by
  rw [DayStatus.getElem?_ofCurve, hp, Option.map_some, ← hmarks _ (DayStatus.previous? curve i)]
  simp

/-- And the first point with one of them is the earliest one below the limit. -/
theorem FirstMarked.iff_firstBelow (hdates : (curve.map BalancePoint.date).Pairwise (· < ·)) :
    FirstMarked curve threshold marks p ↔ FirstBelow curve limit p := by
  constructor
  · rintro ⟨i, hp, hmarked, hfirst⟩
    refine ⟨List.mem_of_getElem? hp, (exists_mark_iff hmarks hp).1 hmarked, ?_⟩
    intro q hq hbelow
    obtain ⟨j, hj⟩ := List.mem_iff_getElem?.1 hq
    rcases lt_trichotomy i j with hij | rfl | hij
    · exact le_of_lt (date_lt_of_getElem? hdates hp hj hij)
    · rw [Option.some.inj (hp.symm.trans hj)]
    · -- a point before the first mark has none
      obtain ⟨m, hm, hstatus⟩ := (exists_mark_iff hmarks hj).2 hbelow
      exact absurd hstatus (hfirst j hij m hm)
  · rintro ⟨hmem, hbelow, hearliest⟩
    obtain ⟨i, hp⟩ := List.mem_iff_getElem?.1 hmem
    refine ⟨i, hp, (exists_mark_iff hmarks hp).2 hbelow, ?_⟩
    intro j hij m hm hstatus
    have hj : j < curve.length := lt_trans hij (List.getElem?_eq_some_iff.1 hp).1
    have hq := List.getElem?_eq_getElem hj
    have hlow := (exists_mark_iff hmarks hq).1 ⟨m, hm, hstatus⟩
    exact not_lt_of_ge (hearliest _ (List.mem_of_getElem? hq) hlow)
      (date_lt_of_getElem? hdates hq hp hij)

end

/-! ## What alerts are about -/

namespace Alert

variable {a : Alert}

/-- A critical alert is about the earliest negative day, whichever of its two kinds it has. -/
theorem firstBelow_of_critical (hdates : (curve.map BalancePoint.date).Pairwise (· < ·))
    (hthreshold : 0 ≤ threshold) (ha : a ∈ ofCurve curve threshold today)
    (hcritical : a.severity = .critical) :
    ∃ p, FirstBelow curve 0 p ∧ a.date = p.date ∧ a.balance = p.balance := by
  rcases ofCurve_cases hdates hthreshold today with
    ⟨heq, -⟩ | ⟨l, hl, hle, heq⟩ | ⟨l, -, hn, heq⟩ | ⟨l, n, hl, hn, hdate, heq⟩
  · rw [heq] at ha
    exact absurd ha List.not_mem_nil
  · rw [heq, List.mem_singleton] at ha
    subst ha
    have hnegative := (severity_low_iff l threshold today).1 hcritical
    exact absurd hnegative (Decimal.not_lt_iff_le.2 (hle l hl.mem))
  · rw [heq, List.mem_singleton] at ha
    subst ha
    exact ⟨l, hn, rfl, rfl⟩
  · rw [heq, List.mem_pair] at ha
    rcases ha with rfl | rfl
    · -- the low day comes before all negative ones
      have hnegative := (severity_low_iff l threshold today).1 hcritical
      exact absurd (hn.earliest l hl.mem hnegative) (not_le_of_gt hdate)
    · exact ⟨n, hn, rfl, rfl⟩

theorem exists_critical (hdates : (curve.map BalancePoint.date).Pairwise (· < ·))
    (hthreshold : 0 ≤ threshold) (hp : FirstBelow curve 0 p) (today : Date) :
    ∃ a ∈ ofCurve curve threshold today, a.severity = .critical := by
  have hnone : ¬ ∀ q ∈ curve, 0 ≤ q.balance := fun hle =>
    Decimal.not_lt_iff_le.2 (hle p hp.mem) hp.below
  rcases ofCurve_cases hdates hthreshold today with
    ⟨-, hle⟩ | ⟨-, -, hle, -⟩ | ⟨l, -, hn, heq⟩ | ⟨l, n, -, -, -, heq⟩
  · exact absurd (fun q hq => le_trans hthreshold (hle q hq)) hnone
  · exact absurd hle hnone
  · exact ⟨low l threshold today, by simp [heq], (severity_low_iff l threshold today).2 hn.below⟩
  · exact ⟨negative n today, by simp [heq], rfl⟩

theorem exists_low (hdates : (curve.map BalancePoint.date).Pairwise (· < ·))
    (hthreshold : 0 ≤ threshold) (hp : FirstBelow curve threshold p) (today : Date) :
    ∃ a ∈ ofCurve curve threshold today, a.kind = .lowBalance := by
  rcases ofCurve_cases hdates hthreshold today with
    ⟨-, hle⟩ | ⟨l, -, -, heq⟩ | ⟨l, -, -, heq⟩ | ⟨l, n, -, -, -, heq⟩
  · exact absurd hp.below (Decimal.not_lt_iff_le.2 (hle p hp.mem))
  · exact ⟨low l threshold today, by simp [heq], rfl⟩
  · exact ⟨low l threshold today, by simp [heq], rfl⟩
  · exact ⟨low l threshold today, by simp [heq], rfl⟩

end Alert

/-! ## One story -/

/-- There is a first point with one of the marks exactly if one of the alerts counts, and every alert that
counts is about that point. -/
structure TellsFirst (curve : List BalancePoint) (threshold : Decimal) (marks : List DayStatus)
    (alerts : List Alert) (counts : Alert → Prop) : Prop where
  exists_iff : (∃ p, FirstMarked curve threshold marks p) ↔ ∃ a ∈ alerts, counts a
  about : ∀ p, FirstMarked curve threshold marks p → ∀ a ∈ alerts, counts a →
    a.date = p.date ∧ a.balance = p.balance

/-- It is enough that the marks stand for balances below a limit, and that the alerts are about the
earliest point below it. -/
theorem TellsFirst.of_firstBelow (hdates : (curve.map BalancePoint.date).Pairwise (· < ·))
    {alerts : List Alert} {counts : Alert → Prop}
    (hmarks : ∀ balance previous,
      DayStatus.ofBalance balance previous threshold ∈ marks ↔ balance < limit)
    (hexists : ∀ p, FirstBelow curve limit p → ∃ a ∈ alerts, counts a)
    (habout : ∀ a ∈ alerts, counts a →
      ∃ p, FirstBelow curve limit p ∧ a.date = p.date ∧ a.balance = p.balance) :
    TellsFirst curve threshold marks alerts counts := by
  have hfirst {p : BalancePoint} : FirstMarked curve threshold marks p ↔ FirstBelow curve limit p :=
    FirstMarked.iff_firstBelow hmarks hdates
  refine ⟨⟨?_, ?_⟩, ?_⟩
  · rintro ⟨p, hp⟩
    exact hexists p (hfirst.1 hp)
  · rintro ⟨a, ha, hcounts⟩
    obtain ⟨p, hp, -⟩ := habout a ha hcounts
    exact ⟨p, hfirst.2 hp⟩
  · intro p hp a ha hcounts
    obtain ⟨q, hq, hdate, hbalance⟩ := habout a ha hcounts
    rw [(hfirst.1 hp).unique hdates hq]
    exact ⟨hdate, hbalance⟩

namespace DayStatus

/-- **Statuses and alerts tell the same story.** On a curve whose dates ascend, with a threshold that is
not negative, every point has a status. The first negative one is what a critical alert is about, and the
first one that is negative or a warning is what the alert of a low balance is about; without such a point
there is no such alert. A point is positive exactly if it is not low and its balance has risen since the
point before it. -/
theorem tells_alerts (hdates : (curve.map BalancePoint.date).Pairwise (· < ·))
    (hthreshold : 0 ≤ threshold) (today : Date) :
    (ofCurve curve threshold).length = curve.length ∧
    TellsFirst curve threshold [negative] (Alert.ofCurve curve threshold today)
      (fun a => a.severity = .critical) ∧
    TellsFirst curve threshold [negative, warning] (Alert.ofCurve curve threshold today)
      (fun a => a.kind = .lowBalance) ∧
    ∀ i p, curve[i]? = some p → ((ofCurve curve threshold)[i]? = some positive ↔
      threshold ≤ p.balance ∧ ∃ j q, i = j + 1 ∧ curve[j]? = some q ∧ q.balance < p.balance) := by
  have hnegative : ∀ balance previous,
      ofBalance balance previous threshold ∈ [negative] ↔ balance < 0 := by
    intro balance previous
    rw [List.mem_singleton, ofBalance_eq_negative_iff]
  have hlow : ∀ balance previous,
      ofBalance balance previous threshold ∈ [negative, warning] ↔ balance < threshold :=
    fun _ _ => ofBalance_mem_low_iff hthreshold
  refine ⟨length_ofCurve curve threshold, .of_firstBelow hdates hnegative ?_ ?_,
    .of_firstBelow hdates hlow ?_ ?_, ?_⟩
  · intro p hp
    exact Alert.exists_critical hdates hthreshold hp today
  · intro a ha hcritical
    exact Alert.firstBelow_of_critical hdates hthreshold ha hcritical
  · intro p hp
    exact Alert.exists_low hdates hthreshold hp today
  · intro a ha hlow
    exact (((Alert.ordered_ofCurve hdates).isAbout a ha).of_low hlow).2
  · intro i p hp
    rw [getElem?_ofCurve, hp, Option.map_some, Option.some.injEq, ofBalance_eq_positive_iff hthreshold]
    refine and_congr_right fun _ => ?_
    cases i with
    | zero => simp [previous?]
    | succ i => simp [previous?]

/-- The day after the low one is positive, and the last two are negative. The alerts are about the first
day with a warning and about the first negative one. -/
theorem sample_dipStatuses :
    (Sample.dip.map BalancePoint.date).Pairwise (· < ·) ∧ (0 : Decimal) ≤ .whole 500 ∧
    ofCurve Sample.dip (.whole 500) = [neutral, warning, positive, negative, negative] ∧
    TellsFirst Sample.dip (.whole 500) [negative]
      (Alert.ofCurve Sample.dip (.whole 500) (Sample.date 2 29)) (fun a => a.severity = .critical) ∧
    TellsFirst Sample.dip (.whole 500) [negative, warning]
      (Alert.ofCurve Sample.dip (.whole 500) (Sample.date 2 29)) (fun a => a.kind = .lowBalance) := by
  have hdates : (Sample.dip.map BalancePoint.date).Pairwise (· < ·) := by decide +kernel
  have hthreshold : (0 : Decimal) ≤ .whole 500 := by decide
  obtain ⟨-, hcritical, hlow, -⟩ := tells_alerts hdates hthreshold (Sample.date 2 29)
  exact ⟨hdates, hthreshold, by decide +kernel, hcritical, hlow⟩

end DayStatus

end Forecast
