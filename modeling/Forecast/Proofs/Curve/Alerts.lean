import Forecast.Curve.Alert
import Forecast.Proofs.Calendar.Days
import Forecast.Proofs.Decimal.Order

/-!
# What alerts tell

On a curve whose dates ascend the first point below a limit is the earliest one, and so an alert names
the earliest day of its kind (`FirstBelow`). Two scans make at most two alerts, and the shapes that the
list can have are few: `ofCurve_eq` for any threshold, and `ofCurve_cases` for one that is not
negative, under which a negative day is always a low one. What a reader of the alerts relies on is
read off the shapes: `ofCurve_exact`.
-/

namespace Forecast

/-- The point is the earliest one of the curve with a balance below the limit. -/
structure FirstBelow (curve : List BalancePoint) (limit : Decimal) (p : BalancePoint) : Prop where
  mem : p ∈ curve
  below : p.balance < limit
  earliest : ∀ q ∈ curve, q.balance < limit → p.date ≤ q.date

section Scan

variable {curve : List BalancePoint} {limit : Decimal} {p q : BalancePoint}

/-- In a curve whose dates ascend a date tells which point it is. -/
theorem eq_of_date_eq (hdates : (curve.map BalancePoint.date).Pairwise (· < ·)) (hp : p ∈ curve)
    (hq : q ∈ curve) (h : p.date = q.date) : p = q :=
  List.inj_on_of_nodup_map (hdates.imp ne_of_lt) hp hq h

theorem FirstBelow.unique (hdates : (curve.map BalancePoint.date).Pairwise (· < ·))
    (hp : FirstBelow curve limit p) (hq : FirstBelow curve limit q) : p = q :=
  eq_of_date_eq hdates hp.mem hq.mem
    (le_antisymm (hp.earliest q hq.mem hq.below) (hq.earliest p hp.mem hp.below))

/-- The first point that a scan meets is the earliest one. -/
theorem firstBelow_of_find? (hdates : (curve.map BalancePoint.date).Pairwise (· < ·))
    (h : (curve.find? fun p => p.balance < limit) = some p) : FirstBelow curve limit p := by
  obtain ⟨hbelow, before, after, rfl, hbefore⟩ := List.find?_eq_some_iff_append.1 h
  refine ⟨List.mem_append_right _ List.mem_cons_self, by simpa using hbelow, ?_⟩
  intro q hq hlimit
  rw [List.map_append, List.map_cons, List.pairwise_append, List.pairwise_cons] at hdates
  rcases List.mem_append.1 hq with hq | hq
  · -- a point before the one that was found is not below the limit
    have := hbefore q hq
    simp [hlimit] at this
  · rcases List.mem_cons.1 hq with rfl | hq
    · exact le_refl _
    · exact le_of_lt (hdates.2.1.1 _ (List.mem_map_of_mem hq))

theorem find?_eq_none_iff_le :
    (curve.find? fun p => p.balance < limit) = none ↔ ∀ p ∈ curve, limit ≤ p.balance := by
  simp only [List.find?_eq_none, decide_eq_true_eq, Decimal.not_lt_iff_le]

/-- Some point is below the limit exactly if there is an earliest one. -/
theorem exists_firstBelow_iff (hdates : (curve.map BalancePoint.date).Pairwise (· < ·)) :
    (∃ p, FirstBelow curve limit p) ↔ ∃ p ∈ curve, p.balance < limit := by
  constructor
  · rintro ⟨p, hp⟩
    exact ⟨p, hp.mem, hp.below⟩
  · rintro ⟨p, hp, hbelow⟩
    cases hf : curve.find? fun p => p.balance < limit with
    | none => exact absurd hbelow (Decimal.not_lt_iff_le.2 (find?_eq_none_iff_le.1 hf p hp))
    | some q => exact ⟨q, firstBelow_of_find? hdates hf⟩

end Scan

namespace Alert

variable {curve : List BalancePoint} {threshold : Decimal} {today : Date}

/-- The alerts in terms of the two points that the scans find. -/
theorem ofCurve_eq {lowest below : Option BalancePoint}
    (hlow : (curve.find? fun p => p.balance < threshold) = lowest)
    (hbelow : (curve.find? fun p => p.balance < 0) = below) (today : Date) :
    ofCurve curve threshold today =
      match lowest, below with
      | none, none => []
      | some l, none => [low l threshold today]
      | none, some n => [negative n today]
      | some l, some n =>
        if l.date = n.date then [low l threshold today]
        else if l.date < n.date then [low l threshold today, negative n today]
        else [negative n today, low l threshold today] := by
  unfold ofCurve
  rw [hlow, hbelow]
  cases lowest with
  | none => cases below <;> rfl
  | some l =>
    cases below with
    | none => rfl
    | some n =>
      by_cases heq : l.date = n.date
      · simp [low, negative, heq, insertSorted]
      · have hle : l.date ≤ n.date ↔ l.date < n.date := ⟨fun h => lt_of_le_of_ne h heq, le_of_lt⟩
        by_cases hlt : l.date < n.date <;> simp [low, negative, heq, hle, hlt, insertSorted]

/-- The shapes of the alerts for a threshold that is not negative. -/
theorem ofCurve_cases (hdates : (curve.map BalancePoint.date).Pairwise (· < ·))
    (hthreshold : 0 ≤ threshold) (today : Date) :
    (ofCurve curve threshold today = [] ∧ ∀ p ∈ curve, threshold ≤ p.balance) ∨
    (∃ l, FirstBelow curve threshold l ∧ (∀ p ∈ curve, 0 ≤ p.balance) ∧
      ofCurve curve threshold today = [low l threshold today]) ∨
    (∃ l, FirstBelow curve threshold l ∧ FirstBelow curve 0 l ∧
      ofCurve curve threshold today = [low l threshold today]) ∨
    ∃ l n, FirstBelow curve threshold l ∧ FirstBelow curve 0 n ∧ l.date < n.date ∧
      ofCurve curve threshold today = [low l threshold today, negative n today] := by
  cases hlow : curve.find? fun p => p.balance < threshold with
  | none =>
    have hle := find?_eq_none_iff_le.1 hlow
    have hnone : (curve.find? fun p => p.balance < 0) = none :=
      find?_eq_none_iff_le.2 fun p hp => le_trans hthreshold (hle p hp)
    exact Or.inl ⟨ofCurve_eq hlow hnone today, hle⟩
  | some l =>
    have hl := firstBelow_of_find? hdates hlow
    cases hbelow : curve.find? fun p => p.balance < 0 with
    | none =>
      exact Or.inr (Or.inl ⟨l, hl, find?_eq_none_iff_le.1 hbelow, ofCurve_eq hlow hbelow today⟩)
    | some n =>
      have hn := firstBelow_of_find? hdates hbelow
      -- what is negative is low, so that the low day comes first
      have hle := hl.earliest n hn.mem (lt_of_lt_of_le hn.below hthreshold)
      have heq := ofCurve_eq hlow hbelow today
      rcases eq_or_lt_of_le hle with hdate | hdate
      · obtain rfl := eq_of_date_eq hdates hl.mem hn.mem hdate
        exact Or.inr (Or.inr (Or.inl ⟨l, hl, hn, heq.trans (if_pos rfl)⟩))
      · refine Or.inr (Or.inr (Or.inr ⟨l, n, hl, hn, hdate, heq.trans ?_⟩))
        simp only [if_neg (ne_of_lt hdate), if_pos hdate]

/-! ## What holds for any threshold -/

/-- The alert is about the earliest day of its kind, and says how far that day is from today. -/
structure IsAbout (curve : List BalancePoint) (threshold : Decimal) (today : Date) (a : Alert) :
    Prop where
  daysUntil_eq : a.daysUntil = a.date.dayNumber - today.dayNumber
  of_low : a.kind = .lowBalance → a.threshold = some threshold ∧
    ∃ p, FirstBelow curve threshold p ∧ a.date = p.date ∧ a.balance = p.balance
  of_negative : a.kind = .overdraft → a.threshold = none ∧
    ∃ p, FirstBelow curve 0 p ∧ a.date = p.date ∧ a.balance = p.balance

/-- The alerts come by date, no two on one date and no two of one kind, and each is about the earliest
day of its kind. -/
structure Ordered (curve : List BalancePoint) (threshold : Decimal) (today : Date)
    (alerts : List Alert) : Prop where
  length_le : alerts.length ≤ 2
  pairwise_date : (alerts.map Alert.date).Pairwise (· < ·)
  nodup_kind : (alerts.map Alert.kind).Nodup
  isAbout : ∀ a ∈ alerts, a.IsAbout curve threshold today

theorem isAbout_low {l : BalancePoint} (hl : FirstBelow curve threshold l) (today : Date) :
    (low l threshold today).IsAbout curve threshold today :=
  ⟨rfl, fun _ => ⟨rfl, l, hl, rfl, rfl⟩, nofun⟩

theorem isAbout_negative {n : BalancePoint} (hn : FirstBelow curve 0 n) (threshold : Decimal)
    (today : Date) :
    (negative n today).IsAbout curve threshold today :=
  ⟨rfl, nofun, fun _ => ⟨rfl, n, hn, rfl, rfl⟩⟩

theorem ordered_ofCurve (hdates : (curve.map BalancePoint.date).Pairwise (· < ·)) :
    Ordered curve threshold today (ofCurve curve threshold today) := by
  cases hlow : curve.find? fun p => p.balance < threshold with
  | none =>
    cases hbelow : curve.find? fun p => p.balance < 0 with
    | none =>
      rw [ofCurve_eq hlow hbelow today]
      exact ⟨by simp, by simp, by simp, by simp⟩
    | some n =>
      have hn := firstBelow_of_find? hdates hbelow
      rw [ofCurve_eq hlow hbelow today]
      exact ⟨by simp, by simp, by simp, by simpa using isAbout_negative hn threshold today⟩
  | some l =>
    have hl := isAbout_low (firstBelow_of_find? hdates hlow) today
    cases hbelow : curve.find? fun p => p.balance < 0 with
    | none =>
      rw [ofCurve_eq hlow hbelow today]
      exact ⟨by simp, by simp, by simp, by simpa using hl⟩
    | some n =>
      have hn := isAbout_negative (firstBelow_of_find? hdates hbelow) threshold today
      rw [ofCurve_eq hlow hbelow today]
      rcases lt_trichotomy l.date n.date with hdate | hdate | hdate
      · simp only [if_neg (ne_of_lt hdate), if_pos hdate]
        exact ⟨by simp, List.pairwise_pair.2 hdate, by simp [low, negative], by simpa using ⟨hl, hn⟩⟩
      · simp only [if_pos hdate]
        exact ⟨by simp, by simp, by simp, by simpa using hl⟩
      · simp only [if_neg (ne_of_gt hdate), if_neg (not_lt_of_gt hdate)]
        exact ⟨by simp, List.pairwise_pair.2 hdate, by simp [low, negative], by simpa using ⟨hn, hl⟩⟩

/-! ## What holds for a threshold that is not negative -/

/-- The alerts tell of every risk: none means that all is well, a low day comes first, and of the
critical ones there is one exactly if some balance is negative. -/
structure Complete (curve : List BalancePoint) (threshold : Decimal) (alerts : List Alert) :
    Prop where
  eq_nil_iff : alerts = [] ↔ ∀ p ∈ curve, threshold ≤ p.balance
  head : ∀ a, alerts.head? = some a → a.kind = .lowBalance ∧ a.threshold = some threshold ∧
    ∃ p, FirstBelow curve threshold p ∧ a.date = p.date ∧ a.balance = p.balance
  exists_critical_iff : (∃ a ∈ alerts, a.severity = .critical) ↔ ∃ p ∈ curve, p.balance < 0
  critical : ∀ p, FirstBelow curve 0 p →
    ∃ a, (alerts.filter fun a => a.severity == .critical) = [a] ∧ a.date = p.date
  exists_overdraft_iff : (∃ a ∈ alerts, a.kind = .overdraft) ↔
    ∃ l n, FirstBelow curve threshold l ∧ FirstBelow curve 0 n ∧ n.date ≠ l.date

/-- A low day is critical exactly if its balance is negative. -/
theorem severity_low_iff (l : BalancePoint) (threshold : Decimal) (today : Date) :
    (low l threshold today).severity = .critical ↔ l.balance < 0 := by
  unfold low
  by_cases h : l.balance < 0 <;> simp [h]

theorem complete_nil (hthreshold : 0 ≤ threshold)
    (hle : ∀ p ∈ curve, threshold ≤ p.balance) : Complete curve threshold [] := by
  have hlow : ¬ ∃ l, FirstBelow curve threshold l := by
    rintro ⟨l, hl⟩
    exact Decimal.not_lt_iff_le.2 (hle l hl.mem) hl.below
  have hnegative : ∀ p ∈ curve, ¬ p.balance < 0 := fun p hp =>
    Decimal.not_lt_iff_le.2 (le_trans hthreshold (hle p hp))
  refine ⟨by simpa using hle, by simp, by simpa using hnegative, ?_, ?_⟩
  · intro p hp
    exact absurd hp.below (hnegative p hp.mem)
  · simp only [List.not_mem_nil, false_and, exists_false, false_iff]
    rintro ⟨l, -, hl, -, -⟩
    exact hlow ⟨l, hl⟩

/-- A low day is the only one that an alert is needed for, if it is the earliest negative one or no day
is negative. -/
theorem complete_low (hdates : (curve.map BalancePoint.date).Pairwise (· < ·)) {l : BalancePoint}
    (hl : FirstBelow curve threshold l)
    (hnegative : FirstBelow curve 0 l ∨ ∀ p ∈ curve, 0 ≤ p.balance) :
    Complete curve threshold [low l threshold today] := by
  have hfirst : ∀ p, FirstBelow curve 0 p → p = l := by
    intro p hp
    rcases hnegative with hn | hn
    · exact hp.unique hdates hn
    · exact absurd hp.below (Decimal.not_lt_iff_le.2 (hn p hp.mem))
  have hcritical : l.balance < 0 ↔ ∃ p ∈ curve, p.balance < 0 := by
    rw [← exists_firstBelow_iff hdates]
    constructor
    · exact fun h => (exists_firstBelow_iff hdates).2 ⟨l, hl.mem, h⟩
    · rintro ⟨p, hp⟩
      exact hfirst p hp ▸ hp.below
  refine ⟨?_, ?_, ?_, ?_, ?_⟩
  · simp only [List.cons_ne_nil, false_iff, not_forall, Decimal.not_lt_iff_le.symm, not_not]
    exact ⟨l, hl.mem, hl.below⟩
  · rintro a ⟨⟩
    exact ⟨rfl, rfl, l, hl, rfl, rfl⟩
  · simpa [severity_low_iff] using hcritical
  · intro p hp
    obtain rfl := hfirst p hp
    have hsevere := (severity_low_iff p threshold today).2 hp.below
    exact ⟨low p threshold today, by simp [hsevere], rfl⟩
  · simp only [List.mem_singleton, exists_eq_left]
    constructor
    · nofun
    · rintro ⟨l', n, hl', hn, hne⟩
      rw [hfirst n hn, hl'.unique hdates hl] at hne
      exact absurd rfl hne

theorem complete_pair (hdates : (curve.map BalancePoint.date).Pairwise (· < ·)) {l n : BalancePoint}
    (hl : FirstBelow curve threshold l) (hn : FirstBelow curve 0 n) (hdate : l.date < n.date) :
    Complete curve threshold [low l threshold today, negative n today] := by
  -- the low day comes before all negative ones
  have hsolvent : ¬ (low l threshold today).severity = .critical := fun h =>
    not_le_of_gt hdate (hn.earliest l hl.mem ((severity_low_iff l threshold today).1 h))
  have hsevere : (negative n today).severity = .critical := rfl
  refine ⟨?_, ?_, ?_, ?_, ?_⟩
  · simp only [List.cons_ne_nil, false_iff, not_forall, Decimal.not_lt_iff_le.symm, not_not]
    exact ⟨l, hl.mem, hl.below⟩
  · rintro a ⟨⟩
    exact ⟨rfl, rfl, l, hl, rfl, rfl⟩
  · exact iff_of_true ⟨negative n today, by simp, hsevere⟩ ⟨n, hn.mem, hn.below⟩
  · intro p hp
    rw [hp.unique hdates hn]
    exact ⟨negative n today, by simp [hsolvent, hsevere], rfl⟩
  · exact iff_of_true ⟨negative n today, by simp, rfl⟩ ⟨l, n, hl, hn, ne_of_gt hdate⟩

/-- **What alerts tell.** The alerts of a curve whose dates ascend come by date, one of a kind at the
most, and each is about the earliest day of its kind. If the threshold is not negative they also tell
of every risk: there is none exactly if every balance reaches the threshold, the first one is about the
earliest low day, a critical one is there exactly if some balance is negative, then once and on the
earliest negative day, and that day has an alert of its own exactly if it is not the low one. -/
theorem ofCurve_exact (hdates : (curve.map BalancePoint.date).Pairwise (· < ·))
    (threshold : Decimal) (today : Date) :
    Ordered curve threshold today (ofCurve curve threshold today) ∧
      (0 ≤ threshold → Complete curve threshold (ofCurve curve threshold today)) := by
  refine ⟨ordered_ofCurve hdates, ?_⟩
  intro hthreshold
  rcases ofCurve_cases hdates hthreshold today with
    ⟨heq, hle⟩ | ⟨l, hl, hle, heq⟩ | ⟨l, hl, hn, heq⟩ | ⟨l, n, hl, hn, hdate, heq⟩
  · exact heq ▸ complete_nil hthreshold hle
  · exact heq ▸ complete_low hdates hl (Or.inr hle)
  · exact heq ▸ complete_low hdates hl (Or.inl hn)
  · exact heq ▸ complete_pair hdates hl hn hdate

end Alert

namespace Sample

/-- A balance that falls below the threshold, recovers, and falls below zero. -/
def dip : List BalancePoint :=
  [(date 2 27, .whole 600), (date 2 28, .whole 200), (date 2 29, .whole 700),
    (date 3 1, -.whole 20), (date 3 2, -.whole 30)].map fun p =>
      { date := p.1, balance := p.2, confidence := 1, netChange := 0, eventCount := 0 }

end Sample

namespace Alert

/-- Both alerts are given, the low day's although the balance has recovered, and the first of them is
about a day that has passed. -/
theorem sample_dip :
    (Sample.dip.map BalancePoint.date).Pairwise (· < ·) ∧ (0 : Decimal) ≤ .whole 500 ∧
    (ofCurve Sample.dip (.whole 500) (Sample.date 2 29)).map
        (fun a => (a.kind, a.date, a.severity, a.daysUntil)) =
      [(.lowBalance, Sample.date 2 28, .warning, -1),
        (.overdraft, Sample.date 3 1, .critical, 1)] ∧
    Ordered Sample.dip (.whole 500) (Sample.date 2 29)
      (ofCurve Sample.dip (.whole 500) (Sample.date 2 29)) ∧
    Complete Sample.dip (.whole 500) (ofCurve Sample.dip (.whole 500) (Sample.date 2 29)) := by
  have hdates : (Sample.dip.map BalancePoint.date).Pairwise (· < ·) := by decide +kernel
  have hthreshold : (0 : Decimal) ≤ .whole 500 := by decide
  obtain ⟨hordered, hcomplete⟩ := ofCurve_exact hdates (.whole 500) (Sample.date 2 29)
  exact ⟨hdates, hthreshold, by decide +kernel, hordered, hcomplete hthreshold⟩

end Alert

end Forecast
