import Forecast.Event.Basic
import Forecast.Proofs.Calendar.Days
import Forecast.Proofs.Decimal.ExactSum

/-!
# Totals of events

What a list of events moves: `total`, the sum of the signed amounts in units, and `size`, the sum of
the amounts without their signs at a scale, which bounds every partial sum. Neither hangs on the order
of the events. The events of some days, taken day by day, are the events that are dated on these days
(`perm_flatMap_days`), so that the totals of the days add up to the total of them all.
-/

namespace Forecast.Event

variable {s : Nat} {es es' : List Event} {ds : List Date}

/-- The sum of the signed amounts, in units. -/
def total (es : List Event) : Int :=
  (es.map fun e => e.signedAmount.units).sum

/-- The sum of the amounts without their signs, at a scale. -/
def size (s : Nat) (es : List Event) : Nat :=
  (es.map fun e => e.amount.magnitudeAt s).sum

@[simp] theorem scale_signedAmount (e : Event) : e.signedAmount.scale = e.amount.scale := by
  unfold signedAmount
  cases e.flow <;> rfl

@[simp] theorem magnitudeAt_signedAmount (s : Nat) (e : Event) :
    e.signedAmount.magnitudeAt s = e.amount.magnitudeAt s := by
  unfold signedAmount
  cases e.flow <;> rfl

/-! ## Order and parts -/

@[simp] theorem total_append (es es' : List Event) : total (es ++ es') = total es + total es' := by
  simp [total]

@[simp] theorem size_append (s : Nat) (es es' : List Event) :
    size s (es ++ es') = size s es + size s es' := by
  simp [size]

theorem total_perm (h : es.Perm es') : total es = total es' :=
  (h.map _).sum_eq

theorem size_perm (h : es.Perm es') : size s es = size s es' :=
  (h.map _).sum_eq

theorem size_sublist (h : es.Sublist es') : size s es ≤ size s es' :=
  (h.map _).sum_le_sum fun _ _ => Nat.zero_le _

/-- What passes a test and what does not make up the whole. -/
theorem total_filter_add_filter_not (p : Event → Bool) (es : List Event) :
    total (es.filter p) + total (es.filter fun e => !p e) = total es := by
  rw [← total_append, total_perm (List.filter_append_perm p es)]

/-- Together the events move no more than the sum of their amounts. -/
theorem natAbs_total_le (hs : s ≤ 28) (hscale : ∀ e ∈ es, e.amount.scale ≤ s) :
    (total es).natAbs ≤ size s es * tenPow (28 - s) := by
  induction es with
  | nil => exact Nat.zero_le _
  | cons e es ih =>
    obtain ⟨he, hes⟩ := List.forall_mem_cons.1 hscale
    have hfirst : e.signedAmount.units.natAbs = e.amount.magnitudeAt s * tenPow (28 - s) := by
      rw [Decimal.natAbs_units_eq_mul (by rwa [scale_signedAmount]) hs, magnitudeAt_signedAmount]
    have hrest := ih hes
    have hsum := Int.natAbs_add_le e.signedAmount.units (total es)
    show (e.signedAmount.units + total es).natAbs ≤ (e.amount.magnitudeAt s + size s es) * _
    rw [Nat.add_mul]
    omega

theorem total_flatMap (on : Date → List Event) (ds : List Date) :
    total (ds.flatMap on) = (ds.map fun d => total (on d)).sum := by
  induction ds with
  | nil => rfl
  | cons d ds ih => rw [List.flatMap_cons, total_append, ih, List.map_cons, List.sum_cons]

theorem size_flatMap (s : Nat) (on : Date → List Event) (ds : List Date) :
    size s (ds.flatMap on) = (ds.map fun d => size s (on d)).sum := by
  induction ds with
  | nil => rfl
  | cons d ds ih => rw [List.flatMap_cons, size_append, ih, List.map_cons, List.sum_cons]

/-! ## Days -/

/-- The events of a list of days, day by day, are those dated on one of the days. -/
theorem perm_flatMap_days (es : List Event) (h : ds.Nodup) :
    (ds.flatMap fun d => es.filter fun e => e.date == d).Perm
      (es.filter fun e => decide (e.date ∈ ds)) := by
  induction ds with
  | nil => simp
  | cons d ds ih =>
    have hd := List.nodup_cons.1 h
    have hfirst : (es.filter fun e => decide (e.date ∈ d :: ds)).filter (fun e => e.date == d) =
        es.filter fun e => e.date == d := by
      rw [List.filter_filter]
      refine List.filter_congr fun e _ => ?_
      by_cases he : e.date = d <;> simp [he]
    have hrest : (es.filter fun e => decide (e.date ∈ d :: ds)).filter (fun e => !(e.date == d)) =
        es.filter fun e => decide (e.date ∈ ds) := by
      rw [List.filter_filter]
      refine List.filter_congr fun e _ => ?_
      by_cases he : e.date = d
      · simp [he, hd.1]
      · simp [he]
    -- the events of the first day are split off from those of the others
    have hperm := List.filter_append_perm (fun e : Event => e.date == d)
      (es.filter fun e => decide (e.date ∈ d :: ds))
    rw [hfirst, hrest] at hperm
    rw [List.flatMap_cons]
    exact ((ih hd.2).append_left _).trans hperm

/-- The totals of days add up to the total of the events dated on them. -/
theorem sum_total_days (es : List Event) (h : ds.Nodup) :
    (ds.map fun d => total (es.filter fun e => e.date == d)).sum =
      total (es.filter fun e => decide (e.date ∈ ds)) := by
  rw [← total_flatMap, total_perm (perm_flatMap_days es h)]

theorem sum_size_days_le (s : Nat) (es : List Event) (h : ds.Nodup) :
    (ds.map fun d => size s (es.filter fun e => e.date == d)).sum ≤ size s es := by
  rw [← size_flatMap, size_perm (perm_flatMap_days es h)]
  exact size_sublist List.filter_sublist

/-! ## The change of a day -/

theorem scale_le_of_netChange {net : Decimal} (hscale : ∀ e ∈ es, e.amount.scale ≤ s)
    (h : netChange es = .ok net) : net.scale ≤ s := by
  refine Decimal.scale_le_of_sum ?_ h
  intro d hd
  obtain ⟨e, he, rfl⟩ := List.mem_map.1 hd
  rw [scale_signedAmount]
  exact hscale e he

theorem netChange_within (hs : s ≤ 28) (hscale : ∀ e ∈ es, e.amount.scale ≤ s)
    (hsize : size s es < Decimal.mantissaBound) :
    ∃ net, netChange es = .ok net ∧ Decimal.Within s (size s es) net ∧ net.units = total es := by
  have hmap : (es.map signedAmount).map (Decimal.magnitudeAt s) =
      es.map fun e => e.amount.magnitudeAt s := by
    rw [List.map_map]
    exact List.map_congr_left fun e _ => magnitudeAt_signedAmount s e
  have hscale' : ∀ d ∈ es.map signedAmount, d.scale ≤ s := by
    intro d hd
    obtain ⟨e, he, rfl⟩ := List.mem_map.1 hd
    rw [scale_signedAmount]
    exact hscale e he
  obtain ⟨net, hnet, hw, hu⟩ := Decimal.sum_within hs hscale' (by rw [hmap]; exact hsize)
  rw [hmap] at hw
  refine ⟨net, hnet, hw, ?_⟩
  rw [hu, List.map_map]
  rfl

end Forecast.Event
