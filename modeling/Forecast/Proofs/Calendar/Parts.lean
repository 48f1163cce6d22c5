import Forecast.Proofs.Calendar.Days

/-!
# Parts of a window

A window is cut at a date into the part through that date and the part beyond it. Day by day the two
follow each other and make up the window (`days_eq_append`). Of any part the days are those of the
window that the part contains (`days_of_part`).
-/

namespace Forecast

namespace Date

variable {b c d : Date}

theorem dayNumber_next (h : b < c) : b.next.dayNumber = b.dayNumber + 1 := by
  have h1 : earliest.dayNumber ≤ b.dayNumber := b.earliest_le
  have h2 : c.dayNumber ≤ latest.dayNumber := c.le_latest
  have h3 := lt_iff.1 h
  exact Window.dayNumber_clamp (by omega)

/-- Where there are later dates, those from the next one on are the later ones. -/
theorem next_le_iff (h : b < c) : b.next ≤ d ↔ b < d := by
  rw [le_iff, dayNumber_next h, lt_iff]
  exact Int.add_one_le_iff

end Date

namespace Window

variable {w v : Window} {b d : Date}

/-- The window through a date, from the same first day. -/
def through (w : Window) (b : Date) (h : w.first ≤ b) : Window :=
  ⟨w.first, b, h⟩

/-- The window beyond a date, to the same last day. -/
def beyond (w : Window) (b : Date) (h : b < w.last) : Window :=
  ⟨b.next, w.last, (Date.next_le_iff h).2 h⟩

/-- Each date of the one window is a date of the other. -/
structure IsPart (v w : Window) : Prop where
  first_le : w.first ≤ v.first
  last_le : v.last ≤ w.last

theorem IsPart.contains (h : v.IsPart w) (hd : v.contains d = true) : w.contains d = true := by
  rw [contains_iff] at hd ⊢
  exact ⟨h.first_le.trans hd.1, hd.2.trans h.last_le⟩

theorem isPart_through (h : w.first ≤ b) (hb : b ≤ w.last) : (w.through b h).IsPart w :=
  ⟨le_refl _, hb⟩

theorem isPart_beyond (hb : w.first ≤ b) (h : b < w.last) : (w.beyond b h).IsPart w :=
  ⟨hb.trans (le_of_lt ((Date.next_le_iff h).1 (le_refl _))), le_refl _⟩

/-- Of a date of the window it only matters whether it is past the cut. -/
theorem contains_through_of_contains (h : w.first ≤ b) (hd : w.contains d = true) :
    (w.through b h).contains d = decide (d ≤ b) := by
  rw [Bool.eq_iff_iff, contains_iff, decide_eq_true_iff]
  exact and_iff_right (contains_iff.1 hd).1

theorem contains_beyond_of_contains (h : b < w.last) (hd : w.contains d = true) :
    (w.beyond b h).contains d = !decide (d ≤ b) := by
  rw [Bool.eq_iff_iff, contains_iff, Bool.not_eq_true', decide_eq_false_iff_not, not_le]
  exact (and_iff_left (contains_iff.1 hd).2).trans (Date.next_le_iff h)

/-- The days of a part are the days of the window that it contains. -/
theorem days_of_part (h : v.IsPart w) (hw : w.last < Date.latest) :
    v.days = w.days.filter v.contains := by
  refine (pairwise_days v).eq_of_mem_iff ((pairwise_days w).filter _) fun d => ?_
  rw [List.mem_filter, mem_days_iff_contains (lt_of_le_of_lt h.last_le hw), mem_days_iff_contains hw]
  exact ⟨fun hd => ⟨h.contains hd, hd⟩, fun hd => hd.2⟩

/-- The days through a date and the days beyond it are the days of the window, in order. -/
theorem days_eq_append (hb : w.first ≤ b) (h : b < w.last) (hw : w.last < Date.latest) :
    w.days = (w.through b hb).days ++ (w.beyond b h).days := by
  have hsorted : ((w.through b hb).days ++ (w.beyond b h).days).Pairwise (· < ·) := by
    refine List.pairwise_append.2 ⟨pairwise_days _, pairwise_days _, fun d hd e he => ?_⟩
    have hdb := (contains_iff.1 ((mem_days_iff_contains (w := w.through b hb) (h.trans hw)).1 hd)).2
    have heb := (contains_iff.1 ((mem_days_iff_contains (w := w.beyond b h) hw).1 he)).1
    exact lt_of_le_of_lt hdb ((Date.next_le_iff h).1 heb)
  refine (pairwise_days w).eq_of_mem_iff hsorted fun d => ?_
  rw [List.mem_append, days_of_part (isPart_through hb (le_of_lt h)) hw,
    days_of_part (isPart_beyond hb h) hw, List.mem_filter, List.mem_filter, ← and_or_left]
  refine iff_self_and.2 fun hd => ?_
  have hcontains := (mem_days_iff_contains hw).1 hd
  rw [contains_through_of_contains hb hcontains, contains_beyond_of_contains h hcontains]
  cases decide (d ≤ b) <;> simp

end Window

end Forecast
