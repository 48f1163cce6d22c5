/-!
# Stable sorting

Events, alerts and identifiers are shown in order, and those that compare equal stay as they came.
An element is put in front of the first element it does not come after, from the last element of
the list to the first.

## Main statements

* `perm_stableSort`, `pairwise_stableSort`: the result is a sorted permutation.
* `stableSort_of_pairwise`: what is sorted stays as it is.
* `filter_stableSort`: sorting commutes with leaving elements out, which says that the order among
  the others does not hang on them.
-/

namespace Forecast

variable {α : Type}

/-- Puts an element in front of the first element that it is not after. -/
def insertSorted (le : α → α → Bool) (a : α) : List α → List α
  | [] => [a]
  | b :: bs => if le a b then a :: b :: bs else b :: insertSorted le a bs

/-- Sorts a list, keeping the order of elements that compare equal. -/
def stableSort (le : α → α → Bool) (as : List α) : List α :=
  as.foldr (insertSorted le) []

@[simp] theorem stableSort_nil (le : α → α → Bool) : stableSort le [] = [] := rfl

@[simp] theorem stableSort_cons (le : α → α → Bool) (a : α) (as : List α) :
    stableSort le (a :: as) = insertSorted le a (stableSort le as) := rfl

theorem perm_insertSorted (le : α → α → Bool) (a : α) (bs : List α) :
    (insertSorted le a bs).Perm (a :: bs) := by
  induction bs with
  | nil => exact List.Perm.refl _
  | cons b bs ih =>
    simp only [insertSorted]
    split
    · exact List.Perm.refl _
    · exact (ih.cons b).trans (List.Perm.swap a b bs)

theorem perm_stableSort (le : α → α → Bool) (as : List α) : (stableSort le as).Perm as := by
  induction as with
  | nil => exact List.Perm.refl _
  | cons a as ih =>
    rw [stableSort_cons]
    exact (perm_insertSorted le a _).trans (ih.cons a)

theorem insertSorted_of_forall {le : α → α → Bool} {a : α} {bs : List α}
    (h : ∀ b ∈ bs, le a b = true) : insertSorted le a bs = a :: bs := by
  cases bs with
  | nil => rfl
  | cons b bs => rw [insertSorted, if_pos (h b List.mem_cons_self)]

/-- Sorting leaves what is sorted as it is. -/
theorem stableSort_of_pairwise {le : α → α → Bool} {as : List α}
    (h : as.Pairwise fun a b => le a b = true) : stableSort le as = as := by
  induction as with
  | nil => rfl
  | cons a as ih =>
    have ha := List.pairwise_cons.1 h
    rw [stableSort_cons, ih ha.2, insertSorted_of_forall ha.1]

section Sorted

variable {le : α → α → Bool} (total : ∀ a b, le a b = true ∨ le b a = true)
  (trans : ∀ a b c, le a b = true → le b c = true → le a c = true)

include total trans

theorem pairwise_insertSorted (a : α) {bs : List α} (h : bs.Pairwise fun x y => le x y = true) :
    (insertSorted le a bs).Pairwise fun x y => le x y = true := by
  induction bs with
  | nil => simp [insertSorted]
  | cons b bs ih =>
    have hb := List.pairwise_cons.1 h
    simp only [insertSorted]
    split
    · rename_i hab
      refine List.pairwise_cons.2 ⟨?_, h⟩
      intro c hc
      rcases List.mem_cons.1 hc with rfl | hc
      · exact hab
      · exact trans _ _ _ hab (hb.1 c hc)
    · rename_i hab
      refine List.pairwise_cons.2 ⟨?_, ih hb.2⟩
      intro c hc
      rcases List.mem_cons.1 ((perm_insertSorted le a bs).mem_iff.1 hc) with rfl | hc
      · exact (total c b).resolve_left hab
      · exact hb.1 c hc

theorem pairwise_stableSort (as : List α) :
    (stableSort le as).Pairwise fun x y => le x y = true := by
  induction as with
  | nil => exact List.Pairwise.nil
  | cons a as ih => exact pairwise_insertSorted total trans a ih

omit total in
theorem filter_insertSorted (p : α → Bool) (a : α) {bs : List α}
    (h : bs.Pairwise fun x y => le x y = true) :
    (insertSorted le a bs).filter p =
      if p a then insertSorted le a (bs.filter p) else bs.filter p := by
  induction bs with
  | nil => by_cases hp : p a <;> simp [insertSorted, hp]
  | cons b bs ih =>
    have hb := List.pairwise_cons.1 h
    have first : le a b = true → insertSorted le a (bs.filter p) = a :: bs.filter p := by
      intro hab
      cases hf : bs.filter p with
      | nil => rfl
      | cons c cs =>
        have hc : c ∈ bs := (List.mem_filter.1 (hf ▸ List.mem_cons_self)).1
        simp [insertSorted, trans _ _ _ hab (hb.1 c hc)]
    simp only [insertSorted]
    by_cases hab : le a b = true
    · by_cases hpa : p a <;> by_cases hpb : p b <;>
        simp [hab, hpa, hpb, insertSorted, first]
    · by_cases hpb : p b
      · by_cases hpa : p a <;> simp [hab, hpa, hpb, insertSorted, ih hb.2]
      · by_cases hpa : p a <;> simp [hab, hpa, hpb, ih hb.2]

/-- Sorting what passes a test is leaving out what does not from the sorted list. -/
theorem filter_stableSort (p : α → Bool) (as : List α) :
    (stableSort le as).filter p = stableSort le (as.filter p) := by
  induction as with
  | nil => rfl
  | cons a as ih =>
    rw [stableSort_cons, filter_insertSorted trans p a (pairwise_stableSort total trans as), ih]
    by_cases hp : p a <;> simp [hp]

end Sorted

end Forecast
