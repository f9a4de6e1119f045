/-
# Sorting by a comparison

A list is ascending when no element is above one that follows it. Sorting gives the same
elements in ascending order, and leaves those that compare equal in the order in which they
were (`filter_sortBy`). Where elements that compare equal are equal, an ascending list is
known from its elements, and the ascending list of some of them is a part of it.
-/
import Coverage.SortedSet
import Mathlib.Data.List.Sort

namespace Coverage

variable {α : Type} {cmp : α → α → Ordering}

/-- No element is above one that follows it. -/
def IsAscending (cmp : α → α → Ordering) (l : List α) : Prop :=
  l.Pairwise fun a b => cmp a b ≠ .gt

theorem sortBy_perm (cmp : α → α → Ordering) (l : List α) : (sortBy cmp l).Perm l :=
  List.mergeSort_perm l _

section Sorted

variable [Std.TransCmp cmp] {l k : List α} {a b c : α}

theorem ne_gt_trans (hab : cmp a b ≠ .gt) (hbc : cmp b c ≠ .gt) : cmp a c ≠ .gt := by
  have hle (o : Ordering) : o ≠ .gt ↔ o.isLE = true := Ordering.ne_gt_iff_isLE
  rw [hle] at hab hbc ⊢
  exact Std.TransCmp.isLE_trans hab hbc

theorem ne_gt_total (a b : α) : cmp a b ≠ .gt ∨ cmp b a ≠ .gt := by
  rw [or_iff_not_imp_left, not_not, Std.OrientedCmp.gt_iff_lt]
  intro h
  rw [h]
  exact Ordering.noConfusion

theorem eq_of_ne_gt (hab : cmp a b ≠ .gt) (hba : cmp b a ≠ .gt) : cmp a b = .eq := by
  cases h : cmp a b with
  | lt => exact absurd (Std.OrientedCmp.gt_of_lt h) hba
  | eq => rfl
  | gt => exact absurd h hab

private theorem not_above_trans (a b c : α) (hab : (cmp a b != .gt) = true)
    (hbc : (cmp b c != .gt) = true) : (cmp a c != .gt) = true :=
  bne_iff_ne.2 (ne_gt_trans (bne_iff_ne.1 hab) (bne_iff_ne.1 hbc))

private theorem not_above_total (a b : α) : (cmp a b != .gt || cmp b a != .gt) = true := by
  rw [Bool.or_eq_true, bne_iff_ne, bne_iff_ne]
  exact ne_gt_total a b

theorem isAscending_sortBy (l : List α) : IsAscending cmp (sortBy cmp l) :=
  (List.pairwise_mergeSort not_above_trans not_above_total l).imp fun h => bne_iff_ne.1 h

/-- Elements that compare equal to each other stay in the order in which they were. -/
theorem filter_sortBy (l : List α) {p : α → Bool}
    (h : ∀ a b, p a = true → p b = true → cmp a b = .eq) :
    (sortBy cmp l).filter p = l.filter p := by
  have hequal : (l.filter p).Pairwise fun a b => (cmp a b != .gt) = true := by
    refine List.pairwise_of_forall_mem_list fun a ha b hb => ?_
    rw [h a b (List.mem_filter.1 ha).2 (List.mem_filter.1 hb).2]
    rfl
  have hpart : (l.filter p).Sublist (sortBy cmp l) :=
    List.sublist_mergeSort not_above_trans not_above_total hequal List.filter_sublist
  have hall : (l.filter p).Sublist ((sortBy cmp l).filter p) := by
    have hfiltered := hpart.filter p
    rwa [List.filter_filter, List.filter_congr fun a _ => Bool.and_self (p a)] at hfiltered
  exact (hall.eq_of_length ((sortBy_perm cmp l).filter p).length_eq.symm).symm

/-- An ascending list is known from its elements. -/
theorem IsAscending.eq_of_perm (hl : IsAscending cmp l) (hk : IsAscending cmp k)
    (hperm : l.Perm k) (h : ∀ a ∈ l, ∀ b ∈ l, cmp a b = .eq → a = b) : l = k := by
  refine List.Perm.eq_of_pairwise (fun a b ha hb hab hba => ?_) hl hk hperm
  exact h a ha b (hperm.mem_iff.2 hb) (eq_of_ne_gt hab hba)

/-- The ascending list of some elements is a part of the list of all. -/
theorem IsAscending.sublist_of_subperm (hl : IsAscending cmp l) (hk : IsAscending cmp k)
    (hsome : l.Subperm k) (h : ∀ a ∈ k, ∀ b ∈ k, cmp a b = .eq → a = b) : l.Sublist k := by
  obtain ⟨part, hperm, hpart⟩ := hsome
  have heq : part = l := by
    apply IsAscending.eq_of_perm (List.Pairwise.sublist hpart hk) hl hperm
    exact fun a ha b hb => h a (hpart.subset ha) b (hpart.subset hb)
  rwa [heq] at hpart

end Sorted

end Coverage
