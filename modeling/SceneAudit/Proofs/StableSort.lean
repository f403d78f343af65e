/-!
# Stable sorting

Findings, reports and expectations are put in order by comparisons that look at a part of them only,
so that different items may tie. Sorting keeps items that tie in their given order. What a sorted
list looks like is therefore decided by its classes of ties: two lists are the same when sorted if
the items of each class stand in the same order in both of them, wherever else these items are.

## Main definitions

* `StableSort.ties`: two items of which neither comes before the other.

## Main results

* `StableSort.filter_mergeSort`: sorting does not touch items that are in order already.
* `StableSort.eq_of_filter_ties_eq`: a sorted list is determined by its classes of ties.
* `StableSort.mergeSort_filter`: items may be left out before or after sorting.
* `StableSort.mergeSort_eq_mergeSort_iff`: which lists are the same when sorted.
* `StableSort.mergeSort_eq_mergeSort_of_perm`: without ties between different items, the order
  before sorting is of no consequence.
-/

namespace SceneAudit.StableSort

variable {α : Type} {le : α → α → Bool} {left right items : List α} {a b : α}

/-- Whether neither of two items comes before the other one. -/
def ties (le : α → α → Bool) (a b : α) : Bool :=
  le a b && le b a

theorem ties_iff : ties le a b = true ↔ le a b = true ∧ le b a = true :=
  Bool.and_eq_true_iff

/-- A sorted list is determined by its classes of ties. -/
theorem eq_of_filter_ties_eq (total : ∀ a b, (le a b || le b a) = true)
    (ordered : left.Pairwise fun a b => le a b = true)
    (ordered' : right.Pairwise fun a b => le a b = true)
    (same : ∀ a, left.filter (ties le a) = right.filter (ties le a)) : left = right := by
  have self (a : α) : ties le a a = true := by
    rw [ties, Bool.and_self]
    simpa only [Bool.or_self] using total a a
  -- An item of one list ties with itself, so that it is in the other list too.
  have listed {front back : List α} {a : α}
      (eq : front.filter (ties le a) = back.filter (ties le a)) (mem : a ∈ front) : a ∈ back :=
    (List.mem_filter.1 (eq ▸ List.mem_filter.2 ⟨mem, self a⟩)).1
  induction left generalizing right with
  | nil =>
    refine (List.eq_nil_iff_forall_not_mem.2 fun a mem => ?_).symm
    exact List.not_mem_nil (listed (same a).symm mem)
  | cons a left ih =>
    obtain ⟨below, later⟩ := List.pairwise_cons.1 ordered
    cases right with
    | nil => exact absurd (listed (same a) List.mem_cons_self) List.not_mem_nil
    | cons b right =>
      obtain ⟨below', later'⟩ := List.pairwise_cons.1 ordered'
      have first : le a b = true := by
        rcases List.mem_cons.1 (listed (same b).symm List.mem_cons_self) with rfl | mem
        · exact (ties_iff.1 (self b)).1
        · exact below b mem
      have first' : le b a = true := by
        rcases List.mem_cons.1 (listed (same a) List.mem_cons_self) with rfl | mem
        · exact (ties_iff.1 (self a)).1
        · exact below' a mem
      -- The two first items tie, so they are the first ones of one and the same class.
      obtain rfl : a = b := by
        have heads := same a
        rw [List.filter_cons_of_pos (self a), List.filter_cons_of_pos (ties_iff.2 ⟨first, first'⟩),
          List.cons.injEq] at heads
        exact heads.1
      refine congrArg (a :: ·) (ih later later' fun c => ?_)
      have tails := same c
      by_cases tie : ties le c a = true
      · rw [List.filter_cons_of_pos tie, List.filter_cons_of_pos tie, List.cons.injEq] at tails
        exact tails.2
      · rwa [List.filter_cons_of_neg tie, List.filter_cons_of_neg tie] at tails

section Sorting

variable (trans : ∀ a b c, le a b = true → le b c = true → le a c = true)
  (total : ∀ a b, (le a b || le b a) = true)

include trans total

/-- Sorting does not touch the items of some sort if they are in order already. -/
theorem filter_mergeSort {p : α → Bool}
    (ordered : (items.filter p).Pairwise fun a b => le a b = true) :
    (items.mergeSort le).filter p = items.filter p := by
  have kept : (items.filter p).Sublist (items.mergeSort le) :=
    List.sublist_mergeSort trans total ordered List.filter_sublist
  have inside : (items.filter p).Sublist ((items.mergeSort le).filter p) := by
    have filtered := kept.filter p
    simpa only [List.filter_filter, Bool.and_self] using filtered
  refine (inside.eq_of_length ?_).symm
  exact ((List.mergeSort_perm items le).filter p).length_eq.symm

/-- **Sorting is stable.** Items that tie stay in their given order. -/
theorem filter_ties_mergeSort (a : α) :
    (items.mergeSort le).filter (ties le a) = items.filter (ties le a) := by
  refine filter_mergeSort trans total (List.pairwise_of_forall_mem_list fun b mem c mem' => ?_)
  have before := (ties_iff.1 (List.mem_filter.1 mem).2).2
  have after := (ties_iff.1 (List.mem_filter.1 mem').2).1
  exact trans b a c before after

/-- Sorting what is left of a list is what is left of the sorted list. -/
theorem mergeSort_filter (p : α → Bool) (items : List α) :
    (items.filter p).mergeSort le = (items.mergeSort le).filter p := by
  have swap (a : α) (list : List α) :
      (list.filter p).filter (ties le a) = (list.filter (ties le a)).filter p := by
    simp only [List.filter_filter, Bool.and_comm]
  refine eq_of_filter_ties_eq total (List.pairwise_mergeSort trans total _)
    ((List.pairwise_mergeSort trans total items).filter p) fun a => ?_
  rw [filter_ties_mergeSort trans total, swap, swap, filter_ties_mergeSort trans total]

/-- Two lists are the same when sorted if the items of each class of ties stand in the same order in
both. -/
theorem mergeSort_eq_mergeSort_iff :
    left.mergeSort le = right.mergeSort le ↔
      ∀ a, left.filter (ties le a) = right.filter (ties le a) := by
  constructor
  · intro sorted a
    rw [← filter_ties_mergeSort trans total, sorted, filter_ties_mergeSort trans total]
  · intro same
    refine eq_of_filter_ties_eq total (List.pairwise_mergeSort trans total left)
      (List.pairwise_mergeSort trans total right) fun a => ?_
    rw [filter_ties_mergeSort trans total, filter_ties_mergeSort trans total, same a]

/-- If different items do not tie, the order before sorting is of no consequence. -/
theorem mergeSort_eq_mergeSort_of_perm (perm : left.Perm right)
    (discerned : ∀ a ∈ left, ∀ b ∈ left, ties le a b = true → a = b) :
    left.mergeSort le = right.mergeSort le := by
  refine List.Perm.eq_of_pairwise (fun a b mem mem' before after => ?_)
    (List.pairwise_mergeSort trans total left) (List.pairwise_mergeSort trans total right)
    (((List.mergeSort_perm left le).trans perm).trans (List.mergeSort_perm right le).symm)
  exact discerned a (List.mem_mergeSort.1 mem) b
    (perm.mem_iff.2 (List.mem_mergeSort.1 mem')) (ties_iff.2 ⟨before, after⟩)

end Sorting

end SceneAudit.StableSort
