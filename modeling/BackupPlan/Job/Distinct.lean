/-!
# First occurrences

`distinctBy key` keeps of every list the elements whose key no earlier element
has, in their order.

* `sublist_distinctBy` — the kept elements stand in the list, in its order;
* `pairwise_distinctBy` — no two of them have one key;
* `exists_mem_distinctBy` — every element of the list has the key of a kept one.
-/

namespace BackupPlan

variable {α β : Type} [DecidableEq β]

/-- The elements whose key no earlier element has. -/
def distinctBy (key : α → β) : List α → List α
  | [] => []
  | x :: rest => x :: (distinctBy key rest).filter (key · ≠ key x)

theorem sublist_distinctBy (key : α → β) (xs : List α) :
    List.Sublist (distinctBy key xs) xs := by
  induction xs with
  | nil => exact .slnil
  | cons x rest ih => exact (List.filter_sublist.trans ih).cons_cons x

theorem pairwise_distinctBy (key : α → β) (xs : List α) :
    (distinctBy key xs).Pairwise (key · ≠ key ·) := by
  induction xs with
  | nil => exact .nil
  | cons x rest ih =>
    refine .cons (fun y hy => ?_) (ih.sublist List.filter_sublist)
    exact fun h => of_decide_eq_true (List.mem_filter.mp hy).2 h.symm

theorem exists_mem_distinctBy (key : α → β) {xs : List α} {x : α} (h : x ∈ xs) :
    ∃ y ∈ distinctBy key xs, key y = key x := by
  induction xs with
  | nil => cases h
  | cons z rest ih =>
    rcases List.mem_cons.mp h with rfl | h
    · exact ⟨x, by simp [distinctBy], rfl⟩
    · obtain ⟨y, hy, hk⟩ := ih h
      by_cases hz : key y = key z
      · exact ⟨z, by simp [distinctBy], hz ▸ hk⟩
      · exact ⟨y, by simp [distinctBy, hy, hz], hk⟩

end BackupPlan
