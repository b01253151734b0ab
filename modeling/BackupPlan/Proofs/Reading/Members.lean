import BackupPlan.Json.Basic
import Mathlib.Data.List.Perm.Basic

/-!
# Sorted members

A JSON value is read with the members of its objects in ascending order of names.
Where no name stands twice, sorting loses nothing and adds nothing: the members
are the same, in another order.

* `Json.sortedItems_eq_map` — the items of a list are sorted one by one;
* `Json.sortedMembers_perm` — sorting members of different names reorders them.
-/

namespace BackupPlan.Json

theorem sorted_text (s : String) : (text s).sorted = text s := rfl

/-- Sorting a list of items sorts each of them. -/
theorem sortedItems_eq_map (items : List Json) : sortedItems items = items.map sorted := by
  induction items with
  | nil => rfl
  | cons item rest ih => rw [sortedItems, ih, List.map_cons]

/-- A member of a new name is added to the others. -/
theorem putMember_perm {name : String} {value : Json} {members : List (String × Json)}
    (h : name ∉ members.map Prod.fst) :
    (putMember name value members).Perm ((name, value) :: members) := by
  induction members with
  | nil => exact .refl _
  | cons member rest ih =>
      obtain ⟨n, v⟩ := member
      rw [List.map_cons, List.mem_cons, not_or] at h
      obtain ⟨hne, hrest⟩ := h
      rw [putMember, if_neg hne]
      split
      · exact .refl _
      · exact ((ih hrest).cons (n, v)).trans (.swap _ _ _)

/-- **Sorting reorders.**  Members of different names stay the same members, with the
objects in their values sorted. -/
theorem sortedMembers_perm {members done : List (String × Json)}
    (h : (members.map Prod.fst ++ done.map Prod.fst).Nodup) :
    (sortedMembers members done).Perm
      (members.map (fun member => (member.1, member.2.sorted)) ++ done) := by
  induction members generalizing done with
  | nil => exact .refl _
  | cons member rest ih =>
      obtain ⟨name, value⟩ := member
      rw [List.map_cons, List.cons_append, List.nodup_cons, List.mem_append, not_or] at h
      obtain ⟨⟨hrest, hdone⟩, hnodup⟩ := h
      have hput : (putMember name value.sorted done).Perm ((name, value.sorted) :: done) :=
        putMember_perm hdone
      have hnames : (rest.map Prod.fst ++
          (putMember name value.sorted done).map Prod.fst).Nodup := by
        have hperm : (rest.map Prod.fst ++ (putMember name value.sorted done).map Prod.fst).Perm
            (name :: (rest.map Prod.fst ++ done.map Prod.fst)) :=
          ((hput.map Prod.fst).append_left _).trans List.perm_middle
        refine hperm.nodup_iff.mpr (List.nodup_cons.mpr ⟨?_, hnodup⟩)
        rw [List.mem_append, not_or]
        exact ⟨hrest, hdone⟩
      rw [sortedMembers]
      exact (ih hnames).trans ((hput.append_left _).trans List.perm_middle)

end BackupPlan.Json
