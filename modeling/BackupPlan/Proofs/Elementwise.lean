import Mathlib.Data.List.Forall2

/-!
# Lists, element by element

A function that has no value for some elements maps a list only if it has one for
every element.  Two lists correspond if they are related element by element.

* `mapM_eq_none_iff`, `mapM_eq_some_iff`, `mapM_eq_ok`, `exists_of_mem_mapM` — when a list
  has an image, and which;
* `mapM_filter` — the image of a part of a list;
* `forall₂_set`, `exists_getElem?_of_forall₂` — lists that correspond still do so when an
  element of each is replaced, and do so place by place;
* `filterMap_eq_of_forall₂` — what lists that correspond come to.
-/

namespace BackupPlan

variable {α β : Type}

/-- A list has no image exactly if one of its elements has none. -/
theorem mapM_eq_none_iff {f : α → Option β} {xs : List α} :
    xs.mapM f = none ↔ ∃ x ∈ xs, f x = none := by
  induction xs with
  | nil => simp
  | cons x rest ih =>
      cases hx : f x with
      | none => simp [hx]
      | some y =>
          simp only [List.mapM_cons, hx, List.mem_cons, exists_eq_or_imp, ← ih]
          cases rest.mapM f <;> simp

/-- A list has an image exactly if each of its elements has one. -/
theorem mapM_eq_some_iff {f : α → Option β} {xs : List α} {ys : List β} :
    xs.mapM f = some ys ↔ List.Forall₂ (fun x y => f x = some y) xs ys := by
  induction xs generalizing ys with
  | nil => cases ys <;> simp
  | cons x rest ih =>
      cases hx : f x with
      | none => cases ys <;> simp [hx]
      | some y => cases hrest : rest.mapM f <;> cases ys <;> simp [hx, hrest, ← ih]

/-- What is in the image of a list is the image of one of its elements. -/
theorem exists_of_mem_mapM {f : α → Option β} {xs : List α} {ys : List β} {y : β}
    (h : xs.mapM f = some ys) (hy : y ∈ ys) : ∃ x ∈ xs, f x = some y := by
  induction mapM_eq_some_iff.mp h with
  | nil => cases hy
  | @cons x _ xs _ hx hrest ih =>
      rcases List.mem_cons.mp hy with rfl | hy
      · exact ⟨x, List.mem_cons_self, hx⟩
      · obtain ⟨x', hmem, hx'⟩ := ih (mapM_eq_some_iff.mpr hrest) hy
        exact ⟨x', List.mem_cons_of_mem _ hmem, hx'⟩

/-- The image of a part of a list is put together from nothing or one element at
each place. -/
theorem mapM_filter {f : α → Option β} {p : α → Bool} {xs : List α} :
    (xs.filter p).mapM f =
      (xs.mapM fun x => if p x then (f x).map fun y => [y] else some []).map List.flatten := by
  induction xs with
  | nil => simp
  | cons x rest ih =>
      generalize hpieces :
        rest.mapM (fun x => if p x then (f x).map fun y => [y] else some []) = pieces at ih
      by_cases hp : p x = true
      · rw [List.filter_cons_of_pos hp, List.mapM_cons, ih, List.mapM_cons, if_pos hp, hpieces]
        cases f x <;> cases pieces <;> simp
      · rw [List.filter_cons_of_neg hp, ih, List.mapM_cons, if_neg hp, hpieces]
        cases pieces <;> simp

/-- What is left of a result without its error is the value it succeeded with. -/
theorem toOption_eq_some_iff {ε : Type} {r : Except ε α} {a : α} :
    r.toOption = some a ↔ r = .ok a := by
  cases r <;> simp [Except.toOption]

/-- Forgetting the error commutes with applying a function to the value. -/
theorem toOption_map {ε : Type} {f : α → β} (r : Except ε α) :
    (f <$> r).toOption = r.toOption.map f := by
  cases r <;> rfl

/-- Forgetting the error commutes with going on from the value. -/
theorem toOption_bind {ε : Type} {f : α → Except ε β} (r : Except ε α) :
    (r >>= f).toOption = r.toOption.bind fun a => (f a).toOption := by
  cases r <;> rfl

/-- A list has an image where each of its elements has one. -/
theorem mapM_eq_ok {ε : Type} {f : α → Except ε β} {xs : List α} {ys : List β}
    (h : List.Forall₂ (fun x y => f x = .ok y) xs ys) : xs.mapM f = .ok ys := by
  induction h with
  | nil => rfl
  | cons hx _ ih =>
      rw [List.mapM_cons, hx, ih]
      rfl

/-- Lists stay related where one element of each is replaced by related ones. -/
theorem forall₂_set {R : α → β → Prop} {xs : List α} {ys : List β} {x : α} {y : β}
    (h : List.Forall₂ R xs ys) (hxy : R x y) (i : Nat) :
    List.Forall₂ R (xs.set i x) (ys.set i y) := by
  induction h generalizing i with
  | nil => exact .nil
  | cons hhead htail ih =>
      cases i with
      | zero => exact .cons hxy htail
      | succ i => exact .cons hhead (ih i)

/-- Every element of a list is related to the one in its place. -/
theorem exists_getElem?_of_forall₂ {R : α → β → Prop} {xs : List α} {ys : List β}
    (h : List.Forall₂ R xs ys) {i : Nat} {x : α} (hx : xs[i]? = some x) :
    ∃ y, ys[i]? = some y ∧ R x y := by
  induction h generalizing i with
  | nil => simp at hx
  | cons hhead htail ih =>
      cases i with
      | zero =>
          cases hx
          exact ⟨_, rfl, hhead⟩
      | succ i => exact ih hx

/-- Related lists come to the same where related elements do. -/
theorem filterMap_eq_of_forall₂ {γ : Type} {R : α → β → Prop} {f : α → Option γ}
    {g : β → Option γ} {xs : List α} {ys : List β} (h : List.Forall₂ R xs ys)
    (hsame : ∀ x y, R x y → f x = g y) : xs.filterMap f = ys.filterMap g := by
  induction h with
  | nil => rfl
  | @cons x y xs ys hxy _ ih => rw [List.filterMap_cons, List.filterMap_cons, hsame x y hxy, ih]

end BackupPlan
