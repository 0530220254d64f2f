import Mathlib.Data.List.Forall2
import Mathlib.Tactic.Common

/-!
# Changing one member of a list

Everything in a tree is known by position, so most changes touch one member of a list. What such a
change does to a view of the members, and when two changes are the same, is said here once.
-/

namespace ScenarioResults

variable {α β : Type}

/-- A view of the members in which the change `f` shows as the change `g`. -/
theorem map_modify {view : α → β} {f : α → α} {g : β → β} (h : ∀ x, view (f x) = g (view x))
    (xs : List α) (i : ℕ) : (xs.modify i f).map view = (xs.map view).modify i g := by
  apply List.ext_getElem?
  intro j
  rw [List.getElem?_map, List.getElem?_modify, List.getElem?_modify, List.getElem?_map]
  cases xs[j]? with
  | none => rfl
  | some x => by_cases hij : i = j <;> simp [hij, h]

/-- A view of the members in which the change does not show. -/
theorem map_modify_eq_self {view : α → β} {f : α → α} (h : ∀ x, view (f x) = view x) (xs : List α)
    (i : ℕ) : (xs.modify i f).map view = xs.map view := by
  have hid : ∀ x, view (f x) = id (view x) := h
  rw [map_modify hid, List.modify_id]

/-- Changes that agree on the member at the position. -/
theorem modify_congr {xs : List α} {i : ℕ} {f g : α → α} (h : ∀ x, xs[i]? = some x → f x = g x) :
    xs.modify i f = xs.modify i g := by
  apply List.ext_getElem?
  intro j
  rw [List.getElem?_modify, List.getElem?_modify]
  by_cases hij : i = j
  · subst hij
    cases hx : xs[i]? with
    | none => rfl
    | some x => simp [h x hx]
  · simp [hij]

/-- A change behind the first list. -/
theorem modify_append_right (xs ys : List α) (i : ℕ) (f : α → α) :
    (xs ++ ys).modify (xs.length + i) f = xs ++ ys.modify i f := by
  induction xs with
  | nil => simp
  | cons x xs ih => simpa [Nat.add_right_comm] using ih

/-- A change of the last member. -/
theorem modify_concat (xs : List α) (x : α) (f : α → α) :
    (xs ++ [x]).modify xs.length f = xs ++ [f x] :=
  modify_append_right xs [x] 0 f

/-- A member that shows more after a change shows it after all members, but for the order. -/
theorem perm_flatMap_modify {view : α → List β} {f : α → α} {extra : List β} {xs : List α} {i : ℕ}
    {x : α} (hx : xs[i]? = some x) (h : (view (f x)).Perm (view x ++ extra)) :
    ((xs.modify i f).flatMap view).Perm (xs.flatMap view ++ extra) := by
  induction xs generalizing i with
  | nil => simp at hx
  | cons y ys ih =>
      cases i with
      | zero =>
          obtain rfl : y = x := by simpa using hx
          simp only [List.modify_zero_cons, List.flatMap_cons, List.append_assoc]
          exact (h.append_right _).trans (by
            rw [List.append_assoc]
            exact List.perm_append_comm.append_left _)
      | succ i =>
          simp only [List.modify_succ_cons, List.flatMap_cons, List.append_assoc]
          exact (ih (by simpa using hx)).append_left _

/-- A change under which each member stays related to itself. -/
theorem forall₂_modify {R : α → α → Prop} {f : α → α} (hrefl : ∀ x, R x x) (h : ∀ x, R x (f x))
    (xs : List α) (i : ℕ) : List.Forall₂ R xs (xs.modify i f) := by
  induction xs generalizing i with
  | nil => simp
  | cons x xs ih =>
      cases i with
      | zero => exact .cons (h x) (List.forall₂_same.mpr fun y _ => hrefl y)
      | succ i => exact .cons (hrefl x) (ih i)

/-- Each member of the second list stands for one of the first. -/
theorem exists_mem_of_forall₂ {R : α → β → Prop} {xs : List α} {ys : List β}
    (h : List.Forall₂ R xs ys) {y : β} (hy : y ∈ ys) : ∃ x ∈ xs, R x y := by
  induction h with
  | nil => cases hy
  | cons hxy _ ih =>
      rcases List.mem_cons.mp hy with rfl | hy
      · exact ⟨_, List.mem_cons_self, hxy⟩
      · obtain ⟨x, hx, hR⟩ := ih hy
        exact ⟨x, List.mem_cons_of_mem _ hx, hR⟩

end ScenarioResults
