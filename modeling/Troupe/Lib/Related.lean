import Mathlib.Data.List.Forall2

/-! # Lists related item by item -/

namespace Troupe.Lib

variable {α β : Type} {r : α → β → Prop}

/-- A partial function that answers on every item relates a list to its answers. -/
theorem forall₂_filterMap {f : α → Option β} {xs : List α}
    (h : ∀ x ∈ xs, ∃ y, f x = some y ∧ r x y) : List.Forall₂ r xs (xs.filterMap f) := by
  induction xs with
  | nil => exact .nil
  | cons x xs ih =>
    obtain ⟨y, hy, hr⟩ := h x List.mem_cons_self
    rw [List.filterMap_cons_some hy]
    exact .cons hr (ih fun x' hx' => h x' (List.mem_cons_of_mem _ hx'))

/-- Every item on the right is related to one on the left. -/
theorem forall₂_exists_left {xs : List α} {ys : List β} (h : List.Forall₂ r xs ys) {y : β}
    (hy : y ∈ ys) : ∃ x ∈ xs, r x y := by
  induction h with
  | nil => cases hy
  | @cons x z xs ys hfirst _ ih =>
    rcases List.mem_cons.mp hy with rfl | hy
    · exact ⟨x, List.mem_cons_self, hfirst⟩
    · obtain ⟨found, hfound, hr⟩ := ih hy
      exact ⟨found, List.mem_cons_of_mem _ hfound, hr⟩

end Troupe.Lib
