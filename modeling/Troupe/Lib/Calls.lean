import Mathlib.Algebra.Order.Group.Multiset
import Mathlib.Algebra.BigOperators.Group.List.Basic
import Mathlib.Tactic.Abel

/-! # Lists of calls

The calls on a shared component are a list; a step of one call replaces one element
`before ++ a :: after` by `before ++ b :: after`. What a list of calls says changes by what the one
element says. -/

namespace Troupe.Lib

variable {α β : Type} {before after : List α} {a b : α}

/-- What holds of every call and of the replacement still holds of every call. -/
theorem forall_replace {p : α → Prop} (h : ∀ x ∈ before ++ a :: after, p x) (hb : p b) :
    ∀ x ∈ before ++ b :: after, p x := by
  intro x hx
  rcases List.mem_append.mp hx with hx | hx
  · exact h x (List.mem_append_left _ hx)
  · rcases List.mem_cons.mp hx with rfl | hx
    · exact hb
    · exact h x (List.mem_append_right _ (List.mem_cons_of_mem _ hx))

/-- A call of the new list is the replacement or one of the old. -/
theorem mem_replace {x : α} (h : x ∈ before ++ b :: after) : x = b ∨ x ∈ before ++ a :: after := by
  simp only [List.mem_append, List.mem_cons] at h ⊢
  tauto

theorem countP_replace (before after : List α) (a b : α) (p : α → Bool) :
    (before ++ b :: after).countP p + (p a).toNat =
      (before ++ a :: after).countP p + (p b).toNat := by
  rw [List.countP_append, List.countP_append, List.countP_cons, List.countP_cons]
  cases p a <;> cases p b <;> simp <;> omega

/-- The only call with a property is the one in the middle. -/
theorem countP_le_one {p : α → Bool} (h : (before ++ a :: after).countP p ≤ 1) (ha : p a = true) :
    ∀ x ∈ before ++ after, p x = false := by
  rw [List.countP_append, List.countP_cons, if_pos ha] at h
  have hnone : (before ++ after).countP p = 0 := by
    rw [List.countP_append]
    omega
  intro x hx
  rw [Bool.eq_false_iff]
  exact List.countP_eq_zero.mp hnone x hx

theorem coe_filterMap_replace (before after : List α) (a b : α) (f : α → Option β) :
    (((before ++ b :: after).filterMap f : List β) : Multiset β) + (f a).toList =
      ((before ++ a :: after).filterMap f : List β) + (f b).toList := by
  have hsplit (x : α) : (((before ++ x :: after).filterMap f : List β) : Multiset β) =
      (before.filterMap f : List β) + (f x).toList + (after.filterMap f : List β) := by
    rw [List.filterMap_append, ← List.singleton_append, List.filterMap_append, ← Multiset.coe_add,
      ← Multiset.coe_add, add_assoc]
    cases hx : f x <;> simp [hx]
  rw [hsplit, hsplit]
  abel

theorem sum_map_replace (before after : List α) (a b : α) (f : α → Nat) :
    ((before ++ b :: after).map f).sum + f a = ((before ++ a :: after).map f).sum + f b := by
  simp only [List.map_append, List.map_cons, List.sum_append, List.sum_cons]
  omega

end Troupe.Lib
