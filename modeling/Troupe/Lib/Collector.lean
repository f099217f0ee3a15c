import Mathlib.Data.List.Basic

/-! # Lists that stop growing

A collector keeps the first `cap` things pushed to it and remembers whether one was left out. What
is pushed one after the other is what `pushAll` pushes, and `items_collect` and `truncated_collect`
say what a collector that started empty holds. -/

namespace Troupe.Lib

structure Collector (α : Type) where
  items : List α
  truncated : Bool

namespace Collector

variable {α : Type} (cap : Nat)

def empty : Collector α := { items := [], truncated := false }

def push (c : Collector α) (x : α) : Collector α :=
  if c.items.length < cap then { c with items := c.items ++ [x] } else { c with truncated := true }

def pushAll (c : Collector α) (xs : List α) : Collector α := xs.foldl (push cap) c

@[simp] theorem pushAll_nil (c : Collector α) : c.pushAll cap [] = c := rfl

theorem pushAll_cons (c : Collector α) (x : α) (xs : List α) :
    c.pushAll cap (x :: xs) = (c.push cap x).pushAll cap xs := rfl

theorem pushAll_append (c : Collector α) (xs ys : List α) :
    c.pushAll cap (xs ++ ys) = (c.pushAll cap xs).pushAll cap ys :=
  List.foldl_append

/-- What a collector holds is settled by how much room it has left. -/
theorem items_pushAll (c : Collector α) (xs : List α) :
    (c.pushAll cap xs).items = c.items ++ xs.take (cap - c.items.length) := by
  induction xs generalizing c with
  | nil => simp
  | cons x xs ih =>
    rw [pushAll_cons, ih]
    unfold push
    by_cases hroom : c.items.length < cap
    · obtain ⟨room, hcap⟩ := Nat.exists_eq_succ_of_ne_zero (n := cap - c.items.length) (by omega)
      rw [if_pos hroom, hcap, Nat.succ_eq_add_one, List.take_succ_cons, List.length_append, List.length_singleton,
        show cap - (c.items.length + 1) = room by omega, List.append_assoc]
      rfl
    · rw [if_neg hroom, show cap - c.items.length = 0 by omega, List.take_zero, List.take_zero]

theorem truncated_pushAll (c : Collector α) (xs : List α) :
    (c.pushAll cap xs).truncated = (c.truncated || decide (cap - c.items.length < xs.length)) := by
  induction xs generalizing c with
  | nil => simp
  | cons x xs ih =>
    rw [pushAll_cons, ih]
    unfold push
    by_cases hroom : c.items.length < cap
    · rw [if_pos hroom]
      simp only [List.length_append, List.length_cons, List.length_nil]
      congr 2
      simp only [eq_iff_iff]
      omega
    · rw [if_neg hroom]
      have hfull : cap - c.items.length < (x :: xs).length := by
        rw [List.length_cons]
        omega
      simp only [hfull, decide_true, Bool.or_true, Bool.true_or]

theorem items_collect (xs : List α) : (empty.pushAll cap xs).items = xs.take cap :=
  items_pushAll cap empty xs

theorem truncated_collect (xs : List α) :
    (empty.pushAll cap xs).truncated = decide (cap < xs.length) := by
  rw [truncated_pushAll]
  rfl

end Collector

end Troupe.Lib
