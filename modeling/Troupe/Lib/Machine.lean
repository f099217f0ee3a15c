import Mathlib.Algebra.Order.Ring.Int
import Mathlib.Order.Basic

/-! # Machine integers

The two integer widths the Rust sources use are `u64` and the 64-bit `usize`. Values are `Nat`s with
the width's maximum written out where an operation can leave the range:

* `checkedAdd` is `checked_add`: `none` when the sum does not fit; `checkedSub` is `checked_sub`.
* `saturatingAdd` clamps at the end of the range. -/

namespace Troupe.Lib

/-- `u64::MAX`. -/
def u64Max : Nat := 2 ^ 64 - 1

/-- `usize::MAX` on a 64-bit target. -/
def usizeMax : Nat := 2 ^ 64 - 1

/-- `i64::MAX`. -/
def i64Max : Nat := 2 ^ 63 - 1

/-- `checked_add` of an unsigned type whose largest value is `max`. -/
def checkedAdd (max a b : Nat) : Option Nat := if a + b ≤ max then some (a + b) else none

/-- `checked_sub`. -/
def checkedSub (a b : Nat) : Option Nat := if b ≤ a then some (a - b) else none

/-- A subtraction of a signed type of `width` bits: `none` when it overflows. -/
def checkedSignedSub (width : Nat) (a b : Int) : Option Int :=
  if -2 ^ (width - 1) ≤ a - b ∧ a - b < 2 ^ (width - 1) then some (a - b) else none

/-- `saturating_add` of an unsigned type whose largest value is `max`. -/
def saturatingAdd (max a b : Nat) : Nat := min (a + b) max

theorem checkedAdd_eq_some {max a b c : Nat} :
    checkedAdd max a b = some c ↔ a + b ≤ max ∧ c = a + b := by
  unfold checkedAdd
  split <;> rename_i h
  · simp [h, eq_comm]
  · simp [h]

theorem checkedAdd_eq_none {max a b : Nat} : checkedAdd max a b = none ↔ max < a + b := by
  unfold checkedAdd
  split <;> rename_i h
  · simpa using h
  · simpa using h

theorem checkedAdd_of_le {max a b : Nat} (h : a + b ≤ max) :
    checkedAdd max a b = some (a + b) := by
  simp [checkedAdd, h]

theorem checkedSub_eq_some {a b c : Nat} : checkedSub a b = some c ↔ a = c + b := by
  unfold checkedSub
  rw [Option.ite_none_right_eq_some, Option.some.injEq]
  omega

theorem saturatingAdd_of_le {max a b : Nat} (h : a + b ≤ max) :
    saturatingAdd max a b = a + b := Nat.min_eq_left h

/-- Saturating sums clamp once: adding to a clamped sum is clamping the whole sum. -/
theorem saturatingAdd_min (max a b : Nat) :
    saturatingAdd max (min a max) b = min (a + b) max := by
  unfold saturatingAdd
  omega

end Troupe.Lib
