import Mathlib.Algebra.Order.Ring.Int
import Mathlib.Algebra.BigOperators.Group.List.Basic

/-! # The bytes of a text

A text is a list of characters, each of one to four bytes in UTF-8. A text of ASCII characters has as
many bytes as characters. -/

namespace Troupe.Lib

/-- The bytes the characters take. -/
def utf8Size (text : List Char) : Nat := (text.map Char.utf8Size).sum

@[simp] theorem utf8Size_nil : utf8Size [] = 0 := rfl

@[simp] theorem utf8Size_cons (c : Char) (text : List Char) :
    utf8Size (c :: text) = c.utf8Size + utf8Size text := List.sum_cons

@[simp] theorem utf8Size_append (xs ys : List Char) :
    utf8Size (xs ++ ys) = utf8Size xs + utf8Size ys := by
  unfold utf8Size
  rw [List.map_append, List.sum_append]

theorem utf8ByteSize_ofList (text : List Char) :
    (String.ofList text).utf8ByteSize = utf8Size text := by
  induction text with
  | nil => rfl
  | cons c rest ih =>
    rw [utf8Size_cons, ← ih, String.ofList_cons, String.utf8ByteSize_append,
      String.utf8ByteSize_singleton]

theorem utf8ByteSize_eq (text : String) : text.utf8ByteSize = utf8Size text.toList := by
  rw [← utf8ByteSize_ofList, String.ofList_toList]

theorem utf8Size_ascii {text : List Char} (h : ∀ c ∈ text, c.val < 128) :
    utf8Size text = text.length := by
  induction text with
  | nil => rfl
  | cons c rest ih =>
    have hval : c.val.toNat < 128 := h c List.mem_cons_self
    have hc : c.utf8Size = 1 :=
      Char.utf8Size_eq_one_iff.mpr (UInt32.le_iff_toNat_le.mpr (Nat.le_of_lt_succ hval))
    rw [utf8Size_cons, hc, ih fun d hd => h d (List.mem_cons_of_mem _ hd), List.length_cons,
      Nat.add_comm]

theorem length_le_utf8Size (text : List Char) : text.length ≤ utf8Size text := by
  induction text with
  | nil => exact Nat.le_refl 0
  | cons c rest ih =>
    have hc := Char.utf8Size_pos c
    rw [utf8Size_cons, List.length_cons]
    omega

end Troupe.Lib
