import Mathlib.Data.List.TakeWhile
import Troupe.Core.Scalar
import Troupe.Lib.Result

/-! # The parts of a decimal

What `normalize_decimal` computes with: the digits of a mantissa, and the coefficient and the scale
left once the zeroes at both ends are gone. A coefficient has no leading zero, and no trailing zero
while the scale is positive (`coefficient_of_trimZeroes`). -/

namespace Troupe.Core

open Troupe.Lib

/-! ## Coefficients -/

/-- The coefficient and scale of a normal form. -/
structure Coefficient (digits : List Char) (scale : Int) : Prop where
  digit : ∀ c ∈ digits, c.isDigit = true
  head : ∃ c rest, digits = c :: rest ∧ c ≠ '0'
  last : 0 < scale → digits.getLast? ≠ some '0'

/-- Trimming takes zeroes off the front, one for each step of the scale. -/
theorem trimZeroes_spec (digits : List Char) (scale : Int) :
    ∃ count : Nat, digits = List.replicate count '0' ++ (trimZeroes digits scale).1 ∧
      (trimZeroes digits scale).2 = scale - count ∧
      (0 < (trimZeroes digits scale).2 → (trimZeroes digits scale).1.head? ≠ some '0') := by
  fun_induction trimZeroes digits scale with
  | case1 rest scale hscale ih =>
    obtain ⟨count, hdigits, hcount, hhead⟩ := ih
    refine ⟨count + 1, ?_, by omega, hhead⟩
    rw [List.replicate_succ, List.cons_append, ← hdigits]
  | case2 rest scale hscale => exact ⟨0, by simp, by simp, fun h => absurd h hscale⟩
  | case3 digits scale hne =>
    refine ⟨0, by simp, by simp, fun _ hhead => ?_⟩
    obtain ⟨rest, rfl⟩ : ∃ rest, digits = '0' :: rest := by
      cases digits with
      | nil => simp at hhead
      | cons c rest => exact ⟨rest, by simpa using hhead⟩
    exact hne rest rfl

/-- Digits without a leading zero give a coefficient. -/
theorem coefficient_of_trimZeroes {digits : List Char} (hdigit : ∀ c ∈ digits, c.isDigit = true)
    (hhead : ∃ c rest, digits = c :: rest ∧ c ≠ '0') (scale : Int) :
    Coefficient (trimZeroes digits.reverse scale).1.reverse (trimZeroes digits.reverse scale).2 := by
  obtain ⟨count, hsplit, -, hlast⟩ := trimZeroes_spec digits.reverse scale
  generalize trimZeroes digits.reverse scale = trimmed at hsplit hlast ⊢
  obtain ⟨reversed, scale'⟩ := trimmed
  have hdigits : digits = reversed.reverse ++ List.replicate count '0' := by
    rw [← List.reverse_reverse digits, hsplit]
    simp
  refine ⟨fun c hc => hdigit c ?_, ?_, fun hscale => ?_⟩
  · rw [hdigits]
    exact List.mem_append_left _ hc
  · obtain ⟨c, rest, hcons, hc⟩ := hhead
    rw [hdigits] at hcons
    cases hreverse : reversed.reverse with
    | nil =>
      rw [hreverse, List.nil_append] at hcons
      have hmem : c ∈ List.replicate count '0' := by rw [hcons]; exact List.mem_cons_self
      exact absurd (List.eq_of_mem_replicate hmem) hc
    | cons d tail =>
      rw [hreverse, List.cons_append] at hcons
      obtain ⟨rfl, -⟩ := List.cons.inj hcons
      exact ⟨d, tail, rfl, hc⟩
  · rw [List.getLast?_reverse]
    exact hlast hscale

/-! ## Running the function -/

/-- What `normalize_decimal` does once the digits are read. -/
def normalizeParts (negative : Bool) (integer fraction : List Char) (exponent : Int) :
    Except WireValueError String :=
  let digits := (integer ++ fraction).dropWhile (· == '0')
  if digits.isEmpty then
    .ok "0"
  else
    let (reversed, scale) := trimZeroes digits.reverse (fraction.length - exponent)
    let coefficient := reversed.reverse
    do
      let _ ← normalizedBytes negative coefficient scale
      .ok (String.ofList (normalizedText negative coefficient scale))

theorem isDigit_ne {c d : Char} (h : c.isDigit = true) (hd : d.isDigit = false) : c ≠ d := by
  rintro rfl
  rw [h] at hd
  cases hd

theorem isDigit_ascii {c : Char} (h : c.isDigit = true) : c.val < 128 := by
  simp only [Char.isDigit, Bool.and_eq_true, decide_eq_true_eq] at h
  exact UInt32.lt_of_le_of_lt h.2 (by decide)

/-- The integer and the fraction of a mantissa. -/
theorem mantissa_parts {integer fraction mantissa : List Char}
    (hinteger : ∀ c ∈ integer, c.isDigit = true)
    (hmantissa : mantissa = integer ∧ fraction = [] ∨ mantissa = integer ++ '.' :: fraction) :
    mantissa.takeWhile (· != '.') = integer ∧ (mantissa.dropWhile (· != '.')).drop 1 = fraction := by
  have hdot : ∀ c ∈ integer, (c != '.') = true := by
    intro c hc
    simpa using isDigit_ne (hinteger c hc) (d := '.') (by decide)
  rcases hmantissa with ⟨rfl, rfl⟩ | rfl
  · rw [List.takeWhile_eq_self_iff.mpr hdot, List.dropWhile_eq_nil_iff.mpr hdot]
    exact ⟨rfl, rfl⟩
  · rw [List.takeWhile_append_of_pos hdot, List.dropWhile_append_of_pos hdot]
    simp

end Troupe.Core
