import Mathlib.Algebra.Order.Field.Basic
import Mathlib.Algebra.Order.Field.Power
import Mathlib.Algebra.Ring.Parity
import Mathlib.Data.Nat.Factorization.Basic
import Mathlib.Data.Rat.Cast.Order
import Mathlib.Tactic.FieldSimp
import Mathlib.Tactic.NormNum
import Mathlib.Tactic.Positivity
import Mathlib.Tactic.Ring
import Troupe.Lib.Number

/-! # Numbers that binary64 has

* `Dyadic64`: a rational number other than zero that a binary64 number stands for. `dyadic64_iff` finds
  out of a decimal fraction whether it is one, by its factors of five and two.
* `toRat?` is the number a float stands for, and `RoundsTo` that it is one of the nearest to a number.
  Which of two it is in the middle is left open.

Headline results: **`dyadic64_iff`**, `lt_ten_pow_of_dyadic64`, `RoundsTo.exact_`. -/

namespace Troupe.Lib

/-- An odd number below `2 ^ 53` times a power of two, within the exponents of binary64. -/
def Dyadic64 (number : ℚ) : Prop :=
  ∃ (m : ℕ) (e : ℤ), Odd m ∧ m < 2 ^ 53 ∧ -1074 ≤ e ∧ (m : ℚ) * 2 ^ e < 2 ^ (1024 : ℤ) ∧
    |number| = m * 2 ^ e

/-- An odd number and a power of two are known from their product. -/
theorem odd_mul_zpow_inj {m n : ℕ} {a b : ℤ} (hm : Odd m) (hn : Odd n)
    (h : (m : ℚ) * 2 ^ a = n * 2 ^ b) : m = n ∧ a = b := by
  have hless {m n : ℕ} {a b : ℤ} (hm : Odd m) (hle : a ≤ b) (h : (m : ℚ) * 2 ^ a = n * 2 ^ b) :
      m = n ∧ a = b := by
    obtain ⟨k, rfl⟩ := Int.le.dest hle
    have htwo : (2 : ℚ) ^ a ≠ 0 := zpow_ne_zero _ (by norm_num)
    have heq : (m : ℚ) = n * 2 ^ k := by
      rw [zpow_add₀ (by norm_num), zpow_natCast] at h
      refine mul_right_cancel₀ htwo ?_
      rw [h]
      ring
    have hnat : m = n * 2 ^ k := by exact_mod_cast heq
    cases k with
    | zero => exact ⟨by simpa using hnat, by simp⟩
    | succ k =>
      rw [hnat, pow_succ, ← mul_assoc, Nat.odd_mul] at hm
      exact absurd hm.2 (by decide)
  rcases le_total a b with hle | hle
  · exact hless hm hle h
  · obtain ⟨hmn, hab⟩ := hless hn hle h.symm
    exact ⟨hmn.symm, hab.symm⟩

theorem odd_mul_two_pow_inj {m n a b : ℕ} (hm : Odd m) (hn : Odd n)
    (h : m * 2 ^ a = n * 2 ^ b) : m = n ∧ a = b := by
  have hrational : (m : ℚ) * 2 ^ (a : ℤ) = n * 2 ^ (b : ℤ) := by exact_mod_cast h
  exact (odd_mul_zpow_inj hm hn hrational).imp_right fun h => by exact_mod_cast h

/-- Below `2 ^ 1024`, by the position of the first bit. -/
theorem mul_zpow_lt_iff {m : ℕ} (hm : m ≠ 0) (e : ℤ) :
    (m : ℚ) * 2 ^ e < 2 ^ (1024 : ℤ) ↔ e + Nat.log2 m ≤ 1023 := by
  have hpos : (0 : ℚ) < 2 ^ e := zpow_pos (by norm_num) _
  have hone : (1 : ℚ) < 2 := by norm_num
  have hlow : (2 : ℚ) ^ (e + Nat.log2 m) ≤ m * 2 ^ e := by
    rw [zpow_add₀ (by norm_num), mul_comm, zpow_natCast]
    refine mul_le_mul_of_nonneg_right ?_ hpos.le
    exact_mod_cast Nat.log2_self_le hm
  have hhigh : (m : ℚ) * 2 ^ e < 2 ^ (e + Nat.log2 m + 1) := by
    rw [add_assoc, zpow_add₀ (by norm_num), mul_comm ((2 : ℚ) ^ e)]
    refine mul_lt_mul_of_pos_right ?_ hpos
    have hlt : m < 2 ^ (Nat.log2 m + 1) := Nat.lt_log2_self
    exact_mod_cast hlt
  constructor
  · intro h
    have hexponent := (zpow_lt_zpow_iff_right₀ hone).mp (lt_of_le_of_lt hlow h)
    omega
  · intro h
    refine lt_of_lt_of_le hhigh ((zpow_le_zpow_iff_right₀ hone).mpr ?_)
    omega

/-- A decimal fraction that is dyadic has enough factors of five. -/
theorem five_pow_dvd {c s m : ℕ} {e : ℤ} (h : (c : ℚ) * 10 ^ (-(s : ℤ)) = m * 2 ^ e) :
    5 ^ s ∣ c := by
  obtain ⟨n, hn⟩ := Int.eq_ofNat_of_zero_le (show 0 ≤ e + e.natAbs by omega)
  have hscaled : (c : ℚ) * 2 ^ e.natAbs = m * 2 ^ n * 10 ^ s := by
    have hten : (10 : ℚ) ^ s ≠ 0 := pow_ne_zero _ (by norm_num)
    have hc : (c : ℚ) = m * 2 ^ e * 10 ^ s := by
      rw [← h, zpow_neg, zpow_natCast]
      field_simp
    have htwo : (2 : ℚ) ^ e * 2 ^ e.natAbs = 2 ^ n := by
      rw [← zpow_natCast (2 : ℚ) e.natAbs, ← zpow_add₀ (by norm_num), hn]
      exact zpow_natCast _ _
    rw [hc, ← htwo]
    ring
  have hnat : c * 2 ^ e.natAbs = m * 2 ^ n * 10 ^ s := by exact_mod_cast hscaled
  refine Nat.Coprime.dvd_of_dvd_mul_right (k := 5 ^ s) (n := 2 ^ e.natAbs) ?_ ?_
  · exact Nat.Coprime.pow _ _ (by decide)
  · rw [hnat]
    exact Dvd.dvd.mul_left (pow_dvd_pow_of_dvd (by decide) s) _

/-- **A decimal fraction is dyadic exactly when its factors of five cancel and what is left over after
its factors of two is small enough.** -/
theorem dyadic64_iff {c s : ℕ} (hc : c ≠ 0) :
    Dyadic64 ((c : ℚ) * 10 ^ (-(s : ℤ))) ↔
      ∃ odd k : ℕ, c = 5 ^ s * (odd * 2 ^ k) ∧ Odd odd ∧ odd < 2 ^ 53 ∧ -1074 ≤ (k : ℤ) - s ∧
        (k : ℤ) - s + Nat.log2 odd ≤ 1023 := by
  have hvalue {odd k : ℕ} (h : c = 5 ^ s * (odd * 2 ^ k)) :
      (c : ℚ) * 10 ^ (-(s : ℤ)) = (odd : ℚ) * 2 ^ ((k : ℤ) - s) := by
    have hten : (10 : ℚ) ^ s = 5 ^ s * 2 ^ s := by
      rw [← mul_pow]
      norm_num
    have hfive : (5 : ℚ) ^ s ≠ 0 := pow_ne_zero _ (by norm_num)
    have htwo : (2 : ℚ) ^ s ≠ 0 := pow_ne_zero _ (by norm_num)
    rw [h, zpow_neg, zpow_natCast, zpow_sub₀ (by norm_num), zpow_natCast, zpow_natCast, hten]
    push_cast
    field_simp
  have hnonneg : (0 : ℚ) ≤ (c : ℚ) * 10 ^ (-(s : ℤ)) :=
    mul_nonneg (Nat.cast_nonneg _) (zpow_nonneg (by norm_num) _)
  unfold Dyadic64
  rw [abs_of_nonneg hnonneg]
  constructor
  · rintro ⟨m, e, hodd, hlt, hlow, hhigh, heq⟩
    obtain ⟨value, rfl⟩ := five_pow_dvd heq
    have hpositive : value ≠ 0 := by
      rintro rfl
      exact hc (Nat.mul_zero _)
    obtain ⟨k, odd, hnot, rfl⟩ := Nat.exists_eq_two_pow_mul_odd hpositive
    have hdecomposed : 5 ^ s * (2 ^ k * odd) = 5 ^ s * (odd * 2 ^ k) := by ring
    rw [hvalue hdecomposed] at heq
    obtain ⟨rfl, rfl⟩ := odd_mul_zpow_inj hnot hodd heq
    refine ⟨odd, k, hdecomposed, hnot, hlt, hlow, ?_⟩
    exact (mul_zpow_lt_iff hnot.pos.ne' _).mp hhigh
  · rintro ⟨odd, k, hdecomposed, hodd, hlt, hlow, hhigh⟩
    refine ⟨odd, (k : ℤ) - s, hodd, hlt, hlow, (mul_zpow_lt_iff hodd.pos.ne' _).mpr hhigh, ?_⟩
    exact hvalue hdecomposed

theorem mul_lt_ten_pow {a b p q n : ℕ} (ha : a < 10 ^ p) (hb : b ≤ 10 ^ q) (h : p + q ≤ n) :
    a * b < 10 ^ n :=
  calc a * b < 10 ^ p * 10 ^ q := Nat.mul_lt_mul_of_lt_of_le ha hb (Nat.pow_pos (by decide))
    _ = 10 ^ (p + q) := (pow_add 10 p q).symm
    _ ≤ 10 ^ n := Nat.pow_le_pow_right (by decide) h

/-- A dyadic number has few digits, when its last decimal place is no zero. -/
theorem lt_ten_pow_of_dyadic64 {c s n : ℕ} (hn : 2048 ≤ n) (hc : c ≠ 0)
    (hlast : 0 < s → c % 10 ≠ 0) (h : Dyadic64 ((c : ℚ) * 10 ^ (-(s : ℤ)))) : c < 10 ^ n := by
  obtain ⟨odd, k, rfl, hodd, hlt, hlow, hhigh⟩ := (dyadic64_iff hc).mp h
  have hsmall : odd < 10 ^ 53 := hlt.trans_le (Nat.pow_le_pow_left (by decide) 53)
  cases s with
  | zero =>
    rw [pow_zero, one_mul]
    exact mul_lt_ten_pow hsmall (Nat.pow_le_pow_left (by decide) k) (by omega)
  | succ s =>
    have hk : k = 0 := by
      by_contra hk
      obtain ⟨j, rfl⟩ := Nat.exists_eq_succ_of_ne_zero hk
      refine hlast (Nat.succ_pos s) (Nat.mod_eq_zero_of_dvd ⟨5 ^ s * (odd * 2 ^ j), ?_⟩)
      rw [pow_succ, pow_succ]
      ring
    subst hk
    rw [pow_zero, mul_one, mul_comm]
    exact mul_lt_ten_pow hsmall (Nat.pow_le_pow_left (by decide) _) (by omega)

/-! ## Rounding -/

open Float.Model

/-- The number a float stands for, when it is one. -/
def toRat? (x : Float64) : Option ℚ :=
  match x.unpack with
  | .finite sign mantissa exponent _ =>
    some ((match sign with
      | .positive => 1
      | .negative => -1) * mantissa * 2 ^ exponent)
  | .zero _ => some 0
  | _ => none

/-- A number of binary64. -/
def Binary64 (number : ℚ) : Prop := number = 0 ∨ Dyadic64 number

/-- A float is one of the nearest to a number; or it is none, because the number is too large. -/
structure RoundsTo (number : ℚ) (x : Float64) : Prop where
  nearest : |number| < 2 ^ (1024 : ℤ) - 2 ^ (970 : ℤ) → ∃ value, toRat? x = some value ∧ Binary64 value ∧
    ∀ other, Binary64 other → |number - value| ≤ |number - other|
  overflows : 2 ^ (1024 : ℤ) - 2 ^ (970 : ℤ) ≤ |number| → toRat? x = none

/-- A dyadic number is below the ones that overflow. -/
theorem Dyadic64.lt_overflow {number : ℚ} (h : Dyadic64 number) :
    |number| < 2 ^ (1024 : ℤ) - 2 ^ (970 : ℤ) := by
  obtain ⟨m, e, hodd, hlt, -, hhigh, heq⟩ := h
  have hone : (1 : ℚ) < 2 := by norm_num
  have hpos : (0 : ℚ) < 2 ^ e := zpow_pos (by norm_num) _
  rw [heq]
  by_cases he : e ≤ 970
  · -- small exponents: below `2 ^ 1023`
    have hm : (m : ℚ) ≤ 2 ^ (53 : ℤ) := by
      rw [show (53 : ℤ) = ((53 : ℕ) : ℤ) by rfl, zpow_natCast]
      exact_mod_cast hlt.le
    have hproduct : (m : ℚ) * 2 ^ e ≤ 2 ^ (1023 : ℤ) :=
      calc (m : ℚ) * 2 ^ e ≤ 2 ^ (53 : ℤ) * 2 ^ (970 : ℤ) :=
            mul_le_mul hm ((zpow_le_zpow_iff_right₀ hone).mpr he) hpos.le (zpow_pos (by norm_num) _).le
        _ = 2 ^ (1023 : ℤ) := by
            rw [← zpow_add₀ (by norm_num)]
            norm_num
    have hdouble : (2 : ℚ) ^ (1024 : ℤ) = 2 ^ (1023 : ℤ) + 2 ^ (1023 : ℤ) := by
      rw [show (1024 : ℤ) = 1023 + 1 by rfl, zpow_add₀ (by norm_num), zpow_one]
      ring
    have hgap : (2 : ℚ) ^ (970 : ℤ) < 2 ^ (1023 : ℤ) :=
      (zpow_lt_zpow_iff_right₀ hone).mpr (by decide)
    rw [hdouble]
    exact lt_of_le_of_lt hproduct (lt_sub_iff_add_lt.mpr ((add_lt_add_iff_left _).mpr hgap))
  · -- large ones: a multiple of `2 ^ e` below `2 ^ 1024`, which is one too
    have hexponent := (mul_zpow_lt_iff hodd.pos.ne' e).mp hhigh
    obtain ⟨k, hk⟩ := Int.eq_ofNat_of_zero_le (show 0 ≤ 1024 - e by omega)
    have hsplit : (2 : ℚ) ^ (1024 : ℤ) = 2 ^ k * 2 ^ e := by
      rw [← zpow_natCast, ← zpow_add₀ (by norm_num)]
      congr 1
      omega
    have hmk : m + 1 ≤ 2 ^ k := by
      rw [hsplit] at hhigh
      have hbelow := lt_of_mul_lt_mul_right hhigh hpos.le
      exact_mod_cast hbelow
    have hproduct : ((m : ℚ) + 1) * 2 ^ e ≤ 2 ^ (1024 : ℤ) := by
      rw [hsplit]
      refine mul_le_mul_of_nonneg_right ?_ hpos.le
      exact_mod_cast hmk
    have hgap : (2 : ℚ) ^ (970 : ℤ) < 2 ^ e := (zpow_lt_zpow_iff_right₀ hone).mpr (by omega)
    rw [add_mul, one_mul] at hproduct
    exact lt_sub_iff_add_lt.mpr (lt_of_lt_of_le ((add_lt_add_iff_left _).mpr hgap) hproduct)

/-- A number that binary64 has is rounded to itself. -/
theorem RoundsTo.exact_ {number : ℚ} {x : Float64} (h : RoundsTo number x) (hdyadic : Dyadic64 number) :
    toRat? x = some number := by
  obtain ⟨value, hvalue, -, hnearest⟩ := h.nearest hdyadic.lt_overflow
  have hzero := hnearest number (.inr hdyadic)
  rw [sub_self, abs_zero, abs_nonpos_iff, sub_eq_zero] at hzero
  rw [hvalue, hzero]

/-- A float that stands for a dyadic number is the nearest to it. -/
theorem RoundsTo.of_toRat? {number : ℚ} {x : Float64} (hdyadic : Dyadic64 number)
    (h : toRat? x = some number) : RoundsTo number x where
  nearest _ := ⟨number, h, .inr hdyadic, fun other _ => by
    rw [sub_self, abs_zero]
    exact abs_nonneg _⟩
  overflows hlarge := absurd hdyadic.lt_overflow (not_lt.mpr hlarge)

theorem isFinite_of_toRat? {x : Float64} {value : ℚ} (h : toRat? x = some value) :
    x.isFinite = true := by
  unfold toRat? at h
  unfold Float.Model.isFinite
  cases hx : x.unpack with
  | notANumber => rw [hx] at h; cases h
  | infinity sign => rw [hx] at h; cases h
  | zero sign => rfl
  | finite sign mantissa exponent hpos => rfl

/-- A float that is equal to zero stands for it. -/
theorem toRat?_of_beq_zero {x zero : Float64} {sign : UnpackedFloat.Sign}
    (hzero : zero.unpack = .zero sign) (h : (x == zero) = true) : toRat? x = some 0 := by
  have hcompare : (x.unpack.compare zero.unpack == some .eq) = true := h
  rw [hzero] at hcompare
  unfold toRat?
  cases hx : x.unpack with
  | notANumber => rw [hx] at hcompare; cases hcompare
  | infinity other =>
    rw [hx] at hcompare
    cases other <;> cases hcompare
  | zero other => rfl
  | finite other mantissa exponent hpos =>
    rw [hx] at hcompare
    cases other <;> cases hcompare

end Troupe.Lib
