import Mathlib.Data.Nat.Size
import Troupe.Lib.Dyadic
import Troupe.Perfetto.UsageTotals

/-! # Counter values are exact

What `exact_counter_value` does to the digits of a canonical decimal, for a `str::parse::<f64>` that
rounds correctly.

* `divideDecimalExact_spec`: a division by a digit is exact or refused, and panics nowhere; from it the
  loops over the factors of five (`divideByFives_spec`) and two (`stripTwos_spec`).
* `checkCoefficient_spec`: what is left passes the bounds exactly when binary64 has the number.
* `exactCounterValue_digitwise`: the function on numbers, which the plan of a trace uses, agrees with it.

Result: **`counter_export_exact`**, together with the totals of the usages. -/

namespace Troupe.Perfetto

open Troupe.Lib Troupe.Core

namespace Digitwise

variable {digits : List Nat}

/-! ## Division -/

/-- Digits of a decimal. -/
def Decimal (digits : List Nat) : Prop := ∀ digit ∈ digits, digit < 10

/-- The loop of a division by a digit panics nowhere. -/
theorem divideDigits_ok {divisor remainder : Nat} (hdivisor : divisor ≤ 9)
    (hremainder : remainder < divisor) (hdigits : Decimal digits) :
    ∃ quotients left, divideDigits divisor remainder digits = .ok (quotients, left) ∧
      left < divisor ∧ Decimal quotients := by
  induction digits generalizing remainder with
  | nil => exact ⟨[], remainder, rfl, hremainder, List.forall_mem_nil _⟩
  | cons digit rest ih =>
    obtain ⟨hdigit, hrest⟩ := List.forall_mem_cons.mp hdigits
    have hpos : 0 < divisor := by omega
    obtain ⟨quotients, left, hmore, hleft, hquotients⟩ :=
      ih (Nat.mod_lt (remainder * 10 + digit) hpos) hrest
    have hscaled : remainder * 10 ≤ u16Max := by
      unfold u16Max
      omega
    have hcurrent : checkedAdd u16Max (remainder * 10) digit = some (remainder * 10 + digit) := by
      refine checkedAdd_of_le ?_
      unfold u16Max
      omega
    have hquotient : (remainder * 10 + digit) / divisor < 10 := by
      rw [Nat.div_lt_iff_lt_mul hpos]
      omega
    have hfits : (remainder * 10 + digit) / divisor ≤ u8Max := by
      unfold u8Max
      omega
    refine ⟨(remainder * 10 + digit) / divisor :: quotients, left, ?_, hleft,
      List.forall_mem_cons.mpr ⟨hquotient, hquotients⟩⟩
    rw [divideDigits, if_pos hscaled, orPanic, ok_bind, hcurrent, orPanic, ok_bind, if_pos hfits,
      orNone, ok_bind, hmore]
    rfl

/-- **A division by a digit is exact or refused.** -/
theorem divideDecimalExact_spec {divisor : Nat} (hpos : 0 < divisor)
    (hdivisor : divisor ≤ 9) (hdigits : Decimal digits) :
    (¬ divisor ∣ digitsNat 0 digits → divideDecimalExact digits divisor = none?) ∧
    (divisor ∣ digitsNat 0 digits → ∃ quotients, divideDecimalExact digits divisor = .ok quotients ∧
      Decimal quotients ∧ digitsNat 0 quotients = digitsNat 0 digits / divisor) := by
  obtain ⟨quotients, left, hloop, hleft, hquotients⟩ := divideDigits_ok hdivisor hpos hdigits
  have hvalue := (divideDigits_value hloop).1
  have hleftEq : left = digitsNat 0 digits % divisor := by
    rw [hvalue, Nat.mul_add_mod, Nat.mod_eq_of_lt hleft]
  unfold divideDecimalExact
  rw [hloop, ok_bind]
  dsimp only
  constructor
  · intro hnot
    rw [if_pos]
    rw [hleftEq]
    exact fun hzero => hnot (Nat.dvd_of_mod_eq_zero hzero)
  · intro hdvd
    have hzero : left = 0 := by rw [hleftEq, Nat.mod_eq_zero_of_dvd hdvd]
    rw [if_neg (by simpa using hzero)]
    refine ⟨_, rfl, fun digit hdigit => hquotients digit ((List.dropWhile_sublist _).subset hdigit), ?_⟩
    rw [digitsNat_dropWhile, hvalue, hzero, Nat.add_zero, Nat.mul_div_cancel_left _ hpos]

theorem divideByFives_spec (times : Nat) (hdigits : Decimal digits) :
    (¬ 5 ^ times ∣ digitsNat 0 digits → divideByFives times digits = none?) ∧
    (5 ^ times ∣ digitsNat 0 digits → ∃ quotients, divideByFives times digits = .ok quotients ∧
      Decimal quotients ∧ digitsNat 0 quotients = digitsNat 0 digits / 5 ^ times) := by
  induction times generalizing digits with
  | zero =>
    rw [pow_zero, Nat.div_one]
    exact ⟨fun hnot => absurd (one_dvd _) hnot, fun _ => ⟨digits, rfl, hdigits, rfl⟩⟩
  | succ times ih =>
    obtain ⟨hrefused, hexact⟩ := divideDecimalExact_spec (show 0 < 5 by decide) (by decide) hdigits
    rw [divideByFives]
    by_cases hfive : 5 ∣ digitsNat 0 digits
    · obtain ⟨quotients, hquotients, hdecimal, hvalue⟩ := hexact hfive
      obtain ⟨hrest, hmore⟩ := ih hdecimal
      have hdvd : 5 ^ times ∣ digitsNat 0 quotients ↔ 5 ^ (times + 1) ∣ digitsNat 0 digits := by
        rw [hvalue, pow_succ, Nat.dvd_div_iff_mul_dvd hfive, mul_comm]
      rw [hquotients, ok_bind, ← hdvd]
      refine ⟨hrest, fun hfives => ?_⟩
      obtain ⟨last, hlast, hlastDecimal, hlastValue⟩ := hmore hfives
      refine ⟨last, hlast, hlastDecimal, ?_⟩
      rw [hlastValue, hvalue, Nat.div_div_eq_div_mul, pow_succ, mul_comm]
    · rw [hrefused hfive]
      refine ⟨fun _ => rfl, fun hfives => ?_⟩
      exact absurd ((Dvd.intro_left _ (pow_succ 5 times).symm).trans hfives) hfive

/-! ## Factors of two -/

theorem digitsNat_concat (digits : List Nat) (last : Nat) :
    digitsNat 0 (digits ++ [last]) = digitsNat 0 digits * 10 + last := by
  unfold digitsNat
  rw [List.foldl_append]
  rfl

/-- A number is even when its last digit is. -/
theorem getLast?_even (hpos : digitsNat 0 digits ≠ 0) :
    digits.getLast?.any (· % 2 = 0) = true ↔ digitsNat 0 digits % 2 = 0 := by
  rcases List.eq_nil_or_concat digits with rfl | ⟨front, last, rfl⟩
  · exact absurd rfl hpos
  · rw [List.concat_eq_append, List.getLast?_concat, digitsNat_concat]
    simp only [Option.any_some, decide_eq_true_eq]
    omega

/-- **The loop takes off the factors of two.** -/
theorem stripTwos_spec {factors : Int} (hdigits : Decimal digits)
    (hvalue : digitsNat 0 digits ≠ 0) (hfactors : 0 ≤ factors)
    (hroom : factors + Nat.log2 (digitsNat 0 digits) < 2 ^ 31) :
    ∃ odd, ∃ k : Nat, stripTwos digits factors = .ok (odd, factors + k) ∧ Decimal odd ∧
      Odd (digitsNat 0 odd) ∧ digitsNat 0 digits = digitsNat 0 odd * 2 ^ k := by
  induction hn : digitsNat 0 digits using Nat.strongRecOn generalizing digits factors with
  | ind n ih =>
    subst hn
    rw [stripTwos]
    by_cases heven : digitsNat 0 digits % 2 = 0
    · obtain ⟨quotients, hquotients, hdecimal, hhalf⟩ :=
        (divideDecimalExact_spec (show 0 < 2 by decide) (by decide) hdigits).2
          (Nat.dvd_of_mod_eq_zero heven)
      have hne : digitsNat 0 quotients ≠ 0 := by omega
      have hlog : Nat.log2 (digitsNat 0 quotients) + 1 = Nat.log2 (digitsNat 0 digits) := by
        rw [hhalf, Nat.log2_def (digitsNat 0 digits), if_pos (by omega)]
      have hinc : toI32 (factors + 1) = some (factors + 1) := by
        unfold toI32
        rw [if_pos]
        omega
      have hnext : 0 ≤ factors + 1 := by omega
      obtain ⟨odd, k, hloop, hoddDecimal, hodd, hproduct⟩ :=
        ih (digitsNat 0 quotients) (by omega) hdecimal hne hnext (by omega) rfl
      have hdivided : divideByTwo digits = .ok quotients := by
        unfold divideByTwo
        rw [hquotients]
      rw [dif_pos ((getLast?_even hvalue).mpr heven)]
      refine ⟨odd, k + 1, ?_, hoddDecimal, hodd, ?_⟩
      · split
        · rename_i fault hfault
          rw [hdivided] at hfault
          cases hfault
        · rename_i found hfound
          rw [hdivided] at hfound
          cases hfound
          rw [hinc]
          dsimp only
          rw [hloop]
          push_cast
          rw [add_assoc, add_comm (1 : Int)]
      · rw [pow_succ, ← mul_assoc, ← hproduct, hhalf]
        omega
    · rw [dif_neg fun h => heven ((getLast?_even hvalue).mp h)]
      refine ⟨digits, 0, by simp, hdigits, ?_, by simp⟩
      rw [Nat.odd_iff]
      omega

/-- Digits as a `u64`, when they fit. -/
theorem decimalDigitsToU64_spec (digits : List Nat) :
    decimalDigitsToU64 digits =
      if digitsNat 0 digits ≤ u64Max then .ok (digitsNat 0 digits) else none? := by
  have hfold (start : Nat) (hstart : start ≤ u64Max) :
      digits.foldlM (fun value digit => do
        let scaled ← orNone (if value * 10 ≤ u64Max then some (value * 10) else none)
        orNone (checkedAdd u64Max scaled digit)) start =
        if digitsNat start digits ≤ u64Max then .ok (digitsNat start digits) else none? := by
    induction digits generalizing start with
    | nil =>
      rw [List.foldlM_nil, show digitsNat start [] = start from rfl, if_pos hstart]
      rfl
    | cons digit rest ih =>
      have hgrows : start * 10 + digit ≤ digitsNat start (digit :: rest) := by
        rw [digitsNat_cons, digitsNat_start]
        exact le_add_right (Nat.le_mul_of_pos_right _ (Nat.pow_pos (by decide)))
      rw [List.foldlM_cons]
      by_cases hscaled : start * 10 ≤ u64Max
      · rw [if_pos hscaled, orNone, ok_bind]
        by_cases hsum : start * 10 + digit ≤ u64Max
        · rw [checkedAdd_of_le hsum, orNone, ok_bind, ih _ hsum, digitsNat_cons]
        · rw [checkedAdd_eq_none.mpr (by omega), if_neg (by omega)]
          rfl
      · rw [if_neg hscaled, if_neg (by omega)]
        rfl
  exact hfold 0 (Nat.zero_le _)

/-! ## Exponents -/

theorem size_eq_log2 {n : Nat} (h : n ≠ 0) : Nat.size n = Nat.log2 n + 1 := by
  have hle := Nat.size_le.mpr (@Nat.lt_log2_self n)
  have hlt := Nat.lt_size.mpr (Nat.log2_self_le h)
  omega

theorem toI32_of_small {value : Int} (hlow : -2 ^ 20 ≤ value) (hhigh : value < 2 ^ 20) :
    toI32 value = some value := by
  unfold toI32
  rw [if_pos]
  omega

/-- **The exponents of binary64 are checked**, on numbers of a coefficient that was not too long. -/
theorem checkExponents_spec {odd k s : Nat} (parsed : Float64) (hpos : odd ≠ 0) (hlt : odd < 2 ^ 53)
    (hk : k < 2 ^ 16) (hs : s < 2 ^ 16) :
    checkExponents odd k s parsed =
      if -1074 ≤ (k : Int) - s ∧ (k : Int) - s + Nat.log2 odd ≤ 1023 then .ok parsed else none? := by
  have hsize := size_eq_log2 hpos
  have hlog : Nat.log2 odd < 53 := (Nat.log2_lt hpos).mpr hlt
  have hbits : checkedSub 64 (64 - Nat.size odd) = some (Nat.size odd) :=
    checkedSub_eq_some.mpr (by omega)
  have hscale : toI32 s = some (s : Int) := toI32_of_small (by omega) (by omega)
  have hbinary : toI32 ((k : Int) - s) = some ((k : Int) - s) := toI32_of_small (by omega) (by omega)
  have hsignificant : toI32 (Nat.size odd) = some (Nat.size odd : Int) :=
    toI32_of_small (by omega) (by omega)
  have hshift : toI32 ((Nat.size odd : Int) - 1) = some ((Nat.size odd : Int) - 1) :=
    toI32_of_small (by omega) (by omega)
  have hhighest : toI32 ((k : Int) - s + ((Nat.size odd : Int) - 1)) =
      some ((k : Int) - s + ((Nat.size odd : Int) - 1)) := toI32_of_small (by omega) (by omega)
  unfold checkExponents
  rw [hbits, orPanic, ok_bind, hscale, orNone, ok_bind, hbinary, orNone, ok_bind, hsignificant, orNone,
    ok_bind, hshift, orPanic, ok_bind, hhighest, orNone, ok_bind, hsize]
  by_cases hfits : -1074 ≤ (k : Int) - s ∧ (k : Int) - s + Nat.log2 odd ≤ 1023
  · rw [if_pos hfits, if_neg (by omega)]
    rfl
  · rw [if_neg hfits, if_pos (by omega)]

/-- An exponent is bounded by a power that a number is above and one that it is below. -/
theorem exponent_lt {a b m n k c : Nat} (ha : 1 < a) (hle : a ^ k ≤ c) (hlt : c < b ^ n)
    (hbase : b ≤ a ^ m) : k < m * n := by
  refine (Nat.pow_lt_pow_iff_right ha).mp ?_
  calc a ^ k ≤ c := hle
    _ < b ^ n := hlt
    _ ≤ (a ^ m) ^ n := Nat.pow_le_pow_left hbase n
    _ = a ^ (m * n) := (pow_mul a m n).symm

theorem digitsNat_lt (h : Decimal digits) :
    digitsNat 0 digits < 10 ^ digits.length := by
  induction digits using List.reverseRecOn with
  | nil => decide
  | append_singleton front last ih =>
    have hfront := ih fun digit hdigit => h digit (List.mem_append_left _ hdigit)
    have hlast := h last (List.mem_append_right _ (List.mem_singleton_self _))
    rw [digitsNat_concat, List.length_append, List.length_singleton, pow_succ]
    omega

/-- **A coefficient with a scale is exported when binary64 has their number.** -/
theorem checkCoefficient_spec {s : Nat} (parsed : Float64)
    (hdigits : Decimal digits) (hvalue : digitsNat 0 digits ≠ 0)
    (hlength : digits.length ≤ maxExactDecimalDigits) :
    (Dyadic64 ((digitsNat 0 digits : ℚ) * 10 ^ (-(s : ℤ))) →
      checkCoefficient digits s parsed = .ok parsed) ∧
    (¬ Dyadic64 ((digitsNat 0 digits : ℚ) * 10 ^ (-(s : ℤ))) →
      checkCoefficient digits s parsed = none?) := by
  obtain ⟨hrefused, hexact⟩ := divideByFives_spec s hdigits
  rw [dyadic64_iff hvalue]
  unfold checkCoefficient
  by_cases hfives : 5 ^ s ∣ digitsNat 0 digits
  · obtain ⟨quotients, hquotients, hdecimal, hquotient⟩ := hexact hfives
    obtain ⟨rest, hrest⟩ := hfives
    have hrestValue : digitsNat 0 quotients = rest := by
      rw [hquotient, hrest, Nat.mul_div_cancel_left _ (Nat.pow_pos (by decide))]
    have hrestPos : rest ≠ 0 := by
      rintro rfl
      exact hvalue (by rw [hrest, Nat.mul_zero])
    have hmax : maxExactDecimalDigits = 2048 := rfl
    have hbound : digitsNat 0 digits < 10 ^ maxExactDecimalDigits :=
      (digitsNat_lt hdigits).trans_le (Nat.pow_le_pow_right (by decide) hlength)
    have hscale : s < 2 * maxExactDecimalDigits := by
      refine exponent_lt (by decide) ?_ hbound (show 10 ≤ 5 ^ 2 by decide)
      rw [hrest]
      exact Nat.le_mul_of_pos_right _ (Nat.pos_of_ne_zero hrestPos)
    have hle : rest ≤ digitsNat 0 digits := by
      rw [hrest]
      exact Nat.le_mul_of_pos_left _ (Nat.pow_pos (by decide))
    have hlog : Nat.log2 rest < 4 * maxExactDecimalDigits :=
      exponent_lt (by decide) ((Nat.log2_self_le hrestPos).trans hle) hbound
        (show 10 ≤ 2 ^ 4 by decide)
    obtain ⟨odd, k, hloop, hoddDecimal, hodd, hproduct⟩ :=
      stripTwos_spec hdecimal (by rwa [hrestValue]) (le_refl 0) (by rw [hrestValue]; omega)
    rw [hrestValue] at hproduct
    have hk : k < 4 * maxExactDecimalDigits := by
      refine exponent_lt (by decide) ?_ hbound (show 10 ≤ 2 ^ 4 by decide)
      refine le_trans ?_ hle
      rw [hproduct]
      exact Nat.le_mul_of_pos_left _ hodd.pos
    rw [hquotients, ok_bind, hloop, ok_bind]
    dsimp only
    rw [decimalDigitsToU64_spec, zero_add]
    have hunique {other j : Nat} (hother : Odd other)
        (h : digitsNat 0 digits = 5 ^ s * (other * 2 ^ j)) : digitsNat 0 odd = other ∧ k = j := by
      rw [hrest, hproduct] at h
      exact odd_mul_two_pow_inj hodd hother (Nat.eq_of_mul_eq_mul_left (Nat.pow_pos (by decide)) h)
    by_cases hlt : digitsNat 0 odd < 2 ^ 53
    · have hfits : digitsNat 0 odd ≤ u64Max := by
        unfold u64Max
        omega
      rw [if_pos hfits, ok_bind, if_neg (by unfold maxSignificand; omega),
        checkExponents_spec parsed hodd.pos.ne' hlt (by omega) (by omega)]
      constructor
      · rintro ⟨other, j, hdecomposed, hother, -, hlow, hhigh⟩
        obtain ⟨rfl, rfl⟩ := hunique hother hdecomposed
        rw [if_pos ⟨hlow, hhigh⟩]
      · intro hnot
        rw [if_neg]
        rintro ⟨hlow, hhigh⟩
        exact hnot ⟨digitsNat 0 odd, k, by rw [hrest, hproduct], hodd, hlt, hlow, hhigh⟩
    · constructor
      · rintro ⟨other, j, hdecomposed, hother, hsmall, -⟩
        obtain ⟨rfl, rfl⟩ := hunique hother hdecomposed
        exact absurd hsmall hlt
      · intro _
        split
        · rw [ok_bind, if_pos (by unfold maxSignificand; omega)]
        · rfl
  · rw [hrefused hfives]
    refine ⟨?_, fun _ => rfl⟩
    rintro ⟨odd, k, hproduct, -⟩
    exact absurd ⟨_, hproduct⟩ hfives

/-! ## Texts -/

section Literal

variable {literal : DecimalLiteral} {parse : String → Option Float64}

/-- A canonical decimal is split at its point. -/
theorem splitDecimal_text (h : literal.Canonical) :
    splitDecimal (String.ofList literal.text) = (literal.integer, literal.places) := by
  have hexponent : literal.exponentText = [] := by
    rw [DecimalLiteral.exponentText, h.plain]
    rfl
  have hplain : ∀ c ∈ literal.integer, decide (c ≠ '.') = true := fun c hc =>
    decide_eq_true (literal.integer_digits.ne hc (by decide))
  have hmantissa : (literal.mantissaText.takeWhile (· ≠ '.'),
      (literal.mantissaText.dropWhile (· ≠ '.')).drop 1) = (literal.integer, literal.places) := by
    unfold DecimalLiteral.mantissaText DecimalLiteral.places
    rw [List.takeWhile_append_of_pos hplain, List.dropWhile_append_of_pos hplain]
    cases literal.fraction with
    | none => simp
    | some places => simp
  obtain ⟨c, rest, hhead, hc⟩ := literal.mantissaText_head
  have hunsigned : unsignedText literal.text = literal.mantissaText := by
    unfold DecimalLiteral.text
    rw [hexponent, List.append_nil]
    cases hsign : literal.sign with
    | none =>
      rw [signText, List.nil_append, hhead]
      unfold unsignedText
      split
      · rename_i tail hminus
        obtain ⟨rfl, -⟩ := List.cons.inj hminus
        exact absurd hc (by decide)
      · rfl
    | some minus =>
      cases minus with
      | true => rfl
      | false => exact absurd hsign h.unsigned
  rw [← hmantissa]
  unfold splitDecimal
  rw [String.toList_ofList, hunsigned]

/-- The digits of a coefficient. -/
def digitsOf (chars : List Char) : List Nat := chars.map fun c => c.toNat - 48

theorem digitsNat_digitsOf (chars : List Char) : digitsNat 0 (digitsOf chars) = Lib.digitsValue chars := by
  induction chars using List.reverseRecOn with
  | nil => rfl
  | append_singleton front last ih =>
    have hsplit : digitsOf (front ++ [last]) = digitsOf front ++ [last.toNat - 48] := by
      simp [digitsOf]
    rw [hsplit, digitsNat_concat, ih, digitsValue_concat, Nat.mul_comm]

theorem digitsOf_decimal {chars : List Char} (h : Digits chars) : Decimal (digitsOf chars) := by
  intro digit hdigit
  obtain ⟨c, hc, rfl⟩ := List.mem_map.mp hdigit
  have hrange := isDigit_toNat (h c hc)
  omega

/-- No subtraction of the code of the first digit fails. -/
theorem mapM_digits {chars : List Char} (h : Digits chars) :
    (chars.mapM fun digit =>
      orPanic "attempt to subtract with overflow" (checkedSub digit.toNat 48)) =
        .ok (digitsOf chars) := by
  induction chars with
  | nil => rfl
  | cons c rest ih =>
    obtain ⟨hc, hrest⟩ := List.forall_mem_cons.mp h
    have hrange := isDigit_toNat hc
    have hsub : checkedSub c.toNat 48 = some (c.toNat - 48) :=
      checkedSub_eq_some.mpr (by omega)
    rw [List.mapM_cons, hsub, orPanic, ok_bind, ih hrest]
    rfl

/-- The coefficient of a literal without the zeros in front. -/
def coefficientChars (literal : DecimalLiteral) : List Char :=
  (literal.integer ++ literal.places).dropWhile (· == '0')

theorem coefficientChars_digits : Digits (coefficientChars literal) := fun c hc =>
  literal.digit c ((List.dropWhile_sublist _).subset hc)

theorem coefficientChars_value : Lib.digitsValue (coefficientChars literal) = literal.coefficient :=
  digitsValue_dropWhile _

/-- The first digit of a coefficient is no zero. -/
theorem le_coefficient {c : Char} {rest : List Char} (h : coefficientChars literal = c :: rest) :
    10 ^ rest.length ≤ literal.coefficient := by
  have hdigits := @coefficientChars_digits literal
  have hvalue := @coefficientChars_value literal
  have hc : c ≠ '0' := by
    have hhead := List.head?_dropWhile_not (· == '0') (literal.integer ++ literal.places)
    rw [show (literal.integer ++ literal.places).dropWhile (· == '0') = c :: rest from h,
      List.head?_cons] at hhead
    simpa using hhead
  rw [h] at hdigits hvalue
  have hle := le_digitsValue hdigits hc
  rwa [hvalue] at hle

theorem coefficientChars_eq_nil (h : literal.coefficient = 0) : coefficientChars literal = [] := by
  cases hchars : coefficientChars literal with
  | nil => rfl
  | cons c rest =>
    have hle := le_coefficient hchars
    rw [h, Nat.le_zero] at hle
    exact absurd hle (Nat.ne_of_gt (Nat.pow_pos (by decide)))

theorem length_coefficientChars {n : Nat} (h : literal.coefficient < 10 ^ n) :
    (coefficientChars literal).length ≤ n := by
  cases hchars : coefficientChars literal with
  | nil => exact Nat.zero_le _
  | cons c rest =>
    exact (Nat.pow_lt_pow_iff_right (by decide)).mp (Nat.lt_of_le_of_lt (le_coefficient hchars) h)

theorem dyadic64_literal (h : literal.Canonical) :
    Dyadic64 literal.value ↔
      Dyadic64 ((literal.coefficient : ℚ) * 10 ^ (-(literal.places.length : ℤ))) := by
  have habs : |literal.value| =
      |(literal.coefficient : ℚ) * 10 ^ (-(literal.places.length : ℤ))| := by
    unfold DecimalLiteral.value
    rw [h.power_eq, zero_sub, mul_assoc]
    cases literal.negative <;> simp
  unfold Dyadic64
  rw [habs]

theorem digitsNat_coefficient :
    digitsNat 0 (digitsOf (coefficientChars literal)) = literal.coefficient := by
  rw [digitsNat_digitsOf, coefficientChars_value]

/-- The tests in front of the divisions. -/
theorem exactFiniteDouble_eq (h : literal.Canonical) {x : Float64}
    (hparse : parse (String.ofList literal.text) = some x) :
    exactFiniteDouble parse (String.ofList literal.text) =
      if (!x.isFinite) = true then none?
      else if (digitsOf (coefficientChars literal)).isEmpty = true then
        if (x == (.ofScientific 0 0 : Float64)) = true then .ok x else none?
      else if maxExactDecimalDigits < (digitsOf (coefficientChars literal)).length ∨
          (x == (.ofScientific 0 0 : Float64)) = true then none?
      else checkCoefficient (digitsOf (coefficientChars literal)) literal.places.length x := by
  have hmapM : (((literal.integer ++ literal.places).dropWhile (· == '0')).mapM fun digit =>
      orPanic "attempt to subtract with overflow" (checkedSub digit.toNat 48)) =
        .ok (digitsOf (coefficientChars literal)) := mapM_digits coefficientChars_digits
  unfold exactFiniteDouble
  rw [hparse, orNone, ok_bind, splitDecimal_text h]
  dsimp only
  rw [hmapM, ok_bind]
  rfl

/-- **A canonical number other than zero is exported as the double it is parsed to, exactly when
binary64 has it.** -/
theorem exactFiniteDouble_spec (h : literal.Canonical) (hvalue : literal.value ≠ 0)
    {x : Float64}
    (hparse : parse (String.ofList literal.text) = some x) (hrounds : RoundsTo literal.value x) :
    (Dyadic64 literal.value →
      exactFiniteDouble parse (String.ofList literal.text) = .ok x) ∧
    (¬ Dyadic64 literal.value →
      exactFiniteDouble parse (String.ofList literal.text) = none?) := by
  have hcoefficient : literal.coefficient ≠ 0 := fun hzero =>
    hvalue (literal.value_eq_zero_iff.mpr hzero)
  have hnonempty : (digitsOf (coefficientChars literal)).isEmpty = false := by
    rw [Bool.eq_false_iff]
    intro hempty
    refine hcoefficient ?_
    rw [← digitsNat_coefficient, List.isEmpty_iff.mp hempty]
    rfl
  have hspec (hlong : (digitsOf (coefficientChars literal)).length ≤ maxExactDecimalDigits) :=
    checkCoefficient_spec (s := literal.places.length) x
      (digitsOf_decimal (@coefficientChars_digits literal)) (by rwa [digitsNat_coefficient]) hlong
  rw [digitsNat_coefficient, ← dyadic64_literal h] at hspec
  rw [exactFiniteDouble_eq h hparse, hnonempty, if_neg Bool.false_ne_true]
  constructor
  · intro hdyadic
    have hx := hrounds.exact_ hdyadic
    have hnotZero : ¬(x == (.ofScientific 0 0 : Float64)) = true := by
      intro hzero
      have hzeroValue : (.ofScientific 0 0 : Float64).unpack = .zero .positive := by rfl
      rw [toRat?_of_beq_zero hzeroValue hzero, Option.some.injEq] at hx
      exact hvalue hx.symm
    have hsmall := lt_ten_pow_of_dyadic64 (le_refl maxExactDecimalDigits) hcoefficient
      h.coefficient_mod ((dyadic64_literal h).mp hdyadic)
    have hlong : (digitsOf (coefficientChars literal)).length ≤ maxExactDecimalDigits := by
      rw [digitsOf, List.length_map]
      exact length_coefficientChars hsmall
    rw [isFinite_of_toRat? hx, if_neg (by decide), if_neg (not_or.mpr ⟨Nat.not_lt.mpr hlong, hnotZero⟩)]
    exact (hspec hlong).1 hdyadic
  · intro hnot
    split
    · rfl
    · split
      · rfl
      · rename_i hchecked
        exact (hspec (Nat.not_lt.mp (not_or.mp hchecked).1)).2 hnot

/-- The number of a literal without a point. -/
def signedCoefficient (literal : DecimalLiteral) : Int :=
  if literal.negative then -(literal.coefficient : Int) else literal.coefficient

/-- A canonical text is parsed as an integer when it has no point. -/
theorem parseInt?_text (h : literal.Canonical) :
    parseInt? literal.text =
      if literal.fraction = none then some (signedCoefficient literal) else none := by
  have hexponent : literal.exponentText = [] := by
    rw [DecimalLiteral.exponentText, h.plain]
    rfl
  obtain ⟨c, rest, hhead, hc⟩ := literal.mantissaText_head
  have hminus : c ≠ '-' := by
    rintro rfl
    exact absurd hc (by decide)
  have hall : literal.mantissaText.all Char.isDigit = decide (literal.fraction = none) := by
    unfold DecimalLiteral.mantissaText
    rw [List.all_append, List.all_eq_true.mpr literal.integer_digits, Bool.true_and]
    cases literal.fraction with
    | none => rfl
    | some places => rfl
  have hnonempty : literal.mantissaText.isEmpty = false := by rw [hhead]; rfl
  have hvalue (hfraction : literal.fraction = none) :
      Lib.digitsValue literal.mantissaText = literal.coefficient := by
    unfold DecimalLiteral.mantissaText DecimalLiteral.coefficient DecimalLiteral.places
    rw [hfraction]
    rfl
  have hguard : (!literal.mantissaText.isEmpty && literal.mantissaText.all Char.isDigit) = true ↔
      literal.fraction = none := by
    rw [hnonempty, hall]
    simp
  unfold DecimalLiteral.text signedCoefficient DecimalLiteral.negative
  rw [hexponent, List.append_nil]
  cases hsign : literal.sign with
  | none =>
    rw [signText, List.nil_append]
    have hplain : parseInt? literal.mantissaText =
        if !literal.mantissaText.isEmpty && literal.mantissaText.all Char.isDigit then
          some (Lib.digitsValue literal.mantissaText : Int) else none := by
      rw [hhead]
      unfold parseInt?
      split
      · rename_i tail heq
        exact absurd (List.cons.inj heq).1 hminus
      · rfl
    rw [hplain]
    by_cases hfraction : literal.fraction = none
    · rw [if_pos (hguard.mpr hfraction), if_pos hfraction, hvalue hfraction]
      rfl
    · rw [if_neg fun hdigits => hfraction (hguard.mp hdigits), if_neg hfraction]
  | some minus =>
    cases minus with
    | false => exact absurd hsign h.unsigned
    | true =>
      rw [signText, List.singleton_append, parseInt?]
      by_cases hfraction : literal.fraction = none
      · rw [if_pos (hguard.mpr hfraction), if_pos hfraction, hvalue hfraction]
        rfl
      · rw [if_neg fun hdigits => hfraction (hguard.mp hdigits), if_neg hfraction]

/-- A canonical literal that is an integer has no point. -/
theorem value_eq_int_iff (h : literal.Canonical) (number : Int) :
    literal.value = number ↔ literal.fraction = none ∧ signedCoefficient literal = number := by
  have hvalue : literal.value =
      (signedCoefficient literal : ℚ) * 10 ^ (-(literal.places.length : Int)) := by
    unfold DecimalLiteral.value signedCoefficient
    rw [h.power_eq, zero_sub]
    cases literal.negative <;> simp
  have hten : (10 : ℚ) ^ literal.places.length ≠ 0 := pow_ne_zero _ (by norm_num)
  cases hfraction : literal.fraction with
  | none =>
    have hplaces : literal.places.length = 0 := by
      unfold DecimalLiteral.places
      rw [hfraction]
      rfl
    rw [hvalue, hplaces]
    simp
  | some places =>
    obtain ⟨before, c, hends, -⟩ := h.trailing places hfraction
    have hpos : 0 < literal.places.length := by
      unfold DecimalLiteral.places
      rw [hfraction, hends]
      simp
    refine iff_of_false (fun heq => ?_) (by simp)
    rw [hvalue, zpow_neg, zpow_natCast, ← div_eq_mul_inv, div_eq_iff hten] at heq
    have hint : signedCoefficient literal = number * 10 ^ literal.places.length := by
      exact_mod_cast heq
    have hdvd : (10 : Int) ∣ signedCoefficient literal := by
      rw [hint]
      exact Dvd.dvd.mul_left (dvd_pow_self 10 hpos.ne') number
    refine h.coefficient_mod hpos ?_
    unfold signedCoefficient at hdvd
    split at hdvd <;> omega

/-- **A canonical number is parsed as an `i64` when it is one.** -/
theorem parseI64_text (h : literal.Canonical) (number : Int) :
    parseI64 (String.ofList literal.text) = some number ↔
      literal.value = number ∧ -2 ^ 63 ≤ number ∧ number < 2 ^ 63 := by
  unfold parseI64
  rw [String.toList_ofList, parseInt?_text h, value_eq_int_iff h, Option.filter_eq_some_iff,
    Option.ite_none_right_eq_some, Option.some.injEq, decide_eq_true_eq]

/-- What is exported of a canonical number, by the double it is parsed to. -/
theorem exactCounterValue_spec (h : literal.Canonical) {x : Float64}
    (hparse : parse (String.ofList literal.text) = some x) (hrounds : RoundsTo literal.value x) :
    (∃ number : Int, literal.value = number ∧ -2 ^ 63 ≤ number ∧ number < 2 ^ 63 ∧
      exactCounterValue parse (String.ofList literal.text) = .ok (.integer number)) ∨
    ((∀ number : Int, literal.value = number → ¬(-2 ^ 63 ≤ number ∧ number < 2 ^ 63)) ∧
      ((Dyadic64 literal.value ∧ toRat? x = some literal.value ∧
        exactCounterValue parse (String.ofList literal.text) = .ok (.double x)) ∨
      (¬ Dyadic64 literal.value ∧
        exactCounterValue parse (String.ofList literal.text) = none?))) := by
  have hinteger := parseI64_text h
  unfold exactCounterValue
  cases hi64 : parseI64 (String.ofList literal.text) with
  | some number =>
    obtain ⟨hvalue, hlow, hhigh⟩ := (hinteger number).mp hi64
    exact .inl ⟨number, hvalue, hlow, hhigh, rfl⟩
  | none =>
    have hnot (number : Int) (hvalue : literal.value = number) :
        ¬(-2 ^ 63 ≤ number ∧ number < 2 ^ 63) := by
      intro hrange
      rw [(hinteger number).mpr ⟨hvalue, hrange⟩] at hi64
      cases hi64
    have hvalue : literal.value ≠ 0 := by
      intro hzero
      exact hnot 0 (by rw [hzero]; rfl) (by decide)
    obtain ⟨hexact, hrefused⟩ := exactFiniteDouble_spec h hvalue hparse hrounds
    refine .inr ⟨hnot, ?_⟩
    by_cases hdyadic : Dyadic64 literal.value
    · refine .inl ⟨hdyadic, hrounds.exact_ hdyadic, ?_⟩
      rw [hexact hdyadic]
      rfl
    · refine .inr ⟨hdyadic, ?_⟩
      rw [hrefused hdyadic]
      rfl

end Literal

end Digitwise

/-! ## The same on numbers -/

open Digitwise (Decimal digitsNat digitsOf coefficientChars orNone none?)

theorem divideByFives_eq (times value : Nat) :
    divideByFives times value =
      if 5 ^ times ∣ value then some (value / 5 ^ times) else none := by
  induction times generalizing value with
  | zero => simp [divideByFives]
  | succ times ih =>
    rw [divideByFives]
    by_cases hfive : 5 ∣ value
    · have hdvd : 5 ^ times ∣ value / 5 ↔ 5 ^ (times + 1) ∣ value := by
        rw [pow_succ, mul_comm, Nat.dvd_div_iff_mul_dvd hfive]
      rw [if_pos (Nat.mod_eq_zero_of_dvd hfive), ih, pow_succ, mul_comm, ← Nat.div_div_eq_div_mul]
      rw [pow_succ, mul_comm] at hdvd
      simp only [hdvd]
    · rw [if_neg fun hzero => hfive (Nat.dvd_of_mod_eq_zero hzero), if_neg]
      exact fun hdvd => hfive ((Dvd.intro_left _ (pow_succ 5 times).symm).trans hdvd)

theorem stripTwos_eq {value : Nat} (hvalue : value ≠ 0) :
    Odd (stripTwos value).1 ∧ value = (stripTwos value).1 * 2 ^ (stripTwos value).2 := by
  induction value using Nat.strongRecOn with
  | ind value ih =>
    rw [stripTwos]
    by_cases heven : value % 2 = 0
    · obtain ⟨hodd, hproduct⟩ := ih (value / 2) (by omega) (by omega)
      rw [dif_pos ⟨heven, hvalue⟩]
      refine ⟨hodd, ?_⟩
      dsimp only
      rw [pow_succ, ← mul_assoc, ← hproduct]
      omega
    · rw [dif_neg fun h => heven h.1, Nat.odd_iff]
      exact ⟨by dsimp only; omega, by simp⟩

/-- The end of `exact_finite_double` on numbers. -/
def checkNumber (c s : Nat) (parsed : Float64) : Option Float64 := do
  let value ← divideByFives s c
  let (odd, factorsOfTwo) := stripTwos value
  let binaryExponent : Int := factorsOfTwo - s
  if 2 ^ 53 ≤ odd then none
  else if binaryExponent < -1074 ∨ 1023 < binaryExponent + Nat.log2 odd then none
  else some parsed

theorem checkNumber_spec {c s : Nat} (parsed : Float64) (hc : c ≠ 0) :
    (Dyadic64 ((c : ℚ) * 10 ^ (-(s : ℤ))) → checkNumber c s parsed = some parsed) ∧
    (¬ Dyadic64 ((c : ℚ) * 10 ^ (-(s : ℤ))) → checkNumber c s parsed = none) := by
  rw [dyadic64_iff hc]
  unfold checkNumber
  rw [divideByFives_eq]
  by_cases hfives : 5 ^ s ∣ c
  · obtain ⟨rest, rfl⟩ := hfives
    have hpow : 0 < 5 ^ s := Nat.pow_pos (by decide)
    have hrest : rest ≠ 0 := by
      rintro rfl
      exact hc (Nat.mul_zero _)
    obtain ⟨hodd, hproduct⟩ := stripTwos_eq hrest
    rw [if_pos (Dvd.intro rest rfl), Nat.mul_div_cancel_left _ hpow]
    dsimp only [Option.bind_eq_bind, Option.bind_some]
    generalize hstripped : stripTwos rest = stripped at hodd hproduct ⊢
    obtain ⟨odd, k⟩ := stripped
    dsimp only at hodd hproduct ⊢
    have hunique {other j : Nat} (hother : Odd other)
        (h : 5 ^ s * rest = 5 ^ s * (other * 2 ^ j)) : odd = other ∧ k = j := by
      rw [hproduct] at h
      exact odd_mul_two_pow_inj hodd hother (Nat.eq_of_mul_eq_mul_left hpow h)
    constructor
    · rintro ⟨other, j, hdecomposed, hother, hsmall, hlow, hhigh⟩
      obtain ⟨rfl, rfl⟩ := hunique hother hdecomposed
      rw [if_neg (Nat.not_le.mpr hsmall), if_neg (by omega)]
    · intro hnot
      split
      · rfl
      · rename_i hsmall
        rw [if_pos]
        by_contra hrange
        refine hnot ⟨odd, k, by rw [hproduct], hodd, Nat.not_le.mp hsmall, ?_, ?_⟩ <;> omega
  · rw [if_neg hfives]
    refine ⟨?_, fun _ => rfl⟩
    rintro ⟨odd, k, hproduct, -⟩
    exact absurd ⟨_, hproduct⟩ hfives

/-- The function on numbers, with the same tests in front. -/
theorem exactFiniteDouble_tests {literal : DecimalLiteral} (h : literal.Canonical) :
    exactFiniteDouble (String.ofList literal.text) =
      if (!(parseFloat literal.text).isFinite) = true then none
      else if (coefficientChars literal).isEmpty = true then
        if (parseFloat literal.text == (.ofScientific 0 0 : Float64)) = true then
          some (parseFloat literal.text) else none
      else if (decide (2048 < (coefficientChars literal).length) ||
          parseFloat literal.text == (.ofScientific 0 0 : Float64)) = true then none
      else checkNumber (Lib.digitsValue (coefficientChars literal)) literal.places.length
        (parseFloat literal.text) := by
  obtain ⟨hinteger, hplaces⟩ := Prod.mk.inj (Digitwise.splitDecimal_text h)
  rw [String.toList_ofList] at hinteger hplaces
  unfold coefficientChars
  rw [← hinteger, ← hplaces]
  unfold exactFiniteDouble
  rw [String.toList_ofList]
  rfl

/-- **The numbers of the exporter's plan are those of the digits.** -/
theorem exactCounterValue_digitwise {literal : DecimalLiteral} (h : literal.Canonical) :
    Digitwise.exactCounterValue (fun value => some (parseFloat value.toList))
        (String.ofList literal.text) =
      orNone (exactCounterValue (String.ofList literal.text)) := by
  unfold Digitwise.exactCounterValue exactCounterValue
  cases parseI64 (String.ofList literal.text) with
  | some number => rfl
  | none =>
    have hdouble : Digitwise.exactFiniteDouble (fun value => some (parseFloat value.toList))
        (String.ofList literal.text) = orNone (exactFiniteDouble (String.ofList literal.text)) := by
      rw [Digitwise.exactFiniteDouble_eq h rfl, exactFiniteDouble_tests h, String.toList_ofList]
      have hempty : (digitsOf (coefficientChars literal)).isEmpty =
          (coefficientChars literal).isEmpty := by
        rw [digitsOf, List.isEmpty_map]
      have hlength : (digitsOf (coefficientChars literal)).length =
          (coefficientChars literal).length := List.length_map _
      rw [hempty, hlength, Digitwise.coefficientChars_value]
      split
      · rfl
      split
      · split <;> rfl
      rename_i hnonempty
      have hcoefficient : literal.coefficient ≠ 0 := fun hzero =>
        hnonempty (List.isEmpty_iff.mpr (Digitwise.coefficientChars_eq_nil hzero))
      have htests : (decide (2048 < (coefficientChars literal).length) ||
          parseFloat literal.text == (.ofScientific 0 0 : Float64)) = true ↔
          Digitwise.maxExactDecimalDigits < (coefficientChars literal).length ∨
            (parseFloat literal.text == (.ofScientific 0 0 : Float64)) = true := by
        rw [Bool.or_eq_true, decide_eq_true_eq]
        rfl
      by_cases hguard : Digitwise.maxExactDecimalDigits < (coefficientChars literal).length ∨
          (parseFloat literal.text == (.ofScientific 0 0 : Float64)) = true
      · rw [if_pos hguard, if_pos (htests.mpr hguard)]
        rfl
      · rw [if_neg hguard, if_neg fun h => hguard (htests.mp h)]
        have hlong : (digitsOf (coefficientChars literal)).length ≤ Digitwise.maxExactDecimalDigits := by
          rw [hlength]
          exact Nat.not_lt.mp (not_or.mp hguard).1
        obtain ⟨hexact, hrefused⟩ := Digitwise.checkCoefficient_spec (s := literal.places.length)
          (parseFloat literal.text) (Digitwise.digitsOf_decimal (@Digitwise.coefficientChars_digits literal))
          (by rwa [Digitwise.digitsNat_coefficient]) hlong
        obtain ⟨hnumber, hnone⟩ := checkNumber_spec (s := literal.places.length)
          (parseFloat literal.text) hcoefficient
        rw [Digitwise.digitsNat_coefficient] at hexact hrefused
        by_cases hdyadic : Dyadic64 ((literal.coefficient : ℚ) * 10 ^ (-(literal.places.length : ℤ)))
        · rw [hexact hdyadic, hnumber hdyadic]
          rfl
        · rw [hrefused hdyadic, hnone hdyadic]
          rfl
    dsimp only
    rw [hdouble]
    cases exactFiniteDouble (String.ofList literal.text) <;> rfl

/-! ## The export of counters -/

/-- A number that an `i64` has. -/
def IsI64 (number : ℚ) : Prop := ∃ integer : Int, number = integer ∧ -2 ^ 63 ≤ integer ∧ integer < 2 ^ 63

/-- **Counters are exported exactly or not at all.** A canonical number that is an `i64` is exported as
that integer; another one is exported as a double exactly when binary64 has it, as the double that it
is parsed to, which then stands for that number; every other one is left out. Nothing panics.

The totals kept over any usages are the texts of their sums, whether the digits are added in bytes or
not; so are the totals of the projector of a trace, over all events that it has projected; and the run
aggregate of the usage projector has the same totals. -/
theorem counter_export_exact :
    (∀ (literal : DecimalLiteral) (parse : String → Option Float64) (x : Float64), literal.Canonical →
      parse (String.ofList literal.text) = some x → RoundsTo literal.value x →
      (∀ integer : Int,
        Digitwise.exactCounterValue parse (String.ofList literal.text) = .ok (.integer integer) ↔
          literal.value = integer ∧ -2 ^ 63 ≤ integer ∧ integer < 2 ^ 63) ∧
      (∀ y, Digitwise.exactCounterValue parse (String.ofList literal.text) = .ok (.double y) ↔
        ¬ IsI64 literal.value ∧ Dyadic64 literal.value ∧ y = x) ∧
      (Dyadic64 literal.value → toRat? x = some literal.value) ∧
      (Digitwise.exactCounterValue parse (String.ofList literal.text) = none? ↔
        ¬ IsI64 literal.value ∧ ¬ Dyadic64 literal.value) ∧
      ∀ message,
        Digitwise.exactCounterValue parse (String.ofList literal.text) ≠ .error (.panicked message)) ∧
    (∀ usages : List ActTokenUsageFinalized,
      Digitwise.usageTotals usages = .ok fun field => (knownSum field usages).repr) ∧
    (∀ plan events packets projector,
      PacketProjector.projectEvents plan .new events = .ok (packets, projector) →
      ∀ field, projector.usageTotals field = (knownSum field (events.filterMap finalizedUsage?)).repr) ∧
    ∀ runId events model, Store.projectUsage runId events = .ok model →
      ∀ field, ((fieldAggregate model.aggregate field).knownSum.map (·.value)).getD "0" =
        (knownSum field (events.filterMap finalizedUsage?)).repr := by
  refine ⟨fun literal parse x h hparse hrounds => ?_, usageTotals_digitwise, ?_, ?_⟩
  · have hexact (hdyadic : Dyadic64 literal.value) := hrounds.exact_ hdyadic
    rcases Digitwise.exactCounterValue_spec h hparse hrounds with
      ⟨number, hvalue, hlow, hhigh, hresult⟩ | ⟨hnot, ⟨hdyadic, -, hresult⟩ | ⟨hdyadic, hresult⟩⟩
    · have hi64 : IsI64 literal.value := ⟨number, hvalue, hlow, hhigh⟩
      rw [hresult]
      refine ⟨fun integer => ⟨?_, fun hinteger => ?_⟩, fun y => ?_, hexact, ?_, fun message => nofun⟩
      · rintro ⟨⟩
        exact ⟨hvalue, hlow, hhigh⟩
      · have hsame : number = integer := by
          rw [hvalue] at hinteger
          exact_mod_cast hinteger.1
        rw [hsame]
      · exact iff_of_false (fun heq => (nomatch heq)) fun hdouble => hdouble.1 hi64
      · exact iff_of_false (fun heq => (nomatch heq)) fun hnone => hnone.1 hi64
    · have hi64 : ¬ IsI64 literal.value := fun ⟨integer, hvalue, hrange⟩ => hnot integer hvalue hrange
      rw [hresult]
      refine ⟨fun integer => ?_, fun y => ⟨?_, ?_⟩, hexact, ?_, fun message => nofun⟩
      · exact iff_of_false (fun heq => (nomatch heq)) fun hinteger => hnot integer hinteger.1 hinteger.2
      · rintro ⟨⟩
        exact ⟨hi64, hdyadic, rfl⟩
      · rintro ⟨-, -, rfl⟩
        rfl
      · exact iff_of_false (fun heq => (nomatch heq)) fun hnone => hnone.2 hdyadic
    · have hi64 : ¬ IsI64 literal.value := fun ⟨integer, hvalue, hrange⟩ => hnot integer hvalue hrange
      rw [hresult]
      refine ⟨fun integer => ?_, fun y => ?_, hexact, ⟨fun _ => ⟨hi64, hdyadic⟩, fun _ => rfl⟩,
        fun message => nofun⟩
      · exact iff_of_false (fun heq => (nomatch heq)) fun hinteger => hnot integer hinteger.1 hinteger.2
      · exact iff_of_false (fun heq => (nomatch heq)) fun hdouble => hdyadic hdouble.2.1
  · intro plan events packets projector h field
    have hnew : PacketProjector.new.usageTotals = exactTotals [] := exactTotals_nil.symm
    rw [projectEvents_usageTotals hnew h]
    rfl
  · intro runId events model h field
    exact usageTotals_eq_projector h field

/-- The literal `1.5`. -/
def oneAndAHalf : DecimalLiteral where
  sign := none
  integer := ['1']
  fraction := some ['5']
  exponent := none
  digit := List.all_eq_true.mp (by decide)
  nonempty := by decide

/-- It is exported as a double. -/
theorem counter_export_exact_shown : Digitwise.exactCounterValue
    (fun _ => some (.ofScientific 15 (-1))) (String.ofList oneAndAHalf.text) =
      .ok (.double (.ofScientific 15 (-1))) := by
  have hvalue : oneAndAHalf.value = 3 / 2 := by
    have hcoefficient : oneAndAHalf.coefficient = 15 := by decide
    have hplaces : oneAndAHalf.places.length = 1 := rfl
    have hpower : oneAndAHalf.power = 0 := rfl
    have hsign : oneAndAHalf.negative = false := rfl
    rw [DecimalLiteral.value, hcoefficient, hplaces, hpower, hsign]
    norm_num
  have hcanonical : oneAndAHalf.Canonical := {
    unsigned := fun h => (nomatch h)
    plain := rfl
    leading := .inr ⟨'1', [], rfl, by decide⟩
    trailing := fun places hplaces => ⟨[], '5', (Option.some.inj hplaces).symm, by decide⟩
    zero := fun h => by
      rw [hvalue] at h
      norm_num at h }
  have hunpack : ∃ hpos, (.ofScientific 15 (-1) : Float64).unpack =
      .finite .positive 6755399441055744 (-52) hpos := ⟨by decide, by rfl⟩
  have htoRat : toRat? (.ofScientific 15 (-1)) = some (3 / 2) := by
    obtain ⟨hpos, hunpack⟩ := hunpack
    unfold toRat?
    rw [hunpack]
    norm_num
  have hdyadic : Dyadic64 (3 / 2) := by
    refine ⟨3, -1, by decide, by decide, by decide, ?_, by norm_num [abs_of_pos]⟩
    exact (mul_zpow_lt_iff (by decide) _).mpr (by decide)
  have hrounds := RoundsTo.of_toRat? hdyadic htoRat
  rw [← hvalue] at hrounds hdyadic
  refine ((counter_export_exact.1 oneAndAHalf _ _ hcanonical rfl hrounds).2.1 _).mpr
    ⟨?_, hdyadic, rfl⟩
  rintro ⟨integer, hinteger, -⟩
  rw [hvalue, div_eq_iff (by norm_num)] at hinteger
  have hint : (3 : Int) = integer * 2 := by exact_mod_cast hinteger
  omega

end Troupe.Perfetto
