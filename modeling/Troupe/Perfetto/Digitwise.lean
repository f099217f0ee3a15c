import Mathlib.Data.Nat.Size
import Troupe.Lib.Decimal
import Troupe.Perfetto.Project

/-! # Counter values digit by digit

`exact_counter_value` of `identity.rs` and `add_nonnegative_decimal` of `project.rs` on the digits of
their texts, as the code has them. `Tracks` and `Project` have the same functions on numbers.

* A number is the list of its digits, the highest first. A canonical decimal is ASCII, so its bytes are
  its characters.
* Every operation on digits and counts that the code does not check is kept as one that can panic, as
  is each `expect`; `raised` is the `None` of a `?`.
* `str::parse::<f64>` is the parameter `parse`. -/

namespace Troupe.Perfetto.Digitwise

open Troupe.Lib Troupe.Core

/-! ## Options and panics -/

/-- A `?` on an `Option`. -/
def orNone {α : Type} : Option α → Except (Fault Unit) α
  | some value => .ok value
  | none => .error (.raised ())

/-- An `expect`, or an operation that panics when it overflows. -/
def orPanic {α : Type} (message : String) : Option α → Except (Fault Unit) α
  | some value => .ok value
  | none => .error (.panicked message)

/-- The `None` of a function. -/
def none? {α : Type} : Except (Fault Unit) α := .error (.raised ())

/-- `u8::MAX`. -/
def u8Max : Nat := 2 ^ 8 - 1

/-- `u16::MAX`. -/
def u16Max : Nat := 2 ^ 16 - 1

/-- A value of an `i32`. -/
def toI32 (value : Int) : Option Int :=
  if -2 ^ 31 ≤ value ∧ value < 2 ^ 31 then some value else none

/-! ## Division -/

/-- The loop of `divide_decimal_exact`: the quotients of the digits and what is left. -/
def divideDigits (divisor : Nat) : Nat → List Nat → Except (Fault Unit) (List Nat × Nat)
  | remainder, [] => .ok ([], remainder)
  | remainder, digit :: rest => do
    let scaled ← orPanic "attempt to multiply with overflow"
      (if remainder * 10 ≤ u16Max then some (remainder * 10) else none)
    let current ← orPanic "attempt to add with overflow" (checkedAdd u16Max scaled digit)
    let quotient ← orNone (if current / divisor ≤ u8Max then some (current / divisor) else none)
    let (quotients, left) ← divideDigits divisor (current % divisor) rest
    return (quotient :: quotients, left)

/-- `divide_decimal_exact`; the zeros in front of the first digit that is none are drained. -/
def divideDecimalExact (digits : List Nat) (divisor : Nat) : Except (Fault Unit) (List Nat) := do
  let (quotients, remainder) ← divideDigits divisor 0 digits
  if remainder ≠ 0 then none? else return quotients.dropWhile (· = 0)

/-- The number the digits stand for, behind `start`. -/
def digitsNat (start : Nat) (digits : List Nat) : Nat :=
  digits.foldl (fun total digit => total * 10 + digit) start

theorem digitsNat_cons (start digit : Nat) (rest : List Nat) :
    digitsNat start (digit :: rest) = digitsNat (start * 10 + digit) rest := rfl

theorem digitsNat_start (start : Nat) (digits : List Nat) :
    digitsNat start digits = start * 10 ^ digits.length + digitsNat 0 digits := by
  induction digits generalizing start with
  | nil => simp [digitsNat]
  | cons digit rest ih =>
    rw [digitsNat_cons, digitsNat_cons, ih, ih (0 * 10 + digit), List.length_cons, Nat.pow_succ]
    ring

theorem digitsNat_dropWhile (digits : List Nat) :
    digitsNat 0 (digits.dropWhile (· = 0)) = digitsNat 0 digits := by
  induction digits with
  | nil => rfl
  | cons digit rest ih =>
    by_cases hzero : digit = 0
    · rw [List.dropWhile_cons_of_pos (by simpa using hzero), ih, hzero]
      rfl
    · rw [List.dropWhile_cons_of_neg (by simpa using hzero)]

/-- Only zeros stand for zero. -/
theorem dropWhile_eq_nil {digits : List Nat} (h : digitsNat 0 digits = 0) :
    digits.dropWhile (· = 0) = [] := by
  induction digits with
  | nil => rfl
  | cons digit rest ih =>
    rw [digitsNat_cons, digitsNat_start] at h
    have hfirst : digit = 0 := by
      by_contra hne
      have hpos : 0 < (0 * 10 + digit) * 10 ^ rest.length :=
        Nat.mul_pos (by omega) (Nat.pow_pos (by decide))
      omega
    rw [List.dropWhile_cons_of_pos (by simpa using hfirst)]
    exact ih (by omega)

/-- A division that returns is one. -/
theorem divideDigits_value {divisor remainder left : Nat} {digits quotients : List Nat}
    (h : divideDigits divisor remainder digits = .ok (quotients, left)) :
    digitsNat remainder digits = divisor * digitsNat 0 quotients + left ∧
      quotients.length = digits.length := by
  induction digits generalizing remainder quotients with
  | nil =>
    cases h
    exact ⟨by simp [digitsNat], rfl⟩
  | cons digit rest ih =>
    obtain ⟨scaled, hscaled, h⟩ := bind_eq_ok.mp h
    obtain ⟨current, hcurrent, h⟩ := bind_eq_ok.mp h
    obtain ⟨quotient, hquotient, h⟩ := bind_eq_ok.mp h
    obtain ⟨⟨more, final⟩, hmore, h⟩ := bind_eq_ok.mp h
    cases h
    have hscaledEq : scaled = remainder * 10 := by
      split at hscaled
      · cases hscaled
        rfl
      · cases hscaled
    have hcurrentEq : current = remainder * 10 + digit := by
      cases hadd : checkedAdd u16Max scaled digit with
      | none =>
        rw [hadd] at hcurrent
        cases hcurrent
      | some sum =>
        rw [hadd] at hcurrent
        cases hcurrent
        rw [(checkedAdd_eq_some.mp hadd).2, hscaledEq]
    have hquotientEq : quotient = current / divisor := by
      split at hquotient
      · cases hquotient
        rfl
      · cases hquotient
    obtain ⟨hvalue, hlength⟩ := ih hmore
    refine ⟨?_, by rw [List.length_cons, List.length_cons, hlength]⟩
    have hsplit := Nat.div_add_mod current divisor
    rw [← hquotientEq] at hsplit
    rw [digitsNat_cons, ← hcurrentEq, digitsNat_start, ← hsplit, digitsNat_cons,
      digitsNat_start (0 * 10 + quotient), hlength]
    rw [digitsNat_start] at hvalue
    calc (divisor * quotient + current % divisor) * 10 ^ rest.length + digitsNat 0 rest
      _ = divisor * quotient * 10 ^ rest.length +
          (current % divisor * 10 ^ rest.length + digitsNat 0 rest) := by ring
      _ = divisor * ((0 * 10 + quotient) * 10 ^ rest.length + digitsNat 0 more) + left := by
        rw [hvalue]
        ring

/-- An exact division by two makes a number smaller, or the list of its digits. -/
theorem divideDecimalExact_smaller {digits quotients : List Nat} (hsome : digits ≠ [])
    (h : divideDecimalExact digits 2 = .ok quotients) :
    digitsNat 0 quotients + quotients.length < digitsNat 0 digits + digits.length := by
  obtain ⟨⟨raw, left⟩, hraw, h⟩ := bind_eq_ok.mp h
  dsimp only at h
  split at h
  · cases h
  rename_i hexact
  cases h
  obtain ⟨hvalue, hlength⟩ := divideDigits_value hraw
  have hle := (List.dropWhile_sublist (l := raw) (· = 0)).length_le
  rw [digitsNat_dropWhile]
  by_cases hzero : digitsNat 0 raw = 0
  · have hpos := List.length_pos_iff.mpr hsome
    rw [dropWhile_eq_nil hzero, List.length_nil]
    omega
  · omega

/-! ## Doubles -/

/-- The `for` loop of `exact_finite_double`. -/
def divideByFives : Nat → List Nat → Except (Fault Unit) (List Nat)
  | 0, coefficient => .ok coefficient
  | times + 1, coefficient => do
    let coefficient ← divideDecimalExact coefficient 5
    divideByFives times coefficient

/-- The division of the `while` loop, which is expected to be exact. -/
def divideByTwo (coefficient : List Nat) : Except (Fault Unit) (List Nat) :=
  match divideDecimalExact coefficient 2 with
  | .ok quotients => .ok quotients
  | .error (.raised ()) =>
    .error (.panicked "an even decimal integer is exactly divisible by two")
  | .error (.panicked message) => .error (.panicked message)

theorem divideByTwo_eq_ok {coefficient quotients : List Nat}
    (h : divideByTwo coefficient = .ok quotients) :
    divideDecimalExact coefficient 2 = .ok quotients := by
  unfold divideByTwo at h
  split at h
  · rename_i hquotients
    rw [hquotients, h]
  · cases h
  · cases h

/-- The `while` loop of `exact_finite_double`. -/
def stripTwos (coefficient : List Nat) (factorsOfTwo : Int) :
    Except (Fault Unit) (List Nat × Int) :=
  if _heven : coefficient.getLast?.any (· % 2 = 0) = true then
    match _hdivided : divideByTwo coefficient with
    | .error fault => .error fault
    | .ok quotients =>
      match toI32 (factorsOfTwo + 1) with
      | none => none?
      | some factorsOfTwo => stripTwos quotients factorsOfTwo
  else .ok (coefficient, factorsOfTwo)
termination_by digitsNat 0 coefficient + coefficient.length
decreasing_by
  refine divideDecimalExact_smaller ?_ (divideByTwo_eq_ok _hdivided)
  rintro rfl
  cases _heven

/-- `decimal_digits_to_u64`. -/
def decimalDigitsToU64 (digits : List Nat) : Except (Fault Unit) Nat :=
  digits.foldlM (fun value digit => do
    let scaled ← orNone (if value * 10 ≤ u64Max then some (value * 10) else none)
    orNone (checkedAdd u64Max scaled digit)) 0

/-- `MAX_EXACT_DECIMAL_DIGITS`. -/
def maxExactDecimalDigits : Nat := 2048

/-- `MAX_SIGNIFICAND`. -/
def maxSignificand : Nat := 2 ^ 53 - 1

/-- A text without its minus sign. -/
def unsignedText : List Char → List Char
  | '-' :: rest => rest
  | text => text

/-- The digits of a decimal without its sign, before and behind the point. -/
def splitDecimal (value : String) : List Char × List Char :=
  ((unsignedText value.toList).takeWhile (· ≠ '.'),
    ((unsignedText value.toList).dropWhile (· ≠ '.')).drop 1)

/-- Whether binary64 has the number of a coefficient and a scale. -/
def checkExponents (oddSignificand : Nat) (factorsOfTwo : Int) (scale : Nat) (parsed : Float64) :
    Except (Fault Unit) Float64 := do
  let significantBits ← orPanic "attempt to subtract with overflow"
    (checkedSub 64 (64 - Nat.size oddSignificand))
  let scale ← orNone (toI32 scale)
  let binaryExponent ← orNone (toI32 (factorsOfTwo - scale))
  let significantBits ← orNone (toI32 significantBits)
  let shift ← orPanic "attempt to subtract with overflow" (toI32 (significantBits - 1))
  let highestExponent ← orNone (toI32 (binaryExponent + shift))
  if binaryExponent < -1074 ∨ 1023 < highestExponent then none? else return parsed

/-- `exact_finite_double` behind the tests on the coefficient. -/
def checkCoefficient (coefficient : List Nat) (scale : Nat) (parsed : Float64) :
    Except (Fault Unit) Float64 := do
  let coefficient ← divideByFives scale coefficient
  let (coefficient, factorsOfTwo) ← stripTwos coefficient 0
  let oddSignificand ← decimalDigitsToU64 coefficient
  if maxSignificand < oddSignificand then none?
  else checkExponents oddSignificand factorsOfTwo scale parsed

/-- `exact_finite_double`. -/
def exactFiniteDouble (parse : String → Option Float64) (value : String) :
    Except (Fault Unit) Float64 := do
  let parsed ← orNone (parse value)
  let zero : Float64 := .ofScientific 0 0
  let (integer, fraction) := splitDecimal value
  if !parsed.isFinite then none?
  else
    let coefficient ← ((integer ++ fraction).dropWhile (· == '0')).mapM fun digit =>
      orPanic "attempt to subtract with overflow" (checkedSub digit.toNat 48)
    if coefficient.isEmpty then if parsed == zero then return parsed else none?
    else if maxExactDecimalDigits < coefficient.length ∨ (parsed == zero) = true then none?
    else checkCoefficient coefficient fraction.length parsed

/-- `exact_counter_value`. -/
def exactCounterValue (parse : String → Option Float64) (value : String) :
    Except (Fault Unit) ExactCounterValue :=
  match parseI64 value with
  | some integer => .ok (.integer integer)
  | none => (exactFiniteDouble parse value).map .double

/-! ## Sums -/

/-- A digit, or the zero behind the last one. -/
def digitOr : Option Char → Except (Fault Unit) Nat
  | none => .ok 0
  | some digit => orPanic "attempt to subtract with overflow" (checkedSub digit.toNat 48)

/-- The sum of two digits and a carry, in a `u8`. -/
def sumDigits (left right : Option Char) (carry : Nat) : Except (Fault Unit) Nat := do
  let left ← digitOr left
  let right ← digitOr right
  let sum ← orPanic "attempt to add with overflow" (checkedAdd u8Max left right)
  orPanic "attempt to add with overflow" (checkedAdd u8Max sum carry)

/-- Without digits the sum is the carry. -/
theorem sumDigits_none {carry sum : Nat} (h : sumDigits none none carry = .ok sum) :
    sum = carry := by
  unfold sumDigits digitOr at h
  rw [ok_bind, ok_bind, checkedAdd_of_le (by decide), orPanic, ok_bind] at h
  cases hadd : checkedAdd u8Max (0 + 0) carry with
  | none =>
    rw [hadd] at h
    cases h
  | some total =>
    rw [hadd] at h
    cases h
    rw [(checkedAdd_eq_some.mp hadd).2]
    omega

/-- The loop of `add_nonnegative_decimal`; the lowest digit is first. -/
def addLoop (carry : Nat) (left right : List Char) : Except (Fault Unit) (List UInt8) :=
  if _hdone : left = [] ∧ right = [] ∧ carry = 0 then .ok []
  else
    match _hsum : sumDigits left.head? right.head? carry with
    | .error fault => .error fault
    | .ok sum => do
      let digit ← orPanic "attempt to add with overflow" (checkedAdd u8Max 48 (sum % 10))
      let digits ← addLoop (sum / 10) left.tail right.tail
      return UInt8.ofNat digit :: digits
termination_by (left.length + right.length, carry)
decreasing_by
  by_cases hempty : left = [] ∧ right = []
  · obtain ⟨rfl, rfl⟩ := hempty
    have hcarry := sumDigits_none _hsum
    refine Prod.Lex.right _ ?_
    simp only [true_and] at _hdone
    omega
  · refine Prod.Lex.left _ _ ?_
    have hleft := @List.length_pos_iff _ left
    have hright := @List.length_pos_iff _ right
    rw [List.length_tail, List.length_tail]
    by_cases hnil : left = []
    · have hpos := hright.mpr fun h => hempty ⟨hnil, h⟩
      omega
    · have hpos := hleft.mpr hnil
      omega

/-- `add_nonnegative_decimal`. -/
def addNonnegativeDecimal (total amount : String) : Except (Fault Unit) String := do
  let digits ← addLoop 0 total.toList.reverse amount.toList.reverse
  orPanic "decimal addition emits ASCII digits" (String.fromUTF8? ⟨digits.reverse.toArray⟩)

/-- The loop of `act_usage` over the values of a usage. -/
def addUsage (totals : UsageField → String) (values : List (UsageField × String)) :
    Except (Fault Unit) (UsageField → String) :=
  values.foldlM (fun totals (field, amount) => do
    let total ← addNonnegativeDecimal (totals field) amount
    return Function.update totals field total) totals

/-- The totals after some usages; a field has the total zero before its first value. -/
def usageTotals (usages : List ActTokenUsageFinalized) : Except (Fault Unit) (UsageField → String) :=
  usages.foldlM (fun totals usage => addUsage totals (UsageSummary.fromEvent usage).values) fun _ => "0"

end Troupe.Perfetto.Digitwise
