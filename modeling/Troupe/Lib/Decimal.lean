import Mathlib.Algebra.Order.Field.Power
import Mathlib.Algebra.Order.Field.Rat
import Mathlib.Data.List.Induction
import Mathlib.Tactic.Ring
import Troupe.Lib.Delimited
import Troupe.Lib.Number

/-! # Decimal literals

A decimal literal is an optional sign, digits with at most one point among them, and an optional
exponent; it denotes a rational number. Many literals denote one number. One of them is canonical: no
plus sign, no exponent, no zero that could be left out, and zero without a sign.

Results: **`Canonical.text_eq`**, a number has one canonical text, and **`text_injective`**, a text
is that of one literal. -/

namespace Troupe.Lib

variable {digits : List Char} {xs ys : List Char}

/-! ## Runs of digits -/

/-- Every character is a decimal digit. -/
def Digits (digits : List Char) : Prop := ∀ c ∈ digits, c.isDigit = true

theorem Digits.append (hx : Digits xs) (hy : Digits ys) : Digits (xs ++ ys) :=
  fun c hc => (List.mem_append.mp hc).elim (hx c) (hy c)

theorem digits_append : Digits (xs ++ ys) ↔ Digits xs ∧ Digits ys :=
  ⟨fun h => ⟨fun c hc => h c (List.mem_append_left _ hc), fun c hc =>
    h c (List.mem_append_right _ hc)⟩, fun h => h.1.append h.2⟩

theorem digits_replicate_zero (count : Nat) : Digits (List.replicate count '0') := by
  intro c hc
  rw [List.eq_of_mem_replicate hc]
  decide

theorem Digits.ne (h : Digits digits) {c d : Char} (hc : c ∈ digits)
    (hd : d.isDigit = false) : c ≠ d := by
  rintro rfl
  rw [h c hc] at hd
  cases hd

theorem isDigit_toNat {c : Char} (h : c.isDigit = true) : 48 ≤ c.toNat ∧ c.toNat ≤ 57 := by
  simp only [Char.isDigit, Bool.and_eq_true, decide_eq_true_eq] at h
  exact ⟨h.1, h.2⟩

theorem digitsValue_append (xs ys : List Char) :
    digitsValue (xs ++ ys) = digitsValue xs * 10 ^ ys.length + digitsValue ys := by
  unfold digitsValue
  rw [Nat.ofDigitChars_append, Nat.ofDigitChars_eq_ofDigitChars_zero, Nat.mul_comm]

theorem digitsValue_singleton (c : Char) : digitsValue [c] = c.toNat - 48 := by
  unfold digitsValue
  rw [Nat.ofDigitChars_cons, Nat.ofDigitChars_nil, Nat.mul_zero, Nat.zero_add]
  rfl

theorem digitsValue_concat (xs : List Char) (c : Char) :
    digitsValue (xs ++ [c]) = 10 * digitsValue xs + (c.toNat - 48) := by
  rw [digitsValue_append, digitsValue_singleton, List.length_singleton, Nat.pow_one, Nat.mul_comm]

theorem digitsValue_replicate_zero (count : Nat) : digitsValue (List.replicate count '0') = 0 := by
  unfold digitsValue
  rw [Nat.ofDigitChars_replicate_zero, Nat.mul_zero]

theorem digitsValue_lt (h : Digits digits) :
    digitsValue digits < 10 ^ digits.length := by
  induction digits using List.reverseRecOn with
  | nil => decide
  | append_singleton xs c ih =>
    obtain ⟨hxs, hc⟩ := digits_append.mp h
    have hlt := ih hxs
    have hdigit := isDigit_toNat (hc c (List.mem_singleton_self c))
    rw [digitsValue_concat, List.length_append, List.length_singleton, Nat.pow_succ]
    omega

/-- Digits whose first is not a zero stand for a number of that many places. -/
theorem le_digitsValue {c : Char} {rest : List Char} (h : Digits (c :: rest)) (hc : c ≠ '0') :
    10 ^ rest.length ≤ digitsValue (c :: rest) := by
  have hdigit := isDigit_toNat (h c List.mem_cons_self)
  have hzero : c.toNat ≠ 48 := fun heq => hc (Char.toNat_inj.mp heq)
  have hsplit := digitsValue_append [c] rest
  rw [List.singleton_append, digitsValue_singleton] at hsplit
  calc 10 ^ rest.length
    _ = 1 * 10 ^ rest.length := (Nat.one_mul _).symm
    _ ≤ (c.toNat - 48) * 10 ^ rest.length := Nat.mul_le_mul_right _ (by omega)
    _ ≤ digitsValue (c :: rest) := by rw [hsplit]; exact Nat.le_add_right _ _

/-- As many digits that stand for one number are the same. -/
theorem digitsValue_inj : ∀ {xs ys : List Char}, Digits xs → Digits ys → xs.length = ys.length →
    digitsValue xs = digitsValue ys → xs = ys := by
  intro xs
  induction xs using List.reverseRecOn with
  | nil =>
    intro ys _ _ hlength _
    exact (List.length_eq_zero_iff.mp hlength.symm).symm
  | append_singleton xs c ih =>
    intro ys hxs hys hlength hvalue
    rcases List.eq_nil_or_concat ys with rfl | ⟨ys, d, rfl⟩
    · simp at hlength
    · rw [List.concat_eq_append] at hys hvalue hlength ⊢
      obtain ⟨hxs, hc⟩ := digits_append.mp hxs
      obtain ⟨hys, hd⟩ := digits_append.mp hys
      have hcdigit := isDigit_toNat (hc c (List.mem_singleton_self c))
      have hddigit := isDigit_toNat (hd d (List.mem_singleton_self d))
      rw [digitsValue_concat, digitsValue_concat] at hvalue
      have hlast : c = d := Char.toNat_inj.mp (by omega)
      rw [hlast, ih hxs hys (by simpa using hlength) (by omega)]

/-- Digits without a zero that could be left out are settled by the number they stand for. -/
theorem digits_eq_of_digitsValue (hxs : Digits xs) (hys : Digits ys)
    (hx : xs = ['0'] ∨ ∃ c rest, xs = c :: rest ∧ c ≠ '0')
    (hy : ys = ['0'] ∨ ∃ c rest, ys = c :: rest ∧ c ≠ '0')
    (hvalue : digitsValue xs = digitsValue ys) : xs = ys := by
  have hpos {c : Char} {rest : List Char} (h : Digits (c :: rest)) (hc : c ≠ '0') :
      0 < digitsValue (c :: rest) :=
    Nat.lt_of_lt_of_le (Nat.pow_pos (by decide)) (le_digitsValue h hc)
  rcases hx with rfl | ⟨c, rest, rfl, hc⟩ <;> rcases hy with rfl | ⟨d, tail, rfl, hd⟩
  · rfl
  · exact absurd hvalue (Nat.ne_of_lt (hpos hys hd))
  · exact absurd hvalue.symm (Nat.ne_of_lt (hpos hxs hc))
  · -- Each is at least a power of ten that the other is below, so they are as long.
    have hle := Nat.lt_of_le_of_lt (le_digitsValue hxs hc) (hvalue ▸ digitsValue_lt hys)
    have hge := Nat.lt_of_le_of_lt (le_digitsValue hys hd) (hvalue ▸ digitsValue_lt hxs)
    rw [List.length_cons, Nat.pow_lt_pow_iff_right (by decide)] at hle hge
    exact digitsValue_inj hxs hys (by simp only [List.length_cons]; omega) hvalue

/-- Leading zeros do not count. -/
theorem digitsValue_dropWhile (digits : List Char) :
    digitsValue (digits.dropWhile (· == '0')) = digitsValue digits := by
  induction digits with
  | nil => rfl
  | cons c rest ih =>
    by_cases hc : c = '0'
    · have hsplit := digitsValue_append [c] rest
      rw [List.singleton_append, digitsValue_singleton, hc] at hsplit
      rw [hc, List.dropWhile_cons_of_pos (by rfl), ih, hsplit]
      simp
    · rw [List.dropWhile_cons_of_neg (by simpa using hc)]

/-! ## Literals -/

/-- A written sign: whether it is a minus. -/
def signText : Option Bool → List Char
  | none => []
  | some false => ['+']
  | some true => ['-']

/-- An exponent: its mark, its sign, and one digit at least. -/
structure ExponentLiteral where
  capital : Bool
  sign : Option Bool
  digits : List Char
  digit : Digits digits
  nonempty : digits ≠ []

namespace ExponentLiteral

def text (exponent : ExponentLiteral) : List Char :=
  (if exponent.capital then 'E' else 'e') :: (signText exponent.sign ++ exponent.digits)

/-- How large it is, whatever its sign. -/
def magnitude (exponent : ExponentLiteral) : Nat := digitsValue exponent.digits

def value (exponent : ExponentLiteral) : Int :=
  if exponent.sign = some true then -exponent.magnitude else exponent.magnitude

end ExponentLiteral

/-- A text that does not begin with a sign. -/
def Unsigned (text : List Char) : Prop := ∀ c ∈ text.head?, c ≠ '+' ∧ c ≠ '-'

theorem signText_inj {s t : Option Bool} (hx : Unsigned xs) (hy : Unsigned ys)
    (h : signText s ++ xs = signText t ++ ys) : s = t ∧ xs = ys := by
  have hplus {text rest : List Char} (htext : Unsigned text) : text ≠ '+' :: rest := by
    rintro rfl
    exact (htext '+' rfl).1 rfl
  have hminus {text rest : List Char} (htext : Unsigned text) : text ≠ '-' :: rest := by
    rintro rfl
    exact (htext '-' rfl).2 rfl
  cases s with
  | none =>
    cases t with
    | none => exact ⟨rfl, h⟩
    | some t =>
      cases t with
      | false => exact absurd h (hplus hx)
      | true => exact absurd h (hminus hx)
  | some s =>
    cases t with
    | none =>
      cases s with
      | false => exact absurd h.symm (hplus hy)
      | true => exact absurd h.symm (hminus hy)
    | some t => cases s <;> cases t <;> first | exact ⟨rfl, (List.cons.inj h).2⟩ | simp [signText] at h

theorem Digits.unsigned (h : Digits digits) : Unsigned digits := by
  intro c hc
  have hmem : c ∈ digits := List.mem_of_mem_head? hc
  exact ⟨h.ne hmem (by decide), h.ne hmem (by decide)⟩

theorem ExponentLiteral.text_injective {a b : ExponentLiteral} (h : a.text = b.text) : a = b := by
  obtain ⟨hmark, hrest⟩ := List.cons.inj h
  obtain ⟨hsign, hdigits⟩ := signText_inj a.digit.unsigned b.digit.unsigned hrest
  have hcapital : a.capital = b.capital := by
    revert hmark
    cases a.capital <;> cases b.capital <;> decide
  cases a
  cases b
  simp_all

/-- A character that belongs to the mantissa. -/
def inMantissa (c : Char) : Bool := !(c == 'e' || c == 'E')

theorem Digits.inMantissa (h : Digits digits) :
    digits.all Troupe.Lib.inMantissa = true := by
  rw [List.all_eq_true]
  intro c hc
  have he := h.ne hc (d := 'e') (by decide)
  have hE := h.ne hc (d := 'E') (by decide)
  simp [Troupe.Lib.inMantissa, he, hE]

/-- A decimal literal: digits before and after the point, one at least among them. -/
structure DecimalLiteral where
  sign : Option Bool
  integer : List Char
  /-- What follows the point, when there is one. -/
  fraction : Option (List Char)
  exponent : Option ExponentLiteral
  digit : Digits (integer ++ fraction.getD [])
  nonempty : integer ++ fraction.getD [] ≠ []

namespace DecimalLiteral

/-- The digits after the point. -/
def places (literal : DecimalLiteral) : List Char := literal.fraction.getD []

/-- The sign and the digits. -/
def mantissaText (literal : DecimalLiteral) : List Char :=
  literal.integer ++ literal.fraction.elim [] ('.' :: ·)

def exponentText (literal : DecimalLiteral) : List Char := literal.exponent.elim [] (·.text)

def text (literal : DecimalLiteral) : List Char :=
  signText literal.sign ++ (literal.mantissaText ++ literal.exponentText)

def negative (literal : DecimalLiteral) : Bool := literal.sign == some true

/-- The number all its digits stand for, without the point. -/
def coefficient (literal : DecimalLiteral) : Nat := digitsValue (literal.integer ++ literal.places)

/-- The exponent, zero when none is written. -/
def power (literal : DecimalLiteral) : Int := literal.exponent.elim 0 (·.value)

/-- The number it denotes. -/
def value (literal : DecimalLiteral) : ℚ :=
  (if literal.negative then -1 else 1) * (literal.coefficient : ℚ) *
    (10 : ℚ) ^ (literal.power - (literal.places.length : Int))

theorem integer_digits (literal : DecimalLiteral) : Digits literal.integer :=
  (digits_append.mp literal.digit).1

theorem places_digits (literal : DecimalLiteral) : Digits literal.places :=
  (digits_append.mp literal.digit).2

theorem value_eq_zero_iff (literal : DecimalLiteral) :
    literal.value = 0 ↔ literal.coefficient = 0 := by
  have hpower : (10 : ℚ) ^ (literal.power - (literal.places.length : Int)) ≠ 0 :=
    zpow_ne_zero _ (by norm_num)
  unfold value
  cases literal.negative <;> simp [hpower]

/-- The sign of a number other than zero is that of its literal. -/
theorem negative_iff (literal : DecimalLiteral) (h : literal.value ≠ 0) :
    literal.negative = true ↔ literal.value < 0 := by
  have hcoefficient : (0 : ℚ) < literal.coefficient := by
    rw [Nat.cast_pos]
    exact Nat.pos_of_ne_zero fun hzero => h (literal.value_eq_zero_iff.mpr hzero)
  have hpower : (0 : ℚ) < (10 : ℚ) ^ (literal.power - (literal.places.length : Int)) :=
    zpow_pos (by norm_num) _
  have hpositive := mul_pos hcoefficient hpower
  unfold value
  cases literal.negative with
  | true =>
    simp only [if_true, true_iff, neg_mul, one_mul, Left.neg_neg_iff]
    exact hpositive
  | false =>
    simp only [Bool.false_eq_true, if_false, false_iff, one_mul, not_lt]
    exact hpositive.le

/-! ## Reading a literal back -/

theorem mantissaText_inMantissa (literal : DecimalLiteral) :
    literal.mantissaText.all inMantissa = true := by
  have hplaces := literal.places_digits.inMantissa
  unfold mantissaText places at *
  rw [List.all_append, Bool.and_eq_true]
  refine ⟨literal.integer_digits.inMantissa, ?_⟩
  cases hfraction : literal.fraction with
  | none => rfl
  | some digits =>
    rw [hfraction] at hplaces
    exact hplaces

theorem exponentText_head (literal : DecimalLiteral) :
    ∀ c ∈ literal.exponentText.head?, inMantissa c = false := by
  unfold exponentText
  cases literal.exponent with
  | none => simp
  | some exponent =>
    rintro c hc
    cases hc
    cases exponent.capital <;> decide

theorem mantissaText_head (literal : DecimalLiteral) :
    ∃ c rest, literal.mantissaText = c :: rest ∧ (c.isDigit = true ∨ c = '.') := by
  have hdigits := literal.integer_digits
  unfold mantissaText
  cases hinteger : literal.integer with
  | cons c rest => exact ⟨c, _, rfl, .inl (hdigits c (by rw [hinteger]; exact List.mem_cons_self))⟩
  | nil =>
    cases hfraction : literal.fraction with
    | none => exact absurd (by rw [hinteger, hfraction]; rfl) literal.nonempty
    | some digits => exact ⟨'.', digits, rfl, .inr rfl⟩

theorem unsigned_of_mantissa (literal : DecimalLiteral) (rest : List Char) :
    Unsigned (literal.mantissaText ++ rest) := by
  obtain ⟨c, tail, htext, hc⟩ := literal.mantissaText_head
  rw [htext]
  rintro d ⟨⟩
  rcases hc with hc | rfl
  · exact ⟨fun heq => absurd (heq ▸ hc) (by decide), fun heq => absurd (heq ▸ hc) (by decide)⟩
  · decide

theorem mantissaText_injective {a b : DecimalLiteral} (h : a.mantissaText = b.mantissaText) :
    a.integer = b.integer ∧ a.fraction = b.fraction := by
  have hpoint (literal : DecimalLiteral) :
      ∀ c ∈ (literal.fraction.elim [] ('.' :: ·) : List Char).head?, c.isDigit = false := by
    cases literal.fraction with
    | none => simp
    | some digits =>
      rintro c ⟨⟩
      decide
  obtain ⟨hinteger, hrest⟩ := list_append_inj_of_all
    (List.all_eq_true.mpr a.integer_digits) (List.all_eq_true.mpr b.integer_digits)
    (hpoint a) (hpoint b) h
  refine ⟨hinteger, ?_⟩
  revert hrest
  cases a.fraction <;> cases b.fraction <;> simp

/-- **A text is that of one literal.** -/
theorem text_injective {a b : DecimalLiteral} (h : a.text = b.text) : a = b := by
  obtain ⟨hsign, hrest⟩ := signText_inj (a.unsigned_of_mantissa _) (b.unsigned_of_mantissa _) h
  obtain ⟨hmantissa, hexponent⟩ := list_append_inj_of_all a.mantissaText_inMantissa
    b.mantissaText_inMantissa a.exponentText_head b.exponentText_head hrest
  obtain ⟨hinteger, hfraction⟩ := mantissaText_injective hmantissa
  have hexponent : a.exponent = b.exponent := by
    unfold exponentText at hexponent
    revert hexponent
    cases a.exponent with
    | none => cases b.exponent with
      | none => exact fun _ => rfl
      | some exponent => exact fun h => (nomatch h)
    | some exponent => cases b.exponent with
      | none => exact fun h => (nomatch h)
      | some exponent' => exact fun h => congrArg some (ExponentLiteral.text_injective h)
  cases a
  cases b
  simp_all

/-! ## Canonical literals -/

/-- Nothing of the literal can be left out. -/
structure Canonical (literal : DecimalLiteral) : Prop where
  unsigned : literal.sign ≠ some false
  plain : literal.exponent = none
  /-- A single zero, or no zero at the front. -/
  leading : literal.integer = ['0'] ∨ ∃ c rest, literal.integer = c :: rest ∧ c ≠ '0'
  /-- A point is followed by digits, the last of which is no zero. -/
  trailing : ∀ places ∈ literal.fraction, ∃ before c, places = before ++ [c] ∧ c ≠ '0'
  zero : literal.value = 0 → literal.sign = none

variable {a b : DecimalLiteral}

theorem Canonical.power_eq (h : Canonical a) : a.power = 0 := by
  unfold power
  rw [h.plain]
  rfl

/-- The last of its digits is no zero, when there are any after the point. -/
theorem Canonical.coefficient_mod (h : Canonical a) (hplaces : 0 < a.places.length) :
    a.coefficient % 10 ≠ 0 := by
  cases hfraction : a.fraction with
  | none =>
    unfold places at hplaces
    rw [hfraction] at hplaces
    cases hplaces
  | some digits =>
    obtain ⟨before, c, rfl, hc⟩ := h.trailing digits hfraction
    have hends : a.places = before ++ [c] := by
      unfold places
      rw [hfraction]
      rfl
    have hdigit := isDigit_toNat (a.places_digits c (by rw [hends]; simp))
    have hzero : c.toNat ≠ 48 := fun heq => hc (Char.toNat_inj.mp heq)
    unfold coefficient
    rw [hends, ← List.append_assoc, digitsValue_concat]
    omega

/-- Of two canonical literals of one size, neither has fewer places. -/
theorem Canonical.places_le (hb : Canonical b)
    (h : a.coefficient * 10 ^ b.places.length = b.coefficient * 10 ^ a.places.length) :
    b.places.length ≤ a.places.length := by
  by_contra hlt
  obtain ⟨more, hmore⟩ : ∃ more, b.places.length = a.places.length + (more + 1) :=
    ⟨b.places.length - a.places.length - 1, by omega⟩
  have hb' := hb.coefficient_mod (by omega)
  rw [hmore, Nat.pow_add, ← Nat.mul_assoc, Nat.mul_right_comm] at h
  have hcancel := Nat.eq_of_mul_eq_mul_right (Nat.pow_pos (by decide)) h
  rw [Nat.pow_succ, ← Nat.mul_assoc] at hcancel
  omega

/-- Its digits are as many as its number has places. -/
theorem Canonical.length_le (ha : Canonical a) (hb : Canonical b)
    (hplaces : a.places.length = b.places.length) (hsame : a.coefficient = b.coefficient) :
    a.integer.length ≤ b.integer.length := by
  rcases ha.leading with hzero | ⟨c, rest, hfirst, hc⟩
  · rw [hzero]
    rcases hb.leading with hzero' | ⟨d, rest', hfirst', -⟩
    · rw [hzero']
    · rw [hfirst']
      simp
  · have hlower : 10 ^ (rest ++ a.places).length ≤ a.coefficient := by
      have hdigits := a.digit
      unfold coefficient
      rw [hfirst] at hdigits ⊢
      exact le_digitsValue hdigits hc
    have hupper : b.coefficient < 10 ^ (b.integer ++ b.places).length := digitsValue_lt b.digit
    rw [hsame] at hlower
    have hlt := (Nat.pow_lt_pow_iff_right (by decide : 1 < 10)).mp (hlower.trans_lt hupper)
    rw [List.length_append, List.length_append, hplaces] at hlt
    rw [hfirst, List.length_cons]
    omega

theorem fraction_eq (ha : Canonical a) (hb : Canonical b) (h : a.places = b.places) :
    a.fraction = b.fraction := by
  have hsome {literal : DecimalLiteral} (hliteral : Canonical literal)
      (hplaces : literal.places = []) : literal.fraction = none := by
    cases hfraction : literal.fraction with
    | none => rfl
    | some digits =>
      obtain ⟨before, c, rfl, -⟩ := hliteral.trailing digits hfraction
      unfold places at hplaces
      rw [hfraction] at hplaces
      simp at hplaces
  cases hfraction : a.fraction with
  | none =>
    have hempty : b.places = [] := by
      rw [← h]
      unfold places
      rw [hfraction]
      rfl
    rw [hsome hb hempty]
  | some digits =>
    cases hfraction' : b.fraction with
    | none =>
      have hempty : a.places = [] := by
        rw [h]
        unfold places
        rw [hfraction']
        rfl
      rw [hsome ha hempty] at hfraction
      cases hfraction
    | some digits' =>
      unfold places at h
      rw [hfraction, hfraction'] at h
      exact congrArg some h

/-- What two numbers that are equal have of their literals. -/
theorem coefficient_of_value (ha : Canonical a) (hb : Canonical b) (h : a.value = b.value) :
    a.sign = b.sign ∧
      a.coefficient * 10 ^ b.places.length = b.coefficient * 10 ^ a.places.length := by
  have hsign : a.sign = b.sign := by
    by_cases hzero : a.value = 0
    · rw [ha.zero hzero, hb.zero (h ▸ hzero)]
    · have hnegative : a.negative = true ↔ b.negative = true := by
        rw [a.negative_iff hzero, b.negative_iff (h ▸ hzero), h]
      have hunsigned := ha.unsigned
      have hunsigned' := hb.unsigned
      unfold negative at hnegative
      revert hnegative hunsigned hunsigned'
      cases a.sign with
      | none =>
        cases b.sign with
        | none => simp
        | some d => cases d <;> simp
      | some c =>
        cases b.sign with
        | none => cases c <;> simp
        | some d => cases c <;> cases d <;> simp
  refine ⟨hsign, ?_⟩
  have hnegative : a.negative = b.negative := by
    unfold negative
    rw [hsign]
  unfold value at h
  rw [ha.power_eq, hb.power_eq, hnegative, zero_sub, zero_sub, mul_assoc, mul_assoc] at h
  have hfactor : (if b.negative = true then -1 else 1 : ℚ) ≠ 0 := by
    cases b.negative <;> simp
  have hmagnitude := mul_left_cancel₀ hfactor h
  rw [zpow_neg, zpow_neg, zpow_natCast, zpow_natCast, ← div_eq_mul_inv, ← div_eq_mul_inv,
    div_eq_div_iff (pow_ne_zero _ (by norm_num)) (pow_ne_zero _ (by norm_num))] at hmagnitude
  exact_mod_cast hmagnitude

/-- **A number has one canonical text.** -/
theorem Canonical.text_eq (ha : Canonical a) (hb : Canonical b) (h : a.value = b.value) :
    a.text = b.text := by
  obtain ⟨hsign, hsize⟩ := coefficient_of_value ha hb h
  have hlength : a.places.length = b.places.length :=
    Nat.le_antisymm (ha.places_le hsize.symm) (hb.places_le hsize)
  have hsame : a.coefficient = b.coefficient := by
    rw [hlength] at hsize
    exact Nat.eq_of_mul_eq_mul_right (Nat.pow_pos (by decide)) hsize
  have hinteger : a.integer.length = b.integer.length :=
    Nat.le_antisymm (ha.length_le hb hlength hsame) (hb.length_le ha hlength.symm hsame.symm)
  have hdigits : a.integer ++ a.places = b.integer ++ b.places :=
    digitsValue_inj a.digit b.digit (by rw [List.length_append, List.length_append, hinteger,
      hlength]) hsame
  obtain ⟨hinteger, hplaces⟩ := List.append_inj hdigits hinteger
  unfold text mantissaText exponentText
  rw [hsign, hinteger, fraction_eq ha hb hplaces, ha.plain, hb.plain]

/-! ## Plain literals -/

/-- The literal without an exponent and without a plus sign. -/
def plain (negative : Bool) (integer : List Char) (fraction : Option (List Char))
    (digit : Digits (integer ++ fraction.getD [])) (nonempty : integer ++ fraction.getD [] ≠ []) :
    DecimalLiteral :=
  ⟨if negative then some true else none, integer, fraction, none, digit, nonempty⟩

section Plain

variable {minus : Bool} {integer : List Char} {fraction : Option (List Char)}
  {digit : Digits (integer ++ fraction.getD [])} {nonempty : integer ++ fraction.getD [] ≠ []}

theorem negative_plain : (plain minus integer fraction digit nonempty).negative = minus := by
  cases minus <;> rfl

theorem text_plain : (plain minus integer fraction digit nonempty).text =
    (if minus then ['-'] else []) ++ (integer ++ fraction.elim [] ('.' :: ·)) := by
  cases minus <;> simp [text, plain, signText, mantissaText, exponentText]

theorem canonical_plain
    (hleading : integer = ['0'] ∨ ∃ c rest, integer = c :: rest ∧ c ≠ '0')
    (htrailing : ∀ places ∈ fraction, ∃ before c, places = before ++ [c] ∧ c ≠ '0')
    (hzero : digitsValue (integer ++ fraction.getD []) = 0 → minus = false) :
    (plain minus integer fraction digit nonempty).Canonical where
  unsigned := by cases minus <;> simp [plain]
  plain := rfl
  leading := hleading
  trailing := htrailing
  zero := fun hvalue => by
    rw [hzero ((value_eq_zero_iff _).mp hvalue)]
    rfl

end Plain

end DecimalLiteral

end Troupe.Lib
