import Troupe.Core.Decimal
import Troupe.Lib.Decimal
import Troupe.Lib.Text

/-! # Normalization is exact

`normalize_decimal` against what a decimal literal denotes: a text is normalized exactly when it is a
literal whose exponent is an `i64` and whose canonical text is short enough, and the result is that
canonical text (**`normalizeDecimal_eq_ok_iff`**). So normalized texts are equal exactly when they
denote the same number.

The lengths and the scale are computed with `usize` and `i128`. `normalizeDecimalChecked` is the
function with each of these operations checked; it computes the same (**`normalizeDecimalChecked_eq`**),
for every text a `&str` can hold. -/

namespace Troupe.Core

open Troupe.Lib (DecimalLiteral ExponentLiteral Digits Unsigned signText inMantissa)
open Troupe.Lib

/-! ## Reading a literal -/

section Reading

/-- The sign and the rest of a text that was split. -/
theorem splitSign_eq (text : List Char) :
    ∃ sign, text = signText sign ++ (splitSign text).2 ∧
      (splitSign text).1 = (sign == some true) := by
  unfold splitSign
  split
  next => exact ⟨some false, rfl, rfl⟩
  next => exact ⟨some true, rfl, rfl⟩
  next => exact ⟨none, rfl, rfl⟩

theorem splitSign_signText (sign : Option Bool) {text : List Char} (h : Unsigned text) :
    splitSign (signText sign ++ text) = (sign == some true, text) := by
  cases sign with
  | some sign => cases sign <;> rfl
  | none =>
    show splitSign text = _
    unfold splitSign
    split
    next => exact absurd rfl (h '+' rfl).1
    next => exact absurd rfl (h '-' rfl).2
    next => rfl

/-- The magnitude of an exponent, read digit by digit. -/
theorem foldlM_magnitude (digits : List Char) {start : Nat} (hstart : start ≤ i64Max) :
    digits.foldlM (fun magnitude digit =>
        let next := 10 * magnitude + (digit.toNat - '0'.toNat)
        if next ≤ i64Max then .ok next
        else Except.error ⟨"decimal exponent is out of range"⟩) start =
      if Nat.ofDigitChars 10 digits start ≤ i64Max then .ok (Nat.ofDigitChars 10 digits start)
      else .error (⟨"decimal exponent is out of range"⟩ : WireValueError) := by
  induction digits generalizing start with
  | nil => rw [Nat.ofDigitChars_nil, if_pos hstart]; rfl
  | cons c rest ih =>
    rw [List.foldlM_cons, Nat.ofDigitChars_cons]
    dsimp only
    by_cases hnext : 10 * start + (c.toNat - '0'.toNat) ≤ i64Max
    · rw [if_pos hnext, ok_bind]
      exact ih hnext
    · have hgrows : Nat.ofDigitChars 10 rest (10 * start + (c.toNat - '0'.toNat)) =
          10 ^ rest.length * (10 * start + (c.toNat - '0'.toNat)) + Nat.ofDigitChars 10 rest 0 :=
        Nat.ofDigitChars_eq_ofDigitChars_zero
      have hle : 10 * start + (c.toNat - '0'.toNat) ≤
          10 ^ rest.length * (10 * start + (c.toNat - '0'.toNat)) :=
        Nat.le_mul_of_pos_left _ (Nat.pow_pos (by decide))
      rw [if_neg hnext, if_neg (by omega)]
      rfl

theorem parseExponent_digits (sign : Option Bool) {digits : List Char} (hdigit : Digits digits)
    (hne : digits ≠ []) :
    parseExponent (signText sign ++ digits) =
      if Lib.digitsValue digits ≤ i64Max then
        .ok (if sign = some true then -(Lib.digitsValue digits : Int) else Lib.digitsValue digits)
      else .error ⟨"decimal exponent is out of range"⟩ := by
  have hempty : (signText sign ++ digits).isEmpty = false := by
    rw [List.isEmpty_eq_false_iff]
    simp [hne]
  have hvalid : (digits.isEmpty || !digits.all Char.isDigit) = false := by
    rw [List.isEmpty_eq_false_iff.mpr hne, List.all_eq_true.mpr hdigit]
    rfl
  unfold parseExponent
  rw [hempty, splitSign_signText sign hdigit.unsigned]
  dsimp only
  rw [hvalid]
  simp only [Bool.false_eq_true, if_false]
  rw [foldlM_magnitude digits (Nat.zero_le _)]
  unfold Lib.digitsValue
  by_cases hfits : Nat.ofDigitChars 10 digits 0 ≤ i64Max
  · rw [if_pos hfits, if_pos hfits, ok_bind]
    cases sign with
    | none => rfl
    | some sign => cases sign <;> rfl
  · rw [if_neg hfits, if_neg hfits]
    rfl

/-- The exponent is admitted: what `parse_exponent` reads of it is an `i64`. -/
def Admitted (literal : DecimalLiteral) : Prop :=
  ∀ exponent ∈ literal.exponent, exponent.magnitude ≤ i64Max

instance (literal : DecimalLiteral) : Decidable (Admitted literal) :=
  inferInstanceAs (Decidable (∀ exponent ∈ literal.exponent, exponent.magnitude ≤ i64Max))

theorem not_exponent_of_digits {digits : List Char} (h : Digits digits) (sign : Option Bool) :
    (signText sign ++ digits).any (fun c => c == 'e' || c == 'E') = false := by
  have hdigits : digits.any (fun c => c == 'e' || c == 'E') = false := by
    rw [List.any_eq_false]
    intro c hc
    have he := h.ne hc (d := 'e') (by decide)
    have hE := h.ne hc (d := 'E') (by decide)
    simp [he, hE]
  rw [List.any_append, hdigits, Bool.or_false]
  cases sign with
  | none => rfl
  | some sign => cases sign <;> decide

/-- The mantissa and the exponent of a literal. -/
theorem splitExponent_literal (literal : DecimalLiteral) :
    splitExponent (literal.mantissaText ++ literal.exponentText) =
      if Admitted literal then .ok (literal.mantissaText, literal.power)
      else .error ⟨"decimal exponent is out of range"⟩ := by
  have hmantissa : ∀ c ∈ literal.mantissaText, inMantissa c = true :=
    List.all_eq_true.mp literal.mantissaText_inMantissa
  have hsplit : (literal.mantissaText ++ literal.exponentText).dropWhile
      (fun c => !(c == 'e' || c == 'E')) = literal.exponentText.dropWhile inMantissa :=
    List.dropWhile_append_of_pos hmantissa
  unfold splitExponent
  dsimp only
  rw [hsplit]
  cases hexponent : literal.exponent with
  | none =>
    have hplain : literal.exponentText = [] := by
      unfold DecimalLiteral.exponentText
      rw [hexponent]
      rfl
    have hadmitted : Admitted literal := by
      unfold Admitted
      rw [hexponent]
      simp
    have hpower : literal.power = 0 := by
      unfold DecimalLiteral.power
      rw [hexponent]
      rfl
    rw [hplain, List.append_nil, List.dropWhile_nil, if_pos hadmitted, hpower]
  | some exponent =>
    have hplain : literal.exponentText = exponent.text := by
      unfold DecimalLiteral.exponentText
      rw [hexponent]
      rfl
    have hmark : inMantissa (if exponent.capital then 'E' else 'e') = false := by
      cases exponent.capital <;> decide
    have hadmitted : Admitted literal ↔ Lib.digitsValue exponent.digits ≤ i64Max := by
      unfold Admitted
      rw [hexponent]
      simp [ExponentLiteral.magnitude]
    have hpower : literal.power =
        if exponent.sign = some true then -(Lib.digitsValue exponent.digits : Int)
        else Lib.digitsValue exponent.digits := by
      unfold DecimalLiteral.power
      rw [hexponent]
      rfl
    have htake : (literal.mantissaText ++ exponent.text).takeWhile inMantissa =
        literal.mantissaText :=
      takeWhile_append_of_all literal.mantissaText_inMantissa (by
        rintro c ⟨⟩
        exact hmark)
    rw [hplain]
    unfold ExponentLiteral.text at htake ⊢
    rw [List.dropWhile_cons_of_neg (by rw [hmark]; decide)]
    dsimp only
    rw [not_exponent_of_digits exponent.digit]
    simp only [Bool.false_eq_true, if_false]
    rw [parseExponent_digits exponent.sign exponent.digit exponent.nonempty]
    by_cases hfits : Lib.digitsValue exponent.digits ≤ i64Max
    · rw [if_pos hfits, if_pos (hadmitted.mpr hfits), ok_bind, hpower]
      exact congrArg (fun mantissa => Except.ok (mantissa, _)) htake
    · rw [if_neg hfits, if_neg fun h => hfits (hadmitted.mp h)]
      rfl

theorem mantissa_split (literal : DecimalLiteral) :
    literal.mantissaText.takeWhile (· != '.') = literal.integer ∧
      (literal.mantissaText.dropWhile (· != '.')).drop 1 = literal.places := by
  refine mantissa_parts literal.integer_digits ?_
  unfold DecimalLiteral.mantissaText DecimalLiteral.places
  cases literal.fraction with
  | none => exact .inl ⟨List.append_nil _, rfl⟩
  | some digits => exact .inr rfl

theorem literal_ascii (literal : DecimalLiteral) : ∀ c ∈ literal.text, c.val < 128 := by
  have hsign (sign : Option Bool) : ∀ c ∈ signText sign, c.val < 128 := by
    cases sign with
    | none => simp [signText]
    | some sign => cases sign <;> simp [signText]
  unfold DecimalLiteral.text DecimalLiteral.mantissaText DecimalLiteral.exponentText
  have hinteger := literal.integer_digits
  have hplaces := literal.places_digits
  unfold DecimalLiteral.places at hplaces
  intro c hc
  rcases List.mem_append.mp hc with hc | hc
  · exact hsign _ c hc
  rcases List.mem_append.mp hc with hc | hc
  · rcases List.mem_append.mp hc with hc | hc
    · exact isDigit_ascii (hinteger c hc)
    · cases hfraction : literal.fraction with
      | none => simp [hfraction] at hc
      | some digits =>
        rw [hfraction] at hc hplaces
        rcases List.mem_cons.mp hc with rfl | hc
        · decide
        · exact isDigit_ascii (hplaces c hc)
  · cases hexponent : literal.exponent with
    | none => simp [hexponent] at hc
    | some exponent =>
      rw [hexponent] at hc
      rcases List.mem_cons.mp hc with rfl | hc
      · cases exponent.capital <;> decide
      rcases List.mem_append.mp hc with hc | hc
      · exact hsign _ c hc
      · exact isDigit_ascii (exponent.digit c hc)

/-- **`normalize_decimal` on a literal.** -/
theorem normalizeDecimal_literal (literal : DecimalLiteral) :
    normalizeDecimal (String.ofList literal.text) =
      if Admitted literal then
        normalizeParts literal.negative literal.integer literal.places literal.power
      else .error ⟨"decimal exponent is out of range"⟩ := by
  obtain ⟨c, rest, hhead, -⟩ := literal.mantissaText_head
  have hempty : (String.ofList literal.text).isEmpty = false := by
    unfold DecimalLiteral.text
    rw [hhead]
    simp
  have hascii : isAscii (String.ofList literal.text) = true := by
    rw [isAscii, String.toList_ofList, List.all_eq_true]
    exact fun c hc => decide_eq_true (literal_ascii literal c hc)
  have hunsigned : (literal.mantissaText ++ literal.exponentText).isEmpty = false := by
    rw [hhead]
    rfl
  have hdots : literal.places.contains '.' = false := by
    rw [List.contains_eq_mem, decide_eq_false_iff_not]
    exact fun hmem => absurd (literal.places_digits '.' hmem) (by decide)
  have hdigits : (literal.integer ++ literal.places).all Char.isDigit = true :=
    List.all_eq_true.mpr literal.digit
  have hsome : (literal.integer.isEmpty && literal.places.isEmpty) = false := by
    rw [Bool.eq_false_iff]
    intro hnone
    rw [Bool.and_eq_true, List.isEmpty_iff, List.isEmpty_iff] at hnone
    exact literal.nonempty (List.append_eq_nil_iff.mpr hnone)
  obtain ⟨htake, hdrop⟩ := mantissa_split literal
  unfold normalizeDecimal
  rw [hempty, hascii, String.toList_ofList]
  unfold DecimalLiteral.text
  rw [splitSign_signText literal.sign (literal.unsigned_of_mantissa _)]
  simp only [Bool.not_true, Bool.or_false, Bool.false_eq_true, if_false, hunsigned]
  rw [splitExponent_literal]
  by_cases hadmitted : Admitted literal
  · rw [if_pos hadmitted, if_pos hadmitted, ok_bind]
    simp only [htake, hdrop, hdots, hsome, hdigits, Bool.false_eq_true, if_false, Bool.not_true]
    rfl
  · rw [if_neg hadmitted, if_neg hadmitted]
    rfl

/-- **A text that is normalized is a literal.** -/
theorem literal_of_normalized {source value : String} (h : normalizeDecimal source = .ok value) :
    ∃ literal : DecimalLiteral, source = String.ofList literal.text := by
  obtain ⟨sign, hsource, -⟩ := splitSign_eq source.toList
  unfold normalizeDecimal at h
  rw [ite_error_eq_ok] at h
  obtain ⟨-, h⟩ := h
  generalize splitSign source.toList = split at h hsource
  obtain ⟨negative, unsigned⟩ := split
  simp only [ite_error_eq_ok, bind_eq_ok] at h
  obtain ⟨-, ⟨mantissa, power⟩, hexponent, -, hsome, hdigit, -⟩ := h
  simp only [Bool.not_eq_true', Bool.not_eq_false, List.all_eq_true] at hdigit
  -- the mantissa, around its point
  have hmantissa : ∃ fraction : Option (List Char),
      mantissa = mantissa.takeWhile (· != '.') ++ fraction.elim [] ('.' :: ·) ∧
        fraction.getD [] = (mantissa.dropWhile (· != '.')).drop 1 := by
    cases hrest : mantissa.dropWhile (· != '.') with
    | nil =>
      refine ⟨none, ?_, rfl⟩
      have hsplit := List.takeWhile_append_dropWhile (p := (· != '.')) (l := mantissa)
      rw [hrest] at hsplit
      exact hsplit.symm
    | cons c rest =>
      have hsplit := List.takeWhile_append_dropWhile (p := (· != '.')) (l := mantissa)
      have hpoint := List.head_dropWhile_not (· != '.') (l := mantissa)
        (by rw [hrest]; exact List.cons_ne_nil _ _)
      simp only [hrest, List.head_cons, bne_eq_false_iff_eq] at hpoint
      rw [hrest, hpoint] at hsplit
      exact ⟨some rest, hsplit.symm, rfl⟩
  obtain ⟨fraction, hmantissa, hplaces⟩ := hmantissa
  generalize mantissa.takeWhile (· != '.') = integer at hmantissa hdigit hsome
  rw [← hplaces] at hdigit hsome
  have hne : integer ++ fraction.getD [] ≠ [] := by
    intro hnil
    rw [List.append_eq_nil_iff] at hnil
    rw [hnil.1, hnil.2] at hsome
    exact absurd rfl hsome
  -- the exponent, when there is one
  have hpower : ∃ exponent : Option ExponentLiteral,
      unsigned = mantissa ++ exponent.elim [] (·.text) := by
    unfold splitExponent at hexponent
    have hsplit := List.takeWhile_append_dropWhile (p := fun c => !(c == 'e' || c == 'E'))
      (l := unsigned)
    dsimp only at hexponent
    cases hrest : unsigned.dropWhile (fun c => !(c == 'e' || c == 'E')) with
    | nil =>
      rw [hrest] at hexponent
      cases hexponent
      exact ⟨none, (List.append_nil _).symm⟩
    | cons c rest =>
      have hmark := List.head_dropWhile_not (fun c => !(c == 'e' || c == 'E')) (l := unsigned)
        (by rw [hrest]; exact List.cons_ne_nil _ _)
      simp only [hrest, List.head_cons, Bool.not_eq_false', Bool.or_eq_true, beq_iff_eq] at hmark
      rw [hrest] at hexponent hsplit
      dsimp only at hexponent
      rw [ite_error_eq_ok, bind_eq_ok] at hexponent
      obtain ⟨-, read, hread, heq⟩ := hexponent
      cases heq
      obtain ⟨sign', hrest', -⟩ := splitSign_eq rest
      unfold parseExponent at hread
      rw [ite_error_eq_ok] at hread
      obtain ⟨-, hread⟩ := hread
      generalize splitSign rest = split' at hread hrest'
      obtain ⟨negative', digits⟩ := split'
      rw [ite_error_eq_ok, Bool.or_eq_true, not_or, Bool.not_eq_true', Bool.not_eq_false,
        List.isEmpty_iff, List.all_eq_true] at hread
      obtain ⟨⟨hnonempty, hdigits⟩, -⟩ := hread
      refine ⟨some ⟨c == 'E', sign', digits, hdigits, hnonempty⟩, ?_⟩
      have hcapital : (if (c == 'E') = true then 'E' else 'e') = c := by
        rcases hmark with rfl | rfl <;> rfl
      show unsigned = _ ++ (_ :: (signText sign' ++ digits))
      rw [hcapital, ← hrest', hsplit]
  obtain ⟨exponent, hunsigned⟩ := hpower
  refine ⟨⟨sign, integer, fraction, exponent, hdigit, hne⟩, String.toList_inj.mp ?_⟩
  rw [String.toList_ofList, hsource, hunsigned, hmantissa]
  rfl

end Reading

/-! ## Writing the canonical text -/

section Writing

variable {negative : Bool} {coefficient : List Char} {scale : Int}

/-- A length added up of three parts, when it is not too large. -/
theorem addedUp_eq_ok {width sign a b : Nat} (error : WireValueError)
    (hwidth : width ≤ sign + a + b) :
    (∃ total, (match (if width ≤ usizeMax then
        .ok do
          let length ← checkedAdd usizeMax sign a
          checkedAdd usizeMax length b
      else .error error : Except WireValueError (Option Nat)) with
    | .error error => .error error
    | .ok none => .error ⟨"decimal representation is too large"⟩
    | .ok (some total) =>
      if maxNormalizedDecimalBytes < total then
        .error ⟨"decimal representation is too large"⟩
      else
        .ok total : Except WireValueError Nat) = .ok total) ↔
      sign + a + b ≤ maxNormalizedDecimalBytes := by
  have hmax : maxNormalizedDecimalBytes ≤ usizeMax := by decide
  by_cases hfits : sign + a + b ≤ usizeMax
  · rw [if_pos (hwidth.trans hfits), checkedAdd_of_le (show sign + a ≤ usizeMax by omega)]
    simp only [Option.bind_eq_bind, Option.bind_some]
    rw [checkedAdd_of_le hfits]
    simp only [ite_error_eq_ok, not_lt, exists_and_left, Except.ok.injEq, exists_eq', and_true]
  · have hlarge : ¬sign + a + b ≤ maxNormalizedDecimalBytes := fun hle => hfits (hle.trans hmax)
    refine iff_of_false ?_ hlarge
    rintro ⟨total, htotal⟩
    by_cases hwide : width ≤ usizeMax
    · have hnone : (do
          let length ← checkedAdd usizeMax sign a
          checkedAdd usizeMax length b : Option Nat) = none := by
        by_cases hfirst : sign + a ≤ usizeMax
        · rw [checkedAdd_of_le hfirst]
          exact checkedAdd_eq_none.mpr (Nat.lt_of_not_le hfits)
        · rw [checkedAdd_eq_none.mpr (Nat.lt_of_not_le hfirst)]
          rfl
      rw [if_pos hwide, hnone] at htotal
      cases htotal
    · rw [if_neg hwide] at htotal
      cases htotal

/-- The length of a normalized text is computed before the text is built. -/
theorem normalizedBytes_eq (negative : Bool) (coefficient : List Char) (scale : Int) :
    (∃ total, normalizedBytes negative coefficient scale = .ok total) ↔
      (normalizedText negative coefficient scale).length ≤ maxNormalizedDecimalBytes := by
  have hsign : ((if negative then ['-'] else []) : List Char).length =
      if negative then 1 else 0 := by cases negative <;> rfl
  unfold normalizedText normalizedBytes
  rw [List.length_append, hsign]
  generalize (if negative = true then 1 else 0) = sign
  by_cases hscale : scale ≤ 0
  · rw [if_pos hscale, List.length_append, List.length_replicate, ← Nat.add_assoc]
    simp only [if_pos hscale]
    exact addedUp_eq_ok _ (by omega)
  · rw [if_neg hscale]
    simp only [if_neg hscale]
    by_cases hpoint : scale.toNat < coefficient.length
    · have hlength : (coefficient.take (coefficient.length - scale.toNat) ++
          '.' :: coefficient.drop (coefficient.length - scale.toNat)).length =
            coefficient.length + 1 := by
        rw [List.length_append, List.length_cons, List.length_take, List.length_drop]
        omega
      simp only [if_pos hpoint]
      rw [hlength, ← Nat.add_assoc]
      exact addedUp_eq_ok _ (by omega)
    · have hlength : ('0' :: '.' :: List.replicate (scale.toNat - coefficient.length) '0' ++
          coefficient).length = scale.toNat + 2 := by
        rw [List.length_append, List.length_cons, List.length_cons, List.length_replicate]
        omega
      simp only [if_neg hpoint]
      rw [hlength, ← Nat.add_assoc]
      exact addedUp_eq_ok _ (by omega)

/-- The number a sign, a coefficient and a scale stand for. -/
def scaledValue (negative : Bool) (coefficient : Nat) (scale : Int) : ℚ :=
  (if negative then -1 else 1) * (coefficient : ℚ) * (10 : ℚ) ^ (-scale)

theorem value_eq_scaled (literal : DecimalLiteral) :
    literal.value =
      scaledValue literal.negative literal.coefficient (literal.places.length - literal.power) := by
  unfold DecimalLiteral.value scaledValue
  rw [neg_sub]

/-- Zeros at the end of the coefficient are as good as a smaller scale. -/
theorem scaledValue_zeroes (negative : Bool) (coefficient : List Char) (count : Nat) (scale : Int) :
    scaledValue negative (Lib.digitsValue (coefficient ++ List.replicate count '0')) scale =
      scaledValue negative (Lib.digitsValue coefficient) (scale - count) := by
  unfold scaledValue
  rw [digitsValue_append, digitsValue_replicate_zero, List.length_replicate, Nat.add_zero,
    neg_sub, sub_eq_add_neg, zpow_add₀ (by norm_num), zpow_natCast, Nat.cast_mul, Nat.cast_pow,
    Nat.cast_ofNat]
  ring

/-- The literal a normalized text is that of. -/
theorem exists_literal (negative : Bool) (h : Coefficient coefficient scale) :
    ∃ literal : DecimalLiteral, literal.Canonical ∧
      literal.text = normalizedText negative coefficient scale ∧
      literal.value = scaledValue negative (Lib.digitsValue coefficient) scale := by
  obtain ⟨first, tail, hcons, hfirst⟩ := h.head
  have hdigits : Digits coefficient := h.digit
  have hpositive : Lib.digitsValue coefficient ≠ 0 := by
    have hle : 10 ^ tail.length ≤ Lib.digitsValue coefficient := by
      rw [hcons] at hdigits ⊢
      exact le_digitsValue hdigits hfirst
    have hpow : 0 < 10 ^ tail.length := Nat.pow_pos (by decide)
    omega
  have hvalue (integer : List Char) (fraction : Option (List Char))
      (digit : Digits (integer ++ fraction.getD [])) (nonempty : integer ++ fraction.getD [] ≠ []) :
      (DecimalLiteral.plain negative integer fraction digit nonempty).value =
        scaledValue negative (Lib.digitsValue (integer ++ fraction.getD []))
          (fraction.getD []).length := by
    rw [value_eq_scaled, DecimalLiteral.negative_plain]
    show scaledValue _ _ (((fraction.getD []).length : Int) - 0) = _
    rw [sub_zero]
    rfl
  unfold normalizedText
  by_cases hscale : scale ≤ 0
  · -- an integer, with the zeroes of the scale
    refine ⟨.plain negative (coefficient ++ List.replicate (-scale).toNat '0') none
      (by simpa using hdigits.append (digits_replicate_zero _)) (by simp [hcons]),
      DecimalLiteral.canonical_plain (.inr ⟨first, _, by rw [hcons]; rfl, hfirst⟩) (by simp)
        fun hzero => ?_, ?_, ?_⟩
    · simp only [Option.getD_none, List.append_nil, digitsValue_append,
        digitsValue_replicate_zero, Nat.add_zero] at hzero
      rcases Nat.mul_eq_zero.mp hzero with hzero | hzero
      · exact absurd hzero hpositive
      · exact absurd hzero (Nat.pow_pos (by decide)).ne'
    · rw [DecimalLiteral.text_plain, if_pos hscale, Option.elim_none, List.append_nil]
    · rw [hvalue, Option.getD_none, List.append_nil, List.length_nil, scaledValue_zeroes]
      congr 1
      omega
  · obtain ⟨places, rfl⟩ : ∃ places : Nat, scale = places := ⟨scale.toNat, by omega⟩
    rw [if_neg hscale, Int.toNat_natCast]
    obtain ⟨before, last, hlast, hnonzero⟩ : ∃ before c, coefficient = before ++ [c] ∧ c ≠ '0' := by
      rcases List.eq_nil_or_concat coefficient with rfl | ⟨before, c, rfl⟩
      · cases hcons
      · rw [List.concat_eq_append] at h ⊢
        refine ⟨before, c, rfl, fun heq => ?_⟩
        have hends := h.last (by omega)
        rw [List.getLast?_concat, heq] at hends
        exact hends rfl
    by_cases hpoint : places < coefficient.length
    · -- the point falls inside the coefficient
      have hsplit : coefficient.take (coefficient.length - places) ++
          coefficient.drop (coefficient.length - places) = coefficient := List.take_append_drop _ _
      refine ⟨.plain negative (coefficient.take (coefficient.length - places))
        (some (coefficient.drop (coefficient.length - places)))
        (by rw [Option.getD_some, hsplit]; exact hdigits)
        (by rw [Option.getD_some, hsplit, hcons]; exact List.cons_ne_nil _ _),
        DecimalLiteral.canonical_plain (.inr ⟨first, ?_⟩) ?_ fun hzero => ?_, ?_, ?_⟩
      · obtain ⟨point, hpoint'⟩ : ∃ point, coefficient.length - places = point + 1 :=
          ⟨coefficient.length - places - 1, by omega⟩
        rw [hpoint', hcons]
        exact ⟨tail.take point, rfl, hfirst⟩
      · rintro fraction ⟨⟩
        refine ⟨before.drop (coefficient.length - places), last, ?_, hnonzero⟩
        have hlength : coefficient.length - places ≤ before.length := by
          rw [hlast, List.length_append, List.length_singleton]
          omega
        generalize coefficient.length - places = point at hlength
        rw [hlast, List.drop_append_of_le_length hlength]
      · rw [Option.getD_some, hsplit] at hzero
        exact absurd hzero hpositive
      · rw [DecimalLiteral.text_plain, if_pos hpoint]
        rfl
      · rw [hvalue, Option.getD_some, hsplit, List.length_drop]
        congr 1
        omega
    · -- the point stands before the coefficient
      have hzeroes : Lib.digitsValue (['0'] ++
          (List.replicate (places - coefficient.length) '0' ++ coefficient)) =
            Lib.digitsValue coefficient := by
        rw [digitsValue_append, digitsValue_append, digitsValue_replicate_zero]
        simp [digitsValue_singleton]
      refine ⟨.plain negative ['0']
        (some (List.replicate (places - coefficient.length) '0' ++ coefficient))
        (by
          rw [Option.getD_some]
          exact (digits_replicate_zero 1).append ((digits_replicate_zero _).append hdigits))
        (by simp),
        DecimalLiteral.canonical_plain (.inl rfl) ?_ fun hzero => ?_, ?_, ?_⟩
      · rintro fraction ⟨⟩
        refine ⟨List.replicate (places - coefficient.length) '0' ++ before, last, ?_, hnonzero⟩
        rw [List.append_assoc, ← hlast]
      · rw [Option.getD_some, hzeroes] at hzero
        exact absurd hzero hpositive
      · rw [DecimalLiteral.text_plain, if_neg hpoint]
        rfl
      · rw [hvalue, Option.getD_some, hzeroes, List.length_append, List.length_replicate]
        congr 1
        omega

/-- **What the digits of a literal are normalized to.** -/
theorem normalizeParts_canonical (negative : Bool) {integer fraction : List Char} (exponent : Int)
    (hdigits : Digits (integer ++ fraction)) :
    ∃ canonical : DecimalLiteral, canonical.Canonical ∧
      canonical.value = scaledValue negative (Lib.digitsValue (integer ++ fraction))
        (fraction.length - exponent) ∧
      ∀ value, normalizeParts negative integer fraction exponent = .ok value ↔
        value = String.ofList canonical.text ∧
          value.utf8ByteSize ≤ maxNormalizedDecimalBytes := by
  have hvalue := digitsValue_dropWhile (integer ++ fraction)
  have hdigits' : Digits ((integer ++ fraction).dropWhile (· == '0')) :=
    fun c hc => hdigits c (List.dropWhile_subset _ hc)
  have hhead := List.head_dropWhile_not (· == '0') (l := integer ++ fraction)
  unfold normalizeParts
  dsimp only
  generalize (integer ++ fraction).dropWhile (· == '0') = digits at hvalue hdigits' hhead ⊢
  by_cases hempty : digits = []
  · -- every digit is a zero
    subst hempty
    have hzero : Lib.digitsValue (integer ++ fraction) = 0 := hvalue.symm
    refine ⟨.plain false ['0'] none (digits_replicate_zero 1) (by simp),
      DecimalLiteral.canonical_plain (.inl rfl) (by simp) fun _ => rfl, ?_, fun value => ?_⟩
    · rw [hzero, value_eq_scaled]
      simp [scaledValue, DecimalLiteral.coefficient, DecimalLiteral.plain, DecimalLiteral.places,
        digitsValue_singleton]
    · have htext : String.ofList (DecimalLiteral.plain false ['0'] none (digits_replicate_zero 1)
          (by simp)).text = "0" := by
        rw [DecimalLiteral.text_plain]
        rfl
      rw [htext, List.isEmpty_nil, if_pos rfl, Except.ok.injEq]
      constructor
      · rintro rfl
        exact ⟨rfl, by decide⟩
      · exact fun h => h.1.symm
  · obtain ⟨c, rest, hcons⟩ := List.exists_cons_of_ne_nil hempty
    have hc : c ≠ '0' := by
      have hfirst := hhead hempty
      simpa [hcons] using hfirst
    have hcoefficient := coefficient_of_trimZeroes hdigits' ⟨c, rest, hcons, hc⟩
      (fraction.length - exponent)
    obtain ⟨count, hsplit, hscale, -⟩ := trimZeroes_spec digits.reverse (fraction.length - exponent)
    generalize trimZeroes digits.reverse (fraction.length - exponent) = trimmed
      at hcoefficient hsplit hscale ⊢
    obtain ⟨reversed, scale⟩ := trimmed
    dsimp only at hcoefficient hsplit hscale ⊢
    obtain ⟨canonical, hcanonical, htext, hsame⟩ := exists_literal negative hcoefficient
    refine ⟨canonical, hcanonical, ?_, fun value => ?_⟩
    · have hreverse : digits = reversed.reverse ++ List.replicate count '0' := by
        rw [← List.reverse_reverse digits, hsplit, List.reverse_append, List.reverse_replicate]
      rw [hsame, ← hvalue, hreverse, scaledValue_zeroes, hscale]
    · have hbytes : (String.ofList canonical.text).utf8ByteSize =
          (normalizedText negative reversed.reverse scale).length := by
        rw [utf8ByteSize_ofList, utf8Size_ascii (literal_ascii canonical), htext]
      rw [List.isEmpty_eq_false_iff.mpr hempty]
      simp only [Bool.false_eq_true, if_false]
      rw [bind_eq_ok, ← htext]
      constructor
      · rintro ⟨total, htotal, hvalue'⟩
        cases hvalue'
        exact ⟨rfl, hbytes ▸ (normalizedBytes_eq negative _ _).mp ⟨total, htotal⟩⟩
      · rintro ⟨rfl, hle⟩
        rw [hbytes] at hle
        obtain ⟨total, htotal⟩ := (normalizedBytes_eq negative _ _).mpr hle
        exact ⟨total, htotal, rfl⟩

end Writing

/-! ## Normal forms -/

/-- The text is a literal whose exponent is admitted, and its canonical text is short enough. -/
structure Normalizes (source value : String) (literal canonical : DecimalLiteral) : Prop where
  reads : source = String.ofList literal.text
  admitted : Admitted literal
  shortest : canonical.Canonical
  writes : value = String.ofList canonical.text
  /-- Both denote the same number. -/
  same : canonical.value = literal.value
  fits : value.utf8ByteSize ≤ maxNormalizedDecimalBytes

/-- **Normalization gives the canonical text of the number.** -/
theorem normalizeDecimal_eq_ok_iff {source value : String} :
    normalizeDecimal source = .ok value ↔
      ∃ literal canonical, Normalizes source value literal canonical := by
  have hliteral (literal : DecimalLiteral) (hadmitted : Admitted literal) :
      ∃ canonical : DecimalLiteral, canonical.Canonical ∧ canonical.value = literal.value ∧
        ∀ value, normalizeDecimal (String.ofList literal.text) = .ok value ↔
          value = String.ofList canonical.text ∧
            value.utf8ByteSize ≤ maxNormalizedDecimalBytes := by
    rw [normalizeDecimal_literal, if_pos hadmitted, value_eq_scaled]
    exact normalizeParts_canonical literal.negative literal.power literal.digit
  constructor
  · intro h
    obtain ⟨literal, rfl⟩ := literal_of_normalized h
    have hadmitted : Admitted literal := by
      by_contra hadmitted
      rw [normalizeDecimal_literal, if_neg hadmitted] at h
      cases h
    obtain ⟨canonical, hcanonical, hsame, hiff⟩ := hliteral literal hadmitted
    obtain ⟨hvalue, hfits⟩ := (hiff value).mp h
    exact ⟨literal, canonical, rfl, hadmitted, hcanonical, hvalue, hsame, hfits⟩
  · rintro ⟨literal, canonical, rfl, hadmitted, hcanonical, rfl, hsame, hfits⟩
    obtain ⟨canonical', hcanonical', hsame', hiff⟩ := hliteral literal hadmitted
    refine (hiff _).mpr ⟨?_, hfits⟩
    rw [hcanonical.text_eq hcanonical' (hsame.trans hsame'.symm)]

/-- **A normalized text is its own normal form.** -/
theorem normalizeDecimal_idem {source value : String} (h : normalizeDecimal source = .ok value) :
    normalizeDecimal value = .ok value := by
  obtain ⟨literal, canonical, -, -, hshortest, hwrites, -, hfits⟩ := normalizeDecimal_eq_ok_iff.mp h
  have hadmitted : Admitted canonical := by
    unfold Admitted
    rw [hshortest.plain]
    simp
  exact normalizeDecimal_eq_ok_iff.mpr
    ⟨canonical, canonical, hwrites, hadmitted, hshortest, hwrites, rfl, hfits⟩

/-- **Normalized texts are equal when they denote the same number, and only then.** -/
theorem normalizeDecimal_eq_iff {source source' value value' : String}
    {literal literal' canonical canonical' : DecimalLiteral}
    (h : Normalizes source value literal canonical)
    (h' : Normalizes source' value' literal' canonical') :
    value = value' ↔ literal.value = literal'.value := by
  rw [← h.same, ← h'.same, h.writes, h'.writes]
  constructor
  · intro htext
    have hlist := congrArg String.toList htext
    rw [String.toList_ofList, String.toList_ofList] at hlist
    rw [DecimalLiteral.text_injective hlist]
  · intro hvalue
    rw [h.shortest.text_eq h'.shortest hvalue]

/-! ## No operation overflows -/

/-- A computation that stops at a machine operation that overflows. -/
abbrev Checked := ExceptT WireValueError Option

/-- What is computed without such an operation. -/
def Checked.ofExcept {α : Type} (result : Except WireValueError α) : Checked α :=
  ExceptT.mk (some result)

/-- `parse_exponent`. -/
def parseExponentChecked (text : List Char) : Checked Int :=
  if text.isEmpty then
    throw ⟨"decimal exponent has no digits"⟩
  else
    let (negative, digits) := splitSign text
    if digits.isEmpty || !digits.all Char.isDigit then
      throw ⟨"decimal exponent is invalid"⟩
    else do
      let magnitude ← digits.foldlM (fun magnitude digit => do
        let digit ← checkedSub digit.toNat '0'.toNat
        let next := 10 * magnitude + digit
        if next ≤ i64Max then pure next else throw ⟨"decimal exponent is out of range"⟩) 0
      pure (if negative then -(magnitude : Int) else magnitude)

/-- The mantissa and the exponent of a decimal text. -/
def splitExponentChecked (unsigned : List Char) : Checked (List Char × Int) := do
  let isExponent := fun c => c == 'e' || c == 'E'
  let mantissa := unsigned.takeWhile (!isExponent ·)
  if mantissa.length = unsigned.length then
    pure (unsigned, 0)
  else
    let start ← checkedAdd usizeMax mantissa.length 1
    let exponentText := unsigned.drop start
    if exponentText.any isExponent then
      throw ⟨"decimal has multiple exponents"⟩
    else
      let exponent ← parseExponentChecked exponentText
      pure (mantissa, exponent)

/-- What follows the point of a mantissa. -/
def fractionChecked (mantissa : List Char) : Checked (List Char) := do
  let integer := mantissa.takeWhile (· != '.')
  if integer.length = mantissa.length then
    pure []
  else
    let start ← checkedAdd usizeMax integer.length 1
    pure (mantissa.drop start)

/-- The loop that drops trailing zeroes. -/
def trimZeroesChecked : List Char → Int → Checked (List Char × Int)
  | '0' :: rest, scale =>
    if 0 < scale then do
      let _ ← checkedSub (rest.length + 1) 1
      let scale ← checkedSignedSub 128 scale 1
      trimZeroesChecked rest scale
    else pure ('0' :: rest, scale)
  | digits, scale => pure (digits, scale)

/-- The normalized text, once it is known not to be too long. -/
def normalizedTextChecked (negative : Bool) (coefficient : List Char) (scale : Int) :
    Checked (List Char) := do
  if scale ≤ 0 then
    let zeroes ← checkedSignedSub 128 0 scale
    let _ ← Checked.ofExcept (normalizedBytes negative coefficient scale)
    pure ((if negative then ['-'] else []) ++ (coefficient ++ List.replicate zeroes.toNat '0'))
  else
    let _ ← Checked.ofExcept (normalizedBytes negative coefficient scale)
    if scale.toNat < coefficient.length then
      let point ← checkedSub coefficient.length scale.toNat
      pure ((if negative then ['-'] else []) ++
        (coefficient.take point ++ '.' :: coefficient.drop point))
    else
      let zeroes ← checkedSub scale.toNat coefficient.length
      pure ((if negative then ['-'] else []) ++
        ('0' :: '.' :: List.replicate zeroes '0' ++ coefficient))

/-- `normalize_decimal`, with every operation on lengths, positions and scales checked. -/
def normalizeDecimalChecked (value : String) : Checked String :=
  if value.isEmpty || !isAscii value then
    throw ⟨"decimal must be nonempty ASCII"⟩
  else
    let (negative, unsigned) := splitSign value.toList
    if unsigned.isEmpty then
      throw ⟨"decimal has no digits"⟩
    else do
      let (mantissa, exponent) ← splitExponentChecked unsigned
      let integer := mantissa.takeWhile (· != '.')
      let fraction ← fractionChecked mantissa
      if fraction.contains '.' then
        throw ⟨"decimal has multiple points"⟩
      else if integer.isEmpty && fraction.isEmpty then
        throw ⟨"decimal has no digits"⟩
      else if !(integer ++ fraction).all Char.isDigit then
        throw ⟨"decimal contains a non-digit character"⟩
      else
        let _ ← checkedAdd usizeMax integer.length fraction.length
        let digits := (integer ++ fraction).dropWhile (· == '0')
        if digits.isEmpty then
          pure "0"
        else
          let scale ← checkedSignedSub 128 fraction.length exponent
          let (reversed, scale) ← trimZeroesChecked digits.reverse scale
          let text ← normalizedTextChecked negative reversed.reverse scale
          pure (String.ofList text)

section Checked

variable {α β : Type}

theorem Checked.ok_bind (a : α) (next : α → Checked β) :
    Checked.ofExcept (.ok a) >>= next = next a := rfl

theorem Checked.bind_ofExcept (result : Except WireValueError α)
    {next : α → Checked β} {next' : α → Except WireValueError β}
    (h : ∀ a, result = .ok a → next a = Checked.ofExcept (next' a)) :
    Checked.ofExcept result >>= next = Checked.ofExcept (result >>= next') := by
  cases result with
  | error error => rfl
  | ok a => exact h a rfl

theorem Checked.ite_throw {c : Prop} [Decidable c] (error : WireValueError)
    {next : Checked α} {next' : Except WireValueError α}
    (h : ¬c → next = Checked.ofExcept next') :
    (if c then throw error else next) =
      Checked.ofExcept (if c then .error error else next') := by
  by_cases hc : c
  · rw [if_pos hc, if_pos hc]
    rfl
  · rw [if_neg hc, if_neg hc, h hc]

theorem parseExponentChecked_eq (text : List Char) :
    parseExponentChecked text = Checked.ofExcept (parseExponent text) := by
  unfold parseExponentChecked parseExponent
  refine Checked.ite_throw _ fun _ => ?_
  generalize splitSign text = split
  obtain ⟨negative, digits⟩ := split
  refine Checked.ite_throw _ fun hvalid => ?_
  rw [Bool.or_eq_true, not_or, Bool.not_eq_true', Bool.not_eq_false, List.all_eq_true] at hvalid
  have hfold (start : Nat) (rest : List Char) (hrest : ∀ c ∈ rest, c.isDigit = true) :
      (rest.foldlM (fun magnitude digit => do
        let digit ← checkedSub digit.toNat '0'.toNat
        let next := 10 * magnitude + digit
        if next ≤ i64Max then pure next
        else throw ⟨"decimal exponent is out of range"⟩) start : Checked Nat) =
      Checked.ofExcept (rest.foldlM (fun magnitude digit =>
        let next := 10 * magnitude + (digit.toNat - '0'.toNat)
        if next ≤ i64Max then .ok next
        else .error ⟨"decimal exponent is out of range"⟩) start) := by
    induction rest generalizing start with
    | nil => rfl
    | cons c rest ih =>
      have hc := isDigit_toNat (hrest c List.mem_cons_self)
      have hsub : checkedSub c.toNat '0'.toNat = some (c.toNat - '0'.toNat) := by
        rw [checkedSub_eq_some, show '0'.toNat = 48 from rfl]
        omega
      rw [List.foldlM_cons, List.foldlM_cons, hsub]
      dsimp only
      by_cases hnext : 10 * start + (c.toNat - '0'.toNat) ≤ i64Max
      · rw [if_pos hnext, Lib.ok_bind, ← ih _ fun d hd => hrest d (List.mem_cons_of_mem _ hd)]
        show ((if 10 * start + (c.toNat - '0'.toNat) ≤ i64Max then
          pure (10 * start + (c.toNat - '0'.toNat)) else throw _ : Checked Nat) >>= _) = _
        rw [if_pos hnext]
        rfl
      · rw [if_neg hnext]
        show ((if 10 * start + (c.toNat - '0'.toNat) ≤ i64Max then
          pure (10 * start + (c.toNat - '0'.toNat)) else throw _ : Checked Nat) >>= _) = _
        rw [if_neg hnext]
        rfl
  dsimp only
  rw [hfold 0 digits hvalid.2]
  exact Checked.bind_ofExcept _ fun _ _ => rfl

/-- What follows the first character outside `p`. -/
theorem drop_past (p : Char → Bool) (text : List Char) :
    text.drop ((text.takeWhile p).length + 1) = (text.dropWhile p).drop 1 := by
  have hdrop : (text.takeWhile p ++ text.dropWhile p).drop ((text.takeWhile p).length + 1) =
      (text.dropWhile p).drop 1 := List.drop_length_add_append 1
  rwa [List.takeWhile_append_dropWhile] at hdrop

theorem splitExponentChecked_eq {unsigned : List Char} (hlength : unsigned.length ≤ i64Max) :
    splitExponentChecked unsigned = Checked.ofExcept (splitExponent unsigned) := by
  have hsplit := List.takeWhile_append_dropWhile (p := fun c => !(c == 'e' || c == 'E'))
    (l := unsigned)
  have hle := congrArg List.length hsplit
  rw [List.length_append] at hle
  unfold splitExponentChecked splitExponent
  dsimp only
  cases hrest : unsigned.dropWhile (fun c => !(c == 'e' || c == 'E')) with
  | nil =>
    rw [hrest, List.length_nil, Nat.add_zero] at hle
    rw [if_pos hle]
    rfl
  | cons c rest =>
    rw [hrest] at hle hsplit
    rw [List.length_cons] at hle
    have hstart : checkedAdd usizeMax
        (unsigned.takeWhile (fun c => !(c == 'e' || c == 'E'))).length 1 =
          some ((unsigned.takeWhile (fun c => !(c == 'e' || c == 'E'))).length + 1) := by
      refine checkedAdd_of_le ?_
      have hmax : i64Max ≤ usizeMax := by decide
      omega
    have hdrop := drop_past (fun c => !(c == 'e' || c == 'E')) unsigned
    rw [hrest] at hdrop
    rw [if_neg (by omega), hstart]
    show (if _ then throw _ else _) = _
    rw [hdrop, parseExponentChecked_eq]
    exact Checked.ite_throw _ fun _ => Checked.bind_ofExcept _ fun _ _ => rfl

theorem fractionChecked_eq {mantissa : List Char} (hlength : mantissa.length ≤ i64Max) :
    fractionChecked mantissa = Checked.ofExcept (.ok ((mantissa.dropWhile (· != '.')).drop 1)) := by
  have hsplit := congrArg List.length
    (List.takeWhile_append_dropWhile (p := (· != '.')) (l := mantissa))
  rw [List.length_append] at hsplit
  unfold fractionChecked
  dsimp only
  by_cases hwhole : (mantissa.takeWhile (· != '.')).length = mantissa.length
  · have hnil : mantissa.dropWhile (· != '.') = [] := List.length_eq_zero_iff.mp (by omega)
    rw [if_pos hwhole, hnil]
    rfl
  · have hmax : i64Max < usizeMax := by decide
    rw [if_neg hwhole, checkedAdd_of_le (show _ + 1 ≤ usizeMax by omega),
      ← drop_past (· != '.') mantissa]
    rfl

theorem foldlM_magnitude_le {digits : List Char} {start magnitude : Nat} (hstart : start ≤ i64Max)
    (h : digits.foldlM (fun magnitude digit =>
        let next := 10 * magnitude + (digit.toNat - '0'.toNat)
        if next ≤ i64Max then .ok next
        else Except.error (⟨"decimal exponent is out of range"⟩ : WireValueError)) start =
      .ok magnitude) : magnitude ≤ i64Max := by
  rw [foldlM_magnitude digits hstart] at h
  split at h
  next hfits =>
    cases h
    exact hfits
  next => cases h

/-- An exponent is an `i64`. -/
theorem parseExponent_le {text : List Char} {exponent : Int} (h : parseExponent text = .ok exponent) :
    -i64Max ≤ exponent ∧ exponent ≤ i64Max := by
  unfold parseExponent at h
  rw [ite_error_eq_ok] at h
  obtain ⟨-, h⟩ := h
  generalize splitSign text = split at h
  obtain ⟨negative, digits⟩ := split
  dsimp only at h
  rw [ite_error_eq_ok, bind_eq_ok] at h
  obtain ⟨-, magnitude, hmagnitude, hvalue⟩ := h
  have hle := foldlM_magnitude_le (Nat.zero_le _) hmagnitude
  cases hvalue
  cases negative
  · simp only [Bool.false_eq_true, if_false]
    omega
  · simp only [if_true]
    omega

theorem splitExponent_le {unsigned mantissa : List Char} {exponent : Int}
    (h : splitExponent unsigned = .ok (mantissa, exponent)) :
    mantissa.length ≤ unsigned.length ∧ -i64Max ≤ exponent ∧ exponent ≤ i64Max := by
  unfold splitExponent at h
  dsimp only at h
  split at h
  next =>
    cases h
    exact ⟨Nat.le_refl _, by decide, by decide⟩
  next =>
    rw [ite_error_eq_ok, bind_eq_ok] at h
    obtain ⟨-, read, hread, heq⟩ := h
    cases heq
    exact ⟨(List.takeWhile_prefix _).length_le, parseExponent_le hread⟩

theorem trimZeroesChecked_eq (digits : List Char) {scale : Int} (hlower : -2 ^ 127 ≤ scale)
    (hupper : scale < 2 ^ 127) :
    trimZeroesChecked digits scale = Checked.ofExcept (.ok (trimZeroes digits scale)) := by
  fun_induction trimZeroes digits scale with
  | case1 rest scale hscale ih =>
    have hsub : checkedSub (rest.length + 1) 1 = some rest.length :=
      checkedSub_eq_some.mpr rfl
    have hnext : checkedSignedSub 128 scale 1 = some (scale - 1) := by
      unfold checkedSignedSub
      rw [if_pos (by omega)]
    rw [trimZeroesChecked, if_pos hscale, hsub, hnext, ← ih (by omega) (by omega)]
    rfl
  | case2 rest scale hscale => rw [trimZeroesChecked, if_neg hscale]; rfl
  | case3 digits scale hne =>
    unfold trimZeroesChecked
    split
    next rest _ => exact absurd rfl (hne _)
    next => rfl

theorem normalizedTextChecked_eq (negative : Bool) (coefficient : List Char) {scale : Int}
    (hlower : -2 ^ 126 ≤ scale) :
    normalizedTextChecked negative coefficient scale =
      Checked.ofExcept (do
        let _ ← normalizedBytes negative coefficient scale
        .ok (normalizedText negative coefficient scale)) := by
  unfold normalizedTextChecked normalizedText
  by_cases hscale : scale ≤ 0
  · have hneg : checkedSignedSub 128 0 scale = some (-scale) := by
      unfold checkedSignedSub
      rw [if_pos (by omega), zero_sub]
    rw [if_pos hscale, if_pos hscale, hneg]
    exact Checked.bind_ofExcept _ fun _ _ => rfl
  · rw [if_neg hscale, if_neg hscale]
    refine Checked.bind_ofExcept _ fun _ _ => ?_
    by_cases hpoint : scale.toNat < coefficient.length
    · have hsub : checkedSub coefficient.length scale.toNat =
          some (coefficient.length - scale.toNat) := checkedSub_eq_some.mpr (by omega)
      rw [if_pos hpoint, if_pos hpoint, hsub]
      rfl
    · have hsub : checkedSub scale.toNat coefficient.length =
          some (scale.toNat - coefficient.length) := checkedSub_eq_some.mpr (by omega)
      rw [if_neg hpoint, if_neg hpoint, hsub]
      rfl

/-- **No operation on lengths, positions and scales overflows.** -/
theorem normalizeDecimalChecked_eq (value : String) (hsize : value.utf8ByteSize ≤ i64Max) :
    normalizeDecimalChecked value = Checked.ofExcept (normalizeDecimal value) := by
  have hlength : value.toList.length ≤ i64Max := by
    rw [utf8ByteSize_eq] at hsize
    exact (length_le_utf8Size _).trans hsize
  have hunsigned : (splitSign value.toList).2.length ≤ i64Max := by
    obtain ⟨sign, hsplit, -⟩ := splitSign_eq value.toList
    have hparts := congrArg List.length hsplit
    rw [List.length_append] at hparts
    omega
  unfold normalizeDecimalChecked normalizeDecimal
  refine Checked.ite_throw _ fun _ => ?_
  generalize splitSign value.toList = split at hunsigned
  obtain ⟨negative, unsigned⟩ := split
  refine Checked.ite_throw _ fun _ => ?_
  dsimp only at hunsigned ⊢
  rw [splitExponentChecked_eq hunsigned]
  refine Checked.bind_ofExcept _ fun parts hparts => ?_
  obtain ⟨mantissa, exponent⟩ := parts
  obtain ⟨hmantissa, hlower, hupper⟩ := splitExponent_le hparts
  have hmax : (i64Max : Int) < 2 ^ 63 := by decide
  have hwide : 2 * i64Max ≤ usizeMax := by decide
  have hsplit := congrArg List.length
    (List.takeWhile_append_dropWhile (p := (· != '.')) (l := mantissa))
  rw [List.length_append] at hsplit
  dsimp only
  have hdrop : ((mantissa.dropWhile (· != '.')).drop 1).length ≤
      (mantissa.dropWhile (· != '.')).length := by
    rw [List.length_drop]
    exact Nat.sub_le _ _
  rw [fractionChecked_eq (by omega), Checked.ok_bind]
  generalize mantissa.takeWhile (· != '.') = integer at hsplit ⊢
  generalize (mantissa.dropWhile (· != '.')).drop 1 = fraction at hdrop ⊢
  refine Checked.ite_throw _ fun _ => Checked.ite_throw _ fun _ => Checked.ite_throw _ fun _ => ?_
  rw [checkedAdd_of_le (show integer.length + fraction.length ≤ usizeMax by omega)]
  show (if _ then _ else _) = _
  by_cases hempty : ((integer ++ fraction).dropWhile (· == '0')).isEmpty = true
  · rw [if_pos hempty, if_pos hempty]
    rfl
  · have hdigits := (List.dropWhile_suffix (p := (· == '0')) (l := integer ++ fraction)).length_le
    rw [List.length_append] at hdigits
    have hscale : checkedSignedSub 128 fraction.length exponent =
        some (fraction.length - exponent) := by
      unfold checkedSignedSub
      rw [if_pos (by omega)]
    rw [if_neg hempty, if_neg hempty, hscale]
    generalize (integer ++ fraction).dropWhile (· == '0') = digits at hdigits
    obtain ⟨count, hcount, hscale', -⟩ := trimZeroes_spec digits.reverse (fraction.length - exponent)
    have hle := congrArg List.length hcount
    rw [List.length_append, List.length_replicate, List.length_reverse] at hle
    show (trimZeroesChecked digits.reverse (fraction.length - exponent) >>= _) = _
    rw [trimZeroesChecked_eq _ (by omega) (by omega), Checked.ok_bind]
    generalize trimZeroes digits.reverse (fraction.length - exponent) = trimmed at hscale' hle
    obtain ⟨reversed, scale⟩ := trimmed
    dsimp only at hscale' ⊢
    rw [normalizedTextChecked_eq negative _ (by omega)]
    cases normalizedBytes negative reversed.reverse scale <;> rfl

end Checked

/-! ## The result -/

/-- **Normalization is exact and canonical**, and no operation on the way overflows, for a text of at
most `isize::MAX` bytes, which every `&str` is. -/
theorem normalizeDecimal_exact (source : String) :
    (∀ value, normalizeDecimal source = .ok value ↔
        ∃ literal canonical, Normalizes source value literal canonical) ∧
      (∀ value, normalizeDecimal source = .ok value → normalizeDecimal value = .ok value) ∧
      (∀ source' value value' literal literal' canonical canonical',
        Normalizes source value literal canonical →
          Normalizes source' value' literal' canonical' →
            (value = value' ↔ literal.value = literal'.value)) ∧
      (source.utf8ByteSize ≤ i64Max →
        normalizeDecimalChecked source = Checked.ofExcept (normalizeDecimal source)) :=
  ⟨fun _ => normalizeDecimal_eq_ok_iff, fun _ => normalizeDecimal_idem,
    fun _ _ _ _ _ _ _ => normalizeDecimal_eq_iff, normalizeDecimalChecked_eq source⟩

theorem normalizeDecimal_exact_signed :
    normalizeDecimalChecked "+01.50e1" = Checked.ofExcept (.ok "15") ∧
      ∃ literal canonical, Normalizes "+01.50e1" "15" literal canonical :=
  ⟨(normalizeDecimal_exact "+01.50e1").2.2.2 (by decide),
    ((normalizeDecimal_exact "+01.50e1").1 "15").mp (by decide)⟩

end Troupe.Core
