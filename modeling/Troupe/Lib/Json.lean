import Mathlib.Data.List.TakeWhile
import Mathlib.Tactic.IntervalCases
import Std.Data.String.ToNat

/-! # Compact JSON text

The text a JSON serializer writes when it adds no white space: object fields in the order given, the
two-character escapes where JSON has one, `\u00XX` for the other control characters, and every
other character as it is. A number is kept as its text, so it has any size and precision.

The text determines the value: `render_injective`. Each part of a value is read back from the front
of the text, so the statements carry what follows the part. A number is the one part whose end is
not marked, hence `Delimited`. -/

namespace Troupe.Lib

variable {text : List Char}

/-! ## Numbers -/

/-- An exponent, or the end of the number. -/
def isExponentText : List Char → Bool
  | [] => true
  | mark :: rest =>
    let digits := match rest with
      | '+' :: digits => digits
      | '-' :: digits => digits
      | digits => digits
    (mark == 'e' || mark == 'E') && !digits.isEmpty && digits.all Char.isDigit

/-- What follows the integer part of a number: a fraction, an exponent, both or neither. -/
def isFractionText : List Char → Bool
  | '.' :: rest =>
    !(rest.takeWhile Char.isDigit).isEmpty && isExponentText (rest.dropWhile Char.isDigit)
  | rest => isExponentText rest

/-- A number without its sign: digits with no leading zero, then what may follow them. -/
def isUnsignedText (text : List Char) : Bool :=
  let integer := text.takeWhile Char.isDigit
  !integer.isEmpty && (integer.length == 1 || integer.head? != some '0') &&
    isFractionText (text.dropWhile Char.isDigit)

/-- The grammar of a JSON number. -/
def isNumberText : List Char → Bool
  | '-' :: unsigned => isUnsignedText unsigned
  | unsigned => isUnsignedText unsigned

/-- The characters a number is written with. -/
def isNumberChar (c : Char) : Bool :=
  c.isDigit || c == '-' || c == '+' || c == '.' || c == 'e' || c == 'E'

/-- A JSON number, as its text. -/
structure JsonNumber where
  text : List Char
  /-- The text follows the grammar. -/
  valid : isNumberText text = true

theorem isNumberChar_of_isDigit {c : Char} (h : c.isDigit = true) : isNumberChar c = true := by
  simp [isNumberChar, h]

theorem isNumberChar_of_isExponentText (h : isExponentText text = true) :
    ∀ c ∈ text, isNumberChar c = true := by
  match text with
  | [] => simp
  | mark :: rest =>
    simp only [isExponentText, Bool.and_eq_true, Bool.or_eq_true, beq_iff_eq] at h
    obtain ⟨⟨hmark, -⟩, hdigits⟩ := h
    have hrest : ∀ c ∈ rest, isNumberChar c = true := by
      intro c hc
      split at hdigits
      · rcases List.mem_cons.mp hc with rfl | hc
        · decide
        · exact isNumberChar_of_isDigit (List.all_eq_true.mp hdigits c hc)
      · rcases List.mem_cons.mp hc with rfl | hc
        · decide
        · exact isNumberChar_of_isDigit (List.all_eq_true.mp hdigits c hc)
      · exact isNumberChar_of_isDigit (List.all_eq_true.mp hdigits c hc)
    refine List.forall_mem_cons.mpr ⟨?_, hrest⟩
    rcases hmark with rfl | rfl <;> decide

/-- The text splits into its leading digits and the rest. -/
theorem isNumberChar_of_dropWhile
    (h : ∀ c ∈ text.dropWhile Char.isDigit, isNumberChar c = true) :
    ∀ c ∈ text, isNumberChar c = true := by
  intro c hc
  rw [← List.takeWhile_append_dropWhile (p := Char.isDigit) (l := text)] at hc
  rcases List.mem_append.mp hc with hc | hc
  · exact isNumberChar_of_isDigit (List.mem_takeWhile_imp hc)
  · exact h c hc

theorem isNumberChar_of_isUnsignedText (h : isUnsignedText text = true) :
    ∀ c ∈ text, isNumberChar c = true := by
  simp only [isUnsignedText, Bool.and_eq_true] at h
  obtain ⟨-, hfraction⟩ := h
  apply isNumberChar_of_dropWhile
  generalize text.dropWhile Char.isDigit = rest at hfraction ⊢
  unfold isFractionText at hfraction
  split at hfraction
  · simp only [Bool.and_eq_true] at hfraction
    refine List.forall_mem_cons.mpr ⟨by decide, ?_⟩
    exact isNumberChar_of_dropWhile (isNumberChar_of_isExponentText hfraction.2)
  · exact isNumberChar_of_isExponentText hfraction

theorem isUnsignedText_head (h : isUnsignedText text = true) :
    ∃ c rest, text = c :: rest ∧ c.isDigit = true := by
  match text with
  | [] => simp [isUnsignedText] at h
  | c :: rest =>
    refine ⟨c, rest, rfl, ?_⟩
    by_contra hc
    simp [isUnsignedText, List.takeWhile_cons_of_neg hc] at h

namespace JsonNumber

theorem isNumberChar_of_mem (number : JsonNumber) : ∀ c ∈ number.text, isNumberChar c = true := by
  obtain ⟨text, h⟩ := number
  unfold isNumberText at h
  split at h
  · exact List.forall_mem_cons.mpr ⟨by decide, isNumberChar_of_isUnsignedText h⟩
  · exact isNumberChar_of_isUnsignedText h

/-- A number starts with a digit or a minus. -/
theorem head (number : JsonNumber) :
    ∃ c rest, number.text = c :: rest ∧ (c.isDigit = true ∨ c = '-') := by
  obtain ⟨text, h⟩ := number
  unfold isNumberText at h
  split at h
  · exact ⟨_, _, rfl, Or.inr rfl⟩
  · obtain ⟨c, rest, htext, hc⟩ := isUnsignedText_head h
    exact ⟨c, rest, htext, Or.inl hc⟩

end JsonNumber

/-- The first digit of a positive number is not zero. -/
theorem head_toDigits_ne_zero {value : Nat} (h : 0 < value) :
    (Nat.toDigits 10 value).head? ≠ some '0' := by
  induction value using Nat.strongRecOn with
  | ind value ih =>
    by_cases hsmall : value < 10
    · rw [Nat.toDigits_of_lt_base hsmall]
      interval_cases value <;> decide
    · rw [Nat.toDigits_of_base_le (by decide) (by omega), List.head?_append,
        Option.or_of_isSome (by simp [Nat.toDigits_ne_nil])]
      exact ih (value / 10) (by omega) (by omega)

theorem toDigits_isDigit {value : Nat} : ∀ c ∈ Nat.toDigits 10 value, c.isDigit = true :=
  fun _ hc => Nat.isDigit_of_mem_toDigits (by decide) (by decide) hc

theorem isUnsignedText_toDigits (value : Nat) : isUnsignedText (Nat.toDigits 10 value) = true := by
  have htake : (Nat.toDigits 10 value).takeWhile Char.isDigit = Nat.toDigits 10 value :=
    List.takeWhile_eq_self_iff.mpr toDigits_isDigit
  have hdrop : (Nat.toDigits 10 value).dropWhile Char.isDigit = [] :=
    List.dropWhile_eq_nil_iff.mpr toDigits_isDigit
  have hzero : (Nat.toDigits 10 value).length = 1 ∨ (Nat.toDigits 10 value).head? ≠ some '0' := by
    rcases Nat.eq_zero_or_pos value with rfl | hpos
    · exact Or.inl rfl
    · exact Or.inr (head_toDigits_ne_zero hpos)
  simp only [isUnsignedText, htake, hdrop, isFractionText, isExponentText, Bool.and_true,
    Bool.and_eq_true, Bool.or_eq_true, bne_iff_ne, beq_iff_eq]
  exact ⟨by simp [Nat.toDigits_ne_nil], hzero⟩

/-- A natural number, as its decimal digits. -/
def JsonNumber.ofNat (value : Nat) : JsonNumber where
  text := Nat.toDigits 10 value
  valid := by
    obtain ⟨c, rest, htext, hc⟩ := isUnsignedText_head (isUnsignedText_toDigits value)
    have hminus : c ≠ '-' := by rintro rfl; revert hc; decide
    have hunsigned := isUnsignedText_toDigits value
    rw [htext] at hunsigned ⊢
    unfold isNumberText
    split
    next h => exact absurd (List.cons.inj h).1 hminus
    next => exact hunsigned

/-! ## Values -/

mutual

/-- A JSON value. -/
inductive Json where
  | null
  | bool (value : Bool)
  | number (value : JsonNumber)
  | string (value : String)
  | array (items : JsonItems)
  | object (fields : JsonFields)

/-- The items of an array, in order. -/
inductive JsonItems where
  | nil
  | cons (value : Json) (rest : JsonItems)

/-- The fields of an object, in order. -/
inductive JsonFields where
  | nil
  | cons (key : String) (value : Json) (rest : JsonFields)

end

/-- The fields of an object from a list of key and value. -/
def JsonFields.ofList : List (String × Json) → JsonFields
  | [] => .nil
  | (key, value) :: rest => .cons key value (ofList rest)

/-- The items of an array from a list. -/
def JsonItems.ofList : List Json → JsonItems
  | [] => .nil
  | value :: rest => .cons value (ofList rest)

/-- The items of an array as a list. -/
def JsonItems.toList : JsonItems → List Json
  | .nil => []
  | .cons value rest => value :: rest.toList

/-- The fields of an object as a list of key and value. -/
def JsonFields.toList : JsonFields → List (String × Json)
  | .nil => []
  | .cons key value rest => (key, value) :: rest.toList

@[simp] theorem JsonItems.toList_ofList (items : List Json) : (ofList items).toList = items := by
  induction items with
  | nil => rfl
  | cons value rest ih => rw [ofList, toList, ih]

@[simp] theorem JsonFields.toList_ofList (fields : List (String × Json)) :
    (ofList fields).toList = fields := by
  induction fields with
  | nil => rfl
  | cons field rest ih => rw [ofList, toList, ih]

theorem JsonFields.ofList_injective : Function.Injective JsonFields.ofList :=
  Function.LeftInverse.injective toList_ofList

namespace Json

/-- A natural number. -/
def nat (value : Nat) : Json := .number (.ofNat value)

/-! ## Strings -/

/-- A lower-case hexadecimal digit. -/
def hexDigit (value : Nat) : Char :=
  if value < 10 then Char.ofNat ('0'.toNat + value) else Char.ofNat ('a'.toNat + (value - 10))

/-- A character inside a string. -/
def escapeChar (c : Char) : List Char :=
  if c = '"' then ['\\', '"']
  else if c = '\\' then ['\\', '\\']
  else if c = '\x08' then ['\\', 'b']
  else if c = '\x0c' then ['\\', 'f']
  else if c = '\n' then ['\\', 'n']
  else if c = '\r' then ['\\', 'r']
  else if c = '\t' then ['\\', 't']
  else if c.toNat < 32 then ['\\', 'u', '0', '0', hexDigit (c.toNat / 16), hexDigit (c.toNat % 16)]
  else [c]

/-- The characters of a string up to its closing quote. -/
def escape (text : List Char) : List Char := text.flatMap escapeChar

/-- A string between its quotes. -/
def quote (text : String) : List Char := '"' :: (escape text.toList ++ ['"'])

/-- Read one character of a string back; `none` at its closing quote. -/
def unescapeChar : List Char → Option (Char × List Char)
  | '\\' :: 'u' :: '0' :: '0' :: high :: low :: rest =>
    let value := fun (digit : Char) =>
      if digit.toNat < 'a'.toNat then digit.toNat - '0'.toNat else digit.toNat - 'a'.toNat + 10
    some (Char.ofNat (16 * value high + value low), rest)
  | '\\' :: c :: rest =>
    let plain := match c with
      | 'b' => '\x08'
      | 'f' => '\x0c'
      | 'n' => '\n'
      | 'r' => '\r'
      | 't' => '\t'
      | c => c
    some (plain, rest)
  | '"' :: _ => none
  | c :: rest => some (c, rest)
  | [] => none

theorem unescapeChar_control {n : Nat} (h : n < 32) (rest : List Char) :
    unescapeChar ('\\' :: 'u' :: '0' :: '0' :: hexDigit (n / 16) :: hexDigit (n % 16) :: rest) =
      some (Char.ofNat n, rest) := by
  interval_cases n <;> rfl

theorem unescapeChar_escapeChar (c : Char) (rest : List Char) :
    unescapeChar (escapeChar c ++ rest) = some (c, rest) := by
  unfold escapeChar
  split
  next h => subst h; rfl
  split
  next h => subst h; rfl
  split
  next h => subst h; rfl
  split
  next h => subst h; rfl
  split
  next h => subst h; rfl
  split
  next h => subst h; rfl
  split
  next h => subst h; rfl
  split
  next h =>
    have hread := unescapeChar_control h rest
    rw [Char.ofNat_toNat] at hread
    exact hread
  next hquote hslash _ _ _ _ _ _ =>
    show unescapeChar (c :: rest) = some (c, rest)
    unfold unescapeChar
    split <;> simp_all

/-- The escaped text and what follows its closing quote are read back. -/
theorem escape_append_cancel {a b r s : List Char}
    (h : escape a ++ '"' :: r = escape b ++ '"' :: s) : a = b ∧ r = s := by
  induction a generalizing b with
  | nil =>
    cases b with
    | nil => exact ⟨rfl, by simpa [escape] using h⟩
    | cons d b =>
      have hread := congrArg unescapeChar h
      rw [show escape (d :: b) = escapeChar d ++ escape b from rfl, List.append_assoc,
        unescapeChar_escapeChar] at hread
      cases hread
  | cons c a ih =>
    rw [show escape (c :: a) = escapeChar c ++ escape a from rfl, List.append_assoc] at h
    cases b with
    | nil =>
      have hread := congrArg unescapeChar h
      rw [unescapeChar_escapeChar] at hread
      cases hread
    | cons d b =>
      rw [show escape (d :: b) = escapeChar d ++ escape b from rfl, List.append_assoc] at h
      have hread := congrArg unescapeChar h
      rw [unescapeChar_escapeChar, unescapeChar_escapeChar] at hread
      obtain ⟨rfl, hrest⟩ : c = d ∧ escape a ++ '"' :: r = escape b ++ '"' :: s := by
        simpa using hread
      obtain ⟨rfl, rfl⟩ := ih hrest
      exact ⟨rfl, rfl⟩

theorem quote_append_cancel {a b : String} {r s : List Char} (h : quote a ++ r = quote b ++ s) :
    a = b ∧ r = s := by
  unfold quote at h
  simp only [List.cons_append, List.append_assoc, List.nil_append, List.cons.injEq, true_and] at h
  obtain ⟨hchars, rfl⟩ := escape_append_cancel h
  exact ⟨String.toList_inj.mp hchars, rfl⟩

/-! ## Rendering -/

mutual

/-- The text of a value. -/
def render : Json → List Char
  | .null => "null".toList
  | .bool true => "true".toList
  | .bool false => "false".toList
  | .number value => value.text
  | .string value => quote value
  | .array .nil => ['[', ']']
  | .array (.cons value rest) => '[' :: (render value ++ renderItems rest)
  | .object .nil => ['{', '}']
  | .object (.cons key value rest) =>
    '{' :: (quote key ++ ':' :: (render value ++ renderRest rest))

/-- The items after the first, and the closing bracket. -/
def renderItems : JsonItems → List Char
  | .nil => [']']
  | .cons value rest => ',' :: (render value ++ renderItems rest)

/-- The fields after the first, and the closing brace. -/
def renderRest : JsonFields → List Char
  | .nil => ['}']
  | .cons key value rest => ',' :: (quote key ++ ':' :: (render value ++ renderRest rest))

end

/-- What follows a value: nothing, the next field or item, or the end of the object or array. -/
def Delimited (rest : List Char) : Prop := ∀ c ∈ rest.head?, c = ',' ∨ c = '}' ∨ c = ']'

theorem delimited_nil : Delimited [] := by simp [Delimited]

theorem delimited_renderItems (items : JsonItems) (rest : List Char) :
    Delimited (renderItems items ++ rest) := by
  cases items <;> simp [renderItems, Delimited]

theorem delimited_renderRest (fields : JsonFields) (rest : List Char) :
    Delimited (renderRest fields ++ rest) := by
  cases fields <;> simp [renderRest, Delimited]

theorem takeWhile_number (number : JsonNumber) {rest : List Char} (h : Delimited rest) :
    (number.text ++ rest).takeWhile isNumberChar = number.text := by
  rw [List.takeWhile_append_of_pos number.isNumberChar_of_mem]
  cases rest with
  | nil => simp
  | cons c rest =>
    have hc : c = ',' ∨ c = '}' ∨ c = ']' := h c rfl
    rw [List.takeWhile_cons_of_neg, List.append_nil]
    rcases hc with rfl | rfl | rfl <;> decide

theorem number_append_cancel {a b : JsonNumber} {r s : List Char} (hr : Delimited r)
    (hs : Delimited s) (h : a.text ++ r = b.text ++ s) : a = b ∧ r = s := by
  have htext : a.text = b.text := by
    rw [← takeWhile_number a hr, h, takeWhile_number b hs]
  obtain ⟨text, ha⟩ := a
  obtain ⟨text', hb⟩ := b
  subst htext
  exact ⟨rfl, List.append_cancel_left h⟩

/-- The kind of a value, the two booleans apart. -/
def tag : Json → Nat
  | .null => 0
  | .bool true => 1
  | .bool false => 2
  | .number _ => 3
  | .string _ => 4
  | .object _ => 5
  | .array _ => 6

/-- The kind of value whose text starts with a character. -/
def tagOfChar (c : Char) : Nat :=
  if c = 'n' then 0
  else if c = 't' then 1
  else if c = 'f' then 2
  else if c.isDigit || c = '-' then 3
  else if c = '"' then 4
  else if c = '[' then 6
  else 5

theorem tagOfChar_digit {c : Char} (h : c.isDigit = true) : tagOfChar c = 3 := by
  have hn : c ≠ 'n' := by rintro rfl; revert h; decide
  have ht : c ≠ 't' := by rintro rfl; revert h; decide
  have hf : c ≠ 'f' := by rintro rfl; revert h; decide
  simp [tagOfChar, hn, ht, hf, h]

/-- The first character of a value's text tells its kind. -/
theorem render_head (value : Json) :
    ∃ c rest, render value = c :: rest ∧ tagOfChar c = value.tag := by
  match value with
  | .null => exact ⟨_, _, rfl, rfl⟩
  | .bool true => exact ⟨_, _, rfl, rfl⟩
  | .bool false => exact ⟨_, _, rfl, rfl⟩
  | .string _ => exact ⟨_, _, rfl, rfl⟩
  | .array .nil => exact ⟨_, _, rfl, rfl⟩
  | .array (.cons _ _) => exact ⟨_, _, rfl, rfl⟩
  | .object .nil => exact ⟨_, _, rfl, rfl⟩
  | .object (.cons _ _ _) => exact ⟨_, _, rfl, rfl⟩
  | .number value =>
    obtain ⟨c, rest, htext, hc⟩ := value.head
    refine ⟨c, rest, htext, ?_⟩
    rcases hc with hc | rfl
    · exact tagOfChar_digit hc
    · rfl

theorem tag_eq_of_render {a b : Json} {r s : List Char} (h : render a ++ r = render b ++ s) :
    a.tag = b.tag := by
  obtain ⟨c, _, ha, hc⟩ := render_head a
  obtain ⟨d, _, hb, hd⟩ := render_head b
  rw [ha, hb] at h
  have hcd : c = d := (List.cons.inj h).1
  rw [← hc, ← hd, hcd]

/-- The bracket that closes an array starts no value. -/
theorem render_ne_bracket {value : Json} {r s : List Char} : render value ++ r ≠ ']' :: s := by
  intro h
  obtain ⟨c, _, hvalue, hc⟩ := render_head value
  rw [hvalue, List.cons_append] at h
  obtain ⟨rfl, -⟩ := List.cons.inj h
  match value with
  | .object .nil | .object (.cons _ _ _) => simp [render] at hvalue
  | .null | .bool true | .bool false | .number _ | .string _ | .array _ =>
    exact absurd hc (by simp only [tag]; decide)

mutual

theorem render_append_cancel : ∀ (a b : Json) {r s : List Char}, Delimited r → Delimited s →
    render a ++ r = render b ++ s → a = b ∧ r = s
  | .null, b, r, s, _, _, h => by
    have htag := tag_eq_of_render h
    match b with
    | .null => exact ⟨rfl, List.append_cancel_left h⟩
    | .bool true | .bool false | .number _ | .string _ | .array _ | .object _ => simp [tag] at htag
  | .bool true, b, r, s, _, _, h => by
    have htag := tag_eq_of_render h
    match b with
    | .bool true => exact ⟨rfl, List.append_cancel_left h⟩
    | .null | .bool false | .number _ | .string _ | .array _ | .object _ => simp [tag] at htag
  | .bool false, b, r, s, _, _, h => by
    have htag := tag_eq_of_render h
    match b with
    | .bool false => exact ⟨rfl, List.append_cancel_left h⟩
    | .null | .bool true | .number _ | .string _ | .array _ | .object _ => simp [tag] at htag
  | .number x, b, r, s, hr, hs, h => by
    have htag := tag_eq_of_render h
    match b with
    | .number y =>
      obtain ⟨rfl, rfl⟩ := number_append_cancel hr hs h
      exact ⟨rfl, rfl⟩
    | .null | .bool true | .bool false | .string _ | .array _ | .object _ => simp [tag] at htag
  | .string x, b, r, s, _, _, h => by
    have htag := tag_eq_of_render h
    match b with
    | .string y =>
      obtain ⟨rfl, rfl⟩ := quote_append_cancel h
      exact ⟨rfl, rfl⟩
    | .null | .bool true | .bool false | .number _ | .array _ | .object _ => simp [tag] at htag
  | .array .nil, b, r, s, _, _, h => by
    have htag := tag_eq_of_render h
    match b with
    | .array .nil => exact ⟨rfl, by simpa [render] using h⟩
    | .array (.cons value rest) =>
      simp only [render, List.cons_append, List.append_assoc, List.cons.injEq, true_and] at h
      exact absurd h.symm render_ne_bracket
    | .null | .bool true | .bool false | .number _ | .string _ | .object _ => simp [tag] at htag
  | .array (.cons value rest), b, r, s, _, _, h => by
    have htag := tag_eq_of_render h
    match b with
    | .array .nil =>
      simp only [render, List.cons_append, List.append_assoc, List.cons.injEq, true_and] at h
      exact absurd h render_ne_bracket
    | .array (.cons value' rest') =>
      simp only [render, List.cons_append, List.append_assoc, List.cons.injEq, true_and] at h
      obtain ⟨rfl, hrest⟩ := render_append_cancel value value' (delimited_renderItems rest r)
        (delimited_renderItems rest' s) h
      obtain ⟨rfl, rfl⟩ := renderItems_append_cancel rest rest' hrest
      exact ⟨rfl, rfl⟩
    | .null | .bool true | .bool false | .number _ | .string _ | .object _ => simp [tag] at htag
  | .object .nil, b, r, s, _, _, h => by
    have htag := tag_eq_of_render h
    match b with
    | .object .nil => exact ⟨rfl, by simpa [render] using h⟩
    | .object (.cons _ _ _) => simp [render, quote] at h
    | .null | .bool true | .bool false | .number _ | .string _ | .array _ => simp [tag] at htag
  | .object (.cons key value rest), b, r, s, _, _, h => by
    have htag := tag_eq_of_render h
    match b with
    | .object .nil => simp [render, quote] at h
    | .object (.cons key' value' rest') =>
      simp only [render, List.cons_append, List.append_assoc, List.cons.injEq, true_and] at h
      obtain ⟨rfl, hvalue⟩ := quote_append_cancel h
      obtain ⟨rfl, hrest⟩ := render_append_cancel value value' (delimited_renderRest rest r)
        (delimited_renderRest rest' s) (List.cons.inj hvalue).2
      obtain ⟨rfl, rfl⟩ := renderRest_append_cancel rest rest' hrest
      exact ⟨rfl, rfl⟩
    | .null | .bool true | .bool false | .number _ | .string _ | .array _ => simp [tag] at htag

theorem renderItems_append_cancel : ∀ (a b : JsonItems) {r s : List Char},
    renderItems a ++ r = renderItems b ++ s → a = b ∧ r = s
  | .nil, .nil, r, s, h => ⟨rfl, by simpa [renderItems] using h⟩
  | .nil, .cons _ _, r, s, h => by simp [renderItems] at h
  | .cons _ _, .nil, r, s, h => by simp [renderItems] at h
  | .cons value rest, .cons value' rest', r, s, h => by
    simp only [renderItems, List.cons_append, List.append_assoc, List.cons.injEq, true_and] at h
    obtain ⟨rfl, hrest⟩ := render_append_cancel value value' (delimited_renderItems rest r)
      (delimited_renderItems rest' s) h
    obtain ⟨rfl, rfl⟩ := renderItems_append_cancel rest rest' hrest
    exact ⟨rfl, rfl⟩

theorem renderRest_append_cancel : ∀ (a b : JsonFields) {r s : List Char},
    renderRest a ++ r = renderRest b ++ s → a = b ∧ r = s
  | .nil, .nil, r, s, h => ⟨rfl, by simpa [renderRest] using h⟩
  | .nil, .cons _ _ _, r, s, h => by simp [renderRest] at h
  | .cons _ _ _, .nil, r, s, h => by simp [renderRest] at h
  | .cons key value rest, .cons key' value' rest', r, s, h => by
    simp only [renderRest, List.cons_append, List.append_assoc, List.cons.injEq, true_and] at h
    obtain ⟨rfl, hvalue⟩ := quote_append_cancel h
    obtain ⟨rfl, hrest⟩ := render_append_cancel value value' (delimited_renderRest rest r)
      (delimited_renderRest rest' s) (List.cons.inj hvalue).2
    obtain ⟨rfl, rfl⟩ := renderRest_append_cancel rest rest' hrest
    exact ⟨rfl, rfl⟩

end

/-- A value's text determines the value. -/
theorem render_injective : Function.Injective render := by
  intro a b h
  have h' : render a ++ [] = render b ++ [] := by rw [h]
  exact (render_append_cancel a b delimited_nil delimited_nil h').1

/-! ## Text and bytes -/

/-- `serde_json::to_string`. -/
def toString (value : Json) : String := String.ofList value.render

theorem toString_injective : Function.Injective toString := by
  intro a b h
  exact render_injective (String.ofList_injective h)

end Json

/-- The UTF-8 bytes of a text. -/
def utf8 (text : String) : List UInt8 := text.toByteArray.data.toList

theorem utf8_injective : Function.Injective utf8 := by
  intro a b h
  have hdata : a.toByteArray.data = b.toByteArray.data := Array.toList_inj.mp h
  exact String.toByteArray_inj.mp (ByteArray.ext hdata)

/-- `serde_json::to_vec`. -/
def Json.toVec (value : Json) : List UInt8 := utf8 value.toString

theorem Json.toVec_injective : Function.Injective Json.toVec := by
  intro a b h
  exact Json.toString_injective (utf8_injective h)

end Troupe.Lib
