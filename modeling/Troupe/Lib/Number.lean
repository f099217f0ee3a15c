import Troupe.Lib.Json

/-! # The values of JSON numbers

A `JsonNumber` is text. This file reads the text as the machine numbers a program asks for: signed
and unsigned 64-bit integers, which want a number written without fraction and exponent, and
binary64, for which every number is rounded to the nearest float, ties to even.

A binary64 number is Lean's `Float.Model`. It is compared as IEEE 754 says, so the two zeros are
equal, and `not_lt_iff` is the law that needs both sides to be numbers. -/

namespace Troupe.Lib

/-- A binary64 number. -/
abbrev Float64 := Float.Model

/-! ## Comparing floats -/

namespace Float64

open Float.Model

theorem compare_swap (a b : UnpackedFloat) : b.compare a = (a.compare b).map Ordering.swap := by
  cases a with
  | notANumber => cases b <;> rfl
  | infinity s =>
    cases b with
    | infinity t => cases s <;> cases t <;> rfl
    | notANumber => cases s <;> rfl
    | zero t => cases s <;> rfl
    | finite t => cases s <;> rfl
  | zero s =>
    cases b with
    | finite t => cases t <;> rfl
    | infinity t => cases t <;> rfl
    | notANumber => rfl
    | zero t => rfl
  | finite s m e hm =>
    cases b with
    | notANumber => rfl
    | infinity t => cases s <;> cases t <;> rfl
    | zero t => cases s <;> rfl
    | finite t n f hn =>
      cases s <;> cases t <;>
        dsimp only [UnpackedFloat.compare] <;>
        simp only [Option.map_some, Ordering.swap_then, Int.compare_swap, Nat.compare_swap] <;> rfl

theorem compare_isSome {a b : UnpackedFloat} (ha : a.isFinite = true) (hb : b.isFinite = true) :
    ∃ order, a.compare b = some order := by
  cases a with
  | notANumber => cases ha
  | infinity _ => cases ha
  | zero s =>
    cases b with
    | notANumber => cases hb
    | infinity _ => cases hb
    | zero _ => exact ⟨_, rfl⟩
    | finite t => cases t <;> exact ⟨_, rfl⟩
  | finite s =>
    cases b with
    | notANumber => cases hb
    | infinity _ => cases hb
    | zero _ => cases s <;> exact ⟨_, rfl⟩
    | finite t => cases s <;> cases t <;> exact ⟨_, rfl⟩

/-- Finite floats are totally ordered. -/
theorem not_lt_iff {a b : Float64} (ha : a.isFinite = true) (hb : b.isFinite = true) :
    ¬ a < b ↔ b ≤ a := by
  obtain ⟨order, horder⟩ := compare_isSome (a := a.unpack) (b := b.unpack) ha hb
  have hlt : a < b ↔ order = .lt := by
    show a.unpack.lt b.unpack = true ↔ _
    rw [UnpackedFloat.lt, horder]
    cases order <;> decide
  have hle : b ≤ a ↔ order.swap.isLE = true := by
    show b.unpack.le a.unpack = true ↔ _
    rw [UnpackedFloat.le, compare_swap, horder]
    rfl
  rw [hlt, hle]
  cases order <;> decide

/-- The same number; the two zeros are. -/
def SameValue (a b : Float64) : Prop :=
  a = b ∨ (∃ s, a.unpack = .zero s) ∧ ∃ s, b.unpack = .zero s

theorem zero_compare (s t : UnpackedFloat.Sign) (b : UnpackedFloat) :
    (UnpackedFloat.zero s).compare b = (UnpackedFloat.zero t).compare b := by
  cases b with
  | notANumber => rfl
  | infinity u => cases u <;> rfl
  | zero => rfl
  | finite u => cases u <;> rfl

namespace SameValue

variable {a b : Float64}

theorem compare (h : SameValue a b) (c : Float64) :
    a.unpack.compare c.unpack = b.unpack.compare c.unpack := by
  rcases h with rfl | ⟨⟨s, ha⟩, t, hb⟩
  · rfl
  · rw [ha, hb, zero_compare s t]

theorem isFinite (h : SameValue a b) : a.isFinite = b.isFinite := by
  rcases h with rfl | ⟨⟨s, ha⟩, t, hb⟩
  · rfl
  · rw [Float.Model.isFinite, Float.Model.isFinite, ha, hb]
    rfl

theorem lt_iff (h : SameValue a b) (c : Float64) : a < c ↔ b < c := by
  show (a.unpack.compare c.unpack == _) = true ↔ (b.unpack.compare c.unpack == _) = true
  rw [h.compare]

theorem gt_iff (h : SameValue a b) (c : Float64) : c < a ↔ c < b := by
  show (c.unpack.compare a.unpack == _) = true ↔ (c.unpack.compare b.unpack == _) = true
  rw [compare_swap a.unpack, compare_swap b.unpack, h.compare]

theorem beq (h : SameValue a b) (c : Float64) : (a == c) = (b == c) := by
  show (a.unpack.compare c.unpack == _) = (b.unpack.compare c.unpack == _)
  rw [h.compare]

end SameValue

end Float64

/-! ## Reading numbers -/

/-- The number a run of digits stands for. -/
def digitsValue (digits : List Char) : Nat := Nat.ofDigitChars 10 digits 0

/-- `str::parse` of a signed integer, before the width is checked. -/
def parseInt? : List Char → Option Int
  | '-' :: digits =>
    if !digits.isEmpty && digits.all Char.isDigit then some (-(digitsValue digits : Int)) else none
  | digits =>
    if !digits.isEmpty && digits.all Char.isDigit then some (digitsValue digits : Int) else none

/-- The digits of an integer, after its sign. -/
theorem parseInt?_eq_some {text : List Char} {value : Int} (h : parseInt? text = some value) :
    ∃ digits, digits.all Char.isDigit = true ∧ digits ≠ [] ∧
      (text = '-' :: digits ∧ value = -(digitsValue digits : Int) ∨
        text = digits ∧ value = (digitsValue digits : Int)) := by
  unfold parseInt? at h
  split at h
  next digits =>
    split at h
    next hvalid =>
      rw [Bool.and_eq_true, Bool.not_eq_true', List.isEmpty_eq_false_iff] at hvalid
      cases h
      exact ⟨digits, hvalid.2, hvalid.1, Or.inl ⟨rfl, rfl⟩⟩
    next => cases h
  next =>
    split at h
    next hvalid =>
      rw [Bool.and_eq_true, Bool.not_eq_true', List.isEmpty_eq_false_iff] at hvalid
      cases h
      exact ⟨text, hvalid.2, hvalid.1, Or.inr ⟨rfl, rfl⟩⟩
    next => cases h

/-- The exponent of a number, from its text. -/
def parseExponent : List Char → Int
  | _ :: '+' :: digits => digitsValue digits
  | _ :: '-' :: digits => -(digitsValue digits : Int)
  | _ :: digits => digitsValue digits
  | [] => 0

/-- The float nearest to an unsigned decimal number. -/
def parseUnsignedFloat (text : List Char) : Float64 :=
  let integer := text.takeWhile Char.isDigit
  match text.dropWhile Char.isDigit with
  | '.' :: rest =>
    let fraction := rest.takeWhile Char.isDigit
    .ofScientific (digitsValue (integer ++ fraction))
      (parseExponent (rest.dropWhile Char.isDigit) - fraction.length)
  | exponent => .ofScientific (digitsValue integer) (parseExponent exponent)

/-- `str::parse` of an `f64`, on the texts of JSON numbers. -/
def parseFloat : List Char → Float64
  | '-' :: unsigned => -parseUnsignedFloat unsigned
  | unsigned => parseUnsignedFloat unsigned

theorem parseUnsignedFloat_digits {digits : List Char} (h : digits.all Char.isDigit = true) :
    parseUnsignedFloat digits = .ofScientific (digitsValue digits) 0 := by
  have htake : digits.takeWhile Char.isDigit = digits :=
    List.takeWhile_eq_self_iff.mpr (List.all_eq_true.mp h)
  have hdrop : digits.dropWhile Char.isDigit = [] :=
    List.dropWhile_eq_nil_iff.mpr (List.all_eq_true.mp h)
  rw [parseUnsignedFloat, htake, hdrop]
  rfl

namespace JsonNumber

/-- Whether the number is written without a fraction and without an exponent. -/
def isInteger (number : JsonNumber) : Bool :=
  !number.text.any fun c => c == '.' || c == 'e' || c == 'E'

/-- `Number::as_i64`. -/
def asI64 (number : JsonNumber) : Option Int :=
  (parseInt? number.text).filter fun value => decide (-2 ^ 63 ≤ value ∧ value < 2 ^ 63)

/-- `Number::as_u64`. -/
def asU64 (number : JsonNumber) : Option Nat :=
  if number.text.head? = some '-' then none
  else (parseInt? number.text).bind fun value => if value < 2 ^ 64 then some value.toNat else none

/-- `Number::as_f64`. -/
def asF64 (number : JsonNumber) : Option Float64 :=
  some (parseFloat number.text) |>.filter Float.Model.isFinite

theorem isInteger_of_parseInt? {number : JsonNumber} {value : Int}
    (h : parseInt? number.text = some value) : number.isInteger = true := by
  have hdigit : ∀ c : Char, c.isDigit = true → (c == '.' || c == 'e' || c == 'E') = false := by
    intro c hc
    by_contra hmark
    simp only [Bool.not_eq_false, Bool.or_eq_true, beq_iff_eq] at hmark
    rcases hmark with (rfl | rfl) | rfl <;> revert hc <;> decide
  have hdigits : ∀ text : List Char, text.all Char.isDigit = true →
      (text.any fun c => c == '.' || c == 'e' || c == 'E') = false := by
    intro text hall
    exact List.any_eq_false.mpr fun c hc => by simp [hdigit c (List.all_eq_true.mp hall c hc)]
  obtain ⟨digits, hall, -, htext | htext⟩ := parseInt?_eq_some h
  · rw [isInteger, htext.1, List.any_cons, hdigits digits hall]
    rfl
  · rw [isInteger, htext.1, hdigits digits hall]
    rfl

theorem isInteger_of_asI64 {number : JsonNumber} {value : Int} (h : number.asI64 = some value) :
    number.isInteger = true :=
  isInteger_of_parseInt? (Option.filter_eq_some_iff.mp h).1

theorem isInteger_of_asU64 {number : JsonNumber} {value : Nat} (h : number.asU64 = some value) :
    number.isInteger = true := by
  unfold asU64 at h
  split at h
  · cases h
  · obtain ⟨parsed, hparsed, -⟩ := Option.bind_eq_some_iff.mp h
    exact isInteger_of_parseInt? hparsed

end JsonNumber

end Troupe.Lib
