import Mathlib.Order.Basic
import Mathlib.Order.Compare
import Std.Data.ExtTreeMap
import Std.Data.ExtTreeSet
import Troupe.Lib.Machine

/-! # Scalars and identifiers

The value types of `troupe-diagnostics-core`: `scalar.rs`, `id.rs`, `time.rs`, `wire.rs` and the
`CanonicalInteger` of `detail.rs`. Each is a structure that carries what its checked constructor
established, so an ill-formed identifier or number cannot be built.

* A Rust `String` is a Lean `String`; both are sequences of Unicode scalar values, compared in the
  same order. `utf8ByteSize` is Rust's `len`.
* The parsers read ASCII only (they reject anything else first), so bytes are characters.
* A `Uuid` is its 128 bits. -/

namespace Troupe.Core

open Troupe.Lib

/-! ## Fixed-width integers -/

/-- `SchemaU64`: a `u64` of the wire schema. -/
structure SchemaU64 where
  get : Nat
  /-- The value fits in 64 bits. -/
  le_max : get ≤ u64Max
deriving DecidableEq

/-- `ElapsedNs`: nanoseconds since the run's origin. -/
structure ElapsedNs where
  get : Nat
  /-- The value fits in 64 bits. -/
  le_max : get ≤ u64Max
deriving DecidableEq

namespace SchemaU64

/-- A literal, reduced to the width. -/
def ofNat (value : Nat) : SchemaU64 :=
  ⟨value % 2 ^ 64, by have := Nat.mod_lt value (Nat.two_pow_pos 64); unfold u64Max; omega⟩

instance (n : Nat) : OfNat SchemaU64 n := ⟨ofNat n⟩

theorem one_pos : 0 < (1 : SchemaU64).get := by decide

theorem two_pos : 0 < (2 : SchemaU64).get := by decide

theorem three_pos : 0 < (3 : SchemaU64).get := by decide

theorem four_pos : 0 < (4 : SchemaU64).get := by decide

theorem get_injective : Function.Injective get := by
  rintro ⟨a, ha⟩ ⟨b, hb⟩ (rfl : a = b)
  rfl

@[simp] theorem get_inj {a b : SchemaU64} : a.get = b.get ↔ a = b := get_injective.eq_iff

instance : LE SchemaU64 := ⟨fun a b => a.get ≤ b.get⟩
instance : LT SchemaU64 := ⟨fun a b => a.get < b.get⟩
instance (a b : SchemaU64) : Decidable (a ≤ b) := inferInstanceAs (Decidable (a.get ≤ b.get))
instance (a b : SchemaU64) : Decidable (a < b) := inferInstanceAs (Decidable (a.get < b.get))
instance : Ord SchemaU64 := ⟨fun a b => compare a.get b.get⟩

theorem le_def {a b : SchemaU64} : a ≤ b ↔ a.get ≤ b.get := Iff.rfl

theorem lt_def {a b : SchemaU64} : a < b ↔ a.get < b.get := Iff.rfl

/-- `checked_add(1)` on the value. -/
def checkedSucc (value : SchemaU64) : Option SchemaU64 :=
  if h : value.get + 1 ≤ u64Max then some ⟨value.get + 1, h⟩ else none

instance : Std.TransOrd SchemaU64 where
  eq_swap {a b} := Std.OrientedOrd.eq_swap (a := a.get) (b := b.get)
  isLE_trans {a b c} := Std.TransOrd.isLE_trans (a := a.get) (b := b.get) (c := c.get)

instance : Std.LawfulEqOrd SchemaU64 where
  eq_of_compare h := get_injective (Std.LawfulEqOrd.eq_of_compare h)

end SchemaU64

namespace ElapsedNs

/-- A literal, reduced to the width. -/
def ofNat (value : Nat) : ElapsedNs :=
  ⟨value % 2 ^ 64, by have := Nat.mod_lt value (Nat.two_pow_pos 64); unfold u64Max; omega⟩

instance (n : Nat) : OfNat ElapsedNs n := ⟨ofNat n⟩

instance : LE ElapsedNs := ⟨fun a b => a.get ≤ b.get⟩
instance : LT ElapsedNs := ⟨fun a b => a.get < b.get⟩
instance (a b : ElapsedNs) : Decidable (a ≤ b) := inferInstanceAs (Decidable (a.get ≤ b.get))
instance (a b : ElapsedNs) : Decidable (a < b) := inferInstanceAs (Decidable (a.get < b.get))

theorem le_def {a b : ElapsedNs} : a ≤ b ↔ a.get ≤ b.get := Iff.rfl

theorem lt_def {a b : ElapsedNs} : a < b ↔ a.get < b.get := Iff.rfl

/-- `Ord::max`. -/
def max (a b : ElapsedNs) : ElapsedNs := if a ≤ b then b else a

end ElapsedNs

/-! ## Wire text -/

/-- `WireValueError`: why a wire text is not a value. -/
structure WireValueError where
  message : String
deriving DecidableEq

/-- `str::is_ascii`. -/
def isAscii (value : String) : Bool := value.toList.all (·.val < 128)

/-- `validate_canonical_nonnegative_integer`. -/
def validateCanonicalNonnegativeInteger (value : String) : Except WireValueError Unit :=
  if value.isEmpty then
    .error ⟨"integer must not be empty"⟩
  else if !value.toList.all Char.isDigit then
    .error ⟨"integer must contain only ASCII decimal digits"⟩
  else if 1 < value.toList.length && value.toList.head? == some '0' then
    .error ⟨"integer must not contain leading zeroes"⟩
  else
    .ok ()

/-- The number a list of decimal digits denotes. -/
def digitsValue (digits : List Char) : Nat :=
  digits.foldl (fun total digit => 10 * total + (digit.toNat - '0'.toNat)) 0

/-- `TokenCount`: a canonical decimal of any size. -/
structure TokenCount where
  value : String
  /-- Built by `TokenCount::parse`. -/
  canonical : validateCanonicalNonnegativeInteger value = .ok ()
deriving DecidableEq

/-- `CurrencyCode`: three uppercase ASCII letters. -/
structure CurrencyCode where
  value : String
  /-- Built by `CurrencyCode::parse`. -/
  canonical : (value.utf8ByteSize == 3 && value.toList.all Char.isUpper) = true
deriving DecidableEq

/-- The validation of `CanonicalInteger::parse`. -/
def validateCanonicalInteger (value : String) : Except WireValueError Unit :=
  if value.isEmpty || !isAscii value then
    .error ⟨"integer must be nonempty ASCII"⟩
  else
    let (negative, digits) := match value.toList with
      | '-' :: digits => (true, digits)
      | digits => (false, digits)
    if digits.isEmpty || !digits.all Char.isDigit then
      .error ⟨"integer must contain only an optional minus and decimal digits"⟩
    else if (1 < digits.length && digits.head? == some '0') || (negative && digits == ['0']) then
      .error ⟨"integer wire value is not canonical"⟩
    else
      .ok ()

/-- `CanonicalInteger`: a signed decimal of any size. -/
structure CanonicalInteger where
  value : String
  /-- Built by `CanonicalInteger::parse`. -/
  canonical : validateCanonicalInteger value = .ok ()
deriving DecidableEq

/-! ## Decimal normalization -/

/-- `MAX_NORMALIZED_DECIMAL_BYTES`. -/
def maxNormalizedDecimalBytes : Nat := 1024 * 1024

/-- An optional leading sign and what follows it. -/
def splitSign : List Char → Bool × List Char
  | '+' :: rest => (false, rest)
  | '-' :: rest => (true, rest)
  | text => (false, text)

/-- `parse_exponent`: an `i64`, computed with checked arithmetic. -/
def parseExponent (text : List Char) : Except WireValueError Int :=
  if text.isEmpty then
    .error ⟨"decimal exponent has no digits"⟩
  else
    let (negative, digits) := splitSign text
    if digits.isEmpty || !digits.all Char.isDigit then
      .error ⟨"decimal exponent is invalid"⟩
    else do
      let magnitude ← digits.foldlM (fun magnitude digit =>
        let next := 10 * magnitude + (digit.toNat - '0'.toNat)
        if next ≤ i64Max then .ok next else .error ⟨"decimal exponent is out of range"⟩) 0
      .ok (if negative then -(magnitude : Int) else magnitude)

/-- Drop trailing zeroes of the reversed coefficient while the scale is positive. -/
def trimZeroes : List Char → Int → List Char × Int
  | '0' :: rest, scale => if 0 < scale then trimZeroes rest (scale - 1) else ('0' :: rest, scale)
  | digits, scale => (digits, scale)

/-- The length of the normalized text, as `normalize_decimal` computes it before building it. -/
def normalizedBytes (negative : Bool) (coefficient : List Char) (scale : Int) :
    Except WireValueError Nat :=
  let signBytes := if negative then 1 else 0
  let total? : Except WireValueError (Option Nat) :=
    if scale ≤ 0 then
      if (-scale).toNat ≤ usizeMax then
        .ok do
          let length ← checkedAdd usizeMax signBytes coefficient.length
          checkedAdd usizeMax length (-scale).toNat
      else
        .error ⟨"decimal exponent is out of range"⟩
    else if scale.toNat ≤ usizeMax then
      .ok do
        if scale.toNat < coefficient.length then
          let length ← checkedAdd usizeMax signBytes coefficient.length
          checkedAdd usizeMax length 1
        else
          let length ← checkedAdd usizeMax signBytes scale.toNat
          checkedAdd usizeMax length 2
    else
      .error ⟨"decimal scale is out of range"⟩
  match total? with
  | .error error => .error error
  | .ok none => .error ⟨"decimal representation is too large"⟩
  | .ok (some total) =>
    if maxNormalizedDecimalBytes < total then
      .error ⟨"decimal representation is too large"⟩
    else
      .ok total

/-- The normalized text of a nonzero decimal. -/
def normalizedText (negative : Bool) (coefficient : List Char) (scale : Int) : List Char :=
  (if negative then ['-'] else []) ++
    if scale ≤ 0 then
      coefficient ++ List.replicate (-scale).toNat '0'
    else if scale.toNat < coefficient.length then
      let point := coefficient.length - scale.toNat
      coefficient.take point ++ '.' :: coefficient.drop point
    else
      '0' :: '.' :: List.replicate (scale.toNat - coefficient.length) '0' ++ coefficient

/-- The mantissa of a decimal text, and its exponent (zero when none is written). -/
def splitExponent (unsigned : List Char) : Except WireValueError (List Char × Int) :=
  let isExponent := fun c => c == 'e' || c == 'E'
  match unsigned.dropWhile (!isExponent ·) with
  | [] => .ok (unsigned, 0)
  | _ :: exponentText =>
    if exponentText.any isExponent then
      .error ⟨"decimal has multiple exponents"⟩
    else do
      let exponent ← parseExponent exponentText
      .ok (unsigned.takeWhile (!isExponent ·), exponent)

/-- `normalize_decimal`. -/
def normalizeDecimal (value : String) : Except WireValueError String :=
  if value.isEmpty || !isAscii value then
    .error ⟨"decimal must be nonempty ASCII"⟩
  else
    let (negative, unsigned) := splitSign value.toList
    if unsigned.isEmpty then
      .error ⟨"decimal has no digits"⟩
    else do
      let (mantissa, exponent) ← splitExponent unsigned
      let integer := mantissa.takeWhile (· != '.')
      let fraction := (mantissa.dropWhile (· != '.')).drop 1
      if fraction.contains '.' then
        .error ⟨"decimal has multiple points"⟩
      else if integer.isEmpty && fraction.isEmpty then
        .error ⟨"decimal has no digits"⟩
      else if !(integer ++ fraction).all Char.isDigit then
        .error ⟨"decimal contains a non-digit character"⟩
      else
        let digits := (integer ++ fraction).dropWhile (· == '0')
        if digits.isEmpty then
          .ok "0"
        else
          let (reversed, scale) := trimZeroes digits.reverse (fraction.length - exponent)
          let coefficient := reversed.reverse
          let _ ← normalizedBytes negative coefficient scale
          .ok (String.ofList (normalizedText negative coefficient scale))

/-- `DecimalString`: a normalized decimal. -/
structure DecimalString where
  value : String
  /-- Built by `DecimalString::parse` from some text. -/
  canonical : ∃ source, normalizeDecimal source = .ok value
deriving DecidableEq

example : normalizeDecimal "+01.50e1" = .ok "15" := by decide

example : normalizeDecimal "-5e-3" = .ok "-0.005" := by decide

/-! ## Identifiers -/

/-- `MAX_RUN_LOCAL_ID_BYTES`. -/
def maxRunLocalIdBytes : Nat := 128

/-- `CanonicalUuid`, as its 128 bits. -/
structure CanonicalUuid where
  bits : BitVec 128
deriving DecidableEq

/-- The validation of `RunLocalId::parse`. -/
def validateRunLocalId (value : String) : Except WireValueError Unit :=
  if value.isEmpty then
    .error ⟨"Run-local ID must not be empty"⟩
  else if maxRunLocalIdBytes < value.utf8ByteSize then
    .error ⟨"Run-local ID is too long"⟩
  else if !isAscii value then
    .error ⟨"Run-local ID must be ASCII"⟩
  else
    .ok ()

/-- `RunLocalId`: a short nonempty ASCII name. -/
structure RunLocalId where
  value : String
  /-- Built by `RunLocalId::parse`. -/
  valid : validateRunLocalId value = .ok ()
deriving DecidableEq

namespace RunLocalId

theorem value_injective : Function.Injective value := by
  rintro ⟨a, ha⟩ ⟨b, hb⟩ (rfl : a = b)
  rfl

end RunLocalId

end Troupe.Core
