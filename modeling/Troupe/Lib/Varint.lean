import Mathlib.Data.Nat.Bitwise

/-! # Numbers in seven bits a byte

`encodeVarint` writes a number of 64 bits as bytes of seven bits each, the lowest first; every byte
but the last has its high bit set. A reader that takes in a byte at a time and can be given the
bytes in any portions reads the number back (**`ReadsVarint.foldlM_encodeVarint`**). -/

namespace Troupe.Lib

/-- The bytes of a number, so many at most. -/
def varintBytes : Nat → Nat → List UInt8
  | 0, _ => []
  | most + 1, value =>
    if value < 128 then [UInt8.ofNat value]
    else UInt8.ofNat (value % 128 + 128) :: varintBytes most (value / 128)

/-- `prost::encoding::encode_varint`: a number of 64 bits has at most ten bytes. -/
def encodeVarint (value : Nat) : List UInt8 := varintBytes 10 value

theorem varintBytes_ne_nil (most value : Nat) : varintBytes (most + 1) value ≠ [] := by
  unfold varintBytes
  split
  · exact List.cons_ne_nil _ _
  · exact List.cons_ne_nil _ _

theorem encodeVarint_ne_nil (value : Nat) : encodeVarint value ≠ [] := varintBytes_ne_nil 9 value

theorem toNat_ofNat_byte {n : Nat} (h : n < 256) : (UInt8.ofNat n).toNat = n := by
  rw [UInt8.toNat_ofNat']
  exact Nat.mod_eq_of_lt h

/-! ## Reading byte by byte -/

/-- What is known of a number some of whose bytes were read. -/
structure VarintReader where
  value : Nat
  shift : Nat
deriving DecidableEq

/-- The errors of a reader. -/
inductive VarintError where
  | overflow
  | tooLong
deriving DecidableEq

namespace VarintReader

/-- The reader before the first byte. -/
def empty : VarintReader := ⟨0, 0⟩

/-- Take in a byte: the number, once its last byte is read. -/
def push (reader : VarintReader) (byte : UInt8) :
    Except VarintError (Option Nat × VarintReader) :=
  if 64 ≤ reader.shift ∨ reader.shift = 63 ∧ 1 < byte.toNat then .error .overflow
  else
    let value := reader.value ||| (byte.toNat &&& 0x7f) <<< reader.shift
    if byte.toNat &&& 0x80 = 0 then .ok (some value, empty)
    else if 64 ≤ reader.shift + 7 then .error .tooLong
    else .ok (none, ⟨value, reader.shift + 7⟩)

/-- A reader that has read a number is empty. -/
theorem push_some {reader next : VarintReader} {byte : UInt8} {value : Nat}
    (h : reader.push byte = .ok (some value, next)) : next = empty := by
  unfold push at h
  split at h
  · cases h
  · dsimp only at h
    split at h
    · cases h
      rfl
    · split at h <;> cases h

end VarintReader

theorem and_high (n : Nat) (h : n < 256) : n &&& 0x80 = 0 ↔ n < 128 := by
  have hall : ∀ m < 256, m &&& 0x80 = 0 ↔ m < 128 := by decide +kernel
  exact hall n h

theorem and_low (n : Nat) : n &&& 0x7f = n % 128 := Nat.and_two_pow_sub_one_eq_mod n 7

/-- Bits put above those there are. -/
theorem or_shiftLeft {a b shift : Nat} (h : a < 2 ^ shift) :
    a ||| b <<< shift = a + b * 2 ^ shift := by
  rw [Nat.shiftLeft_eq, Nat.mul_comm, Nat.or_comm, ← Nat.two_pow_add_eq_or_of_lt h, Nat.add_comm]

section Reading

variable {ε σ : Type} {step : σ → UInt8 → Except ε σ} {reading : VarintReader → σ}
  {read : Nat → Except ε σ} {failed : VarintError → ε}

/-- A machine reads a number when its steps are those of the reader. -/
def ReadsVarint (step : σ → UInt8 → Except ε σ) (reading : VarintReader → σ)
    (read : Nat → Except ε σ) (failed : VarintError → ε) : Prop :=
  ∀ reader byte, step (reading reader) byte =
    match reader.push byte with
    | .error error => .error (failed error)
    | .ok (some value, _) => read value
    | .ok (none, reader) => .ok (reading reader)

theorem ReadsVarint.last (h : ReadsVarint step reading read failed) {acc shift value : Nat}
    (hacc : acc < 2 ^ shift) (hvalue : value < 128) (hshift : shift ≤ 63)
    (hfits : shift = 63 → value ≤ 1) :
    step (reading ⟨acc, shift⟩) (UInt8.ofNat value) = read (acc + value * 2 ^ shift) := by
  have hbyte := toNat_ofNat_byte (n := value) (by omega)
  rw [h]
  unfold VarintReader.push
  dsimp only
  rw [hbyte, if_neg (by omega), if_pos ((and_high value (by omega)).mpr hvalue), and_low,
    Nat.mod_eq_of_lt hvalue, or_shiftLeft hacc]

theorem ReadsVarint.more (h : ReadsVarint step reading read failed) {acc shift value : Nat}
    (hacc : acc < 2 ^ shift) (hshift : shift + 7 ≤ 63) :
    step (reading ⟨acc, shift⟩) (UInt8.ofNat (value % 128 + 128)) =
      .ok (reading ⟨acc + value % 128 * 2 ^ shift, shift + 7⟩) := by
  have hlow : value % 128 < 128 := Nat.mod_lt _ (by decide)
  have hbyte := toNat_ofNat_byte (n := value % 128 + 128) (by omega)
  have hhigh : ¬(value % 128 + 128) &&& 0x80 = 0 := by
    rw [and_high _ (by omega)]
    omega
  rw [h]
  unfold VarintReader.push
  dsimp only
  rw [hbyte, if_neg (by omega), if_neg hhigh, if_neg (by omega), and_low, Nat.add_mod_right,
    Nat.mod_eq_of_lt hlow, or_shiftLeft hacc]

/-- **The bytes of a number are read back.** -/
theorem ReadsVarint.foldlM_bytes (h : ReadsVarint step reading read failed) (most acc : Nat)
    {value : Nat} (hmost : most < 10) (hacc : acc < 2 ^ (7 * (9 - most)))
    (hvalue : value < 2 ^ (7 * most + 1)) :
    (varintBytes (most + 1) value).foldlM step (reading ⟨acc, 7 * (9 - most)⟩) =
      read (acc + value * 2 ^ (7 * (9 - most))) := by
  induction most generalizing acc value with
  | zero =>
    unfold varintBytes
    rw [if_pos (by omega), List.foldlM_cons, h.last hacc (by omega) (by omega) (by omega)]
    exact bind_pure _
  | succ most ih =>
    unfold varintBytes
    by_cases hlast : value < 128
    · rw [if_pos hlast, List.foldlM_cons, h.last hacc hlast (by omega) (by omega)]
      exact bind_pure _
    · have hshift : 7 * (9 - (most + 1)) + 7 = 7 * (9 - most) := by omega
      have hpow : 2 ^ (7 * (9 - most)) = 2 ^ (7 * (9 - (most + 1))) * 128 := by
        rw [← hshift, Nat.pow_add]
      have hnext : acc + value % 128 * 2 ^ (7 * (9 - (most + 1))) < 2 ^ (7 * (9 - most)) := by
        have hlow : value % 128 ≤ 127 := Nat.lt_succ_iff.mp (Nat.mod_lt _ (by decide))
        have hle := Nat.mul_le_mul_right (2 ^ (7 * (9 - (most + 1)))) hlow
        omega
      have hrest : value / 128 < 2 ^ (7 * most + 1) := by
        rw [Nat.div_lt_iff_lt_mul (by decide), show (128 : Nat) = 2 ^ 7 from rfl, ← Nat.pow_add]
        rwa [show 7 * most + 1 + 7 = 7 * (most + 1) + 1 by omega]
      rw [if_neg hlast, List.foldlM_cons, h.more hacc (by omega), hshift]
      refine (ih _ (by omega) hnext hrest).trans (congrArg read ?_)
      have hsplit := Nat.mod_add_div value 128
      rw [hpow, Nat.add_assoc, ← Nat.mul_assoc, Nat.mul_right_comm, ← Nat.add_mul,
        Nat.mul_comm (value / 128) 128, hsplit]

/-- **The bytes of a number of 64 bits are read back, one by one.** -/
theorem ReadsVarint.foldlM_encodeVarint (h : ReadsVarint step reading read failed) {value : Nat}
    (hvalue : value < 2 ^ 64) :
    (encodeVarint value).foldlM step (reading .empty) = read value := by
  have hread := h.foldlM_bytes 9 0 (by decide) (by decide) hvalue
  rw [Nat.zero_add, Nat.sub_self, Nat.mul_zero, Nat.pow_zero, Nat.mul_one] at hread
  exact hread

end Reading

end Troupe.Lib
