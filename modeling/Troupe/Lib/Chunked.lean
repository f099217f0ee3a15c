import Mathlib.Data.List.Basic

/-! # Chunked bodies

The chunked transfer coding of HTTP/1.1: chunks with their sizes in hexadecimal, a last chunk of
size zero and a trailer section. `Body limit ext line` leaves open what a chunk extension and what a
trailer line is.

* `LooseExt` and `LooseLine` keep only what the framing rests on: no carriage return and no line
  feed inside of a line.
* `StrictExt` and `StrictLine` are `chunk-ext` and `field-line` of HTTP/1.1.

**`Body.mono`** with `StrictExt.loose` and `StrictLine.loose`: a strict body is a loose one. -/

namespace Troupe.Lib.Chunked

variable {bytes : List UInt8}

/-- CR. -/
def cr : UInt8 := 13

/-- LF. -/
def lf : UInt8 := 10

/-- CR LF. -/
def crlf : List UInt8 := [cr, lf]

/-- No byte of a line end. -/
def Plain (bytes : List UInt8) : Prop := ∀ byte ∈ bytes, byte ≠ cr ∧ byte ≠ lf

/-- SP or HTAB. -/
def IsBlank (byte : UInt8) : Prop := byte = 32 ∨ byte = 9

/-- The value of a hexadecimal digit. -/
def hexDigit? (byte : UInt8) : Option Nat :=
  if 48 ≤ byte ∧ byte ≤ 57 then some (byte.toNat - 48)
  else if 97 ≤ byte ∧ byte ≤ 102 then some (byte.toNat - 87)
  else if 65 ≤ byte ∧ byte ≤ 70 then some (byte.toNat - 55)
  else none

/-- A number whose first digits make `value`. -/
def readHex (value : Nat) : List UInt8 → Option Nat
  | [] => some value
  | byte :: rest =>
    match hexDigit? byte with
    | some digit => readHex (value * 16 + digit) rest
    | none => none

theorem le_of_readHex {value size : Nat} {digits : List UInt8}
    (hread : readHex value digits = some size) : value ≤ size := by
  induction digits generalizing value with
  | nil =>
    cases hread
    exact Nat.le_refl _
  | cons byte rest ih =>
    rw [readHex] at hread
    rcases hdigit : hexDigit? byte with _ | digit
    · rw [hdigit] at hread
      cases hread
    · rw [hdigit] at hread
      have hmore := ih hread
      omega

section Body

variable {limit : Nat} {ext line : List UInt8 → Prop} {bytes : List UInt8}

/-- A line with a chunk size. -/
def SizeLine (ext : List UInt8 → Prop) (bytes : List UInt8) (size : Nat) : Prop :=
  ∃ digits extension, bytes = digits ++ extension ∧ digits ≠ [] ∧ readHex 0 digits = some size ∧
    ext extension

/-- The trailer lines and the empty line behind them. -/
inductive Trailers (line : List UInt8 → Prop) : List UInt8 → Prop
  | done : Trailers line crlf
  | line {bytes rest : List UInt8} : line bytes → Trailers line rest →
      Trailers line (bytes ++ crlf ++ rest)

/-- A chunked body whose chunk sizes are below `limit`. -/
inductive Body (limit : Nat) (ext line : List UInt8 → Prop) : List UInt8 → Prop
  | last {bytes rest : List UInt8} : SizeLine ext bytes 0 → Trailers line rest →
      Body limit ext line (bytes ++ crlf ++ rest)
  | chunk {bytes data rest : List UInt8} : SizeLine ext bytes data.length → data ≠ [] →
      data.length < limit → Body limit ext line rest →
      Body limit ext line (bytes ++ crlf ++ data ++ crlf ++ rest)

variable {ext' line' : List UInt8 → Prop}

theorem SizeLine.mono (hext : ∀ bytes, ext bytes → ext' bytes) {size : Nat}
    (hline : SizeLine ext bytes size) : SizeLine ext' bytes size := by
  obtain ⟨digits, extension, hbytes, hne, hread, hextension⟩ := hline
  exact ⟨digits, extension, hbytes, hne, hread, hext extension hextension⟩

theorem Trailers.mono (hline : ∀ bytes, line bytes → line' bytes)
    (htrailers : Trailers line bytes) : Trailers line' bytes := by
  induction htrailers with
  | done => exact .done
  | line hbytes _ ih => exact .line (hline _ hbytes) ih

theorem Body.mono (hext : ∀ bytes, ext bytes → ext' bytes)
    (hline : ∀ bytes, line bytes → line' bytes)
    (hbody : Body limit ext line bytes) : Body limit ext' line' bytes := by
  induction hbody with
  | last hsize htrailers => exact .last (hsize.mono hext) (htrailers.mono hline)
  | chunk hsize hdata hlimit _ ih => exact .chunk (hsize.mono hext) hdata hlimit ih

end Body

/-! ## Extensions and trailer lines -/

/-- Blanks, and perhaps a semicolon with a text in one line. -/
def LooseExt (bytes : List UInt8) : Prop :=
  ∃ blanks tail, bytes = blanks ++ tail ∧ (∀ byte ∈ blanks, IsBlank byte) ∧
    (tail = [] ∨ ∃ text, tail = 59 :: text ∧ Plain text)

/-- A text in one line. -/
def LooseLine (bytes : List UInt8) : Prop := bytes ≠ [] ∧ Plain bytes

/-- `tchar`. -/
def IsTokenByte (byte : UInt8) : Prop :=
  (48 ≤ byte ∧ byte ≤ 57) ∨ (65 ≤ byte ∧ byte ≤ 90) ∨ (97 ≤ byte ∧ byte ≤ 122) ∨
    byte ∈ [33, 35, 36, 37, 38, 39, 42, 43, 45, 46, 94, 95, 96, 124, 126]

instance (byte : UInt8) : Decidable (IsTokenByte byte) :=
  inferInstanceAs (Decidable (_ ∨ _ ∨ _ ∨ _))

/-- HTAB, SP, `VCHAR` or `obs-text`. -/
def IsTextByte (byte : UInt8) : Prop := byte = 9 ∨ (32 ≤ byte ∧ byte ≠ 127)

/-- `token`. -/
def Token (bytes : List UInt8) : Prop := bytes ≠ [] ∧ ∀ byte ∈ bytes, IsTokenByte byte

/-- What stands in a `quoted-string`. -/
inductive QuotedText : List UInt8 → Prop
  | nil : QuotedText []
  | text {byte : UInt8} {rest : List UInt8} : IsTextByte byte → byte ≠ 34 → byte ≠ 92 →
      QuotedText rest → QuotedText (byte :: rest)
  | pair {byte : UInt8} {rest : List UInt8} : IsTextByte byte → QuotedText rest →
      QuotedText (92 :: byte :: rest)

/-- `chunk-ext-val`. -/
def ExtValue (bytes : List UInt8) : Prop :=
  Token bytes ∨ ∃ text, bytes = 34 :: text ++ [34] ∧ QuotedText text

/-- `BWS "=" BWS chunk-ext-val`, or nothing. -/
def ExtAssignment (bytes : List UInt8) : Prop :=
  bytes = [] ∨ ∃ before after value, bytes = before ++ 61 :: after ++ value ∧
    (∀ byte ∈ before, IsBlank byte) ∧ (∀ byte ∈ after, IsBlank byte) ∧ ExtValue value

/-- `chunk-ext`. -/
inductive StrictExt : List UInt8 → Prop
  | nil : StrictExt []
  | cons {before after name value rest : List UInt8} : (∀ byte ∈ before, IsBlank byte) →
      (∀ byte ∈ after, IsBlank byte) → Token name → ExtAssignment value → StrictExt rest →
      StrictExt (before ++ 59 :: (after ++ name ++ value ++ rest))

/-- `field-line`. -/
def StrictLine (bytes : List UInt8) : Prop :=
  ∃ name value, bytes = name ++ 58 :: value ∧ Token name ∧ ∀ byte ∈ value, IsTextByte byte

theorem plain_append {left right : List UInt8} :
    Plain (left ++ right) ↔ Plain left ∧ Plain right := List.forall_mem_append

theorem plain_cons {byte : UInt8} :
    Plain (byte :: bytes) ↔ (byte ≠ cr ∧ byte ≠ lf) ∧ Plain bytes := List.forall_mem_cons

theorem plain_nil : Plain [] := fun _ h => (nomatch h)

theorem IsBlank.plain {byte : UInt8} (hblank : IsBlank byte) : byte ≠ cr ∧ byte ≠ lf := by
  rcases hblank with rfl | rfl <;> decide

theorem IsTextByte.plain {byte : UInt8} (htext : IsTextByte byte) : byte ≠ cr ∧ byte ≠ lf := by
  constructor <;> rintro rfl <;> revert htext <;> simp [IsTextByte, cr, lf]

theorem IsTokenByte.plain {byte : UInt8} (htoken : IsTokenByte byte) : byte ≠ cr ∧ byte ≠ lf := by
  constructor <;> rintro rfl <;> exact absurd htoken (by decide)

theorem Token.plain (htoken : Token bytes) : Plain bytes :=
  fun byte hmem => (htoken.2 byte hmem).plain

theorem QuotedText.plain (htext : QuotedText bytes) : Plain bytes := by
  induction htext with
  | nil => exact plain_nil
  | text hbyte _ _ _ ih => exact plain_cons.2 ⟨hbyte.plain, ih⟩
  | pair hbyte _ ih => exact plain_cons.2 ⟨by decide, plain_cons.2 ⟨hbyte.plain, ih⟩⟩

theorem ExtValue.plain (hvalue : ExtValue bytes) : Plain bytes := by
  rcases hvalue with htoken | ⟨text, rfl, htext⟩
  · exact htoken.plain
  · exact plain_cons.2 ⟨by decide, plain_append.2 ⟨htext.plain, plain_cons.2 ⟨by decide, plain_nil⟩⟩⟩

theorem ExtAssignment.plain (hassignment : ExtAssignment bytes) :
    Plain bytes := by
  rcases hassignment with rfl | ⟨before, after, value, rfl, hbefore, hafter, hvalue⟩
  · exact plain_nil
  · refine plain_append.2 ⟨plain_append.2 ⟨fun byte hmem => (hbefore byte hmem).plain, ?_⟩,
      hvalue.plain⟩
    exact plain_cons.2 ⟨by decide, fun byte hmem => (hafter byte hmem).plain⟩

theorem StrictExt.plain (hext : StrictExt bytes) : Plain bytes := by
  induction hext with
  | nil => exact plain_nil
  | cons hbefore hafter hname hvalue _ ih =>
    have hrest := plain_append.2 ⟨plain_append.2 ⟨plain_append.2
      ⟨fun byte hmem => (hafter byte hmem).plain, hname.plain⟩, hvalue.plain⟩, ih⟩
    exact plain_append.2 ⟨fun byte hmem => (hbefore byte hmem).plain,
      plain_cons.2 ⟨by decide, hrest⟩⟩

/-- An extension has a semicolon. -/
theorem StrictExt.semicolon (hext : StrictExt bytes) :
    bytes = [] ∨ 59 ∈ bytes := by
  cases hext with
  | nil => exact .inl rfl
  | cons => exact .inr (List.mem_append_right _ List.mem_cons_self)

theorem StrictExt.loose (hext : StrictExt bytes) : LooseExt bytes := by
  have hplain := hext.plain
  cases hext with
  | nil => exact ⟨[], [], rfl, fun _ h => (nomatch h), .inl rfl⟩
  | cons hbefore _ _ _ _ =>
    exact ⟨_, _, rfl, hbefore, .inr ⟨_, rfl, (plain_cons.1 (plain_append.1 hplain).2).2⟩⟩

theorem StrictLine.loose (hline : StrictLine bytes) : LooseLine bytes := by
  obtain ⟨name, value, rfl, hname, hvalue⟩ := hline
  refine ⟨fun hnil => ?_, plain_append.2 ⟨hname.plain, plain_cons.2 ⟨by decide, ?_⟩⟩⟩
  · exact hname.1 (List.append_eq_nil_iff.1 hnil).1
  · exact fun byte hmem => (hvalue byte hmem).plain

/-- A body in the grammar of HTTP/1.1 is one for its framing. -/
theorem Body.loose {limit : Nat}
    (hbody : Body limit StrictExt StrictLine bytes) : Body limit LooseExt LooseLine bytes :=
  hbody.mono (fun _ => StrictExt.loose) fun _ => StrictLine.loose

end Troupe.Lib.Chunked
