import Troupe.Agent.Result.ReadLimiter

/-! # The framing of a chunked body

What `ChunkedBodyTracker::consume` accepts. `stepByte` is `consume` on one byte, a recognizer in the
sense of `Lib/Recognizer`, and `ChunkedReadPhase.Accepts` are the bytes that each phase still wants
(`recognizes`); in the first phase they are the bodies of `Lib/Chunked` (`accepts_sizePhase`).

Result: **`consume_complete_iff`**, **`consume_incomplete_iff`**, **`consume_invalid_iff`**, where
a body ends, and what is none. -/

namespace Troupe.Agent

open Troupe.Lib Chunked

/-! ## Chunked bodies byte by byte -/

namespace ChunkedBodyTracker

/-- What `consume` does with one byte. -/
def stepByte (phase : ChunkedReadPhase) (byte : UInt8) : Verdict ChunkedReadPhase :=
  match phase with
  | .size value sawDigit inLinearWhitespace inExtension sawCarriageReturn =>
    sizeByte value sawDigit inLinearWhitespace inExtension sawCarriageReturn byte
  | .data remaining =>
    if remaining = 0 then if byte ≠ cr then .reject else .more .dataLineFeed
    else if remaining = 1 then .more .dataCarriageReturn
    else .more (.data (remaining - 1))
  | .dataCarriageReturn => if byte ≠ cr then .reject else .more .dataLineFeed
  | .dataLineFeed => if byte ≠ lf then .reject else .more sizePhase
  | .trailerLine hasBytes sawCarriageReturn => trailerByte hasBytes sawCarriageReturn byte
  | .invalid => .reject

/-- The bytes of a chunk, taken at once. -/
theorem recognize_data (remaining : Nat) {input : List UInt8} (hinput : input ≠ []) :
    recognize stepByte (.data remaining) input =
      if remaining ≤ input.length then recognize stepByte .dataCarriageReturn (input.drop remaining)
      else .incomplete (.data (remaining - input.length)) := by
  induction input generalizing remaining with
  | nil => exact absurd rfl hinput
  | cons byte rest ih =>
    match remaining with
    | 0 => rfl
    | 1 =>
      have hstep : stepByte (.data 1) byte = .more .dataCarriageReturn := rfl
      rw [recognize_cons_of_more hstep, if_pos (by simp)]
      rfl
    | more + 2 =>
      have hstep : stepByte (.data (more + 2)) byte = .more (.data (more + 1)) := rfl
      rw [recognize_cons_of_more hstep]
      by_cases hrest : rest = []
      · rw [hrest, if_neg (by simp)]
        rfl
      · have hle : more + 2 ≤ rest.length + 1 ↔ more + 1 ≤ rest.length := by omega
        have hsub : more + 2 - (rest.length + 1) = more + 1 - rest.length :=
          by omega
        rw [ih (more + 1) hrest, List.length_cons, hsub]
        simp only [hle]
        rfl

/-- What a run of the loop amounts to. -/
def Consumes (index : Nat) (input : List UInt8) (result : ChunkedProgress × ChunkedReadPhase) :
    Recognition ChunkedReadPhase UInt8 → Prop
  | .incomplete next => result = (.incomplete, next)
  | .complete rest => ∃ consumed, consumed ≤ input.length ∧ input.drop consumed = rest ∧
      result.1 = .complete (index + consumed)
  | .invalid => result = (.invalid, .invalid)

theorem Consumes.drop {index taken : Nat} {input : List UInt8}
    {result : ChunkedProgress × ChunkedReadPhase} {recognition : Recognition ChunkedReadPhase UInt8}
    (htaken : taken ≤ input.length)
    (h : Consumes (index + taken) (input.drop taken) result recognition) :
    Consumes index input result recognition := by
  cases recognition with
  | incomplete next => exact h
  | complete rest =>
    obtain ⟨consumed, hle, hrest, hresult⟩ := h
    rw [List.length_drop] at hle
    rw [List.drop_drop] at hrest
    exact ⟨taken + consumed, by omega, hrest, by rw [hresult, Nat.add_assoc]⟩
  | invalid => exact h

theorem consumes_of_more {phase next : ChunkedReadPhase} {index : Nat} {byte : UInt8}
    {rest : List UInt8} (hstep : stepByte phase byte = .more next)
    (hloop : consumeFrom phase index (byte :: rest) = consumeFrom next (index + 1) rest)
    (ih : Consumes (index + 1) rest (consumeFrom next (index + 1) rest)
      (recognize stepByte next rest)) :
    Consumes index (byte :: rest) (consumeFrom phase index (byte :: rest))
      (recognize stepByte phase (byte :: rest)) := by
  rw [hloop, recognize_cons_of_more hstep]
  have hone : 1 ≤ (byte :: rest).length := Nat.succ_pos _
  exact Consumes.drop hone ih

theorem consumes_of_done {phase : ChunkedReadPhase} {index : Nat} {byte : UInt8}
    {rest : List UInt8} (hstep : stepByte phase byte = .done)
    (hloop : (consumeFrom phase index (byte :: rest)).1 = .complete (index + 1)) :
    Consumes index (byte :: rest) (consumeFrom phase index (byte :: rest))
      (recognize stepByte phase (byte :: rest)) := by
  rw [recognize_cons_of_done hstep]
  exact ⟨1, Nat.succ_pos _, rfl, hloop⟩

theorem consumes_of_reject {phase : ChunkedReadPhase} {index : Nat} {byte : UInt8}
    {rest : List UInt8} (hstep : stepByte phase byte = .reject)
    (hloop : consumeFrom phase index (byte :: rest) = (.invalid, .invalid)) :
    Consumes index (byte :: rest) (consumeFrom phase index (byte :: rest))
      (recognize stepByte phase (byte :: rest)) := by
  rw [recognize_cons_of_reject hstep]
  exact hloop

/-- The loop and the run byte by byte agree. -/
theorem consumeFrom_consumes (phase : ChunkedReadPhase) (index : Nat) (input : List UInt8) :
    Consumes index input (consumeFrom phase index input) (recognize stepByte phase input) := by
  induction phase, index, input using consumeFrom.induct with
  | case1 phase index =>
    rw [consumeFrom]
    rfl
  | case2 index byte rest _ _ _ _ _ next hstep ih =>
    exact consumes_of_more hstep (by rw [consumeFrom, hstep]) ih
  | case3 index byte rest _ _ _ _ _ hstep =>
    exact consumes_of_done hstep (by rw [consumeFrom, hstep])
  | case4 index byte rest _ _ _ _ _ hstep =>
    exact consumes_of_reject hstep (by rw [consumeFrom, hstep])
  | case5 index byte rest remaining consumed hall ih =>
    have htaken : min remaining (rest.length + 1) = remaining := by omega
    simp only [consumed, htaken] at ih
    rw [consumeFrom, if_pos hall, recognize_data remaining (List.cons_ne_nil _ _),
      if_pos (by simp only [List.length_cons]; omega), htaken]
    exact Consumes.drop (by simp only [List.length_cons]; omega) ih
  | case6 index byte rest remaining consumed hmore ih =>
    have htaken : min remaining (rest.length + 1) = rest.length + 1 := by omega
    have hdrop : (byte :: rest).drop (rest.length + 1) = [] := List.drop_length
    simp only [consumed, htaken, hdrop] at ih
    rw [consumeFrom, if_neg hmore, recognize_data remaining (List.cons_ne_nil _ _),
      if_neg (by simp only [List.length_cons]; omega), htaken, hdrop]
    exact ih
  | case7 index byte rest hbyte =>
    exact consumes_of_reject (if_pos hbyte) (by rw [consumeFrom, if_pos hbyte])
  | case8 index byte rest hbyte ih =>
    exact consumes_of_more (if_neg hbyte) (by rw [consumeFrom, if_neg hbyte]) ih
  | case9 index byte rest hbyte =>
    exact consumes_of_reject (if_pos hbyte) (by rw [consumeFrom, if_pos hbyte])
  | case10 index byte rest hbyte ih =>
    exact consumes_of_more (if_neg hbyte) (by rw [consumeFrom, if_neg hbyte]) ih
  | case11 index byte rest _ _ next hstep ih =>
    exact consumes_of_more hstep (by rw [consumeFrom, hstep]) ih
  | case12 index byte rest _ _ hstep =>
    exact consumes_of_done hstep (by rw [consumeFrom, hstep])
  | case13 index byte rest _ _ hstep =>
    exact consumes_of_reject hstep (by rw [consumeFrom, hstep])
  | case14 index byte rest => exact consumes_of_reject rfl (by rw [consumeFrom])

end ChunkedBodyTracker

/-! ## The words that each phase takes -/

/-- A line of the kind `line` with its end, and then what `after` says. -/
def EndsLine (line after : List UInt8 → Prop) (word : List UInt8) : Prop :=
  ∃ bytes rest, word = bytes ++ crlf ++ rest ∧ line bytes ∧ after rest

/-- The second byte of a line end, and then what `after` says. -/
def EndsLf (after : List UInt8 → Prop) (word : List UInt8) : Prop :=
  ∃ rest, word = lf :: rest ∧ after rest

/-- A chunked body as its framing has it. -/
def FramedBody : List UInt8 → Prop := Body (2 ^ 64) LooseExt LooseLine

/-- What follows a line with a size. -/
def AfterSize (size : Nat) (rest : List UInt8) : Prop :=
  if size = 0 then Trailers LooseLine rest
  else ∃ data tail, data.length = size ∧ rest = data ++ tail ∧ EndsLine (· = []) FramedBody tail

/-- What is left of a line whose size is `value` so far. -/
def SizeTail (value : Nat) (sawDigit : Bool) (size : Nat) (line : List UInt8) : Prop :=
  ∃ digits extension, line = digits ++ extension ∧ readHex value digits = some size ∧
    (digits = [] → sawDigit = true) ∧ (digits ≠ [] → size < 2 ^ 64) ∧ LooseExt extension

/-- The words that complete a body. -/
def ChunkedReadPhase.Accepts (phase : ChunkedReadPhase) (word : List UInt8) : Prop :=
  match phase with
  | .size value sawDigit inLinearWhitespace inExtension sawCarriageReturn =>
    if sawCarriageReturn then EndsLf (AfterSize value) word
    else if inExtension then EndsLine Plain (AfterSize value) word
    else if inLinearWhitespace then EndsLine LooseExt (AfterSize value) word
    else ∃ size, EndsLine (SizeTail value sawDigit size) (AfterSize size) word
  | .data remaining =>
    ∃ data tail, data.length = remaining ∧ word = data ++ tail ∧ EndsLine (· = []) FramedBody tail
  | .dataCarriageReturn => EndsLine (· = []) FramedBody word
  | .dataLineFeed => EndsLf FramedBody word
  | .trailerLine hasBytes sawCarriageReturn =>
    if sawCarriageReturn then
      if hasBytes then EndsLf (Trailers LooseLine) word else word = [lf]
    else if hasBytes then EndsLine Plain (Trailers LooseLine) word
    else Trailers LooseLine word
  | .invalid => False

section Lines

variable {line after : List UInt8 → Prop} {byte : UInt8} {word : List UInt8}

theorem endsLf_cons : EndsLf after (byte :: word) ↔ byte = lf ∧ after word := by
  constructor
  · rintro ⟨rest, hword, hafter⟩
    obtain ⟨rfl, rfl⟩ := List.cons.inj hword
    exact ⟨rfl, hafter⟩
  · rintro ⟨rfl, hafter⟩
    exact ⟨word, rfl, hafter⟩

theorem endsLine_cons : EndsLine line after (byte :: word) ↔
    (byte = cr ∧ line [] ∧ EndsLf after word) ∨
      EndsLine (fun bytes => line (byte :: bytes)) after word := by
  constructor
  · rintro ⟨bytes, rest, hword, hline, hafter⟩
    cases bytes with
    | nil =>
      obtain ⟨rfl, rfl⟩ := List.cons.inj hword
      exact .inl ⟨rfl, hline, rest, rfl, hafter⟩
    | cons first bytes =>
      obtain ⟨rfl, rfl⟩ := List.cons.inj hword
      exact .inr ⟨bytes, rest, rfl, hline, hafter⟩
  · rintro (⟨rfl, hline, rest, rfl, hafter⟩ | ⟨bytes, rest, rfl, hline, hafter⟩)
    · exact ⟨[], rest, rfl, hline, hafter⟩
    · exact ⟨byte :: bytes, rest, rfl, hline, hafter⟩

theorem endsLine_or {line' : List UInt8 → Prop} :
    EndsLine (fun bytes => line bytes ∨ line' bytes) after word ↔
      EndsLine line after word ∨ EndsLine line' after word := by
  simp only [EndsLine]
  grind

theorem endsLine_and {p : Prop} :
    EndsLine (fun bytes => p ∧ line bytes) after word ↔ p ∧ EndsLine line after word := by
  simp only [EndsLine]
  grind

theorem not_endsLine_nil : ¬EndsLine line after [] := by
  rintro ⟨bytes, rest, hword, _⟩
  simp [crlf] at hword

theorem not_endsLf_nil : ¬EndsLf after [] := by
  rintro ⟨rest, hword, _⟩
  cases hword

theorem endsLine_empty_cons :
    EndsLine (· = []) after (byte :: word) ↔ byte = cr ∧ EndsLf after word := by
  rw [endsLine_cons]
  refine ⟨?_, fun h => .inl ⟨h.1, rfl, h.2⟩⟩
  rintro (⟨hbyte, -, hword⟩ | ⟨bytes, rest, -, hline, -⟩)
  · exact ⟨hbyte, hword⟩
  · cases hline

theorem endsLine_plain_cons : EndsLine Plain after (byte :: word) ↔
    (byte = cr ∧ EndsLf after word) ∨ ((byte ≠ cr ∧ byte ≠ lf) ∧ EndsLine Plain after word) := by
  rw [endsLine_cons]
  simp only [plain_cons, endsLine_and]
  refine or_congr_left (and_congr_right fun _ => and_iff_right plain_nil)

theorem looseExt_nil : LooseExt [] := ⟨[], [], rfl, fun _ h => (nomatch h), .inl rfl⟩

theorem looseExt_cons {bytes : List UInt8} :
    LooseExt (byte :: bytes) ↔ (IsBlank byte ∧ LooseExt bytes) ∨ (byte = 59 ∧ Plain bytes) := by
  constructor
  · rintro ⟨blanks, tail, hbytes, hblanks, htail⟩
    cases blanks with
    | nil =>
      obtain rfl | ⟨text, rfl, htext⟩ := htail
      · cases hbytes
      · obtain ⟨rfl, rfl⟩ := List.cons.inj hbytes
        exact .inr ⟨rfl, htext⟩
    | cons first blanks =>
      obtain ⟨rfl, rfl⟩ := List.cons.inj hbytes
      obtain ⟨hfirst, hblanks⟩ := List.forall_mem_cons.1 hblanks
      exact .inl ⟨hfirst, blanks, tail, rfl, hblanks, htail⟩
  · rintro (⟨hblank, blanks, tail, rfl, hblanks, htail⟩ | ⟨rfl, hplain⟩)
    · exact ⟨byte :: blanks, tail, rfl, List.forall_mem_cons.2 ⟨hblank, hblanks⟩, htail⟩
    · exact ⟨[], _, rfl, fun _ h => (nomatch h), .inr ⟨bytes, rfl, hplain⟩⟩

theorem endsLine_ext_cons : EndsLine LooseExt after (byte :: word) ↔
    (byte = cr ∧ EndsLf after word) ∨ (IsBlank byte ∧ EndsLine LooseExt after word) ∨
      (byte = 59 ∧ EndsLine Plain after word) := by
  rw [endsLine_cons]
  simp only [looseExt_cons, endsLine_or, endsLine_and]
  exact or_congr_left (and_congr_right fun _ => and_iff_right looseExt_nil)

theorem sizeTail_nil {value size : Nat} {sawDigit : Bool} :
    SizeTail value sawDigit size [] ↔ sawDigit = true ∧ size = value := by
  constructor
  · rintro ⟨digits, extension, hline, hread, hsaw, -, -⟩
    obtain ⟨rfl, rfl⟩ := List.append_eq_nil_iff.1 hline.symm
    cases hread
    exact ⟨hsaw rfl, rfl⟩
  · rintro ⟨hsaw, rfl⟩
    exact ⟨[], [], rfl, rfl, fun _ => hsaw, fun h => absurd rfl h, looseExt_nil⟩

theorem sizeTail_cons {value size : Nat} {sawDigit : Bool} {bytes : List UInt8} :
    SizeTail value sawDigit size (byte :: bytes) ↔
      (sawDigit = true ∧ size = value ∧ LooseExt (byte :: bytes)) ∨
        ∃ digit, (hexDigit? byte = some digit ∧ value * 16 + digit < 2 ^ 64) ∧
          SizeTail (value * 16 + digit) true size bytes := by
  constructor
  · rintro ⟨digits, extension, hline, hread, hsaw, hsize, hextension⟩
    cases digits with
    | nil =>
      cases hread
      rw [List.nil_append] at hline
      exact .inl ⟨hsaw rfl, rfl, hline ▸ hextension⟩
    | cons first digits =>
      obtain ⟨rfl, rfl⟩ := List.cons.inj hline
      have hlimit := hsize (List.cons_ne_nil _ _)
      rw [readHex] at hread
      rcases hdigit : hexDigit? byte with _ | digit
      · rw [hdigit] at hread
        cases hread
      · rw [hdigit] at hread
        exact .inr ⟨digit, ⟨rfl, Nat.lt_of_le_of_lt (le_of_readHex hread) hlimit⟩, digits, extension, rfl,
          hread, fun _ => rfl, fun _ => hlimit, hextension⟩
  · rintro (⟨hsaw, rfl, hextension⟩ |
      ⟨digit, ⟨hdigit, hlimit⟩, digits, extension, rfl, hread, -, hsize, hextension⟩)
    · exact ⟨[], _, rfl, rfl, fun _ => hsaw, fun h => absurd rfl h, hextension⟩
    · refine ⟨byte :: digits, extension, rfl, ?_, fun h => (by cases h), fun _ => ?_, hextension⟩
      · rw [readHex, hdigit]
        exact hread
      · by_cases hnone : digits = []
        · rw [hnone] at hread
          cases hread
          exact hlimit
        · exact hsize hnone

theorem trailers_cons : Trailers LooseLine (byte :: word) ↔
    (byte = cr ∧ word = [lf]) ∨
      ((byte ≠ cr ∧ byte ≠ lf) ∧ EndsLine Plain (Trailers LooseLine) word) := by
  constructor
  · intro htrailers
    generalize hbytes : byte :: word = bytes at htrailers
    cases htrailers with
    | done =>
      obtain ⟨rfl, rfl⟩ := List.cons.inj hbytes
      exact .inl ⟨rfl, rfl⟩
    | @line text rest hline hrest =>
      obtain ⟨hne, hplain⟩ := hline
      cases text with
      | nil => exact absurd rfl hne
      | cons first text =>
        obtain ⟨rfl, rfl⟩ := List.cons.inj hbytes
        obtain ⟨hfirst, htext⟩ := plain_cons.1 hplain
        exact .inr ⟨hfirst, text, rest, rfl, htext, hrest⟩
  · rintro (⟨rfl, rfl⟩ | ⟨hbyte, text, rest, rfl, htext, hrest⟩)
    · exact .done
    · have hline : LooseLine (byte :: text) :=
        ⟨List.cons_ne_nil _ _, plain_cons.2 ⟨hbyte, htext⟩⟩
      exact .line hline hrest

theorem endsLine_exists {ι : Type} {lines : ι → List UInt8 → Prop} :
    EndsLine (fun bytes => ∃ i, lines i bytes) after word ↔ ∃ i, EndsLine (lines i) after word := by
  simp only [EndsLine]
  grind

theorem endsSize_cons {value : Nat} {sawDigit : Bool} :
    (∃ size, EndsLine (SizeTail value sawDigit size) (AfterSize size) (byte :: word)) ↔
      (sawDigit = true ∧ EndsLine LooseExt (AfterSize value) (byte :: word)) ∨
        ∃ digit, (hexDigit? byte = some digit ∧ value * 16 + digit < 2 ^ 64) ∧
          ∃ size, EndsLine (SizeTail (value * 16 + digit) true size) (AfterSize size) word := by
  have hsize : ∀ size, EndsLine (SizeTail value sawDigit size) (AfterSize size) (byte :: word) ↔
      (sawDigit = true ∧ size = value ∧ EndsLine LooseExt (AfterSize size) (byte :: word)) ∨
        ∃ digit, (hexDigit? byte = some digit ∧ value * 16 + digit < 2 ^ 64) ∧
          EndsLine (SizeTail (value * 16 + digit) true size) (AfterSize size) word := fun size => by
    rw [endsLine_cons, sizeTail_nil, endsLine_cons]
    simp only [sizeTail_cons, endsLine_or, endsLine_and, endsLine_exists, looseExt_nil, true_and]
    tauto
  simp only [hsize]
  constructor
  · rintro ⟨size, ⟨hsaw, rfl, hline⟩ | ⟨digit, hdigit, hline⟩⟩
    · exact .inl ⟨hsaw, hline⟩
    · exact .inr ⟨digit, hdigit, size, hline⟩
  · rintro (⟨hsaw, hline⟩ | ⟨digit, hdigit, size, hline⟩)
    · exact ⟨value, .inl ⟨hsaw, rfl, hline⟩⟩
    · exact ⟨size, .inr ⟨digit, hdigit, hline⟩⟩

theorem not_trailers_nil : ¬Trailers line [] := by
  intro htrailers
  generalize hbytes : [] = bytes at htrailers
  cases htrailers with
  | done => cases hbytes
  | @line bytes rest _ _ => simp [crlf] at hbytes

end Lines

namespace ChunkedBodyTracker

open ChunkedReadPhase

theorem accepts_nil (phase : ChunkedReadPhase) : ¬phase.Accepts [] := by
  cases phase with
  | size value sawDigit inLinearWhitespace inExtension sawCarriageReturn =>
    cases sawCarriageReturn <;> cases inExtension <;> cases inLinearWhitespace <;>
      simp [Accepts, not_endsLf_nil, not_endsLine_nil]
  | data remaining =>
    rintro ⟨data, tail, -, hword, htail⟩
    obtain ⟨-, rfl⟩ := List.append_eq_nil_iff.1 hword.symm
    exact not_endsLine_nil htail
  | dataCarriageReturn => exact not_endsLine_nil
  | dataLineFeed => exact not_endsLf_nil
  | trailerLine hasBytes sawCarriageReturn =>
    cases sawCarriageReturn <;> cases hasBytes <;>
      simp [Accepts, not_endsLf_nil, not_endsLine_nil, not_trailers_nil]
  | invalid => exact id

theorem sizeByte_leaves (value : Nat)
    (sawDigit inLinearWhitespace inExtension sawCarriageReturn : Bool) (byte : UInt8)
    (rest : List UInt8) :
    Accepts (.size value sawDigit inLinearWhitespace inExtension sawCarriageReturn) (byte :: rest) ↔
      (sizeByte value sawDigit inLinearWhitespace inExtension sawCarriageReturn byte).Leaves
        Accepts rest := by
  have hspace : ' '.toUInt8 = 32 := rfl
  have htab : '\t'.toUInt8 = 9 := rfl
  have hsemicolon : ';'.toUInt8 = 59 := rfl
  rw [sizeByte, hspace, htab, hsemicolon]
  by_cases hcr : sawCarriageReturn = true
  · rw [Accepts, if_pos hcr, if_pos hcr, endsLf_cons]
    by_cases hbyte : byte = lf
    · by_cases hzero : value = 0 <;>
        simp [hbyte, hzero, Verdict.Leaves, Accepts, AfterSize]
    · simp [hbyte, Verdict.Leaves]
  rw [Accepts, if_neg hcr, if_neg hcr]
  have hcrlf : cr ≠ lf := by decide
  by_cases hext : inExtension = true
  · rw [if_pos hext, if_pos hext, endsLine_plain_cons]
    by_cases hbyte : byte = cr
    · simp [hbyte, Verdict.Leaves, Accepts]
    · by_cases hline : byte = lf <;> simp [hbyte, hline, hcr, hext, hcrlf.symm, Verdict.Leaves, Accepts]
  rw [if_neg hext, if_neg hext]
  have hneither : ∀ byte : UInt8, byte = 32 ∨ byte = 9 →
      byte ≠ cr ∧ byte ≠ 59 ∧ hexDigit? byte = none := by
    rintro byte (rfl | rfl) <;> decide
  by_cases hspaces : inLinearWhitespace = true
  · rw [if_pos hspaces, if_pos hspaces, endsLine_ext_cons, IsBlank]
    by_cases hblank : byte = 32 ∨ byte = 9
    · obtain ⟨hnotcr, hnotsemicolon, -⟩ := hneither byte hblank
      rw [if_pos hblank]
      simp [hblank, hnotcr, hnotsemicolon, hcr, hext, hspaces, Verdict.Leaves, Accepts]
    rw [if_neg hblank]
    by_cases hsemi : byte = 59
    · simp [hsemi, hcr, Verdict.Leaves, Accepts, cr]
    by_cases hbyte : byte = cr
    · simp [hbyte, Verdict.Leaves, Accepts, cr]
    · simp [hblank, hsemi, hbyte, Verdict.Leaves]
  rw [if_neg hspaces, if_neg hspaces, endsSize_cons, endsLine_ext_cons, IsBlank]
  have hnosemi : hexDigit? 59 = none := by decide
  by_cases hbyte : byte = cr
  · by_cases hsaw : sawDigit = true <;>
      simp [hbyte, hsaw, Verdict.Leaves, Accepts, cr, hexDigit?]
  by_cases hsemi : byte = 59
  · by_cases hsaw : sawDigit = true <;>
      simp [hsemi, hsaw, hnosemi, hcr, Verdict.Leaves, Accepts, cr]
  by_cases hblank : byte = 32 ∨ byte = 9
  · obtain ⟨-, -, hnodigit⟩ := hneither byte hblank
    by_cases hsaw : sawDigit = true <;>
      simp [hbyte, hsemi, hblank, hsaw, hnodigit, hcr, hext, Verdict.Leaves, Accepts]
  rcases hdigit : hexDigit? byte with _ | digit
  · simp [hbyte, hsemi, hblank, Verdict.Leaves]
  · generalize 2 ^ 64 = limit
    by_cases hlimit : value * 16 + digit < limit <;>
      simp [hbyte, hsemi, hblank, hlimit, hcr, hext, hspaces, Verdict.Leaves, Accepts]

theorem trailerByte_leaves (hasBytes sawCarriageReturn : Bool) (byte : UInt8) (rest : List UInt8) :
    Accepts (.trailerLine hasBytes sawCarriageReturn) (byte :: rest) ↔
      (trailerByte hasBytes sawCarriageReturn byte).Leaves Accepts rest := by
  have hcrlf : cr ≠ lf := by decide
  cases sawCarriageReturn <;> cases hasBytes <;>
    simp only [trailerByte, Accepts, if_true, if_false, Bool.false_eq_true, trailers_cons,
      endsLine_plain_cons, endsLf_cons, List.cons.injEq]
  · by_cases hbyte : byte = cr
    · simp [hbyte, Verdict.Leaves, Accepts]
    · by_cases hline : byte = lf <;> simp [hbyte, hline, hcrlf.symm, Verdict.Leaves, Accepts]
  · by_cases hbyte : byte = cr
    · simp [hbyte, Verdict.Leaves, Accepts]
    · by_cases hline : byte = lf <;> simp [hbyte, hline, hcrlf.symm, Verdict.Leaves, Accepts]
  · by_cases hbyte : byte = lf <;> simp [hbyte, Verdict.Leaves]
  · by_cases hbyte : byte = lf <;> simp [hbyte, Verdict.Leaves, Accepts]

theorem data_leaves (remaining : Nat) (byte : UInt8) (rest : List UInt8) :
    Accepts (.data remaining) (byte :: rest) ↔
      (stepByte (.data remaining) byte).Leaves Accepts rest := by
  have hline : EndsLine (· = []) FramedBody (byte :: rest) ↔
      (if byte ≠ cr then Verdict.reject else .more .dataLineFeed : Verdict _).Leaves Accepts rest := by
    rw [endsLine_empty_cons]
    by_cases hbyte : byte = cr <;> simp [hbyte, Verdict.Leaves, Accepts]
  rcases remaining with _ | _ | more
  · refine Iff.trans ?_ hline
    constructor
    · rintro ⟨data, tail, hdata, hword, htail⟩
      obtain rfl := List.length_eq_zero_iff.1 hdata
      exact hword ▸ htail
    · exact fun htail => ⟨[], _, rfl, rfl, htail⟩
  · constructor
    · rintro ⟨data, tail, hdata, hword, htail⟩
      obtain ⟨first, rfl⟩ := List.length_eq_one_iff.1 hdata
      obtain ⟨-, rfl⟩ := List.cons.inj hword
      exact htail
    · exact fun htail => ⟨[byte], rest, rfl, rfl, htail⟩
  · constructor
    · rintro ⟨data, tail, hdata, hword, htail⟩
      cases data with
      | nil => cases hdata
      | cons first data =>
        obtain ⟨rfl, rfl⟩ := List.cons.inj hword
        exact ⟨data, tail, Nat.succ.inj hdata, rfl, htail⟩
    · rintro ⟨data, tail, hdata, rfl, htail⟩
      exact ⟨byte :: data, tail, congrArg Nat.succ hdata, rfl, htail⟩

theorem accepts_sizePhase (word : List UInt8) : sizePhase.Accepts word ↔ FramedBody word := by
  constructor
  · rintro ⟨size, bytes, rest, rfl, ⟨digits, extension, rfl, hread, hsaw, hlimit, hextension⟩,
      hafter⟩
    have hne : digits ≠ [] := fun hnone => Bool.false_ne_true (hsaw hnone)
    have hline : SizeLine LooseExt (digits ++ extension) size :=
      ⟨digits, extension, rfl, hne, hread, hextension⟩
    by_cases hzero : size = 0
    · rw [AfterSize, if_pos hzero] at hafter
      exact .last (hzero ▸ hline) hafter
    · rw [AfterSize, if_neg hzero] at hafter
      obtain ⟨data, tail, rfl, rfl, ⟨empty, body, rfl, rfl, hbody⟩⟩ := hafter
      have hchunk := Body.chunk hline (List.length_pos_iff.1 (Nat.pos_of_ne_zero hzero))
        (hlimit hne) hbody
      rw [FramedBody]
      simpa using hchunk
  · intro hbody
    cases hbody with
    | @last bytes rest hline htrailers =>
      obtain ⟨digits, extension, rfl, hne, hread, hextension⟩ := hline
      exact ⟨0, _, rest, rfl, ⟨digits, extension, rfl, hread, fun h => absurd h hne,
        fun _ => by decide, hextension⟩, htrailers⟩
    | @chunk bytes data rest hline hdata hlimit hrest =>
      obtain ⟨digits, extension, rfl, hne, hread, hextension⟩ := hline
      refine ⟨data.length, digits ++ extension, data ++ crlf ++ rest, by simp,
        ⟨digits, extension, rfl, hread, fun h => absurd h hne, fun _ => hlimit, hextension⟩, ?_⟩
      rw [AfterSize, if_neg (mt List.length_eq_zero_iff.1 hdata)]
      exact ⟨data, crlf ++ rest, rfl, by simp, [], rest, rfl, rfl, hrest⟩

theorem recognizes : Recognizes stepByte Accepts where
  nil := accepts_nil
  cons phase byte rest := by
    cases phase with
    | size value sawDigit inLinearWhitespace inExtension sawCarriageReturn =>
      exact sizeByte_leaves _ _ _ _ _ byte rest
    | data remaining => exact data_leaves remaining byte rest
    | dataCarriageReturn =>
      rw [stepByte, Accepts, endsLine_empty_cons]
      by_cases hbyte : byte = cr <;> simp [hbyte, Verdict.Leaves, Accepts]
    | dataLineFeed =>
      rw [stepByte, Accepts, endsLf_cons]
      by_cases hbyte : byte = lf
      · simp [hbyte, Verdict.Leaves, accepts_sizePhase]
      · simp [hbyte, Verdict.Leaves]
    | trailerLine hasBytes sawCarriageReturn => exact trailerByte_leaves _ _ byte rest
    | invalid => exact Iff.rfl

/-- The phases that a body can be in. -/
def Live : ChunkedReadPhase → Prop
  | .size value sawDigit _ _ _ => sawDigit = true ∨ value = 0
  | .data _ | .dataCarriageReturn | .dataLineFeed | .trailerLine .. => True
  | .invalid => False

theorem live_of_stepByte (phase : ChunkedReadPhase) (byte : UInt8) (next : ChunkedReadPhase)
    (hlive : Live phase) (hstep : stepByte phase byte = .more next) : Live next := by
  cases phase with
  | size value sawDigit inLinearWhitespace inExtension sawCarriageReturn =>
    have hsame : ∀ a b c, Live (.size value sawDigit a b c) := fun _ _ _ => hlive
    simp only [stepByte, sizeByte] at hstep
    grind [Live]
  | data remaining =>
    simp only [stepByte] at hstep
    grind [Live]
  | dataCarriageReturn =>
    simp only [stepByte] at hstep
    grind [Live]
  | dataLineFeed =>
    simp only [stepByte, sizePhase] at hstep
    grind [Live]
  | trailerLine hasBytes sawCarriageReturn =>
    simp only [stepByte, trailerByte] at hstep
    grind [Live]
  | invalid => exact hlive.elim

/-- The shortest body. -/
def emptyBody : List UInt8 := [48, cr, lf, cr, lf]

theorem emptyBody_framed : FramedBody emptyBody := by
  have hline : SizeLine LooseExt [48] 0 := ⟨[48], [], rfl, List.cons_ne_nil _ _, rfl, looseExt_nil⟩
  exact .last hline .done

theorem exists_afterSize (size : Nat) : ∃ rest, AfterSize size rest := by
  by_cases hzero : size = 0
  · refine ⟨crlf, ?_⟩
    rw [AfterSize, if_pos hzero]
    exact .done
  · refine ⟨List.replicate size 0 ++ (crlf ++ emptyBody), ?_⟩
    rw [AfterSize, if_neg hzero]
    exact ⟨_, _, List.length_replicate, rfl, [], emptyBody, rfl, rfl, emptyBody_framed⟩

theorem exists_accepts (phase : ChunkedReadPhase) (hlive : Live phase) :
    ∃ word, phase.Accepts word := by
  cases phase with
  | size value sawDigit inLinearWhitespace inExtension sawCarriageReturn =>
    obtain ⟨rest, hrest⟩ := exists_afterSize value
    cases sawCarriageReturn
    case true => exact ⟨lf :: rest, rest, rfl, hrest⟩
    cases inExtension
    case true => exact ⟨crlf ++ rest, [], rest, rfl, plain_nil, hrest⟩
    cases inLinearWhitespace
    case true => exact ⟨crlf ++ rest, [], rest, rfl, looseExt_nil, hrest⟩
    cases sawDigit
    case true => exact ⟨crlf ++ rest, value, [], rest, rfl, sizeTail_nil.2 ⟨rfl, rfl⟩, hrest⟩
    obtain rfl : value = 0 := hlive.resolve_left Bool.false_ne_true
    exact ⟨emptyBody, (accepts_sizePhase emptyBody).2 emptyBody_framed⟩
  | data remaining =>
    exact ⟨List.replicate remaining 0 ++ (crlf ++ emptyBody), _, _, List.length_replicate, rfl, [],
      emptyBody, rfl, rfl, emptyBody_framed⟩
  | dataCarriageReturn => exact ⟨crlf ++ emptyBody, [], emptyBody, rfl, rfl, emptyBody_framed⟩
  | dataLineFeed => exact ⟨lf :: emptyBody, emptyBody, rfl, emptyBody_framed⟩
  | trailerLine hasBytes sawCarriageReturn =>
    cases sawCarriageReturn <;> cases hasBytes
    · exact ⟨crlf, .done⟩
    · exact ⟨crlf ++ crlf, [], crlf, rfl, plain_nil, .done⟩
    · exact ⟨[lf], rfl⟩
    · exact ⟨lf :: crlf, crlf, rfl, .done⟩
  | invalid => exact hlive.elim

theorem consume_consumes (tracker : ChunkedBodyTracker) (input : List UInt8) :
    Consumes 0 input ((tracker.consume input).1, (tracker.consume input).2.phase)
      (recognize stepByte tracker.phase input) :=
  consumeFrom_consumes tracker.phase 0 input

/-- The first byte behind a body is where the tracker is done. -/
theorem consume_complete_iff {input : List UInt8} {consumed : Nat} :
    (new.consume input).1 = .complete consumed ↔
      consumed ≤ input.length ∧ FramedBody (input.take consumed) := by
  have hconsumes := consume_consumes new input
  have hrun : ∀ rest, recognize stepByte new.phase input = .complete rest ↔
      ∃ word, FramedBody word ∧ input = word ++ rest := fun rest =>
    (recognize_complete_iff recognizes).trans (by simp only [new, accepts_sizePhase])
  constructor
  · intro hcomplete
    rcases hrecognize : recognize stepByte new.phase input with next | rest | _
    · rw [hrecognize] at hconsumes
      cases hcomplete.symm.trans (Prod.mk.inj hconsumes).1
    · rw [hrecognize] at hconsumes
      obtain ⟨taken, hle, hrest, hresult⟩ := hconsumes
      obtain rfl : consumed = taken := by
        have hsame := hcomplete.symm.trans hresult
        rw [Nat.zero_add] at hsame
        exact ChunkedProgress.complete.inj hsame
      obtain ⟨word, hword, hinput⟩ := (hrun rest).1 hrecognize
      have hsplit := hinput.symm.trans (List.take_append_drop consumed input).symm
      rw [hrest] at hsplit
      exact ⟨hle, List.append_cancel_right hsplit ▸ hword⟩
    · rw [hrecognize] at hconsumes
      cases hcomplete.symm.trans (Prod.mk.inj hconsumes).1
  · rintro ⟨hle, hbody⟩
    rw [(hrun (input.drop consumed)).2 ⟨_, hbody, (List.take_append_drop consumed input).symm⟩]
      at hconsumes
    obtain ⟨taken, htaken, hrest, hresult⟩ := hconsumes
    have hlength := congrArg List.length hrest
    rw [List.length_drop, List.length_drop] at hlength
    obtain rfl : taken = consumed := by omega
    rw [Nat.zero_add] at hresult
    exact hresult

/-- The tracker waits for more exactly when the input is the beginning of a body. -/
theorem consume_incomplete_iff {input : List UInt8} :
    (new.consume input).1 = .incomplete ↔ ∃ more ≠ [], FramedBody (input ++ more) := by
  have hconsumes := consume_consumes new input
  have hlive : (∃ next, recognize stepByte sizePhase input = .incomplete next) ↔ _ :=
    recognize_incomplete_iff recognizes live_of_stepByte exists_accepts (.inr rfl)
  simp only [accepts_sizePhase] at hlive
  rw [← hlive]
  rcases hrecognize : recognize stepByte sizePhase input with next | rest | _
  · rw [new, hrecognize] at hconsumes
    exact iff_of_true (Prod.mk.inj hconsumes).1 ⟨next, rfl⟩
  · rw [new, hrecognize] at hconsumes
    obtain ⟨taken, -, -, hresult⟩ := hconsumes
    refine iff_of_false (fun hincomplete => ?_) (by rintro ⟨next, hnext⟩; cases hnext)
    cases hincomplete.symm.trans hresult
  · rw [new, hrecognize] at hconsumes
    refine iff_of_false (fun hincomplete => ?_) (by rintro ⟨next, hnext⟩; cases hnext)
    cases hincomplete.symm.trans (Prod.mk.inj hconsumes).1

/-- The tracker gives up exactly when there is no body, here or to come. -/
theorem consume_invalid_iff {input : List UInt8} :
    (new.consume input).1 = .invalid ↔
      (∀ consumed ≤ input.length, ¬FramedBody (input.take consumed)) ∧
        ∀ more, ¬FramedBody (input ++ more) := by
  have hprogress : ∀ progress : ChunkedProgress, progress = .invalid ↔
      (∀ consumed, progress ≠ .complete consumed) ∧ progress ≠ .incomplete := by
    intro progress
    cases progress <;> simp
  rw [hprogress, Ne, consume_incomplete_iff]
  simp only [Ne, consume_complete_iff]
  constructor
  · rintro ⟨hcomplete, hincomplete⟩
    refine ⟨fun consumed hle hbody => hcomplete consumed ⟨hle, hbody⟩, fun more hbody => ?_⟩
    by_cases hmore : more = []
    · refine hcomplete input.length ⟨Nat.le_refl _, ?_⟩
      rw [List.take_length]
      rwa [hmore, List.append_nil] at hbody
    · exact hincomplete ⟨more, hmore, hbody⟩
  · rintro ⟨hcomplete, hincomplete⟩
    exact ⟨fun consumed hbody => hcomplete consumed hbody.1 hbody.2,
      fun ⟨more, _, hbody⟩ => hincomplete more hbody⟩

end ChunkedBodyTracker

end Troupe.Agent
