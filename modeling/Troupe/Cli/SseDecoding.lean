import Mathlib.Data.List.Basic
import Troupe.Cli.Sse
import Troupe.Core.WireEvent
import Troupe.Lib.Chunked

/-! # Decoding what the server encodes

* `ServedFrame` is a frame of `diagnostic_event` or `control_frame`, with any event and any payload;
  `raw` is what the decoder is to make of it.
* `Arrived`: some of the frames in full, and the beginning of the next.
* `Torn` bodies are the ones whose frames depend on the chunks (`decodeChunks_eq_decodeBody`,
  `exists_decodeChunks_ne`): a frame of the maximum size is refused when the cut is inside of its
  terminator, and decoded otherwise.

Headline result: **`sse_decoding`**. -/

namespace Troupe.Cli

open Troupe.Lib Troupe.Core Troupe.Server
open Troupe.Lib.Chunked (Plain)

/-! ## JSON as bytes -/

/-- The bytes of a text without control characters. -/
theorem utf8_ofList_printable {text : List Char} (h : ∀ c ∈ text, 32 ≤ c.toNat) :
    ∀ byte ∈ utf8 (String.ofList text), 32 ≤ byte.toNat := by
  intro byte hbyte
  unfold utf8 at hbyte
  rw [String.toByteArray_ofList, List.utf8Encode] at hbyte
  simp only [List.data_toByteArray, List.mem_flatMap] at hbyte
  obtain ⟨c, hc, hbyte⟩ := hbyte
  have hchar : 32 ≤ c.val.toNat := h c hc
  have hvalid := c.valid
  unfold String.utf8EncodeChar at hbyte
  simp only at hbyte
  split at hbyte
  · simp only [List.mem_singleton] at hbyte
    subst hbyte
    rw [UInt8.toNat_ofNat']
    omega
  split at hbyte
  · simp only [List.mem_cons, List.not_mem_nil, or_false] at hbyte
    rcases hbyte with rfl | rfl <;> rw [UInt8.toNat_ofNat'] <;> omega
  split at hbyte
  · simp only [List.mem_cons, List.not_mem_nil, or_false] at hbyte
    rcases hbyte with rfl | rfl | rfl <;> rw [UInt8.toNat_ofNat'] <;> omega
  · simp only [List.mem_cons, List.not_mem_nil, or_false] at hbyte
    rcases hbyte with rfl | rfl | rfl | rfl <;> rw [UInt8.toNat_ofNat'] <;> omega

/-- No character of the text is a control character. -/
def Printable (text : List Char) : Prop := ∀ c ∈ text, 32 ≤ c.toNat

theorem printable_append {xs ys : List Char} :
    Printable (xs ++ ys) ↔ Printable xs ∧ Printable ys := by
  simp [Printable, or_imp, forall_and]

theorem printable_cons {c : Char} {xs : List Char} :
    Printable (c :: xs) ↔ 32 ≤ c.toNat ∧ Printable xs := by
  simp [Printable]

theorem printable_hexDigit {value : Nat} (h : value < 16) : 32 ≤ (Json.hexDigit value).toNat := by
  interval_cases value <;> decide

theorem printable_escapeChar (c : Char) : Printable (Json.escapeChar c) := by
  unfold Json.escapeChar
  split
  · simp [Printable]
  split
  · simp [Printable]
  split
  · simp [Printable]
  split
  · simp [Printable]
  split
  · simp [Printable]
  split
  · simp [Printable]
  split
  · simp [Printable]
  split
  · rename_i hcontrol
    have hhigh := printable_hexDigit (show c.toNat / 16 < 16 by omega)
    have hlow := printable_hexDigit (show c.toNat % 16 < 16 by omega)
    simp [Printable, hhigh, hlow]
  · rename_i hplain
    simpa [Printable] using hplain

theorem printable_quote (text : String) : Printable (Json.quote text) := by
  unfold Json.quote
  rw [printable_cons, printable_append]
  refine ⟨by decide, fun c hc => ?_, by simp [Printable]⟩
  obtain ⟨d, -, hd⟩ := List.mem_flatMap.mp hc
  exact printable_escapeChar d c hd

theorem printable_number (number : JsonNumber) : Printable number.text := by
  intro c hc
  have hchar := number.isNumberChar_of_mem c hc
  simp only [isNumberChar, Bool.or_eq_true, beq_iff_eq] at hchar
  rcases hchar with ((((hdigit | rfl) | rfl) | rfl) | rfl) | rfl
  · exact le_trans (by decide) (isDigit_toNat hdigit).1
  all_goals decide

mutual

theorem printable_render : ∀ value : Json, Printable value.render
  | .null => by simp [Json.render, Printable]
  | .bool true => by simp [Json.render, Printable]
  | .bool false => by simp [Json.render, Printable]
  | .number value => printable_number value
  | .string value => printable_quote value
  | .array .nil => by simp [Json.render, Printable]
  | .array (.cons value rest) => by
    rw [Json.render, printable_cons, printable_append]
    exact ⟨by decide, printable_render value, printable_renderItems rest⟩
  | .object .nil => by simp [Json.render, Printable]
  | .object (.cons key value rest) => by
    rw [Json.render, printable_cons, printable_append, printable_cons, printable_append]
    exact ⟨by decide, printable_quote key, by decide, printable_render value,
      printable_renderRest rest⟩

theorem printable_renderItems : ∀ items : JsonItems, Printable (Json.renderItems items)
  | .nil => by simp [Json.renderItems, Printable]
  | .cons value rest => by
    rw [Json.renderItems, printable_cons, printable_append]
    exact ⟨by decide, printable_render value, printable_renderItems rest⟩

theorem printable_renderRest : ∀ fields : JsonFields, Printable (Json.renderRest fields)
  | .nil => by simp [Json.renderRest, Printable]
  | .cons key value rest => by
    rw [Json.renderRest, printable_cons, printable_append, printable_cons, printable_append]
    exact ⟨by decide, printable_quote key, by decide, printable_render value,
      printable_renderRest rest⟩

end

/-- The bytes of a JSON value have no line end. -/
theorem plain_toVec (value : Json) : Plain value.toVec := by
  intro byte hbyte
  have hprintable := utf8_ofList_printable (printable_render value) byte hbyte
  constructor
  · rintro rfl
    exact absurd hprintable (by decide)
  · rintro rfl
    exact absurd hprintable (by decide)

/-! ## The decoder's search -/

section Decoding

variable (debug : String → String)

/-- The decoder with a buffer. -/
def ofBuffer (tail : List UInt8) : Decoded RawSseFrame FollowError SseEnvelopeDecoder :=
  ⟨[], .ok ⟨tail⟩⟩

theorem andThen_ofBuffer_inj {decoded other : Decoded RawSseFrame FollowError (List UInt8)}
    (h : decoded.andThen ofBuffer = other.andThen ofBuffer) : decoded = other := by
  obtain ⟨frames, outcome⟩ := decoded
  obtain ⟨frames', outcome'⟩ := other
  cases outcome <;> cases outcome' <;> simp_all [Decoded.andThen, ofBuffer]

/-- The frames the code takes are those of the search. -/
theorem nextFrames_eq (decoder : SseEnvelopeDecoder) :
    decoder.nextFrames debug =
      (frameSearch.drain maxSseFrameBytes sizeLimitExceeded (parseSseFrame debug)
        decoder.buffer).andThen ofBuffer := by
  induction hlength : decoder.buffer.length using Nat.strongRecOn generalizing decoder with
  | ind length ih =>
    subst hlength
    obtain ⟨herror, hnone, hframe⟩ := decoder.nextFrame_eq debug
    rw [SseEnvelopeDecoder.nextFrames]
    cases hnext : frameSearch.next maxSseFrameBytes sizeLimitExceeded (parseSseFrame debug)
        decoder.buffer with
    | error error =>
      have hfirst := herror error hnext
      rw [FrameSearch.drain_error hnext]
      split <;> simp_all [Decoded.andThen]
    | ok found =>
      cases found with
      | none =>
        have hboth := hnone hnext
        rw [FrameSearch.drain_none hnext]
        split <;> simp_all [Decoded.andThen, ofBuffer]
      | some found =>
        obtain ⟨frame, rest⟩ := found
        have hboth := hframe frame rest hnext
        rw [FrameSearch.drain_frame hnext, Decoded.after_andThen,
          ← ih _ (FrameSearch.length_lt_of_next hnext) ⟨rest⟩ rfl]
        split <;> simp_all

/-- **What the code decodes of chunks is what feeding them yields.** -/
theorem decodeChunks_eq {decoder : SseEnvelopeDecoder}
    (hshort : decoder.buffer.length ≤ maxSseFrameBytes) (chunks : List Chunk) :
    decodeChunks debug decoder chunks =
      (frameSearch.feed maxSseFrameBytes sizeLimitExceeded (parseSseFrame debug) decoder.buffer
        (chunks.map Chunk.bytes)).andThen ofBuffer := by
  induction chunks generalizing decoder with
  | nil => rfl
  | cons chunk chunks ih =>
    have hroom := checkedAdd_of_le (show decoder.buffer.length + chunk.bytes.length ≤ usizeMax by
      have hchunk := chunk.length_le
      unfold maxSseFrameBytes at hshort
      unfold isizeMax at hchunk
      unfold usizeMax
      omega)
    have hpush : decoder.push chunk =
        if findFrameEnd (decoder.buffer ++ chunk.bytes) = none ∧
          maxSseFrameBytes < (decoder.buffer ++ chunk.bytes).length
        then .error sizeLimitExceeded else .ok ⟨decoder.buffer ++ chunk.bytes⟩ := by
      unfold SseEnvelopeDecoder.push
      rw [hroom]
      rfl
    rw [decodeChunks, List.map_cons, FrameSearch.feed, hpush]
    by_cases hlong : findFrameEnd (decoder.buffer ++ chunk.bytes) = none ∧
        maxSseFrameBytes < (decoder.buffer ++ chunk.bytes).length
    · -- the limit of `push` is also the one of `next_frame`
      have hnext : frameSearch.next maxSseFrameBytes sizeLimitExceeded (parseSseFrame debug)
          (decoder.buffer ++ chunk.bytes) = .error sizeLimitExceeded := by
        rw [FrameSearch.next_of_none ((findFrameEnd_eq _).symm.trans hlong.1)]
        exact if_pos hlong.2
      rw [if_pos hlong, FrameSearch.drain_error hnext]
      rfl
    · rw [if_neg hlong]
      dsimp only
      rw [nextFrames_eq, Decoded.andThen_assoc, Decoded.andThen_assoc]
      refine Decoded.andThen_congr fun tail htail => ?_
      exact ih (FrameSearch.length_le_of_drained (FrameSearch.drain_tail htail))

/-- All of a body at once. -/
def decodeBody (bytes : List UInt8) : Decoded RawSseFrame FollowError SseEnvelopeDecoder :=
  (frameSearch.drain maxSseFrameBytes sizeLimitExceeded (parseSseFrame debug) bytes).andThen
    ofBuffer

/-- A frame within the limit is in reach whose terminator ends more than one byte behind the limit. -/
def Torn (bytes : List UInt8) : Prop :=
  frameSearch.Torn maxSseFrameBytes (parseSseFrame debug) bytes

theorem torn_of_frameEnd {debug : String → String} {bytes : List UInt8} {content framed : Nat}
    (h : frameEnd bytes = some (content, framed)) (hfits : content ≤ maxSseFrameBytes)
    (hfar : maxSseFrameBytes + 1 < framed) : Torn debug bytes :=
  FrameSearch.Torn.here h hfits hfar

/-- What a body is received as. -/
def received (chunks : List Chunk) : List UInt8 := chunks.flatMap Chunk.bytes

/-- **Without a torn frame the chunks make no difference.** -/
theorem decodeChunks_eq_decodeBody {chunks : List Chunk} (htorn : ¬ Torn debug (received chunks)) :
    decodeChunks debug ⟨[]⟩ chunks = decodeBody debug (received chunks) := by
  rw [decodeChunks_eq debug (Nat.zero_le _), FrameSearch.feed_eq_drain FrameSearch.drain_nil]
  · rw [List.nil_append, ← List.flatMap_def]
    rfl
  · rw [List.nil_append, ← List.flatMap_def]
    exact htorn

end Decoding

/-! ## The server's frames -/

/-- A frame that the server encodes. -/
inductive ServedFrame where
  | event (occurred : DiagnosticEvent)
  | control (kind : SseFrameKind) (isControl : kind ≠ .diagnosticEvent)
      (payload : List (String × Json))

namespace ServedFrame

variable (crates : Crates)

/-- The frame with its bytes. -/
def frame : ServedFrame → SseFrame
  | .event occurred => SseFrame.diagnosticEvent ⟨occurred, occurred.toVec crates⟩
  | .control kind _ payload => controlFrame kind payload

/-- The JSON it carries. -/
def data : ServedFrame → List UInt8
  | .event occurred => occurred.toVec crates
  | .control _ _ payload => (Json.object (JsonFields.ofList payload)).toVec

/-- What the decoder is to make of it. -/
def raw (served : ServedFrame) : RawSseFrame :=
  ⟨(served.frame crates).kind, (served.frame crates).id, served.data crates⟩

/-- The bytes on the wire. -/
def bytes (served : ServedFrame) : List UInt8 := (served.frame crates).bytes

/-- The lines of its bytes. -/
def lines (served : ServedFrame) : List (List UInt8) :=
  (utf8 "event: " ++ utf8 (served.frame crates).kind.eventName) ::
    ((served.frame crates).id.toList.map fun id => utf8 "id: " ++ utf8 id.get.repr) ++
    [utf8 "data: " ++ served.data crates]

theorem plain_data (served : ServedFrame) : Plain (served.data crates) := by
  cases served with
  | event occurred => exact plain_toVec _
  | control kind isControl payload => exact plain_toVec _

theorem bytes_eq (served : ServedFrame) :
    served.bytes crates = [10].intercalate (served.lines crates) ++ [10, 10] := by
  have hline : utf8 "\n" = [10] := by decide +kernel
  have hblank : utf8 "\n\n" = [10, 10] := by decide +kernel
  cases served with
  | event occurred =>
    unfold bytes frame SseFrame.diagnosticEvent encodeFrame
    rw [hline, hblank]
    simp [lines, frame, data, SseFrame.diagnosticEvent, CommittedEvent.sequence, List.intercalate,
      List.append_assoc]
  | control kind isControl payload =>
    unfold bytes frame controlFrame encodeFrame
    rw [hline, hblank]
    simp [lines, frame, data, controlFrame, List.intercalate, List.append_assoc]

theorem plain_repr (value : Nat) : Plain (utf8 value.repr) := by
  intro byte hbyte
  have hprintable : 32 ≤ byte.toNat := by
    refine @utf8_ofList_printable (Nat.toDigits 10 value) (fun c hc => ?_) byte hbyte
    exact le_trans (by decide) (isDigit_toNat (toDigits_isDigit c hc)).1
  constructor
  · rintro rfl
    exact absurd hprintable (by decide)
  · rintro rfl
    exact absurd hprintable (by decide)

theorem plain_append {xs ys : List UInt8} (hx : Plain xs) (hy : Plain ys) : Plain (xs ++ ys) :=
  List.forall_mem_append.mpr ⟨hx, hy⟩

/-- The lines have no line end and are not empty. -/
theorem lines_plain (served : ServedFrame) :
    ∀ line ∈ served.lines crates, Plain line ∧ line ≠ [] := by
  have hevent : Plain (utf8 "event: ") := by
    unfold Plain
    decide +kernel
  have hid : Plain (utf8 "id: ") := by
    unfold Plain
    decide +kernel
  have hdata : Plain (utf8 "data: ") := by
    unfold Plain
    decide +kernel
  have hname (kind : SseFrameKind) : Plain (utf8 kind.eventName) := by
    unfold Plain
    cases kind <;> decide +kernel
  intro line hline
  simp only [lines, List.cons_append, List.mem_cons, List.mem_append, List.mem_map,
    List.not_mem_nil, or_false] at hline
  rcases hline with rfl | ⟨id, -, rfl⟩ | rfl
  · exact ⟨plain_append hevent (hname _), List.append_ne_nil_of_left_ne_nil (by decide +kernel) _⟩
  · exact ⟨plain_append hid (plain_repr _), List.append_ne_nil_of_left_ne_nil (by decide +kernel) _⟩
  · exact ⟨plain_append hdata (served.plain_data crates),
      List.append_ne_nil_of_left_ne_nil (by decide +kernel) _⟩

end ServedFrame

/-! ## Where a served frame ends -/

/-- No terminator starts in front of a line end. -/
theorem frameEnd_plain {line : List UInt8} (h : Plain line) (more : List UInt8) :
    frameEnd (line ++ more) =
      (frameEnd more).map fun ends => (ends.1 + line.length, ends.2 + line.length) := by
  induction line with
  | nil => simp
  | cons byte rest ih =>
    obtain ⟨hbyte, hrest⟩ := List.forall_mem_cons.mp h
    have hlf : ¬ [10, 10] <+: byte :: (rest ++ more) := fun hfront =>
      hbyte.2 (List.cons_prefix_cons.mp hfront).1.symm
    have hcrlf : ¬ [13, 10, 13, 10] <+: byte :: (rest ++ more) := fun hfront =>
      hbyte.1 (List.cons_prefix_cons.mp hfront).1.symm
    rw [List.cons_append, frameEnd, if_neg hlf, if_neg hcrlf, ih hrest, Option.map_map]
    simp [Nat.add_assoc, Function.comp_def]

/-- Lines end at the empty line behind them. -/
theorem frameEnd_lines {lines : List (List UInt8)} (h : ∀ line ∈ lines, Plain line ∧ line ≠ [])
    (hsome : lines ≠ []) (more : List UInt8) :
    frameEnd ([10].intercalate lines ++ [10, 10] ++ more) =
      some (([10].intercalate lines).length, ([10].intercalate lines).length + 2) := by
  induction lines with
  | nil => exact absurd rfl hsome
  | cons line rest ih =>
    obtain ⟨⟨hplain, -⟩, hrest⟩ := List.forall_mem_cons.mp h
    cases rest with
    | nil =>
      have hend : frameEnd (10 :: 10 :: more) = some (0, 2) := by
        rw [frameEnd, if_pos (by simp)]
      simp [List.intercalate, frameEnd_plain hplain, hend, Nat.add_comm]
    | cons second others =>
      have htail := ih hrest (List.cons_ne_nil _ _)
      obtain ⟨⟨hsecond, hne⟩, -⟩ := List.forall_mem_cons.mp hrest
      have hsplit : [10].intercalate (line :: second :: others) =
          line ++ 10 :: [10].intercalate (second :: others) := by
        simp [List.intercalate]
      obtain ⟨byte, start, rfl⟩ := List.exists_cons_of_ne_nil hne
      obtain ⟨tail, hstart⟩ : ∃ tail,
          [10].intercalate ((byte :: start) :: others) = byte :: tail := by
        cases others <;> simp [List.intercalate]
      -- the next line starts with another byte
      have hbyte : byte ≠ 10 := (hsecond byte List.mem_cons_self).2
      have hlf : ¬ [10, 10] <+: 10 :: ([10].intercalate ((byte :: start) :: others) ++ [10, 10] ++
          more) := by
        rw [hstart]
        simp [hbyte.symm]
      have hcrlf : ¬ [13, 10, 13, 10] <+:
          10 :: ([10].intercalate ((byte :: start) :: others) ++ [10, 10] ++ more) := by
        simp
      have hwhole : line ++ 10 :: [10].intercalate ((byte :: start) :: others) ++ [10, 10] ++ more =
          line ++ (10 :: ([10].intercalate ((byte :: start) :: others) ++ [10, 10] ++ more)) := by
        simp
      rw [hsplit, hwhole, frameEnd_plain hplain, frameEnd, if_neg hlf, if_neg hcrlf, htail]
      simp only [Option.map_some, List.length_append, List.length_cons]
      congr 2 <;> omega

/-! ## What is read of a served frame -/

theorem stripPrefix_append (front bytes : List UInt8) :
    stripPrefix front (front ++ bytes) = some bytes := by
  rw [stripPrefix, if_pos (List.prefix_append _ _), List.drop_left]

theorem stripPrefix_id_data (data : List UInt8) :
    stripPrefix (utf8 "id: ") (utf8 "data: " ++ data) = none := by
  have hid : utf8 "id: " = [105, 100, 58, 32] := by decide +kernel
  have hdata : utf8 "data: " = [100, 97, 116, 97, 58, 32] := by decide +kernel
  rw [hid, hdata, stripPrefix, if_neg (by simp)]

theorem strFromUtf8_utf8 (text : String) : strFromUtf8 (utf8 text) = some text := by
  have hbytes : (⟨(utf8 text).toArray⟩ : ByteArray) = text.toByteArray := by
    rw [utf8, Array.toArray_toList]
  rw [strFromUtf8, hbytes, String.fromUTF8?, dif_pos text.isValidUTF8]
  rfl

theorem fromEventName_eventName (kind : SseFrameKind) :
    fromEventName kind.eventName = some kind := by
  cases kind <;> decide +kernel

theorem parseU64_repr (id : SchemaU64) : parseU64 id.get.repr = some id := by
  have htext : id.get.repr.toList = Nat.toDigits 10 id.get := by
    rw [Nat.repr_eq_ofList_toDigits, String.toList_ofList]
  have hvalue : Lib.digitsValue (Nat.toDigits 10 id.get) = id.get := Nat.ofDigitChars_ten_toDigits
  have hdigits : (Nat.toDigits 10 id.get).all Char.isDigit = true :=
    List.all_eq_true.mpr toDigits_isDigit
  have hsign : withoutPlus id.get.repr.toList = Nat.toDigits 10 id.get := by
    rw [htext]
    unfold withoutPlus
    split
    · rename_i digits hplus
      have hplain := toDigits_isDigit '+' (hplus ▸ List.mem_cons_self)
      exact absurd hplain (by decide)
    · rfl
  unfold parseU64
  dsimp only
  rw [hsign]
  rw [if_pos ⟨Nat.toDigits_ne_nil, hdigits⟩, dif_pos (hvalue.le.trans id.le_max)]
  exact congrArg some (SchemaU64.get_injective hvalue)

theorem parseSseId_repr (id : SchemaU64) : parseSseId (utf8 id.get.repr) = .ok id := by
  have htext : id.get.repr.toList = Nat.toDigits 10 id.get := by
    rw [Nat.repr_eq_ofList_toDigits, String.toList_ofList]
  have hcanonical : ¬ (id.get.repr.isEmpty ∨
      1 < id.get.repr.utf8ByteSize ∧ id.get.repr.toList.head? = some '0') := by
    rintro (hempty | ⟨hlong, hzero⟩)
    · rw [String.isEmpty_iff.mp hempty, String.toList_empty] at htext
      exact Nat.toDigits_ne_nil htext.symm
    · rw [htext] at hzero
      have hvalue : id.get = 0 :=
        Nat.eq_zero_of_not_pos fun hpos => head_toDigits_ne_zero hpos hzero
      rw [hvalue] at hlong
      exact absurd hlong (by decide +kernel)
  rw [parseSseId, strFromUtf8_utf8, orInvalid, ok_bind, if_neg hcanonical, parseU64_repr]
  rfl

theorem stripCarriageReturn_plain {line : List UInt8} (h : Plain line) :
    stripCarriageReturn line = line := by
  refine if_neg fun hlast => ?_
  exact (h 13 (List.mem_of_getLast? hlast)).1 rfl

section Served

variable (crates : Crates) (debug : String → String)

theorem splitOn_lines (served : ServedFrame) :
    (([10].intercalate (served.lines crates)).splitOn 10).map stripCarriageReturn =
      served.lines crates := by
  have hplain := served.lines_plain crates
  rw [List.splitOn_intercalate 10 (fun line hline hlf => ((hplain line hline).1 10 hlf).2 rfl)
    (List.cons_ne_nil _ _)]
  exact (List.map_congr_left fun line hline => stripCarriageReturn_plain (hplain line hline).1).trans
    (List.map_id _)

/-- **A served frame is read as what it is.** -/
theorem parseSseFrame_served (served : ServedFrame) :
    parseSseFrame debug ([10].intercalate (served.lines crates)) = .ok (served.raw crates) := by
  unfold parseSseFrame
  rw [splitOn_lines]
  unfold ServedFrame.lines
  cases served with
  | event occurred =>
    simp only [ServedFrame.frame, ServedFrame.data, SseFrame.diagnosticEvent, Option.toList_some,
      List.map_cons, List.map_nil, List.cons_append, List.nil_append, List.head?_cons,
      List.tail_cons, orInvalid, ok_bind, stripPrefix_append, strFromUtf8_utf8,
      fromEventName_eventName, parseIdLine, parseSseId_repr, Option.map_some]
    rfl
  | control kind isControl payload =>
    simp only [ServedFrame.frame, ServedFrame.data, controlFrame, Option.toList_none,
      List.map_nil, List.cons_append, List.nil_append, List.head?_cons, List.tail_cons,
      orInvalid, ok_bind, stripPrefix_append, strFromUtf8_utf8, fromEventName_eventName,
      parseIdLine, stripPrefix_id_data]
    cases kind <;> first | exact absurd rfl isControl | rfl

/-! ## Bodies of served frames -/

/-- The length of a frame without its terminator. -/
def ServedFrame.contentLength (served : ServedFrame) : Nat :=
  ([10].intercalate (served.lines crates)).length

variable {crates debug}

theorem length_bytes (served : ServedFrame) :
    (served.bytes crates).length = served.contentLength crates + 2 := by
  rw [served.bytes_eq, List.length_append]
  rfl

variable (crates) in
theorem frameEnd_served (served : ServedFrame) (more : List UInt8) :
    frameEnd (served.bytes crates ++ more) =
      some (served.contentLength crates, served.contentLength crates + 2) := by
  rw [served.bytes_eq]
  exact frameEnd_lines (served.lines_plain crates) (List.cons_ne_nil _ _) more

theorem take_served (served : ServedFrame) (more : List UInt8) :
    (served.bytes crates ++ more).take (served.contentLength crates) =
      [10].intercalate (served.lines crates) := by
  rw [served.bytes_eq, List.append_assoc]
  exact List.take_left

theorem drop_served (served : ServedFrame) (more : List UInt8) :
    (served.bytes crates ++ more).drop (served.contentLength crates + 2) = more := by
  rw [← length_bytes, List.drop_left]

variable (crates debug) in
theorem next_served (served : ServedFrame) (more : List UInt8) :
    frameSearch.next maxSseFrameBytes sizeLimitExceeded (parseSseFrame debug)
        (served.bytes crates ++ more) =
      if maxSseFrameBytes < served.contentLength crates then .error sizeLimitExceeded
      else .ok (some (served.raw crates, more)) := by
  rw [FrameSearch.next_of_some (frameEnd_served crates served more), take_served, drop_served,
    parseSseFrame_served]
  rfl

/-- What is torn behind a frame, or in it. -/
theorem torn_served_append {served : ServedFrame} {more : List UInt8}
    (h : Torn debug (served.bytes crates ++ more)) :
    served.contentLength crates ≤ maxSseFrameBytes ∧
      (maxSseFrameBytes ≤ served.contentLength crates ∨ Torn debug more) := by
  have hend := frameEnd_served crates served more
  cases h with
  | here hfind hfits hfar =>
    cases hend.symm.trans hfind
    exact ⟨hfits, .inl (by omega)⟩
  | later hfind hfits _ hlater =>
    cases hend.symm.trans hfind
    rw [drop_served] at hlater
    exact ⟨hfits, .inr hlater⟩

/-- The beginning of a frame has no terminator. -/
theorem frameEnd_beginning {served : ServedFrame} {tail : List UInt8}
    (hfront : tail <+: served.bytes crates) (hne : tail ≠ served.bytes crates) :
    frameEnd tail = none := by
  obtain ⟨more, hmore⟩ := hfront
  cases hend : frameEnd tail with
  | none => rfl
  | some ends =>
    have hwhole := frameEnd_append more hend
    rw [hmore, ← List.append_nil (served.bytes crates), frameEnd_served] at hwhole
    cases hwhole
    have hle := (frameEnd_bounds hend).2.2
    have hlength := congrArg List.length hmore
    rw [List.length_append, length_bytes] at hlength
    have hnil : more = [] := List.eq_nil_of_length_eq_zero (by omega)
    rw [hnil, List.append_nil] at hmore
    exact absurd hmore hne

variable (crates) in
/-- Bytes that are some of the frames and the beginning of the next. -/
structure Arrived (frames : List ServedFrame) (bytes : List UInt8) (complete : List ServedFrame)
    (tail : List UInt8) : Prop where
  bytes_eq : bytes = complete.flatMap (·.bytes crates) ++ tail
  isPrefix : complete <+: frames
  beginning : ∀ served ∈ (frames.drop complete.length).head?,
    tail <+: served.bytes crates ∧ tail ≠ served.bytes crates
  finished : frames.drop complete.length = [] → tail = []

theorem exists_arrived {frames : List ServedFrame} {bytes : List UInt8}
    (h : bytes <+: frames.flatMap (·.bytes crates)) :
    ∃ complete tail, Arrived crates frames bytes complete tail := by
  induction frames generalizing bytes with
  | nil =>
    exact ⟨[], bytes, rfl, List.nil_prefix, by simp, fun _ => List.prefix_nil.mp h⟩
  | cons served rest ih =>
    rw [List.flatMap_cons] at h
    by_cases hwhole : served.bytes crates <+: bytes
    · obtain ⟨more, rfl⟩ := hwhole
      obtain ⟨complete, tail, harrived⟩ := ih (List.prefix_append_right_inj _ |>.mp h)
      refine ⟨served :: complete, tail, ?_, ?_, harrived.beginning, harrived.finished⟩
      · rw [harrived.bytes_eq, List.flatMap_cons, List.append_assoc]
      · exact List.cons_prefix_cons.mpr ⟨rfl, harrived.isPrefix⟩
    · refine ⟨[], bytes, rfl, List.nil_prefix, ?_, fun hnil => (nomatch hnil)⟩
      rintro _ ⟨⟩
      refine ⟨?_, ?_⟩
      · rcases List.prefix_or_prefix_of_prefix h (List.prefix_append _ _) with hfront | hfront
        · exact hfront
        · exact absurd hfront hwhole
      · rintro rfl
        exact hwhole (List.prefix_refl _)

/-- Of a whole body every frame arrives. -/
theorem Arrived.all {frames complete : List ServedFrame} {tail : List UInt8}
    (h : Arrived crates frames (frames.flatMap (·.bytes crates)) complete tail) :
    complete = frames ∧ tail = [] := by
  obtain ⟨rest, rfl⟩ := h.isPrefix
  have htail : rest.flatMap (·.bytes crates) = tail := by
    have hbytes := h.bytes_eq
    rwa [List.flatMap_append, List.append_cancel_left_eq] at hbytes
  have hnext := h.beginning
  rw [List.drop_left] at hnext
  cases rest with
  | nil => exact ⟨(List.append_nil _).symm, htail.symm⟩
  | cons served rest =>
    obtain ⟨hfront, hne⟩ := hnext served rfl
    rw [← htail, List.flatMap_cons] at hfront hne
    exact absurd (hfront.eq_of_length_le (List.prefix_append _ _).length_le) hne

theorem torn_flatMap {frames : List ServedFrame} {more : List UInt8}
    (hshort : ∀ served ∈ frames, (served.bytes crates).length ≤ maxSseFrameBytes + 1)
    (h : Torn debug (frames.flatMap (·.bytes crates) ++ more)) : Torn debug more := by
  induction frames with
  | nil => exact h
  | cons served rest ih =>
    obtain ⟨hserved, hrest⟩ := List.forall_mem_cons.mp hshort
    rw [length_bytes] at hserved
    rw [List.flatMap_cons, List.append_assoc] at h
    rcases (torn_served_append h).2 with hlong | hlater
    · omega
    · exact ih hrest hlater

/-- The frames in front are decoded, and decoding goes on behind them. -/
theorem drain_flatMap {frames : List ServedFrame} {more : List UInt8}
    (hshort : ∀ served ∈ frames, (served.bytes crates).length ≤ maxSseFrameBytes + 1) :
    frameSearch.drain maxSseFrameBytes sizeLimitExceeded (parseSseFrame debug)
        (frames.flatMap (·.bytes crates) ++ more) =
      ⟨frames.map (·.raw crates) ++ (frameSearch.drain maxSseFrameBytes sizeLimitExceeded
          (parseSseFrame debug) more).frames,
        (frameSearch.drain maxSseFrameBytes sizeLimitExceeded (parseSseFrame debug)
          more).outcome⟩ := by
  induction frames with
  | nil => rfl
  | cons served rest ih =>
    obtain ⟨hserved, hrest⟩ := List.forall_mem_cons.mp hshort
    rw [length_bytes] at hserved
    have hnext := next_served crates debug served (rest.flatMap (·.bytes crates) ++ more)
    rw [if_neg (by omega)] at hnext
    rw [List.flatMap_cons, List.append_assoc, FrameSearch.drain_frame hnext, ih hrest]
    rfl

theorem decode_arrived {frames complete : List ServedFrame} {tail : List UInt8}
    {chunks : List Chunk}
    (hshort : ∀ served ∈ frames, (served.bytes crates).length ≤ maxSseFrameBytes + 1)
    (h : Arrived crates frames (received chunks) complete tail) :
    decodeChunks debug ⟨[]⟩ chunks = ⟨complete.map (·.raw crates), .ok ⟨tail⟩⟩ := by
  have hcomplete : ∀ served ∈ complete,
      (served.bytes crates).length ≤ maxSseFrameBytes + 1 := fun served hserved =>
    hshort served (h.isPrefix.subset hserved)
  obtain ⟨hnone, hlength⟩ : frameEnd tail = none ∧ tail.length ≤ maxSseFrameBytes := by
    cases hrest : frames.drop complete.length with
    | nil =>
      rw [h.finished hrest]
      exact ⟨rfl, Nat.zero_le _⟩
    | cons served rest =>
      obtain ⟨hfront, hne⟩ := h.beginning served (by rw [hrest]; rfl)
      have hserved := hshort served (List.mem_of_mem_drop (hrest ▸ List.mem_cons_self))
      have hle := hfront.length_le
      have hlt : tail.length ≠ (served.bytes crates).length := fun heq =>
        hne (hfront.eq_of_length heq)
      exact ⟨frameEnd_beginning hfront hne, by omega⟩
  have htail : frameSearch.drain maxSseFrameBytes sizeLimitExceeded (parseSseFrame debug) tail =
      ⟨[], .ok tail⟩ := by
    refine FrameSearch.drain_none ?_
    rw [FrameSearch.next_of_none hnone, if_neg (Nat.not_lt.mpr hlength)]
  have htorn : ¬ Torn debug (received chunks) := by
    intro htorn
    rw [h.bytes_eq] at htorn
    cases torn_flatMap hcomplete htorn with
    | here hfind => cases hnone.symm.trans hfind
    | later hfind => cases hnone.symm.trans hfind
  rw [decodeChunks_eq_decodeBody debug htorn, h.bytes_eq, decodeBody, drain_flatMap hcomplete,
    htail]
  simp [Decoded.andThen, ofBuffer]

/-- A frame that is longer than the limit is refused, whatever the chunks. -/
theorem decode_oversized {before behind : List ServedFrame} {served : ServedFrame}
    {chunks : List Chunk}
    (hshort : ∀ served ∈ before, (served.bytes crates).length ≤ maxSseFrameBytes + 1)
    (hlong : maxSseFrameBytes + 2 < (served.bytes crates).length)
    (h : received chunks = (before ++ served :: behind).flatMap (·.bytes crates)) :
    decodeChunks debug ⟨[]⟩ chunks = ⟨before.map (·.raw crates), .error sizeLimitExceeded⟩ := by
  rw [length_bytes] at hlong
  rw [List.flatMap_append, List.flatMap_cons] at h
  have htorn : ¬ Torn debug (received chunks) := by
    intro htorn
    rw [h] at htorn
    have hfits := (torn_served_append (torn_flatMap hshort htorn)).1
    omega
  have hnext := next_served crates debug served (behind.flatMap (·.bytes crates))
  rw [if_pos (by omega)] at hnext
  rw [decodeChunks_eq_decodeBody debug htorn, h, decodeBody, drain_flatMap hshort,
    FrameSearch.drain_error hnext]
  simp [Decoded.andThen]

end Served

/-! ## Torn frames -/

section Refused

/-- What a frame is refused for is not its size. -/
def SizeKept {α : Type} (result : Except FollowError α) : Prop := result ≠ .error sizeLimitExceeded

theorem sizeKept_ok {α : Type} (value : α) : SizeKept (.ok value : Except FollowError α) :=
  fun h => (nomatch h)

theorem sizeKept_bind {α β : Type} {result : Except FollowError α}
    {next : α → Except FollowError β} (h : SizeKept result) (hnext : ∀ value, SizeKept (next value)) :
    SizeKept (result >>= next) := by
  cases result with
  | error error => exact fun heq => h (congrArg Except.error (Except.error.inj heq))
  | ok value => exact hnext value

theorem sizeKept_invalidStream {α : Type} {detail : String}
    (h : detail ≠ "SSE frame exceeds the size limit") :
    SizeKept (invalidStream detail : Except FollowError α) :=
  fun heq => h (congrArg FollowError.detail (Except.error.inj heq))

theorem sizeKept_orInvalid {α : Type} {detail : String} (value : Option α)
    (h : detail ≠ "SSE frame exceeds the size limit") : SizeKept (orInvalid detail value) := by
  cases value with
  | none => exact sizeKept_invalidStream h
  | some value => exact sizeKept_ok value

theorem sizeKept_parseSseId (bytes : List UInt8) : SizeKept (parseSseId bytes) := by
  unfold parseSseId
  refine sizeKept_bind (sizeKept_orInvalid _ (by decide)) fun value => ?_
  split
  · exact sizeKept_invalidStream (by decide)
  · exact sizeKept_orInvalid _ (by decide)

theorem sizeKept_parseIdLine (second : List UInt8) (lines : List (List UInt8)) :
    SizeKept (parseIdLine second lines) := by
  unfold parseIdLine
  split
  · refine sizeKept_bind (sizeKept_parseSseId _) fun id => ?_
    exact sizeKept_bind (sizeKept_orInvalid _ (by decide)) fun _ => sizeKept_ok _
  · exact sizeKept_ok _

theorem sizeKept_parseSseFrame (debug : String → String) (bytes : List UInt8) :
    SizeKept (parseSseFrame debug bytes) := by
  unfold parseSseFrame
  refine sizeKept_bind (sizeKept_orInvalid _ (by decide)) fun eventLine => ?_
  refine sizeKept_bind (sizeKept_orInvalid _ (by decide)) fun name => ?_
  refine sizeKept_bind (sizeKept_orInvalid _ (by decide)) fun eventName => ?_
  refine sizeKept_bind (sizeKept_orInvalid _ fun h => ?_) fun kind => ?_
  · have hfirst := congrArg (fun text => text.toList.head?) h
    rw [String.toList_append] at hfirst
    revert hfirst
    simp
  refine sizeKept_bind (sizeKept_orInvalid _ (by decide)) fun second => ?_
  refine sizeKept_bind (sizeKept_parseIdLine _ _) fun found => ?_
  refine sizeKept_bind (sizeKept_orInvalid _ (by decide)) fun data => ?_
  split
  · exact sizeKept_invalidStream (by decide)
  split
  · exact sizeKept_invalidStream (by decide)
  · exact sizeKept_ok _

end Refused

/-- With a torn frame the chunks do make a difference. -/
theorem exists_decodeChunks_ne {debug : String → String} {bytes : List UInt8}
    (htorn : Torn debug bytes) :
    ∃ chunks others : List Chunk, received chunks = bytes ∧ received others = bytes ∧
      decodeChunks debug ⟨[]⟩ chunks ≠ decodeChunks debug ⟨[]⟩ others := by
  obtain ⟨chunks, others, hchunks, hothers, hlength, hne⟩ :=
    FrameSearch.exists_feed_ne (sizeKept_parseSseFrame debug) htorn
  have hslice (pieces : List (List UInt8)) (hpieces : ∀ piece ∈ pieces, piece ∈ chunks ++ others) :
      ∃ slices : List Chunk, slices.map Chunk.bytes = pieces := by
    refine ⟨pieces.attach.map fun piece => ⟨piece.1, ?_⟩, ?_⟩
    · have hpiece := hlength piece.1 (hpieces piece.1 piece.2)
      refine hpiece.trans ?_
      change maxSseFrameBytes + 4 ≤ isizeMax
      decide
    · rw [List.map_map]
      exact List.attach_map_subtype_val pieces
  obtain ⟨left, hleft⟩ := hslice chunks fun piece hpiece => List.mem_append_left _ hpiece
  obtain ⟨right, hright⟩ := hslice others fun piece hpiece => List.mem_append_right _ hpiece
  refine ⟨left, right, ?_, ?_, fun hsame => hne ?_⟩
  · rw [received, List.flatMap_def, hleft, hchunks]
  · rw [received, List.flatMap_def, hright, hothers]
  · rw [decodeChunks_eq debug (Nat.zero_le _), decodeChunks_eq debug (Nat.zero_le _), hleft,
      hright] at hsame
    exact andThen_ofBuffer_inj hsame

/-! ## Results -/

/-- **Decoding inverts encoding under any chunking.** The frames that have arrived are decoded in
order and the beginning of the next is kept, when every frame ends by one byte behind the limit; a
frame longer than the limit is refused. What is decoded of any body without a torn frame does not
depend on its chunks. -/
theorem sse_decoding (crates : Crates) (debug : String → String) :
    (∀ (frames : List ServedFrame) (chunks : List Chunk),
      (∀ served ∈ frames, (served.bytes crates).length ≤ maxSseFrameBytes + 1) →
      received chunks <+: frames.flatMap (·.bytes crates) →
      ∃ complete tail, Arrived crates frames (received chunks) complete tail ∧
        decodeChunks debug ⟨[]⟩ chunks = ⟨complete.map (·.raw crates), .ok ⟨tail⟩⟩) ∧
    (∀ (before behind : List ServedFrame) (served : ServedFrame) (chunks : List Chunk),
      (∀ served ∈ before, (served.bytes crates).length ≤ maxSseFrameBytes + 1) →
      maxSseFrameBytes + 2 < (served.bytes crates).length →
      received chunks = (before ++ served :: behind).flatMap (·.bytes crates) →
      decodeChunks debug ⟨[]⟩ chunks = ⟨before.map (·.raw crates), .error sizeLimitExceeded⟩) ∧
    ∀ chunks others : List Chunk, received chunks = received others →
      ¬ Torn debug (received chunks) →
      decodeChunks debug ⟨[]⟩ chunks = decodeChunks debug ⟨[]⟩ others := by
  refine ⟨fun frames chunks hshort hfront => ?_,
    fun before behind served chunks hshort hlong h => decode_oversized hshort hlong h,
    fun chunks others hsame htorn => ?_⟩
  · obtain ⟨complete, tail, harrived⟩ := exists_arrived hfront
    exact ⟨complete, tail, harrived, decode_arrived hshort harrived⟩
  · rw [decodeChunks_eq_decodeBody debug htorn, hsame,
      decodeChunks_eq_decodeBody debug (hsame ▸ htorn)]

/-- A heartbeat. -/
def beat : ServedFrame :=
  .control .heartbeat (by decide) [("committed_watermark", .nat 1)]

/-- The event behind it. -/
def beaten : ServedFrame :=
  .event (.instantOccurred ⟨.at 1 10 [] SchemaU64.one_pos, .cueAdmitted, none⟩)

theorem beaten_within : ∀ served ∈ [beat, beaten],
    (served.bytes plainCrates).length ≤ maxSseFrameBytes := by
  decide +kernel

/-- Cut inside of the terminator of the heartbeat, both frames are decoded. -/
theorem sse_decoding_cut : ∃ chunks : List Chunk,
    chunks.map Chunk.bytes =
      [(beat.bytes plainCrates).dropLast, 10 :: beaten.bytes plainCrates] ∧
    decodeChunks id ⟨[]⟩ chunks =
      ⟨[beat.raw plainCrates, beaten.raw plainCrates], .ok ⟨[]⟩⟩ := by
  have hbeat := beaten_within beat (by simp)
  have hbeaten := beaten_within beaten (by simp)
  have hlimit : maxSseFrameBytes < isizeMax := by decide
  let chunks : List Chunk :=
    [⟨(beat.bytes plainCrates).dropLast, by rw [List.length_dropLast]; omega⟩,
      ⟨10 :: beaten.bytes plainCrates, by rw [List.length_cons]; omega⟩]
  have hreceived : received chunks = [beat, beaten].flatMap (·.bytes plainCrates) := by
    simp [received, chunks, beat.bytes_eq]
  obtain ⟨complete, tail, harrived, hdecoded⟩ :=
    (sse_decoding plainCrates id).1 [beat, beaten] chunks
      (fun served hserved => Nat.le_succ_of_le (beaten_within served hserved)) (hreceived.symm ▸ List.prefix_refl _)
  rw [hreceived] at harrived
  obtain ⟨rfl, rfl⟩ := harrived.all
  exact ⟨chunks, rfl, hdecoded⟩

/-- The bytes of a heartbeat. -/
def heartbeatBytes (data : List UInt8) : List UInt8 :=
  [10].intercalate [utf8 "event: heartbeat", utf8 "data: " ++ data] ++ [10, 10]

theorem frameEnd_heartbeat {data : List UInt8} (h : Plain data) :
    frameEnd (heartbeatBytes data) = some (23 + data.length, 25 + data.length) := by
  have hevent : Plain (utf8 "event: heartbeat") := by
    unfold Plain
    decide +kernel
  have hfield : Plain (utf8 "data: ") := by
    unfold Plain
    decide +kernel
  have hplain : ∀ line ∈ [utf8 "event: heartbeat", utf8 "data: " ++ data],
      Plain line ∧ line ≠ [] := by
    rw [List.forall_mem_cons, List.forall_mem_singleton]
    exact ⟨⟨hevent, by decide +kernel⟩, ServedFrame.plain_append hfield h,
      List.append_ne_nil_of_left_ne_nil (by decide +kernel) _⟩
  have hname : (utf8 "event: heartbeat").length = 16 := by decide +kernel
  have hfieldLength : (utf8 "data: ").length = 6 := by decide +kernel
  have hlength : ([10].intercalate [utf8 "event: heartbeat", utf8 "data: " ++ data]).length =
      23 + data.length := by
    simp only [List.intercalate, List.intersperse, List.flatten_cons, List.flatten_nil,
      List.length_append, List.length_cons, List.length_nil, hname, hfieldLength]
    omega
  have hend := frameEnd_lines hplain (List.cons_ne_nil _ _) []
  rw [hlength, List.append_nil] at hend
  rw [heartbeatBytes, hend]
  congr 2
  omega

theorem torn_heartbeat {debug : String → String} {data : List UInt8} (h : Plain data)
    (hlength : 23 + data.length = maxSseFrameBytes) : Torn debug (heartbeatBytes data) :=
  torn_of_frameEnd (frameEnd_heartbeat h) hlength.le (by omega)

theorem decode_long_heartbeat {debug : String → String} {data : List UInt8} {chunks : List Chunk}
    (h : Plain data) (hlong : maxSseFrameBytes < 23 + data.length)
    (hchunks : received chunks = heartbeatBytes data) :
    decodeChunks debug ⟨[]⟩ chunks = ⟨[], .error sizeLimitExceeded⟩ := by
  have hend := frameEnd_heartbeat h
  have htorn : ¬ Torn debug (received chunks) := by
    rw [hchunks]
    rintro (⟨hfind, hfits, -⟩ | ⟨hfind, hfits, -, -⟩) <;>
      cases hend.symm.trans hfind <;> omega
  have hnext : frameSearch.next maxSseFrameBytes sizeLimitExceeded (parseSseFrame debug)
      (heartbeatBytes data) = .error sizeLimitExceeded := by
    rw [FrameSearch.next_of_some hend]
    exact if_pos hlong
  rw [decodeChunks_eq_decodeBody debug htorn, hchunks, decodeBody, FrameSearch.drain_error hnext]
  rfl

/-- Data of no meaning. -/
def filling (length : Nat) : List UInt8 := List.replicate length 97

theorem plain_filling (length : Nat) : Plain (filling length) := by
  intro byte hbyte
  rw [List.eq_of_mem_replicate hbyte]
  decide

theorem length_filling (length : Nat) : (filling length).length = length := List.length_replicate

/-- A frame longer than the limit is refused, whatever the chunks; one of the maximum size when it is
cut inside of its terminator. -/
theorem limit_frame_torn :
    (∀ chunks, received chunks = heartbeatBytes (filling (maxSseFrameBytes - 22)) →
      decodeChunks id ⟨[]⟩ chunks = ⟨[], .error sizeLimitExceeded⟩) ∧
    ∃ chunks others : List Chunk,
      received chunks = heartbeatBytes (filling (maxSseFrameBytes - 23)) ∧
        received others = heartbeatBytes (filling (maxSseFrameBytes - 23)) ∧
        decodeChunks id ⟨[]⟩ chunks ≠ decodeChunks id ⟨[]⟩ others := by
  constructor
  · intro chunks hchunks
    refine decode_long_heartbeat (plain_filling _) ?_ hchunks
    rw [length_filling]
    decide
  · refine exists_decodeChunks_ne (torn_heartbeat (plain_filling _) ?_)
    rw [length_filling]
    decide

end Troupe.Cli
