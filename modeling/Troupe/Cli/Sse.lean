import Mathlib.Data.List.Basic
import Troupe.Cli.Follow
import Troupe.Lib.Framing
import Troupe.Lib.Number

/-! # The decoder of the follow client

`SseEnvelopeDecoder` of `events_follow.rs`: the frames of a response body that arrives in chunks.

* A chunk is a slice, so at most `isize::MAX` bytes long.
* `nextFrame` leaves the decoder as the code does, also when the frame it has taken off is refused.
* `decodeChunks` is what `consume_connection` does with the body: it pushes a chunk and then asks for
  frames until there is none. The first error ends the connection.
* How `{:?}` shows a name is the parameter `debug`. -/

namespace Troupe.Cli

open Troupe.Lib Troupe.Core Troupe.Server

/-- `MAX_SSE_FRAME_BYTES`. -/
def maxSseFrameBytes : Nat := 64 * 1024 * 1024

/-- `isize::MAX`. -/
def isizeMax : Nat := 2 ^ 63 - 1

/-- `FollowError`. -/
structure FollowError where
  code : FollowErrorCode
  detail : String
deriving DecidableEq

/-- `invalid_stream`. -/
def invalidStream {α : Type} (detail : String) : Except FollowError α :=
  .error ⟨.invalidStream, detail⟩

/-- A value there is, or an invalid stream. -/
def orInvalid {α : Type} (detail : String) : Option α → Except FollowError α
  | some value => .ok value
  | none => invalidStream detail

/-! ## One frame -/

/-- `SseFrameKind::from_event_name`. -/
def fromEventName (eventName : String) : Option SseFrameKind :=
  if eventName = "diagnostic_event" then some .diagnosticEvent
  else if eventName = "stream_ready" then some .streamReady
  else if eventName = "heartbeat" then some .heartbeat
  else if eventName = "delivery_gap" then some .deliveryGap
  else if eventName = "resync_required" then some .resyncRequired
  else if eventName = "stream_closed" then some .streamClosed
  else none

/-- `RawSseFrame`. -/
structure RawSseFrame where
  kind : SseFrameKind
  id : Option SchemaU64
  data : List UInt8
deriving DecidableEq

/-- `slice::strip_prefix`. -/
def stripPrefix (front bytes : List UInt8) : Option (List UInt8) :=
  if front <+: bytes then some (bytes.drop front.length) else none

/-- `strip_carriage_return`. -/
def stripCarriageReturn (line : List UInt8) : List UInt8 :=
  if line.getLast? = some 13 then line.dropLast else line

/-- `std::str::from_utf8`. -/
def strFromUtf8 (bytes : List UInt8) : Option String := String.fromUTF8? ⟨bytes.toArray⟩

/-- The digits behind a plus sign. -/
def withoutPlus : List Char → List Char
  | '+' :: digits => digits
  | digits => digits

/-- `str::parse::<u64>`. -/
def parseU64 (text : String) : Option SchemaU64 :=
  let digits := withoutPlus text.toList
  if digits ≠ [] ∧ digits.all Char.isDigit then
    if h : Lib.digitsValue digits ≤ u64Max then some ⟨Lib.digitsValue digits, h⟩ else none
  else none

/-- `parse_sse_id`. -/
def parseSseId (bytes : List UInt8) : Except FollowError SchemaU64 := do
  let value ← orInvalid "non-UTF-8 SSE ID" (strFromUtf8 bytes)
  if value.isEmpty ∨ 1 < value.utf8ByteSize ∧ value.toList.head? = some '0' then
    invalidStream "SSE ID is not a canonical decimal u64"
  else orInvalid "SSE ID is not a canonical decimal u64" (parseU64 value)

/-- The ID of `parse_sse_frame`, the line after it and the lines behind that. -/
def parseIdLine (second : List UInt8) (lines : List (List UInt8)) :
    Except FollowError (Option SchemaU64 × List UInt8 × List (List UInt8)) :=
  match stripPrefix (utf8 "id: ") second with
  | some id => do
    let id ← parseSseId id
    let (data, lines) ← orInvalid "SSE frame is missing its data field"
      (lines.head?.map (·, lines.tail))
    return (some id, data, lines)
  | none => .ok (none, second, lines)

/-- `parse_sse_frame`. -/
def parseSseFrame (debug : String → String) (bytes : List UInt8) :
    Except FollowError RawSseFrame := do
  let lines := (bytes.splitOn 10).map stripCarriageReturn
  let eventLine ← orInvalid "empty SSE frame" lines.head?
  let eventName ← orInvalid "SSE frame must begin with an event field"
    (stripPrefix (utf8 "event: ") eventLine)
  let eventName ← orInvalid "non-UTF-8 SSE event name" (strFromUtf8 eventName)
  let kind ← orInvalid ("unknown SSE event name " ++ debug eventName) (fromEventName eventName)
  let second ← orInvalid "SSE frame is missing its data field" lines.tail.head?
  let (id, dataLine, lines) ← parseIdLine second lines.tail.tail
  let data ← orInvalid "SSE frame has an invalid data field"
    (stripPrefix (utf8 "data: ") dataLine)
  if lines ≠ [] then invalidStream "SSE frame contains unsupported extra fields"
  else if (kind == .diagnosticEvent) ≠ id.isSome then
    invalidStream "only diagnostic events may carry an SSE ID"
  else return ⟨kind, id, data⟩

/-! ## The decoder -/

/-- `windows(n).position`: where a pattern stands first. -/
def windowPosition (pattern : List UInt8) : List UInt8 → Option Nat
  | [] => none
  | byte :: rest =>
    if pattern <+: byte :: rest then some 0 else (windowPosition pattern rest).map (· + 1)

/-- `find_frame_end`. -/
def findFrameEnd (bytes : List UInt8) : Option (Nat × Nat) :=
  let lf := (windowPosition [10, 10] bytes).map fun index => (index, index + 2)
  let crlf := (windowPosition [13, 10, 13, 10] bytes).map fun index => (index, index + 4)
  match lf, crlf with
  | some left, some right => some (if left.1 ≤ right.1 then left else right)
  | some found, none => some found
  | none, some found => some found
  | none, none => none

/-- A slice of bytes. -/
structure Chunk where
  bytes : List UInt8
  length_le : bytes.length ≤ isizeMax

/-- `SseEnvelopeDecoder`. -/
structure SseEnvelopeDecoder where
  buffer : List UInt8
deriving DecidableEq

namespace SseEnvelopeDecoder

/-- `SseEnvelopeDecoder::push`. -/
def push (decoder : SseEnvelopeDecoder) (chunk : Chunk) : Except FollowError SseEnvelopeDecoder := do
  let _ ← orInvalid "SSE frame length overflowed"
    (checkedAdd usizeMax decoder.buffer.length chunk.bytes.length)
  let buffer := decoder.buffer ++ chunk.bytes
  if findFrameEnd buffer = none ∧ maxSseFrameBytes < buffer.length then
    invalidStream "SSE frame exceeds the size limit"
  else return ⟨buffer⟩

/-- `SseEnvelopeDecoder::next_frame`. -/
def nextFrame (debug : String → String) (decoder : SseEnvelopeDecoder) :
    Except FollowError (Option RawSseFrame) × SseEnvelopeDecoder :=
  match findFrameEnd decoder.buffer with
  | none =>
    if maxSseFrameBytes < decoder.buffer.length then
      (invalidStream "SSE frame exceeds the size limit", decoder)
    else (.ok none, decoder)
  | some (contentEnd, framedEnd) =>
    if maxSseFrameBytes < contentEnd then
      (invalidStream "SSE frame exceeds the size limit", decoder)
    else
      let tail := decoder.buffer.drop framedEnd
      let frame := (decoder.buffer.take framedEnd).take contentEnd
      ((parseSseFrame debug frame).map some, ⟨tail⟩)

end SseEnvelopeDecoder

/-! ## Terminators -/

/-- The first terminator of the bytes, looked for at one position after the other. -/
def frameEnd : List UInt8 → Option (Nat × Nat)
  | [] => none
  | byte :: rest =>
    if [10, 10] <+: byte :: rest then some (0, 2)
    else if [13, 10, 13, 10] <+: byte :: rest then some (0, 4)
    else (frameEnd rest).map fun ends => (ends.1 + 1, ends.2 + 1)

/-- **The earlier of the two first terminators is the first of all.** -/
theorem findFrameEnd_eq (bytes : List UInt8) : findFrameEnd bytes = frameEnd bytes := by
  induction bytes with
  | nil => rfl
  | cons byte rest ih =>
    unfold findFrameEnd at ih ⊢
    rw [frameEnd, ← ih, windowPosition, windowPosition]
    dsimp only
    by_cases hlf : [10, 10] <+: byte :: rest
    · rw [if_pos hlf, if_pos hlf]
      generalize (if [13, 10, 13, 10] <+: byte :: rest then some 0
        else (windowPosition [13, 10, 13, 10] rest).map (· + 1)) = crlf
      cases crlf <;> simp
    rw [if_neg hlf, if_neg hlf]
    by_cases hcrlf : [13, 10, 13, 10] <+: byte :: rest
    · rw [if_pos hcrlf, if_pos hcrlf]
      cases windowPosition [10, 10] rest <;> simp
    rw [if_neg hcrlf, if_neg hcrlf]
    cases windowPosition [10, 10] rest <;> cases windowPosition [13, 10, 13, 10] rest <;> simp
    split <;> simp

theorem frameEnd_bounds {bytes : List UInt8} {content framed : Nat}
    (h : frameEnd bytes = some (content, framed)) :
    content + 2 ≤ framed ∧ framed ≤ content + 4 ∧ framed ≤ bytes.length := by
  induction bytes generalizing content framed with
  | nil => cases h
  | cons byte rest ih =>
    rw [frameEnd] at h
    split at h
    · rename_i hlf
      cases h
      have hle := hlf.length_le
      simp only [List.length_cons, List.length_nil] at hle
      exact ⟨by omega, by omega, hle⟩
    split at h
    · rename_i hcrlf
      cases h
      have hle := hcrlf.length_le
      simp only [List.length_cons, List.length_nil] at hle
      exact ⟨by omega, by omega, hle⟩
    · obtain ⟨ends, hends, heq⟩ := Option.map_eq_some_iff.mp h
      obtain ⟨hlt, hwidth, hle⟩ := ih hends
      cases heq
      rw [List.length_cons]
      omega

/-- A terminator that is there is the first one, whatever follows. -/
theorem frameEnd_append {bytes : List UInt8} {ends : Nat × Nat} (more : List UInt8)
    (h : frameEnd bytes = some ends) : frameEnd (bytes ++ more) = some ends := by
  induction bytes generalizing ends with
  | nil => cases h
  | cons byte rest ih =>
    rw [frameEnd] at h
    rw [List.cons_append, frameEnd]
    by_cases hlf : [10, 10] <+: byte :: rest
    · rw [if_pos hlf] at h
      have hfront : [10, 10] <+: byte :: (rest ++ more) :=
        hlf.trans (List.prefix_append (byte :: rest) more)
      rw [if_pos hfront]
      exact h
    rw [if_neg hlf] at h
    by_cases hcrlf : [13, 10, 13, 10] <+: byte :: rest
    · rw [if_pos hcrlf] at h
      have hfront : [13, 10, 13, 10] <+: byte :: (rest ++ more) :=
        hcrlf.trans (List.prefix_append (byte :: rest) more)
      have hother : ¬ [10, 10] <+: byte :: (rest ++ more) := by
        intro hlf'
        have hbyte := (List.cons_prefix_cons.mp hfront).1
        rw [← hbyte] at hlf'
        exact absurd (List.cons_prefix_cons.mp hlf').1 (by decide)
      rw [if_neg hother, if_pos hfront]
      exact h
    rw [if_neg hcrlf] at h
    obtain ⟨found, hfound, heq⟩ := Option.map_eq_some_iff.mp h
    have hbounds := frameEnd_bounds hfound
    -- the rest has a terminator, so one that starts here would be seen in full
    rcases rest with _ | ⟨b, _ | ⟨c, others⟩⟩
    · simp only [List.length_nil] at hbounds
      omega
    · simp only [List.length_cons, List.length_nil] at hbounds
      omega
    have hnotLf : ¬ [10, 10] <+: byte :: (b :: c :: others ++ more) := by simpa using hlf
    have hnotCrlf : ¬ [13, 10, 13, 10] <+: byte :: (b :: c :: others ++ more) := by
      cases others with
      | nil =>
        intro hcrlf'
        obtain ⟨-, hsecond⟩ := List.cons_prefix_cons.mp hcrlf'
        obtain ⟨rfl, hthird⟩ := List.cons_prefix_cons.mp hsecond
        obtain ⟨rfl, -⟩ := List.cons_prefix_cons.mp hthird
        exact absurd hfound (by rw [show frameEnd [10, 13] = none by decide]; simp)
      | cons d others => simpa using hcrlf
    rw [if_neg hnotLf, if_neg hnotCrlf, ih hfound]
    exact congrArg some heq

/-- A terminator that ends inside the front is found there. -/
theorem frameEnd_of_append {bytes more : List UInt8} {content framed : Nat}
    (h : frameEnd (bytes ++ more) = some (content, framed)) (hle : framed ≤ bytes.length) :
    frameEnd bytes = some (content, framed) := by
  induction bytes generalizing content framed with
  | nil =>
    have hbounds := frameEnd_bounds h
    rw [List.length_nil] at hle
    omega
  | cons byte rest ih =>
    have hshort {pattern : List UInt8} (hfront : pattern <+: byte :: rest ++ more)
        (hfits : pattern.length ≤ (byte :: rest).length) : pattern <+: byte :: rest :=
      List.prefix_of_prefix_length_le hfront (List.prefix_append _ _) hfits
    rw [List.cons_append, frameEnd] at h
    rw [frameEnd]
    split at h
    · rename_i hlf
      cases h
      rw [if_pos (hshort hlf hle)]
    · rename_i hlf
      rw [if_neg fun hfront => hlf (hfront.trans (List.prefix_append (byte :: rest) more))]
      split at h
      · rename_i hcrlf
        cases h
        rw [if_pos (hshort hcrlf hle)]
      · rename_i hcrlf
        rw [if_neg fun hfront => hcrlf (hfront.trans (List.prefix_append (byte :: rest) more))]
        obtain ⟨found, hfound, heq⟩ := Option.map_eq_some_iff.mp h
        cases heq
        rw [List.length_cons] at hle
        rw [ih hfound (by omega)]
        rfl

/-- The search for a frame of a body. -/
def frameSearch : FrameSearch UInt8 where
  find := frameEnd
  width := 4
  content_lt h := by
    have hbounds := frameEnd_bounds h
    omega
  framed_le h := (frameEnd_bounds h).2
  append more h := frameEnd_append more h
  of_append h hle := frameEnd_of_append h hle

/-! ## A whole body -/

/-- The error of a frame that is too long. -/
def sizeLimitExceeded : FollowError := ⟨.invalidStream, "SSE frame exceeds the size limit"⟩

section Decoding

variable (debug : String → String)

/-- `next_frame` takes the first frame of its buffer. -/
theorem SseEnvelopeDecoder.nextFrame_eq (decoder : SseEnvelopeDecoder) :
    (∀ error, frameSearch.next maxSseFrameBytes sizeLimitExceeded (parseSseFrame debug)
        decoder.buffer = .error error → (decoder.nextFrame debug).1 = .error error) ∧
    (frameSearch.next maxSseFrameBytes sizeLimitExceeded (parseSseFrame debug)
        decoder.buffer = .ok none → decoder.nextFrame debug = (.ok none, decoder)) ∧
    (∀ frame rest, frameSearch.next maxSseFrameBytes sizeLimitExceeded (parseSseFrame debug)
        decoder.buffer = .ok (some (frame, rest)) →
      decoder.nextFrame debug = (.ok (some frame), ⟨rest⟩)) := by
  unfold SseEnvelopeDecoder.nextFrame
  rw [findFrameEnd_eq]
  cases hfind : frameEnd decoder.buffer with
  | none =>
    rw [FrameSearch.next_of_none hfind]
    dsimp only
    split
    · exact ⟨by rintro _ ⟨⟩; rfl, fun h => (nomatch h), fun _ _ h => (nomatch h)⟩
    · exact ⟨fun _ h => (nomatch h), fun _ => rfl, fun _ _ h => (nomatch h)⟩
  | some ends =>
    obtain ⟨content, framed⟩ := ends
    have hlt : content ≤ framed := by
      have hbounds := frameEnd_bounds hfind
      omega
    rw [FrameSearch.next_of_some hfind]
    dsimp only
    split
    · exact ⟨by rintro _ ⟨⟩; rfl, fun h => (nomatch h), fun _ _ h => (nomatch h)⟩
    · rw [List.take_take, Nat.min_eq_left hlt]
      cases parseSseFrame debug (decoder.buffer.take content) with
      | error error => exact ⟨by rintro _ ⟨⟩; rfl, fun h => (nomatch h), fun _ _ h => (nomatch h)⟩
      | ok frame =>
        refine ⟨fun _ h => (nomatch h), fun h => (nomatch h), ?_⟩
        rintro _ _ ⟨⟩
        rfl

theorem SseEnvelopeDecoder.length_lt_of_nextFrame {decoder next : SseEnvelopeDecoder}
    {frame : RawSseFrame} (h : decoder.nextFrame debug = (.ok (some frame), next)) :
    next.buffer.length < decoder.buffer.length := by
  obtain ⟨herror, hnone, hframe⟩ := decoder.nextFrame_eq debug
  cases hnext : frameSearch.next maxSseFrameBytes sizeLimitExceeded (parseSseFrame debug)
      decoder.buffer with
  | error error =>
    have hfirst := herror error hnext
    rw [h] at hfirst
    cases hfirst
  | ok found =>
    cases found with
    | none =>
      have hboth := hnone hnext
      rw [h] at hboth
      cases hboth
    | some found =>
      have hboth := hframe found.1 found.2 hnext
      rw [h] at hboth
      cases hboth
      exact FrameSearch.length_lt_of_next hnext

/-- `next_frame` until there is none. -/
def SseEnvelopeDecoder.nextFrames (decoder : SseEnvelopeDecoder) :
    Decoded RawSseFrame FollowError SseEnvelopeDecoder :=
  match _h : decoder.nextFrame debug with
  | (.error error, _) => ⟨[], .error error⟩
  | (.ok none, decoder) => ⟨[], .ok decoder⟩
  | (.ok (some frame), next) => (nextFrames next).after frame
termination_by decoder.buffer.length
decreasing_by exact length_lt_of_nextFrame debug _h

/-- Chunk after chunk, as `consume_connection` takes them. -/
def decodeChunks (decoder : SseEnvelopeDecoder) :
    List Chunk → Decoded RawSseFrame FollowError SseEnvelopeDecoder
  | [] => ⟨[], .ok decoder⟩
  | chunk :: chunks =>
    match decoder.push chunk with
    | .error error => ⟨[], .error error⟩
    | .ok decoder =>
      (decoder.nextFrames debug).andThen fun decoder => decodeChunks decoder chunks

end Decoding

end Troupe.Cli
