import Troupe.Core.Serialize
import Troupe.Lib.Result

/-! # Server-sent event frames

`frame.rs`: a diagnostic event, or one of the five control messages, as the bytes of one server-sent
event. The control payloads are JSON objects, written out by `Lib.Json`; `serde_json` cannot fail on
them, so the only errors are those of the checks before it. An event's data is the canonical JSON
that was stored for it.

`decode_control_payload` and the response headers are the client's side and the HTTP layer's. -/

namespace Troupe.Server

open Troupe.Lib Troupe.Core

/-! ## Texts -/

/-- `CONTROL_SCHEMA_VERSION`. -/
def controlSchemaVersion : Nat := 1

/-- `BUFFER_OVERFLOW_REASON`. -/
def bufferOverflowReason : String := "subscriber_buffer_overflow"
/-- `CURSOR_UNAVAILABLE_REASON`. -/
def cursorUnavailableReason : String := "cursor_unavailable"
/-- `CURSOR_INCONSISTENT_REASON`. -/
def cursorInconsistentReason : String := "cursor_inconsistent"

/-! ## Frames -/

/-- `CommittedEvent`: a stored event with its canonical JSON. -/
structure CommittedEvent where
  event : DiagnosticEvent
  canonicalJson : List UInt8

namespace CommittedEvent

/-- The run the event belongs to. -/
def runId (event : CommittedEvent) : CanonicalUuid := event.event.header.runId

/-- The event's sequence. -/
def sequence (event : CommittedEvent) : SchemaU64 := event.event.header.sequence

end CommittedEvent

/-- `SseFrameKind`. -/
inductive SseFrameKind where
  | diagnosticEvent
  | streamReady
  | heartbeat
  | deliveryGap
  | resyncRequired
  | streamClosed
deriving DecidableEq

/-- `SseFrameKind::event_name`. -/
def SseFrameKind.eventName : SseFrameKind → String
  | .diagnosticEvent => "diagnostic_event"
  | .streamReady => "stream_ready"
  | .heartbeat => "heartbeat"
  | .deliveryGap => "delivery_gap"
  | .resyncRequired => "resync_required"
  | .streamClosed => "stream_closed"

/-- `encode_frame`. -/
def encodeFrame (eventName : String) (id : Option SchemaU64) (data : List UInt8) : List UInt8 :=
  utf8 "event: " ++ utf8 eventName ++ utf8 "\n" ++
    (match id with
      | some id => utf8 "id: " ++ utf8 id.get.repr ++ utf8 "\n"
      | none => []) ++
    utf8 "data: " ++ data ++ utf8 "\n\n"

/-- `SseFrame`. -/
structure SseFrame where
  kind : SseFrameKind
  id : Option SchemaU64
  bytes : List UInt8
deriving DecidableEq

/-- `FrameError`, without the errors of `serde_json`. -/
inductive FrameError where
  | invalidControl (message : String)
deriving DecidableEq

/-- `validate_reason`. -/
def validateReason (reason : String) : Except FrameError Unit :=
  if reason.isEmpty then .error (.invalidControl "control reason must be nonempty") else .ok ()

/-- `control_frame`. -/
def controlFrame (kind : SseFrameKind) (payload : List (String × Json)) : SseFrame :=
  ⟨kind, none, encodeFrame kind.eventName none (Json.object (JsonFields.ofList payload)).toVec⟩

namespace SseFrame

/-- `SseFrame::byte_len`. -/
def byteLen (frame : SseFrame) : Nat := frame.bytes.length

/-- `SseFrame::diagnostic_event`. -/
def diagnosticEvent (event : CommittedEvent) : SseFrame :=
  { kind := .diagnosticEvent
    id := some event.sequence
    bytes := encodeFrame SseFrameKind.diagnosticEvent.eventName (some event.sequence)
      event.canonicalJson }

/-- `SseFrame::stream_ready`. -/
def streamReady (runId : CanonicalUuid) (resumeAfter replayThrough : SchemaU64) :
    Except FrameError SseFrame :=
  if replayThrough < resumeAfter then
    .error (.invalidControl "resume cursor is ahead of replay watermark")
  else
    .ok (controlFrame .streamReady
      [("control_schema_version", .nat controlSchemaVersion),
       ("run_id", .string (displayUuid runId)),
       ("resume_after", serializeU64 resumeAfter),
       ("replay_through", serializeU64 replayThrough)])

/-- `SseFrame::heartbeat`. -/
def heartbeat (runId : CanonicalUuid) (committedWatermark : SchemaU64) : SseFrame :=
  controlFrame .heartbeat
    [("control_schema_version", .nat controlSchemaVersion),
     ("run_id", .string (displayUuid runId)),
     ("committed_watermark", serializeU64 committedWatermark)]

/-- `SseFrame::delivery_gap`. -/
def deliveryGap (runId : CanonicalUuid) (reason : String)
    (lastDeliveredSequence committedWatermark : SchemaU64) : Except FrameError SseFrame := do
  validateReason reason
  if committedWatermark < lastDeliveredSequence then
    .error (.invalidControl "last delivered sequence exceeds committed watermark")
  else
    .ok (controlFrame .deliveryGap
      [("control_schema_version", .nat controlSchemaVersion),
       ("run_id", .string (displayUuid runId)),
       ("reason", .string reason),
       ("last_delivered_sequence", serializeU64 lastDeliveredSequence),
       ("committed_watermark", serializeU64 committedWatermark)])

/-- `SseFrame::resync_required`. -/
def resyncRequired (runId : CanonicalUuid) (reason : String) (committedWatermark : SchemaU64)
    (earliestAvailableSequence : Option SchemaU64) : Except FrameError SseFrame := do
  validateReason reason
  if earliestAvailableSequence.any
      (fun earliest => earliest.get == 0 || committedWatermark.get < earliest.get) then
    .error (.invalidControl "earliest available sequence is outside retained history")
  else
    .ok (controlFrame .resyncRequired
      [("control_schema_version", .nat controlSchemaVersion),
       ("run_id", .string (displayUuid runId)),
       ("reason", .string reason),
       ("committed_watermark", serializeU64 committedWatermark),
       ("earliest_available_sequence",
         match earliestAvailableSequence with
         | some earliest => serializeU64 earliest
         | none => .null)])

/-- `SseFrame::stream_closed`. -/
def streamClosed (runId : CanonicalUuid) (reason : String) (committedWatermark : SchemaU64) :
    Except FrameError SseFrame := do
  validateReason reason
  .ok (controlFrame .streamClosed
    [("control_schema_version", .nat controlSchemaVersion),
     ("run_id", .string (displayUuid runId)),
     ("reason", .string reason),
     ("committed_watermark", serializeU64 committedWatermark)])

/-! ## What a frame is -/

variable {runId : CanonicalUuid} {reason : String} {frame : SseFrame}

/-- A terminal control frame: nothing follows it. -/
def IsTerminal (frame : SseFrame) : Prop :=
  frame.kind = .deliveryGap ∨ frame.kind = .resyncRequired ∨ frame.kind = .streamClosed

theorem streamReady_kind {resumeAfter replayThrough : SchemaU64}
    (h : streamReady runId resumeAfter replayThrough = .ok frame) :
    frame.kind = .streamReady ∧ frame.id = none := by
  unfold streamReady at h
  rw [ite_error_eq_ok] at h
  obtain ⟨-, hframe⟩ := h
  cases hframe
  exact ⟨rfl, rfl⟩

theorem deliveryGap_eq_ok {last watermark : SchemaU64} :
    deliveryGap runId reason last watermark = .ok frame ↔
      ¬reason.isEmpty ∧ last ≤ watermark ∧
        frame = controlFrame .deliveryGap
          [("control_schema_version", .nat controlSchemaVersion),
           ("run_id", .string (displayUuid runId)),
           ("reason", .string reason),
           ("last_delivered_sequence", serializeU64 last),
           ("committed_watermark", serializeU64 watermark)] := by
  unfold deliveryGap validateReason
  rw [bind_eq_ok]
  simp only [ite_error_eq_ok, Except.ok.injEq, SchemaU64.lt_def, SchemaU64.le_def, not_lt]
  constructor
  · rintro ⟨⟨⟩, ⟨hreason, -⟩, hle, hframe⟩
    exact ⟨hreason, hle, hframe.symm⟩
  · rintro ⟨hreason, hle, hframe⟩
    exact ⟨(), ⟨hreason, trivial⟩, hle, hframe.symm⟩

theorem resyncRequired_kind {watermark : SchemaU64} {earliest : Option SchemaU64}
    (h : resyncRequired runId reason watermark earliest = .ok frame) :
    frame.kind = .resyncRequired ∧ frame.id = none := by
  unfold resyncRequired at h
  rw [bind_eq_ok] at h
  obtain ⟨⟨⟩, -, h⟩ := h
  rw [ite_error_eq_ok] at h
  obtain ⟨-, hframe⟩ := h
  cases hframe
  exact ⟨rfl, rfl⟩

theorem streamClosed_kind {watermark : SchemaU64}
    (h : streamClosed runId reason watermark = .ok frame) :
    frame.kind = .streamClosed ∧ frame.id = none := by
  unfold streamClosed at h
  rw [bind_eq_ok] at h
  obtain ⟨⟨⟩, -, hframe⟩ := h
  cases hframe
  exact ⟨rfl, rfl⟩

/-- The bytes of a delivery gap say what was delivered. -/
theorem deliveryGap_last_injective {runId' : CanonicalUuid} {reason' : String}
    {last last' watermark watermark' : SchemaU64}
    (h : deliveryGap runId reason last watermark = .ok frame)
    (h' : deliveryGap runId' reason' last' watermark' = .ok frame) : last = last' := by
  rw [deliveryGap_eq_ok] at h h'
  obtain ⟨-, -, rfl⟩ := h
  obtain ⟨-, -, hsame⟩ := h'
  have hbytes := congrArg bytes hsame
  unfold controlFrame encodeFrame at hbytes
  have hdata := Json.toVec_injective (List.append_cancel_left (List.append_cancel_right hbytes))
  simp only [JsonFields.ofList, Json.object.injEq, JsonFields.cons.injEq, true_and, and_true]
    at hdata
  exact serializeU64_injective hdata.2.2.1

end SseFrame

end Troupe.Server
