import Troupe.Lib.Transition
import Troupe.Server.Replay

/-! # The follow client

`events_follow.rs`: `events --follow` queries the committed events once, prints them, and follows
the server's stream from there. A connection that ends without `stream_closed` is made again after
the client's cursor.

* A frame is what the client's decoder yields of the response body, so a body that is cut is a body
  with fewer frames.
* `StreamSends` is what a server's stream may carry next: `stream_ready`, then the committed events
  after the cursor one by one, controls whose watermark is not behind them, and a close only when
  the log has ended and every event of it was sent.
* `FollowStep` is one step of the log, the server or the client. The client's task may be cancelled
  and its output may fail at any step. -/

namespace Troupe.Cli

open Troupe.Lib Troupe.Core Troupe.Server

/-! ## Starting positions -/

/-- `EventStart`. -/
inductive EventStart where
  | tail (count : SchemaU64)
  | after (cursor : SchemaU64)

/-- `is_tail_zero`. -/
def EventStart.isTailZero : EventStart → Bool
  | .tail count => count.get == 0
  | .after _ => false

/-- `FiniteEventQuery::resolve`: the position after which a finite query starts. -/
def EventStart.resolve (start : EventStart) (capturedWatermark : Nat) : Nat :=
  match start with
  | .after cursor => if cursor.get < capturedWatermark then cursor.get else capturedWatermark
  | .tail count => capturedWatermark - count.get

/-- `EventsResponseV1`. -/
structure EventsResponse where
  apiSchemaVersion : Nat
  runId : CanonicalUuid
  capturedWatermark : SchemaU64
  events : List DiagnosticEvent
  nextAfter : Option SchemaU64

/-- `EVENTS_API_SCHEMA_VERSION`. -/
def eventsApiSchemaVersion : Nat := 1

/-- `expected_event_range`. -/
def expectedEventRange (start : EventStart) (watermark : Nat) : Option Nat × Nat :=
  let count := match start with
    | .tail count => min count.get watermark
    | .after cursor => watermark - min cursor.get watermark
  if count = 0 then (none, 0) else (some (watermark - count + 1), count)

/-- `validate_events_response`; which of its errors there is makes no difference to the caller. -/
def validateEventsResponse (response : EventsResponse) (expectedRunId : CanonicalUuid)
    (start : EventStart) : Bool :=
  let watermark := response.capturedWatermark.get
  let (first, expectedCount) := expectedEventRange start watermark
  response.apiSchemaVersion == eventsApiSchemaVersion &&
    response.runId == expectedRunId && response.nextAfter.isNone &&
      response.events.length == expectedCount &&
        response.events.zipIdx.all fun (event, index) =>
          event.header.runId == expectedRunId &&
            some event.header.sequence.get == first.map (· + index) &&
              decide (event.header.sequence.get ≤ watermark)

/-! ## The client -/

/-- `FollowErrorCode`. -/
inductive FollowErrorCode where
  | followRequired
  | resolve
  | archiveUnsupported
  | finite
  | http
  | unexpectedStatus
  | invalidContentType
  | invalidStream
  | runIdentityMismatch
  | sequenceGap
  | resyncRequired
  | output
deriving DecidableEq

/-- `FollowTermination`. -/
inductive FollowTermination where
  | streamClosed
  | interrupted
deriving DecidableEq

/-- `EventCursor`. -/
structure EventCursor where
  runId : CanonicalUuid
  sequence : SchemaU64

/-- `EventCursor::from_event`. -/
def EventCursor.fromEvent (event : DiagnosticEvent) : EventCursor :=
  ⟨event.header.runId, event.header.sequence⟩

/-- `FollowState`. -/
structure FollowState where
  cursor : EventCursor
  adoptConnectionHead : Bool

/-- `ensure_initial_identity`. -/
def ensureInitialIdentity (event : DiagnosticEvent) (runId : CanonicalUuid)
    (previous : Option EventCursor) : Except FollowErrorCode Unit :=
  let current := EventCursor.fromEvent event
  if current.runId ≠ runId then .error .runIdentityMismatch
  else if previous.any fun previous => decide (previous.sequence.get ≥ current.sequence.get) then
    .error .sequenceGap
  else .ok ()

/-- `FollowState::consume_event`: the state after it and the record it writes. -/
def FollowState.consumeEvent (state : FollowState) (event : DiagnosticEvent) :
    Except FollowErrorCode (FollowState × Option DiagnosticEvent) :=
  let identity := EventCursor.fromEvent event
  if identity.runId ≠ state.cursor.runId then .error .runIdentityMismatch
  else if identity.sequence.get ≤ state.cursor.sequence.get then .ok (state, none)
  else
    match checkedAdd u64Max state.cursor.sequence.get 1 with
    | none => .error .sequenceGap
    | some expected =>
      if identity.sequence.get ≠ expected then .error .sequenceGap
      else .ok ({ state with cursor := identity }, some event)

/-- `DecodedSseControl`. -/
inductive DecodedSseControl where
  | streamReady (runId : CanonicalUuid) (resumeAfter replayThrough : SchemaU64)
  | heartbeat (runId : CanonicalUuid) (committedWatermark : SchemaU64)
  | deliveryGap (runId : CanonicalUuid) (reason : String)
      (lastDeliveredSequence committedWatermark : SchemaU64)
  | resyncRequired (runId : CanonicalUuid) (reason : String) (committedWatermark : SchemaU64)
      (earliestAvailableSequence : Option SchemaU64)
  | streamClosed (runId : CanonicalUuid) (reason : String) (committedWatermark : SchemaU64)

/-- `DecodedSseControl::run_id`. -/
def DecodedSseControl.runId : DecodedSseControl → CanonicalUuid
  | .streamReady runId .. => runId
  | .heartbeat runId _ => runId
  | .deliveryGap runId .. => runId
  | .resyncRequired runId .. => runId
  | .streamClosed runId .. => runId

/-- A frame the decoder yields: an event with its SSE id, a control, or what it cannot read. -/
inductive DecodedFrame where
  | event (id : SchemaU64) (event : DiagnosticEvent)
  | control (control : DecodedSseControl)
  | malformed

/-- What a frame leads to. -/
inductive FrameOutcome where
  | proceed (state : FollowState) (ready : Bool) (record : Option DiagnosticEvent)
  | reconnect
  | closed

/-- The control arms of `consume_connection`. -/
def consumeControl (requested : EventCursor) (ready : Bool) (state : FollowState)
    (control : DecodedSseControl) : Except FollowErrorCode FrameOutcome :=
  if control.runId ≠ state.cursor.runId then .error .runIdentityMismatch
  else
    match control with
    | .streamReady _ resumeAfter replayThrough =>
      if ready then .error .invalidStream
      else if resumeAfter ≠ requested.sequence then .error .invalidStream
      else if state.adoptConnectionHead then
        .ok (.proceed
          { cursor := { state.cursor with sequence := replayThrough }
            adoptConnectionHead := false } true none)
      else .ok (.proceed state true none)
    | .heartbeat _ committedWatermark =>
      if !ready then .error .invalidStream
      else if committedWatermark.get < state.cursor.sequence.get then .error .invalidStream
      else .ok (.proceed state ready none)
    | .deliveryGap _ _ _ committedWatermark =>
      if !ready then .error .invalidStream
      else if committedWatermark.get < state.cursor.sequence.get then .error .invalidStream
      else .ok .reconnect
    | .resyncRequired .. => .error .resyncRequired
    | .streamClosed _ _ committedWatermark =>
      if !ready then .error .invalidStream
      else if committedWatermark ≠ state.cursor.sequence then .error .sequenceGap
      else .ok .closed

/-- The body of the loop of `consume_connection`, for one frame. -/
def consumeFrame (requested : EventCursor) (ready : Bool) (state : FollowState) :
    DecodedFrame → Except FollowErrorCode FrameOutcome
  | .event id event =>
    if !ready then .error .invalidStream
    else if id ≠ event.header.sequence then .error .invalidStream
    else (state.consumeEvent event).map fun (state, record) => .proceed state ready record
  | .control control => consumeControl requested ready state control
  | .malformed => .error .invalidStream

/-! ## Requests -/

/-- `HttpClientErrorCode`. -/
inductive HttpClientErrorCode where
  | clientBuild
  | runtimeBuild
  | invalidEndpoint
  | transport
  | unexpectedStatus
  | identityResponseTooLarge
  | invalidIdentity
  | incompatibleIdentity
  | incompatibleProtocol
  | runIdentityMismatch
  | locatorIdentityMismatch
deriving DecidableEq

/-- `is_temporary_identity_failure`. -/
def isTemporaryIdentityFailure (code : HttpClientErrorCode) : Bool := code == .transport

/-- The request of `connect`: the `after` parameter and the `Last-Event-ID` header. -/
structure StreamRequest where
  after : SchemaU64
  lastEventId : Option SchemaU64

/-- The request of `connect`. -/
def streamRequest (cursor : EventCursor) (reconnect : Bool) : StreamRequest where
  after := cursor.sequence
  lastEventId := if reconnect then some cursor.sequence else none

/-- The cursor the server resumes after: the header, where there is one. -/
def StreamRequest.resumeAfter (request : StreamRequest) : SchemaU64 :=
  request.lastEventId.getD request.after

/-- The answer to a stream request: none, or a status and whether the content type is right. -/
inductive StreamReply where
  | failed
  | answered (status : Nat) (eventStream : Bool)

/-- `ConnectResult`, without the interruption. -/
inductive ConnectResult where
  | connected
  | retry

/-- The checks of `connect` on the answer. -/
def connect : StreamReply → Except FollowErrorCode ConnectResult
  | .failed => .ok .retry
  | .answered status eventStream =>
    if 500 ≤ status ∧ status < 600 then .ok .retry
    else if status ≠ 200 then .error .unexpectedStatus
    else if !eventStream then .error .invalidContentType
    else .ok .connected

/-! ## The server's stream -/

/-- What the server has sent on a connection. -/
structure ServerStream where
  resumeAfter : SchemaU64
  /-- `stream_ready` was sent, with this replay watermark. -/
  replayThrough : Option SchemaU64
  /-- The last event sent, or the cursor. -/
  sent : Nat
  /-- A terminal control was sent. -/
  ended : Bool

/-- A stream that has sent nothing. -/
def ServerStream.opened (request : StreamRequest) : ServerStream where
  resumeAfter := request.resumeAfter
  replayThrough := none
  sent := request.resumeAfter.get
  ended := false

section Server

variable {runId : CanonicalUuid}

/-- A watermark a control may carry: nothing sent is ahead of it, and it is committed. -/
structure WatermarkFits (log : CommittedLog runId) (stream : ServerStream) (watermark : Nat) :
    Prop where
  sent : stream.sent ≤ watermark
  replay : ∀ through ∈ stream.replayThrough, through.get ≤ watermark
  committed : watermark ≤ log.events.length

/-- The rules of the stream: what may come next, for a log that may have ended. -/
inductive StreamSends (log : CommittedLog runId) (ended : Bool) :
    ServerStream → DecodedFrame → ServerStream → Prop where
  | ready {stream : ServerStream} {through : SchemaU64} (hnew : stream.replayThrough = none)
      (hgoing : stream.ended = false) (hresume : stream.resumeAfter ≤ through)
      (hcommitted : through.get ≤ log.events.length) :
      StreamSends log ended stream (.control (.streamReady runId stream.resumeAfter through))
        { stream with replayThrough := some through }
  | event {stream : ServerStream} {event : CommittedEvent}
      (hready : stream.replayThrough.isSome = true) (hgoing : stream.ended = false)
      (hnext : log.events[stream.sent]? = some event) :
      StreamSends log ended stream (.event event.sequence event.event)
        { stream with sent := stream.sent + 1 }
  | heartbeat {stream : ServerStream} {watermark : SchemaU64}
      (hready : stream.replayThrough.isSome = true) (hgoing : stream.ended = false)
      (hfits : WatermarkFits log stream watermark.get) :
      StreamSends log ended stream (.control (.heartbeat runId watermark)) stream
  | deliveryGap {stream : ServerStream} {reason : String} {last watermark : SchemaU64}
      (hready : stream.replayThrough.isSome = true) (hgoing : stream.ended = false)
      (hfits : WatermarkFits log stream watermark.get) :
      StreamSends log ended stream (.control (.deliveryGap runId reason last watermark))
        { stream with ended := true }
  | resyncRequired {stream : ServerStream} {reason : String} {watermark : SchemaU64}
      {earliest : Option SchemaU64} (hgoing : stream.ended = false) :
      StreamSends log ended stream (.control (.resyncRequired runId reason watermark earliest))
        { stream with ended := true }
  | streamClosed {stream : ServerStream} (reason : String) {watermark : SchemaU64}
      (hready : stream.replayThrough.isSome = true) (hgoing : stream.ended = false)
      (hover : ended = true) (hsent : stream.sent = log.events.length)
      (hfinal : watermark.get = log.events.length) :
      StreamSends log ended stream (.control (.streamClosed runId reason watermark))
        { stream with ended := true }

end Server

/-! ## Runs -/

/-- Where `execute` and `follow_stream` are. -/
inductive FollowStage where
  /-- Before the answer of the finite query. -/
  | querying
  /-- In the loop over the initial events. -/
  | printing (rest : List DiagnosticEvent) (lastOutput : Option EventCursor)
      (watermark : SchemaU64)
  /-- The head of the loop of `follow_stream`. -/
  | identifying (state : FollowState) (reconnect : Bool)
  | connecting (state : FollowState) (reconnect : Bool)
  | consuming (state : FollowState) (requested : EventCursor) (ready : Bool)
      (stream : ServerStream)
  /-- `reconnect_notice` and `wait_to_reconnect`. -/
  | waiting (state : FollowState)
  | returned (result : Except FollowErrorCode FollowTermination)

/-- What was written, and where it was decided to start. -/
structure Printout where
  written : List DiagnosticEvent
  /-- The watermark the finite query captured. -/
  captured : Option SchemaU64
  /-- The replay watermark of the first connection that was ready. -/
  firstReplay : Option SchemaU64

/-- A record is written. -/
def Printout.write (output : Printout) (record : Option DiagnosticEvent) : Printout :=
  { output with written := output.written ++ record.toList }

/-- The log, the client and its output. -/
structure FollowWorld (runId : CanonicalUuid) where
  log : CommittedLog runId
  /-- The run has ended: the log is final. -/
  ended : Bool
  client : FollowStage
  output : Printout

/-- The replay watermark a frame announces. -/
def DecodedFrame.replayThrough? : DecodedFrame → Option SchemaU64
  | .control (.streamReady _ _ through) => some through
  | _ => none

namespace FollowWorld

variable {runId : CanonicalUuid}

/-- What the finite query leads to. -/
def queried (w : FollowWorld runId) (start : EventStart) (response : EventsResponse) :
    FollowWorld runId :=
  if validateEventsResponse response runId start then
    { w with
      client := .printing response.events none response.capturedWatermark
      output := { w.output with captured := some response.capturedWatermark } }
  else { w with client := .returned (.error .finite) }

/-- One iteration of the loop over the initial events. -/
def printed (w : FollowWorld runId) (event : DiagnosticEvent) (rest : List DiagnosticEvent)
    (lastOutput : Option EventCursor) (watermark : SchemaU64) : FollowWorld runId :=
  match ensureInitialIdentity event runId lastOutput with
  | .error code => { w with client := .returned (.error code) }
  | .ok () =>
    { w with
      client := .printing rest (some (.fromEvent event)) watermark
      output := w.output.write (some event) }

/-- What an answered stream request leads to. -/
def connected (w : FollowWorld runId) (state : FollowState) (reconnect : Bool)
    (reply : StreamReply) : FollowWorld runId :=
  match connect reply with
  | .error code => { w with client := .returned (.error code) }
  | .ok .retry => { w with client := .waiting state }
  | .ok .connected =>
    { w with
      client := .consuming state state.cursor false
        (.opened (streamRequest state.cursor reconnect)) }

/-- What a received frame leads to. -/
def received (w : FollowWorld runId) (state : FollowState) (requested : EventCursor)
    (ready : Bool) (frame : DecodedFrame) (stream : ServerStream) : FollowWorld runId :=
  let output := { w.output with firstReplay := w.output.firstReplay.or frame.replayThrough? }
  match consumeFrame requested ready state frame with
  | .error code => { w with client := .returned (.error code), output }
  | .ok (.proceed state ready record) =>
    { w with
      client := .consuming state requested ready stream
      output := output.write record }
  | .ok .reconnect => { w with client := .waiting state, output }
  | .ok .closed => { w with client := .returned (.ok .streamClosed), output }

end FollowWorld

/-- The committed events, as a client reads them. -/
def published {runId : CanonicalUuid} (log : CommittedLog runId) : List DiagnosticEvent :=
  log.events.map CommittedEvent.event

/-- What the finite endpoint answers: a prefix of the log, from where the query starts. -/
structure Answers {runId : CanonicalUuid} (log : CommittedLog runId) (start : EventStart)
    (response : EventsResponse) : Prop where
  version : response.apiSchemaVersion = eventsApiSchemaVersion
  run : response.runId = runId
  committed : response.capturedWatermark.get ≤ log.events.length
  events : response.events =
    ((published log).take response.capturedWatermark.get).drop
      (start.resolve response.capturedWatermark.get)
  last : response.nextAfter = none

/-- One step of a run, for a probe of the server's identity that may fail in some ways. -/
inductive FollowStep {runId : CanonicalUuid} (start : EventStart)
    (probeFails : HttpClientErrorCode → Prop) : FollowWorld runId → FollowWorld runId → Prop where
  | commit {w : FollowWorld runId} {log : CommittedLog runId} (hopen : w.ended = false)
      (hgrows : w.log.events <+: log.events) : FollowStep start probeFails w { w with log }
  | finish {w : FollowWorld runId} : FollowStep start probeFails w { w with ended := true }
  /-- The target does not resolve, or the finite query fails. -/
  | queryFailed {w : FollowWorld runId} {code : FollowErrorCode} (h : w.client = .querying)
      (hcode : code = .resolve ∨ code = .archiveUnsupported ∨ code = .finite) :
      FollowStep start probeFails w { w with client := .returned (.error code) }
  | query {w : FollowWorld runId} (response : EventsResponse) (h : w.client = .querying)
      (hanswers : Answers w.log start response) :
      FollowStep start probeFails w (w.queried start response)
  | print {w : FollowWorld runId} {event : DiagnosticEvent} {rest : List DiagnosticEvent}
      {lastOutput : Option EventCursor} {watermark : SchemaU64}
      (h : w.client = .printing (event :: rest) lastOutput watermark) :
      FollowStep start probeFails w (w.printed event rest lastOutput watermark)
  | printedAll {w : FollowWorld runId} {lastOutput : Option EventCursor} {watermark : SchemaU64}
      (h : w.client = .printing [] lastOutput watermark) :
      FollowStep start probeFails w
        { w with
          client := .identifying
            { cursor := ⟨runId, watermark⟩, adoptConnectionHead := start.isTailZero } false }
  | identified {w : FollowWorld runId} {state : FollowState} {reconnect : Bool}
      (h : w.client = .identifying state reconnect) :
      FollowStep start probeFails w { w with client := .connecting state reconnect }
  | probeFailed {w : FollowWorld runId} {state : FollowState} {reconnect : Bool}
      (code : HttpClientErrorCode) (h : w.client = .identifying state reconnect)
      (hcode : probeFails code) :
      FollowStep start probeFails w
        { w with
          client := if isTemporaryIdentityFailure code then .waiting state
            else .returned (.error .runIdentityMismatch) }
  | connect {w : FollowWorld runId} {state : FollowState} {reconnect : Bool} (reply : StreamReply)
      (h : w.client = .connecting state reconnect) :
      FollowStep start probeFails w (w.connected state reconnect reply)
  | receive {w : FollowWorld runId} {state : FollowState} {requested : EventCursor} {ready : Bool}
      {stream stream' : ServerStream} {frame : DecodedFrame}
      (h : w.client = .consuming state requested ready stream)
      (hsends : StreamSends w.log w.ended stream frame stream') :
      FollowStep start probeFails w (w.received state requested ready frame stream')
  /-- The body ends or fails before a terminal control. -/
  | disconnect {w : FollowWorld runId} {state : FollowState} {requested : EventCursor}
      {ready : Bool} {stream : ServerStream}
      (h : w.client = .consuming state requested ready stream) :
      FollowStep start probeFails w { w with client := .waiting state }
  | reconnect {w : FollowWorld runId} {state : FollowState} (h : w.client = .waiting state) :
      FollowStep start probeFails w { w with client := .identifying state true }
  /-- The task is cancelled. -/
  | interrupt {w : FollowWorld runId} (h : ∀ result, w.client ≠ .returned result) :
      FollowStep start probeFails w { w with client := .returned (.ok .interrupted) }
  /-- A record or a notice cannot be written. -/
  | outputFailed {w : FollowWorld runId} (h : ∀ result, w.client ≠ .returned result) :
      FollowStep start probeFails w { w with client := .returned (.error .output) }

end Troupe.Cli
