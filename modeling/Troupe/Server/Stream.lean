import Troupe.Server.Subscriber

/-! # What a client receives

A subscriber is used by a sender and a body at once. `Stream` is the shared state with the frames
the body has handed out; a run is any list of operations of the two, in any order.

Along every run (`subscriber_stream`) the frames received are the ready frame, then the events after
`resume_after` without gap or repetition, heartbeats in between, then at most one terminal frame,
and the body ends after that. No run panics. -/

namespace Troupe.Server

open Troupe.Lib Troupe.Core

/-! ## Runs -/

/-- A subscriber and what its client has read. -/
structure Stream where
  shared : SubscriberShared
  received : List SseFrame

/-- An operation of the sender or of the body. -/
inductive StreamOp where
  | sendEvent (event : CommittedEvent) (watermark : SchemaU64) (mode : SendMode)
  | sendHeartbeat (watermark : SchemaU64)
  | close (reason : String) (watermark : SchemaU64)
  | resyncRequired (reason : String) (watermark : SchemaU64) (earliest : Option SchemaU64)
  | dropSender
  | pollFrame
  | dropBody

namespace Stream

/-- The state a sender's method leaves: its result, or the state it found when it fails. -/
def settle {α : Type} (stream : Stream) (result : Except SubscriberError (α × SubscriberShared)) :
    Stream :=
  match result with
  | .ok (_, shared) => { stream with shared }
  | .error _ => stream

/-- One operation. -/
def perform (stream : Stream) : StreamOp → Except (Fault Empty) Stream
  | .sendEvent event watermark mode =>
    .ok (stream.settle (stream.shared.sendEvent event watermark mode))
  | .sendHeartbeat watermark => .ok (stream.settle (stream.shared.trySendHeartbeat watermark))
  | .close reason watermark => .ok (stream.settle (stream.shared.close reason watermark))
  | .resyncRequired reason watermark earliest =>
    .ok (stream.settle (stream.shared.resyncRequired reason watermark earliest))
  -- `SseSender` has no `Drop`
  | .dropSender => .ok stream
  | .pollFrame =>
    -- a body that was dropped cannot be polled
    if stream.shared.state.receiverOpen then do
      let (answer, shared) ← stream.shared.pollFrame
      match answer with
      | .ready frame => .ok { shared, received := stream.received ++ [frame] }
      | .finished | .pending => .ok { stream with shared }
    else
      .ok stream
  | .dropBody => .ok { stream with shared := stream.shared.dropBody }

/-- A run: operations one after the other. -/
def run (stream : Stream) (ops : List StreamOp) : Except (Fault Empty) Stream :=
  ops.foldlM perform stream

end Stream

/-! ## Well-formed streams -/

/-- The ids of the event frames, which are the only frames with an id. -/
def eventIds (frames : List SseFrame) : List Nat := frames.filterMap fun frame => frame.id.map (·.get)

/-- The id of the last event frame, or the cursor when there is none. -/
def lastReceived (resumeAfter : SchemaU64) (frames : List SseFrame) : SchemaU64 :=
  (frames.filterMap (·.id)).getLastD resumeAfter

/-- A frame between the ready frame and the terminal one. -/
def Carried (runId : CanonicalUuid) (frame : SseFrame) : Prop :=
  (∃ event : CommittedEvent, event.runId = runId ∧ frame = .diagnosticEvent event) ∨
    (frame.kind = .heartbeat ∧ frame.id = none)

/-- The ready frame, and the events after the cursor one by one. -/
structure Flowing (runId : CanonicalUuid) (resumeAfter : SchemaU64) (ready : SseFrame)
    (frames : List SseFrame) : Prop where
  opens : ∃ body, frames = ready :: body ∧ ∀ frame ∈ body, Carried runId frame
  contiguous : eventIds frames = List.range' (resumeAfter.get + 1) (eventIds frames).length

/-- A gap frame says `last` was delivered, and nothing else can be read from it. -/
def ReportsDelivered (runId : CanonicalUuid) (frame : SseFrame) (last : SchemaU64) : Prop :=
  (∃ reason watermark, SseFrame.deliveryGap runId reason last watermark = .ok frame) ∧
    ∀ runId' reason last' watermark,
      SseFrame.deliveryGap runId' reason last' watermark = .ok frame → last' = last

/-- A terminal frame after `last` was delivered. -/
structure Terminal (runId : CanonicalUuid) (last : SchemaU64) (frame : SseFrame) : Prop where
  terminal : frame.IsTerminal
  noId : frame.id = none
  gap : frame.kind = .deliveryGap → ReportsDelivered runId frame last

/-- The frames a client may have received so far. -/
inductive ClientStream (runId : CanonicalUuid) (resumeAfter : SchemaU64) (ready : SseFrame) :
    List SseFrame → Prop where
  | nothing : ClientStream runId resumeAfter ready []
  | flowing {frames : List SseFrame} (flowing : Flowing runId resumeAfter ready frames) :
      ClientStream runId resumeAfter ready frames
  | terminated {frames : List SseFrame} {last : SseFrame}
      (flowing : Flowing runId resumeAfter ready frames)
      (terminal : Terminal runId (lastReceived resumeAfter frames) last) :
      ClientStream runId resumeAfter ready (frames ++ [last])

/-- The counters are the sums over the queue, within the limits. -/
structure Counted (shared : SubscriberShared) : Prop where
  events : shared.state.queuedEventCount =
    shared.state.queue.countP (·.kind == .diagnosticEvent)
  bytes : shared.state.queuedBytes = (shared.state.queue.map SseFrame.byteLen).sum
  events_le : shared.state.queuedEventCount ≤ shared.limits.maxBufferedEvents
  bytes_le : shared.state.queuedBytes ≤ shared.limits.maxBufferedBytes

/-! ## Frames in order -/

section Frames

variable {runId : CanonicalUuid} {resumeAfter : SchemaU64} {ready frame : SseFrame}
  {frames rest : List SseFrame}

@[simp] theorem eventIds_append :
    eventIds (frames ++ rest) = eventIds frames ++ eventIds rest := by
  simp [eventIds]

theorem eventIds_singleton_none (h : frame.id = none) : eventIds [frame] = [] := by
  simp [eventIds, h]

theorem lastReceived_append_none (h : frame.id = none) :
    lastReceived resumeAfter (frames ++ [frame]) = lastReceived resumeAfter frames := by
  simp [lastReceived, h]

theorem lastReceived_append_some {id : SchemaU64} (h : frame.id = some id) :
    lastReceived resumeAfter (frames ++ [frame]) = id := by
  simp [lastReceived, h]

/-- A heartbeat does not disturb the flow. -/
theorem Flowing.append_heartbeat (h : Flowing runId resumeAfter ready frames)
    (hkind : frame.kind = .heartbeat) (hid : frame.id = none) :
    Flowing runId resumeAfter ready (frames ++ [frame]) := by
  obtain ⟨body, rfl, hbody⟩ := h.opens
  constructor
  · refine ⟨body ++ [frame], rfl, ?_⟩
    intro f hf
    rcases List.mem_append.mp hf with hf | hf
    · exact hbody f hf
    · rw [List.mem_singleton.mp hf]
      exact Or.inr ⟨hkind, hid⟩
  · rw [eventIds_append, eventIds_singleton_none hid, List.append_nil]
    exact h.contiguous

/-- The next event extends the flow. -/
theorem Flowing.append_event (h : Flowing runId resumeAfter ready frames) {event : CommittedEvent}
    (hrun : event.runId = runId)
    (hnext : event.sequence.get = resumeAfter.get + (eventIds frames).length + 1) :
    Flowing runId resumeAfter ready (frames ++ [.diagnosticEvent event]) := by
  obtain ⟨body, rfl, hbody⟩ := h.opens
  constructor
  · refine ⟨body ++ [.diagnosticEvent event], rfl, ?_⟩
    intro f hf
    rcases List.mem_append.mp hf with hf | hf
    · exact hbody f hf
    · rw [List.mem_singleton.mp hf]
      exact Or.inl ⟨event, hrun, rfl⟩
  · have hid : eventIds [SseFrame.diagnosticEvent event] = [event.sequence.get] := rfl
    rw [eventIds_append, hid, List.length_append, List.length_singleton, List.range'_concat,
      ← h.contiguous, hnext]
    congr 2
    omega

/-- What was read of a flow is a flow. -/
theorem Flowing.of_append (h : Flowing runId resumeAfter ready (frames ++ rest))
    (hne : frames ≠ []) : Flowing runId resumeAfter ready frames := by
  obtain ⟨body, hframes, hbody⟩ := h.opens
  cases frames with
  | nil => exact absurd rfl hne
  | cons first frames =>
    obtain ⟨rfl, rfl⟩ := List.cons.inj hframes
    refine ⟨⟨frames, rfl, fun f hf => hbody f (List.mem_append_left _ hf)⟩, ?_⟩
    have hall := h.contiguous
    rw [eventIds_append, List.length_append, ← List.range'_append_1] at hall
    exact (List.append_inj hall (by simp)).1

/-- Only the events of a flow carry an id. -/
theorem Flowing.id_eq_none_iff (h : Flowing runId resumeAfter ready frames)
    (hready : ready.kind = .streamReady ∧ ready.id = none) (hframe : frame ∈ frames) :
    frame.id = none ↔ frame.kind ≠ .diagnosticEvent := by
  obtain ⟨body, rfl, hbody⟩ := h.opens
  rcases List.mem_cons.mp hframe with rfl | hframe
  · simp [hready.1, hready.2]
  · rcases hbody frame hframe with ⟨event, -, rfl⟩ | ⟨hkind, hid⟩
    · simp [SseFrame.diagnosticEvent]
    · simp [hkind, hid]

/-- Nothing in a flow ends the stream. -/
theorem Flowing.not_isTerminal (h : Flowing runId resumeAfter ready frames)
    (hready : ready.kind = .streamReady) (hframe : frame ∈ frames) : ¬frame.IsTerminal := by
  obtain ⟨body, rfl, hbody⟩ := h.opens
  unfold SseFrame.IsTerminal
  rcases List.mem_cons.mp hframe with rfl | hframe
  · simp [hready]
  · rcases hbody frame hframe with ⟨event, -, rfl⟩ | ⟨hkind, -⟩
    · simp [SseFrame.diagnosticEvent]
    · simp [hkind]

end Frames

/-! ## The invariant -/

/-- Where a stream stands: `frames` are those received and those still queued. -/
inductive Phase (runId : CanonicalUuid) (resumeAfter : SchemaU64) (ready : SseFrame)
    (stream : Stream) : Prop where
  | flowing
      (frames : Flowing runId resumeAfter ready (stream.received ++ stream.shared.state.queue))
      (live : stream.shared.Live)
      (noTerminal : stream.shared.state.terminal = none)
      (enqueued : stream.shared.state.lastEnqueuedSequence.get =
        resumeAfter.get + (eventIds (stream.received ++ stream.shared.state.queue)).length)
      (first : stream.shared.state.firstFrameDelivered = !stream.received.isEmpty)
  | ending {last : SseFrame}
      (frames : Flowing runId resumeAfter ready (stream.received ++ stream.shared.state.queue))
      (closed : stream.shared.state.accepting = false)
      (terminal : stream.shared.state.terminal = some last)
      (final : Terminal runId
        (lastReceived resumeAfter (stream.received ++ stream.shared.state.queue)) last)
  | ended
      (frames : ClientStream runId resumeAfter ready stream.received)
      (empty : stream.shared.state.queue = [])
      (closed : stream.shared.state.accepting = false)
      (noTerminal : stream.shared.state.terminal = none)

/-- What every operation keeps. -/
structure StreamInvariant (runId : CanonicalUuid) (limits : SubscriberLimits)
    (resumeAfter : SchemaU64) (ready : SseFrame) (stream : Stream) : Prop where
  run : stream.shared.runId = runId
  limits : stream.shared.limits = limits
  counted : Counted stream.shared
  delivered : stream.shared.state.lastDeliveredSequence = lastReceived resumeAfter stream.received
  phase : Phase runId resumeAfter ready stream

section Invariant

variable {runId : CanonicalUuid} {limits : SubscriberLimits} {resumeAfter : SchemaU64}
  {ready : SseFrame} {stream : Stream} {shared : SubscriberShared} {watermark : SchemaU64}
  {frame : SseFrame}

/-- A sender acts only while the stream flows. -/
theorem Phase.flowing_of_live (h : Phase runId resumeAfter ready stream)
    (hlive : stream.shared.Live) :
    Flowing runId resumeAfter ready (stream.received ++ stream.shared.state.queue) ∧
      stream.shared.state.terminal = none ∧
      stream.shared.state.lastEnqueuedSequence.get =
        resumeAfter.get + (eventIds (stream.received ++ stream.shared.state.queue)).length ∧
      stream.shared.state.firstFrameDelivered = !stream.received.isEmpty := by
  cases h with
  | flowing frames _ noTerminal enqueued first => exact ⟨frames, noTerminal, enqueued, first⟩
  | ending _ closed _ _ => rw [hlive.1] at closed; cases closed
  | ended _ _ closed _ => rw [hlive.1] at closed; cases closed

/-- Before the first read, cutting delivery off keeps the ready frame alone. -/
theorem terminateDelivery_unread {state : SubscriberState} {body : List SseFrame}
    (terminal : SseFrame) (hfirst : state.firstFrameDelivered = false)
    (hqueue : state.queue = ready :: body) (hkind : ready.kind = .streamReady) :
    terminateDelivery state terminal =
      { state with
        queue := [ready]
        queuedEventCount := 0
        queuedBytes := ready.byteLen
        terminal := some terminal
        accepting := false } := by
  simp [terminateDelivery, hfirst, hqueue, hkind]

/-- After the first read it keeps nothing. -/
theorem terminateDelivery_read {state : SubscriberState} (terminal : SseFrame)
    (hfirst : state.firstFrameDelivered = true) :
    terminateDelivery state terminal =
      { state with
        queue := []
        queuedEventCount := 0
        queuedBytes := 0
        terminal := some terminal
        accepting := false } := by
  simp [terminateDelivery, hfirst]

/-- Cutting delivery off leaves the client a flow that ends where it has read to. -/
theorem terminateDelivery_invariant (h : StreamInvariant runId limits resumeAfter ready stream)
    (hready : ready.kind = .streamReady ∧ ready.id = none) (hlive : stream.shared.Live)
    {terminal : SseFrame}
    (hterminal : Terminal runId stream.shared.state.lastDeliveredSequence terminal) :
    StreamInvariant runId limits resumeAfter ready
      { stream with
        shared := stream.shared.withState (terminateDelivery stream.shared.state terminal) } := by
  obtain ⟨hframes, -, -, hfirst⟩ := h.phase.flowing_of_live hlive
  by_cases hread : stream.received = []
  · rw [hread] at hframes hfirst
    obtain ⟨body, hqueue, -⟩ := hframes.opens
    have hstate := terminateDelivery_unread terminal hfirst hqueue hready.1
    have hone : Flowing runId resumeAfter ready [ready] := by
      rw [List.nil_append] at hframes hqueue
      rw [hqueue, ← List.singleton_append] at hframes
      exact hframes.of_append (by simp)
    have hbytes : ready.byteLen ≤ stream.shared.state.queuedBytes := by
      rw [h.counted.bytes, show stream.shared.state.queue = ready :: body from hqueue]
      simp
    refine ⟨h.run, h.limits, ⟨?_, ?_, ?_, ?_⟩, ?_, ?_⟩
    · simp [SubscriberShared.withState, hstate, hready.1]
    · simp [SubscriberShared.withState, hstate]
    · simp [SubscriberShared.withState, hstate]
    · simpa [SubscriberShared.withState, hstate] using hbytes.trans h.counted.bytes_le
    · simpa [SubscriberShared.withState, hstate] using h.delivered
    · refine Phase.ending ?_ ?_ (show _ = some terminal from ?_) ?_
      · simpa [SubscriberShared.withState, hstate, hread] using hone
      · simp [SubscriberShared.withState, hstate]
      · simp [SubscriberShared.withState, hstate]
      · have hlast : lastReceived resumeAfter [ready] =
            stream.shared.state.lastDeliveredSequence := by
          rw [h.delivered, hread, ← List.nil_append [ready], lastReceived_append_none hready.2]
        simpa [SubscriberShared.withState, hstate, hread, hlast] using hterminal
  · have hflag : stream.shared.state.firstFrameDelivered = true := by simp [hfirst, hread]
    have hstate := terminateDelivery_read terminal hflag
    refine ⟨h.run, h.limits, ⟨?_, ?_, ?_, ?_⟩, ?_, ?_⟩
    · simp [SubscriberShared.withState, hstate]
    · simp [SubscriberShared.withState, hstate]
    · simp [SubscriberShared.withState, hstate]
    · simp [SubscriberShared.withState, hstate]
    · simpa [SubscriberShared.withState, hstate] using h.delivered
    · refine Phase.ending ?_ ?_ (show _ = some terminal from ?_) ?_
      · simpa [SubscriberShared.withState, hstate] using hframes.of_append hread
      · simp [SubscriberShared.withState, hstate]
      · simp [SubscriberShared.withState, hstate]
      · simpa [SubscriberShared.withState, hstate, ← h.delivered] using hterminal

/-- A frame pushed at the end of the queue is counted. -/
theorem pushed_counted {events : Nat} {last : SchemaU64} (h : Counted shared)
    (hevents : events = if frame.kind = .diagnosticEvent then 1 else 0)
    (heventsLe : shared.state.queuedEventCount + events ≤ shared.limits.maxBufferedEvents)
    (hbytesLe : shared.state.queuedBytes + frame.byteLen ≤ shared.limits.maxBufferedBytes) :
    Counted (shared.pushed frame events last) := by
  refine ⟨?_, ?_, heventsLe, hbytesLe⟩
  · show shared.state.queuedEventCount + events = _
    rw [h.events, hevents]
    simp [SubscriberShared.pushed, SubscriberShared.withState, List.countP_append,
      List.countP_singleton]
  · show shared.state.queuedBytes + frame.byteLen = _
    rw [h.bytes]
    simp [SubscriberShared.pushed, SubscriberShared.withState]

theorem sendEvent_invariant {event : CommittedEvent} {mode : SendMode}
    {attempt : EnqueueAttempt} (h : StreamInvariant runId limits resumeAfter ready stream)
    (hready : ready.kind = .streamReady ∧ ready.id = none)
    (hsend : stream.shared.sendEvent event watermark mode = .ok (attempt, shared)) :
    StreamInvariant runId limits resumeAfter ready { stream with shared } := by
  obtain ⟨hrun, hsent⟩ := SubscriberShared.sendEvent_ok hsend
  cases hsent with
  | closed _ => exact h
  | duplicate _ _ => exact h
  | waits _ _ => exact h
  | inconsistent live _ kind noId =>
    refine terminateDelivery_invariant h hready live ⟨Or.inr (Or.inl kind), noId, ?_⟩
    intro hgap
    rw [kind] at hgap
    cases hgap
  | overflowed live gap =>
    have hframe := SseFrame.deliveryGap_eq_ok.mp gap
    refine terminateDelivery_invariant h hready live ⟨Or.inl ?_, ?_, ?_⟩
    · rw [hframe.2.2]; rfl
    · rw [hframe.2.2]; rfl
    · intro _
      rw [h.run] at gap
      exact ⟨⟨_, _, gap⟩, fun _ _ _ _ h' => SseFrame.deliveryGap_last_injective h' gap⟩
  | enqueued live next _ fits =>
    obtain ⟨hframes, hterminal, henqueued, hfirst⟩ := h.phase.flowing_of_live live
    refine ⟨h.run, h.limits, pushed_counted h.counted rfl fits.events_le fits.bytes_le, h.delivered, ?_⟩
    refine Phase.flowing ?_ live hterminal ?_ hfirst
    · show Flowing runId resumeAfter ready (stream.received ++ (stream.shared.state.queue ++ [_]))
      rw [← List.append_assoc]
      exact hframes.append_event (hrun.trans h.run) (by omega)
    · show event.sequence.get = _ + (eventIds (stream.received ++ (stream.shared.state.queue ++ [_]))).length
      rw [← List.append_assoc, eventIds_append, List.length_append, next, henqueued]
      rfl

theorem sendHeartbeat_invariant {status : DeliveryStatus}
    (h : StreamInvariant runId limits resumeAfter ready stream)
    (hsend : stream.shared.trySendHeartbeat watermark = .ok (status, shared)) :
    StreamInvariant runId limits resumeAfter ready { stream with shared } := by
  rcases SubscriberShared.trySendHeartbeat_ok hsend with rfl | ⟨hlive, hfits, rfl⟩
  · exact h
  · obtain ⟨hframes, hterminal, henqueued, hfirst⟩ := h.phase.flowing_of_live hlive
    refine ⟨h.run, h.limits, pushed_counted h.counted rfl h.counted.events_le hfits, h.delivered, ?_⟩
    refine Phase.flowing ?_ hlive hterminal ?_ hfirst
    · show Flowing runId resumeAfter ready (stream.received ++ (stream.shared.state.queue ++ [_]))
      rw [← List.append_assoc]
      exact hframes.append_heartbeat rfl rfl
    · show stream.shared.state.lastEnqueuedSequence.get =
        _ + (eventIds (stream.received ++ (stream.shared.state.queue ++ [_]))).length
      rw [← List.append_assoc, eventIds_append, List.length_append, henqueued]
      rfl

theorem close_invariant {reason : String} {status : DeliveryStatus}
    (h : StreamInvariant runId limits resumeAfter ready stream)
    (hclose : stream.shared.close reason watermark = .ok (status, shared)) :
    StreamInvariant runId limits resumeAfter ready { stream with shared } := by
  rcases SubscriberShared.close_ok hclose with ⟨-, -, rfl⟩ | ⟨-, hlive, terminal, hterminal, rfl⟩
  · exact h
  · obtain ⟨hframes, -, -, -⟩ := h.phase.flowing_of_live hlive
    obtain ⟨hkind, hid⟩ := SseFrame.streamClosed_kind hterminal
    refine ⟨h.run, h.limits, ⟨h.counted.events, h.counted.bytes, h.counted.events_le, h.counted.bytes_le⟩,
      h.delivered, Phase.ending hframes rfl rfl ⟨Or.inr (Or.inr hkind), hid, ?_⟩⟩
    intro hgap
    rw [hkind] at hgap
    cases hgap

theorem resyncRequired_invariant {reason : String}
    {earliest : Option SchemaU64} {status : DeliveryStatus}
    (h : StreamInvariant runId limits resumeAfter ready stream)
    (hready : ready.kind = .streamReady ∧ ready.id = none)
    (hresync : stream.shared.resyncRequired reason watermark earliest = .ok (status, shared)) :
    StreamInvariant runId limits resumeAfter ready { stream with shared } := by
  rcases SubscriberShared.resyncRequired_ok hresync with
    ⟨-, -, rfl⟩ | ⟨-, hlive, terminal, hterminal, rfl⟩
  · exact h
  · obtain ⟨hkind, hid⟩ := SseFrame.resyncRequired_kind hterminal
    refine terminateDelivery_invariant h hready hlive ⟨Or.inr (Or.inl hkind), hid, ?_⟩
    intro hgap
    rw [hkind] at hgap
    cases hgap

/-- What was read of a flow is what a client may have received. -/
theorem Flowing.clientStream {received queue : List SseFrame}
    (h : Flowing runId resumeAfter ready (received ++ queue)) :
    ClientStream runId resumeAfter ready received := by
  by_cases hread : received = []
  · rw [hread]
    exact .nothing
  · exact .flowing (h.of_append hread)

theorem Phase.clientStream (h : Phase runId resumeAfter ready stream) :
    ClientStream runId resumeAfter ready stream.received := by
  cases h with
  | flowing frames => exact frames.clientStream
  | ending frames => exact frames.clientStream
  | ended frames => exact frames

/-- Once the terminal frame was read the body has nothing left. -/
theorem Phase.pollFrame_finished (h : Phase runId resumeAfter ready stream)
    (hready : ready.kind = .streamReady) (hframe : frame ∈ stream.received)
    (hterminal : frame.IsTerminal) :
    stream.shared.pollFrame = .ok (.finished, stream.shared) := by
  cases h with
  | flowing frames =>
    exact absurd hterminal (frames.not_isTerminal hready (List.mem_append_left _ hframe))
  | ending frames =>
    exact absurd hterminal (frames.not_isTerminal hready (List.mem_append_left _ hframe))
  | ended _ empty closed noTerminal =>
    simp [SubscriberShared.pollFrame, empty, closed, noTerminal]

/-- The body's own end: what was received stays what it was. -/
theorem dropBody_invariant (h : StreamInvariant runId limits resumeAfter ready stream) :
    StreamInvariant runId limits resumeAfter ready
      { stream with shared := stream.shared.dropBody } := by
  exact ⟨h.run, h.limits, ⟨rfl, rfl, Nat.zero_le _, Nat.zero_le _⟩, h.delivered,
    Phase.ended h.phase.clientStream rfl rfl rfl⟩

/-- The state after the frame at the front of the queue was handed out. -/
def handedOut (state : SubscriberState) (frame : SseFrame) (queue : List SseFrame) :
    SubscriberState :=
  { state with
    queue
    firstFrameDelivered := true
    queuedBytes := (queue.map SseFrame.byteLen).sum
    queuedEventCount := queue.countP (·.kind == .diagnosticEvent)
    lastDeliveredSequence := frame.id.getD state.lastDeliveredSequence }

/-- A counted queue gives its front frame without a panic. -/
theorem pollFrame_cons {queue : List SseFrame} (h : Counted shared)
    (hqueue : shared.state.queue = frame :: queue)
    (hid : frame.id = none ↔ frame.kind ≠ .diagnosticEvent) :
    shared.pollFrame =
      .ok (.ready frame, shared.withState (handedOut shared.state frame queue)) := by
  have hbytes : shared.state.queuedBytes =
      frame.byteLen + (queue.map SseFrame.byteLen).sum := by
    rw [h.bytes, hqueue]; simp
  have hdecrement : SubscriberShared.decrement shared.state.queuedBytes frame.byteLen =
      .ok (queue.map SseFrame.byteLen).sum := by
    rw [hbytes, SubscriberShared.decrement, if_pos (Nat.le_add_right _ _), Nat.add_sub_cancel_left]
  have hevents := h.events
  rw [hqueue, List.countP_cons] at hevents
  unfold SubscriberShared.pollFrame SubscriberShared.accountDelivered
  rw [hqueue]
  by_cases hkind : frame.kind = .diagnosticEvent
  · obtain ⟨id, hsome⟩ : ∃ id, frame.id = some id := by
      rw [← Option.isSome_iff_exists, Option.isSome_iff_ne_none, ne_eq, hid, not_not]
      exact hkind
    have hcount : SubscriberShared.decrement shared.state.queuedEventCount 1 =
        .ok (queue.countP (·.kind == .diagnosticEvent)) := by
      simp only [hkind, beq_self_eq_true, if_true] at hevents
      rw [hevents, SubscriberShared.decrement, if_pos (Nat.le_add_left _ _), Nat.add_sub_cancel]
    simp only [hdecrement, hcount, hkind, hsome, bind, Except.bind, if_true, handedOut,
      Option.getD_some]
  · have hnone : frame.id = none := hid.mpr hkind
    have hcount : shared.state.queuedEventCount =
        queue.countP (·.kind == .diagnosticEvent) := by
      simpa [hkind] using hevents
    simp only [hdecrement, hkind, bind, Except.bind, if_false, handedOut, hnone, Option.getD_none,
      ← hcount]

/-- A frame that leaves the queue for the client. -/
theorem handedOut_invariant {queue : List SseFrame}
    (h : StreamInvariant runId limits resumeAfter ready stream)
    (hqueue : stream.shared.state.queue = frame :: queue) :
    StreamInvariant runId limits resumeAfter ready
      { shared := stream.shared.withState (handedOut stream.shared.state frame queue)
        received := stream.received ++ [frame] } := by
  have hmoved : stream.received ++ [frame] ++ queue =
      stream.received ++ stream.shared.state.queue := by
    rw [hqueue, List.append_assoc, List.singleton_append]
  refine ⟨h.run, h.limits, ⟨rfl, rfl, ?_, ?_⟩, ?_, ?_⟩
  · refine le_trans ?_ h.counted.events_le
    rw [h.counted.events, hqueue, List.countP_cons]
    exact Nat.le_add_right _ _
  · refine le_trans ?_ h.counted.bytes_le
    rw [h.counted.bytes, hqueue, List.map_cons, List.sum_cons]
    exact Nat.le_add_left _ _
  · show frame.id.getD stream.shared.state.lastDeliveredSequence = _
    cases hid : frame.id with
    | none => rw [lastReceived_append_none hid, ← h.delivered, Option.getD_none]
    | some id => rw [lastReceived_append_some hid, Option.getD_some]
  · cases h.phase with
    | flowing frames live noTerminal enqueued first =>
      refine Phase.flowing ?_ live noTerminal ?_ (by simp [handedOut, SubscriberShared.withState])
      · show Flowing _ _ _ (stream.received ++ [frame] ++ queue)
        rw [hmoved]
        exact frames
      · show stream.shared.state.lastEnqueuedSequence.get =
          _ + (eventIds (stream.received ++ [frame] ++ queue)).length
        rw [hmoved]
        exact enqueued
    | ending frames closed terminal final =>
      refine Phase.ending ?_ closed terminal ?_
      · show Flowing _ _ _ (stream.received ++ [frame] ++ queue)
        rw [hmoved]
        exact frames
      · show Terminal _ (lastReceived _ (stream.received ++ [frame] ++ queue)) _
        rw [hmoved]
        exact final
    | ended _ empty => rw [hqueue] at empty; cases empty

/-- A poll of an open body: it never panics. -/
theorem pollFrame_invariant (h : StreamInvariant runId limits resumeAfter ready stream)
    (hready : ready.kind = .streamReady ∧ ready.id = none) :
    ∃ next, stream.perform .pollFrame = .ok next ∧
      StreamInvariant runId limits resumeAfter ready next := by
  unfold Stream.perform
  by_cases hopen : stream.shared.state.receiverOpen = true
  · simp only [hopen, if_true]
    cases hqueue : stream.shared.state.queue with
    | cons frame queue =>
      have hframes : Flowing runId resumeAfter ready
          (stream.received ++ stream.shared.state.queue) := by
        cases h.phase with
        | flowing frames => exact frames
        | ending frames => exact frames
        | ended _ empty => rw [hqueue] at empty; cases empty
      have hmem : frame ∈ stream.received ++ stream.shared.state.queue := by simp [hqueue]
      have hid := hframes.id_eq_none_iff hready hmem
      refine ⟨_, ?_, handedOut_invariant h hqueue⟩
      rw [pollFrame_cons h.counted hqueue hid]
      rfl
    | nil =>
      cases hterminal : stream.shared.state.terminal with
      | some last =>
        refine ⟨{ shared := stream.shared.withState { stream.shared.state with terminal := none }
                  received := stream.received ++ [last] }, ?_, ?_⟩
        · simp [SubscriberShared.pollFrame, hqueue, hterminal, bind, Except.bind]
        · cases h.phase with
          | flowing _ _ noTerminal => rw [hterminal] at noTerminal; cases noTerminal
          | ended _ _ _ noTerminal => rw [hterminal] at noTerminal; cases noTerminal
          | ending frames closed terminal final =>
            cases hterminal.symm.trans terminal
            rw [hqueue, List.append_nil] at frames final
            refine ⟨h.run, h.limits, ⟨h.counted.events, h.counted.bytes, h.counted.events_le,
              h.counted.bytes_le⟩, ?_, ?_⟩
            · exact h.delivered.trans (lastReceived_append_none final.noId).symm
            · exact Phase.ended (.terminated frames final) hqueue closed rfl
      | none =>
        refine ⟨stream, ?_, h⟩
        unfold SubscriberShared.pollFrame
        simp only [hqueue, hterminal]
        split <;> rfl
  · exact ⟨stream, by simp [hopen], h⟩

theorem settle_invariant {α : Type} {result : Except SubscriberError (α × SubscriberShared)}
    (h : StreamInvariant runId limits resumeAfter ready stream)
    (hok : ∀ answer shared, result = .ok (answer, shared) →
      StreamInvariant runId limits resumeAfter ready { stream with shared }) :
    StreamInvariant runId limits resumeAfter ready (stream.settle result) := by
  cases result with
  | error _ => exact h
  | ok answer => exact hok answer.1 answer.2 rfl

/-- Every operation succeeds and keeps the invariant. -/
theorem perform_invariant (h : StreamInvariant runId limits resumeAfter ready stream)
    (hready : ready.kind = .streamReady ∧ ready.id = none) (op : StreamOp) :
    ∃ next, stream.perform op = .ok next ∧ StreamInvariant runId limits resumeAfter ready next := by
  cases op with
  | sendEvent event watermark mode =>
    exact ⟨_, rfl, settle_invariant h fun _ _ hok => sendEvent_invariant h hready hok⟩
  | sendHeartbeat watermark =>
    exact ⟨_, rfl, settle_invariant h fun _ _ hok => sendHeartbeat_invariant h hok⟩
  | close reason watermark =>
    exact ⟨_, rfl, settle_invariant h fun _ _ hok => close_invariant h hok⟩
  | resyncRequired reason watermark earliest =>
    exact ⟨_, rfl, settle_invariant h fun _ _ hok => resyncRequired_invariant h hready hok⟩
  | dropSender => exact ⟨stream, rfl, h⟩
  | pollFrame => exact pollFrame_invariant h hready
  | dropBody => exact ⟨_, rfl, dropBody_invariant h⟩

/-- Every run succeeds and keeps the invariant. -/
theorem run_invariant_of (h : StreamInvariant runId limits resumeAfter ready stream)
    (hready : ready.kind = .streamReady ∧ ready.id = none) (ops : List StreamOp) :
    ∃ final, stream.run ops = .ok final ∧ StreamInvariant runId limits resumeAfter ready final := by
  induction ops generalizing stream with
  | nil => exact ⟨stream, rfl, h⟩
  | cons op ops ih =>
    obtain ⟨next, hnext, hinv⟩ := perform_invariant h hready op
    obtain ⟨final, hfinal, hinv'⟩ := ih hinv
    refine ⟨final, ?_, hinv'⟩
    show (op :: ops).foldlM Stream.perform stream = _
    rw [List.foldlM_cons, hnext]
    exact hfinal

end Invariant

/-! ## Opening -/

/-- A subscriber opens with its ready frame queued. -/
theorem openSubscriber_ok {runId : CanonicalUuid} {resumeAfter replayThrough : SchemaU64}
    {limits : SubscriberLimits} {shared : SubscriberShared}
    (h : openSubscriber runId resumeAfter replayThrough limits = .ok shared) :
    ∃ ready, SseFrame.streamReady runId resumeAfter replayThrough = .ok ready ∧
      StreamInvariant runId limits resumeAfter ready { shared, received := [] } := by
  unfold openSubscriber at h
  rw [bind_eq_ok] at h
  obtain ⟨ready, hready, h⟩ := h
  rw [mapError_eq_ok] at hready
  rw [ite_error_eq_ok] at h
  obtain ⟨hfits, h⟩ := h
  rw [not_lt] at hfits
  obtain ⟨hkind, hid⟩ := SseFrame.streamReady_kind hready
  cases h
  refine ⟨ready, hready, rfl, rfl, ⟨?_, ?_, Nat.zero_le _, hfits⟩, rfl, ?_⟩
  · simp [hkind]
  · simp
  · have hids : eventIds [ready] = [] := eventIds_singleton_none hid
    refine Phase.flowing ⟨⟨[], rfl, by simp⟩, ?_⟩ ⟨rfl, rfl⟩ rfl ?_ rfl
    · simp [hids]
    · simp [hids]

/-- In every run of a subscriber, whatever the sender and the body do and in whichever order:

* nothing panics;
* the client receives the ready frame, the events after the cursor in sequence without gap or
  repetition (heartbeats in between), then at most one terminal frame;
* a gap frame names the last event received, or the cursor when there is none;
* after a terminal frame the body ends;
* the counters are the sums over the queue and within the limits. -/
theorem subscriber_stream {runId : CanonicalUuid} {resumeAfter replayThrough : SchemaU64}
    {limits : SubscriberLimits} {shared : SubscriberShared}
    (hopen : openSubscriber runId resumeAfter replayThrough limits = .ok shared)
    (ops : List StreamOp) :
    ∃ ready final, SseFrame.streamReady runId resumeAfter replayThrough = .ok ready ∧
      Stream.run { shared, received := [] } ops = .ok final ∧
      ClientStream runId resumeAfter ready final.received ∧
      ((∃ frame ∈ final.received, frame.IsTerminal) →
        final.shared.pollFrame = .ok (.finished, final.shared)) ∧
      final.shared.limits = limits ∧
      Counted final.shared := by
  obtain ⟨ready, hready, hinv⟩ := openSubscriber_ok hopen
  have hkind := SseFrame.streamReady_kind hready
  obtain ⟨final, hfinal, hinv'⟩ := run_invariant_of hinv hkind ops
  refine ⟨ready, final, hready, hfinal, hinv'.phase.clientStream, ?_, hinv'.limits, hinv'.counted⟩
  rintro ⟨frame, hframe, hterminal⟩
  exact hinv'.phase.pollFrame_finished hkind.1 hframe hterminal

/-- A stored instant of run 1, with two bytes of JSON. -/
def cueEvent (sequence : SchemaU64) (h : 0 < sequence.get) : CommittedEvent :=
  ⟨.instantOccurred ⟨.at sequence 0 [] h, .cueAdmitted, none⟩, utf8 "{}"⟩

/-- Two events sent to a client that has read only the ready frame. -/
def overflowOps : List StreamOp :=
  [.pollFrame, .sendEvent (cueEvent 1 SchemaU64.one_pos) 2 .disconnectOnFull,
    .sendEvent (cueEvent 2 SchemaU64.two_pos) 2 .disconnectOnFull, .pollFrame]

/-- With room for one event, the second overflows while the first still waits, and the client is told
that nothing after its cursor was delivered. -/
theorem subscriber_stream_overflow :
    ∃ shared ready final, openSubscriber ⟨1⟩ 0 2 ⟨1, 1024, by decide, by decide⟩ = .ok shared ∧
      Stream.run { shared, received := [] } overflowOps = .ok final ∧
      ClientStream ⟨1⟩ 0 ready final.received ∧
      final.received.map (·.kind) = [.streamReady, .deliveryGap] ∧ Counted final.shared := by
  have hkinds : ((openSubscriber ⟨1⟩ 0 2 ⟨1, 1024, by decide, by decide⟩).toOption.bind fun shared =>
      (Stream.run { shared, received := [] } overflowOps).toOption.map fun final =>
        final.received.map (·.kind)) = some [.streamReady, .deliveryGap] := by decide +kernel
  cases hopen : openSubscriber ⟨1⟩ 0 2 ⟨1, 1024, by decide, by decide⟩ with
  | error _ =>
    rw [hopen] at hkinds
    cases hkinds
  | ok shared =>
    obtain ⟨ready, final, -, hrun, hclient, -, -, hcounted⟩ := subscriber_stream hopen overflowOps
    rw [hopen] at hkinds
    refine ⟨shared, ready, final, rfl, hrun, hclient, ?_, hcounted⟩
    simpa [Except.toOption, hrun] using hkinds

end Troupe.Server
