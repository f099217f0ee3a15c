import Troupe.Server.Frame

/-! # The subscriber buffer

`subscriber.rs`: the queue between the sender that follows the committed log and the HTTP body a
client reads. Every method of `SseSender` and `SseBody` runs under one lock, so each is a function
from the state it finds to the state it leaves. Wakers and notifications carry no data and are left
out; `send_replay_event` is its attempts, each with `SendMode.wait`.

A method that returns an error returns before it changes the state. -/

namespace Troupe.Server

open Troupe.Lib Troupe.Core

/-! ## State -/

/-- `SubscriberLimits`. -/
structure SubscriberLimits where
  maxBufferedEvents : Nat
  maxBufferedBytes : Nat
  /-- "subscriber limits must be positive" was not raised. -/
  positive : 0 < maxBufferedEvents ∧ 0 < maxBufferedBytes
  /-- The limits are `usize`. -/
  le_max : maxBufferedEvents ≤ usizeMax ∧ maxBufferedBytes ≤ usizeMax
deriving DecidableEq

/-- `DeliveryStatus`. -/
inductive DeliveryStatus where
  | enqueued
  | duplicate
  | droppedControl
  | overflowed
  | resyncRequired
  | closed
deriving DecidableEq

/-- `SubscriberError`. The limits of a subscriber are positive by construction, so `InvalidLimits` is
left out. -/
inductive SubscriberError where
  | initialFrameExceedsBuffer
  | runIdentityMismatch
  | watermarkBehindCursor
  | frame (error : FrameError)
deriving DecidableEq

/-- `SendMode`. -/
inductive SendMode where
  | disconnectOnFull
  | wait
deriving DecidableEq

/-- `EnqueueAttempt`. -/
inductive EnqueueAttempt where
  | complete (status : DeliveryStatus)
  | wait
deriving DecidableEq

/-- `SubscriberState`. -/
structure SubscriberState where
  queue : List SseFrame
  queuedEventCount : Nat
  queuedBytes : Nat
  lastEnqueuedSequence : SchemaU64
  lastDeliveredSequence : SchemaU64
  firstFrameDelivered : Bool
  terminal : Option SseFrame
  accepting : Bool
  receiverOpen : Bool
deriving DecidableEq

/-- `SubscriberShared`: what the sender and the body hold in common. -/
structure SubscriberShared where
  state : SubscriberState
  runId : CanonicalUuid
  limits : SubscriberLimits
deriving DecidableEq

/-- `open_subscriber`. -/
def openSubscriber (runId : CanonicalUuid) (resumeAfter replayThrough : SchemaU64)
    (limits : SubscriberLimits) : Except SubscriberError SubscriberShared := do
  let ready ← (SseFrame.streamReady runId resumeAfter replayThrough).mapError .frame
  if limits.maxBufferedBytes < ready.byteLen then
    .error .initialFrameExceedsBuffer
  else
    .ok
      { state :=
          { queue := [ready]
            queuedEventCount := 0
            queuedBytes := ready.byteLen
            lastEnqueuedSequence := resumeAfter
            lastDeliveredSequence := resumeAfter
            firstFrameDelivered := false
            terminal := none
            accepting := true
            receiverOpen := true }
        runId
        limits }

/-- `resync_body`: a body that holds one `resync_required` frame and has no sender. -/
def resyncBody (runId : CanonicalUuid) (reason : String) (committedWatermark : SchemaU64)
    (earliestAvailableSequence : Option SchemaU64) : Except SubscriberError SubscriberShared := do
  let terminal ← (SseFrame.resyncRequired runId reason committedWatermark
    earliestAvailableSequence).mapError .frame
  .ok
    { state :=
        { queue := []
          queuedEventCount := 0
          queuedBytes := 0
          lastEnqueuedSequence := 0
          lastDeliveredSequence := 0
          firstFrameDelivered := false
          terminal := some terminal
          accepting := false
          receiverOpen := true }
      runId
      limits := ⟨1, 1, by decide, by decide⟩ }

/-! ## Sender -/

/-- `terminate_delivery`: drop what is buffered, except a ready frame that was not read yet. -/
def terminateDelivery (state : SubscriberState) (terminal : SseFrame) : SubscriberState :=
  let retainedReady :=
    if !state.firstFrameDelivered && state.queue.head?.any (·.kind == .streamReady) then
      state.queue.head?
    else
      none
  { state with
    queue := retainedReady.toList
    queuedEventCount := 0
    queuedBytes := match retainedReady with
      | some ready => ready.byteLen
      | none => 0
    terminal := some terminal
    accepting := false }

/-- `retained_earliest`. -/
def retainedEarliest (head : SchemaU64) : Option SchemaU64 :=
  if head.get = 0 then none else some 1

/-- The head reported to a client that is cut off: at least what it has received. -/
def currentHead (state : SubscriberState) (committedWatermark : SchemaU64) : SchemaU64 :=
  if state.lastDeliveredSequence ≤ committedWatermark then committedWatermark
  else state.lastDeliveredSequence

/-- Whether a checked sum is over its limit (`is_none_or(|sum| sum > limit)`). -/
def exceeds (sum : Option Nat) (limit : Nat) : Bool := sum.all (limit < ·)

namespace SubscriberShared

variable {reason : String}

/-- The lock is taken, the state replaced and the lock released. -/
def withState (shared : SubscriberShared) (state : SubscriberState) : SubscriberShared :=
  { shared with state }

/-- The `resync_required` answer to an event the subscriber cannot place. -/
def cursorInconsistent (shared : SubscriberShared) (committedWatermark : SchemaU64) :
    Except SubscriberError (EnqueueAttempt × SubscriberShared) := do
  let head := currentHead shared.state committedWatermark
  let terminal ← (SseFrame.resyncRequired shared.runId cursorInconsistentReason head
    (retainedEarliest head)).mapError .frame
  .ok (.complete .resyncRequired, shared.withState (terminateDelivery shared.state terminal))

/-- The `delivery_gap` answer to an event that does not fit. -/
def bufferOverflow (shared : SubscriberShared) (committedWatermark : SchemaU64) :
    Except SubscriberError (EnqueueAttempt × SubscriberShared) := do
  let head := currentHead shared.state committedWatermark
  let terminal ← (SseFrame.deliveryGap shared.runId bufferOverflowReason
    shared.state.lastDeliveredSequence head).mapError .frame
  .ok (.complete .overflowed, shared.withState (terminateDelivery shared.state terminal))

/-- `SseSender::try_enqueue_event`. -/
def tryEnqueueEvent (shared : SubscriberShared) (event : CommittedEvent) (frame : SseFrame)
    (committedWatermark : SchemaU64) (mode : SendMode) :
    Except SubscriberError (EnqueueAttempt × SubscriberShared) :=
  let state := shared.state
  let limits := shared.limits
  if event.runId ≠ shared.runId then
    .error .runIdentityMismatch
  else if !state.accepting || !state.receiverOpen then
    .ok (.complete .closed, shared)
  else if committedWatermark < event.sequence || committedWatermark < state.lastEnqueuedSequence then
    shared.cursorInconsistent committedWatermark
  else if event.sequence ≤ state.lastEnqueuedSequence then
    .ok (.complete .duplicate, shared)
  else if checkedAdd u64Max state.lastEnqueuedSequence.get 1 ≠ some event.sequence.get then
    shared.cursorInconsistent committedWatermark
  else
    let eventCount := checkedAdd usizeMax state.queuedEventCount 1
    let byteCount := checkedAdd usizeMax state.queuedBytes frame.byteLen
    if exceeds eventCount limits.maxBufferedEvents || exceeds byteCount limits.maxBufferedBytes then
      if mode = .wait ∧ frame.byteLen ≤ limits.maxBufferedBytes then
        .ok (.wait, shared)
      else
        shared.bufferOverflow committedWatermark
    else
      -- both sums exist here: the source's two `expect`s
      .ok (.complete .enqueued, shared.withState
        { state with
          queuedEventCount := eventCount.getD 0
          queuedBytes := byteCount.getD 0
          lastEnqueuedSequence := event.sequence
          queue := state.queue ++ [frame] })

/-- One attempt of `SseSender::try_send_event` or of the loop of `send_replay_event`. -/
def sendEvent (shared : SubscriberShared) (event : CommittedEvent) (committedWatermark : SchemaU64)
    (mode : SendMode) : Except SubscriberError (EnqueueAttempt × SubscriberShared) :=
  shared.tryEnqueueEvent event (SseFrame.diagnosticEvent event) committedWatermark mode

/-- `SseSender::try_send_heartbeat`. -/
def trySendHeartbeat (shared : SubscriberShared) (committedWatermark : SchemaU64) :
    Except SubscriberError (DeliveryStatus × SubscriberShared) :=
  let frame := SseFrame.heartbeat shared.runId committedWatermark
  let state := shared.state
  if !state.accepting || !state.receiverOpen then
    .ok (.closed, shared)
  else if committedWatermark < state.lastEnqueuedSequence then
    .error .watermarkBehindCursor
  else if state.queue.any (·.kind == .heartbeat) ||
      exceeds (checkedAdd usizeMax state.queuedBytes frame.byteLen)
        shared.limits.maxBufferedBytes then
    .ok (.droppedControl, shared)
  else
    .ok (.enqueued, shared.withState
      { state with
        queuedBytes := state.queuedBytes + frame.byteLen
        queue := state.queue ++ [frame] })

/-- `SseSender::close`. -/
def close (shared : SubscriberShared) (reason : String) (committedWatermark : SchemaU64) :
    Except SubscriberError (DeliveryStatus × SubscriberShared) := do
  let terminal ← (SseFrame.streamClosed shared.runId reason committedWatermark).mapError .frame
  if committedWatermark < shared.state.lastEnqueuedSequence then
    .error .watermarkBehindCursor
  else if !shared.state.receiverOpen || !shared.state.accepting then
    .ok (.closed, shared)
  else
    .ok (.enqueued, shared.withState
      { shared.state with accepting := false, terminal := some terminal })

/-- `SseSender::resync_required`. -/
def resyncRequired (shared : SubscriberShared) (reason : String) (committedWatermark : SchemaU64)
    (earliestAvailableSequence : Option SchemaU64) :
    Except SubscriberError (DeliveryStatus × SubscriberShared) := do
  let terminal ← (SseFrame.resyncRequired shared.runId reason committedWatermark
    earliestAvailableSequence).mapError .frame
  if !shared.state.receiverOpen || !shared.state.accepting then
    .ok (.closed, shared)
  else
    .ok (.resyncRequired, shared.withState (terminateDelivery shared.state terminal))

/-! ## Body -/

/-- What a poll of the body answers. -/
inductive PollFrame where
  | ready (frame : SseFrame)
  | finished
  | pending
deriving DecidableEq

/-- A decrement of a `usize` counter; an underflow panics. -/
def decrement (counter amount : Nat) : Except (Fault Empty) Nat :=
  if amount ≤ counter then .ok (counter - amount)
  else .error (.panicked "attempt to subtract with overflow")

/-- The accounting of a frame that leaves the queue. -/
def accountDelivered (state : SubscriberState) (frame : SseFrame) :
    Except (Fault Empty) SubscriberState := do
  let queuedBytes ← decrement state.queuedBytes frame.byteLen
  let state := { state with firstFrameDelivered := true, queuedBytes }
  if frame.kind = .diagnosticEvent then
    let queuedEventCount ← decrement state.queuedEventCount 1
    match frame.id with
    | some id => .ok { state with queuedEventCount, lastDeliveredSequence := id }
    | none => .error (.panicked "diagnostic event frames always carry an ID")
  else
    .ok state

/-- `SseBody::poll_frame`. -/
def pollFrame (shared : SubscriberShared) : Except (Fault Empty) (PollFrame × SubscriberShared) :=
  match shared.state.queue with
  | frame :: queue => do
    let state ← accountDelivered { shared.state with queue } frame
    .ok (.ready frame, shared.withState state)
  | [] =>
    match shared.state.terminal with
    | some frame => .ok (.ready frame, shared.withState { shared.state with terminal := none })
    | none =>
      if !shared.state.accepting || !shared.state.receiverOpen then
        .ok (.finished, shared)
      else
        .ok (.pending, shared)

/-- `Drop for SseBody`. -/
def dropBody (shared : SubscriberShared) : SubscriberShared :=
  shared.withState
    { shared.state with
      receiverOpen := false
      accepting := false
      queue := []
      terminal := none
      queuedEventCount := 0
      queuedBytes := 0 }

/-! ## What each method does -/

variable {shared shared' : SubscriberShared} {event : CommittedEvent} {watermark : SchemaU64}
  {mode : SendMode}

/-- The subscriber takes frames and a body is there to read them. -/
def Live (shared : SubscriberShared) : Prop :=
  shared.state.accepting = true ∧ shared.state.receiverOpen = true

/-- An event fits: with it, what is buffered stays within both limits. -/
structure Fits (shared : SubscriberShared) (bytes : Nat) : Prop where
  events_le : shared.state.queuedEventCount + 1 ≤ shared.limits.maxBufferedEvents
  bytes_le : shared.state.queuedBytes + bytes ≤ shared.limits.maxBufferedBytes

/-- The state with a frame at the end of the queue. -/
def pushed (shared : SubscriberShared) (frame : SseFrame) (events : Nat) (last : SchemaU64) :
    SubscriberShared :=
  shared.withState
    { shared.state with
      queuedEventCount := shared.state.queuedEventCount + events
      queuedBytes := shared.state.queuedBytes + frame.byteLen
      lastEnqueuedSequence := last
      queue := shared.state.queue ++ [frame] }

/-- The answers of an attempt to send an event of the subscriber's run. -/
inductive Sent (shared : SubscriberShared) (event : CommittedEvent) (watermark : SchemaU64)
    (mode : SendMode) : EnqueueAttempt → SubscriberShared → Prop where
  | closed (dead : ¬shared.Live) : Sent shared event watermark mode (.complete .closed) shared
  | inconsistent {terminal : SseFrame} (live : shared.Live)
      (misplaced : watermark < event.sequence ∨ watermark < shared.state.lastEnqueuedSequence ∨
        shared.state.lastEnqueuedSequence.get + 1 < event.sequence.get)
      (kind : terminal.kind = .resyncRequired) (noId : terminal.id = none) :
      Sent shared event watermark mode (.complete .resyncRequired)
        (shared.withState (terminateDelivery shared.state terminal))
  | duplicate (live : shared.Live) (old : event.sequence ≤ shared.state.lastEnqueuedSequence) :
      Sent shared event watermark mode (.complete .duplicate) shared
  | waits (live : shared.Live) (waiting : mode = .wait) :
      Sent shared event watermark mode .wait shared
  | overflowed {terminal : SseFrame} {head : SchemaU64} (live : shared.Live)
      (gap : SseFrame.deliveryGap shared.runId bufferOverflowReason
        shared.state.lastDeliveredSequence head = .ok terminal) :
      Sent shared event watermark mode (.complete .overflowed)
        (shared.withState (terminateDelivery shared.state terminal))
  | enqueued (live : shared.Live)
      (next : event.sequence.get = shared.state.lastEnqueuedSequence.get + 1)
      (committed : event.sequence ≤ watermark)
      (fits : shared.Fits (SseFrame.diagnosticEvent event).byteLen) :
      Sent shared event watermark mode (.complete .enqueued)
        (shared.pushed (SseFrame.diagnosticEvent event) 1 event.sequence)

theorem exceeds_eq_false {sum : Option Nat} {limit : Nat} :
    exceeds sum limit = false ↔ ∃ total, sum = some total ∧ total ≤ limit := by
  cases sum <;> simp [exceeds]

theorem not_live_iff :
    (!shared.state.accepting || !shared.state.receiverOpen) = true ↔ ¬shared.Live := by
  unfold Live
  cases shared.state.accepting <;> cases shared.state.receiverOpen <;> decide

theorem cursorInconsistent_ok {attempt : EnqueueAttempt}
    (h : shared.cursorInconsistent watermark = .ok (attempt, shared')) :
    ∃ terminal, terminal.kind = .resyncRequired ∧ terminal.id = none ∧
      attempt = .complete .resyncRequired ∧
      shared' = shared.withState (terminateDelivery shared.state terminal) := by
  unfold cursorInconsistent at h
  rw [bind_eq_ok] at h
  obtain ⟨terminal, hterminal, h⟩ := h
  obtain ⟨hkind, hid⟩ := SseFrame.resyncRequired_kind (mapError_eq_ok.mp hterminal)
  cases h
  exact ⟨terminal, hkind, hid, rfl, rfl⟩

theorem bufferOverflow_ok {attempt : EnqueueAttempt}
    (h : shared.bufferOverflow watermark = .ok (attempt, shared')) :
    ∃ terminal head, SseFrame.deliveryGap shared.runId bufferOverflowReason
        shared.state.lastDeliveredSequence head = .ok terminal ∧
      attempt = .complete .overflowed ∧
      shared' = shared.withState (terminateDelivery shared.state terminal) := by
  unfold bufferOverflow at h
  rw [bind_eq_ok] at h
  obtain ⟨terminal, hterminal, h⟩ := h
  cases h
  exact ⟨terminal, _, mapError_eq_ok.mp hterminal, rfl, rfl⟩

theorem sendEvent_ok {attempt : EnqueueAttempt}
    (h : shared.sendEvent event watermark mode = .ok (attempt, shared')) :
    event.runId = shared.runId ∧ shared.Sent event watermark mode attempt shared' := by
  unfold sendEvent tryEnqueueEvent at h
  simp only [ite_error_eq_ok, not_not] at h
  obtain ⟨hrun, h⟩ := h
  refine ⟨hrun, ?_⟩
  split at h
  next hdead =>
    cases h
    exact .closed (not_live_iff.mp hdead)
  next hlive =>
  rw [not_live_iff, not_not] at hlive
  split at h
  next hbehind =>
    obtain ⟨terminal, hkind, hid, rfl, rfl⟩ := cursorInconsistent_ok h
    refine .inconsistent hlive ?_ hkind hid
    simp only [Bool.or_eq_true, decide_eq_true_eq] at hbehind
    exact hbehind.imp_right Or.inl
  next hbehind =>
  simp only [Bool.or_eq_true, decide_eq_true_eq, not_or, SchemaU64.lt_def, not_lt] at hbehind
  split at h
  next hold =>
    cases h
    exact .duplicate hlive hold
  next hnew =>
  rw [SchemaU64.le_def, not_le] at hnew
  split at h
  next hgap =>
    obtain ⟨terminal, hkind, hid, rfl, rfl⟩ := cursorInconsistent_ok h
    refine .inconsistent hlive (Or.inr (Or.inr ?_)) hkind hid
    by_contra hnext
    have hnext' : event.sequence.get = shared.state.lastEnqueuedSequence.get + 1 := by omega
    have hle := event.sequence.le_max
    exact hgap (checkedAdd_eq_some.mpr ⟨by omega, hnext'⟩)
  next hnext =>
  rw [not_not, checkedAdd_eq_some] at hnext
  split at h
  next hfull =>
    split at h
    next hwait =>
      cases h
      exact .waits hlive hwait.1
    next =>
      obtain ⟨terminal, head, hgap, rfl, rfl⟩ := bufferOverflow_ok h
      exact .overflowed hlive hgap
  next hroom =>
    rw [Bool.not_eq_true, Bool.or_eq_false_iff, exceeds_eq_false, exceeds_eq_false] at hroom
    obtain ⟨⟨count, hcount, hcountLe⟩, bytes, hbytes, hbytesLe⟩ := hroom
    cases h
    obtain ⟨-, rfl⟩ := checkedAdd_eq_some.mp hcount
    obtain ⟨-, rfl⟩ := checkedAdd_eq_some.mp hbytes
    rw [hcount, hbytes]
    exact .enqueued hlive hnext.2 hbehind.1 ⟨hcountLe, hbytesLe⟩

/-- The head reported is at least what was delivered. -/
theorem lastDelivered_le_currentHead (state : SubscriberState) (watermark : SchemaU64) :
    state.lastDeliveredSequence ≤ currentHead state watermark := by
  unfold currentHead
  split
  next h => exact h
  next => exact Nat.le_refl _

/-- A request to resynchronize to a head can be written for every head. -/
theorem resyncRequired_isOk (runId : CanonicalUuid)
    (hreason : reason.isEmpty = false) (head : SchemaU64) :
    ∃ frame, SseFrame.resyncRequired runId reason head (retainedEarliest head) = .ok frame := by
  have hearliest : (retainedEarliest head).any
      (fun earliest => earliest.get == 0 || head.get < earliest.get) = false := by
    unfold retainedEarliest
    split
    next => rfl
    next h =>
      have hone : (1 : SchemaU64).get = 1 := by decide
      simp only [Option.any_some, hone, Bool.or_eq_false_iff, decide_eq_false_iff_not]
      exact ⟨rfl, by omega⟩
  unfold SseFrame.resyncRequired validateReason
  simp only [hreason, hearliest, bind, Except.bind, Bool.false_eq_true, if_false]
  exact ⟨_, rfl⟩

theorem cursorInconsistent_isOk (shared : SubscriberShared) (watermark : SchemaU64) :
    ∃ result, shared.cursorInconsistent watermark = .ok result := by
  have hreason : cursorInconsistentReason.isEmpty = false := by decide
  obtain ⟨frame, hframe⟩ := resyncRequired_isOk shared.runId hreason
    (currentHead shared.state watermark)
  unfold cursorInconsistent
  simp only [hframe, Except.mapError, bind, Except.bind]
  exact ⟨_, rfl⟩

theorem bufferOverflow_isOk (shared : SubscriberShared) (watermark : SchemaU64) :
    ∃ result, shared.bufferOverflow watermark = .ok result := by
  have hframe : SseFrame.deliveryGap shared.runId bufferOverflowReason
      shared.state.lastDeliveredSequence (currentHead shared.state watermark) = .ok _ :=
    SseFrame.deliveryGap_eq_ok.mpr
      ⟨by decide, lastDelivered_le_currentHead shared.state watermark, rfl⟩
  unfold bufferOverflow
  simp only [hframe, Except.mapError, bind, Except.bind]
  exact ⟨_, rfl⟩

/-- Only an event of another run is refused with an error. -/
theorem sendEvent_isOk (shared : SubscriberShared) (hrun : event.runId = shared.runId)
    (watermark : SchemaU64) (mode : SendMode) : ∃ result, shared.sendEvent event watermark mode = .ok result := by
  unfold sendEvent tryEnqueueEvent
  simp only [hrun, ne_eq, not_true_eq_false, if_false]
  split
  next => exact ⟨_, rfl⟩
  split
  next => exact cursorInconsistent_isOk shared watermark
  split
  next => exact ⟨_, rfl⟩
  split
  next => exact cursorInconsistent_isOk shared watermark
  split
  next =>
    split
    next => exact ⟨_, rfl⟩
    next => exact bufferOverflow_isOk shared watermark
  next => exact ⟨_, rfl⟩

theorem trySendHeartbeat_ok {status : DeliveryStatus}
    (h : shared.trySendHeartbeat watermark = .ok (status, shared')) :
    shared' = shared ∨
      shared.Live ∧
        shared.state.queuedBytes + (SseFrame.heartbeat shared.runId watermark).byteLen ≤
          shared.limits.maxBufferedBytes ∧
        shared' = shared.pushed (SseFrame.heartbeat shared.runId watermark) 0
          shared.state.lastEnqueuedSequence := by
  unfold trySendHeartbeat at h
  simp only at h
  split at h
  next =>
    cases h
    exact Or.inl rfl
  next hlive =>
  rw [not_live_iff, not_not] at hlive
  rw [ite_error_eq_ok] at h
  obtain ⟨-, h⟩ := h
  split at h
  next =>
    cases h
    exact Or.inl rfl
  next hroom =>
    rw [Bool.not_eq_true, Bool.or_eq_false_iff, exceeds_eq_false] at hroom
    obtain ⟨-, bytes, hbytes, hbytesLe⟩ := hroom
    obtain ⟨-, rfl⟩ := checkedAdd_eq_some.mp hbytes
    cases h
    exact Or.inr ⟨hlive, hbytesLe, rfl⟩

theorem close_ok {status : DeliveryStatus}
    (h : shared.close reason watermark = .ok (status, shared')) :
    (status = .closed ∧ ¬shared.Live ∧ shared' = shared) ∨
      (status = .enqueued ∧ shared.Live ∧ ∃ terminal,
        SseFrame.streamClosed shared.runId reason watermark = .ok terminal ∧
        shared' = shared.withState
          { shared.state with accepting := false, terminal := some terminal }) := by
  unfold close at h
  rw [bind_eq_ok] at h
  obtain ⟨terminal, hterminal, h⟩ := h
  rw [ite_error_eq_ok] at h
  obtain ⟨-, h⟩ := h
  rw [Bool.or_comm] at h
  split at h
  next hdead =>
    cases h
    exact Or.inl ⟨rfl, not_live_iff.mp hdead, rfl⟩
  next hlive =>
    rw [not_live_iff, not_not] at hlive
    cases h
    exact Or.inr ⟨rfl, hlive, terminal, mapError_eq_ok.mp hterminal, rfl⟩

theorem resyncRequired_ok {earliest : Option SchemaU64} {status : DeliveryStatus}
    (h : shared.resyncRequired reason watermark earliest = .ok (status, shared')) :
    (status = .closed ∧ ¬shared.Live ∧ shared' = shared) ∨
      (status = .resyncRequired ∧ shared.Live ∧ ∃ terminal,
        SseFrame.resyncRequired shared.runId reason watermark earliest = .ok terminal ∧
        shared' = shared.withState (terminateDelivery shared.state terminal)) := by
  unfold resyncRequired at h
  rw [bind_eq_ok] at h
  obtain ⟨terminal, hterminal, h⟩ := h
  rw [Bool.or_comm] at h
  split at h
  next hdead =>
    cases h
    exact Or.inl ⟨rfl, not_live_iff.mp hdead, rfl⟩
  next hlive =>
    rw [not_live_iff, not_not] at hlive
    cases h
    exact Or.inr ⟨rfl, hlive, terminal, mapError_eq_ok.mp hterminal, rfl⟩

/-- A request to resynchronize fails only when it cannot be written. -/
theorem resyncRequired_error {earliest : Option SchemaU64}
    {error : SubscriberError}
    (h : shared.resyncRequired reason watermark earliest = .error error) :
    ∃ e, error = .frame e := by
  unfold resyncRequired at h
  cases hframe : SseFrame.resyncRequired shared.runId reason watermark earliest with
  | error e =>
    simp only [hframe, Except.mapError, bind, Except.bind, Except.error.injEq] at h
    exact ⟨e, h.symm⟩
  | ok frame =>
    simp only [hframe, Except.mapError, bind, Except.bind] at h
    split at h <;> cases h

/-- So does a close at a watermark that covers what was enqueued. -/
theorem close_error {error : SubscriberError}
    (hwatermark : shared.state.lastEnqueuedSequence.get ≤ watermark.get)
    (h : shared.close reason watermark = .error error) : ∃ e, error = .frame e := by
  have hcovers : ¬watermark < shared.state.lastEnqueuedSequence := Nat.not_lt.mpr hwatermark
  unfold close at h
  cases hframe : SseFrame.streamClosed shared.runId reason watermark with
  | error e =>
    simp only [hframe, Except.mapError, bind, Except.bind, Except.error.injEq] at h
    exact ⟨e, h.symm⟩
  | ok frame =>
    simp only [hframe, Except.mapError, bind, Except.bind, if_neg hcovers] at h
    split at h <;> cases h

/-- A heartbeat at such a watermark never fails. -/
theorem trySendHeartbeat_isOk
    (hwatermark : shared.state.lastEnqueuedSequence.get ≤ watermark.get) :
    ∃ result, shared.trySendHeartbeat watermark = .ok result := by
  have hcovers : ¬watermark < shared.state.lastEnqueuedSequence := Nat.not_lt.mpr hwatermark
  unfold trySendHeartbeat
  simp only [if_neg hcovers]
  split
  next => exact ⟨_, rfl⟩
  split
  next => exact ⟨_, rfl⟩
  next => exact ⟨_, rfl⟩

end SubscriberShared

end Troupe.Server
