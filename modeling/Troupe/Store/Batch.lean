import Troupe.Core.Accepted

/-! # Batches and watermarks

`EventBatch` and `BatchAccumulator` of `batch.rs`, and `CommittedWatermark` of `watermark.rs`.

* An `EventBatch` carries that it is nonempty, so `first` and `last` are total; an accumulator
  carries that an oldest time is set only while something is pending, so `take` always has events.
* A `Duration` is its nanoseconds.
* A `SortableU64Key` is the number it stores. -/

namespace Troupe.Store

open Troupe.Core Troupe.Lib

/-- `MAX_BATCH_AGE`, 25 ms. -/
def maxBatchAge : Nat := 25000000
/-- `MAX_BATCH_EVENTS`. -/
def maxBatchEvents : Nat := 512
/-- `MAX_BATCH_CANONICAL_BYTES`. -/
def maxBatchCanonicalBytes : Nat := 1024 * 1024

/-- `BatchError`. -/
inductive BatchError where
  | empty
  | runIdentityMismatch (expected actual : CanonicalUuid)
  | nonCanonicalSequence (expected actual : Nat)
  | sequenceExhausted
  | canonicalByteCountOverflow
  | clockRegressed
deriving DecidableEq

/-! ## Batches -/

/-- `EventBatch`. -/
structure EventBatch where
  events : List AcceptedDiagnosticEvent
  canonicalBytes : Nat
  /-- A batch is never empty. -/
  nonempty : events ≠ []

/-- The check that one event follows another of the same batch. -/
def followsInBatch (runId : CanonicalUuid) (previous : Option Nat)
    (event : AcceptedDiagnosticEvent) : Except BatchError Unit :=
  if event.runId ≠ runId then
    .error (.runIdentityMismatch runId event.runId)
  else
    match previous with
    | none => .ok ()
    | some previous =>
      match checkedAdd u64Max previous 1 with
      | none => .error .sequenceExhausted
      | some expected =>
        if event.sequence ≠ expected then
          .error (.nonCanonicalSequence expected event.sequence)
        else
          .ok ()

/-- The loop of `EventBatch::new`: the canonical byte count of a well-formed batch. -/
def measureBatch (runId : CanonicalUuid) (previous : Option Nat) (canonicalBytes : Nat) :
    List AcceptedDiagnosticEvent → Except BatchError Nat
  | [] => .ok canonicalBytes
  | event :: rest => do
    followsInBatch runId previous event
    match checkedAdd usizeMax canonicalBytes event.canonicalBytes.length with
    | none => .error .canonicalByteCountOverflow
    | some canonicalBytes => measureBatch runId (some event.sequence) canonicalBytes rest

namespace EventBatch

/-- `EventBatch::new`. -/
def new (events : List AcceptedDiagnosticEvent) : Except BatchError EventBatch :=
  match events with
  | [] => .error .empty
  | first :: rest => do
    let canonicalBytes ← measureBatch first.runId none 0 (first :: rest)
    .ok ⟨first :: rest, canonicalBytes, List.cons_ne_nil _ _⟩

/-- `EventBatch::first`. -/
def first (batch : EventBatch) : AcceptedDiagnosticEvent := batch.events.head batch.nonempty

/-- `EventBatch::last`. -/
def last (batch : EventBatch) : AcceptedDiagnosticEvent := batch.events.getLast batch.nonempty

/-- `EventBatch::run_id`. -/
def runId (batch : EventBatch) : CanonicalUuid := batch.first.runId

/-- `EventBatch::event_count`. -/
def eventCount (batch : EventBatch) : Nat := batch.events.length

end EventBatch

/-! ## Accumulation -/

/-- `BatchTrigger`. -/
inductive BatchTrigger where
  | oldestAge
  | eventCount
  | canonicalBytes
  | explicitFlush
deriving DecidableEq

/-- `TriggeredBatch`. -/
structure TriggeredBatch where
  batch : EventBatch
  trigger : BatchTrigger

/-- `BatchAccumulator`. -/
structure BatchAccumulator where
  pending : List AcceptedDiagnosticEvent
  pendingBytes : Nat
  oldestAt : Option Nat
  lastObservedAt : Option Nat
  lastSequence : Option Nat
  runId : Option CanonicalUuid
  /-- An oldest time belongs to a pending event. -/
  oldest_pending : oldestAt.isSome → pending ≠ []

namespace BatchAccumulator

/-- `BatchAccumulator::new`. -/
def new : BatchAccumulator := ⟨[], 0, none, none, none, none, by simp⟩

/-- `observe_time`: the answer, and the accumulator left behind. -/
def observeTime (accumulator : BatchAccumulator) (now : Nat) :
    Except BatchError Unit × BatchAccumulator :=
  if accumulator.lastObservedAt.any (now < ·) then
    (.error .clockRegressed, accumulator)
  else
    (.ok (), { accumulator with lastObservedAt := some now })

/-- `validate_next`. -/
def validateNext (accumulator : BatchAccumulator) (event : AcceptedDiagnosticEvent) :
    Except BatchError Unit :=
  match accumulator.runId with
  | some runId => followsInBatch runId accumulator.lastSequence event
  | none => followsInBatch event.runId accumulator.lastSequence event

/-- `oldest_is_due`. -/
def oldestIsDue (accumulator : BatchAccumulator) (now : Nat) : Bool :=
  accumulator.oldestAt.any fun oldest => maxBatchAge ≤ now - oldest

/-- `take`. -/
def take (accumulator : BatchAccumulator) (trigger : BatchTrigger) (h : accumulator.pending ≠ []) :
    TriggeredBatch × BatchAccumulator :=
  (⟨⟨accumulator.pending, accumulator.pendingBytes, h⟩, trigger⟩,
    { accumulator with
      pending := []
      pendingBytes := 0
      oldestAt := none
      oldest_pending := by simp })

/-- The state of `push` once the event is appended. -/
def append (accumulator : BatchAccumulator) (event : AcceptedDiagnosticEvent) (now : Nat)
    (pendingBytes : Nat) : BatchAccumulator where
  pending := accumulator.pending ++ [event]
  pendingBytes := pendingBytes
  oldestAt := some (accumulator.oldestAt.getD now)
  lastObservedAt := accumulator.lastObservedAt
  lastSequence := some event.sequence
  runId := some event.runId
  oldest_pending := by simp

/-- The trigger of `push`, in the order it is tried. -/
def pushTrigger (accumulator : BatchAccumulator) (now : Nat) : Option BatchTrigger :=
  if accumulator.oldestIsDue now then some .oldestAge
  else if maxBatchEvents ≤ accumulator.pending.length then some .eventCount
  else if maxBatchCanonicalBytes ≤ accumulator.pendingBytes then some .canonicalBytes
  else none

/-- `push`. -/
def push (accumulator : BatchAccumulator) (event : AcceptedDiagnosticEvent) (now : Nat) :
    Except BatchError (Option TriggeredBatch) × BatchAccumulator :=
  match accumulator.validateNext event with
  | .error error => (.error error, accumulator)
  | .ok () =>
    match accumulator.observeTime now with
    | (.error error, accumulator) => (.error error, accumulator)
    | (.ok (), accumulator) =>
      match checkedAdd usizeMax accumulator.pendingBytes event.canonicalBytes.length with
      | none => (.error .canonicalByteCountOverflow, accumulator)
      | some pendingBytes =>
        let appended := accumulator.append event now pendingBytes
        match appended.pushTrigger now with
        | none => (.ok none, appended)
        | some trigger =>
          let taken := appended.take trigger (by simp [appended, append])
          (.ok (some taken.1), taken.2)

/-- `poll`. -/
def poll (accumulator : BatchAccumulator) (now : Nat) :
    Except BatchError (Option TriggeredBatch) × BatchAccumulator :=
  match accumulator.observeTime now with
  | (.error error, accumulator) => (.error error, accumulator)
  | (.ok (), accumulator) =>
    if h : accumulator.oldestIsDue now then
      let taken := accumulator.take .oldestAge (accumulator.oldest_pending (by
        unfold oldestIsDue at h
        cases holdest : accumulator.oldestAt <;> simp_all))
      (.ok (some taken.1), taken.2)
    else
      (.ok none, accumulator)

/-- `flush`. -/
def flush (accumulator : BatchAccumulator) :
    Except BatchError (Option TriggeredBatch) × BatchAccumulator :=
  if h : accumulator.pending = [] then
    (.ok none, accumulator)
  else
    let taken := accumulator.take .explicitFlush h
    (.ok (some taken.1), taken.2)

/-! ### What a call does to the pending events -/

/-- A call that should leave `events` in its batch and the accumulator together: a failure leaves
what was there `before`. -/
def Yields (before events : List AcceptedDiagnosticEvent) :
    Except BatchError (Option TriggeredBatch) × BatchAccumulator → Prop
  | (.error _, accumulator) => accumulator.pending = before
  | (.ok none, accumulator) => accumulator.pending = events
  | (.ok (some triggered), accumulator) =>
    triggered.batch.events = events ∧ accumulator.pending = []

theorem observeTime_pending (accumulator : BatchAccumulator) (now : Nat) :
    (accumulator.observeTime now).2.pending = accumulator.pending := by
  unfold observeTime
  split <;> rfl

theorem push_yields (accumulator : BatchAccumulator) (event : AcceptedDiagnosticEvent) (now : Nat) :
    Yields accumulator.pending (accumulator.pending ++ [event]) (accumulator.push event now) := by
  unfold push
  cases accumulator.validateNext event with
  | error error => rfl
  | ok _ =>
    have hpending := accumulator.observeTime_pending now
    generalize accumulator.observeTime now = result at hpending ⊢
    obtain ⟨answer, observed⟩ := result
    cases answer with
    | error error => exact hpending
    | ok _ =>
      dsimp only at hpending ⊢
      cases checkedAdd usizeMax observed.pendingBytes event.canonicalBytes.length with
      | none => exact hpending
      | some pendingBytes =>
        have happended : (observed.append event now pendingBytes).pending =
            accumulator.pending ++ [event] := by
          rw [← hpending]
          rfl
        dsimp only
        cases (observed.append event now pendingBytes).pushTrigger now with
        | none => exact happended
        | some trigger => exact ⟨happended, rfl⟩

theorem poll_yields (accumulator : BatchAccumulator) (now : Nat) :
    Yields accumulator.pending accumulator.pending (accumulator.poll now) := by
  unfold poll
  have hpending := accumulator.observeTime_pending now
  generalize accumulator.observeTime now = result at hpending ⊢
  obtain ⟨answer, observed⟩ := result
  cases answer with
  | error error => exact hpending
  | ok _ =>
    dsimp only at hpending ⊢
    split
    · exact ⟨hpending, rfl⟩
    · exact hpending

theorem flush_yields (accumulator : BatchAccumulator) :
    Yields accumulator.pending accumulator.pending accumulator.flush := by
  unfold flush
  split
  · rfl
  · exact ⟨rfl, rfl⟩

end BatchAccumulator

/-! ## The committed watermark -/

/-- `CommitNotification`. -/
structure CommitNotification where
  runId : CanonicalUuid
  previous : Nat
  committed : Nat
  eventCount : Nat
  canonicalBytes : Nat
deriving DecidableEq

/-- `CommittedWatermark`. -/
structure CommittedWatermark where
  runId : CanonicalUuid
  value : Nat
deriving DecidableEq

/-- `WatermarkError`. -/
inductive WatermarkError where
  | runIdentityMismatch (expected actual : CanonicalUuid)
  | nonCanonicalSequence (expected actual : Nat)
  | staleCandidate (expected actual : Nat)
  | sequenceExhausted
deriving DecidableEq

namespace CommittedWatermark

/-- `CommittedWatermark::fresh`. -/
def fresh (runId : CanonicalUuid) : CommittedWatermark := ⟨runId, 0⟩

/-- `CommittedWatermark::candidate`. -/
def candidate (watermark : CommittedWatermark) (batch : EventBatch) :
    Except WatermarkError CommitNotification :=
  if batch.runId ≠ watermark.runId then
    .error (.runIdentityMismatch watermark.runId batch.runId)
  else
    match checkedAdd u64Max watermark.value 1 with
    | none => .error .sequenceExhausted
    | some expected =>
      if batch.first.sequence ≠ expected then
        .error (.nonCanonicalSequence expected batch.first.sequence)
      else
        .ok ⟨watermark.runId, watermark.value, batch.last.sequence, batch.eventCount,
          batch.canonicalBytes⟩

/-- `CommittedWatermark::advance`. -/
def advance (watermark : CommittedWatermark) (notification : CommitNotification) :
    Except WatermarkError CommittedWatermark :=
  if notification.runId ≠ watermark.runId then
    .error (.runIdentityMismatch watermark.runId notification.runId)
  else if notification.previous ≠ watermark.value then
    .error (.staleCandidate watermark.value notification.previous)
  else
    .ok { watermark with value := notification.committed }

end CommittedWatermark

end Troupe.Store
