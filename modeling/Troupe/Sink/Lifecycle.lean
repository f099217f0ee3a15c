import Troupe.Core.Scalar
import Troupe.Sink.Conservation

/-! # The lifecycle of one sink

`seal.rs`, `summary.rs`, `dispatcher.rs` and the driver of `callback.rs`: producers enqueue events,
one `_drive_sink` task hands them to the callback, `seal` ends admission, and `try_close_drained` or
`close_for_runtime_shutdown` latches the delivery summary.

* Threads interleave at every atomic access: a call is a request with a stage, and a step does the
  access that is next at that stage. Memory orders are not modelled. A call that returned stays
  in its list, with its answer.
* The queue is the `TrackedQueue` of the conservation module, and a step under its lock is a
  `QueueStep`. A `try_lock` may find the lock taken at any time.
* `active_enqueues` counts stack frames, so it is a `Nat` here. `delivered_events` wraps.
* The event loop of the driver runs one task at a time, so between two `await`s only other threads
  interleave; `cancelPending` is the cancellation that the next `await` will raise.
* The loads of `delivery_progress` and `latch_summary` are steps of their own. The ledger is read in
  one step.
* `succeeded`, `failed` and `latchedBy` are history: the events whose callback completed after it
  returned `None`, those after it did not, and the call that latched the summary. -/

namespace Troupe.Sink

open Relation (ReflTransGen)
open Troupe.Core Troupe.Lib

/-! ## Data -/

/-- The values of `SinkLifecycle::phase`. -/
inductive SinkPhase where
  | opened
  | sealing
  | sealed
  | closing
  | closed
deriving DecidableEq

/-- `ActOutcome`. -/
inductive ActOutcome where
  | completed
  | cancelled
  | failed
deriving DecidableEq

/-- `SinkSealCause`. -/
inductive SinkSealCause where
  | actFinished
  | runtimeShutdown
deriving DecidableEq

/-- `SinkCloseReason`. -/
inductive SinkCloseReason where
  | actFinished
  | callbackFailed
  | deliveryOverflow
  | runtimeShutdown
deriving DecidableEq

/-- `SinkSealFacts`. -/
structure SinkSealFacts where
  cause : SinkSealCause
  actOutcome : Option ActOutcome
  /-- Built by `act_finished` or `runtime_shutdown`. -/
  outcome_some : cause = .actFinished → actOutcome.isSome
deriving DecidableEq

/-- `SinkSealFacts::nominal_close_reason`. -/
def SinkSealFacts.nominalCloseReason (facts : SinkSealFacts) : SinkCloseReason :=
  match facts.cause with
  | .actFinished => .actFinished
  | .runtimeShutdown => .runtimeShutdown

/-- `SinkSealError`. -/
inductive SinkSealError where
  | terminalNotAccounted
  | alreadySealed
deriving DecidableEq

/-- `SinkEnqueueRejection`. -/
inductive SinkEnqueueRejection where
  | sealed
  | closed
deriving DecidableEq

/-- `enqueue_rejection`; `none` is its `unreachable!`. -/
def enqueueRejection : SinkPhase → Option SinkEnqueueRejection
  | .opened => none
  | .sealing | .sealed => some .sealed
  | .closing | .closed => some .closed

/-- `CallbackFailureKind`. -/
inductive CallbackFailureKind where
  | raised
  | invalidReturn
deriving DecidableEq

/-- `CallbackFailure`. -/
structure CallbackFailure where
  kind : CallbackFailureKind
  eventSequence : Nat
  exceptionType : Option String
  message : Option String
  messageTruncated : Bool
deriving DecidableEq

/-- `CallbackFailure::invalid_return`. -/
def CallbackFailure.invalidReturn (eventSequence : Nat) : CallbackFailure :=
  ⟨.invalidReturn, eventSequence, none, none, false⟩

/-- `UnexpectedDispatcherFailure`. -/
structure UnexpectedDispatcherFailure where
  stage : String
  detail : String
deriving DecidableEq

/-- `DispatchEvent`. -/
structure DispatchEvent (V : Type) where
  sequence : Nat
  value : V
  /-- "diagnostic callback sequence must be nonzero". -/
  sequence_ne : sequence ≠ 0

/-- `DropCounter::snapshot`. -/
def DropCounter.snapshot (counter : DropCounter) (kind : DiagnosticEventKind) : Option DropDelta :=
  if counter.events ≠ 0 ∨ counter.encodedBytes ≠ 0 then
    some ⟨kind, counter.events, counter.encodedBytes⟩
  else none

/-- `DiagnosticEventKind::ALL`. -/
def eventKinds : List DiagnosticEventKind :=
  [.spanStarted, .spanFinished, .instantOccurred, .counterSampled, .agentMessageDelta,
    .agentMessageCompleted, .agentPlanSnapshot, .contextUsageSampled, .actTokenUsageFinalized,
    .observationGap, .customSpanStarted, .customSpanFinished, .customInstantOccurred,
    .customCounterSampled]

/-- `DropLedger::snapshot`. -/
def DropLedger.snapshot (ledger : DropLedger) : List DropDelta :=
  eventKinds.filterMap fun kind => (ledger.byKind kind).snapshot kind

/-- `SinkDeliverySummary`; a `SinkDropCount` has the fields of a `DropDelta`. -/
structure SinkDeliverySummary where
  runId : CanonicalUuid
  actId : RunLocalId
  actOutcome : Option ActOutcome
  closeReason : SinkCloseReason
  complete : Bool
  deliveredEvents : Nat
  firstDeliveredSequence : Option Nat
  lastDeliveredSequence : Option Nat
  droppedEvents : Nat
  droppedBytes : Nat
  droppedByKind : List DropDelta
  sourceGaps : Nat
  truncatedPayloads : Nat
  callbackFailure : Option CallbackFailure
  callbackAbandoned : Bool
deriving DecidableEq

/-- What `latch_summary` reads for the summary. -/
structure DeliveryFacts where
  actOutcome : Option ActOutcome
  deliveredEvents : Nat
  firstDeliveredSequence : Nat
  lastDeliveredSequence : Nat
  drops : List DropDelta
  sourceGaps : Nat
  truncatedPayloads : Nat
  callbackFailure : Option CallbackFailure
  unexpectedFailure : Option UnexpectedDispatcherFailure
deriving DecidableEq

/-- Nothing is read yet. -/
def DeliveryFacts.unread : DeliveryFacts := ⟨none, 0, 0, 0, [], 0, 0, none, none⟩

/-- `SinkDeliverySummary::from_delivery_facts`. -/
def SinkDeliverySummary.fromDeliveryFacts (runId : CanonicalUuid) (actId : RunLocalId)
    (nominalCloseReason : SinkCloseReason) (callbackAbandoned : Bool) (facts : DeliveryFacts) :
    SinkDeliverySummary :=
  let closeReason :=
    if facts.callbackFailure.isSome then .callbackFailed else nominalCloseReason
  let callbackAbandoned := callbackAbandoned && facts.callbackFailure.isNone
  let droppedEvents :=
    facts.drops.foldl (fun total count => saturatingAdd usizeMax total count.events) 0
  let droppedBytes :=
    facts.drops.foldl (fun total count => saturatingAdd usizeMax total count.encodedBytes) 0
  { runId, actId
    actOutcome := facts.actOutcome
    closeReason
    complete := closeReason = .actFinished ∧ droppedEvents = 0 ∧ facts.sourceGaps = 0 ∧
      facts.truncatedPayloads = 0 ∧ facts.callbackFailure.isNone ∧ ¬callbackAbandoned ∧
      ¬facts.unexpectedFailure.isSome
    deliveredEvents := facts.deliveredEvents
    firstDeliveredSequence :=
      if facts.firstDeliveredSequence ≠ 0 then some facts.firstDeliveredSequence else none
    lastDeliveredSequence :=
      if facts.lastDeliveredSequence ≠ 0 then some facts.lastDeliveredSequence else none
    droppedEvents, droppedBytes
    droppedByKind := facts.drops
    sourceGaps := facts.sourceGaps
    truncatedPayloads := facts.truncatedPayloads
    callbackFailure := facts.callbackFailure
    callbackAbandoned }

/-- `try_close_drained`, and `close_for_runtime_shutdown` with its argument. -/
inductive CloseRequest where
  | drained
  | runtimeShutdown (callbackAbandoned : Bool)
deriving DecidableEq

/-- The callback is reported as abandoned. -/
def CloseRequest.callbackAbandoned : CloseRequest → Bool
  | .drained => false
  | .runtimeShutdown callbackAbandoned => callbackAbandoned

/-! ## Queue calls with history -/

section History

variable {T : Type}

/-- `try_discard_queued` with the lock. -/
def TrackedQueue.discardQueued (q : TrackedQueue T) (budget : RuntimeBudget) :
    Except QueueAccessError (List DropDelta) × TrackedQueue T × RuntimeBudget :=
  let (answer, queue, budget) := q.queue.discardQueuedLocked budget
  (answer,
    { q with
      queue
      dropped := if answer.isOk then q.dropped ++ q.queue.state.queued else q.dropped },
    budget)

/-- `try_complete_callback` with the lock. -/
def TrackedQueue.completeCallback (q : TrackedQueue T) (budget : RuntimeBudget) (ticket : Nat) :
    Except QueueAccessError Unit × TrackedQueue T × RuntimeBudget :=
  let (answer, queue, budget) := q.queue.tryCompleteCallback budget ticket
  (answer,
    { q with
      queue
      inCallback := if answer.isOk then none else q.inCallback
      delivered := if answer.isOk then q.delivered ++ q.inCallback.toList else q.delivered },
    budget)

end History

/-! ## Shared state -/

/-- The fields of `SinkLifecycle` that seals and closes write. -/
structure GateState where
  phase : SinkPhase
  sealFacts : Option SinkSealFacts
  summary : Option SinkDeliverySummary
  latchedBy : Option CloseRequest

/-- The fields of `SinkLifecycle` and `SinkDispatchState` that producers write. -/
structure ProducerState where
  activeEnqueues : Nat
  terminalAccounted : Bool
  sourceGaps : Nat
  truncatedPayloads : Nat
  lastEnqueuedSequence : Nat

/-- The fields of `SinkDispatchState` that the driver writes. -/
structure DeliveryState (V : Type) where
  callbackFailure : Option CallbackFailure
  deliverySettling : Bool
  runtimeCancelRequested : Bool
  deliveredEvents : Nat
  firstDeliveredSequence : Nat
  lastDeliveredSequence : Nat
  succeeded : List (QueueEvent (DispatchEvent V))
  failed : List (QueueEvent (DispatchEvent V))

/-- `SinkLifecycle` with the `SinkDispatchState` and the queue it uses. -/
structure SinkState (V : Type) where
  runId : CanonicalUuid
  actId : RunLocalId
  gate : GateState
  producers : ProducerState
  delivery : DeliveryState V
  unexpectedFailure : Option UnexpectedDispatcherFailure
  queue : TrackedQueue (DispatchEvent V)
  budget : RuntimeBudget

variable {V : Type}

namespace SinkState

/-- `SinkDispatchState::is_stopped`. -/
def isStopped (s : SinkState V) : Bool :=
  s.delivery.callbackFailure.isSome || s.unexpectedFailure.isSome

/-- `record_callback_failure`: the first one stays. -/
def recordCallbackFailure (s : SinkState V) (failure : CallbackFailure) : SinkState V :=
  { s with delivery.callbackFailure := some (s.delivery.callbackFailure.getD failure) }

/-- `record_unexpected_failure`: the first one stays. -/
def recordUnexpectedFailure (s : SinkState V) (stage detail : String) : SinkState V :=
  { s with unexpectedFailure := some (s.unexpectedFailure.getD ⟨stage, detail⟩) }

/-- `record_enqueue_sequence`. -/
def recordEnqueueSequence (s : SinkState V) (sequence : Nat) : SinkState V :=
  if s.producers.lastEnqueuedSequence < sequence then
    { s with producers.lastEnqueuedSequence := sequence }
  else
    s.recordUnexpectedFailure "enqueue_sequence"
      "diagnostic sink event sequence is not strictly increasing"

/-- The queue and the budget after a step under the lock. -/
def withQueue (s : SinkState V) (queue : TrackedQueue (DispatchEvent V)) (budget : RuntimeBudget) :
    SinkState V :=
  { s with queue, budget }

/-- The state after `try_discard_queued`. -/
def discardQueued (s : SinkState V) : SinkState V :=
  s.withQueue (s.queue.discardQueued s.budget).2.1 (s.queue.discardQueued s.budget).2.2

end SinkState

/-! ## Calls -/

/-- `try_enqueue`, `try_enqueue_terminal`, `record_source_gaps`, `record_truncated_payloads`. -/
inductive EnqueueRequest (V : Type) where
  | event (event : QueueEvent (DispatchEvent V))
  | terminal (event : QueueEvent (DispatchEvent V))
      (structural : event.metadata.admissionClass = .structural)
  | sourceGaps (count : Nat)
  | truncatedPayloads (count : Nat)

/-- The event of the request. -/
def EnqueueRequest.event? : EnqueueRequest V → Option (QueueEvent (DispatchEvent V))
  | .event carried => some carried
  | .terminal carried _ => some carried
  | .sourceGaps _ | .truncatedPayloads _ => none

/-- The request is the terminal event. -/
def EnqueueRequest.isTerminal : EnqueueRequest V → Bool
  | .terminal _ _ => true
  | _ => false

/-- How far an enqueue got. -/
inductive EnqueueStage where
  /-- Before the first load of the phase. -/
  | entering
  /-- The phase was `OPEN`. -/
  | phaseOpen
  /-- The terminal event was not accounted. -/
  | unaccounted
  /-- `active_enqueues` counts the call. -/
  | counted
  /-- The phase was `OPEN` again. -/
  | recounted
  /-- `begin_enqueue` succeeded. -/
  | admitted
  /-- `terminal_accounted` was exchanged. -/
  | claimed
  /-- `record_enqueue_sequence` is done. -/
  | sequenced
  /-- `try_admit` holds the queue's lock. -/
  | admitting
  /-- `try_admit` returned. -/
  | offered (outcome : AdmissionOutcome)
  /-- Only the guard is left. -/
  | leaving (outcome : Option AdmissionOutcome)
  /-- The guard is left, with a rejection. -/
  | rejecting (rejection : SinkEnqueueRejection)
  | returned (answer : Except SinkEnqueueRejection (Option AdmissionOutcome))
  | panicked
deriving DecidableEq

/-- A call of a producer. -/
structure EnqueueCall (V : Type) where
  request : EnqueueRequest V
  stage : EnqueueStage

/-- The stage after a part of `try_admit`. -/
def EnqueueStage.afterAdmit {T : Type} : AdmitProgress T → EnqueueStage
  | .returned outcome _ _ => .offered outcome
  | .looping _ => .admitting
  | .panicked _ => .panicked

/-- One step of a producer's call. -/
inductive EnqueueStep (s : SinkState V) : EnqueueCall V → SinkState V → EnqueueCall V → Prop
  | loadPhase {request : EnqueueRequest V} (opened : s.gate.phase = .opened) :
      EnqueueStep s ⟨request, .entering⟩ s ⟨request, .phaseOpen⟩
  | refusePhase {request : EnqueueRequest V} {rejection : SinkEnqueueRejection}
      (refused : enqueueRejection s.gate.phase = some rejection) :
      EnqueueStep s ⟨request, .entering⟩ s ⟨request, .returned (.error rejection)⟩
  | loadTerminal {request : EnqueueRequest V}
      (unaccounted : s.producers.terminalAccounted = false) :
      EnqueueStep s ⟨request, .phaseOpen⟩ s ⟨request, .unaccounted⟩
  | refuseTerminal {request : EnqueueRequest V} (accounted : s.producers.terminalAccounted = true) :
      EnqueueStep s ⟨request, .phaseOpen⟩ s ⟨request, .returned (.error .sealed)⟩
  | count {request : EnqueueRequest V} :
      EnqueueStep s ⟨request, .unaccounted⟩
        { s with producers.activeEnqueues := s.producers.activeEnqueues + 1 } ⟨request, .counted⟩
  | reloadPhase {request : EnqueueRequest V} (opened : s.gate.phase = .opened) :
      EnqueueStep s ⟨request, .counted⟩ s ⟨request, .recounted⟩
  | rejectPhase {request : EnqueueRequest V} {rejection : SinkEnqueueRejection}
      (refused : enqueueRejection s.gate.phase = some rejection) :
      EnqueueStep s ⟨request, .counted⟩ s ⟨request, .rejecting rejection⟩
  | reloadTerminal {request : EnqueueRequest V}
      (unaccounted : s.producers.terminalAccounted = false) :
      EnqueueStep s ⟨request, .recounted⟩ s ⟨request, .admitted⟩
  | rejectTerminal {request : EnqueueRequest V} (accounted : s.producers.terminalAccounted = true) :
      EnqueueStep s ⟨request, .recounted⟩ s ⟨request, .rejecting .sealed⟩
  /-- The exchange of `try_enqueue_terminal`. -/
  | claim {request : EnqueueRequest V} (terminal : request.isTerminal = true)
      (unaccounted : s.producers.terminalAccounted = false) :
      EnqueueStep s ⟨request, .admitted⟩ { s with producers.terminalAccounted := true }
        ⟨request, .claimed⟩
  | rejectClaim {request : EnqueueRequest V} (terminal : request.isTerminal = true)
      (accounted : s.producers.terminalAccounted = true) :
      EnqueueStep s ⟨request, .admitted⟩ s ⟨request, .rejecting .sealed⟩
  | recordSourceGaps {count : Nat} :
      EnqueueStep s ⟨.sourceGaps count, .admitted⟩
        { s with producers.sourceGaps := saturatingAdd usizeMax s.producers.sourceGaps count }
        ⟨.sourceGaps count, .leaving none⟩
  | recordTruncatedPayloads {count : Nat} :
      EnqueueStep s ⟨.truncatedPayloads count, .admitted⟩
        { s with
          producers.truncatedPayloads :=
            saturatingAdd usizeMax s.producers.truncatedPayloads count }
        ⟨.truncatedPayloads count, .leaving none⟩
  | sequence {request : EnqueueRequest V} {stage : EnqueueStage}
      {event : QueueEvent (DispatchEvent V)} (carries : request.event? = some event)
      (ready : stage = if request.isTerminal then .claimed else .admitted) :
      EnqueueStep s ⟨request, stage⟩ (s.recordEnqueueSequence event.item.sequence)
        ⟨request, .sequenced⟩
  /-- `try_admit` finds the lock taken. -/
  | contend {request : EnqueueRequest V} {event : QueueEvent (DispatchEvent V)}
      (carries : request.event? = some event) :
      EnqueueStep s ⟨request, .sequenced⟩
        (s.withQueue
          { s.queue with
            queue :=
              { s.queue.queue with drops := s.queue.queue.drops.record event.metadata.dropDelta }
            offered := s.queue.offered ++ [event]
            dropped := s.queue.dropped ++ [event] } s.budget)
        ⟨request, .offered (.dropped .queueContended event.metadata.dropDelta)⟩
  | beginAdmit {request : EnqueueRequest V} {event : QueueEvent (DispatchEvent V)}
      {queue : TrackedQueue (DispatchEvent V)} {budget : RuntimeBudget}
      (carries : request.event? = some event) (unlocked : s.queue.admission = none)
      (begins : s.queue.advance s.budget event .start (s.queue.queue.beginAdmit s.budget event) =
        (budget, queue)) :
      EnqueueStep s ⟨request, .sequenced⟩ (s.withQueue queue budget)
        ⟨request, .afterAdmit (s.queue.queue.beginAdmit s.budget event)⟩
  | admitPass {request : EnqueueRequest V} {event : QueueEvent (DispatchEvent V)}
      {plan : EvictionPlan} {queue : TrackedQueue (DispatchEvent V)} {budget : RuntimeBudget}
      (carries : request.event? = some event) (locked : s.queue.admission = some (event, plan))
      (passes : s.queue.advance s.budget event plan
        (s.queue.queue.admitPass s.budget event plan) = (budget, queue)) :
      EnqueueStep s ⟨request, .admitting⟩ (s.withQueue queue budget)
        ⟨request, .afterAdmit (s.queue.queue.admitPass s.budget event plan)⟩
  /-- The sink is not stopped, the event was not enqueued, or the discard finds the lock taken. -/
  | keep {request : EnqueueRequest V} {outcome : AdmissionOutcome} :
      EnqueueStep s ⟨request, .offered outcome⟩ s ⟨request, .leaving (some outcome)⟩
  /-- A stopped sink discards what it enqueued. -/
  | discard {request : EnqueueRequest V} {evicted : List DropDelta}
      (stopped : s.isStopped = true) (unlocked : s.queue.admission = none) :
      EnqueueStep s ⟨request, .offered (.enqueued evicted)⟩ s.discardQueued
        ⟨request, .leaving (some (.enqueued evicted))⟩
  /-- The guard is dropped. -/
  | leave {request : EnqueueRequest V} {outcome : Option AdmissionOutcome} :
      EnqueueStep s ⟨request, .leaving outcome⟩
        { s with producers.activeEnqueues := s.producers.activeEnqueues - 1 }
        ⟨request, .returned (.ok outcome)⟩
  | reject {request : EnqueueRequest V} {rejection : SinkEnqueueRejection} :
      EnqueueStep s ⟨request, .rejecting rejection⟩
        { s with producers.activeEnqueues := s.producers.activeEnqueues - 1 }
        ⟨request, .returned (.error rejection)⟩

/-- How far a call of `seal` got. -/
inductive SealStage where
  | entering
  /-- The terminal event is accounted, where the cause needs it. -/
  | checked
  /-- The phase was exchanged to `SEALING`. -/
  | spinning
  /-- `active_enqueues` was zero. -/
  | drained
  /-- The facts are set. -/
  | latched
  | returned (answer : Except SinkSealError Unit)
  | panicked
deriving DecidableEq

/-- A call of `seal`. -/
structure SealCall where
  facts : SinkSealFacts
  stage : SealStage

/-- One step of `seal`. -/
inductive SealStep (s : SinkState V) : SealCall → SinkState V → SealCall → Prop
  | check {facts : SinkSealFacts}
      (accounted : facts.cause = .actFinished → s.producers.terminalAccounted = true) :
      SealStep s ⟨facts, .entering⟩ s ⟨facts, .checked⟩
  | refuse {facts : SinkSealFacts} (finished : facts.cause = .actFinished)
      (unaccounted : s.producers.terminalAccounted = false) :
      SealStep s ⟨facts, .entering⟩ s ⟨facts, .returned (.error .terminalNotAccounted)⟩
  | exchange {facts : SinkSealFacts} (opened : s.gate.phase = .opened) :
      SealStep s ⟨facts, .checked⟩ { s with gate.phase := .sealing } ⟨facts, .spinning⟩
  | late {facts : SinkSealFacts} (other : s.gate.phase ≠ .opened) :
      SealStep s ⟨facts, .checked⟩ s ⟨facts, .returned (.error .alreadySealed)⟩
  | drain {facts : SinkSealFacts} (idle : s.producers.activeEnqueues = 0) :
      SealStep s ⟨facts, .spinning⟩ s ⟨facts, .drained⟩
  | latch {facts : SinkSealFacts} (unset : s.gate.sealFacts = none) :
      SealStep s ⟨facts, .drained⟩ { s with gate.sealFacts := some facts } ⟨facts, .latched⟩
  /-- "first diagnostic sink seal must latch facts". -/
  | relatch {facts latched : SinkSealFacts} (set : s.gate.sealFacts = some latched) :
      SealStep s ⟨facts, .drained⟩ s ⟨facts, .panicked⟩
  | finish {facts : SinkSealFacts} :
      SealStep s ⟨facts, .latched⟩ { s with gate.phase := .sealed } ⟨facts, .returned (.ok ())⟩

/-- The reads of `latch_summary`. -/
inductive Fact where
  | actOutcome
  | deliveredEvents
  | firstDeliveredSequence
  | lastDeliveredSequence
  | drops
  | sourceGaps
  | truncatedPayloads
  | callbackFailure
  | unexpectedFailure
deriving DecidableEq

/-- The reads in their order. -/
def Fact.all : List Fact :=
  [.actOutcome, .deliveredEvents, .firstDeliveredSequence, .lastDeliveredSequence, .drops,
    .sourceGaps, .truncatedPayloads, .callbackFailure, .unexpectedFailure]

/-- One of the reads. -/
def DeliveryFacts.load (facts : DeliveryFacts) (s : SinkState V) : Fact → DeliveryFacts
  | .actOutcome => { facts with actOutcome := s.gate.sealFacts.bind (·.actOutcome) }
  | .deliveredEvents => { facts with deliveredEvents := s.delivery.deliveredEvents }
  | .firstDeliveredSequence =>
    { facts with firstDeliveredSequence := s.delivery.firstDeliveredSequence }
  | .lastDeliveredSequence =>
    { facts with lastDeliveredSequence := s.delivery.lastDeliveredSequence }
  | .drops => { facts with drops := s.queue.queue.drops.snapshot }
  | .sourceGaps => { facts with sourceGaps := s.producers.sourceGaps }
  | .truncatedPayloads => { facts with truncatedPayloads := s.producers.truncatedPayloads }
  | .callbackFailure => { facts with callbackFailure := s.delivery.callbackFailure }
  | .unexpectedFailure => { facts with unexpectedFailure := s.unexpectedFailure }

/-- `SinkClosePoll`. -/
inductive SinkClosePoll where
  | pending
  | closed (summary : SinkDeliverySummary)
deriving DecidableEq

/-- `SinkCloseError`. -/
inductive SinkCloseError where
  | notSealed
  | queue (error : QueueAccessError)
deriving DecidableEq

/-- How far a close got. -/
inductive CloseStage where
  | entering
  /-- `try_close_drained` saw `SEALED`, or `close_for_runtime_shutdown` saw no summary. -/
  | snapshotting
  /-- `try_close_drained` saw an empty queue and no callback. -/
  | settling (terminalReason : Option SinkTerminalReason)
  /-- `delivery_settling` was false. -/
  | choosing (terminalReason : Option SinkTerminalReason)
  /-- At the loop of `latch_summary`. -/
  | latching (nominal : SinkCloseReason)
  /-- The phase was `SEALED`. -/
  | exchanging (nominal : SinkCloseReason)
  /-- The phase was exchanged to `CLOSING`; these reads are left. -/
  | reading (nominal : SinkCloseReason) (rest : List Fact) (facts : DeliveryFacts)
  /-- The summary is set. -/
  | latched (summary : SinkDeliverySummary)
  | returned (answer : Except SinkCloseError SinkClosePoll)
  | panicked
deriving DecidableEq

/-- A call of `try_close_drained` or `close_for_runtime_shutdown`. -/
structure CloseCall where
  request : CloseRequest
  stage : CloseStage

/-- The nominal close reason of `try_close_drained`; `none` is the panic without seal facts. -/
def SinkState.drainedReason (s : SinkState V) :
    Option SinkTerminalReason → Option SinkCloseReason
  | some .deliveryOverflow => some .deliveryOverflow
  | none =>
    if s.delivery.runtimeCancelRequested then some .runtimeShutdown
    else s.gate.sealFacts.map (·.nominalCloseReason)

/-- The nominal close reason of `close_for_runtime_shutdown`. -/
def shutdownReason (terminalReason : Option SinkTerminalReason) (callbackAbandoned : Bool) :
    SinkCloseReason :=
  if terminalReason = some .deliveryOverflow ∧ callbackAbandoned = false then .deliveryOverflow
  else .runtimeShutdown

/-- The answer of a closed sink; `none` is the panic without a summary. -/
def SinkState.closedAnswer (s : SinkState V) : CloseStage :=
  match s.gate.summary with
  | some summary => .returned (.ok (.closed summary))
  | none => .panicked

/-- One step of a close. -/
inductive CloseStep (s : SinkState V) : CloseCall → SinkState V → CloseCall → Prop
  | drainClosed (closed : s.gate.phase = .closed) :
      CloseStep s ⟨.drained, .entering⟩ s ⟨.drained, s.closedAnswer⟩
  | drainOpen (opened : s.gate.phase = .opened) :
      CloseStep s ⟨.drained, .entering⟩ s ⟨.drained, .returned (.error .notSealed)⟩
  | drainEarly (pending : s.gate.phase = .sealing ∨ s.gate.phase = .closing) :
      CloseStep s ⟨.drained, .entering⟩ s ⟨.drained, .returned (.ok .pending)⟩
  | drainSealed (sealed : s.gate.phase = .sealed) :
      CloseStep s ⟨.drained, .entering⟩ s ⟨.drained, .snapshotting⟩
  | drainContended :
      CloseStep s ⟨.drained, .snapshotting⟩ s ⟨.drained, .returned (.error (.queue .contended))⟩
  | drainBusy (unlocked : s.queue.admission = none)
      (busy : s.queue.queue.state.queued ≠ [] ∨ s.queue.queue.state.activeCallback.isSome) :
      CloseStep s ⟨.drained, .snapshotting⟩ s ⟨.drained, .returned (.ok .pending)⟩
  | drainIdle (unlocked : s.queue.admission = none) (empty : s.queue.queue.state.queued = [])
      (idle : s.queue.queue.state.activeCallback = none) :
      CloseStep s ⟨.drained, .snapshotting⟩ s
        ⟨.drained, .settling s.queue.queue.state.terminalReason⟩
  | drainSettling {terminalReason : Option SinkTerminalReason}
      (settling : s.delivery.deliverySettling = true) :
      CloseStep s ⟨.drained, .settling terminalReason⟩ s ⟨.drained, .returned (.ok .pending)⟩
  | drainSettled {terminalReason : Option SinkTerminalReason}
      (settled : s.delivery.deliverySettling = false) :
      CloseStep s ⟨.drained, .settling terminalReason⟩ s ⟨.drained, .choosing terminalReason⟩
  | drainChoose {terminalReason : Option SinkTerminalReason} {nominal : SinkCloseReason}
      (chosen : s.drainedReason terminalReason = some nominal) :
      CloseStep s ⟨.drained, .choosing terminalReason⟩ s ⟨.drained, .latching nominal⟩
  /-- "sealed diagnostic sink must retain seal facts". -/
  | drainPanic {terminalReason : Option SinkTerminalReason}
      (unsealed : s.drainedReason terminalReason = none) :
      CloseStep s ⟨.drained, .choosing terminalReason⟩ s ⟨.drained, .panicked⟩
  | shutdownClosed {callbackAbandoned : Bool} {summary : SinkDeliverySummary}
      (set : s.gate.summary = some summary) :
      CloseStep s ⟨.runtimeShutdown callbackAbandoned, .entering⟩ s
        ⟨.runtimeShutdown callbackAbandoned, .returned (.ok (.closed summary))⟩
  | shutdownUnset {callbackAbandoned : Bool} (unset : s.gate.summary = none) :
      CloseStep s ⟨.runtimeShutdown callbackAbandoned, .entering⟩ s
        ⟨.runtimeShutdown callbackAbandoned, .snapshotting⟩
  | shutdownContended {callbackAbandoned : Bool} :
      CloseStep s ⟨.runtimeShutdown callbackAbandoned, .snapshotting⟩ s
        ⟨.runtimeShutdown callbackAbandoned, .latching (shutdownReason none callbackAbandoned)⟩
  | shutdownSnapshot {callbackAbandoned : Bool} (unlocked : s.queue.admission = none) :
      CloseStep s ⟨.runtimeShutdown callbackAbandoned, .snapshotting⟩ s
        ⟨.runtimeShutdown callbackAbandoned,
          .latching (shutdownReason s.queue.queue.state.terminalReason callbackAbandoned)⟩
  | latchClosed {request : CloseRequest} {nominal : SinkCloseReason}
      (closed : s.gate.phase = .closed) :
      CloseStep s ⟨request, .latching nominal⟩ s ⟨request, s.closedAnswer⟩
  | latchSealed {request : CloseRequest} {nominal : SinkCloseReason}
      (sealed : s.gate.phase = .sealed) :
      CloseStep s ⟨request, .latching nominal⟩ s ⟨request, .exchanging nominal⟩
  /-- "cannot close diagnostic sink from phase". -/
  | latchPanic {request : CloseRequest} {nominal : SinkCloseReason}
      (unsealed : s.gate.phase = .opened ∨ s.gate.phase = .sealing) :
      CloseStep s ⟨request, .latching nominal⟩ s ⟨request, .panicked⟩
  | exchange {request : CloseRequest} {nominal : SinkCloseReason}
      (sealed : s.gate.phase = .sealed) :
      CloseStep s ⟨request, .exchanging nominal⟩ { s with gate.phase := .closing }
        ⟨request, .reading nominal Fact.all .unread⟩
  | lose {request : CloseRequest} {nominal : SinkCloseReason} (other : s.gate.phase ≠ .sealed) :
      CloseStep s ⟨request, .exchanging nominal⟩ s ⟨request, .latching nominal⟩
  | read {request : CloseRequest} {nominal : SinkCloseReason} {fact : Fact} {rest : List Fact}
      {facts : DeliveryFacts} :
      CloseStep s ⟨request, .reading nominal (fact :: rest) facts⟩ s
        ⟨request, .reading nominal rest (facts.load s fact)⟩
  | set {request : CloseRequest} {nominal : SinkCloseReason} {facts : DeliveryFacts}
      {summary : SinkDeliverySummary} (unset : s.gate.summary = none)
      (built : summary =
        .fromDeliveryFacts s.runId s.actId nominal request.callbackAbandoned facts) :
      CloseStep s ⟨request, .reading nominal [] facts⟩
        { s with gate.summary := some summary, gate.latchedBy := some request }
        ⟨request, .latched summary⟩
  /-- "first diagnostic sink close must latch summary". -/
  | reset {request : CloseRequest} {nominal : SinkCloseReason} {facts : DeliveryFacts}
      {summary : SinkDeliverySummary} (set : s.gate.summary = some summary) :
      CloseStep s ⟨request, .reading nominal [] facts⟩ s ⟨request, .panicked⟩
  | finish {request : CloseRequest} {summary : SinkDeliverySummary} :
      CloseStep s ⟨request, .latched summary⟩ { s with gate.phase := .closed }
        ⟨request, .returned (.ok (.closed summary))⟩

/-! ## The driver -/

/-- Where `_drive_sink` is. -/
inductive DriverStage where
  /-- Before `_next_dispatch`. -/
  | polling
  /-- Before `_sink_stopped`. -/
  | idle
  /-- In the `sleep` of the loop. -/
  | sleeping
  /-- In the callback. -/
  | running (sequence : Nat)
  /-- Before `_complete_success`, after a `sleep` when retried. -/
  | succeeding (sequence : Nat) (retried : Bool)
  /-- `delivery_settling` is set. -/
  | settling (sequence : Nat)
  /-- The callback is completed; `record_delivery` is next. -/
  | recordingFirst (sequence : Nat)
  | recordingLast (sequence : Nat)
  | recordingCount
  /-- The settlement is left. -/
  | settled
  /-- The settlement is left, to try again. -/
  | unsettled (sequence : Nat)
  /-- The settlement is left, to stop. -/
  | stopping
  /-- Before `_complete_failed`, after a `sleep` when retried. -/
  | failing (retried : Bool)
  /-- Before the discard of `_complete_failed`. -/
  | discarding
  | done
deriving DecidableEq

/-- The `_drive_sink` task of the sink, with its entry of `DispatcherBridge::active`. -/
structure Driver where
  stage : DriverStage
  active : Option (Nat × Nat)
  cancelPending : Bool
  /-- `DispatcherBridge::stopping`. -/
  stopRequested : Bool

/-- A registered sink. -/
def Driver.new : Driver := ⟨.polling, none, false, false⟩

/-- The text of a `QueueAccessError`, without the numbers of a budget error. -/
def QueueAccessError.text : QueueAccessError → String
  | .contended => "diagnostic sink queue is contended"
  | .noCallbackActive => "diagnostic sink queue has no active callback"
  | .callbackTicketMismatch => "diagnostic sink callback ticket does not match"
  | .budgetInvariant _ => "diagnostic sink budget"

/-- One step of the driver. -/
inductive DriverStep (s : SinkState V) (d : Driver) : SinkState V → Driver → Prop
  /-- `_next_dispatch` of a stopped sink, or with an empty, busy or contended queue. -/
  | noDispatch (polling : d.stage = .polling) : DriverStep s d s { d with stage := .idle }
  | dispatch {delivery : CallbackDelivery (DispatchEvent V)} {queue : SinkQueue (DispatchEvent V)}
      (polling : d.stage = .polling) (running : s.isStopped = false)
      (unlocked : s.queue.admission = none)
      (begins : s.queue.queue.tryBeginCallback = (some delivery, queue)) (free : d.active = none) :
      DriverStep s d
        (s.withQueue { s.queue with queue, inCallback := some ⟨delivery.item, delivery.metadata⟩ }
          s.budget)
        { d with
          stage := .running delivery.item.sequence
          active := some (delivery.ticket, delivery.item.sequence) }
  /-- "sink already has an active callback". -/
  | dispatchBusy {delivery : CallbackDelivery (DispatchEvent V)}
      {queue : SinkQueue (DispatchEvent V)} {entry : Nat × Nat} (polling : d.stage = .polling)
      (running : s.isStopped = false) (unlocked : s.queue.admission = none)
      (begins : s.queue.queue.tryBeginCallback = (some delivery, queue))
      (busy : d.active = some entry) :
      DriverStep s d
        ((s.withQueue { s.queue with queue, inCallback := some ⟨delivery.item, delivery.metadata⟩ }
          s.budget).recordUnexpectedFailure "callback_begin" "sink already has an active callback")
        { d with stage := .idle, active := some (delivery.ticket, delivery.item.sequence) }
  /-- `_sink_stopped`, with the lock. -/
  | stop (idle : d.stage = .idle) (stopped : s.isStopped = true)
      (unlocked : s.queue.admission = none) :
      DriverStep s d s.discardQueued { d with stage := .done }
  /-- `_sink_stopped` that finds the lock taken, or `_stopping`. -/
  | leave (idle : d.stage = .idle) (leaves : s.isStopped = true ∨ d.stopRequested = true) :
      DriverStep s d s { d with stage := .done }
  | sleep (idle : d.stage = .idle) (running : s.isStopped = false) :
      DriverStep s d s { d with stage := .sleeping }
  | wake (sleeping : d.stage = .sleeping) : DriverStep s d s { d with stage := .polling }
  | returnNone {sequence : Nat} (running : d.stage = .running sequence) :
      DriverStep s d s { d with stage := .succeeding sequence false }
  | returnOther {sequence : Nat} (running : d.stage = .running sequence) :
      DriverStep s d (s.recordCallbackFailure (.invalidReturn sequence))
        { d with stage := .failing false }
  /-- The text of the failure is the exception's. -/
  | raise {sequence : Nat} {failure : CallbackFailure} (running : d.stage = .running sequence)
      (kind : failure.kind = .raised) (event : failure.eventSequence = sequence) :
      DriverStep s d (s.recordCallbackFailure failure) { d with stage := .failing false }
  /-- `CancelledError` out of the callback, after a requested cancellation. -/
  | cancelRunning {sequence : Nat} (running : d.stage = .running sequence)
      (requested : s.delivery.runtimeCancelRequested = true) :
      DriverStep s d s { d with stage := .failing false, cancelPending := false }
  | cancelSleeping (sleeping : d.stage = .sleeping)
      (requested : s.delivery.runtimeCancelRequested = true) (pending : d.cancelPending = true) :
      DriverStep s d s { d with stage := .failing false, cancelPending := false }
  | cancelRetry {sequence : Nat} (succeeding : d.stage = .succeeding sequence true)
      (requested : s.delivery.runtimeCancelRequested = true) (pending : d.cancelPending = true) :
      DriverStep s d s { d with stage := .failing false, cancelPending := false }
  /-- `CancelledError` inside an exception handler ends the task. -/
  | cancelHandler (failing : d.stage = .failing true) (pending : d.cancelPending = true) :
      DriverStep s d s { d with stage := .done, cancelPending := false }
  | settle {sequence ticket : Nat} {retried : Bool}
      (succeeding : d.stage = .succeeding sequence retried)
      (active : d.active = some (ticket, sequence)) :
      DriverStep s d { s with delivery.deliverySettling := true }
        { d with stage := .settling sequence }
  /-- "callback sequence does not match active delivery". -/
  | mismatch {sequence : Nat} {retried : Bool} (succeeding : d.stage = .succeeding sequence retried)
      (other : ∀ ticket, d.active ≠ some (ticket, sequence)) :
      DriverStep s d
        (s.recordUnexpectedFailure "callback_complete"
          "callback sequence does not match active delivery") { d with stage := .done }
  | settleContended {sequence : Nat} (settling : d.stage = .settling sequence) :
      DriverStep s d s { d with stage := .unsettled sequence }
  | complete {sequence ticket : Nat} {queue : TrackedQueue (DispatchEvent V)}
      {budget : RuntimeBudget} (settling : d.stage = .settling sequence)
      (active : d.active = some (ticket, sequence)) (unlocked : s.queue.admission = none)
      (completes : s.queue.completeCallback s.budget ticket = (.ok (), queue, budget)) :
      DriverStep s d
        { s.withQueue queue budget with
          delivery.succeeded := s.delivery.succeeded ++ s.queue.inCallback.toList }
        { d with stage := .recordingFirst sequence, active := none }
  | completeError {sequence ticket : Nat} {queue : TrackedQueue (DispatchEvent V)}
      {budget : RuntimeBudget} {error : QueueAccessError} (settling : d.stage = .settling sequence)
      (active : d.active = some (ticket, sequence)) (unlocked : s.queue.admission = none)
      (completes : s.queue.completeCallback s.budget ticket = (.error error, queue, budget)) :
      DriverStep s d
        ((s.withQueue queue budget).recordUnexpectedFailure "callback_complete" error.text)
        { d with stage := .stopping }
  | recordFirst {sequence : Nat} (recording : d.stage = .recordingFirst sequence) :
      DriverStep s d
        { s with
          delivery.firstDeliveredSequence :=
            if s.delivery.firstDeliveredSequence = 0 then sequence
            else s.delivery.firstDeliveredSequence }
        { d with stage := .recordingLast sequence }
  | recordLast {sequence : Nat} (recording : d.stage = .recordingLast sequence) :
      DriverStep s d { s with delivery.lastDeliveredSequence := sequence }
        { d with stage := .recordingCount }
  | recordCount (recording : d.stage = .recordingCount) :
      DriverStep s d
        { s with delivery.deliveredEvents := (s.delivery.deliveredEvents + 1) % 2 ^ 64 }
        { d with stage := .settled }
  | settled (settled : d.stage = .settled) :
      DriverStep s d { s with delivery.deliverySettling := false } { d with stage := .polling }
  | unsettled {sequence : Nat} (unsettled : d.stage = .unsettled sequence) :
      DriverStep s d { s with delivery.deliverySettling := false }
        { d with stage := .succeeding sequence true }
  | stopped (stopping : d.stage = .stopping) :
      DriverStep s d { s with delivery.deliverySettling := false } { d with stage := .done }
  | failContended {retried : Bool} (failing : d.stage = .failing retried) :
      DriverStep s d s { d with stage := .failing true }
  | failComplete {retried : Bool} {entry : Nat × Nat} {queue : TrackedQueue (DispatchEvent V)}
      {budget : RuntimeBudget} (failing : d.stage = .failing retried)
      (active : d.active = some entry) (unlocked : s.queue.admission = none)
      (completes : s.queue.completeCallback s.budget entry.1 = (.ok (), queue, budget)) :
      DriverStep s d
        { s.withQueue queue budget with
          delivery.failed := s.delivery.failed ++ s.queue.inCallback.toList }
        { d with stage := .discarding, active := none }
  | failError {retried : Bool} {entry : Nat × Nat} {queue : TrackedQueue (DispatchEvent V)}
      {budget : RuntimeBudget} {error : QueueAccessError} (failing : d.stage = .failing retried)
      (active : d.active = some entry) (unlocked : s.queue.admission = none)
      (completes : s.queue.completeCallback s.budget entry.1 = (.error error, queue, budget)) :
      DriverStep s d
        ((s.withQueue queue budget).recordUnexpectedFailure "callback_complete" error.text)
        { d with stage := .done }
  | failIdle {retried : Bool} (failing : d.stage = .failing retried) (free : d.active = none) :
      DriverStep s d s { d with stage := .discarding }
  | discardContended (discarding : d.stage = .discarding) :
      DriverStep s d s { d with stage := .failing true }
  | discard (discarding : d.stage = .discarding) (unlocked : s.queue.admission = none)
      (discards : (s.queue.discardQueued s.budget).1.isOk = true) :
      DriverStep s d s.discardQueued { d with stage := .done }
  | discardError {error : QueueAccessError} (discarding : d.stage = .discarding)
      (unlocked : s.queue.admission = none)
      (discards : (s.queue.discardQueued s.budget).1 = .error error) :
      DriverStep s d (s.discardQueued.recordUnexpectedFailure "callback_discard" error.text)
        { d with stage := .done }

/-! ## The sink among its users -/

/-- A sink, the other queues of its runtime, and the calls on the sink. -/
structure SinkWorld (V : Type) where
  state : SinkState V
  others : List (TrackedQueue (DispatchEvent V))
  enqueues : List (EnqueueCall V)
  seals : List SealCall
  closes : List CloseCall
  driver : Driver

/-- A sink that was just registered. -/
def SinkWorld.new (runId : CanonicalUuid) (actId : RunLocalId) (budget : RuntimeBudget)
    (others : List (TrackedQueue (DispatchEvent V))) : SinkWorld V where
  state :=
    { runId, actId, budget
      gate := ⟨.opened, none, none, none⟩
      producers := ⟨0, false, 0, 0, 0⟩
      delivery := ⟨none, false, false, 0, 0, 0, [], []⟩
      unexpectedFailure := none
      queue := .new _ .product }
  others
  enqueues := []
  seals := []
  closes := []
  driver := .new

/-- One step of any party. -/
inductive WorldStep (w : SinkWorld V) : SinkWorld V → Prop
  | beginEnqueue (request : EnqueueRequest V) :
      WorldStep w { w with enqueues := w.enqueues ++ [⟨request, .entering⟩] }
  | beginSeal (facts : SinkSealFacts) :
      WorldStep w { w with seals := w.seals ++ [⟨facts, .entering⟩] }
  | beginClose (request : CloseRequest) :
      WorldStep w { w with closes := w.closes ++ [⟨request, .entering⟩] }
  | enqueueCall {state : SinkState V} {before after : List (EnqueueCall V)} {call call' : EnqueueCall V}
      (calls : w.enqueues = before ++ call :: after) (step : EnqueueStep w.state call state call') :
      WorldStep w { w with state, enqueues := before ++ call' :: after }
  | sealCall {state : SinkState V} {before after : List SealCall} {call call' : SealCall}
      (calls : w.seals = before ++ call :: after) (step : SealStep w.state call state call') :
      WorldStep w { w with state, seals := before ++ call' :: after }
  | closeCall {state : SinkState V} {before after : List CloseCall} {call call' : CloseCall}
      (calls : w.closes = before ++ call :: after) (step : CloseStep w.state call state call') :
      WorldStep w { w with state, closes := before ++ call' :: after }
  | drive {state : SinkState V} {driver : Driver}
      (step : DriverStep w.state w.driver state driver) : WorldStep w { w with state, driver }
  /-- `try_discard_pending`. -/
  | discard (unlocked : w.state.queue.admission = none) :
      WorldStep w { w with state := w.state.discardQueued }
  /-- The cancellation of `_dispatcher_main`. -/
  | requestCancel (live : w.driver.stage ≠ .done)
      (once : w.state.delivery.runtimeCancelRequested = false) :
      WorldStep w
        { w with
          state := { w.state with delivery.runtimeCancelRequested := true }
          driver := { w.driver with cancelPending := true } }
  | requestStop : WorldStep w { w with driver := { w.driver with stopRequested := true } }
  /-- A step of another sink of the runtime. -/
  | other {budget : RuntimeBudget} {others : List (TrackedQueue (DispatchEvent V))}
      (step : SinkStep ⟨w.state.budget, w.state.queue :: w.others⟩
        ⟨budget, w.state.queue :: others⟩) :
      WorldStep w { w with state := { w.state with budget }, others }

end Troupe.Sink
