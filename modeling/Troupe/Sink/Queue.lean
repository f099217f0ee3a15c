import Troupe.Core.Kinds
import Troupe.Sink.Budget

/-! # The queue of one sink

`queue.rs`: the bounded queue between the producers of diagnostic events and the callback of one act
sink, with its drop ledger. Several queues share one `RuntimeBudget`.

* A method that runs with the queue's lock held is a function of the budget and the queue.
  `try_lock` does not wait: a call that finds the lock taken returns `Contended`, and `try_admit`
  then records its event as dropped.
* `try_admit` goes to the shared budget once in every pass of its loop, and other queues may use the
  budget between two passes. So its loop is cut into passes: `beginAdmit`, then `admitPass` until
  it returns. Every other method goes to the budget at most once.
* The ledger has one counter for each event kind; it is not behind the lock.
* `debug_assert` does nothing, as in a release build. A poisoned lock is taken over, and no method
  here panics.
* `item` is a type parameter: the queue does not look at it. -/

namespace Troupe.Sink

open Troupe.Core Troupe.Lib

/-! ## Limits -/

/-- `PER_SINK_MAX_EVENTS`. -/
def perSinkMaxEvents : Nat := 1024
/-- `PER_SINK_MAX_ENCODED_BYTES`. -/
def perSinkMaxEncodedBytes : Nat := 8 * 1024 * 1024
/-- `STRUCTURAL_RESERVE_EVENTS`. -/
def structuralReserveEvents : Nat := 32
/-- `STRUCTURAL_RESERVE_ENCODED_BYTES`. -/
def structuralReserveEncodedBytes : Nat := 256 * 1024

/-- `SinkQueueLimits`. -/
structure SinkQueueLimits where
  total : BudgetLimits
  structuralReserve : BudgetUsage
  content : BudgetLimits
  /-- "structural reserve must fit within the per-sink limits". -/
  content_reserve : BudgetUsage.checkedSub ⟨total.maxEvents, total.maxEncodedBytes⟩
    structuralReserve = some ⟨content.maxEvents, content.maxEncodedBytes⟩

/-- `SinkQueueLimits::product`. -/
def SinkQueueLimits.product : SinkQueueLimits where
  total := ⟨perSinkMaxEvents, perSinkMaxEncodedBytes⟩
  structuralReserve := ⟨structuralReserveEvents, structuralReserveEncodedBytes⟩
  content := ⟨perSinkMaxEvents - structuralReserveEvents,
    perSinkMaxEncodedBytes - structuralReserveEncodedBytes⟩
  content_reserve := by decide

/-! ## Events and drops -/

/-- `AdmissionClass`. -/
inductive AdmissionClass where
  | content
  | structural
deriving DecidableEq

/-- `EventMetadata`. -/
structure EventMetadata where
  eventKind : DiagnosticEventKind
  encodedBytes : Nat
  admissionClass : AdmissionClass
  /-- The size is a `usize`. -/
  encodedBytes_le : encodedBytes ≤ usizeMax
deriving DecidableEq

/-- `QueueEvent`, and `StoredEvent` with the same fields. -/
structure QueueEvent (T : Type) where
  item : T
  metadata : EventMetadata

/-- `DropDelta`. -/
structure DropDelta where
  eventKind : DiagnosticEventKind
  events : Nat
  encodedBytes : Nat
deriving DecidableEq

/-- `EventMetadata::usage`. -/
def EventMetadata.usage (metadata : EventMetadata) : BudgetUsage := ⟨1, metadata.encodedBytes⟩

/-- `EventMetadata::drop_delta`. -/
def EventMetadata.dropDelta (metadata : EventMetadata) : DropDelta :=
  ⟨metadata.eventKind, 1, metadata.encodedBytes⟩

/-- The event is of the content class. -/
def QueueEvent.isContent {T : Type} (event : QueueEvent T) : Bool :=
  event.metadata.admissionClass = .content

/-- `DropCounter`. -/
structure DropCounter where
  events : Nat
  encodedBytes : Nat
deriving DecidableEq

/-- `DropCounter::record`, with `saturating_atomic_add`. -/
def DropCounter.record (counter : DropCounter) (delta : DropDelta) : DropCounter :=
  ⟨saturatingAdd usizeMax counter.events delta.events,
    saturatingAdd usizeMax counter.encodedBytes delta.encodedBytes⟩

/-- `DropLedger`: a counter at the position of each kind in `DiagnosticEventKind::ALL`. -/
structure DropLedger where
  byKind : DiagnosticEventKind → DropCounter

namespace DropLedger

/-- `DropLedger::new`. -/
def new : DropLedger := ⟨fun _ => ⟨0, 0⟩⟩

/-- `DropLedger::record`. -/
def record (ledger : DropLedger) (delta : DropDelta) : DropLedger :=
  ⟨fun kind =>
    if kind = delta.eventKind then (ledger.byKind kind).record delta else ledger.byKind kind⟩

/-- `DropLedger::record_all`. -/
def recordAll (ledger : DropLedger) (deltas : List DropDelta) : DropLedger :=
  deltas.foldl record ledger

end DropLedger

/-- `DropReason`. -/
inductive DropReason where
  | sinkCapacity
  | runtimeCapacity
  | queueContended
  | sinkTerminal
  | budgetUnavailable
deriving DecidableEq

/-- `AdmissionOutcome`. -/
inductive AdmissionOutcome where
  | enqueued (evicted : List DropDelta)
  | dropped (reason : DropReason) (delta : DropDelta)
  | terminalized (dropped : List DropDelta)
deriving DecidableEq

/-! ## The queue -/

/-- `SinkTerminalReason`. -/
inductive SinkTerminalReason where
  | deliveryOverflow
deriving DecidableEq

/-- `ActiveCallback`; a `CallbackTicket` is its number. -/
structure ActiveCallback where
  ticket : Nat
  metadata : EventMetadata
deriving DecidableEq

/-- `CallbackDelivery`. -/
structure CallbackDelivery (T : Type) where
  ticket : Nat
  item : T
  metadata : EventMetadata

/-- `QueueAccessError`. -/
inductive QueueAccessError where
  | contended
  | noCallbackActive
  | callbackTicketMismatch
  | budgetInvariant (error : BudgetError)
deriving DecidableEq

/-- `QueueState`. -/
structure QueueState (T : Type) where
  queued : List (QueueEvent T)
  activeCallback : Option ActiveCallback
  totalUsage : BudgetUsage
  contentUsage : BudgetUsage
  terminalReason : Option SinkTerminalReason
  nextTicket : Nat

/-- `QueueState::new`. -/
def QueueState.new (T : Type) : QueueState T := ⟨[], none, 0, 0, none, 1⟩

/-- The ticket after this one, as `issue_ticket` counts. -/
def nextTicketAfter (ticket : Nat) : Nat :=
  if (ticket + 1) % 2 ^ 64 = 0 then 1 else (ticket + 1) % 2 ^ 64

/-- `SinkQueue`, less the budget it shares. -/
structure SinkQueue (T : Type) where
  limits : SinkQueueLimits
  state : QueueState T
  drops : DropLedger

/-- `SinkQueue::with_limits`. -/
def SinkQueue.withLimits (T : Type) (limits : SinkQueueLimits) : SinkQueue T :=
  ⟨limits, .new T, .new⟩

/-- `Victim`. -/
structure Victim where
  index : Nat
  metadata : EventMetadata
deriving DecidableEq

/-- What the loop of `try_admit` carries from pass to pass. -/
structure EvictionPlan where
  victims : List Victim
  released : BudgetUsage
  releasedContent : BudgetUsage
  victimCursor : Nat
  runtimeCapacityFailed : Bool

/-- The plan of the first pass. -/
def EvictionPlan.start : EvictionPlan := ⟨[], 0, 0, 0, false⟩

/-- How far `try_admit` got. -/
inductive AdmitProgress (T : Type) where
  | returned (outcome : AdmissionOutcome) (queue : SinkQueue T) (budget : RuntimeBudget)
  | looping (plan : EvictionPlan)
  | panicked (message : String)

/-- `queued.iter().enumerate().skip(cursor).find(..)`. -/
def findVictim {T : Type} (queued : List (QueueEvent T)) (cursor : Nat) : Option Victim :=
  ((queued.zipIdx.drop cursor).find? (·.1.isContent)).map fun found => ⟨found.2, found.1.metadata⟩

/-- `queued.remove(victim.index)`, `none` past the end. -/
def removeVictim {T : Type} (victim : Victim) (queued : List (QueueEvent T)) :
    Option (List (QueueEvent T)) :=
  if victim.index < queued.length then some (queued.eraseIdx victim.index) else none

namespace SinkQueue

variable {T : Type}

/-- An event that is not enqueued. -/
def refuse (queue : SinkQueue T) (budget : RuntimeBudget) (event : QueueEvent T)
    (reason : DropReason) : AdmitProgress T :=
  .returned (.dropped reason event.metadata.dropDelta)
    { queue with drops := queue.drops.record event.metadata.dropDelta } budget

/-- `discard_queued_locked`: the answer, and the queue and the budget left behind. -/
def discardQueuedLocked (queue : SinkQueue T) (budget : RuntimeBudget) :
    Except QueueAccessError (List DropDelta) × SinkQueue T × RuntimeBudget :=
  let callbackUsage := (queue.state.activeCallback.map (·.metadata.usage)).getD 0
  let callbackContent := ((queue.state.activeCallback.filter
    (·.metadata.admissionClass = .content)).map (·.metadata.usage)).getD 0
  match queue.state.totalUsage.checkedSub callbackUsage with
  | none =>
    (.error (.budgetInvariant (.releaseExceedsUsage queue.state.totalUsage callbackUsage)), queue,
      budget)
  | some queuedUsage =>
    match budget.tryReplace queuedUsage 0 with
    | (.error error, budget) => (.error (.budgetInvariant error), queue, budget)
    | (.ok _, budget) =>
      let dropped := queue.state.queued.map (·.metadata.dropDelta)
      (.ok dropped,
        { queue with
          state :=
            { queue.state with
              queued := []
              totalUsage := callbackUsage
              contentUsage := callbackContent }
          drops := queue.drops.recordAll dropped },
        budget)

/-- `terminalize_locked`. -/
def terminalizeLocked (queue : SinkQueue T) (budget : RuntimeBudget) (incoming : QueueEvent T) :
    AdmitProgress T :=
  match queue.discardQueuedLocked budget with
  | (.error _, _, _) => .panicked "owned diagnostic queue usage must be releasable"
  | (.ok dropped, queue, budget) =>
    .returned (.terminalized (dropped ++ [incoming.metadata.dropDelta]))
      { queue with
        state := { queue.state with terminalReason := some .deliveryOverflow }
        drops := queue.drops.record incoming.metadata.dropDelta } budget

/-- `try_admit` up to its loop. -/
def beginAdmit (queue : SinkQueue T) (budget : RuntimeBudget) (event : QueueEvent T) :
    AdmitProgress T :=
  if queue.state.terminalReason.isSome then
    queue.refuse budget event .sinkTerminal
  else
    match event.metadata.admissionClass with
    | .content =>
      if event.metadata.usage.FitsWithin queue.limits.content then .looping .start
      else queue.refuse budget event .sinkCapacity
    | .structural =>
      if event.metadata.usage.FitsWithin queue.limits.total then .looping .start
      else queue.terminalizeLocked budget event

/-- The end of a pass that did not admit the event: look for one more victim. -/
def planVictim (queue : SinkQueue T) (budget : RuntimeBudget) (event : QueueEvent T)
    (plan : EvictionPlan) : AdmitProgress T :=
  match findVictim queue.state.queued plan.victimCursor with
  | none =>
    match event.metadata.admissionClass with
    | .content =>
      queue.refuse budget event
        (if plan.runtimeCapacityFailed then .runtimeCapacity else .sinkCapacity)
    | .structural => queue.terminalizeLocked budget event
  | some victim =>
    match plan.released.checkedAdd victim.metadata.usage with
    | none => .panicked "bounded per-sink victim usage must not overflow"
    | some released =>
      match plan.releasedContent.checkedAdd victim.metadata.usage with
      | none => .panicked "bounded per-sink content usage must not overflow"
      | some releasedContent =>
        .looping ⟨plan.victims ++ [victim], released, releasedContent, victim.index + 1,
          plan.runtimeCapacityFailed⟩

/-- The end of `try_admit` once the budget is exchanged: evict the victims, append the event. -/
def enqueue (queue : SinkQueue T) (budget : RuntimeBudget) (event : QueueEvent T)
    (plan : EvictionPlan) (nextTotal nextContent : BudgetUsage) : AdmitProgress T :=
  let evicted := plan.victims.map (·.metadata.dropDelta)
  match plan.victims.foldrM removeVictim queue.state.queued with
  | none => .panicked "planned diagnostic queue victim must remain present"
  | some remaining =>
    .returned (.enqueued evicted)
      { queue with
        state :=
          { queue.state with
            queued := remaining ++ [event]
            totalUsage := nextTotal
            contentUsage := nextContent }
        drops := queue.drops.recordAll evicted } budget

/-- What the event adds to the content usage. -/
def incomingContent (event : QueueEvent T) : BudgetUsage :=
  match event.metadata.admissionClass with
  | .content => event.metadata.usage
  | .structural => 0

/-- One pass of the loop of `try_admit`. -/
def admitPass (queue : SinkQueue T) (budget : RuntimeBudget) (event : QueueEvent T)
    (plan : EvictionPlan) : AdmitProgress T :=
  let nextTotal := (queue.state.totalUsage.checkedSub plan.released).bind
    (·.checkedAdd event.metadata.usage)
  let nextContent := (queue.state.contentUsage.checkedSub plan.releasedContent).bind
    (·.checkedAdd (incomingContent event))
  match nextTotal, nextContent with
  | some nextTotal, some nextContent =>
    if nextTotal.FitsWithin queue.limits.total ∧ nextContent.FitsWithin queue.limits.content then
      match budget.tryReplace plan.released event.metadata.usage with
      | (.ok _, budget) => queue.enqueue budget event plan nextTotal nextContent
      | (.error (.limitExceeded ..), budget) =>
        queue.planVictim budget event { plan with runtimeCapacityFailed := true }
      | (.error _, budget) => queue.refuse budget event .budgetUnavailable
    else
      queue.planVictim budget event plan
  | _, _ => queue.planVictim budget event plan

/-- `try_begin_callback`. -/
def tryBeginCallback (queue : SinkQueue T) : Option (CallbackDelivery T) × SinkQueue T :=
  if queue.state.activeCallback.isSome then
    (none, queue)
  else
    match queue.state.queued with
    | [] => (none, queue)
    | event :: rest =>
      (some ⟨queue.state.nextTicket, event.item, event.metadata⟩,
        { queue with
          state :=
            { queue.state with
              queued := rest
              activeCallback := some ⟨queue.state.nextTicket, event.metadata⟩
              nextTicket := nextTicketAfter queue.state.nextTicket } })

/-- `try_complete_callback`. -/
def tryCompleteCallback (queue : SinkQueue T) (budget : RuntimeBudget) (ticket : Nat) :
    Except QueueAccessError Unit × SinkQueue T × RuntimeBudget :=
  match queue.state.activeCallback with
  | none => (.error .noCallbackActive, queue, budget)
  | some active =>
    if active.ticket ≠ ticket then
      (.error .callbackTicketMismatch, queue, budget)
    else
      let usage := active.metadata.usage
      match budget.tryReplace usage 0 with
      | (.error error, budget) => (.error (.budgetInvariant error), queue, budget)
      | (.ok _, budget) =>
        match queue.state.totalUsage.checkedSub usage with
        | none =>
          (.error (.budgetInvariant (.releaseExceedsUsage queue.state.totalUsage usage)), queue,
            budget)
        | some totalUsage =>
          let queue := { queue with state := { queue.state with totalUsage } }
          if active.metadata.admissionClass = .content then
            match queue.state.contentUsage.checkedSub usage with
            | none =>
              (.error (.budgetInvariant (.releaseExceedsUsage queue.state.contentUsage usage)),
                queue, budget)
            | some contentUsage =>
              (.ok (),
                { queue with state := { queue.state with contentUsage, activeCallback := none } },
                budget)
          else
            (.ok (), { queue with state := { queue.state with activeCallback := none } }, budget)

/-- `Drop for SinkQueue`: the answer of the release, and the budget left behind. -/
def drop (queue : SinkQueue T) (budget : RuntimeBudget) :
    Except BudgetError BudgetUsage × RuntimeBudget :=
  if queue.state.totalUsage ≠ 0 then
    budget.tryReplace queue.state.totalUsage 0
  else
    (.ok budget.usage, budget)

end SinkQueue

end Troupe.Sink
