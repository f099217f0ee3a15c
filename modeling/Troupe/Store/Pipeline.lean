import Troupe.Store.Admitting
import Troupe.Store.Writer

/-! # From admission to the database

The hub, the mandatory ingress, the accumulator and the transactional writer together: the producers
of `Store.Admitting`, and the writer thread, `run_writer` and `commit_batch` of `bootstrap.rs`.

* The writer thread alone dequeues, and alone acknowledges. Between two calls on the ingress it works
  on its own data, so a dequeued event is pushed in the step that dequeues it. Storing a batch and
  telling the ingress about it are two steps: producers may run in between.
* Any error ends `run_writer`, and what the thread holds is dropped with it: the pending events, the
  batch of a failed commit, the event of a failed push. `WriterThread.stopped` keeps them as history.
  Quota, progress and channel failures stop the thread at any time.
* The loop's order (poll or flush, and when) is left open, and so are the clock readings.

Results: **`densePrefix_step`** and **`pipeline_dense_prefix`**: the database is a dense prefix of
the accepted events, and until the thread stops every other one is in one place. -/

namespace Troupe.Store

open Relation (ReflTransGen)
open Troupe.Core Troupe.Lib

/-! ## The writer thread -/

/-- Where `run_writer` is. -/
inductive WriterThread where
  | running (accumulator : BatchAccumulator)
  /-- A batch was triggered and is not stored yet. -/
  | committing (accumulator : BatchAccumulator) (batch : EventBatch)
  /-- A batch is stored and the ingress was not told yet. -/
  | acknowledging (accumulator : BatchAccumulator) (notification : CommitNotification)
  /-- `run_writer` returned; this is what it held. -/
  | stopped (held : List AcceptedDiagnosticEvent)

namespace WriterThread

/-- The events the thread holds, or held when it stopped. -/
def held : WriterThread → List AcceptedDiagnosticEvent
  | running accumulator => accumulator.pending
  | committing accumulator batch => batch.events ++ accumulator.pending
  | acknowledging accumulator _ => accumulator.pending
  | stopped held => held

/-- `run_writer` has not returned. -/
def Alive : WriterThread → Prop
  | stopped _ => False
  | _ => True

/-- The thread after a call on the accumulator that was given `pushed`. -/
def afterTrigger (pushed : List AcceptedDiagnosticEvent) :
    Except BatchError (Option TriggeredBatch) × BatchAccumulator → WriterThread
  | (.ok none, accumulator) => running accumulator
  | (.ok (some triggered), accumulator) => committing accumulator triggered.batch
  | (.error _, accumulator) => stopped (accumulator.pending ++ pushed)

/-- The thread after `commit_batch`. -/
def afterCommit (accumulator : BatchAccumulator) (batch : EventBatch) :
    Except (Fault WriterError) CommitNotification → WriterThread
  | .ok notification => acknowledging accumulator notification
  | .error _ => stopped (batch.events ++ accumulator.pending)

theorem held_afterTrigger {before pushed : List AcceptedDiagnosticEvent}
    {result : Except BatchError (Option TriggeredBatch) × BatchAccumulator}
    (h : BatchAccumulator.Yields before (before ++ pushed) result) :
    (afterTrigger pushed result).held = before ++ pushed := by
  obtain ⟨answer, accumulator⟩ := result
  cases answer with
  | error error =>
    rw [afterTrigger, held, show accumulator.pending = before from h]
  | ok triggered =>
    cases triggered with
    | none => exact h
    | some triggered =>
      obtain ⟨hbatch, hpending⟩ := h
      rw [afterTrigger, held, hbatch, hpending, List.append_nil]

theorem held_afterTrigger_nil {before : List AcceptedDiagnosticEvent}
    {result : Except BatchError (Option TriggeredBatch) × BatchAccumulator}
    (h : BatchAccumulator.Yields before before result) :
    (afterTrigger [] result).held = before := by
  have happended : BatchAccumulator.Yields before (before ++ []) result := by
    rwa [List.append_nil]
  rw [held_afterTrigger happended, List.append_nil]

end WriterThread

/-! ## Steps -/

/-- The hub over its ingress, the writer thread, and its writer. -/
structure PipelineWorld where
  hub : HubWorld
  thread : WriterThread
  writer : TransactionalWriter

namespace PipelineWorld

/-- A run that just began. -/
def new (runId : CanonicalUuid) : PipelineWorld := ⟨.new runId, .running .new, .fresh runId⟩

/-- The accepted events, in the order of acceptance. -/
def accepted (w : PipelineWorld) : List AcceptedDiagnosticEvent := w.hub.accepted.map (·.1)

/-- The events in the ingress that were not dequeued. -/
def queued (w : PipelineWorld) : List AcceptedDiagnosticEvent :=
  (w.hub.ingress.shared.state.outstanding.filter (·.phase = .queued)).map (·.event)

/-- The database. -/
def stored (w : PipelineWorld) : StoredState := w.writer.store.stored

/-- The world with another ingress. -/
def withIngress (w : PipelineWorld) (shared : SharedIngress) : PipelineWorld :=
  { w with hub := { w.hub with ingress := { w.hub.ingress with shared } } }

end PipelineWorld

section Steps

variable (encode : DiagnosticEvent → Option (List UInt8)) (encoders : Encoders)

/-- One step of a producer, of another user of the ingress, or of the writer thread. -/
inductive PipelineStep : PipelineWorld → PipelineWorld → Prop
  /-- An admission or a delivery. -/
  | produce {w : PipelineWorld} {label : HubLabel} {hub : HubWorld}
      (step : HubStep encode w.hub label hub) (producer : label ≠ .consumed) :
      PipelineStep w { w with hub }
  /-- A call that leaves the outstanding events alone: a seal, a cue capture, a failure received. -/
  | side {w : PipelineWorld} {ingress : IngressWorld} (step : ConsumerStep w.hub.ingress ingress)
      (kept : ingress.shared.state.outstanding = w.hub.ingress.shared.state.outstanding) :
      PipelineStep w { w with hub := { w.hub with ingress } }
  /-- `try_dequeue`, then `push`. -/
  | dequeue {w : PipelineWorld} {accumulator : BatchAccumulator} {event : AcceptedDiagnosticEvent}
      {shared : SharedIngress} (now : Nat) (running : w.thread = .running accumulator)
      (dequeued : w.hub.ingress.shared.tryDequeue = (some event, shared)) :
      PipelineStep w
        { w.withIngress shared with thread := .afterTrigger [event] (accumulator.push event now) }
  | poll {w : PipelineWorld} {accumulator : BatchAccumulator} (now : Nat)
      (running : w.thread = .running accumulator) :
      PipelineStep w { w with thread := .afterTrigger [] (accumulator.poll now) }
  | flush {w : PipelineWorld} {accumulator : BatchAccumulator}
      (running : w.thread = .running accumulator) :
      PipelineStep w { w with thread := .afterTrigger [] accumulator.flush }
  /-- `TransactionalWriter::commit_batch` up to its observer. -/
  | commit {w : PipelineWorld} {accumulator : BatchAccumulator} {batch : EventBatch}
      (outcomes : Outcomes) (committing : w.thread = .committing accumulator batch) :
      PipelineStep w
        { w with
          writer := (w.writer.commitBatch encoders outcomes batch).2
          thread := .afterCommit accumulator batch
            (w.writer.commitBatch encoders outcomes batch).1 }
  /-- The observer's `mark_committed`, whose answer is ignored. -/
  | acknowledge {w : PipelineWorld} {accumulator : BatchAccumulator}
      {notification : CommitNotification}
      (acknowledging : w.thread = .acknowledging accumulator notification) :
      PipelineStep w
        { w.withIngress (w.hub.ingress.shared.markCommitted notification).2 with
          thread := .running accumulator }
  /-- `run_writer` returns for a reason of its own. -/
  | stop {w : PipelineWorld} : PipelineStep w { w with thread := .stopped w.thread.held }

end Steps

/-! ## The invariant -/

/-- The database holds a prefix of the accepted events, and what follows it is with the writer
thread, then in the queue. -/
structure DensePrefix (runId : CanonicalUuid) (w : PipelineWorld) : Prop where
  hub : HubInvariant runId w.hub
  le : w.stored.committedSequence ≤ w.accepted.length
  rows : w.stored.events = (w.accepted.take w.stored.committedSequence).map .ofAccepted
  readModel : w.stored.readModelSequence = w.stored.committedSequence
  /-- All that a stopped thread held may be lost, but not more. -/
  rest : ∃ rest, w.accepted.drop w.stored.committedSequence = rest ++ w.queued ∧
    rest <:+ w.thread.held ∧ (w.thread.Alive → rest = w.thread.held)

section Invariant

variable {encode : DiagnosticEvent → Option (List UInt8)} {encoders : Encoders}
  {runId : CanonicalUuid} {w w' : PipelineWorld}

theorem densePrefix_new (runId : CanonicalUuid) : DensePrefix runId (.new runId) where
  hub := hubInvariant_new runId
  le := Nat.le_refl _
  rows := rfl
  readModel := rfl
  rest := ⟨[], rfl, List.suffix_rfl, fun _ => rfl⟩

theorem DensePrefix.sequences (h : DensePrefix runId w) :
    w.accepted.map (·.sequence) = List.range' 1 w.accepted.length := by
  have hsequences := h.hub.sequences
  unfold PipelineWorld.accepted
  rw [List.map_map, List.length_map]
  exact hsequences

/-- The events of a list of outstanding ones that were not dequeued. -/
theorem queued_congr {hub : HubWorld} (h : hub.ingress.shared.state.outstanding =
    w.hub.ingress.shared.state.outstanding) : { w with hub }.queued = w.queued := by
  unfold PipelineWorld.queued
  rw [h]

/-- What an admission adds to the accepted events, it adds to the queue. -/
theorem produce_queued (h : HubInvariant runId w.hub) {label : HubLabel} {hub : HubWorld}
    (hstep : HubStep encode w.hub label hub) (hproducer : label ≠ .consumed) :
    ∃ added, { w with hub }.accepted = w.accepted ++ added ∧
      { w with hub }.queued = w.queued ++ added := by
  cases hstep with
  | reserve candidate reservationClass subscribed unlocked ordered granted =>
    obtain ⟨-, -, -, hreserve⟩ := HubState.reserve_ok granted
    obtain ⟨-, houtstanding, -⟩ := reserve_granted hreserve
    refine ⟨[], (List.append_nil _).symm, ?_⟩
    rw [List.append_nil]
    exact queued_congr houtstanding
  | refuse candidate reservationClass unlocked refused =>
    refine ⟨[], (List.append_nil _).symm, ?_⟩
    rw [List.append_nil]
    apply queued_congr
    rcases HubState.reserve_error refused with rfl | ⟨size, refusal, hreserve⟩
    · rfl
    · obtain ⟨isSealed, authorized, failure, hstate⟩ := reserve_refused hreserve
      rw [hstate]
  | @accept pending subscribed accepted _ _ locked settled =>
    have hheld := h.held
    rw [HubWorld.held, locked] at hheld
    have hlive : pending.reservation ∈ w.hub.ingress.reservations := by
      rw [hheld]
      simp
    refine ⟨[accepted], ?_, ?_⟩
    · simp [PipelineWorld.accepted]
    · simp [PipelineWorld.queued, IngressWorld.commit, commit_state accepted h.accounted hlive,
        List.filter_append]
  | reject locked settled =>
    refine ⟨[], (List.append_nil _).symm, ?_⟩
    rw [List.append_nil]
    exact queued_congr rfl
  | deliver inDelivery =>
    refine ⟨[], (List.append_nil _).symm, ?_⟩
    rw [List.append_nil]
    exact queued_congr rfl
  | consume step => exact absurd rfl hproducer

/-- The dequeued event was the first of the queue. -/
theorem dequeue_queued {event : AcceptedDiagnosticEvent} {shared : SharedIngress}
    (h : w.hub.ingress.shared.tryDequeue = (some event, shared)) :
    w.queued = event :: (w.withIngress shared).queued := by
  unfold SharedIngress.tryDequeue at h
  cases hdequeue : dequeueFirst w.hub.ingress.shared.state.outstanding with
  | none =>
    rw [hdequeue] at h
    cases h
  | some result =>
    rw [hdequeue] at h
    cases h
    obtain ⟨before, after, bytes, hold, hnew, hinFlight⟩ := dequeueFirst_eq_some hdequeue
    have hbefore : before.filter (·.phase = .queued) = [] := by
      rw [List.filter_eq_nil_iff]
      intro tracked htracked
      simp [hinFlight tracked htracked]
    simp [PipelineWorld.queued, PipelineWorld.withIngress, hold, hnew, List.filter_append, hbefore]

/-- Only dequeued events are acknowledged. -/
theorem acknowledge_queued (h : HubInvariant runId w.hub) (notification : CommitNotification) :
    (w.withIngress (w.hub.ingress.shared.markCommitted notification).2).queued = w.queued := by
  rcases markCommitted_cases notification h.accounted.outstanding_bytes with
    ⟨error, heq⟩ | ⟨hvalidate, heq⟩
  · rw [heq]
    apply queued_congr
    rw [latchFailure_state]
  · rw [heq]
    obtain ⟨-, -, -, hinFlight, -⟩ := validateCommit_eq_ok hvalidate
    have htaken : (w.hub.ingress.shared.state.outstanding.take notification.eventCount).filter
        (·.phase = .queued) = [] := by
      rw [List.filter_eq_nil_iff]
      intro tracked htracked
      simp [hinFlight tracked htracked]
    have hsplit := List.take_append_drop notification.eventCount
      w.hub.ingress.shared.state.outstanding
    unfold PipelineWorld.queued
    conv_rhs => rw [← hsplit, List.filter_append, htaken, List.nil_append]
    rfl

/-! ## One step -/

/-- The accepted events after the stored ones have the sequences after the watermark. -/
theorem DensePrefix.rest_sequences (h : DensePrefix runId w) :
    (w.accepted.drop w.stored.committedSequence).map (·.sequence) =
      List.range' (w.stored.committedSequence + 1)
        (w.accepted.length - w.stored.committedSequence) := by
  rw [List.map_drop, h.sequences, List.drop_range', Nat.mul_one, Nat.add_comm]

/-- A batch at the front of what is not stored ends with its length after the watermark. -/
theorem DensePrefix.last_sequence (h : DensePrefix runId w) {batch : EventBatch}
    {after : List AcceptedDiagnosticEvent}
    (hdrop : w.accepted.drop w.stored.committedSequence = batch.events ++ after) :
    batch.last.sequence = w.stored.committedSequence + batch.events.length := by
  have hsequences := h.rest_sequences
  rw [hdrop, List.map_append] at hsequences
  have hlength := congrArg List.length hdrop
  rw [List.length_drop, List.length_append] at hlength
  have hpos := List.length_pos_iff.mpr batch.nonempty
  have hget := congrArg (·[batch.events.length - 1]?) hsequences
  rw [List.getElem?_append_left (by rw [List.length_map]; omega), List.getElem?_map,
    List.getElem?_eq_getElem (by omega), List.getElem?_range' (by omega)] at hget
  have hvalue : batch.events[batch.events.length - 1].sequence =
      w.stored.committedSequence + 1 + 1 * (batch.events.length - 1) := Option.some.inj hget
  unfold EventBatch.last
  rw [List.getLast_eq_getElem]
  omega

/-- The batch at the front of what is not stored is stored, and the thread keeps the rest. -/
theorem DensePrefix.store (h : DensePrefix runId w) {batch : EventBatch}
    {pending : List AcceptedDiagnosticEvent} (materialized : EncodedMaterializedState)
    {writer : TransactionalWriter} {thread : WriterThread}
    (hdrop : w.accepted.drop w.stored.committedSequence = batch.events ++ (pending ++ w.queued))
    (hstored : writer.store.stored =
      w.stored.written batch.events materialized batch.last.sequence)
    (hheld : pending <:+ thread.held) (halive : thread.Alive → pending = thread.held) :
    DensePrefix runId { w with writer, thread } := by
  have hlast := h.last_sequence hdrop
  have hlength := congrArg List.length hdrop
  rw [List.length_drop, List.length_append] at hlength
  have hle := h.le
  have hwatermark : writer.store.stored.committedSequence =
      w.stored.committedSequence + batch.events.length := by
    rw [hstored]
    exact hlast
  have haccepted : { w with writer, thread }.accepted = w.accepted := rfl
  have hnew : { w with writer, thread }.stored = writer.store.stored := rfl
  refine ⟨h.hub, ?_, ?_, ?_, pending, ?_, hheld, halive⟩
  · rw [hnew, hwatermark, haccepted]
    omega
  · rw [hnew, hwatermark, haccepted, List.take_add, hdrop, List.take_left, List.map_append,
      ← h.rows, hstored]
    rfl
  · rw [hnew, hstored]
    rfl
  · rw [hnew, hwatermark, haccepted, ← List.drop_drop, hdrop, List.drop_left]
    rfl

/-- A step that stores nothing: what it takes from the queue, the thread gets. -/
theorem DensePrefix.move (h : DensePrefix runId w) (added taken : List AcceptedDiagnosticEvent)
    (hhub : HubInvariant runId w'.hub) (hwriter : w'.writer = w.writer)
    (haccepted : w'.accepted = w.accepted ++ added)
    (hqueued : w.queued ++ added = taken ++ w'.queued)
    (hheld : w'.thread.held = w.thread.held ++ taken)
    (halive : w'.thread.Alive → w.thread.Alive) : DensePrefix runId w' := by
  have hstored : w'.stored = w.stored := by
    unfold PipelineWorld.stored
    rw [hwriter]
  have hle := h.le
  obtain ⟨rest, hdrop, hsuffix, hrest⟩ := h.rest
  refine ⟨hhub, ?_, ?_, ?_, rest ++ taken, ?_, ?_, ?_⟩
  · rw [hstored, haccepted, List.length_append]
    omega
  · rw [hstored, haccepted, List.take_append_of_le_length hle]
    exact h.rows
  · rw [hstored]
    exact h.readModel
  · rw [hstored, haccepted, List.drop_append_of_le_length hle, hdrop, List.append_assoc, hqueued,
      List.append_assoc]
  · obtain ⟨before, hbefore⟩ := hsuffix
    rw [hheld, ← hbefore, List.append_assoc]
    exact List.suffix_append _ _
  · intro hthread
    rw [hheld, hrest (halive hthread)]

/-- A step that moves no event. -/
theorem DensePrefix.keep (h : DensePrefix runId w) (hhub : HubInvariant runId w'.hub)
    (hwriter : w'.writer = w.writer) (haccepted : w'.accepted = w.accepted)
    (hqueued : w'.queued = w.queued) (hheld : w'.thread.held = w.thread.held)
    (halive : w'.thread.Alive → w.thread.Alive) : DensePrefix runId w' := by
  refine h.move [] [] hhub hwriter ?_ ?_ ?_ halive
  · rw [haccepted, List.append_nil]
  · rw [hqueued, List.append_nil, List.nil_append]
  · rw [hheld, List.append_nil]

/-- `commit_batch` stores the batch, or nothing. -/
theorem densePrefix_commit (h : DensePrefix runId w) {accumulator : BatchAccumulator}
    {batch : EventBatch} (outcomes : Outcomes)
    (hcommitting : w.thread = .committing accumulator batch) :
    DensePrefix runId
      { w with
        writer := (w.writer.commitBatch encoders outcomes batch).2
        thread := .afterCommit accumulator batch
          (w.writer.commitBatch encoders outcomes batch).1 } := by
  obtain ⟨rest, hdrop, -, halive⟩ := h.rest
  rw [halive (by rw [hcommitting]; trivial), hcommitting, WriterThread.held, List.append_assoc]
    at hdrop
  have hspec := commitBatch_spec encoders outcomes w.writer batch
  generalize (w.writer.commitBatch encoders outcomes batch).1 = answer at hspec ⊢
  generalize (w.writer.commitBatch encoders outcomes batch).2 = writer at hspec ⊢
  have hunchanged : ∀ fault, DensePrefix runId
      { w with thread := .afterCommit accumulator batch (.error fault) } := fun fault =>
    ⟨h.hub, h.le, h.rows, h.readModel, _, by rw [← List.append_assoc] at hdrop; exact hdrop,
      List.suffix_rfl, fun _ => rfl⟩
  cases hspec with
  | refused fault _ => exact hunchanged fault
  | rolledBack _ error _ _ _ => exact hunchanged (.raised error)
  | unacknowledged prepared error hprepare _ _ =>
    have hnotification := (candidate_eq_ok (prepareBatch_eq_ok.mp hprepare).1).2.2
    refine h.store prepared.materialized hdrop ?_ (List.suffix_append _ _)
      (fun hstopped => hstopped.elim)
    simp only [PreparedBatch.writes, hnotification]
    rfl
  | committed prepared hprepare =>
    have hnotification := (candidate_eq_ok (prepareBatch_eq_ok.mp hprepare).1).2.2
    refine h.store prepared.materialized hdrop ?_ List.suffix_rfl (fun _ => rfl)
    simp only [PreparedBatch.takenOver, PreparedBatch.writes, hnotification]
    rfl

/-- **Every step keeps the invariant.** -/
theorem densePrefix_step (h : DensePrefix runId w) (hstep : PipelineStep encode encoders w w') :
    DensePrefix runId w' := by
  have halive : ∀ {accumulator}, w.thread = .running accumulator → w.thread.Alive := by
    intro accumulator hrunning
    rw [hrunning]
    trivial
  cases hstep with
  | produce step producer =>
    obtain ⟨added, haccepted, hqueued⟩ := produce_queued h.hub step producer
    exact h.move added [] (hub_step_invariant h.hub ⟨_, step⟩) rfl haccepted hqueued.symm
      (List.append_nil _).symm id
  | side step kept => exact h.keep (hub_consume h.hub step) rfl rfl (queued_congr kept) rfl id
  | @dequeue accumulator event shared now running dequeued =>
    have hhub := hub_consume h.hub .tryDequeue
    rw [dequeued] at hhub
    refine h.move [] [event] hhub rfl (List.append_nil _).symm ?_ ?_ fun _ => halive running
    · rw [List.append_nil]
      exact dequeue_queued dequeued
    · rw [running]
      exact WriterThread.held_afterTrigger (accumulator.push_yields event now)
  | @poll accumulator now running =>
    refine h.keep h.hub rfl rfl rfl ?_ fun _ => halive running
    rw [running]
    exact WriterThread.held_afterTrigger_nil (accumulator.poll_yields now)
  | @flush accumulator running =>
    refine h.keep h.hub rfl rfl rfl ?_ fun _ => halive running
    rw [running]
    exact WriterThread.held_afterTrigger_nil accumulator.flush_yields
  | commit outcomes committing => exact densePrefix_commit h outcomes committing
  | @acknowledge accumulator notification acknowledging =>
    refine h.keep (hub_consume h.hub (.markCommitted notification)) rfl rfl
      (acknowledge_queued h.hub notification) ?_ ?_
    · rw [acknowledging]
      rfl
    · intro _
      rw [acknowledging]
      trivial
  | stop => exact h.keep h.hub rfl rfl rfl rfl False.elim

end Invariant

/-! ## Places -/

/-- Where an accepted event can be. -/
inductive Place where
  | persisted
  /-- Pending in the accumulator, or in the current batch. -/
  | writer
  | queue
deriving DecidableEq

/-- The event is at this place. What a stopped thread held is nowhere. -/
def PipelineWorld.At (w : PipelineWorld) (event : AcceptedDiagnosticEvent) : Place → Prop
  | .persisted => EventRow.ofAccepted event ∈ w.stored.events
  | .writer => w.thread.Alive ∧ event ∈ w.thread.held
  | .queue => event ∈ w.queued

section Places

variable {encode : DiagnosticEvent → Option (List UInt8)} {encoders : Encoders}
  {runId : CanonicalUuid} {w : PipelineWorld} {event : AcceptedDiagnosticEvent}

/-- The accepted events differ in their sequences. -/
theorem DensePrefix.nodup (h : DensePrefix runId w) : (w.accepted.map (·.sequence)).Nodup := by
  rw [h.sequences]
  exact List.nodup_range'

theorem at_persisted_iff (h : DensePrefix runId w) (hevent : event ∈ w.accepted) :
    w.At event .persisted ↔ event ∈ w.accepted.take w.stored.committedSequence := by
  unfold PipelineWorld.At
  rw [h.rows]
  constructor
  · intro hrow
    obtain ⟨other, hother, hsame⟩ := List.mem_map.mp hrow
    have heq : other = event := List.inj_on_of_nodup_map h.nodup (List.mem_of_mem_take hother) hevent
      (congrArg EventRow.sequence hsame)
    rw [← heq]
    exact hother
  · exact List.mem_map_of_mem

/-- An event is stored, with the writer, in the queue, or lost with the writer: one of these. -/
theorem places (h : DensePrefix runId w) (hevent : event ∈ w.accepted) :
    (∀ place other, w.At event place → w.At event other → place = other) ∧
      ((∃ place, w.At event place) ∨ ∃ held, w.thread = .stopped held ∧ event ∈ held) := by
  obtain ⟨rest, hdrop, hsuffix, halive⟩ := h.rest
  have hsplit := List.take_append_drop w.stored.committedSequence w.accepted
  rw [hdrop] at hsplit
  have hnodup : (w.accepted.take w.stored.committedSequence ++ (rest ++ w.queued)).Nodup := by
    rw [hsplit]
    exact h.nodup.of_map
  obtain ⟨-, hrest, hstored⟩ := List.nodup_append'.mp hnodup
  obtain ⟨-, -, hqueued⟩ := List.nodup_append'.mp hrest
  have hpersisted := at_persisted_iff h hevent
  have hwriter : w.At event .writer → event ∈ rest := by
    rintro ⟨hthread, hheld⟩
    rw [halive hthread]
    exact hheld
  constructor
  · have hpersistedWriter : w.At event .persisted → ¬w.At event .writer := fun hp hw =>
      hstored (hpersisted.mp hp) (List.mem_append_left _ (hwriter hw))
    have hpersistedQueue : w.At event .persisted → ¬w.At event .queue := fun hp hq =>
      hstored (hpersisted.mp hp) (List.mem_append_right _ hq)
    have hwriterQueue : w.At event .writer → ¬w.At event .queue := fun hw hq =>
      hqueued (hwriter hw) hq
    intro place other hplace hother
    cases place <;> cases other <;> first | rfl | exact (hpersistedWriter ‹_› ‹_›).elim |
      exact (hpersistedQueue ‹_› ‹_›).elim | exact (hwriterQueue ‹_› ‹_›).elim
  · rw [← hsplit] at hevent
    rcases List.mem_append.mp hevent with hstored | hevent
    · exact .inl ⟨.persisted, hpersisted.mpr hstored⟩
    · rcases List.mem_append.mp hevent with hrest | hqueue
      · have hheld := hsuffix.mem hrest
        cases hthread : w.thread with
        | stopped held =>
          rw [hthread] at hheld
          exact .inr ⟨held, rfl, hheld⟩
        | running _ | committing _ _ | acknowledging _ _ =>
          exact .inl ⟨.writer, by rw [hthread]; trivial, hheld⟩
      · exact .inl ⟨.queue, hqueue⟩

/-- **The database is a dense prefix of the accepted events in every reachable state.** Both stored
watermarks are its length, the events after it have the sequences after it, and each accepted event
is stored, with the writer, or in the queue, and not in two of these places; only an event that the
writer thread held when it stopped can be in none. -/
theorem pipeline_dense_prefix
    (h : ReflTransGen (PipelineStep encode encoders) (.new runId) w) :
    w.accepted.map (·.sequence) = List.range' 1 w.accepted.length ∧
      w.stored.events = (w.accepted.take w.stored.committedSequence).map .ofAccepted ∧
      w.stored.events.map (·.sequence) = List.range' 1 w.stored.committedSequence ∧
      w.stored.readModelSequence = w.stored.committedSequence ∧
      (w.accepted.drop w.stored.committedSequence).map (·.sequence) =
        List.range' (w.stored.committedSequence + 1)
          (w.accepted.length - w.stored.committedSequence) ∧
      ∀ event ∈ w.accepted,
        (∀ place other, w.At event place → w.At event other → place = other) ∧
          ((∃ place, w.At event place) ∨ ∃ held, w.thread = .stopped held ∧ event ∈ held) := by
  have hdense : DensePrefix runId w :=
    run_invariant (p := DensePrefix runId) (fun _ _ hw hstep => densePrefix_step hw hstep)
      (densePrefix_new runId) h
  refine ⟨hdense.sequences, hdense.rows, ?_, hdense.readModel, hdense.rest_sequences,
    fun event hevent => places hdense hevent⟩
  have hle := hdense.le
  rw [hdense.rows, List.map_map]
  change (w.accepted.take w.stored.committedSequence).map (·.sequence) = _
  rw [List.map_take, hdense.sequences]
  exact List.take_range'_of_length_ge hle

end Places

/-- A run whose first event was admitted, dequeued and flushed into a batch. -/
theorem first_committing : ∃ w accumulator,
    ReflTransGen (PipelineStep (fun _ => some [0]) .oneByte) (.new ⟨1⟩) w ∧
      w.accepted = [runBatch.first] ∧ w.queued = [] ∧ w.writer = .fresh ⟨1⟩ ∧
      w.thread = .committing accumulator ⟨[runBatch.first], 1, List.cons_ne_nil _ _⟩ ∧
      accumulator.pending = [] := by
  let start : EventIdentity → DiagnosticEvent := fun _ =>
    .spanStarted ⟨.at 1 10 [] (by decide), .runLifecycle, none⟩
  have hreserved : ReflTransGen (PipelineStep (fun _ => some [0]) .oneByte) (.new ⟨1⟩) _ :=
    .single (.produce (.reserve start .normal true rfl (fun _ => rfl) rfl) (by decide))
  have haccepted := hreserved.tail (.produce (.accept rfl rfl) (by decide))
  have hdequeued := haccepted.tail (.dequeue 0 rfl rfl)
  have hflushed := hdequeued.tail (.flush rfl)
  exact ⟨_, _, hflushed, rfl, rfl, rfl, rfl, rfl⟩

/-- The batch is stored. -/
theorem pipeline_dense_prefix_stored : ∃ w,
    ReflTransGen (PipelineStep (fun _ => some [0]) .oneByte) (.new ⟨1⟩) w ∧
      w.stored.events.length = 1 ∧ w.stored.readModelSequence = w.stored.committedSequence ∧
      ∀ event ∈ w.accepted, ∃ place, w.At event place := by
  obtain ⟨w, accumulator, hrun, haccepted, -, hwriter, hthread, -⟩ := first_committing
  have hcommitted := hrun.tail (.commit .allSucceed hthread)
  obtain ⟨-, -, -, hreadModel, -, hplaces⟩ := pipeline_dense_prefix hcommitted
  have hanswer : ((TransactionalWriter.fresh ⟨1⟩).commitBatch .oneByte .allSucceed
      ⟨[runBatch.first], 1, List.cons_ne_nil _ _⟩).1 = .ok ⟨⟨1⟩, 0, 1, 1, 1⟩ := by decide +kernel
  refine ⟨_, hcommitted, ?_, hreadModel, fun event hevent => ?_⟩
  · simp only [PipelineWorld.stored, hwriter]
    decide +kernel
  · rcases (hplaces event hevent).2 with hplace | ⟨held, hstopped, -⟩
    · exact hplace
    · rw [hwriter, hanswer] at hstopped
      cases hstopped

/-- The commit fails: the writer thread ends, and the event it held is nowhere. -/
theorem failed_commit_drops_batch : ∃ w,
    ReflTransGen (PipelineStep (fun _ => some [0]) .oneByte) (.new ⟨1⟩) w ∧
      ∃ event ∈ w.accepted, ∀ place, ¬w.At event place := by
  obtain ⟨w, accumulator, hrun, haccepted, hqueued, hwriter, hthread, hpending⟩ := first_committing
  have hanswer : ((TransactionalWriter.fresh ⟨1⟩).commitBatch .oneByte .thirdFails
      ⟨[runBatch.first], 1, List.cons_ne_nil _ _⟩).1 =
      .error (.raised (.statement 3 (.insertMaterialized .spans))) := by decide +kernel
  refine ⟨_, hrun.tail (.commit .thirdFails hthread), runBatch.first, ?_, ?_⟩
  · change runBatch.first ∈ w.accepted
    rw [haccepted]
    exact List.mem_singleton_self _
  · intro place hplace
    cases place with
    | persisted =>
      simp only [PipelineWorld.At, PipelineWorld.stored, hwriter, commitBatch_failed hanswer trivial]
        at hplace
      cases hplace
    | writer =>
      simp only [PipelineWorld.At, hwriter, hanswer] at hplace
      exact hplace.1
    | queue =>
      change runBatch.first ∈ w.queued at hplace
      rw [hqueued] at hplace
      cases hplace

end Troupe.Store
