import Troupe.Store.Batch

/-! # The mandatory ingress

`MandatoryIngress` of `store/admission.rs`: the bounded buffer between the hub and the writer. A
reservation is taken before an event is accepted and either committed (the event joins the
outstanding list) or dropped; the writer dequeues outstanding events and later acknowledges a
committed prefix of them.

* Every method holds the state's mutex for its whole body, so a method is one function on
  `SharedIngress`: the state and the failure channel (`sync_channel(1)`).
* A mutex is poisoned only by a panic inside a method. Panics are `Fault.panicked`; the
  `StatePoisoned` errors that would follow are left out.
* `committed_sequence + 1` wraps, as in a release build.

Results: one lemma per method saying what it does to the state. -/

namespace Troupe.Store

open Troupe.Core Troupe.Lib

/-- `MAX_UNCOMMITTED_EVENTS`. -/
def maxUncommittedEvents : Nat := 32768
/-- `MAX_UNCOMMITTED_CANONICAL_BYTES`. -/
def maxUncommittedCanonicalBytes : Nat := 64 * 1024 * 1024
/-- `CUE_CAPTURE_PAUSE_EVENTS`. -/
def cueCapturePauseEvents : Nat := maxUncommittedEvents * 3 / 4
/-- `CUE_CAPTURE_PAUSE_CANONICAL_BYTES`. -/
def cueCapturePauseCanonicalBytes : Nat := maxUncommittedCanonicalBytes * 3 / 4
/-- `CUE_CAPTURE_RESUME_EVENTS`. -/
def cueCaptureResumeEvents : Nat := maxUncommittedEvents / 4
/-- `CUE_CAPTURE_RESUME_CANONICAL_BYTES`. -/
def cueCaptureResumeCanonicalBytes : Nat := maxUncommittedCanonicalBytes / 4

/-! ## State -/

/-- `DeliveryPhase`. -/
inductive DeliveryPhase where
  | queued
  | inFlight
deriving DecidableEq

/-- `TrackedEvent`. -/
structure TrackedEvent where
  event : AcceptedDiagnosticEvent
  canonicalBytes : Nat
  phase : DeliveryPhase

/-- `FatalAdmissionState`. -/
inductive FatalAdmissionState where
  | available
  | reserved
  | admitted
deriving DecidableEq

/-- `IngressCoreFailureKind`. -/
inductive IngressCoreFailureKind where
  | budgetExhausted
  | commitAccounting
deriving DecidableEq

/-- `IngressCoreFailure`. -/
structure IngressCoreFailure where
  kind : IngressCoreFailureKind
  currentEvents : Nat
  currentCanonicalBytes : Nat
  attemptedEvents : Nat
  attemptedCanonicalBytes : Nat
  eventLimitExceeded : Bool
  byteLimitExceeded : Bool
deriving DecidableEq

/-- `IngressCoreFailure::commit_accounting_failed`. -/
def IngressCoreFailure.commitAccountingFailed : IngressCoreFailure :=
  ⟨.commitAccounting, 0, 0, 0, 0, false, false⟩

/-- `IngressState`. -/
structure IngressState where
  reservedEvents : Nat
  reservedCanonicalBytes : Nat
  outstanding : List TrackedEvent
  outstandingCanonicalBytes : Nat
  committedSequence : Nat
  runId : Option CanonicalUuid
  normalIngressSealed : Bool
  cueCapturePaused : Bool
  suppressedCues : Nat
  fatalAdmissionAuthorized : Bool
  failure : Option IngressCoreFailure
  fatalState : FatalAdmissionState

/-- `IngressState::default`. -/
def IngressState.default : IngressState :=
  ⟨0, 0, [], 0, 0, none, false, false, 0, false, none, .available⟩

/-- `sync_channel(1)`: what is buffered, and whether the receiver is still there. -/
structure FailureChannel where
  buffered : Option IngressCoreFailure
  connected : Bool

/-- `SyncSender::try_send`; the three outcomes are ignored by the caller. -/
def FailureChannel.trySend (channel : FailureChannel) (failure : IngressCoreFailure) :
    FailureChannel :=
  if channel.connected && channel.buffered.isNone then
    { channel with buffered := some failure }
  else
    channel

/-- `SharedIngress`. -/
structure SharedIngress where
  state : IngressState
  channel : FailureChannel

/-- `MandatoryIngress::new`. -/
def SharedIngress.new : SharedIngress := ⟨.default, ⟨none, true⟩⟩

/-- `ReservationClass`. -/
inductive ReservationClass where
  | normal
  | cue
  | fatal
deriving DecidableEq

/-- `IngressReservation`; `committed` is the handle being consumed. -/
structure IngressReservation where
  size : AdmissionSize
  reservationClass : ReservationClass
deriving DecidableEq

/-- `IngressAdmissionError`. -/
inductive IngressAdmissionError where
  | invalidEventCount (actual : Nat)
  | budgetExhausted (failure : IngressCoreFailure)
  | isSealed (failure : Option IngressCoreFailure)
  | fatalBeforeCoreFailure
  | fatalAlreadyReserved
  | fatalAlreadyAdmitted
  | fatalCapacityUnavailable
deriving DecidableEq

/-- `CommitAccountingError`. -/
inductive CommitAccountingError where
  | runIdentityMismatch
  | stalePrevious (expected actual : Nat)
  | missingPrefix (expected actual : Nat)
  | prefixNotInFlight
  | nonDensePrefix (expected actual : Nat)
  | committedSequenceMismatch (expected actual : Nat)
  | canonicalByteCountMismatch (expected actual : Nat)
  | canonicalByteCountOverflow
  | sequenceExhausted
deriving DecidableEq

/-- `CueCaptureDecision`. -/
inductive CueCaptureDecision where
  | capture
  | suppress
  | resume (suppressedCues : Nat)
deriving DecidableEq

/-! ## Operations -/

/-- `latch_failure`. -/
def latchFailure (shared : SharedIngress) (failure : IngressCoreFailure) : SharedIngress :=
  let latched : IngressState :=
    { shared.state with normalIngressSealed := true, fatalAdmissionAuthorized := true }
  match shared.state.failure with
  | some _ => { shared with state := latched }
  | none => ⟨{ latched with failure := some failure }, shared.channel.trySend failure⟩

/-- `release_reserved`. -/
def releaseReserved (state : IngressState) (size : AdmissionSize) : IngressState :=
  { state with
    reservedEvents := state.reservedEvents - size.eventCount
    reservedCanonicalBytes := state.reservedCanonicalBytes - size.canonicalBytes }

namespace IngressState

/-- `current_events` of `reserve` and `begin_cue_capture`. -/
def currentEvents (state : IngressState) : Nat :=
  saturatingAdd usizeMax state.reservedEvents state.outstanding.length

/-- `current_bytes` of `reserve` and `begin_cue_capture`. -/
def currentBytes (state : IngressState) : Nat :=
  saturatingAdd usizeMax state.reservedCanonicalBytes state.outstandingCanonicalBytes

/-- The check of `reserve` that depends on the reservation class. -/
def checkClass (state : IngressState) : ReservationClass → Except IngressAdmissionError Unit
  | .normal | .cue =>
    if state.normalIngressSealed then .error (.isSealed state.failure) else .ok ()
  | .fatal =>
    if !state.fatalAdmissionAuthorized then
      .error .fatalBeforeCoreFailure
    else
      match state.fatalState with
      | .available => .ok ()
      | .reserved => .error .fatalAlreadyReserved
      | .admitted => .error .fatalAlreadyAdmitted

end IngressState

/-- A candidate total that overflowed or passes its limit. -/
def exceeds (candidate : Option Nat) (limit : Nat) : Bool := candidate.isNone || candidate.any (limit < ·)

namespace SharedIngress

/-- `reserve`, once the class check passed. -/
def reserveChecked (shared : SharedIngress) (size : AdmissionSize)
    (reservationClass : ReservationClass) :
    Except (Fault IngressAdmissionError) IngressReservation × SharedIngress :=
  let state := shared.state
  let candidateEvents := checkedAdd usizeMax state.currentEvents size.eventCount
  let candidateBytes := checkedAdd usizeMax state.currentBytes size.canonicalBytes
  let eventLimitExceeded := exceeds candidateEvents maxUncommittedEvents
  let byteLimitExceeded := exceeds candidateBytes maxUncommittedCanonicalBytes
  if eventLimitExceeded || byteLimitExceeded then
    if reservationClass = .fatal then
      (.error (.raised .fatalCapacityUnavailable), shared)
    else
      let failure : IngressCoreFailure :=
        ⟨.budgetExhausted, state.currentEvents, state.currentBytes, size.eventCount,
          size.canonicalBytes, eventLimitExceeded, byteLimitExceeded⟩
      (.error (.raised (.budgetExhausted failure)), latchFailure shared failure)
  else
    let pauses := reservationClass = .cue ∧
      (candidateEvents.any (cueCapturePauseEvents ≤ ·) ||
        candidateBytes.any (cueCapturePauseCanonicalBytes ≤ ·))
    match checkedAdd usizeMax state.reservedEvents size.eventCount,
      checkedAdd usizeMax state.reservedCanonicalBytes size.canonicalBytes with
    | some reservedEvents, some reservedCanonicalBytes =>
      (.ok ⟨size, reservationClass⟩,
        { shared with
          state :=
            { state with
              reservedEvents
              reservedCanonicalBytes
              cueCapturePaused := state.cueCapturePaused || pauses
              fatalState := if reservationClass = .fatal then .reserved else state.fatalState } })
    | none, _ => (.error (.panicked "the total budget check also bounds reserved events"), shared)
    | some _, none =>
      (.error (.panicked "the total budget check also bounds reserved bytes"), shared)

/-- `reserve`. -/
def reserve (shared : SharedIngress) (size : AdmissionSize) (reservationClass : ReservationClass) :
    Except (Fault IngressAdmissionError) IngressReservation × SharedIngress :=
  if size.eventCount ≠ 1 then
    (.error (.raised (.invalidEventCount size.eventCount)), shared)
  else
    match shared.state.checkClass reservationClass with
    | .error error => (.error (.raised error), shared)
    | .ok () => shared.reserveChecked size reservationClass

end SharedIngress

/-- The sequence `IngressReservation::commit` expects of the next event. -/
def expectedSequence (state : IngressState) : Nat :=
  match state.outstanding.getLast? with
  | none => (state.committedSequence + 1) % 2 ^ 64
  | some tracked => saturatingAdd u64Max tracked.event.sequence 1

/-- The three checks of `IngressReservation::commit`. -/
def commitMatches (state : IngressState) (size : AdmissionSize) (event : AcceptedDiagnosticEvent) :
    Bool :=
  event.canonicalBytes.length == size.canonicalBytes &&
    state.runId.all (· == event.runId) && event.sequence == expectedSequence state

/-- The event joins the outstanding list. -/
def pushOutstanding (state : IngressState) (reservation : IngressReservation)
    (event : AcceptedDiagnosticEvent) : IngressState :=
  { state with
    runId := some (state.runId.getD event.runId)
    outstandingCanonicalBytes :=
      saturatingAdd usizeMax state.outstandingCanonicalBytes reservation.size.canonicalBytes
    outstanding := state.outstanding ++ [⟨event, reservation.size.canonicalBytes, .queued⟩]
    fatalState := if reservation.reservationClass = .fatal then .admitted else state.fatalState }

namespace SharedIngress

/-- `IngressReservation::commit`. -/
def commit (shared : SharedIngress) (reservation : IngressReservation)
    (event : AcceptedDiagnosticEvent) : SharedIngress :=
  let released := releaseReserved shared.state reservation.size
  let checked :=
    if commitMatches released reservation.size event then
      { shared with state := released }
    else
      latchFailure { shared with state := released } .commitAccountingFailed
  { checked with state := pushOutstanding checked.state reservation event }

/-- `Drop for IngressReservation`, for a handle that was not committed. -/
def drop (shared : SharedIngress) (reservation : IngressReservation) : SharedIngress :=
  let released := releaseReserved shared.state reservation.size
  { shared with
    state :=
      { released with
        fatalState :=
          if reservation.reservationClass = .fatal ∧ released.fatalState = .reserved then
            .available
          else
            released.fatalState } }

end SharedIngress

/-- Mark the first queued event as in flight. -/
def dequeueFirst : List TrackedEvent → Option (AcceptedDiagnosticEvent × List TrackedEvent)
  | [] => none
  | tracked :: rest =>
    match tracked.phase with
    | .queued => some (tracked.event, { tracked with phase := .inFlight } :: rest)
    | .inFlight => (dequeueFirst rest).map fun (event, rest) => (event, tracked :: rest)

/-- The loop of `validate_commit`: the canonical bytes of a dense in-flight prefix. -/
def measurePrefix (committedSequence : Nat) (offset canonicalBytes : Nat) :
    List TrackedEvent → Except CommitAccountingError Nat
  | [] => .ok canonicalBytes
  | tracked :: rest =>
    if tracked.phase ≠ .inFlight then
      .error .prefixNotInFlight
    else
      match checkedAdd u64Max committedSequence (offset + 1) with
      | none => .error .sequenceExhausted
      | some expected =>
        if tracked.event.sequence ≠ expected then
          .error (.nonDensePrefix expected tracked.event.sequence)
        else
          match checkedAdd usizeMax canonicalBytes tracked.canonicalBytes with
          | none => .error .canonicalByteCountOverflow
          | some canonicalBytes => measurePrefix committedSequence (offset + 1) canonicalBytes rest

/-- `validate_commit`. -/
def validateCommit (state : IngressState) (notification : CommitNotification) :
    Except CommitAccountingError Unit :=
  if notification.previous ≠ state.committedSequence then
    .error (.stalePrevious state.committedSequence notification.previous)
  else if state.runId.any (· ≠ notification.runId) then
    .error .runIdentityMismatch
  else if state.outstanding.length < notification.eventCount then
    .error (.missingPrefix notification.eventCount state.outstanding.length)
  else do
    let canonicalBytes ← measurePrefix state.committedSequence 0 0
      (state.outstanding.take notification.eventCount)
    match checkedAdd u64Max state.committedSequence notification.eventCount with
    | none => .error .sequenceExhausted
    | some expectedCommitted =>
      if notification.committed ≠ expectedCommitted then
        .error (.committedSequenceMismatch expectedCommitted notification.committed)
      else if notification.canonicalBytes ≠ canonicalBytes then
        .error (.canonicalByteCountMismatch canonicalBytes notification.canonicalBytes)
      else
        .ok ()

/-- Pop `count` events off the front: the bytes they held and what is left. `none` is the `expect`
of `mark_committed`. -/
def popPrefix : Nat → List TrackedEvent → Option (Nat × List TrackedEvent)
  | 0, outstanding => some (0, outstanding)
  | _ + 1, [] => none
  | count + 1, tracked :: rest =>
    (popPrefix count rest).map fun (released, rest) => (tracked.canonicalBytes + released, rest)

namespace SharedIngress

/-- `try_dequeue`. -/
def tryDequeue (shared : SharedIngress) : Option AcceptedDiagnosticEvent × SharedIngress :=
  match dequeueFirst shared.state.outstanding with
  | none => (none, shared)
  | some (event, outstanding) => (some event, { shared with state := { shared.state with outstanding } })

/-- `mark_committed`. -/
def markCommitted (shared : SharedIngress) (notification : CommitNotification) :
    Except (Fault CommitAccountingError) Unit × SharedIngress :=
  match validateCommit shared.state notification with
  | .error error =>
    (.error (.raised error), latchFailure shared .commitAccountingFailed)
  | .ok () =>
    match popPrefix notification.eventCount shared.state.outstanding with
    | none =>
      (.error (.panicked "commit validation proved the complete prefix exists"), shared)
    | some (released, outstanding) =>
      if shared.state.outstandingCanonicalBytes < released then
        (.error (.panicked "attempt to subtract with overflow"), shared)
      else
        (.ok (),
          { shared with
            state :=
              { shared.state with
                outstanding
                outstandingCanonicalBytes := shared.state.outstandingCanonicalBytes - released
                committedSequence := notification.committed } })

/-- `seal_normal_ingress`. -/
def sealNormalIngress (shared : SharedIngress) : Bool × SharedIngress :=
  (!shared.state.normalIngressSealed,
    { shared with state := { shared.state with normalIngressSealed := true } })

/-- `seal_for_external_core_failure`. -/
def sealForExternalCoreFailure (shared : SharedIngress) : Bool × SharedIngress :=
  (!shared.state.normalIngressSealed || !shared.state.fatalAdmissionAuthorized,
    { shared with
      state := { shared.state with
        normalIngressSealed := true
        fatalAdmissionAuthorized := true } })

/-- `begin_cue_capture`. -/
def beginCueCapture (shared : SharedIngress) : CueCaptureDecision × SharedIngress :=
  let state := shared.state
  if state.normalIngressSealed then
    (.capture, shared)
  else if state.cueCapturePaused then
    if state.currentEvents ≤ cueCaptureResumeEvents ∧
        state.currentBytes ≤ cueCaptureResumeCanonicalBytes then
      (if state.suppressedCues = 0 then .capture else .resume state.suppressedCues,
        { shared with state := { state with cueCapturePaused := false, suppressedCues := 0 } })
    else
      (.suppress,
        { shared with
          state := { state with
            suppressedCues := saturatingAdd u64Max state.suppressedCues 1 } })
  else if cueCapturePauseEvents ≤ state.currentEvents ∨
      cueCapturePauseCanonicalBytes ≤ state.currentBytes then
    (.suppress,
      { shared with state := { state with cueCapturePaused := true, suppressedCues := 1 } })
  else
    (.capture, shared)

/-- `finish_cue_capture`. -/
def finishCueCapture (shared : SharedIngress) : Option Nat × SharedIngress :=
  (if 0 < shared.state.suppressedCues then some shared.state.suppressedCues else none,
    { shared with
      state := { shared.state with cueCapturePaused := false, suppressedCues := 0 } })

/-- `IngressFailureReceiver::try_recv`. -/
def tryRecv (shared : SharedIngress) : Option IngressCoreFailure × SharedIngress :=
  (shared.channel.buffered, { shared with channel := { shared.channel with buffered := none } })

/-- The receiver is dropped, with anything it still buffers. -/
def dropReceiver (shared : SharedIngress) : SharedIngress :=
  { shared with channel := ⟨none, false⟩ }

end SharedIngress

end Troupe.Store
