import Mathlib.Algebra.BigOperators.Group.List.Basic
import Troupe.Lib.Transition
import Troupe.Store.Admission

/-! # Accounting of the mandatory ingress

`MandatoryIngress` (`store/admission.rs`) is used by producers, the writer and the failure monitor at
once. Each method runs under one mutex, so a run of the component is a sequence of method calls
(`IngressStep`) in any order and with any arguments:

* a reservation handle is live from the `reserve` that returned it until its `commit` or its `drop`,
  and the world keeps the list of live handles;
* a committed event's sequence is not outstanding already: the hub mints each sequence once;
* `received` and `fatalAdmitted` are history: the failures the receiver was handed, and the events
  admitted through a fatal reservation.

Results: **`accounted_step`**, the invariant of every counter, and **`ingress_accounting`**, what it
says of every reachable state. -/

namespace Troupe.Store

open Relation (ReflTransGen)
open Troupe.Core Troupe.Lib

variable {w w' : IngressWorld}

/-! ## The component and its users -/

/-- The ingress, the handles its users hold, and what they have been given. -/
structure IngressWorld where
  shared : SharedIngress
  reservations : List IngressReservation
  received : List IngressCoreFailure
  fatalAdmitted : List AcceptedDiagnosticEvent

/-- A new ingress nobody has used. -/
def IngressWorld.new : IngressWorld := ⟨.new, [], [], []⟩

/-- One method call that involves no reservation. -/
inductive ConsumerStep : IngressWorld → IngressWorld → Prop
  | tryDequeue {w : IngressWorld} : ConsumerStep w { w with shared := w.shared.tryDequeue.2 }
  | markCommitted {w : IngressWorld} (notification : CommitNotification) :
      ConsumerStep w { w with shared := (w.shared.markCommitted notification).2 }
  | sealNormalIngress {w : IngressWorld} :
      ConsumerStep w { w with shared := w.shared.sealNormalIngress.2 }
  | sealForExternalCoreFailure {w : IngressWorld} :
      ConsumerStep w { w with shared := w.shared.sealForExternalCoreFailure.2 }
  | beginCueCapture {w : IngressWorld} :
      ConsumerStep w { w with shared := w.shared.beginCueCapture.2 }
  | finishCueCapture {w : IngressWorld} :
      ConsumerStep w { w with shared := w.shared.finishCueCapture.2 }
  | tryRecv {w : IngressWorld} :
      ConsumerStep w
        { w with
          shared := w.shared.tryRecv.2
          received := w.received ++ w.shared.tryRecv.1.toList }
  | dropReceiver {w : IngressWorld} : ConsumerStep w { w with shared := w.shared.dropReceiver }

namespace IngressWorld

/-- The world once `reserve` returned a handle. -/
def reserved (w : IngressWorld) (shared : SharedIngress) (reservation : IngressReservation) :
    IngressWorld :=
  { w with shared, reservations := reservation :: w.reservations }

/-- The world once a handle's `commit` returned. -/
def commit (w : IngressWorld) (reservation : IngressReservation) (event : AcceptedDiagnosticEvent) :
    IngressWorld :=
  { w with
    shared := w.shared.commit reservation event
    reservations := w.reservations.erase reservation
    fatalAdmitted :=
      if reservation.reservationClass = .fatal then w.fatalAdmitted ++ [event]
      else w.fatalAdmitted }

/-- The world once a handle was dropped. -/
def drop (w : IngressWorld) (reservation : IngressReservation) : IngressWorld :=
  { w with
    shared := w.shared.drop reservation
    reservations := w.reservations.erase reservation }

end IngressWorld

/-- One method call. -/
inductive IngressStep : IngressWorld → IngressWorld → Prop
  | reserve {w : IngressWorld} {reservation : IngressReservation} {shared : SharedIngress}
      (size : AdmissionSize) (reservationClass : ReservationClass)
      (granted : w.shared.reserve size reservationClass = (.ok reservation, shared)) :
      IngressStep w (w.reserved shared reservation)
  | reserveFails {w : IngressWorld} {fault : Fault IngressAdmissionError} {shared : SharedIngress}
      (size : AdmissionSize) (reservationClass : ReservationClass)
      (refused : w.shared.reserve size reservationClass = (.error fault, shared)) :
      IngressStep w { w with shared }
  | commit {w : IngressWorld} (reservation : IngressReservation) (event : AcceptedDiagnosticEvent)
      (live : reservation ∈ w.reservations)
      (fresh : ∀ tracked ∈ w.shared.state.outstanding, tracked.event.sequence ≠ event.sequence) :
      IngressStep w (w.commit reservation event)
  | drop {w : IngressWorld} (reservation : IngressReservation)
      (live : reservation ∈ w.reservations) : IngressStep w (w.drop reservation)
  | consumer {w w' : IngressWorld} (step : ConsumerStep w w') : IngressStep w w'

/-! ## What each method does -/

section Methods

variable {shared : SharedIngress}

theorem latchFailure_state (shared : SharedIngress) (failure : IngressCoreFailure) :
    (latchFailure shared failure).state =
      { shared.state with
        normalIngressSealed := true
        fatalAdmissionAuthorized := true
        failure := some (shared.state.failure.getD failure) } := by
  unfold latchFailure
  cases h : shared.state.failure with
  | none => rfl
  | some first => simp [h]

theorem latchFailure_channel (shared : SharedIngress) (failure : IngressCoreFailure) :
    (latchFailure shared failure).channel =
      if shared.state.failure.isSome then shared.channel else shared.channel.trySend failure := by
  unfold latchFailure
  cases h : shared.state.failure with
  | none => rfl
  | some first => rfl

/-- What `reserve` can answer, and the state it leaves. -/
inductive Reserves (shared : SharedIngress) (size : AdmissionSize)
    (reservationClass : ReservationClass) :
    Except (Fault IngressAdmissionError) IngressReservation × SharedIngress → Prop
  | refused (error : IngressAdmissionError) :
      Reserves shared size reservationClass (.error (.raised error), shared)
  | exhausted (failure : IngressCoreFailure)
      (isOpen : shared.state.normalIngressSealed = false) (notFatal : reservationClass ≠ .fatal) :
      Reserves shared size reservationClass
        (.error (.raised (.budgetExhausted failure)), latchFailure shared failure)
  | granted (paused : Bool) (one : size.eventCount = 1)
      (allowed : shared.state.checkClass reservationClass = .ok ())
      (events_le :
        shared.state.reservedEvents + shared.state.outstanding.length + 1 ≤ maxUncommittedEvents)
      (bytes_le : shared.state.reservedCanonicalBytes + shared.state.outstandingCanonicalBytes +
        size.canonicalBytes ≤ maxUncommittedCanonicalBytes) :
      Reserves shared size reservationClass
        (.ok ⟨size, reservationClass⟩,
          { shared with
            state :=
              { shared.state with
                reservedEvents := shared.state.reservedEvents + 1
                reservedCanonicalBytes :=
                  shared.state.reservedCanonicalBytes + size.canonicalBytes
                cueCapturePaused := paused
                fatalState :=
                  if reservationClass = .fatal then .reserved else shared.state.fatalState } })

/-- A candidate total within its limit was added without saturating or overflowing. -/
theorem exceeds_eq_false {a b c limit : Nat} (hlimit : limit < usizeMax)
    (h : exceeds (checkedAdd usizeMax (saturatingAdd usizeMax a b) c) limit = false) :
    a + b + c ≤ limit := by
  unfold exceeds saturatingAdd at h
  cases hsum : checkedAdd usizeMax (min (a + b) usizeMax) c with
  | none => simp [hsum] at h
  | some total =>
    obtain ⟨-, rfl⟩ := checkedAdd_eq_some.mp hsum
    simp only [hsum, Option.isNone_some, Option.any_some, Bool.false_or, decide_eq_false_iff_not,
      Nat.not_lt] at h
    omega

theorem checkClass_isOpen {state : IngressState} {reservationClass : ReservationClass}
    (h : state.checkClass reservationClass = .ok ()) (hclass : reservationClass ≠ .fatal) :
    state.normalIngressSealed = false := by
  cases reservationClass with
  | fatal => exact absurd rfl hclass
  | normal =>
    simp only [IngressState.checkClass, ite_error_eq_ok, Bool.not_eq_true] at h
    exact h.1
  | cue =>
    simp only [IngressState.checkClass, ite_error_eq_ok, Bool.not_eq_true] at h
    exact h.1

theorem reserves (shared : SharedIngress) (size : AdmissionSize)
    (reservationClass : ReservationClass) :
    Reserves shared size reservationClass (shared.reserve size reservationClass) := by
  unfold SharedIngress.reserve
  split
  · exact .refused _
  · rename_i hone
    have hone : size.eventCount = 1 := not_not.mp hone
    cases hclass : shared.state.checkClass reservationClass with
    | error error => exact .refused error
    | ok _ =>
      simp only
      unfold SharedIngress.reserveChecked
      simp only [hone]
      split
      · split
        · exact .refused _
        · rename_i hfatal
          exact .exhausted _ (checkClass_isOpen hclass hfatal) hfatal
      · rename_i hexceeds
        simp only [Bool.or_eq_true, not_or, Bool.not_eq_true] at hexceeds
        have hevents : shared.state.reservedEvents + shared.state.outstanding.length + 1 ≤
            maxUncommittedEvents := exceeds_eq_false (by decide) hexceeds.1
        have hbytes : shared.state.reservedCanonicalBytes +
            shared.state.outstandingCanonicalBytes + size.canonicalBytes ≤
            maxUncommittedCanonicalBytes := exceeds_eq_false (by decide) hexceeds.2
        have hlimits : maxUncommittedEvents ≤ usizeMax ∧ maxUncommittedCanonicalBytes ≤ usizeMax := by
          decide
        rw [checkedAdd_of_le (by omega), checkedAdd_of_le (by omega)]
        exact .granted _ hone hclass hevents hbytes

/-- What a successful `measurePrefix` found. -/
theorem measurePrefix_eq_ok {committedSequence : Nat} :
    ∀ {outstanding : List TrackedEvent} {offset canonicalBytes total : Nat},
      measurePrefix committedSequence offset canonicalBytes outstanding = .ok total →
      (∀ tracked ∈ outstanding, tracked.phase = .inFlight) ∧
        outstanding.map (·.event.sequence) =
          List.range' (committedSequence + offset + 1) outstanding.length ∧
        total = canonicalBytes + (outstanding.map (·.canonicalBytes)).sum
  | [], offset, canonicalBytes, total, h => by
    cases h
    simp
  | tracked :: rest, offset, canonicalBytes, total, h => by
    unfold measurePrefix at h
    rw [ite_error_eq_ok] at h
    obtain ⟨hphase, h⟩ := h
    split at h
    · cases h
    · rename_i expected hexpected
      obtain ⟨-, rfl⟩ := checkedAdd_eq_some.mp hexpected
      rw [ite_error_eq_ok] at h
      obtain ⟨hsequence, h⟩ := h
      split at h
      · cases h
      · rename_i canonicalBytes' hbytes
        obtain ⟨-, rfl⟩ := checkedAdd_eq_some.mp hbytes
        obtain ⟨hphases, hsequences, htotal⟩ := measurePrefix_eq_ok h
        refine ⟨?_, ?_, ?_⟩
        · intro other hother
          rcases List.mem_cons.mp hother with rfl | hother
          · exact not_not.mp hphase
          · exact hphases other hother
        · rw [List.map_cons, hsequences, not_not.mp hsequence, List.length_cons, List.range'_succ,
            Nat.add_assoc committedSequence offset 1]
        · rw [htotal, List.map_cons, List.sum_cons]
          omega

theorem popPrefix_eq : ∀ (count : Nat) (outstanding : List TrackedEvent),
    count ≤ outstanding.length →
    popPrefix count outstanding =
      some (((outstanding.take count).map (·.canonicalBytes)).sum, outstanding.drop count)
  | 0, outstanding, _ => by simp [popPrefix]
  | count + 1, [], h => by simp at h
  | count + 1, tracked :: rest, h => by
    rw [popPrefix, popPrefix_eq count rest (by simpa using h)]
    simp

/-- What a successful `validateCommit` found. -/
theorem validateCommit_eq_ok {state : IngressState} {notification : CommitNotification}
    (h : validateCommit state notification = .ok ()) :
    notification.previous = state.committedSequence ∧
      (∀ run ∈ state.runId, run = notification.runId) ∧
      notification.eventCount ≤ state.outstanding.length ∧
      (∀ tracked ∈ state.outstanding.take notification.eventCount, tracked.phase = .inFlight) ∧
      (state.outstanding.take notification.eventCount).map (·.event.sequence) =
        List.range' (state.committedSequence + 1) notification.eventCount ∧
      notification.committed = state.committedSequence + notification.eventCount ∧
      notification.committed ≤ u64Max := by
  unfold validateCommit at h
  rw [ite_error_eq_ok, ite_error_eq_ok, ite_error_eq_ok] at h
  obtain ⟨hprevious, hrun, hlength, h⟩ := h
  have hlength : notification.eventCount ≤ state.outstanding.length := Nat.le_of_not_lt hlength
  obtain ⟨total, hmeasure, h⟩ := bind_eq_ok.mp h
  obtain ⟨hphases, hsequences, -⟩ := measurePrefix_eq_ok hmeasure
  rw [List.length_take, Nat.min_eq_left hlength] at hsequences
  split at h
  · cases h
  · rename_i expected hexpected
    obtain ⟨hle, rfl⟩ := checkedAdd_eq_some.mp hexpected
    rw [ite_error_eq_ok] at h
    have hcommitted := not_not.mp h.1
    refine ⟨not_not.mp hprevious, ?_, hlength, hphases, hsequences, hcommitted, hcommitted ▸ hle⟩
    intro run hrun'
    rw [hrun'] at hrun
    simpa using hrun

/-- The acknowledged state: the prefix and its bytes are gone, and the watermark moved past it. -/
def acknowledge (shared : SharedIngress) (count : Nat) : SharedIngress :=
  { shared with
    state :=
      { shared.state with
        outstanding := shared.state.outstanding.drop count
        outstandingCanonicalBytes := shared.state.outstandingCanonicalBytes -
          ((shared.state.outstanding.take count).map (·.canonicalBytes)).sum
        committedSequence := shared.state.committedSequence + count } }

theorem sum_take_le (outstanding : List TrackedEvent) (count : Nat) :
    ((outstanding.take count).map (·.canonicalBytes)).sum ≤
      (outstanding.map (·.canonicalBytes)).sum := by
  have hsplit := congrArg (fun l => (l.map (·.canonicalBytes)).sum)
    (List.take_append_drop count outstanding)
  simp only [List.map_append, List.sum_append] at hsplit
  omega

/-- `mark_committed`, when the byte counter is what it counts. -/
theorem markCommitted_cases (notification : CommitNotification)
    (hbytes : shared.state.outstandingCanonicalBytes =
      (shared.state.outstanding.map (·.canonicalBytes)).sum) :
    (∃ error, shared.markCommitted notification =
        (.error (.raised error), latchFailure shared .commitAccountingFailed)) ∨
      (validateCommit shared.state notification = .ok () ∧
        shared.markCommitted notification = (.ok (), acknowledge shared notification.eventCount)) := by
  unfold SharedIngress.markCommitted
  cases hvalidate : validateCommit shared.state notification with
  | error error => exact .inl ⟨error, rfl⟩
  | ok _ =>
    obtain ⟨-, -, hlength, -, -, hcommitted, -⟩ := validateCommit_eq_ok hvalidate
    refine .inr ⟨rfl, ?_⟩
    have hle := sum_take_le shared.state.outstanding notification.eventCount
    rw [popPrefix_eq _ _ hlength]
    simp only
    rw [if_neg (by omega), hcommitted]
    rfl

end Methods

/-! ## The invariant -/

/-- The in-flight events come first. -/
def InFlightPrefix (outstanding : List TrackedEvent) : Prop :=
  ∃ inFlight queued, outstanding = inFlight ++ queued ∧
    (∀ tracked ∈ inFlight, tracked.phase = .inFlight) ∧ ∀ tracked ∈ queued, tracked.phase = .queued

/-- The number of live reservations of the fatal class. -/
def fatalLive (reservations : List IngressReservation) : Nat :=
  reservations.countP (·.reservationClass = .fatal)

/-- How many fatal reservations are live and admitted, by the fatal state. -/
def FatalCounts : FatalAdmissionState → Nat → Nat → Prop
  | .available, live, admitted => live = 0 ∧ admitted = 0
  | .reserved, live, admitted => live = 1 ∧ admitted = 0
  | .admitted, live, admitted => live = 0 ∧ admitted = 1

/-- What the receiver was handed or can still be handed, by the latched failure. -/
def ChannelCounts (failure : Option IngressCoreFailure) (buffered : Option IngressCoreFailure)
    (received : List IngressCoreFailure) : Prop :=
  (received ++ buffered.toList).length ≤ 1 ∧
    ∀ delivered ∈ received ++ buffered.toList, failure = some delivered

/-- The accounting invariant of the ingress. -/
structure Accounted (w : IngressWorld) : Prop where
  /-- A reservation is for one event. -/
  reserved_one : ∀ reservation ∈ w.reservations, reservation.size.eventCount = 1
  /-- The reserved counters are those of the live reservations. -/
  reserved_events : w.shared.state.reservedEvents = w.reservations.length
  reserved_bytes :
    w.shared.state.reservedCanonicalBytes = (w.reservations.map (·.size.canonicalBytes)).sum
  /-- The outstanding byte counter is that of the outstanding events. -/
  outstanding_bytes : w.shared.state.outstandingCanonicalBytes =
    (w.shared.state.outstanding.map (·.canonicalBytes)).sum
  /-- Both totals are within their limits. -/
  events_le :
    w.shared.state.reservedEvents + w.shared.state.outstanding.length ≤ maxUncommittedEvents
  bytes_le : w.shared.state.reservedCanonicalBytes + w.shared.state.outstandingCanonicalBytes ≤
    maxUncommittedCanonicalBytes
  /-- Dequeued events are a prefix of the outstanding ones. -/
  in_flight : InFlightPrefix w.shared.state.outstanding
  /-- Until a failure is latched, outstanding sequences continue the committed ones. -/
  dense : w.shared.state.failure = none → w.shared.state.outstanding.map (·.event.sequence) =
    List.range' (w.shared.state.committedSequence + 1) w.shared.state.outstanding.length
  committed_le : w.shared.state.committedSequence ≤ u64Max
  /-- A latched failure seals the ingress. -/
  failure_seals : w.shared.state.failure.isSome → w.shared.state.normalIngressSealed = true
  /-- At most one fatal reservation is live or admitted. -/
  fatal : FatalCounts w.shared.state.fatalState (fatalLive w.reservations) w.fatalAdmitted.length
  /-- At most one failure is delivered, and it is the latched one. -/
  channel : ChannelCounts w.shared.state.failure w.shared.channel.buffered w.received

theorem accounted_new : Accounted .new where
  reserved_one := by simp [IngressWorld.new]
  reserved_events := rfl
  reserved_bytes := rfl
  outstanding_bytes := rfl
  events_le := by decide
  bytes_le := by decide
  in_flight := ⟨[], [], rfl, by simp, by simp⟩
  dense _ := rfl
  committed_le := by decide
  failure_seals := by simp [IngressWorld.new, SharedIngress.new, IngressState.default]
  fatal := ⟨rfl, rfl⟩
  channel := ⟨by decide, by simp [IngressWorld.new, SharedIngress.new]⟩

section Invariant

variable {w : IngressWorld} {reservation : IngressReservation} {event : AcceptedDiagnosticEvent}
  {shared : SharedIngress} {outstanding : List TrackedEvent}

theorem channelCounts_latch {channel : FailureChannel} {received : List IngressCoreFailure}
    {latched : Option IngressCoreFailure} (failure : IngressCoreFailure)
    (h : ChannelCounts latched channel.buffered received) :
    ChannelCounts (some (latched.getD failure))
      (if latched.isSome then channel else channel.trySend failure).buffered received := by
  obtain ⟨hlength, hall⟩ := h
  cases latched with
  | some first => exact ⟨hlength, hall⟩
  | none =>
    -- Nothing was delivered before the first failure, so the channel is empty.
    have hempty : received ++ channel.buffered.toList = [] := by
      rw [List.eq_nil_iff_forall_not_mem]
      intro delivered hdelivered
      exact absurd (hall delivered hdelivered) (by simp)
    obtain ⟨rfl, hbuffered⟩ := List.append_eq_nil_iff.mp hempty
    have hbuffered : channel.buffered = none := by
      cases hb : channel.buffered with
      | none => rfl
      | some _ => simp [hb] at hbuffered
    by_cases hconnected : channel.connected = true
    · have hsent : (channel.trySend failure).buffered = some failure := by
        simp [FailureChannel.trySend, hconnected, hbuffered]
      simp [ChannelCounts, hsent]
    · have hsent : (channel.trySend failure).buffered = none := by
        simp [FailureChannel.trySend, hconnected, hbuffered]
      simp [ChannelCounts, hsent]

/-- Latching a failure keeps every counter. -/
theorem accounted_latch (failure : IngressCoreFailure) (h : Accounted w) :
    Accounted { w with shared := latchFailure w.shared failure } := by
  have hstate := latchFailure_state w.shared failure
  have hchannel := latchFailure_channel w.shared failure
  constructor
  · exact h.reserved_one
  · rw [hstate]; exact h.reserved_events
  · rw [hstate]; exact h.reserved_bytes
  · rw [hstate]; exact h.outstanding_bytes
  · rw [hstate]; exact h.events_le
  · rw [hstate]; exact h.bytes_le
  · rw [hstate]; exact h.in_flight
  · rw [hstate]; simp
  · rw [hstate]; exact h.committed_le
  · rw [hstate]; simp
  · rw [hstate]; exact h.fatal
  · rw [hstate, hchannel]; exact channelCounts_latch failure h.channel

theorem fatalLive_cons (reservation : IngressReservation) (reservations : List IngressReservation) :
    fatalLive (reservation :: reservations) =
      fatalLive reservations + if reservation.reservationClass = .fatal then 1 else 0 := by
  simp [fatalLive, List.countP_cons]

theorem checkClass_fatal {state : IngressState} (h : state.checkClass .fatal = .ok ()) :
    state.fatalState = .available := by
  unfold IngressState.checkClass at h
  rw [ite_error_eq_ok] at h
  cases hfatal : state.fatalState with
  | available => rfl
  | reserved => simp [hfatal] at h
  | admitted => simp [hfatal] at h

theorem accounted_reserve {size : AdmissionSize} {reservationClass : ReservationClass}
    (h : Accounted w)
    (hgranted : w.shared.reserve size reservationClass = (.ok reservation, shared)) :
    Accounted (w.reserved shared reservation) := by
  unfold IngressWorld.reserved
  have hreserves := reserves w.shared size reservationClass
  rw [hgranted] at hreserves
  cases hreserves with
  | granted paused one allowed events_le bytes_le =>
    refine ⟨?_, ?_, ?_, h.outstanding_bytes, ?_, ?_, h.in_flight, h.dense, h.committed_le,
      h.failure_seals, ?_, h.channel⟩
    · intro other hother
      rcases List.mem_cons.mp hother with rfl | hother
      · exact one
      · exact h.reserved_one other hother
    · simp [h.reserved_events]
    · simp [h.reserved_bytes, Nat.add_comm]
    · show w.shared.state.reservedEvents + 1 + w.shared.state.outstanding.length ≤ _
      omega
    · show w.shared.state.reservedCanonicalBytes + size.canonicalBytes +
        w.shared.state.outstandingCanonicalBytes ≤ _
      omega
    · show FatalCounts _ (fatalLive (_ :: w.reservations)) _
      rw [fatalLive_cons]
      by_cases hfatal : reservationClass = .fatal
      · subst hfatal
        have hcounts := h.fatal
        rw [checkClass_fatal allowed] at hcounts
        simpa [FatalCounts] using hcounts
      · simpa [hfatal] using h.fatal

theorem accounted_reserveFails {size : AdmissionSize} {reservationClass : ReservationClass}
    {fault : Fault IngressAdmissionError} (h : Accounted w)
    (hrefused : w.shared.reserve size reservationClass = (.error fault, shared)) :
    Accounted { w with shared } := by
  have hreserves := reserves w.shared size reservationClass
  rw [hrefused] at hreserves
  cases hreserves with
  | refused error => exact h
  | exhausted failure => exact accounted_latch failure h

/-! ### Committing and dropping a reservation -/

/-- Taking one live reservation out of the list takes its share out of every count. -/
theorem reservations_erase (h : Accounted w)
    (hlive : reservation ∈ w.reservations) :
    w.reservations.length = (w.reservations.erase reservation).length + 1 ∧
      (w.reservations.map (·.size.canonicalBytes)).sum =
        ((w.reservations.erase reservation).map (·.size.canonicalBytes)).sum +
          reservation.size.canonicalBytes ∧
      fatalLive w.reservations = fatalLive (w.reservations.erase reservation) +
        (if reservation.reservationClass = .fatal then 1 else 0) ∧
      reservation.size.eventCount = 1 := by
  have hperm := List.perm_cons_erase hlive
  refine ⟨by simpa using hperm.length_eq, ?_, ?_, h.reserved_one reservation hlive⟩
  · have hsum := (hperm.map (·.size.canonicalBytes)).sum_eq
    rw [List.map_cons, List.sum_cons] at hsum
    omega
  · rw [show fatalLive w.reservations = fatalLive (reservation :: w.reservations.erase reservation)
      from hperm.countP_eq _, fatalLive_cons]

/-- A live fatal reservation is the only one, and nothing fatal was admitted. -/
theorem fatalCounts_live {state : FatalAdmissionState} {live admitted : Nat}
    (h : FatalCounts state (live + 1) admitted) : state = .reserved ∧ live = 0 ∧ admitted = 0 := by
  cases state with
  | available => exact absurd h.1 (Nat.succ_ne_zero live)
  | reserved => exact ⟨rfl, Nat.succ.inj h.1, h.2⟩
  | admitted => exact absurd h.1 (Nat.succ_ne_zero live)

theorem drop_fatalState (shared : SharedIngress) (reservation : IngressReservation) :
    (shared.drop reservation).state.fatalState =
      if reservation.reservationClass = .fatal ∧ shared.state.fatalState = .reserved then .available
      else shared.state.fatalState := rfl

theorem accounted_drop (h : Accounted w)
    (hlive : reservation ∈ w.reservations) :
    Accounted (w.drop reservation) := by
  unfold IngressWorld.drop
  obtain ⟨hlength, hbytes, hfatal, hone⟩ := reservations_erase h hlive
  have hevents := h.reserved_events
  have hreserved := h.reserved_bytes
  have hevents_le := h.events_le
  have hbytes_le := h.bytes_le
  refine ⟨?_, ?_, ?_, h.outstanding_bytes, ?_, ?_, h.in_flight, h.dense, h.committed_le,
    h.failure_seals, ?_, h.channel⟩
  · exact fun other hother => h.reserved_one other (List.mem_of_mem_erase hother)
  · simp only [SharedIngress.drop, releaseReserved]
    omega
  · simp only [SharedIngress.drop, releaseReserved]
    omega
  · simp only [SharedIngress.drop, releaseReserved]
    omega
  · simp only [SharedIngress.drop, releaseReserved]
    omega
  · have hcounts := h.fatal
    rw [drop_fatalState]
    by_cases hclass : reservation.reservationClass = .fatal
    · rw [hfatal, if_pos hclass] at hcounts
      obtain ⟨hstate, hnone, hadmitted⟩ := fatalCounts_live hcounts
      rw [if_pos ⟨hclass, hstate⟩]
      exact ⟨hnone, hadmitted⟩
    · rw [if_neg hclass, Nat.add_zero] at hfatal
      simpa [hclass, hfatal] using hcounts

/-- The state just before the event is pushed: the reservation is released, and a mismatch has
latched a failure. -/
def commitChecked (shared : SharedIngress) (reservation : IngressReservation)
    (event : AcceptedDiagnosticEvent) : SharedIngress :=
  let released := releaseReserved shared.state reservation.size
  if commitMatches released reservation.size event then
    { shared with state := released }
  else
    latchFailure { shared with state := released } .commitAccountingFailed

theorem commit_eq (shared : SharedIngress) (reservation : IngressReservation)
    (event : AcceptedDiagnosticEvent) :
    shared.commit reservation event =
      { commitChecked shared reservation event with
        state := pushOutstanding (commitChecked shared reservation event).state reservation event } :=
  rfl

theorem commitChecked_state (shared : SharedIngress) (reservation : IngressReservation)
    (event : AcceptedDiagnosticEvent) :
    (commitChecked shared reservation event).state =
      { releaseReserved shared.state reservation.size with
        normalIngressSealed := (commitChecked shared reservation event).state.normalIngressSealed
        fatalAdmissionAuthorized :=
          (commitChecked shared reservation event).state.fatalAdmissionAuthorized
        failure := (commitChecked shared reservation event).state.failure } := by
  unfold commitChecked
  simp only
  split
  · rfl
  · rw [latchFailure_state]

theorem commitChecked_failure
    (h : (commitChecked shared reservation event).state.failure = none) :
    shared.state.failure = none ∧
      commitMatches (releaseReserved shared.state reservation.size) reservation.size event = true := by
  unfold commitChecked at h
  simp only at h
  split at h
  · rename_i hmatches
    exact ⟨h, hmatches⟩
  · rw [latchFailure_state] at h
    cases h

/-- An event that passed the sequence check extends the dense list. -/
theorem dense_append {committedSequence : Nat}
    {state : IngressState}
    (hstate : state.outstanding = outstanding ∧ state.committedSequence = committedSequence)
    (hcommitted : committedSequence ≤ u64Max)
    (hdense : outstanding.map (·.event.sequence) =
      List.range' (committedSequence + 1) outstanding.length)
    (hfresh : ∀ tracked ∈ outstanding, tracked.event.sequence ≠ event.sequence)
    (hexpected : event.sequence = expectedSequence state) :
    event.sequence = committedSequence + 1 + outstanding.length := by
  obtain ⟨rfl, rfl⟩ := hstate
  unfold expectedSequence at hexpected
  cases hlast : state.outstanding.getLast? with
  | none =>
    rw [hlast] at hexpected
    have hempty := List.getLast?_eq_none_iff.mp hlast
    have hpos := event.sequence_pos
    simp only at hexpected
    simp only [hempty, List.length_nil, Nat.add_zero]
    -- A watermark at the maximum would wrap to zero, which no event carries.
    unfold u64Max at hcommitted
    omega
  | some tracked =>
    rw [hlast] at hexpected
    simp only at hexpected
    have hmem := List.mem_of_getLast? hlast
    have hsequence : tracked.event.sequence =
        state.committedSequence + state.outstanding.length := by
      have hmap := congrArg List.getLast? hdense
      rw [List.getLast?_map, hlast] at hmap
      obtain ⟨count, hcount⟩ : ∃ count, state.outstanding.length = count + 1 :=
        Nat.exists_eq_succ_of_ne_zero (by
          intro hzero
          rw [List.length_eq_zero_iff.mp hzero] at hmem
          cases hmem)
      rw [hcount, List.range'_concat, List.getLast?_concat] at hmap
      simp only [Option.map_some, Option.some.injEq] at hmap
      omega
    have hne := hfresh tracked hmem
    have hle := tracked.event.sequence_le
    unfold saturatingAdd at hexpected
    omega

theorem inFlightPrefix_append {tracked : TrackedEvent}
    (h : InFlightPrefix outstanding) (hqueued : tracked.phase = .queued) :
    InFlightPrefix (outstanding ++ [tracked]) := by
  obtain ⟨inFlight, queued, rfl, hinFlight, hrest⟩ := h
  refine ⟨inFlight, queued ++ [tracked], List.append_assoc _ _ _, hinFlight, ?_⟩
  intro other hother
  rcases List.mem_append.mp hother with hother | hother
  · exact hrest other hother
  · rw [List.mem_singleton.mp hother]
    exact hqueued

/-- The state after a commit, field by field, up to the failure latch. -/
theorem commit_state (event : AcceptedDiagnosticEvent)
    (h : Accounted w) (hlive : reservation ∈ w.reservations) :
    (w.shared.commit reservation event).state =
      { (commitChecked w.shared reservation event).state with
        reservedEvents := (w.reservations.erase reservation).length
        reservedCanonicalBytes :=
          ((w.reservations.erase reservation).map (·.size.canonicalBytes)).sum
        runId := some (w.shared.state.runId.getD event.runId)
        outstandingCanonicalBytes :=
          w.shared.state.outstandingCanonicalBytes + reservation.size.canonicalBytes
        outstanding := w.shared.state.outstanding ++
          [⟨event, reservation.size.canonicalBytes, .queued⟩]
        committedSequence := w.shared.state.committedSequence
        fatalState :=
          if reservation.reservationClass = .fatal then .admitted
          else w.shared.state.fatalState } := by
  obtain ⟨hlength, hbytes, -, hone⟩ := reservations_erase h hlive
  have hevents := h.reserved_events
  have hreserved := h.reserved_bytes
  have hbytes_le := h.bytes_le
  have hlimit : maxUncommittedCanonicalBytes ≤ usizeMax := by decide
  have hreleased : w.shared.state.reservedEvents - reservation.size.eventCount =
      (w.reservations.erase reservation).length := by omega
  have hreleasedBytes : w.shared.state.reservedCanonicalBytes - reservation.size.canonicalBytes =
      ((w.reservations.erase reservation).map (·.size.canonicalBytes)).sum := by omega
  have hsum : saturatingAdd usizeMax w.shared.state.outstandingCanonicalBytes
      reservation.size.canonicalBytes =
      w.shared.state.outstandingCanonicalBytes + reservation.size.canonicalBytes :=
    saturatingAdd_of_le (by omega)
  rw [commit_eq, commitChecked_state]
  simp only [pushOutstanding, releaseReserved, hsum, hreleased, hreleasedBytes]

theorem commit_channel (shared : SharedIngress) (reservation : IngressReservation)
    (event : AcceptedDiagnosticEvent) :
    (shared.commit reservation event).channel =
      (commitChecked shared reservation event).channel := rfl

theorem commitChecked_latch (shared : SharedIngress) (reservation : IngressReservation)
    (event : AcceptedDiagnosticEvent) :
    (commitChecked shared reservation event).state.failure = shared.state.failure ∧
        (commitChecked shared reservation event).state.normalIngressSealed =
          shared.state.normalIngressSealed ∧
        (commitChecked shared reservation event).channel = shared.channel ∨
      (commitChecked shared reservation event).state.failure =
          some (shared.state.failure.getD .commitAccountingFailed) ∧
        (commitChecked shared reservation event).state.normalIngressSealed = true ∧
        (commitChecked shared reservation event).channel =
          if shared.state.failure.isSome then shared.channel
          else shared.channel.trySend .commitAccountingFailed := by
  unfold commitChecked
  simp only
  split
  · exact .inl ⟨rfl, rfl, rfl⟩
  · rw [latchFailure_state, latchFailure_channel]
    exact .inr ⟨rfl, rfl, rfl⟩

theorem accounted_commit
    (h : Accounted w) (hlive : reservation ∈ w.reservations)
    (hfresh : ∀ tracked ∈ w.shared.state.outstanding,
      tracked.event.sequence ≠ event.sequence) :
    Accounted (w.commit reservation event) := by
  unfold IngressWorld.commit
  obtain ⟨hlength, hbytes, hfatal, -⟩ := reservations_erase h hlive
  have hstate := commit_state event h hlive
  have hevents := h.reserved_events
  have hreserved := h.reserved_bytes
  have hevents_le := h.events_le
  have hbytes_le := h.bytes_le
  constructor
  · exact fun other hother => h.reserved_one other (List.mem_of_mem_erase hother)
  · rw [hstate]
  · rw [hstate]
  · rw [hstate]
    simp [h.outstanding_bytes]
  · rw [hstate]
    simp only [List.length_append, List.length_singleton]
    omega
  · rw [hstate]
    simp only
    omega
  · rw [hstate]
    exact inFlightPrefix_append h.in_flight rfl
  · rw [hstate]
    intro hnone
    obtain ⟨hfailure, hmatches⟩ := commitChecked_failure hnone
    simp only [commitMatches, Bool.and_eq_true, beq_iff_eq] at hmatches
    have hdense := h.dense hfailure
    have hsequence : event.sequence =
        w.shared.state.committedSequence + 1 + w.shared.state.outstanding.length :=
      dense_append ⟨rfl, rfl⟩ h.committed_le hdense hfresh hmatches.2
    simp only [List.map_append, hdense, List.length_append, List.length_singleton,
      List.range'_concat, List.map_cons, List.map_nil, hsequence, Nat.one_mul]
  · rw [hstate]
    exact h.committed_le
  · rw [hstate]
    intro hsome
    rcases commitChecked_latch w.shared reservation event with ⟨hf, hs, -⟩ | ⟨-, hs, -⟩
    · simp only [hf] at hsome
      simp only [hs]
      exact h.failure_seals hsome
    · exact hs
  · rw [hstate]
    have hcounts := h.fatal
    by_cases hclass : reservation.reservationClass = .fatal
    · rw [hfatal, if_pos hclass] at hcounts
      obtain ⟨-, hnone, hadmitted⟩ := fatalCounts_live hcounts
      simp only [if_pos hclass]
      exact ⟨hnone, by simp [hadmitted]⟩
    · rw [if_neg hclass, Nat.add_zero] at hfatal
      simpa [hclass, hfatal] using hcounts
  · rw [hstate, commit_channel]
    rcases commitChecked_latch w.shared reservation event with ⟨hf, -, hc⟩ | ⟨hf, -, hc⟩
    · simp only [hf, hc]
      exact h.channel
    · simp only [hf, hc]
      exact channelCounts_latch .commitAccountingFailed h.channel

/-! ### Dequeueing and acknowledging -/

/-- `dequeueFirst` changes one phase and nothing else. -/
theorem dequeueFirst_eq_some : ∀ {outstanding outstanding' : List TrackedEvent}
    {event : AcceptedDiagnosticEvent}, dequeueFirst outstanding = some (event, outstanding') →
    ∃ before after bytes, outstanding = before ++ ⟨event, bytes, .queued⟩ :: after ∧
      outstanding' = before ++ ⟨event, bytes, .inFlight⟩ :: after ∧
      ∀ tracked ∈ before, tracked.phase = .inFlight
  | [], _, _, h => by cases h
  | tracked :: rest, outstanding', event, h => by
    unfold dequeueFirst at h
    cases hphase : tracked.phase with
    | queued =>
      simp only [hphase, Option.some.injEq, Prod.mk.injEq] at h
      obtain ⟨rfl, rfl⟩ := h
      refine ⟨[], rest, tracked.canonicalBytes, ?_, rfl, by simp⟩
      rw [← hphase]
      rfl
    | inFlight =>
      simp only [hphase, Option.map_eq_some_iff, Prod.mk.injEq] at h
      obtain ⟨⟨found, rest'⟩, hrest, rfl, rfl⟩ := h
      obtain ⟨before, after, bytes, rfl, rfl, hbefore⟩ := dequeueFirst_eq_some hrest
      refine ⟨tracked :: before, after, bytes, rfl, rfl, ?_⟩
      intro other hother
      rcases List.mem_cons.mp hother with rfl | hother
      · exact hphase
      · exact hbefore other hother

/-- The event dequeued is the first of the queued part. -/
theorem inFlightPrefix_dequeue {before after : List TrackedEvent}
    {bytes : Nat} (h : InFlightPrefix (before ++ ⟨event, bytes, .queued⟩ :: after))
    (hbefore : ∀ tracked ∈ before, tracked.phase = .inFlight) :
    InFlightPrefix (before ++ ⟨event, bytes, .inFlight⟩ :: after) := by
  obtain ⟨inFlight, queued, heq, hinFlight, hqueued⟩ := h
  refine ⟨before ++ [⟨event, bytes, .inFlight⟩], after, by simp, ?_, ?_⟩
  · intro other hother
    rcases List.mem_append.mp hother with hother | hother
    · exact hbefore other hother
    · rw [List.mem_singleton.mp hother]
  · -- What follows a queued event lies in the queued part.
    rcases List.append_eq_append_iff.mp heq with ⟨middle, rfl, hq⟩ | ⟨middle, rfl, hq⟩
    · cases middle with
      | nil =>
        simp only [List.nil_append] at hq
        intro other hother
        exact hqueued other (hq ▸ List.mem_cons_of_mem _ hother)
      | cons first middle =>
        simp only [List.cons_append, List.cons.injEq] at hq
        have := hinFlight first (by simp)
        rw [← hq.1] at this
        cases this
    · intro other hother
      apply hqueued
      rw [hq]
      exact List.mem_append_right _ (List.mem_cons_of_mem _ hother)

theorem accounted_tryDequeue (h : Accounted w) :
    Accounted { w with shared := w.shared.tryDequeue.2 } := by
  unfold SharedIngress.tryDequeue
  cases hdequeue : dequeueFirst w.shared.state.outstanding with
  | none => exact h
  | some dequeued =>
    obtain ⟨event, outstanding⟩ := dequeued
    obtain ⟨before, after, bytes, hold, rfl, hbefore⟩ := dequeueFirst_eq_some hdequeue
    have hbytes := h.outstanding_bytes
    have hevents_le := h.events_le
    have hin_flight := h.in_flight
    have hdense := h.dense
    rw [hold] at hbytes hevents_le hin_flight hdense
    refine ⟨h.reserved_one, h.reserved_events, h.reserved_bytes, ?_, ?_, h.bytes_le,
      inFlightPrefix_dequeue hin_flight hbefore, ?_, h.committed_le, h.failure_seals, h.fatal,
      h.channel⟩
    · simpa using hbytes
    · simpa using hevents_le
    · simpa using hdense

theorem inFlightPrefix_drop (h : InFlightPrefix outstanding)
    (count : Nat) : InFlightPrefix (outstanding.drop count) := by
  obtain ⟨inFlight, queued, rfl, hinFlight, hqueued⟩ := h
  refine ⟨inFlight.drop count, queued.drop (count - inFlight.length), List.drop_append, ?_, ?_⟩
  · exact fun other hother => hinFlight other (List.mem_of_mem_drop hother)
  · exact fun other hother => hqueued other (List.mem_of_mem_drop hother)

theorem accounted_acknowledge {notification : CommitNotification} (h : Accounted w)
    (hvalidate : validateCommit w.shared.state notification = .ok ()) :
    Accounted { w with shared := acknowledge w.shared notification.eventCount } := by
  obtain ⟨-, -, hlength, -, -, hcommitted, hcommitted_le⟩ := validateCommit_eq_ok hvalidate
  have hsplit := congrArg (fun l => (l.map (·.canonicalBytes)).sum)
    (List.take_append_drop notification.eventCount w.shared.state.outstanding)
  simp only [List.map_append, List.sum_append] at hsplit
  have hbytes := h.outstanding_bytes
  have hevents_le := h.events_le
  have hbytes_le := h.bytes_le
  refine ⟨h.reserved_one, h.reserved_events, h.reserved_bytes, ?_, ?_, ?_,
    inFlightPrefix_drop h.in_flight _, ?_, ?_, h.failure_seals, h.fatal, h.channel⟩
  · simp only [acknowledge]
    omega
  · simp only [acknowledge, List.length_drop]
    omega
  · simp only [acknowledge]
    omega
  · intro hnone
    have hdense := h.dense hnone
    simp only [acknowledge, List.map_drop, hdense, List.drop_range', List.length_drop, Nat.mul_one]
    congr 1
    omega
  · simp only [acknowledge]
    omega

theorem accounted_markCommitted (notification : CommitNotification) (h : Accounted w) :
    Accounted { w with shared := (w.shared.markCommitted notification).2 } := by
  rcases markCommitted_cases notification h.outstanding_bytes with ⟨error, heq⟩ | ⟨hvalidate, heq⟩
  · rw [heq]
    exact accounted_latch .commitAccountingFailed h
  · rw [heq]
    exact accounted_acknowledge h hvalidate

/-- A change to the seals and the cue pause alone keeps the accounting. -/
theorem accounted_flags (h : Accounted w)
    (hchannel : shared.channel = w.shared.channel)
    (hstate : shared.state =
      { w.shared.state with
        normalIngressSealed := shared.state.normalIngressSealed
        cueCapturePaused := shared.state.cueCapturePaused
        suppressedCues := shared.state.suppressedCues
        fatalAdmissionAuthorized := shared.state.fatalAdmissionAuthorized })
    (hsealed : w.shared.state.normalIngressSealed = true →
      shared.state.normalIngressSealed = true) :
    Accounted { w with shared } := by
  constructor
  · exact h.reserved_one
  · rw [hstate]; exact h.reserved_events
  · rw [hstate]; exact h.reserved_bytes
  · rw [hstate]; exact h.outstanding_bytes
  · rw [hstate]; exact h.events_le
  · rw [hstate]; exact h.bytes_le
  · rw [hstate]; exact h.in_flight
  · rw [hstate]; exact h.dense
  · rw [hstate]; exact h.committed_le
  · rw [hstate]; exact fun hsome => hsealed (h.failure_seals hsome)
  · rw [hstate]; exact h.fatal
  · rw [hstate, hchannel]; exact h.channel

theorem beginCueCapture_state (shared : SharedIngress) :
    ∃ paused suppressed, shared.beginCueCapture.2 =
      { shared with
        state :=
          { shared.state with cueCapturePaused := paused, suppressedCues := suppressed } } := by
  unfold SharedIngress.beginCueCapture
  dsimp only
  split
  · exact ⟨_, _, rfl⟩
  · split
    · split <;> exact ⟨_, _, rfl⟩
    · split <;> exact ⟨_, _, rfl⟩

theorem accounted_tryRecv (h : Accounted w) :
    Accounted
      { w with
        shared := w.shared.tryRecv.2
        received := w.received ++ w.shared.tryRecv.1.toList } := by
  refine ⟨h.reserved_one, h.reserved_events, h.reserved_bytes, h.outstanding_bytes, h.events_le,
    h.bytes_le, h.in_flight, h.dense, h.committed_le, h.failure_seals, h.fatal, ?_⟩
  simpa [ChannelCounts, SharedIngress.tryRecv] using h.channel

theorem accounted_dropReceiver (h : Accounted w) :
    Accounted { w with shared := w.shared.dropReceiver } := by
  refine ⟨h.reserved_one, h.reserved_events, h.reserved_bytes, h.outstanding_bytes, h.events_le,
    h.bytes_le, h.in_flight, h.dense, h.committed_le, h.failure_seals, h.fatal, ?_⟩
  obtain ⟨hlength, hall⟩ := h.channel
  rw [List.length_append] at hlength
  refine ⟨?_, fun delivered hdelivered => hall delivered ?_⟩
  · simp only [SharedIngress.dropReceiver, Option.toList_none, List.append_nil]
    omega
  · simp only [SharedIngress.dropReceiver, Option.toList_none, List.append_nil] at hdelivered
    exact List.mem_append_left _ hdelivered

end Invariant

theorem accounted_consumer (h : Accounted w) (hstep : ConsumerStep w w') :
    Accounted w' := by
  cases hstep with
  | tryDequeue => exact accounted_tryDequeue h
  | markCommitted notification => exact accounted_markCommitted notification h
  | sealNormalIngress => exact accounted_flags h rfl rfl fun _ => rfl
  | sealForExternalCoreFailure => exact accounted_flags h rfl rfl fun _ => rfl
  | beginCueCapture =>
    obtain ⟨paused, suppressed, heq⟩ := beginCueCapture_state w.shared
    rw [heq]
    exact accounted_flags h rfl rfl id
  | finishCueCapture => exact accounted_flags h rfl rfl id
  | tryRecv => exact accounted_tryRecv h
  | dropReceiver => exact accounted_dropReceiver h

/-- **Every method keeps the accounting.** -/
theorem accounted_step (w w' : IngressWorld) (h : Accounted w) (hstep : IngressStep w w') :
    Accounted w' := by
  cases hstep with
  | reserve size reservationClass granted => exact accounted_reserve h granted
  | reserveFails size reservationClass refused => exact accounted_reserveFails h refused
  | commit reservation event live fresh => exact accounted_commit h live fresh
  | drop reservation live => exact accounted_drop h live
  | consumer step => exact accounted_consumer h step

/-! ## What stays once it happened -/

/-- A sealed ingress stays sealed, and a latched failure stays the same failure. -/
structure Latched (w w' : IngressWorld) : Prop where
  isSealed : w.shared.state.normalIngressSealed = true → w'.shared.state.normalIngressSealed = true
  failure : ∀ failure ∈ w.shared.state.failure, w'.shared.state.failure = some failure

theorem Latched.refl (w : IngressWorld) : Latched w w := ⟨id, fun _ h => h⟩

theorem latched_latch (w : IngressWorld) (failure : IngressCoreFailure) :
    Latched w { w with shared := latchFailure w.shared failure } := by
  constructor
  · intro _
    rw [latchFailure_state]
  · intro first hfirst
    rw [latchFailure_state, hfirst]
    rfl

theorem latched_consumer (h : Accounted w) (hstep : ConsumerStep w w') :
    Latched w w' := by
  cases hstep with
  | tryDequeue =>
    unfold SharedIngress.tryDequeue
    split
    · exact .refl w
    · exact ⟨id, fun _ h => h⟩
  | markCommitted notification =>
    rcases markCommitted_cases notification h.outstanding_bytes with ⟨error, heq⟩ | ⟨-, heq⟩
    · rw [heq]
      exact latched_latch w .commitAccountingFailed
    · rw [heq]
      exact ⟨id, fun _ h => h⟩
  | sealNormalIngress => exact ⟨fun _ => rfl, fun _ h => h⟩
  | sealForExternalCoreFailure => exact ⟨fun _ => rfl, fun _ h => h⟩
  | beginCueCapture =>
    obtain ⟨paused, suppressed, heq⟩ := beginCueCapture_state w.shared
    rw [heq]
    exact ⟨id, fun _ h => h⟩
  | finishCueCapture => exact ⟨id, fun _ h => h⟩
  | tryRecv => exact ⟨id, fun _ h => h⟩
  | dropReceiver => exact ⟨id, fun _ h => h⟩

theorem latched_step (h : Accounted w) (hstep : IngressStep w w') :
    Latched w w' := by
  cases hstep with
  | reserve size reservationClass granted =>
    have hreserves := reserves w.shared size reservationClass
    rw [granted] at hreserves
    cases hreserves with
    | granted => exact ⟨id, fun _ h => h⟩
  | reserveFails size reservationClass refused =>
    have hreserves := reserves w.shared size reservationClass
    rw [refused] at hreserves
    cases hreserves with
    | refused error => exact .refl w
    | exhausted failure => exact latched_latch w failure
  | commit reservation event live fresh =>
    have hstate := commit_state event h live
    constructor
    · intro hsealed
      rw [IngressWorld.commit, hstate]
      rcases commitChecked_latch w.shared reservation event with ⟨-, hs, -⟩ | ⟨-, hs, -⟩
      · simp only [hs, hsealed]
      · exact hs
    · intro first hfirst
      rw [IngressWorld.commit, hstate]
      rcases commitChecked_latch w.shared reservation event with ⟨hf, -⟩ | ⟨hf, -⟩
      · simp only [hf]
        exact hfirst
      · simp only [hf]
        rw [hfirst]
        rfl
  | drop reservation live => exact ⟨id, fun _ h => h⟩
  | consumer step => exact latched_consumer h step

/-- Along a run from an accounted state, seals and failures stay. -/
theorem latched_run (h : Accounted w) (hrun : ReflTransGen IngressStep w w') :
    Latched w w' :=
  run_invariant_under (i := Accounted) (p := Latched w) accounted_step
    (fun _ _ ha hl hstep =>
      ⟨fun hs => (latched_step ha hstep).isSealed (hl.isSealed hs),
        fun f hf => (latched_step ha hstep).failure f (hl.failure f hf)⟩)
    h (.refl w) hrun

/-- A sealed ingress grants no normal or cue reservation. -/
theorem reserve_isSealed {shared : SharedIngress} {size : AdmissionSize}
    {reservationClass : ReservationClass} (hsealed : shared.state.normalIngressSealed = true)
    (hclass : reservationClass ≠ .fatal) (reservation : IngressReservation) :
    (shared.reserve size reservationClass).1 ≠ .ok reservation := by
  have hreserves := reserves shared size reservationClass
  intro hok
  generalize shared.reserve size reservationClass = answer at hreserves hok
  cases hreserves with
  | refused => cases hok
  | exhausted => cases hok
  | granted paused one allowed events_le bytes_le =>
    have hopen := checkClass_isOpen allowed hclass
    rw [hsealed] at hopen
    cases hopen

/-- **The mandatory ingress in every reachable state**: its counters are what they count and stay
within their limits; the in-flight events are a prefix of the outstanding ones, which continue the
committed sequence until a failure is latched; a sealed ingress grants no normal or cue reservation
from then on; at most one fatal event is admitted; the first failure is never replaced and delivered
at most once; and a failing `mark_committed` changes the failure latch alone. -/
theorem ingress_accounting {w : IngressWorld} (h : ReflTransGen IngressStep .new w) :
    Accounted w ∧
      w.shared.state.reservedCanonicalBytes + w.shared.state.outstandingCanonicalBytes =
        (w.shared.state.outstanding.map (·.canonicalBytes)).sum +
          (w.reservations.map (·.size.canonicalBytes)).sum ∧
      (w.shared.state.normalIngressSealed = true → ∀ w', ReflTransGen IngressStep w w' →
        ∀ size reservationClass reservation, reservationClass ≠ .fatal →
          (w'.shared.reserve size reservationClass).1 ≠ .ok reservation) ∧
      w.fatalAdmitted.length ≤ 1 ∧
      (∀ failure ∈ w.shared.state.failure, ∀ w', ReflTransGen IngressStep w w' →
        w'.shared.state.failure = some failure) ∧
      w.received.length ≤ 1 ∧ (∀ failure ∈ w.received, w.shared.state.failure = some failure) ∧
      ∀ notification fault, (w.shared.markCommitted notification).1 = .error fault →
        (w.shared.markCommitted notification).2.state =
          { w.shared.state with
            normalIngressSealed := true
            fatalAdmissionAuthorized := true
            failure := some (w.shared.state.failure.getD .commitAccountingFailed) } := by
  have haccounted : Accounted w := run_invariant accounted_step accounted_new h
  refine ⟨haccounted, ?_, ?_, ?_, ?_, ?_, ?_, ?_⟩
  · rw [haccounted.outstanding_bytes, haccounted.reserved_bytes, Nat.add_comm]
  · intro hsealed w' hrun size reservationClass reservation hclass
    exact reserve_isSealed ((latched_run haccounted hrun).isSealed hsealed) hclass reservation
  · have hfatal := haccounted.fatal
    cases hstate : w.shared.state.fatalState <;> rw [hstate] at hfatal <;>
      have hadmitted := hfatal.2 <;> omega
  · exact fun failure hfailure w' hrun => (latched_run haccounted hrun).failure failure hfailure
  · have hlength := haccounted.channel.1
    rw [List.length_append] at hlength
    omega
  · exact fun failure hfailure => haccounted.channel.2 failure (List.mem_append_left _ hfailure)
  · intro notification fault hfault
    rcases markCommitted_cases notification haccounted.outstanding_bytes with
      ⟨error, heq⟩ | ⟨-, heq⟩
    · rw [heq, latchFailure_state]
    · rw [heq] at hfault
      cases hfault

/-- The start of a run's own span, with one canonical byte. -/
def runStarted : AcceptedDiagnosticEvent :=
  ⟨.spanStarted ⟨.at 1 10 [] SchemaU64.one_pos, .runLifecycle, none⟩, [0], some .runLifecycle, false⟩

theorem ingress_accounting_committed : ∃ w, ReflTransGen IngressStep .new w ∧
    w.shared.state.committedSequence = 1 ∧ w.shared.state.outstanding.length = 0 ∧ Accounted w := by
  have hreserve := IngressStep.reserve (w := .new) ⟨1, 1⟩ .normal rfl
  have hcommit := IngressStep.commit ⟨⟨1, 1⟩, .normal⟩ runStarted (List.mem_cons_self ..)
    (w := ⟨(SharedIngress.new.reserve ⟨1, 1⟩ .normal).2, [⟨⟨1, 1⟩, .normal⟩], [], []⟩)
    (fun tracked htracked => absurd htracked List.not_mem_nil)
  have hrun := (((ReflTransGen.single hreserve).tail hcommit).tail (.consumer .tryDequeue)).tail
    (.consumer (.markCommitted ⟨⟨1⟩, 0, 1, 1, 1⟩))
  exact ⟨_, hrun, by decide, by decide, (ingress_accounting hrun).1⟩

end Troupe.Store
