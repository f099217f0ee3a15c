import Troupe.Core.Hub
import Troupe.Store.Accounting

/-! # The production hub over the mandatory ingress

`ProductionDiagnosticHub<MandatoryIngress>` (`hub.rs:641-712` over `store/admission.rs`) as one step
relation.

* `admission` is the call that holds the hub's mutex, between its reservation and its settlement.
  The ingress has its own mutex, so consumer calls may run in between.
* `delivering` is the call that left the hub's mutex and still holds `subscriber_delivery_order`:
  its event is on the way to the subscriber. A call with a subscriber waits for that lock.
* `live`, `delivered` and `accepted` are history: what the notifier and the subscriber were handed,
  and the accepted events in order, each with whether its call had a subscriber. What a notifier or
  a subscriber answers goes into the receipt only.

Results: **`hub_step_invariant`** and **`hub_admission`**. -/

namespace Troupe.Store

open Relation (ReflTransGen)
open Troupe.Core Troupe.Lib

variable {reservationClass : ReservationClass} {shared shared' : SharedIngress}
  {size : AdmissionSize}

instance : AdmissionReserver SharedIngress where
  Error := Fault IngressAdmissionError
  Reservation := IngressReservation
  tryReserve shared size := shared.reserve size .normal
  tryReserveCue shared size := shared.reserve size .cue
  tryReserveFatal shared size := shared.reserve size .fatal
  commit := SharedIngress.commit
  drop := SharedIngress.drop

/-- The hub, the ingress it reserves from, and the calls in progress. -/
structure HubWorld where
  hub : HubState
  ingress : IngressWorld
  admission : Option (PendingAdmission IngressReservation × Bool)
  delivering : Option AcceptedDiagnosticEvent
  accepted : List (AcceptedDiagnosticEvent × Bool)
  live : List AcceptedDiagnosticEvent
  delivered : List AcceptedDiagnosticEvent

/-- A new hub over a new ingress. -/
def HubWorld.new (runId : CanonicalUuid) : HubWorld := ⟨.new runId, .new, none, none, [], [], []⟩

/-- What a step did. -/
inductive HubLabel where
  | reserved
  | refused
  | accepted
  | rejected
  | delivered
  | consumed
deriving DecidableEq

section Steps

variable (encode : DiagnosticEvent → Option (List UInt8))

/-- One step of an admission, of a delivery, or of an ingress consumer. -/
inductive HubStep : HubWorld → HubLabel → HubWorld → Prop
  | reserve {w : HubWorld} {pending : PendingAdmission IngressReservation} {shared : SharedIngress}
      (candidate : EventIdentity → DiagnosticEvent) (reservationClass : ReservationClass)
      (subscribed : Bool) (unlocked : w.admission = none)
      (ordered : subscribed = true → w.delivering = none)
      (granted : w.hub.reserve encode w.ingress.shared candidate
        (fun room size => room.reserve size reservationClass) = (.ok pending, shared)) :
      HubStep w .reserved
        { w with
          ingress := w.ingress.reserved shared pending.reservation
          admission := some (pending, subscribed) }
  | refuse {w : HubWorld} {error : HubAdmissionError (Fault IngressAdmissionError)}
      {shared : SharedIngress} (candidate : EventIdentity → DiagnosticEvent)
      (reservationClass : ReservationClass) (unlocked : w.admission = none)
      (refused : w.hub.reserve encode w.ingress.shared candidate
        (fun room size => room.reserve size reservationClass) = (.error error, shared)) :
      HubStep w .refused { w with ingress := { w.ingress with shared } }
  | accept {w : HubWorld} {pending : PendingAdmission IngressReservation} {subscribed : Bool}
      {accepted : AcceptedDiagnosticEvent} {hub : HubState} {shared : SharedIngress}
      (locked : w.admission = some (pending, subscribed))
      (settled : w.hub.settle w.ingress.shared pending = (.ok accepted, hub, shared)) :
      HubStep w .accepted
        { w with
          hub
          ingress := w.ingress.commit pending.reservation accepted
          admission := none
          delivering := if subscribed then some accepted else w.delivering
          accepted := w.accepted ++ [(accepted, subscribed)]
          live := w.live ++ [accepted] }
  | reject {w : HubWorld} {pending : PendingAdmission IngressReservation} {subscribed : Bool}
      {error : HubAdmissionError (Fault IngressAdmissionError)} {hub : HubState}
      {shared : SharedIngress} (locked : w.admission = some (pending, subscribed))
      (settled : w.hub.settle w.ingress.shared pending = (.error error, hub, shared)) :
      HubStep w .rejected
        { w with hub, ingress := w.ingress.drop pending.reservation, admission := none }
  | deliver {w : HubWorld} {accepted : AcceptedDiagnosticEvent}
      (inDelivery : w.delivering = some accepted) :
      HubStep w .delivered { w with delivering := none, delivered := w.delivered ++ [accepted] }
  | consume {w : HubWorld} {ingress : IngressWorld} (step : ConsumerStep w.ingress ingress) :
      HubStep w .consumed { w with ingress }

/-- One step of any kind. -/
def HubStep.Any (w w' : HubWorld) : Prop := ∃ label, HubStep encode w label w'

end Steps

/-! ## The invariant -/

/-- The sequence after `count` accepted events. -/
def nextAfter (count : Nat) : Option SchemaU64 :=
  if h : count + 1 ≤ u64Max then some ⟨count + 1, h⟩ else none

/-- The reservations of the admission in progress: none or one. -/
def HubWorld.held (w : HubWorld) : List IngressReservation :=
  (w.admission.map (·.1.reservation)).toList

/-- What holds between the steps of the hub. -/
structure HubInvariant (runId : CanonicalUuid) (w : HubWorld) : Prop where
  /-- The ingress is accounted for, and the only reservation is the admission's. -/
  accounted : Accounted w.ingress
  held : w.ingress.reservations = w.held
  /-- The hub counts the accepted events, whose sequences are `1, 2, 3, …`. -/
  run : w.hub.runId = runId
  next : w.hub.nextSequence = nextAfter w.accepted.length
  sequences : w.accepted.map (·.1.sequence) = List.range' 1 w.accepted.length
  runs : ∀ accepted ∈ w.accepted, accepted.1.runId = runId
  /-- An admission in progress carries the next sequence. -/
  pending : ∀ admission ∈ w.admission, w.hub.nextSequence = some admission.1.next ∧
    admission.1.event.identity = ⟨runId, admission.1.next⟩ ∧
    admission.1.canonicalBytes.length = admission.1.reservation.size.canonicalBytes
  /-- The accepted events that are not acknowledged are the outstanding ones. -/
  outstanding : w.ingress.shared.state.outstanding.map (·.event) =
    (w.accepted.map (·.1)).drop w.ingress.shared.state.committedSequence
  committed_le : w.ingress.shared.state.committedSequence ≤ w.accepted.length
  /-- The notifier was handed the accepted events, and the subscriber those of its calls. -/
  live : w.live = w.accepted.map (·.1)
  delivered : w.delivered ++ w.delivering.toList = (w.accepted.filter (·.2)).map (·.1)
  /-- A call with a subscriber holds the delivery order. -/
  ordered : ∀ admission ∈ w.admission, admission.2 = true → w.delivering = none

theorem hubInvariant_new (runId : CanonicalUuid) : HubInvariant runId (.new runId) where
  accounted := accounted_new
  held := rfl
  run := rfl
  next := rfl
  sequences := rfl
  runs := by simp [HubWorld.new]
  pending := by simp [HubWorld.new]
  outstanding := rfl
  committed_le := Nat.le_refl _
  live := rfl
  delivered := rfl
  ordered := by simp [HubWorld.new]

/-- What a consumer's call does to what is outstanding: at most it acknowledges a prefix. -/
theorem consumerStep_outstanding {w w' : IngressWorld} (h : Accounted w) (hstep : ConsumerStep w w') :
    w'.reservations = w.reservations ∧ ∃ count, count ≤ w.shared.state.outstanding.length ∧
      w'.shared.state.outstanding.map (·.event) =
        (w.shared.state.outstanding.map (·.event)).drop count ∧
      w'.shared.state.committedSequence = w.shared.state.committedSequence + count := by
  cases hstep with
  | tryDequeue =>
    unfold SharedIngress.tryDequeue
    split
    · exact ⟨rfl, 0, Nat.zero_le _, rfl, rfl⟩
    · rename_i event outstanding hdequeue
      obtain ⟨before, after, bytes, hold, rfl, -⟩ := dequeueFirst_eq_some hdequeue
      refine ⟨rfl, 0, Nat.zero_le _, ?_, rfl⟩
      simp [hold]
  | markCommitted notification =>
    rcases markCommitted_cases notification h.outstanding_bytes with ⟨error, heq⟩ | ⟨hvalidate, heq⟩
    · rw [heq, latchFailure_state]
      exact ⟨rfl, 0, Nat.zero_le _, rfl, rfl⟩
    · rw [heq]
      obtain ⟨-, -, hlength, -⟩ := validateCommit_eq_ok hvalidate
      exact ⟨rfl, notification.eventCount, hlength, List.map_drop .., rfl⟩
  | sealNormalIngress => exact ⟨rfl, 0, Nat.zero_le _, rfl, rfl⟩
  | sealForExternalCoreFailure => exact ⟨rfl, 0, Nat.zero_le _, rfl, rfl⟩
  | beginCueCapture =>
    obtain ⟨paused, suppressed, heq⟩ := beginCueCapture_state w.shared
    rw [heq]
    exact ⟨rfl, 0, Nat.zero_le _, rfl, rfl⟩
  | finishCueCapture => exact ⟨rfl, 0, Nat.zero_le _, rfl, rfl⟩
  | tryRecv => exact ⟨rfl, 0, Nat.zero_le _, rfl, rfl⟩
  | dropReceiver => exact ⟨rfl, 0, Nat.zero_le _, rfl, rfl⟩

/-- A refused reservation keeps what is outstanding and every counter. -/
theorem reserve_refused
    {fault : Fault IngressAdmissionError}
    (h : shared.reserve size reservationClass = (.error fault, shared')) :
    ∃ isSealed authorized failure, shared'.state =
      { shared.state with
        normalIngressSealed := isSealed
        fatalAdmissionAuthorized := authorized
        failure := failure } := by
  have hreserves := reserves shared size reservationClass
  rw [h] at hreserves
  cases hreserves with
  | refused error => exact ⟨_, _, _, rfl⟩
  | exhausted failure => exact ⟨_, _, _, latchFailure_state shared failure⟩

/-- A granted reservation is the one asked for, and keeps what is outstanding. -/
theorem reserve_granted
    {reservation : IngressReservation}
    (h : shared.reserve size reservationClass = (.ok reservation, shared')) :
    reservation = ⟨size, reservationClass⟩ ∧
      shared'.state.outstanding = shared.state.outstanding ∧
      shared'.state.committedSequence = shared.state.committedSequence := by
  have hreserves := reserves shared size reservationClass
  rw [h] at hreserves
  cases hreserves with
  | granted => exact ⟨rfl, rfl, rfl⟩

theorem nextAfter_get {count : Nat} {next : SchemaU64} (h : nextAfter count = some next) :
    next.get = count + 1 ∧ next.checkedSucc = nextAfter (count + 1) := by
  unfold nextAfter at h
  split at h
  · cases h
    exact ⟨rfl, rfl⟩
  · cases h

section Invariant

variable {encode : DiagnosticEvent → Option (List UInt8)} {runId : CanonicalUuid} {w w' : HubWorld}
  {pending : PendingAdmission IngressReservation} {shared : SharedIngress}

theorem hub_reserve
    {candidate : EventIdentity → DiagnosticEvent} {reservationClass : ReservationClass}
    {subscribed : Bool} (h : HubInvariant runId w) (hunlocked : w.admission = none)
    (hordered : subscribed = true → w.delivering = none)
    (hgranted : w.hub.reserve encode w.ingress.shared candidate
      (fun room size => room.reserve size reservationClass) = (.ok pending, shared)) :
    HubInvariant runId
      { w with
        ingress := w.ingress.reserved shared pending.reservation
        admission := some (pending, subscribed) } := by
  obtain ⟨hnext, hidentity, -, hreserve⟩ := HubState.reserve_ok hgranted
  obtain ⟨hreservation, houtstanding, hcommitted⟩ := reserve_granted hreserve
  have hheld := h.held
  rw [HubWorld.held, hunlocked] at hheld
  refine ⟨accounted_reserve h.accounted hreserve, ?_, h.run, h.next, h.sequences, h.runs, ?_, ?_, ?_,
    h.live, h.delivered, ?_⟩
  · simp only [IngressWorld.reserved, hheld]
    rfl
  · rintro admission ⟨⟩
    refine ⟨hnext, ?_, ?_⟩
    · rw [hidentity, h.run]
    · rw [hreservation]
      rfl
  · simp only [IngressWorld.reserved, houtstanding, hcommitted]
    exact h.outstanding
  · simp only [IngressWorld.reserved, hcommitted]
    exact h.committed_le
  · rintro admission ⟨⟩
    exact hordered

theorem hub_refuse {error : HubAdmissionError (Fault IngressAdmissionError)}
    {candidate : EventIdentity → DiagnosticEvent}
    {reservationClass : ReservationClass} (h : HubInvariant runId w)
    (hrefused : w.hub.reserve encode w.ingress.shared candidate
      (fun room size => room.reserve size reservationClass) = (.error error, shared)) :
    HubInvariant runId { w with ingress := { w.ingress with shared } } := by
  rcases HubState.reserve_error hrefused with rfl | ⟨size, refusal, hreserve⟩
  · exact h
  · have haccounted := accounted_reserveFails h.accounted hreserve
    obtain ⟨isSealed, authorized, failure, hstate⟩ := reserve_refused hreserve
    refine ⟨haccounted, h.held, h.run, h.next, h.sequences, h.runs, h.pending, ?_, ?_, h.live,
      h.delivered, h.ordered⟩
    · rw [hstate]; exact h.outstanding
    · rw [hstate]; exact h.committed_le

/-- The sequence of the admission in progress is new. -/
theorem hub_fresh {admission : PendingAdmission IngressReservation × Bool} (h : HubInvariant runId w)
    (hlocked : w.admission = some admission) {accepted : AcceptedDiagnosticEvent}
    (hevent : accepted.event = admission.1.event) :
    accepted.sequence = w.accepted.length + 1 ∧ accepted.runId = runId ∧
      ∀ tracked ∈ w.ingress.shared.state.outstanding,
        tracked.event.sequence ≠ accepted.sequence := by
  obtain ⟨hnext, hidentity, -⟩ := h.pending admission hlocked
  have hsequence : accepted.sequence = w.accepted.length + 1 := by
    rw [h.next] at hnext
    rw [← (nextAfter_get hnext).1, AcceptedDiagnosticEvent.sequence, hevent]
    exact congrArg (·.sequence.get) hidentity
  refine ⟨hsequence, ?_, ?_⟩
  · rw [AcceptedDiagnosticEvent.runId, hevent]
    exact congrArg (·.runId) hidentity
  · intro tracked htracked hsame
    have hmem : tracked.event ∈ w.ingress.shared.state.outstanding.map (·.event) :=
      List.mem_map_of_mem htracked
    rw [h.outstanding] at hmem
    have hrange : tracked.event.sequence ∈ w.accepted.map (·.1.sequence) := by
      obtain ⟨pair, hpair, heq⟩ := List.mem_map.mp (List.mem_of_mem_drop hmem)
      exact List.mem_map.mpr ⟨pair, hpair, by rw [heq]⟩
    rw [h.sequences, List.mem_range'_1] at hrange
    omega

theorem hub_accept {subscribed : Bool}
    {accepted : AcceptedDiagnosticEvent} {hub : HubState}
    (h : HubInvariant runId w) (hlocked : w.admission = some (pending, subscribed))
    (hsettled : w.hub.settle w.ingress.shared pending = (.ok accepted, hub, shared)) :
    HubInvariant runId
      { w with
        hub
        ingress := w.ingress.commit pending.reservation accepted
        admission := none
        delivering := if subscribed then some accepted else w.delivering
        accepted := w.accepted ++ [(accepted, subscribed)]
        live := w.live ++ [accepted] } := by
  obtain ⟨hevent, -, hrun, hnext', -, -⟩ := HubState.settle_ok hsettled
  obtain ⟨hnext, -, -⟩ := h.pending _ hlocked
  obtain ⟨hsequence, hrunId, hfresh⟩ := hub_fresh h hlocked hevent
  have hheld := h.held
  rw [HubWorld.held, hlocked] at hheld
  have hlive : pending.reservation ∈ w.ingress.reservations := by
    rw [hheld]
    simp
  have hstate := commit_state accepted h.accounted hlive
  refine ⟨accounted_commit h.accounted hlive hfresh, ?_, ?_, ?_, ?_, ?_, ?_, ?_, ?_, ?_, ?_, ?_⟩
  · simp [IngressWorld.commit, hheld, HubWorld.held]
  · rw [hrun, h.run]
  · rw [hnext', List.length_append, List.length_singleton]
    rw [h.next] at hnext
    exact (nextAfter_get hnext).2
  · rw [List.map_append, h.sequences, List.length_append, List.length_singleton, List.range'_concat]
    simp [hsequence, Nat.add_comm]
  · intro other hother
    rcases List.mem_append.mp hother with hother | hother
    · exact h.runs other hother
    · rw [List.mem_singleton.mp hother]
      exact hrunId
  · simp
  · simp only [IngressWorld.commit, hstate, List.map_append, h.outstanding]
    rw [List.drop_append_of_le_length (by simpa using h.committed_le)]
    simp
  · have hle := h.committed_le
    simp only [IngressWorld.commit, hstate, List.length_append]
    omega
  · rw [h.live, List.map_append]
    rfl
  · have hdelivered := h.delivered
    cases subscribed with
    | true =>
      rw [h.ordered _ hlocked rfl] at hdelivered
      simp only [Option.toList_none, List.append_nil] at hdelivered
      simp [hdelivered, List.filter_append]
    | false => simpa [List.filter_append] using hdelivered
  · simp

theorem hub_reject {subscribed : Bool}
    {error : HubAdmissionError (Fault IngressAdmissionError)} {hub : HubState}
    (h : HubInvariant runId w)
    (hlocked : w.admission = some (pending, subscribed))
    (hsettled : w.hub.settle w.ingress.shared pending = (.error error, hub, shared)) :
    HubInvariant runId
      { w with hub, ingress := w.ingress.drop pending.reservation, admission := none } := by
  obtain ⟨rfl, -⟩ := HubState.settle_error hsettled
  have hheld := h.held
  rw [HubWorld.held, hlocked] at hheld
  have hlive : pending.reservation ∈ w.ingress.reservations := by
    rw [hheld]
    simp
  refine ⟨accounted_drop h.accounted hlive, ?_, h.run, h.next, h.sequences, h.runs, ?_,
    h.outstanding, h.committed_le, h.live, h.delivered, ?_⟩
  · simp [IngressWorld.drop, hheld, HubWorld.held]
  · simp
  · simp

theorem hub_consume {ingress : IngressWorld} (h : HubInvariant runId w)
    (hstep : ConsumerStep w.ingress ingress) : HubInvariant runId { w with ingress } := by
  obtain ⟨hreservations, count, hcount, houtstanding, hcommitted⟩ :=
    consumerStep_outstanding h.accounted hstep
  refine ⟨accounted_consumer h.accounted hstep, hreservations.trans h.held, h.run, h.next,
    h.sequences, h.runs, h.pending, ?_, ?_, h.live, h.delivered, h.ordered⟩
  · rw [houtstanding, h.outstanding, List.drop_drop, hcommitted]
  · have hlength := congrArg List.length h.outstanding
    simp only [List.length_map, List.length_drop] at hlength
    have hle := h.committed_le
    simp only
    omega

/-- **Every step keeps the invariant.** -/
theorem hub_step_invariant (h : HubInvariant runId w) (hstep : HubStep.Any encode w w') :
    HubInvariant runId w' := by
  obtain ⟨label, hstep⟩ := hstep
  cases hstep with
  | reserve candidate reservationClass subscribed unlocked ordered granted =>
    exact hub_reserve h unlocked ordered granted
  | refuse candidate reservationClass unlocked refused => exact hub_refuse h refused
  | accept locked settled => exact hub_accept h locked settled
  | reject locked settled => exact hub_reject h locked settled
  | deliver inDelivery =>
    refine ⟨h.accounted, h.held, h.run, h.next, h.sequences, h.runs, h.pending, h.outstanding,
      h.committed_le, h.live, ?_, fun _ _ _ => rfl⟩
    have hdelivered := h.delivered
    rw [inDelivery] at hdelivered
    simpa using hdelivered
  | consume step => exact hub_consume h step

/-- A step other than an acceptance leaves the hub as it was. -/
theorem hub_unchanged {label : HubLabel} (hstep : HubStep encode w label w')
    (hlabel : label ≠ .accepted) : w'.hub = w.hub := by
  cases hstep with
  | accept => exact absurd rfl hlabel
  | reject locked settled => exact (HubState.settle_error settled).1
  | reserve => rfl
  | refuse => rfl
  | deliver => rfl
  | consume => rfl

end Invariant

/-! ## Failed admissions give everything back -/

/-- What the ingress still has room for, and what it holds. -/
def IngressState.capacity (state : IngressState) :
    Nat × Nat × List TrackedEvent × Nat × Nat × FatalAdmissionState :=
  (state.reservedEvents, state.reservedCanonicalBytes, state.outstanding,
    state.outstandingCanonicalBytes, state.committedSequence, state.fatalState)

theorem reserve_refused_capacity
    {fault : Fault IngressAdmissionError}
    (h : shared.reserve size reservationClass = (.error fault, shared')) :
    shared'.state.capacity = shared.state.capacity := by
  obtain ⟨isSealed, authorized, failure, hstate⟩ := reserve_refused h
  rw [hstate]
  rfl

/-- Dropping a reservation undoes it. -/
theorem drop_reserve_capacity
    {reservation : IngressReservation}
    (h : shared.reserve size reservationClass = (.ok reservation, shared')) :
    (shared'.drop reservation).state.capacity = shared.state.capacity := by
  have hreserves := reserves shared size reservationClass
  rw [h] at hreserves
  cases hreserves with
  | granted paused one allowed events_le bytes_le =>
    unfold IngressState.capacity
    rw [drop_fatalState]
    simp only [SharedIngress.drop, releaseReserved, one, Nat.add_sub_cancel, Prod.mk.injEq,
      true_and]
    by_cases hclass : reservationClass = .fatal
    · subst hclass
      simp [checkClass_fatal allowed]
    · simp [hclass]

section Failures

variable {encode : DiagnosticEvent → Option (List UInt8)} {runId : CanonicalUuid} {w w' : HubWorld}

theorem refused_capacity (hstep : HubStep encode w .refused w') :
    w'.ingress.shared.state.capacity = w.ingress.shared.state.capacity ∧
      w'.ingress.reservations = w.ingress.reservations := by
  cases hstep with
  | refuse candidate reservationClass unlocked refused =>
    rcases HubState.reserve_error refused with rfl | ⟨size, refusal, hreserve⟩
    · exact ⟨rfl, rfl⟩
    · exact ⟨reserve_refused_capacity hreserve, rfl⟩

/-- With no admission in progress nothing is reserved. -/
theorem idle_unreserved (h : HubInvariant runId w) (hidle : w.admission = none) :
    w.ingress.reservations = [] ∧ w.ingress.shared.state.reservedEvents = 0 ∧
      w.ingress.shared.state.reservedCanonicalBytes = 0 ∧
      w.ingress.shared.state.fatalState ≠ .reserved := by
  have hnone : w.ingress.reservations = [] := by
    rw [h.held, HubWorld.held, hidle]
    rfl
  refine ⟨hnone, ?_, ?_, ?_⟩
  · rw [h.accounted.reserved_events, hnone]
    rfl
  · rw [h.accounted.reserved_bytes, hnone]
    rfl
  · intro hreserved
    have hfatal := h.accounted.fatal
    rw [hreserved, hnone] at hfatal
    cases hfatal.1

/-- A failed `admit_inner` leaves the hub as it was and the ingress with the same capacity. -/
theorem admitInner_error {hub : HubState} {shared shared' : SharedIngress}
    {candidate : EventIdentity → DiagnosticEvent} {reservationClass : ReservationClass}
    {error : HubAdmissionError (Fault IngressAdmissionError)} {hub' : HubState}
    (h : hub.admitInner encode shared candidate
      (fun room size => room.reserve size reservationClass) = (.error error, hub', shared')) :
    hub' = hub ∧ shared'.state.capacity = shared.state.capacity := by
  unfold HubState.admitInner at h
  split at h
  · rename_i refusal room hreserve
    cases h
    rcases HubState.reserve_error hreserve with rfl | ⟨size, refusal', hrefused⟩
    · exact ⟨rfl, rfl⟩
    · exact ⟨rfl, reserve_refused_capacity hrefused⟩
  · rename_i pending room hreserve
    obtain ⟨rfl, rfl⟩ := HubState.settle_error h
    obtain ⟨-, -, -, hgranted⟩ := HubState.reserve_ok hreserve
    exact ⟨rfl, drop_reserve_capacity hgranted⟩

end Failures

/-- **Hub admission is gap-free and atomic.** In every reachable state the accepted events carry the
sequences `1, 2, 3, …` of the run in order, and past `u64::MAX` an admission fails; only an
acceptance changes the hub; a failed admission gives its reservation back, also when nothing runs in
between (`admit_inner` as a whole); and every accepted event went to the ingress, to the notifier
and, when its call had one, to the subscriber, once each and unchanged. -/
theorem hub_admission {encode : DiagnosticEvent → Option (List UInt8)} {runId : CanonicalUuid}
    {w : HubWorld} (h : ReflTransGen (HubStep.Any encode) (.new runId) w) :
    w.accepted.map (·.1.sequence) = List.range' 1 w.accepted.length ∧
      (∀ accepted ∈ w.accepted, accepted.1.runId = runId) ∧
      w.hub.nextSequence = nextAfter w.accepted.length ∧
      (w.accepted.length = u64Max → ∀ candidate reservationClass,
        w.hub.reserve encode w.ingress.shared candidate
          (fun room size => room.reserve size reservationClass) =
          (.error .sequenceExhausted, w.ingress.shared)) ∧
      (∀ label w', HubStep encode w label w' → label ≠ .accepted → w'.hub = w.hub) ∧
      (∀ w', HubStep encode w .refused w' →
        w'.ingress.shared.state.capacity = w.ingress.shared.state.capacity) ∧
      (∀ w', HubStep encode w .rejected w' → w'.ingress.reservations = [] ∧
        w'.ingress.shared.state.outstanding = w.ingress.shared.state.outstanding) ∧
      (w.admission = none → w.ingress.reservations = [] ∧
        w.ingress.shared.state.reservedEvents = 0 ∧
        w.ingress.shared.state.reservedCanonicalBytes = 0 ∧
        w.ingress.shared.state.fatalState ≠ .reserved) ∧
      (∀ candidate reservationClass error hub' shared', w.hub.admitInner encode w.ingress.shared
          candidate (fun room size => room.reserve size reservationClass) =
          (.error error, hub', shared') →
        hub' = w.hub ∧ shared'.state.capacity = w.ingress.shared.state.capacity) ∧
      w.ingress.shared.state.outstanding.map (·.event) =
        (w.accepted.map (·.1)).drop w.ingress.shared.state.committedSequence ∧
      w.live = w.accepted.map (·.1) ∧
      w.delivered ++ w.delivering.toList = (w.accepted.filter (·.2)).map (·.1) := by
  have hinvariant : HubInvariant runId w :=
    run_invariant (p := HubInvariant runId) (fun _ _ hw hstep => hub_step_invariant hw hstep)
      (hubInvariant_new runId) h
  refine ⟨hinvariant.sequences, hinvariant.runs, hinvariant.next, ?_, ?_, ?_, ?_, ?_, ?_,
    hinvariant.outstanding, hinvariant.live, hinvariant.delivered⟩
  · intro hlast candidate reservationClass
    refine HubState.reserve_exhausted ?_
    rw [hinvariant.next, hlast]
    rfl
  · exact fun label w' hstep hlabel => hub_unchanged hstep hlabel
  · exact fun w' hstep => (refused_capacity hstep).1
  · intro w' hstep
    have hinvariant' := hub_step_invariant hinvariant ⟨_, hstep⟩
    cases hstep with
    | reject locked settled =>
      exact ⟨(idle_unreserved hinvariant' rfl).1, rfl⟩
  · exact idle_unreserved hinvariant
  · exact fun candidate reservationClass error hub' shared' hfailed => admitInner_error hfailed

/-- The end of the span `span`, as the second event of run 1. -/
def secondFinish (span : SchemaU64) : EventIdentity → DiagnosticEvent := fun _ =>
  .spanFinished ⟨.at 2 20 [] SchemaU64.two_pos, span, .completed, none⟩

/-- The run starts, the end of a span that does not exist is rejected, and the run ends. -/
theorem hub_admission_first : ∃ w, ReflTransGen (HubStep.Any fun _ => some [0]) (.new ⟨1⟩) w ∧
    w.accepted.length = 2 ∧ w.delivered.length = 1 ∧ w.live = w.accepted.map (·.1) ∧
    w.accepted.map (·.1.sequence) = List.range' 1 w.accepted.length := by
  let start : EventIdentity → DiagnosticEvent := fun _ =>
    .spanStarted ⟨.at 1 10 [] SchemaU64.one_pos, .runLifecycle, none⟩
  have h : ReflTransGen (HubStep.Any fun _ => some [0]) (.new ⟨1⟩) _ :=
    .single ⟨_, .reserve start .normal true rfl (fun _ => rfl) rfl⟩
  have h := h.tail ⟨_, .accept rfl rfl⟩
  have h := h.tail ⟨_, .deliver rfl⟩
  have h := h.tail ⟨_, .reserve (secondFinish 7) .normal false rfl nofun rfl⟩
  have h := h.tail ⟨_, .reject rfl rfl⟩
  have h := h.tail ⟨_, .reserve (secondFinish 1) .normal false rfl nofun rfl⟩
  have h := h.tail ⟨_, .accept rfl rfl⟩
  obtain ⟨hsequences, -, -, -, -, -, -, -, -, -, hlive, -⟩ := hub_admission h
  exact ⟨_, h, rfl, rfl, hlive, hsequences⟩

end Troupe.Store
