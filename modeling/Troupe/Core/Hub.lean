import Troupe.Core.Accepted

/-! # The diagnostic hub

`DiagnosticHub` of `hub.rs`: it assigns each candidate event the next sequence, reserves room for it,
validates its references, and hands the accepted event on. The hub is generic over its
`AdmissionReserver`.

* `admit_inner` (`hub.rs:641-712`) takes the reserver's lock twice: to reserve, and later to commit
  or drop the reservation. In between, other threads may use the reserver. It is modelled as the two
  halves `reserve` and `settle`, each of which touches the reserver once; `admitInner` runs them
  back to back.
* `serde_json::to_vec` is the parameter `encode`; `none` is its error.
* A candidate is a function of the identity the hub assigns. -/

namespace Troupe.Core

open Troupe.Lib

/-- `AdmissionReserver`, `MandatoryDurableReserver` and `AdmissionReservation`: a reservation is
either committed or dropped. -/
class AdmissionReserver (ρ : Type) where
  Error : Type
  Reservation : Type
  tryReserve : ρ → AdmissionSize → Except Error Reservation × ρ
  tryReserveCue : ρ → AdmissionSize → Except Error Reservation × ρ
  tryReserveFatal : ρ → AdmissionSize → Except Error Reservation × ρ
  commit : ρ → Reservation → AcceptedDiagnosticEvent → ρ
  drop : ρ → Reservation → ρ

/-- `HubAdmissionError`. -/
inductive HubAdmissionError (ε : Type) where
  | sequenceExhausted
  | candidateIdentityMismatch (expected actual : EventIdentity)
  | canonicalEncoding
  | reference (fault : Fault ReferenceValidationError)
  | reservation (error : ε)
deriving DecidableEq

/-- `HubState`, without the reserver and the notifier. -/
structure HubState where
  runId : CanonicalUuid
  nextSequence : Option SchemaU64
  validator : ReferenceValidator

/-- `DiagnosticHub::new`. -/
def HubState.new (runId : CanonicalUuid) : HubState := ⟨runId, some 1, .new⟩

/-- An admission that holds its reservation. -/
structure PendingAdmission (κ : Type) where
  next : SchemaU64
  event : DiagnosticEvent
  canonicalBytes : List UInt8
  reservation : κ

section Admission

variable {ρ : Type} [reserver : AdmissionReserver ρ] (encode : DiagnosticEvent → Option (List UInt8))

/-- The first half of `admit_inner`: everything up to the reservation. -/
def HubState.reserve (hub : HubState) (room : ρ) (candidate : EventIdentity → DiagnosticEvent)
    (reserveOne : ρ → AdmissionSize → Except reserver.Error reserver.Reservation × ρ) :
    Except (HubAdmissionError reserver.Error) (PendingAdmission reserver.Reservation) × ρ :=
  match hub.nextSequence with
  | none => (.error .sequenceExhausted, room)
  | some next =>
    let identity : EventIdentity := ⟨hub.runId, next⟩
    let event := candidate identity
    if event.identity ≠ identity then
      (.error (.candidateIdentityMismatch identity event.identity), room)
    else
      match encode event with
      | none => (.error .canonicalEncoding, room)
      | some canonicalBytes =>
        match reserveOne room (.oneEvent canonicalBytes.length) with
        | (.error error, room) => (.error (.reservation error), room)
        | (.ok reservation, room) => (.ok ⟨next, event, canonicalBytes, reservation⟩, room)

/-- The second half of `admit_inner`: validation, then the reservation's commit, or its drop on the
way out. -/
def HubState.settle (hub : HubState) (room : ρ) (pending : PendingAdmission reserver.Reservation) :
    Except (HubAdmissionError reserver.Error) AcceptedDiagnosticEvent × HubState × ρ :=
  match hub.validator.validate pending.event with
  | (.error fault, validator) =>
    (.error (.reference fault), { hub with validator }, reserver.drop room pending.reservation)
  | (.ok validated, validator) =>
    let accepted : AcceptedDiagnosticEvent :=
      ⟨pending.event, pending.canonicalBytes, validated.builtInSpanKind, false⟩
    (.ok accepted, { hub with nextSequence := pending.next.checkedSucc, validator },
      reserver.commit room pending.reservation accepted)

/-- `admit_inner`, with nobody else using the reserver meanwhile. -/
def HubState.admitInner (hub : HubState) (room : ρ) (candidate : EventIdentity → DiagnosticEvent)
    (reserveOne : ρ → AdmissionSize → Except reserver.Error reserver.Reservation × ρ) :
    Except (HubAdmissionError reserver.Error) AcceptedDiagnosticEvent × HubState × ρ :=
  match hub.reserve encode room candidate reserveOne with
  | (.error error, room) => (.error error, hub, room)
  | (.ok pending, room) => hub.settle room pending

/-- `DiagnosticHub::admit`. -/
def HubState.admit (hub : HubState) (room : ρ) (candidate : EventIdentity → DiagnosticEvent) :=
  hub.admitInner encode room candidate reserver.tryReserve

/-- `DiagnosticHub::admit_cue`. -/
def HubState.admitCue (hub : HubState) (room : ρ) (candidate : EventIdentity → DiagnosticEvent) :=
  hub.admitInner encode room candidate reserver.tryReserveCue

/-- `DiagnosticHub::admit_fatal`. -/
def HubState.admitFatal (hub : HubState) (room : ρ) (candidate : EventIdentity → DiagnosticEvent) :=
  hub.admitInner encode room candidate reserver.tryReserveFatal

end Admission

/-! ## What each half does -/

section Spec

variable {ρ : Type} [reserver : AdmissionReserver ρ] {encode : DiagnosticEvent → Option (List UInt8)}
  {hub : HubState} {room room' : ρ} {candidate : EventIdentity → DiagnosticEvent}
  {reserveOne : ρ → AdmissionSize → Except reserver.Error reserver.Reservation × ρ}
  {pending : PendingAdmission reserver.Reservation}

/-- A reserved admission carries the next sequence, and its reservation is for its own bytes. -/
theorem HubState.reserve_ok
    (h : hub.reserve encode room candidate reserveOne = (.ok pending, room')) :
    hub.nextSequence = some pending.next ∧ pending.event.identity = ⟨hub.runId, pending.next⟩ ∧
      encode pending.event = some pending.canonicalBytes ∧
      reserveOne room (.oneEvent pending.canonicalBytes.length) =
        (.ok pending.reservation, room') := by
  unfold HubState.reserve at h
  split at h
  · cases h
  · rename_i next hnext
    dsimp only at h
    split at h
    · cases h
    · rename_i hidentity
      split at h
      · cases h
      · rename_i canonicalBytes hencode
        split at h
        · cases h
        · rename_i reservation granted hgranted
          cases h
          exact ⟨hnext, not_not.mp hidentity, hencode, hgranted⟩

/-- A refused admission left the reserver alone, or as the refused reservation left it. -/
theorem HubState.reserve_error {error : HubAdmissionError reserver.Error}
    (h : hub.reserve encode room candidate reserveOne = (.error error, room')) :
    room' = room ∨ ∃ size refusal, reserveOne room size = (.error refusal, room') := by
  unfold HubState.reserve at h
  split at h
  · cases h
    exact .inl rfl
  · dsimp only at h
    split at h
    · cases h
      exact .inl rfl
    · split at h
      · cases h
        exact .inl rfl
      · rename_i canonicalBytes hencode
        split at h
        · rename_i refusal left hrefused
          cases h
          exact .inr ⟨_, refusal, hrefused⟩
        · cases h

/-- Past the last sequence every admission fails. -/
theorem HubState.reserve_exhausted (h : hub.nextSequence = none) :
    hub.reserve encode room candidate reserveOne = (.error .sequenceExhausted, room) := by
  unfold HubState.reserve
  rw [h]

/-- An accepted admission moves the hub on by one and commits its reservation. -/
theorem HubState.settle_ok {hub' : HubState}
    {accepted : AcceptedDiagnosticEvent} (h : hub.settle room pending = (.ok accepted, hub', room')) :
    accepted.event = pending.event ∧ accepted.canonicalBytes = pending.canonicalBytes ∧
      hub'.runId = hub.runId ∧ hub'.nextSequence = pending.next.checkedSucc ∧
      (∃ validated, hub.validator.validate pending.event = (.ok validated, hub'.validator)) ∧
      room' = reserver.commit room pending.reservation accepted := by
  unfold HubState.settle at h
  split at h
  · cases h
  · rename_i validated validator hvalidate
    cases h
    exact ⟨rfl, rfl, rfl, rfl, ⟨validated, hvalidate⟩, rfl⟩

/-- A rejected admission leaves the hub as it was and drops its reservation. -/
theorem HubState.settle_error {hub' : HubState}
    {error : HubAdmissionError reserver.Error}
    (h : hub.settle room pending = (.error error, hub', room')) :
    hub' = hub ∧ room' = reserver.drop room pending.reservation := by
  unfold HubState.settle at h
  split at h
  · rename_i fault validator hvalidate
    cases h
    obtain ⟨rfl, -⟩ := ReferenceValidator.validate_error hvalidate
    exact ⟨rfl, rfl⟩
  · cases h

end Spec

end Troupe.Core
