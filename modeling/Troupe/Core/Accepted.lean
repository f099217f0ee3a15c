import Troupe.Core.Validate

/-! # Accepted events

The values that pass between the hub and what stands behind it (`hub.rs`): the identity the hub
assigns, the size it reserves, and the accepted event with its canonical JSON bytes. -/

namespace Troupe.Core

/-- `EventIdentity`. -/
structure EventIdentity where
  runId : CanonicalUuid
  sequence : SchemaU64
deriving DecidableEq

/-- The identity an event carries in its header. -/
def DiagnosticEvent.identity (event : DiagnosticEvent) : EventIdentity :=
  ⟨event.header.runId, event.header.sequence⟩

/-- `AdmissionSize`. -/
structure AdmissionSize where
  eventCount : Nat
  canonicalBytes : Nat
deriving DecidableEq

/-- `AdmissionSize::one_event`. -/
def AdmissionSize.oneEvent (canonicalBytes : Nat) : AdmissionSize := ⟨1, canonicalBytes⟩

/-- `AcceptedDiagnosticEvent`. -/
structure AcceptedDiagnosticEvent where
  event : DiagnosticEvent
  canonicalBytes : List UInt8
  builtInSpanKind : Option SpanKind
  subscriberLocal : Bool

namespace AcceptedDiagnosticEvent

/-- `AcceptedDiagnosticEvent::identity`. -/
def identity (accepted : AcceptedDiagnosticEvent) : EventIdentity := accepted.event.identity

/-- `identity().run_id()`. -/
abbrev runId (accepted : AcceptedDiagnosticEvent) : CanonicalUuid := accepted.event.header.runId

/-- `identity().sequence().get()`. -/
abbrev sequence (accepted : AcceptedDiagnosticEvent) : Nat := accepted.event.header.sequence.get

theorem sequence_pos (accepted : AcceptedDiagnosticEvent) : 0 < accepted.sequence :=
  accepted.event.header.sequence_pos

theorem sequence_le (accepted : AcceptedDiagnosticEvent) : accepted.sequence ≤ Lib.u64Max :=
  accepted.event.header.sequence.le_max

end AcceptedDiagnosticEvent

end Troupe.Core
