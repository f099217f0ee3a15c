import Mathlib.Logic.Function.Basic
import Troupe.Core.Event
import Troupe.Lib.Result

/-! # Finalizing the usage of an act

Model of `diagnostic_runtime/usage_finalization.rs`: the `FinalizationMachine` of one act, and the
`UsageFinalizationRouter`, with the slot that `act_producer.rs` hands over for an act.

* The `HashMap` of the acts is a function; an `Arc` of a destination context is a number, and
  `Arc::ptr_eq` compares numbers. So is the `Arc` of an identity that a slot and its producer share.
* The router's methods are given by what they do under its lock: `bind` and `observe_candidate` go on
  to `drive`, which takes the lock again, and so does `session_terminal` for each act it has marked.
* What the clock, the admission and the producer of the act answer during a `drive` is its
  `DriveEnvironment`; the producer does not wait for the router's lock.
* `drive` gives its calls to others as effects, in their order.

The subscriber of an admission is left out. -/

namespace Troupe.Runtime

open Troupe.Core

/-- `AgentDiagnosticErrorCode`. -/
abbrev AgentDiagnosticErrorCode := String

/-! ## The usage of an act -/

/-- `CANDIDATE_DUPLICATED`. -/
def candidateDuplicated : AgentDiagnosticErrorCode := "usage_finalization_candidate_duplicated"

/-- `CANDIDATE_INVALID`. -/
def candidateInvalid : AgentDiagnosticErrorCode := "usage_finalization_candidate_invalid"

/-- `AgentTurnUsage`. -/
structure AgentTurnUsage where
  availability : UsageAvailability
  source : Option UsageSource
  unavailableReason : Option UsageUnavailableReason
  tokens : UsageTokens
  /-- Built by `AgentTurnUsage::new`. -/
  valid : usageStateIsValid availability source unavailableReason tokens = true

/-- `FinalUsage`. -/
structure FinalUsage where
  availability : UsageAvailability
  source : Option UsageSource
  unavailableReason : Option UsageUnavailableReason
  tokens : UsageTokens
deriving DecidableEq

namespace FinalUsage

/-- `FinalUsage::from_candidate`. -/
def fromCandidate (usage : AgentTurnUsage) : FinalUsage :=
  ⟨usage.availability, usage.source, usage.unavailableReason, usage.tokens⟩

/-- `FinalUsage::unavailable`. -/
def unavailable (reason : UsageUnavailableReason) : FinalUsage :=
  ⟨.unavailable, none, some reason, ⟨none, none, none, none, none, none⟩⟩

/-- `FinalUsage::prompt_not_submitted`. -/
def promptNotSubmitted : FinalUsage := unavailable .promptNotSubmitted

/-- `FinalUsage::turn_settlement_unknown`. -/
def turnSettlementUnknown : FinalUsage := unavailable .turnSettlementUnknown

/-- `FinalUsage::is_authoritative`. -/
def isAuthoritative (usage : FinalUsage) : Bool :=
  match usage.unavailableReason with
  | some .promptNotSubmitted => false
  | some .turnSettlementUnknown => false
  | _ => true

/-- What `ActTokenUsageFinalized::new` checks. -/
def isValid (usage : FinalUsage) : Bool :=
  usageStateIsValid usage.availability usage.source usage.unavailableReason usage.tokens

end FinalUsage

/-! ## The machine of one act -/

/-- `SettlementBoundary`, and `UsageFinalizationSettlement`, which `slot_snapshot` maps to it. -/
inductive SettlementBoundary where
  | notSubmitted
  | authoritative
  | unknown
deriving DecidableEq

/-- `SlotSnapshot`, and the `UsageFinalizationState` that it is taken of. -/
structure SlotSnapshot where
  promptSubmitted : Bool
  settlement : Option SettlementBoundary
deriving DecidableEq

/-- `FinalizationEffects`, on states `σ`. -/
structure FinalizationEffects (σ Ack : Type) where
  admitUsage : FinalUsage → σ → Except AgentDiagnosticErrorCode SchemaU64 × σ
  acknowledge : SchemaU64 → σ → Except AgentDiagnosticErrorCode (Option Ack) × σ

/-- `MachineDrive`. -/
inductive MachineDrive (Ack : Type) where
  | pending
  | admitted
  | finalized (ack : Ack)
  | lateIgnored
  | failed (errorCode : AgentDiagnosticErrorCode) (notify : Bool)

/-- `FinalizationPhase`. -/
inductive FinalizationPhase where
  | pending
  | admitted (sequence : SchemaU64)
  | finalized
  | failed (errorCode : AgentDiagnosticErrorCode)
deriving DecidableEq

/-- `FinalizationMachine`. -/
structure FinalizationMachine where
  candidate : Option FinalUsage
  sessionTerminalObserved : Bool
  phase : FinalizationPhase

namespace FinalizationMachine

/-- `FinalizationMachine::default`. -/
def default : FinalizationMachine := ⟨none, false, .pending⟩

/-- `observe_candidate`. -/
def observeCandidate (machine : FinalizationMachine) (usage : FinalUsage) :
    Except AgentDiagnosticErrorCode Bool × FinalizationMachine :=
  if machine.phase ≠ .pending then (.ok false, machine)
  else if machine.candidate.isSome then (.error candidateDuplicated, machine)
  else if !usage.isAuthoritative then (.error candidateInvalid, machine)
  else (.ok true, { machine with candidate := some usage })

/-- `observe_session_terminal`. -/
def observeSessionTerminal (machine : FinalizationMachine) : FinalizationMachine :=
  if machine.phase = .pending then { machine with sessionTerminalObserved := true } else machine

/-- `record_failure`. -/
def recordFailure (machine : FinalizationMachine) (errorCode : AgentDiagnosticErrorCode) :
    AgentDiagnosticErrorCode × Bool × FinalizationMachine :=
  match machine.phase with
  | .failed existing => (existing, false, machine)
  | _ => (errorCode, true, { machine with phase := .failed errorCode })

/-- `fail`. -/
def fail {Ack : Type} (machine : FinalizationMachine) (errorCode : AgentDiagnosticErrorCode) :
    MachineDrive Ack × FinalizationMachine :=
  let (errorCode, notify, machine) := machine.recordFailure errorCode
  (.failed errorCode notify, machine)

/-- `select_usage`. -/
def selectUsage (machine : FinalizationMachine) (snapshot : SlotSnapshot) : Option FinalUsage :=
  if machine.sessionTerminalObserved && snapshot.promptSubmitted && snapshot.settlement.isNone then
    some .turnSettlementUnknown
  else
    match snapshot.settlement with
    | none => none
    | some .notSubmitted => some .promptNotSubmitted
    | some .unknown => some .turnSettlementUnknown
    | some .authoritative => machine.candidate

variable {σ Ack : Type}

/-- `acknowledge_if_settled`. -/
def acknowledgeIfSettled (machine : FinalizationMachine) (snapshot : SlotSnapshot)
    (sequence : SchemaU64) (effects : FinalizationEffects σ Ack) (state : σ) :
    MachineDrive Ack × FinalizationMachine × σ :=
  if snapshot.settlement.isNone then (.admitted, machine, state)
  else
    match effects.acknowledge sequence state with
    | (.ok (some ack), state) => (.finalized ack, { machine with phase := .finalized }, state)
    | (.ok none, state) => (.admitted, machine, state)
    | (.error errorCode, state) =>
      let (driven, machine) := machine.fail errorCode
      (driven, machine, state)

/-- `drive`. -/
def drive (machine : FinalizationMachine) (snapshot : SlotSnapshot)
    (effects : FinalizationEffects σ Ack) (state : σ) : MachineDrive Ack × FinalizationMachine × σ :=
  match machine.phase with
  | .failed errorCode => (.failed errorCode false, machine, state)
  | .finalized => (.lateIgnored, machine, state)
  | .admitted sequence => machine.acknowledgeIfSettled snapshot sequence effects state
  | .pending =>
    match machine.selectUsage snapshot with
    | none => (.pending, machine, state)
    | some usage =>
      match effects.admitUsage usage state with
      | (.error errorCode, state) =>
        let (driven, machine) := machine.fail errorCode
        (driven, machine, state)
      | (.ok sequence, state) =>
        acknowledgeIfSettled { machine with phase := .admitted sequence } snapshot sequence effects
          state

end FinalizationMachine

/-! ## The slot of an act -/

/-- `UsageFinalizationSlot`: the identity it shares with its producer. -/
structure UsageFinalizationSlot where
  identity : Nat
  actId : String
deriving DecidableEq

/-- `UsageFinalizationAck`. -/
structure UsageFinalizationAck where
  identity : Nat
  actId : String
  usageSequence : SchemaU64
deriving DecidableEq

/-- `UsageFinalizationSlot::acknowledge`, of a slot in the state `snapshot`. -/
def UsageFinalizationSlot.acknowledge (slot : UsageFinalizationSlot) (snapshot : SlotSnapshot)
    (usageSequence : SchemaU64) : Except UsageFinalizationSlot UsageFinalizationAck :=
  if snapshot.settlement.isNone then .error slot
  else .ok ⟨slot.identity, slot.actId, usageSequence⟩

namespace SlotSnapshot

/-- `UsageFinalizationState::default`. -/
def default : SlotSnapshot := ⟨false, none⟩

/-- `mark_prompt_submitted`; nothing changes when it fails. -/
def markPromptSubmitted (state : SlotSnapshot) : SlotSnapshot :=
  if state.promptSubmitted || state.settlement.isSome then state
  else { state with promptSubmitted := true }

/-- `settle`; nothing changes when it fails. -/
def settle (state : SlotSnapshot) (settlement : SettlementBoundary) : SlotSnapshot :=
  if state.settlement.isSome then state
  else
    match state.promptSubmitted, settlement with
    | false, .authoritative => state
    | false, .unknown => state
    | true, .notSubmitted => state
    | _, _ => { state with settlement := some settlement }

end SlotSnapshot

/-! ## The router -/

/-- `ADMISSION_FAILED`. -/
def admissionFailed : AgentDiagnosticErrorCode := "usage_finalization_admission_failed"

/-- `CLOCK_FAILED`. -/
def clockFailed : AgentDiagnosticErrorCode := "usage_finalization_clock_failed"

/-- `SLOT_DUPLICATED`. -/
def slotDuplicated : AgentDiagnosticErrorCode := "usage_finalization_slot_duplicated"

/-- `SLOT_LINEAGE_UNAVAILABLE`. -/
def slotLineageUnavailable : AgentDiagnosticErrorCode :=
  "usage_finalization_slot_lineage_unavailable"

/-- `CONTEXT_MISMATCH`. -/
def contextMismatch : AgentDiagnosticErrorCode := "usage_finalization_context_mismatch"

/-- `SESSION_MISMATCH`. -/
def sessionMismatch : AgentDiagnosticErrorCode := "usage_finalization_session_mismatch"

/-- `SessionKey`. -/
structure SessionKey where
  actorId : String
  sessionId : String
  generation : Nat
deriving DecidableEq

/-- `ActFinalization`. -/
structure ActFinalization where
  slot : Option UsageFinalizationSlot
  context : Option Nat
  session : Option SessionKey
  machine : FinalizationMachine
  scope : DiagnosticScope
  causalSequence : SchemaU64

/-- `RouterState`. -/
structure RouterState where
  acts : String → Option ActFinalization
  invariantError : Option AgentDiagnosticErrorCode

/-- `RouterState::default`. -/
def RouterState.default : RouterState := ⟨fun _ => none, none⟩

/-- `DriveStatus`. -/
inductive DriveStatus where
  | pending
  | admitted
  | finalized
  | lateIgnored
deriving DecidableEq

/-- A terminal usage that is handed to an admission. -/
structure AdmittedUsage where
  elapsedNs : Nat
  scope : DiagnosticScope
  /-- The event that the usage follows from. -/
  causalSequence : SchemaU64
  usage : FinalUsage

/-- A call that `drive` makes. -/
inductive UsageEffect where
  /-- `admit_usage`, for a slot, with its result. -/
  | admission (slot : Option UsageFinalizationSlot) (event : AdmittedUsage)
    (result : Except AgentDiagnosticErrorCode SchemaU64)
  /-- `act_producer::usage_finalized`. -/
  | acknowledged (ack : UsageFinalizationAck)
  /-- `usage_finalization_failed` of the failure owner, for a slot. -/
  | notified (slot : Option UsageFinalizationSlot) (actId : String)
    (errorCode : AgentDiagnosticErrorCode)

/-- What a `drive` meets. -/
structure DriveEnvironment where
  /-- `elapsed_now`. -/
  clock : Option Nat
  /-- The sequence of the event, when it is admitted: by the context of the act's lineage, or by the
  destination's own hub. -/
  admission : Option SchemaU64
  /-- The state of the slot at first. -/
  snapshot : SlotSnapshot
  /-- The state of the slot when it is acknowledged. -/
  acknowledging : SlotSnapshot

/-- `LockedDrive`. -/
inductive LockedDrive where
  | pending
  | admitted
  | finalized (ack : UsageFinalizationAck)
  | lateIgnored
  | failed (errorCode : AgentDiagnosticErrorCode) (notify : Bool)

/-- What `RuntimeEffects` changes: the slot of the entry; and the calls made. -/
structure EffectState where
  slot : Option UsageFinalizationSlot
  calls : List UsageEffect

/-- `RuntimeEffects`. -/
def runtimeEffects (entry : ActFinalization) (env : DriveEnvironment) :
    FinalizationEffects EffectState UsageFinalizationAck where
  admitUsage usage state :=
    match env.clock with
    | none => (.error clockFailed, state)
    | some elapsedNs =>
      let result := match env.admission with
        | none => .error admissionFailed
        | some sequence => .ok sequence
      (result, { state with calls := state.calls ++
        [.admission state.slot ⟨elapsedNs, entry.scope, entry.causalSequence, usage⟩ result] })
  acknowledge sequence state :=
    match state.slot with
    | none => (.error contextMismatch, state)
    | some slot =>
      match slot.acknowledge env.acknowledging sequence with
      | .ok ack => (.ok (some ack), { state with slot := none })
      | .error slot => (.ok none, { state with slot := some slot })

/-- `drive_entry`: its outcome, the entry, and the calls made. -/
def driveEntry (entry : ActFinalization) (env : DriveEnvironment) :
    LockedDrive × ActFinalization × List UsageEffect :=
  match entry.context with
  | none => (.pending, entry, [])
  | some _ =>
    match entry.slot with
    | none =>
      let (errorCode, notify, machine) := entry.machine.recordFailure contextMismatch
      (.failed errorCode notify, { entry with machine }, [])
    | some slot =>
      let (driven, machine, state) :=
        entry.machine.drive env.snapshot (runtimeEffects entry env) ⟨some slot, []⟩
      let entry := { entry with machine, slot := state.slot }
      match driven with
      | .pending => (.pending, entry, state.calls)
      | .admitted => (.admitted, entry, state.calls)
      | .finalized ack => (.finalized ack, entry, state.calls)
      | .lateIgnored => (.lateIgnored, entry, state.calls)
      | .failed errorCode notify => (.failed errorCode notify, entry, state.calls)

namespace RouterState

/-- `state.acts.insert`. -/
def insert (state : RouterState) (actId : String) (entry : ActFinalization) : RouterState :=
  { state with acts := Function.update state.acts actId (some entry) }

/-- `record_invariant_error`. -/
def recordInvariantError (state : RouterState) (error : AgentDiagnosticErrorCode) : RouterState :=
  { state with invariantError := state.invariantError.or (some error) }

/-- `register_slot`, with the scope and the span of the act's lineage. -/
def registerSlot (state : RouterState) (slot : UsageFinalizationSlot)
    (lineage : Option (DiagnosticScope × SchemaU64)) :
    Except AgentDiagnosticErrorCode Unit × RouterState :=
  match lineage with
  | none => (.error slotLineageUnavailable, state.recordInvariantError slotLineageUnavailable)
  | some (actScope, actSpanId) =>
    if actScope.actId.map RunLocalId.value ≠ some slot.actId then
      (.error slotLineageUnavailable, state.recordInvariantError slotLineageUnavailable)
    else if (state.acts slot.actId).isSome then
      (.error slotDuplicated, state.recordInvariantError slotDuplicated)
    else (.ok (), state.insert slot.actId ⟨some slot, none, none, .default, actScope, actSpanId⟩)

/-- `bind` under its lock: a status, or nothing when it goes on to `drive`. -/
def bind (state : RouterState) (actId : String) (context : Nat) (session : Option SessionKey) :
    Except AgentDiagnosticErrorCode (Option DriveStatus) × RouterState :=
  match state.invariantError with
  | some error => (.error error, state)
  | none =>
    match state.acts actId with
    | none => (.ok (some .lateIgnored), state)
    | some entry =>
      if entry.context.any (· ≠ context) then (.error contextMismatch, state)
      else
        let entry := { entry with context := some context }
        match session with
        | none => (.ok none, state.insert actId entry)
        | some session =>
          if entry.session.any (· ≠ session) then
            (.error sessionMismatch, state.insert actId entry)
          else (.ok none, state.insert actId { entry with session := some session })

/-- `observe_candidate` under its lock. -/
def observeCandidate (state : RouterState) (actId : String) (session : SessionKey)
    (usage : AgentTurnUsage) :
    Except AgentDiagnosticErrorCode (Option DriveStatus) × RouterState :=
  match state.acts actId with
  | none => (.ok (some .lateIgnored), state)
  | some entry =>
    if entry.session.any (· ≠ session) then (.error sessionMismatch, state)
    else
      match entry.machine.observeCandidate (.fromCandidate usage) with
      | (.error errorCode, machine) => (.error errorCode, state.insert actId { entry with machine })
      | (.ok false, machine) =>
        (.ok (some .lateIgnored), state.insert actId { entry with machine })
      | (.ok true, machine) =>
        (.ok none, state.insert actId { entry with machine, session := some session })

/-- The part of `session_terminal` under its lock; the session has no key before its generation. -/
def sessionTerminal (state : RouterState) (session : Option SessionKey) : RouterState :=
  match session with
  | none => state
  | some session =>
    { state with acts := fun actId => (state.acts actId).map fun entry =>
        if entry.session = some session then
          { entry with machine := entry.machine.observeSessionTerminal }
        else entry }

/-- What `drive` does with the outcome for an entry that had `slot`. -/
def conclude (state : RouterState) (actId : String) (slot : Option UsageFinalizationSlot) :
    LockedDrive × ActFinalization × List UsageEffect →
    Except AgentDiagnosticErrorCode DriveStatus × RouterState × List UsageEffect
  | (.pending, entry, calls) => (.ok .pending, state.insert actId entry, calls)
  | (.admitted, entry, calls) => (.ok .admitted, state.insert actId entry, calls)
  | (.lateIgnored, entry, calls) => (.ok .lateIgnored, state.insert actId entry, calls)
  | (.finalized ack, _, calls) =>
    (.ok .finalized, { state with acts := Function.update state.acts actId none },
      calls ++ [.acknowledged ack])
  | (.failed errorCode notify, entry, calls) =>
    (.error errorCode, state.insert actId entry,
      if notify then calls ++ [.notified slot actId errorCode] else calls)

/-- `drive`, and `settlement_ready`. -/
def drive (state : RouterState) (actId : String) (env : DriveEnvironment) :
    Except AgentDiagnosticErrorCode DriveStatus × RouterState × List UsageEffect :=
  match state.invariantError with
  | some error => (.error error, state, [])
  | none =>
    match state.acts actId with
    | none => (.ok .lateIgnored, state, [])
    | some entry => state.conclude actId entry.slot (driveEntry entry env)

end RouterState

end Troupe.Runtime
