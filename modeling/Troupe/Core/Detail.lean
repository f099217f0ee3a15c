import Troupe.Core.Kinds
import Troupe.Core.Scalar

/-! # Event payloads

The payload types of `detail.rs`: the details of built-in spans and instants, plan entries, and the
values of custom events with the bounds `validate_custom_name`, `validate_attributes`,
`validate_dimensions` and `validate_unit` put on them. A `BTreeMap` is `Std.ExtTreeMap`: sorted by
key, and equal when it holds the same entries. -/

namespace Troupe.Core

open Std (ExtTreeMap)

/-! ## Built-in details -/

/-- `ProductionPathResolutionDetail`. -/
structure ProductionPathResolutionDetail where
  productionRoot : String
  package : String
deriving DecidableEq

/-- `ProductionLoadDetail`. -/
structure ProductionLoadDetail where
  package : String
deriving DecidableEq

/-- `ProductionConstructDetail`. -/
structure ProductionConstructDetail where
  package : String
  className : String
deriving DecidableEq

/-- `ActorDetail`. -/
structure ActorDetail where
  displayName : String
  actorType : String
deriving DecidableEq

/-- `EffectDetail`. -/
structure EffectDetail where
  effectType : String
deriving DecidableEq

/-- `AgentSessionDetail`. -/
structure AgentSessionDetail where
  provider : String
  effectiveModel : Option String
  effectiveEffort : Option String
deriving DecidableEq

/-- `AgentSessionBrokenDetail`. -/
structure AgentSessionBrokenDetail where
  provider : String
  effectiveModel : Option String
  effectiveEffort : Option String
  errorCode : String
deriving DecidableEq

/-- `AgentTurnTerminalDetail`. -/
structure AgentTurnTerminalDetail where
  errorCode : Option String
deriving DecidableEq

/-- `ToolCallDetail`. -/
structure ToolCallDetail where
  title : String
  toolKind : ToolKind
  status : ToolCallStatus
  errorCode : Option String
deriving DecidableEq

/-- `ResultIssue`. -/
structure ResultIssue where
  code : String
  path : String
deriving DecidableEq

/-- `ResultTransitionDetail`. -/
structure ResultTransitionDetail where
  issue : Option ResultIssue
  errorCode : Option String
deriving DecidableEq

/-- The stage and error code pairs `DiagnosticComponentFailedDetail::new` accepts. -/
def validFailurePair : ComponentFailureStage → ComponentFailureErrorCode → Bool
  | .enqueue, .deliveryQueueUnavailable => true
  | .callback, .callbackRaised => true
  | .callback, .callbackInvalidReturn => true
  | _, _ => false

/-- `DiagnosticComponentFailedDetail`; `new` always sets the component to `Sink`. -/
structure DiagnosticComponentFailedDetail where
  component : DiagnosticComponent
  componentId : RunLocalId
  stage : ComponentFailureStage
  errorCode : ComponentFailureErrorCode
  relatedEventSequence : Option SchemaU64
  /-- "component failure stage and error code do not match" was not raised. -/
  validPair : validFailurePair stage errorCode = true
deriving DecidableEq

/-- `SpanStartDetail`; an `EmptyDetail` is left out of the constructor. -/
inductive SpanStartDetail where
  | runLifecycle
  | productionPathResolution (detail : ProductionPathResolutionDetail)
  | productionLoad (detail : ProductionLoadDetail)
  | productionConstruct (detail : ProductionConstructDetail)
  | productionStart
  | productionStop
  | productionShutdown
  | sceneLifecycle
  | sceneDrain
  | sceneCleanup
  | actorHandleLifetime (detail : ActorDetail)
  | cueMailboxWait
  | cueExecution
  | effectLifecycle (detail : EffectDetail)
  | agentSessionOpening (detail : AgentSessionDetail)
  | agentSessionLifecycle (detail : AgentSessionDetail)
  | agentSessionClosing (detail : AgentSessionDetail)
  | actLifecycle (detail : AgentSessionDetail)
  | actCaller
  | agentTurn (detail : AgentSessionDetail)
  | agentThinking
  | toolCall (detail : ToolCallDetail)
deriving DecidableEq

/-- `SpanStartDetail::kind`. -/
def SpanStartDetail.kind : SpanStartDetail → SpanKind
  | .runLifecycle => .runLifecycle
  | .productionPathResolution _ => .productionPathResolution
  | .productionLoad _ => .productionLoad
  | .productionConstruct _ => .productionConstruct
  | .productionStart => .productionStart
  | .productionStop => .productionStop
  | .productionShutdown => .productionShutdown
  | .sceneLifecycle => .sceneLifecycle
  | .sceneDrain => .sceneDrain
  | .sceneCleanup => .sceneCleanup
  | .actorHandleLifetime _ => .actorHandleLifetime
  | .cueMailboxWait => .cueMailboxWait
  | .cueExecution => .cueExecution
  | .effectLifecycle _ => .effectLifecycle
  | .agentSessionOpening _ => .agentSessionOpening
  | .agentSessionLifecycle _ => .agentSessionLifecycle
  | .agentSessionClosing _ => .agentSessionClosing
  | .actLifecycle _ => .actLifecycle
  | .actCaller => .actCaller
  | .agentTurn _ => .agentTurn
  | .agentThinking => .agentThinking
  | .toolCall _ => .toolCall

/-- `InstantDetail`; an `EmptyDetail` is left out of the constructor. -/
inductive InstantDetail where
  | actorCast (detail : ActorDetail)
  | cueAdmitted
  | cueEnqueued
  | cueDispatched
  | cueCancelRequested
  | effectCreated (detail : EffectDetail)
  | effectReturned (detail : EffectDetail)
  | effectConsumed (detail : EffectDetail)
  | agentSessionReady (detail : AgentSessionDetail)
  | agentSessionBroken (detail : AgentSessionBrokenDetail)
  | actAdmitted
  | actWaitingReady
  | actPromptSubmitted
  | actCancelRequested
  | actSupervisorHandoff
  | agentTurnActivity
  | agentTurnTerminal (detail : AgentTurnTerminalDetail)
  | agentTurnSettled (detail : AgentTurnTerminalDetail)
  | toolUpdated (detail : ToolCallDetail)
  | resultSubmitted (detail : ResultTransitionDetail)
  | resultRejected (detail : ResultTransitionDetail)
  | resultRepairRequested (detail : ResultTransitionDetail)
  | resultAccepted (detail : ResultTransitionDetail)
  | resultMissing (detail : ResultTransitionDetail)
  | diagnosticComponentFailed (detail : DiagnosticComponentFailedDetail)
deriving DecidableEq

/-- `InstantDetail::kind`. -/
def InstantDetail.kind : InstantDetail → InstantKind
  | .actorCast _ => .actorCast
  | .cueAdmitted => .cueAdmitted
  | .cueEnqueued => .cueEnqueued
  | .cueDispatched => .cueDispatched
  | .cueCancelRequested => .cueCancelRequested
  | .effectCreated _ => .effectCreated
  | .effectReturned _ => .effectReturned
  | .effectConsumed _ => .effectConsumed
  | .agentSessionReady _ => .agentSessionReady
  | .agentSessionBroken _ => .agentSessionBroken
  | .actAdmitted => .actAdmitted
  | .actWaitingReady => .actWaitingReady
  | .actPromptSubmitted => .actPromptSubmitted
  | .actCancelRequested => .actCancelRequested
  | .actSupervisorHandoff => .actSupervisorHandoff
  | .agentTurnActivity => .agentTurnActivity
  | .agentTurnTerminal _ => .agentTurnTerminal
  | .agentTurnSettled _ => .agentTurnSettled
  | .toolUpdated _ => .toolUpdated
  | .resultSubmitted _ => .resultSubmitted
  | .resultRejected _ => .resultRejected
  | .resultRepairRequested _ => .resultRepairRequested
  | .resultAccepted _ => .resultAccepted
  | .resultMissing _ => .resultMissing
  | .diagnosticComponentFailed _ => .diagnosticComponentFailed

/-- `PlanEntry`. -/
structure PlanEntry where
  content : String
  priority : PlanEntryPriority
  status : PlanEntryStatus
deriving DecidableEq

/-! ## Custom values -/

/-- `DiagnosticScalar`. -/
inductive DiagnosticScalar where
  | null
  | boolean (value : Bool)
  | integer (value : CanonicalInteger)
  | decimal (value : DecimalString)
  | string (value : String)
deriving DecidableEq

/-- `DiagnosticAttributeValue`. -/
inductive DiagnosticAttributeValue where
  | null
  | boolean (value : Bool)
  | integer (value : CanonicalInteger)
  | decimal (value : DecimalString)
  | string (value : String)
  | list (values : List DiagnosticScalar)
deriving DecidableEq

/-- `DiagnosticDimension`. -/
inductive DiagnosticDimension where
  | boolean (value : Bool)
  | integer (value : CanonicalInteger)
  | decimal (value : DecimalString)
  | string (value : String)
deriving DecidableEq

/-- `CustomNumber`. -/
inductive CustomNumber where
  | integer (value : CanonicalInteger)
  | decimal (value : DecimalString)
deriving DecidableEq

/-- `DiagnosticAttributes`. -/
abbrev DiagnosticAttributes := ExtTreeMap String DiagnosticAttributeValue

/-- `DiagnosticDimensions`. -/
abbrev DiagnosticDimensions := ExtTreeMap String DiagnosticDimension

/-! ## Bounds on custom values -/

/-- `MAX_CUSTOM_NAME_BYTES`. -/
def maxCustomNameBytes : Nat := 128
/-- `MAX_CUSTOM_KEY_BYTES`. -/
def maxCustomKeyBytes : Nat := 64
/-- `MAX_CUSTOM_UNIT_BYTES`. -/
def maxCustomUnitBytes : Nat := 32
/-- `MAX_CUSTOM_ATTRIBUTES`. -/
def maxCustomAttributes : Nat := 32
/-- `MAX_CUSTOM_DIMENSIONS`. -/
def maxCustomDimensions : Nat := 8
/-- `MAX_CUSTOM_LIST_ITEMS`. -/
def maxCustomListItems : Nat := 64

/-- `DetailValidationError`. -/
structure DetailValidationError where
  message : String
deriving DecidableEq

/-- `valid_identifier_segment`. -/
def validIdentifierSegment : List Char → Bool
  | [] => false
  | first :: rest => first.isLower && rest.all fun c => c.isLower || c.isDigit || c == '_'

/-- `validate_custom_name`: two or more dotted segments, the first of them not `troupe`. -/
def validateCustomName (value : String) : Except DetailValidationError Unit :=
  if value.isEmpty || maxCustomNameBytes < value.utf8ByteSize || !isAscii value then
    .error ⟨"custom name is out of bounds"⟩
  else
    match value.toList.splitOn '.' with
    | [] => .error ⟨"custom name is invalid"⟩
    | first :: segments =>
      if !validIdentifierSegment first || first == "troupe".toList then
        .error ⟨"custom name is invalid or reserved"⟩
      else if !segments.all validIdentifierSegment then
        .error ⟨"custom name is invalid"⟩
      else if 1 + segments.length < 2 then
        .error ⟨"custom name requires at least two segments"⟩
      else
        .ok ()

/-- `validate_key`. -/
def validateKey (value : String) : Except DetailValidationError Unit :=
  if value.isEmpty || maxCustomKeyBytes < value.utf8ByteSize then
    .error ⟨"custom key is out of bounds"⟩
  else
    .ok ()

/-- The check `validate_attributes` makes on one entry. -/
def validateAttribute (key : String) (value : DiagnosticAttributeValue) :
    Except DetailValidationError Unit := do
  validateKey key
  match value with
  | .list items =>
    if maxCustomListItems < items.length then
      .error ⟨"custom scalar list is too long"⟩
    else
      .ok ()
  | _ => .ok ()

/-- `validate_attributes`. -/
def validateAttributes (values : DiagnosticAttributes) : Except DetailValidationError Unit :=
  if maxCustomAttributes < values.size then
    .error ⟨"too many custom attributes"⟩
  else
    values.toList.forM fun (key, value) => validateAttribute key value

/-- `validate_dimensions`. -/
def validateDimensions (values : DiagnosticDimensions) : Except DetailValidationError Unit :=
  if maxCustomDimensions < values.size then
    .error ⟨"too many custom dimensions"⟩
  else
    values.keys.forM validateKey

/-- `validate_unit`. -/
def validateUnit : Option String → Except DetailValidationError Unit
  | none => .ok ()
  | some unit =>
    if unit.isEmpty || maxCustomUnitBytes < unit.utf8ByteSize then
      .error ⟨"custom counter unit is out of bounds"⟩
    else
      .ok ()

end Troupe.Core
