import Troupe.Perfetto.Collect

/-! # Packets

`schema.rs` of the Perfetto exporter, and the annotations `project.rs` puts on a packet. The schema
is the part of Perfetto's that the exporter uses; a field a message may lack is an `Option`. -/

namespace Troupe.Perfetto

open Troupe.Lib Troupe.Core

/-! ## The schema -/

/-- `debug_annotation::Value`, without the double no annotation carries. -/
inductive AnnotationValue where
  | bool (value : Bool)
  | uint (value : Nat)
  | int (value : Int)
  | string (value : String)
deriving DecidableEq

/-- `DebugAnnotation`. -/
structure DebugAnnotation where
  value : Option AnnotationValue
  name : Option String
deriving DecidableEq

/-- `TrackEventType`. -/
inductive TrackEventType where
  | unspecified
  | sliceBegin
  | sliceEnd
  | instant
  | counter
deriving DecidableEq

/-- `event_type_name`. -/
def eventTypeName : TrackEventType → String
  | .unspecified => "unspecified"
  | .sliceBegin => "slice_begin"
  | .sliceEnd => "slice_end"
  | .instant => "instant"
  | .counter => "counter"

/-- `TrackEvent`; `counter_value_field` is an `ExactCounterValue`. -/
structure TrackEvent where
  debugAnnotations : List DebugAnnotation
  type : Option TrackEventType
  trackUuid : Option Nat
  name : Option String
  counterValue : Option ExactCounterValue
  flowIds : List Nat
  terminatingFlowIds : List Nat

/-- `TrackDescriptor`; `counter` says whether there is a `CounterDescriptor`. -/
structure TrackDescriptor where
  uuid : Option Nat
  name : Option String
  parentUuid : Option Nat
  counter : Bool
deriving DecidableEq

/-- `trace_packet::Data`. -/
inductive PacketData where
  | trackEvent (event : TrackEvent)
  | trackDescriptor (descriptor : TrackDescriptor)

/-- `TracePacket`. -/
structure TracePacket where
  timestamp : Option Nat
  trustedPacketSequenceId : Option Nat
  data : Option PacketData
  timestampClockId : Option Nat

/-- `BuiltinClock::TraceFile`. -/
def traceFileClock : Nat := 11

/-- `TRACK_EVENT_PACKET_SEQUENCE_ID`. -/
def trackEventPacketSequenceId : Nat := 1

/-! ## Annotations -/

/-- `string_annotation`. -/
def stringAnnotation (name value : String) : DebugAnnotation := ⟨some (.string value), some name⟩

/-- `uint_annotation`. -/
def uintAnnotation (name : String) (value : Nat) : DebugAnnotation :=
  ⟨some (.uint value), some name⟩

/-- `int_annotation`. -/
def intAnnotation (name : String) (value : Int) : DebugAnnotation := ⟨some (.int value), some name⟩

/-- `bool_annotation`. -/
def boolAnnotation (name : String) (value : Bool) : DebugAnnotation :=
  ⟨some (.bool value), some name⟩

/-- `optional_string_annotation`. -/
def optionalStringAnnotation (name : String) (value : Option String) : List DebugAnnotation :=
  value.toList.map ( stringAnnotation name)

/-- `exact_integer_annotation`. -/
def exactIntegerAnnotation (name value : String) : DebugAnnotation :=
  match parseI64 value with
  | some number => intAnnotation name number
  | none => stringAnnotation name value

/-- `actor_annotations`. -/
def actorAnnotations (detail : ActorDetail) : List DebugAnnotation :=
  [ stringAnnotation "troupe.actor.display_name" detail.displayName,
   stringAnnotation "troupe.actor.type" detail.actorType]

/-- `session_annotations`. -/
def sessionAnnotations (detail : AgentSessionDetail) : List DebugAnnotation :=
  stringAnnotation "troupe.agent.provider" detail.provider ::
    optionalStringAnnotation "troupe.agent.model" detail.effectiveModel ++
    optionalStringAnnotation "troupe.agent.effort" detail.effectiveEffort

/-- `tool_annotations`. -/
def toolAnnotations (detail : ToolCallDetail) : List DebugAnnotation :=
  [ stringAnnotation "troupe.tool.title" detail.title,
   stringAnnotation "troupe.tool.kind" detail.toolKind.asStr,
   stringAnnotation "troupe.tool.status" detail.status.asStr] ++
    optionalStringAnnotation "troupe.error.code" detail.errorCode

/-- `usage_annotations`. -/
def usageAnnotations (usage : UsageSummary) : List DebugAnnotation :=
  stringAnnotation "troupe.usage.availability" usage.availability ::
    optionalStringAnnotation "troupe.usage.source" usage.source ++
    optionalStringAnnotation "troupe.usage.unavailable_reason" usage.unavailableReason ++
    usage.values.map fun (field, value) =>
      stringAnnotation ("troupe.usage." ++ field.asStr) value

/-- The text of a scalar in a list. -/
def scalarText : DiagnosticScalar → String
  | .null => "null"
  | .boolean value => "bool:" ++ (if value then "true" else "false")
  | .integer value => "integer:" ++ value.value
  | .decimal value => "decimal:" ++ value.value
  | .string value => "string:" ++ toString value.utf8ByteSize ++ ":" ++ value

/-- `scalar_list`. -/
def scalarList (values : List DiagnosticScalar) : String :=
  String.intercalate "|" (values.map scalarText)

/-- The annotation of one attribute. -/
def attributeAnnotation (name : String) : DiagnosticAttributeValue → DebugAnnotation
  | .null => stringAnnotation name "null"
  | .boolean value => boolAnnotation name value
  | .integer value => exactIntegerAnnotation name value.value
  | .decimal value => stringAnnotation name value.value
  | .string value => stringAnnotation name value
  | .list values => stringAnnotation name (scalarList values)

/-- `attribute_annotations`. -/
def attributeAnnotations (attributes : DiagnosticAttributes) : List DebugAnnotation :=
  attributes.toList.map fun (key, value) =>
    attributeAnnotation ("troupe.custom.attribute." ++ key) value

/-- The annotation of one dimension. -/
def dimensionAnnotation (name : String) : DiagnosticDimension → DebugAnnotation
  | .boolean value => boolAnnotation name value
  | .integer value => exactIntegerAnnotation name value.value
  | .decimal value => stringAnnotation name value.value
  | .string value => stringAnnotation name value

/-- `dimension_annotations`. -/
def dimensionAnnotations (dimensions : DiagnosticDimensions) : List DebugAnnotation :=
  dimensions.toList.map fun (key, value) =>
    dimensionAnnotation ("troupe.counter.dimension." ++ key) value

/-- `span_detail_annotations`. -/
def spanDetailAnnotations : SpanStartDetail → List DebugAnnotation
  | .productionPathResolution detail =>
    [ stringAnnotation "troupe.production.root" detail.productionRoot,
     stringAnnotation "troupe.production.package" detail.package]
  | .productionLoad detail => [ stringAnnotation "troupe.production.package" detail.package]
  | .productionConstruct detail =>
    [ stringAnnotation "troupe.production.package" detail.package,
     stringAnnotation "troupe.production.class" detail.className]
  | .actorHandleLifetime detail => actorAnnotations detail
  | .effectLifecycle detail => [ stringAnnotation "troupe.effect.type" detail.effectType]
  | .agentSessionOpening detail | .agentSessionLifecycle detail | .agentSessionClosing detail
  | .actLifecycle detail | .agentTurn detail => sessionAnnotations detail
  | .toolCall detail => toolAnnotations detail
  | .runLifecycle | .productionStart | .productionStop | .productionShutdown | .sceneLifecycle
  | .sceneDrain | .sceneCleanup | .cueMailboxWait | .cueExecution | .actCaller
  | .agentThinking => []

/-- The annotations of a result transition. -/
def resultAnnotations (detail : ResultTransitionDetail) : List DebugAnnotation :=
  (detail.issue.toList.flatMap fun issue =>
      [ stringAnnotation "troupe.result.issue.code" issue.code,
       stringAnnotation "troupe.result.issue.path" issue.path]) ++
    optionalStringAnnotation "troupe.error.code" detail.errorCode

/-- `instant_detail_annotations`. -/
def instantDetailAnnotations : InstantDetail → List DebugAnnotation
  | .actorCast detail => actorAnnotations detail
  | .effectCreated detail | .effectReturned detail | .effectConsumed detail =>
    [ stringAnnotation "troupe.effect.type" detail.effectType]
  | .agentSessionReady detail => sessionAnnotations detail
  | .agentSessionBroken detail =>
    [ stringAnnotation "troupe.agent.provider" detail.provider,
     stringAnnotation "troupe.error.code" detail.errorCode] ++
      optionalStringAnnotation "troupe.agent.model" detail.effectiveModel ++
      optionalStringAnnotation "troupe.agent.effort" detail.effectiveEffort
  | .agentTurnTerminal detail | .agentTurnSettled detail =>
    optionalStringAnnotation "troupe.error.code" detail.errorCode
  | .toolUpdated detail => toolAnnotations detail
  | .resultSubmitted detail | .resultRejected detail | .resultRepairRequested detail
  | .resultAccepted detail | .resultMissing detail => resultAnnotations detail
  | .diagnosticComponentFailed detail =>
    [ stringAnnotation "troupe.component.kind" detail.component.asStr,
     stringAnnotation "troupe.component.id" detail.componentId.value,
     stringAnnotation "troupe.component.stage" detail.stage.asStr,
     stringAnnotation "troupe.error.code" detail.errorCode.asStr] ++
      detail.relatedEventSequence.toList.map fun sequence =>
        uintAnnotation "troupe.component.related_event_sequence" sequence.get
  | .cueAdmitted | .cueEnqueued | .cueDispatched | .cueCancelRequested | .actAdmitted
  | .actWaitingReady | .actPromptSubmitted | .actCancelRequested | .actSupervisorHandoff
  | .agentTurnActivity => []

/-- The annotations of a plan: its size, and how many entries have each status. -/
def planAnnotations (plan : AgentPlanSnapshot) : List DebugAnnotation :=
  [ uintAnnotation "troupe.plan.entry_count" plan.entries.length,
   boolAnnotation "troupe.plan.truncated" plan.truncated] ++
    -- the map of the counts is in the order of the names of the statuses
    [PlanEntryStatus.completed, .inProgress, .pending].filterMap fun status =>
      let count := plan.entries.countP fun entry => entry.status = status
      if count = 0 then none
      else some ( uintAnnotation ("troupe.plan.status." ++ status.asStr) count)

/-- The annotations of an observation gap. -/
def gapAnnotations (gap : ObservationGap) : List DebugAnnotation :=
  [ stringAnnotation "troupe.gap.producer" gap.producer,
   stringAnnotation "troupe.gap.reason" gap.reason] ++
    optionalStringAnnotation "troupe.gap.component" gap.component ++
    (gap.droppedCount.toList.map fun count =>
      uintAnnotation "troupe.gap.dropped_count" count.get) ++
    (gap.affectedElapsed.toList.flatMap fun interval =>
      [ uintAnnotation "troupe.gap.affected_start_ns" interval.startNs.get,
       uintAnnotation "troupe.gap.affected_end_ns" interval.endNs.get]) ++
    (gap.affectedKind.toList.map fun kind =>
      stringAnnotation "troupe.gap.affected_kind" kind.asStr) ++
    gap.affectedScope.toList.map fun scope =>
      stringAnnotation "troupe.gap.affected_scope" (scopeTrackIdentity scope)

/-- The annotations of a message fragment. -/
def deltaAnnotations (delta : AgentMessageDelta) : List DebugAnnotation :=
  stringAnnotation "troupe.message.id" delta.messageId.value ::
    optionalStringAnnotation "troupe.message.source_id" delta.sourceMessageId

/-- The annotations of a completed message. -/
def completedAnnotations (completed : AgentMessageCompleted) : List DebugAnnotation :=
  [ stringAnnotation "troupe.message.id" completed.messageId.value,
   uintAnnotation "troupe.message.utf8_bytes" completed.utf8Bytes.get,
   uintAnnotation "troupe.message.unicode_scalar_count" completed.unicodeScalarCount.get,
   boolAnnotation "troupe.message.truncated" completed.truncated]

end Troupe.Perfetto
