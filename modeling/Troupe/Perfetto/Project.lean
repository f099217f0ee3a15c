import Troupe.Perfetto.Packets

/-! # The projection pass

`project.rs` of the Perfetto exporter: the pass that makes the packets of each event, with the
tracks and flows the collection pass fixed.

* The functions of the kinds give what they call `event_packet` with, a `PacketDraft`; the packets
  are made of the drafts in order, and the first failing one ends the call.
* `usage_totals` and `coverage` are maps with an entry for what was seen; here they are functions,
  zero elsewhere. A count is at most the number of events, which fits in 64 bits. -/

namespace Troupe.Perfetto

open Troupe.Lib Troupe.Core

/-! ## Drafts -/

/-- The arguments of `event_packet`. -/
structure PacketDraft where
  trackIdentity : String
  eventType : TrackEventType
  name : Option String
  counter : Option ExactCounterValue
  annotations : List DebugAnnotation

/-- `instant_packet`. -/
def instantDraft (trackIdentity name : String) (annotations : List DebugAnnotation) : PacketDraft :=
  ⟨trackIdentity, .instant, some name, none, annotations⟩

/-- `numeric_packet`. -/
def numericDraft (trackIdentity fallbackTrackIdentity name canonicalDecimal : String)
    (annotations : List DebugAnnotation) : PacketDraft :=
  match exactCounterValue canonicalDecimal with
  | some value => ⟨trackIdentity, .counter, some name, some value, annotations⟩
  | none =>
    ⟨fallbackTrackIdentity, .instant, some name, none,
      annotations ++ [ stringAnnotation "troupe.counter.value_decimal" canonicalDecimal,
        stringAnnotation "troupe.counter_projection" "not_exact"]⟩

/-- The packet of a descriptor. -/
def descriptorPacket (descriptor : TrackDescriptorInfo) : TracePacket where
  timestamp := none
  trustedPacketSequenceId := some trackEventPacketSequenceId
  data := some (.trackDescriptor
    ⟨some descriptor.uuid, some descriptor.name, descriptor.parentUuid, descriptor.isCounter⟩)
  timestampClockId := none

namespace ProjectionPlan

/-- `descriptor_packets`; `none` when an `expect` of `descriptors` fails. -/
def descriptorPackets (plan : ProjectionPlan) : Option (List TracePacket) :=
  plan.tracks.descriptors.map (List.map descriptorPacket)

/-- `capture_boundary_packet`. -/
def captureBoundaryPacket (plan : ProjectionPlan) (timestamp : Nat) :
    Except ProjectionError TracePacket := do
  let trackUuid ← plan.tracks.ids.id rootTrackIdentity
  .ok {
    timestamp := some timestamp
    trustedPacketSequenceId := some trackEventPacketSequenceId
    data := some (.trackEvent {
      debugAnnotations :=
        [ stringAnnotation "troupe.event.kind" "instant",
         uintAnnotation "troupe.event.sequence" plan.metadata.exportedThrough.get,
         stringAnnotation "troupe.scope.identity" rootTrackIdentity,
         stringAnnotation "troupe.track.identity" rootTrackIdentity]
      type := some .instant
      trackUuid := some trackUuid
      name := some "troupe.capture_boundary"
      counterValue := none
      flowIds := []
      terminatingFlowIds := [] })
    timestampClockId := some traceFileClock }

/-- `event_packet`. -/
def eventPacket (plan : ProjectionPlan) (header : DiagnosticEventHeader) (draft : PacketDraft) :
    Except ProjectionError TracePacket := do
  let trackUuid ← plan.tracks.ids.id draft.trackIdentity
  .ok {
    timestamp := some header.elapsedNs.get
    trustedPacketSequenceId := some trackEventPacketSequenceId
    data := some (.trackEvent {
      debugAnnotations :=
        [ stringAnnotation "troupe.event.kind" (eventTypeName draft.eventType),
         uintAnnotation "troupe.event.sequence" header.sequence.get,
         stringAnnotation "troupe.scope.identity" (scopeTrackIdentity header.scope),
         stringAnnotation "troupe.track.identity" draft.trackIdentity] ++ draft.annotations
      type := some draft.eventType
      trackUuid := some trackUuid
      name := draft.name
      counterValue := draft.counter
      flowIds := []
      terminatingFlowIds := [] })
    timestampClockId := some traceFileClock }

/-- `span_track`. -/
def spanTrack (plan : ProjectionPlan) (spanId : SchemaU64) : Except ProjectionError String :=
  match plan.spanTracks.lookup spanId with
  | some track => .ok track
  | none => .error (.missingSpan spanId.get)

/-- `containing_or_scope_track`. -/
def containingOrScopeTrack (plan : ProjectionPlan) (scope : DiagnosticScope) :
    Option SchemaU64 → Except ProjectionError String
  | none => .ok (scopeTrackIdentity scope)
  | some spanId => plan.spanTrack spanId

/-- The annotations of the flows of a packet. -/
def flowAnnotations (label : String) (flows : List FlowAttachment) : List DebugAnnotation :=
  flows.zipIdx.map fun (flow, index) =>
    stringAnnotation (label ++ toString index) flow.canonicalIdentity

/-- `attach_flows`. -/
def attachFlows (plan : ProjectionPlan) (sequence : SchemaU64) (packet : TracePacket) :
    Except ProjectionError TracePacket :=
  match packet.data with
  | some (.trackEvent event) =>
    let starting := plan.startingFlows sequence
    let terminating := plan.terminatingFlows sequence
    .ok { packet with
      data := some (.trackEvent { event with
        debugAnnotations := event.debugAnnotations ++
          flowAnnotations "troupe.flow.start." starting ++
          flowAnnotations "troupe.flow.end." terminating
        flowIds := event.flowIds ++ starting.map FlowAttachment.id
        terminatingFlowIds := event.terminatingFlowIds ++ terminating.map FlowAttachment.id }) }
  | _ => .error (.unknownIdentity "flow packet is not a TrackEvent")

end ProjectionPlan

/-! ## The projector -/

/-- `PacketProjector`, of a plan. -/
structure PacketProjector where
  nextSequence : Nat
  usageTotals : UsageField → String
  coverage : String → Nat

/-- `packet_projector`. -/
def PacketProjector.new : PacketProjector := ⟨1, fun _ => "0", fun _ => 0⟩

/-- What is left of `add_nonnegative_decimal` when one number is used up; the lowest digit first. -/
def addCarry : Nat → List Char → List Char
  | carry, [] => if carry = 0 then [] else [Char.ofNat ('0'.toNat + carry)]
  | carry, digit :: rest =>
    let sum := digit.toNat - '0'.toNat + carry
    Char.ofNat ('0'.toNat + sum % 10) :: addCarry (sum / 10) rest

/-- The loop of `add_nonnegative_decimal`. -/
def addDigits : Nat → List Char → List Char → List Char
  | carry, [], right => addCarry carry right
  | carry, left, [] => addCarry carry left
  | carry, a :: left, b :: right =>
    let sum := (a.toNat - '0'.toNat) + (b.toNat - '0'.toNat) + carry
    Char.ofNat ('0'.toNat + sum % 10) :: addDigits (sum / 10) left right

/-- `add_nonnegative_decimal`. -/
def addNonnegativeDecimal (total amount : String) : String :=
  String.ofList (addDigits 0 total.toList.reverse amount.toList.reverse).reverse

/-- `increment`. -/
def increment (counts : String → Nat) (key : String) : String → Nat :=
  Function.update counts key (counts key + 1)

/-- `builtin_span_start`. -/
def builtinSpanStart (plan : ProjectionPlan) (value : SpanStarted) :
    Except ProjectionError (List PacketDraft) := do
  let track ← plan.spanTrack value.header.sequence
  let usage :=
    if value.detail.kind = .actLifecycle then
      (plan.actUsage.lookup (scopeTrackIdentity value.header.scope)).toList.flatMap usageAnnotations
    else []
  .ok [⟨track, .sliceBegin, some value.detail.kind.asStr, none,
    [ uintAnnotation "troupe.span.id" value.header.sequence.get,
     stringAnnotation "troupe.span.kind" value.detail.kind.asStr] ++
      (value.parentSpanId.toList.map fun parent =>
        uintAnnotation "troupe.span.parent_id" parent.get) ++
      spanDetailAnnotations value.detail ++ usage⟩]

/-- `builtin_span_finish`. -/
def builtinSpanFinish (plan : ProjectionPlan) (value : SpanFinished) :
    Except ProjectionError (List PacketDraft) := do
  let track ← plan.spanTrack value.spanId
  .ok [⟨track, .sliceEnd, none, none,
    [ uintAnnotation "troupe.span.id" value.spanId.get,
     stringAnnotation "troupe.span.outcome" value.outcome.asStr] ++
      optionalStringAnnotation "troupe.error.code" value.errorCode⟩]

/-- `builtin_instant`. -/
def builtinInstant (plan : ProjectionPlan) (value : InstantOccurred) :
    Except ProjectionError (List PacketDraft) := do
  let track ← plan.containingOrScopeTrack value.header.scope value.containingSpanId
  .ok [instantDraft track value.detail.kind.asStr (instantDetailAnnotations value.detail)]

/-- The start of a custom span. -/
def customSpanStart (plan : ProjectionPlan) (value : CustomSpanStarted) :
    Except ProjectionError (List PacketDraft) := do
  let track ← plan.spanTrack value.header.sequence
  .ok [⟨track, .sliceBegin, some value.name, none,
    attributeAnnotations value.attributes ++
      (value.parentSpanId.toList.map fun parent =>
        uintAnnotation "troupe.span.parent_id" parent.get) ++
      [ uintAnnotation "troupe.span.id" value.header.sequence.get]⟩]

/-- The finish of a custom span. -/
def customSpanFinish (plan : ProjectionPlan) (value : CustomSpanFinished) :
    Except ProjectionError (List PacketDraft) := do
  let track ← plan.spanTrack value.spanId
  .ok [⟨track, .sliceEnd, none, none,
    [ uintAnnotation "troupe.span.id" value.spanId.get,
     stringAnnotation "troupe.span.outcome" value.outcome.asStr]⟩]

/-- A custom instant. -/
def customInstant (plan : ProjectionPlan) (value : CustomInstantOccurred) :
    Except ProjectionError (List PacketDraft) := do
  let track ← plan.containingOrScopeTrack value.header.scope value.containingSpanId
  .ok [instantDraft track value.name
    (attributeAnnotations value.attributes ++
      optionalStringAnnotation "troupe.custom.severity" (value.severity.map CustomSeverity.asStr))]

/-- A counter of the scope of an event. -/
def scopeCounter (scope : DiagnosticScope) (series name value : String)
    (annotations : List DebugAnnotation) : PacketDraft :=
  let scopeTrack := scopeTrackIdentity scope
  numericDraft (counterTrackIdentity scopeTrack series) scopeTrack name value annotations

/-- A counter of the whole run. -/
def rootCounter (series name value : String) : PacketDraft :=
  numericDraft (counterTrackIdentity rootTrackIdentity series) rootTrackIdentity name value []

/-- The text of a custom number. -/
def numberText : CustomNumber → String
  | .integer value => value.value
  | .decimal value => value.value

/-- A sample of a custom counter. -/
def customCounter (value : CustomCounterSampled) : List PacketDraft :=
  [scopeCounter value.header.scope
    (customCounterSeries value.name value.unit value.dimensions) value.name
    (numberText value.value)
    (dimensionAnnotations value.dimensions ++
      optionalStringAnnotation "troupe.counter.unit" value.unit)]

/-- `context_usage`. -/
def contextUsage (value : ContextUsageSampled) : List PacketDraft :=
  let scope := value.header.scope
  instantDraft (scopeTrackIdentity scope) "context.usage"
      ( stringAnnotation "troupe.context.sample_origin" value.sampleOrigin.asStr ::
        value.observedElapsedNs.toList.map fun observed =>
          uintAnnotation "troupe.context.observed_elapsed_ns" observed.get) ::
    (value.contextUsedTokens.toList.map fun used =>
      scopeCounter scope (contextCounterSeries "used_tokens") "context.used_tokens"
        (toString used.get) []) ++
    (value.contextWindowTokens.toList.map fun window =>
      scopeCounter scope (contextCounterSeries "window_tokens") "context.window_tokens"
        (toString window.get) []) ++
    (value.cumulativeCostAmount.toList.flatMap fun amount =>
      value.cumulativeCostCurrency.toList.map fun currency =>
        scopeCounter scope (contextCostSeries currency.value) "context.cumulative_cost" amount.value
          [ stringAnnotation "troupe.cost.currency" currency.value])

/-- The totals with the values of one act added. -/
def addUsage (totals : UsageField → String) (values : List (UsageField × String)) :
    UsageField → String :=
  values.foldl (fun totals (field, amount) =>
    Function.update totals field (addNonnegativeDecimal (totals field) amount)) totals

/-- The coverage with one act counted. -/
def countCoverage (coverage : String → Nat) (availability : UsageAvailability) : String → Nat :=
  let coverage := increment (increment coverage "finalized") availability.asStr
  if availability ≠ .unavailable then increment coverage "reported" else coverage

/-- `act_usage`. Each field has one value, so the totals can be added before any is shown. -/
def actUsage (projector : PacketProjector) (value : ActTokenUsageFinalized) :
    List PacketDraft × PacketProjector :=
  let summary := UsageSummary.fromEvent value
  let totals := addUsage projector.usageTotals summary.values
  let coverage := countCoverage projector.coverage value.availability
  (instantDraft (scopeTrackIdentity value.header.scope) "act.token_usage"
      (usageAnnotations summary) ::
    (summary.values.map fun (field, _) =>
      rootCounter (usageCounterSeries field.asStr) ("usage.known." ++ field.asStr)
        (totals field)) ++
    (usageCoverageCounters.map fun counter =>
      rootCounter (usageCoverageSeries counter) ("usage.coverage." ++ counter)
        (toString (coverage counter))),
   { projector with usageTotals := totals, coverage := coverage })

namespace PacketProjector

/-- The drafts of the packets of an event, by its kind. -/
def drafts (plan : ProjectionPlan) (projector : PacketProjector) :
    DiagnosticEvent → Except ProjectionError (List PacketDraft × PacketProjector)
  | .spanStarted value => (·, projector) <$> builtinSpanStart plan value
  | .spanFinished value => (·, projector) <$> builtinSpanFinish plan value
  | .instantOccurred value => (·, projector) <$> builtinInstant plan value
  | .counterSampled value =>
    .ok ([scopeCounter value.header.scope (builtinCounterSeries value.counterKind.asStr)
      value.counterKind.asStr (toString value.value.get) []], projector)
  | .agentMessageDelta value =>
    .ok ([instantDraft (scopeTrackIdentity value.header.scope) "agent.message.delta"
      (deltaAnnotations value)], projector)
  | .agentMessageCompleted value =>
    .ok ([instantDraft (scopeTrackIdentity value.header.scope) "agent.message.completed"
      (completedAnnotations value)], projector)
  | .agentPlanSnapshot value =>
    .ok ([instantDraft (scopeTrackIdentity value.header.scope) "agent.plan.snapshot"
      (planAnnotations value)], projector)
  | .contextUsageSampled value => .ok (contextUsage value, projector)
  | .actTokenUsageFinalized value => .ok (actUsage projector value)
  | .observationGap value =>
    .ok ([instantDraft (scopeTrackIdentity value.header.scope) "troupe.observation_gap"
      (gapAnnotations value)], projector)
  | .customSpanStarted value => (·, projector) <$> customSpanStart plan value
  | .customSpanFinished value => (·, projector) <$> customSpanFinish plan value
  | .customInstantOccurred value => (·, projector) <$> customInstant plan value
  | .customCounterSampled value => .ok (customCounter value, projector)

/-- The flows of an event go to its first packet. -/
def attachFirst (plan : ProjectionPlan) (sequence : SchemaU64) :
    List TracePacket → Except (Fault ProjectionError) (List TracePacket)
  | [] =>
    .error (.panicked "every canonical diagnostic event has a structural projection packet")
  | first :: rest => do
    let first ← (plan.attachFlows sequence first).mapError .raised
    .ok (first :: rest)

/-- `project_event`. -/
def projectEvent (plan : ProjectionPlan) (projector : PacketProjector) (event : DiagnosticEvent) :
    Except (Fault ProjectionError) (List TracePacket × PacketProjector) := do
  (ProjectionCollector.checkHeader plan.metadata.runId projector.nextSequence event).mapError
    .raised
  let (drafts, projector) ← (drafts plan projector event).mapError .raised
  let packets ← (drafts.mapM (plan.eventPacket event.header)).mapError .raised
  let packets ← attachFirst plan event.sequence packets
  let next ← (ProjectionCollector.nextAfter projector.nextSequence).mapError .raised
  .ok (packets, { projector with nextSequence := next })

/-- The packets of all events. -/
def projectEvents (plan : ProjectionPlan) : PacketProjector → List DiagnosticEvent →
    Except (Fault ProjectionError) (List TracePacket × PacketProjector)
  | projector, [] => .ok ([], projector)
  | projector, event :: rest => do
    let (packets, projector) ← projectEvent plan projector event
    let (more, projector) ← projectEvents plan projector rest
    .ok (packets ++ more, projector)

/-- `finish`. -/
def finish (plan : ProjectionPlan) (projector : PacketProjector) : Except ProjectionError Unit :=
  let projected := projector.nextSequence - 1
  if projected ≠ plan.eventCount then .error (.projectionIncomplete plan.eventCount projected)
  else .ok ()

end PacketProjector

/-! ## The trace -/

/-- `ProjectedTrace`: its descriptor packets come first. -/
structure ProjectedTrace where
  descriptors : List TracePacket
  events : List TracePacket

/-- `packets`. -/
def ProjectedTrace.packets (trace : ProjectedTrace) : List TracePacket :=
  trace.descriptors ++ trace.events

/-- `ProjectedTrace::from_plan`. -/
def ProjectedTrace.fromPlan (plan : ProjectionPlan) (events : List DiagnosticEvent) :
    Except (Fault ProjectionError) ProjectedTrace := do
  let descriptors ← match plan.descriptorPackets with
    | none => .error (.panicked "finished catalog assigns every descriptor")
    | some descriptors => .ok descriptors
  let (packets, projector) ← PacketProjector.projectEvents plan .new events
  (projector.finish plan).mapError .raised
  .ok ⟨descriptors, packets⟩

/-- `project_prefix_with_limits`. -/
def projectPrefixWithLimits (metadata : ProjectionMetadata) (events : List DiagnosticEvent)
    (limits : ProjectionLimits) : Except (Fault ProjectionError) ProjectedTrace := do
  let plan ← (do
    let collector ← ProjectionCollector.new metadata limits
    let collector ← collector.observeAll events
    collector.finish : Except ProjectionError ProjectionPlan).mapError .raised
  ProjectedTrace.fromPlan plan events

/-- `project_prefix`. -/
def projectPrefix (metadata : ProjectionMetadata) (events : List DiagnosticEvent) :
    Except (Fault ProjectionError) ProjectedTrace :=
  projectPrefixWithLimits metadata events .unlimited

end Troupe.Perfetto
