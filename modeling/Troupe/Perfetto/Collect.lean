import Troupe.Core.Serialize
import Troupe.Perfetto.Tracks

/-! # The collection pass

`collect.rs` of the Perfetto exporter: the pass over the events that fixes every identity of the
trace before a packet is built. It registers the tracks of each event, keeps the interval of each
span, and collects the causal links as flows.

* `spans`, `flows` and `act_usage` are maps; they are kept in the order of insertion, which for
  `spans` is the order of the keys, and sorted where the code iterates in the order of the keys.
* A collected span has the fields of a `SpanInterval`, which `finish` turns it into.
* `finish` sorts the flows into two maps, by source and by target; here they are one list, in the
  order of the identities, and looked up by source and by target. -/

namespace Troupe.Perfetto

open Troupe.Lib Troupe.Core

/-! ## Metadata -/

/-- `PERFETTO_EXPORTER_SCHEMA_VERSION`. -/
def perfettoExporterSchemaVersion : Nat := 1

/-- `TRACE_CONTENT_WARNING`. -/
def traceContentWarning : String :=
  "trace may contain sensitive diagnostic metadata and user-provided attributes"

/-- `TRACE_METADATA_PREFIX`. -/
def traceMetadataPrefix : String := "Troupe metadata | "

/-- `ProjectionMetadata`. -/
structure ProjectionMetadata where
  runId : CanonicalUuid
  capturedWatermark : SchemaU64
  exportedThrough : SchemaU64
  troupeVersion : String
  productionOutcome : Option String
  cleanShutdown : Option Bool

/-- `root_track_name`. -/
def ProjectionMetadata.rootTrackName (metadata : ProjectionMetadata) : String :=
  "Troupe Production " ++ displayUuid metadata.runId

/-- `metadata_track_name`. -/
def ProjectionMetadata.metadataTrackName (metadata : ProjectionMetadata) : String :=
  let outcome := metadata.productionOutcome.getD "unavailable"
  let cleanShutdown :=
    (metadata.cleanShutdown.map fun value => if value then "true" else "false").getD "unavailable"
  traceMetadataPrefix ++ "exporter_schema=" ++ toString perfettoExporterSchemaVersion ++
    " | event_schema=" ++ toString eventSchemaVersion ++
    " | run_id=" ++ displayUuid metadata.runId ++
    " | captured_watermark=" ++ toString metadata.capturedWatermark.get ++
    " | exported_through=" ++ toString metadata.exportedThrough.get ++
    " | troupe_version=" ++ metadata.troupeVersion ++
    " | outcome=" ++ outcome ++
    " | clean_shutdown=" ++ cleanShutdown ++
    " | content_warning=" ++ traceContentWarning

/-- `ProjectionLimits`. -/
structure ProjectionLimits where
  maxTrackIds : Nat
  maxFlowIds : Nat

/-- `ProjectionLimits::default`. -/
def ProjectionLimits.unlimited : ProjectionLimits := ⟨u64Max, u64Max⟩

/-! ## Usage -/

/-- `UsageField`. -/
inductive UsageField where
  | providerTotal
  | input
  | output
  | thought
  | cachedRead
  | cachedWrite
deriving DecidableEq

/-- `UsageField::ALL`. -/
def UsageField.all : List UsageField :=
  [.providerTotal, .input, .output, .thought, .cachedRead, .cachedWrite]

/-- `UsageField::as_str`. -/
def UsageField.asStr : UsageField → String
  | .providerTotal => "provider_total_tokens"
  | .input => "input_tokens"
  | .output => "output_tokens"
  | .thought => "thought_tokens"
  | .cachedRead => "cached_read_tokens"
  | .cachedWrite => "cached_write_tokens"

/-- `UsageField::value`, and `usage_value`. -/
def UsageField.value (field : UsageField) (usage : ActTokenUsageFinalized) : Option TokenCount :=
  match field with
  | .providerTotal => usage.tokens.providerTotalTokens
  | .input => usage.tokens.inputTokens
  | .output => usage.tokens.outputTokens
  | .thought => usage.tokens.thoughtTokens
  | .cachedRead => usage.tokens.cachedReadTokens
  | .cachedWrite => usage.tokens.cachedWriteTokens

/-- `UsageSummary`; the values are in the order of the fields. -/
structure UsageSummary where
  availability : String
  source : Option String
  unavailableReason : Option String
  values : List (UsageField × String)

/-- `UsageSummary::from_event`. -/
def UsageSummary.fromEvent (usage : ActTokenUsageFinalized) : UsageSummary where
  availability := usage.availability.asStr
  source := usage.source.map UsageSource.asStr
  unavailableReason := usage.unavailableReason.map UsageUnavailableReason.asStr
  values := UsageField.all.filterMap fun field =>
    (field.value usage).map fun value => (field, value.value)

/-! ## Series of counters -/

/-- `USAGE_COVERAGE_COUNTERS`. -/
def usageCoverageCounters : List String :=
  ["finalized", "reported", "available", "partial", "unavailable"]

/-- `builtin_counter_series`. -/
def builtinCounterSeries (kind : String) : String := "builtin:" ++ component kind

/-- `dimension_value`. -/
def dimensionValue : DiagnosticDimension → String
  | .boolean value => "bool:" ++ (if value then "true" else "false")
  | .integer value => "integer:" ++ value.value
  | .decimal value => "decimal:" ++ value.value
  | .string value => "string:" ++ component value

/-- `custom_counter_series`. -/
def customCounterSeries (name : String) (unit : Option String)
    (dimensions : DiagnosticDimensions) : String :=
  let unit := (unit.map component).getD "none"
  let dimensions := String.intercalate "," <| dimensions.toList.map fun (key, value) =>
    component key ++ "=" ++ component (dimensionValue value)
  "custom:" ++ component name ++ "|unit:" ++ unit ++ "|dimensions:" ++ component dimensions

/-- `context_counter_series`, of the two fields it is called with. -/
def contextCounterSeries (field : String) : String := "context:" ++ field

/-- `context_cost_series`. -/
def contextCostSeries (currency : String) : String :=
  "context:cumulative_cost:" ++ component currency

/-- `usage_counter_series`, of a `UsageField`. -/
def usageCounterSeries (field : String) : String := "usage:known:" ++ field

/-- `usage_coverage_series`, of the counters of `USAGE_COVERAGE_COUNTERS`. -/
def usageCoverageSeries (coverage : String) : String := "usage:coverage:" ++ coverage

/-! ## The collector -/

/-- `CollectedFlow`. -/
structure CollectedFlow where
  canonicalIdentity : String
  sourceSequence : SchemaU64
  targetSequence : SchemaU64
deriving DecidableEq

/-- `ProjectionCollector`. -/
structure ProjectionCollector where
  metadata : ProjectionMetadata
  limits : ProjectionLimits
  structuralBudget : StructuralIndexBudget
  validator : ReferenceValidator
  nextSequence : Nat
  tracks : TrackCatalogBuilder
  spans : List SpanInterval
  flows : List CollectedFlow
  actUsage : List (String × UsageSummary)

/-- `i64::MAX`. -/
def i64Max : Nat := 2 ^ 63 - 1

/-- The texts of the ids of a scope. -/
def scopeIds (scope : DiagnosticScope) : List String :=
  ([scope.sceneId, scope.actorId, scope.cueId, scope.effectId, scope.actId,
    scope.toolCallId].filterMap id).map RunLocalId.value

namespace ProjectionCollector

/-- `new_with_structural_limits`. -/
def newWithStructuralLimits (metadata : ProjectionMetadata) (limits : ProjectionLimits)
    (structuralLimits : StructuralIndexLimits) : Except ProjectionError ProjectionCollector :=
  if metadata.capturedWatermark < metadata.exportedThrough then
    .error (.watermarkMismatch metadata.capturedWatermark.get metadata.exportedThrough.get 0)
  else do
    let (tracks, budget) ←
      TrackCatalogBuilder.new metadata.rootTrackName (.new structuralLimits)
    let (tracks, budget) ← tracks.registerMetadata metadata.metadataTrackName budget
    .ok ⟨metadata, limits, budget, .new, 1, tracks, [], [], []⟩

/-- `new`. -/
def new (metadata : ProjectionMetadata) (limits : ProjectionLimits) :
    Except ProjectionError ProjectionCollector :=
  newWithStructuralLimits metadata limits .fixed

/-- What the two kinds of span start do. -/
def startSpan (collector : ProjectionCollector) (parentTrack : String) (sequence : SchemaU64)
    (role displayName : String) : Except ProjectionError ProjectionCollector := do
  let budget ← collector.structuralBudget.reserveOwned 1 [parentTrack, role, displayName]
  .ok { collector with
    structuralBudget := budget
    spans := collector.spans ++ [⟨sequence, none, parentTrack, role, displayName⟩] }

/-- What the two kinds of span finish do. -/
def finishSpan (collector : ProjectionCollector) (spanId sequence : SchemaU64) :
    Except ProjectionError ProjectionCollector :=
  if collector.spans.any fun span => span.startSequence = spanId then
    .ok { collector with
      spans := collector.spans.map fun span =>
        if span.startSequence = spanId then { span with finishSequence := some sequence }
        else span }
  else .error (.missingSpan spanId.get)

/-- Register counters, each given with its parent, series and name. -/
def registerCounters (collector : ProjectionCollector) :
    List (String × String × String) → Except ProjectionError ProjectionCollector
  | [] => .ok collector
  | (parent, series, name) :: rest => do
    let (tracks, budget) ←
      collector.tracks.registerCounter parent series name collector.structuralBudget
    registerCounters { collector with tracks := tracks, structuralBudget := budget } rest

end ProjectionCollector

/-- The counters an event registers, in order, each with its parent, series and name. -/
def eventCounters (event : DiagnosticEvent) (parentTrack : String) :
    List (String × String × String) :=
  match event with
  | .counterSampled counter =>
    [(parentTrack, builtinCounterSeries counter.counterKind.asStr, counter.counterKind.asStr)]
  | .customCounterSampled counter =>
    [(parentTrack, customCounterSeries counter.name counter.unit counter.dimensions, counter.name)]
  | .contextUsageSampled usage =>
    (usage.contextUsedTokens.toList.map fun _ =>
        (parentTrack, contextCounterSeries "used_tokens", "context used tokens")) ++
      (usage.contextWindowTokens.toList.map fun _ =>
        (parentTrack, contextCounterSeries "window_tokens", "context window tokens")) ++
      usage.cumulativeCostCurrency.toList.map fun currency =>
        (parentTrack, contextCostSeries currency.value, "cumulative cost " ++ currency.value)
  | .actTokenUsageFinalized usage =>
    ((UsageField.all.filter fun field => (field.value usage).isSome).map fun field =>
        (rootTrackIdentity, usageCounterSeries field.asStr, "known " ++ field.asStr)) ++
      usageCoverageCounters.map fun coverage =>
        (rootTrackIdentity, usageCoverageSeries coverage, "Act usage " ++ coverage)
  | _ => []

namespace ProjectionCollector

/-- Keep the usage of an act, once. -/
def collectActUsage (collector : ProjectionCollector) (usage : ActTokenUsageFinalized) :
    Except ProjectionError ProjectionCollector :=
  let actIdentity := scopeTrackIdentity usage.header.scope
  if collector.actUsage.any fun entry => entry.1 = actIdentity then
    .error (.duplicateActUsage actIdentity)
  else do
    let budget ← collector.structuralBudget.reserveOwned 1
      (actIdentity :: UsageField.all.filterMap fun field =>
        (field.value usage).map TokenCount.value)
    .ok { collector with
      structuralBudget := budget
      actUsage := collector.actUsage ++ [(actIdentity, .fromEvent usage)] }

/-- `collect_event_tracks`. -/
def collectEventTracks (collector : ProjectionCollector) (event : DiagnosticEvent)
    (parentTrack : String) : Except ProjectionError ProjectionCollector :=
  match event with
  | .spanStarted start =>
    let role := start.detail.kind.asStr
    collector.startSpan parentTrack start.header.sequence role role
  | .customSpanStarted start =>
    collector.startSpan parentTrack start.header.sequence ("custom:" ++ start.name) start.name
  | .spanFinished finish => collector.finishSpan finish.spanId finish.header.sequence
  | .customSpanFinished finish => collector.finishSpan finish.spanId finish.header.sequence
  | .counterSampled _ | .customCounterSampled _ | .contextUsageSampled _ =>
    collector.registerCounters (eventCounters event parentTrack)
  | .actTokenUsageFinalized usage => do
    let collector ← collector.collectActUsage usage
    collector.registerCounters (eventCounters event parentTrack)
  | .instantOccurred _ | .agentMessageDelta _ | .agentMessageCompleted _ | .agentPlanSnapshot _
  | .observationGap _ | .customInstantOccurred _ => .ok collector

end ProjectionCollector

/-- The flow of a causal link. -/
def linkFlow (target : SchemaU64) (link : CausalLink) : CollectedFlow :=
  ⟨link.relation.asStr ++ ":" ++ toString link.sourceSequence.get ++ ":" ++ toString target.get,
    link.sourceSequence, target⟩

namespace ProjectionCollector

/-- The loop of `collect_flows`. -/
def collectLinks (collector : ProjectionCollector) (target : SchemaU64) :
    List CausalLink → Except ProjectionError ProjectionCollector
  | [] => .ok collector
  | link :: rest =>
    let flow := linkFlow target link
    if collector.flows.any fun other => other.canonicalIdentity = flow.canonicalIdentity then
      collector.collectLinks target rest
    else do
      let budget ← collector.structuralBudget.reserveOwned 1
        [flow.canonicalIdentity, flow.canonicalIdentity]
      collectLinks { collector with
        structuralBudget := budget
        flows := collector.flows ++ [flow] } target rest

/-- `collect_flows`. -/
def collectFlows (collector : ProjectionCollector) (event : DiagnosticEvent) :
    Except ProjectionError ProjectionCollector :=
  collector.collectLinks event.sequence event.header.causedBy

/-- The checks `observe` and `project_event` make on the header of an event. -/
def checkHeader (runId : CanonicalUuid) (nextSequence : Nat) (event : DiagnosticEvent) :
    Except ProjectionError Unit :=
  if event.header.runId ≠ runId then .error .runMismatch
  else if event.sequence.get ≠ nextSequence then
    .error (.sequenceMismatch nextSequence event.sequence.get)
  else if i64Max < event.elapsedNs.get then
    .error (.timestampOutOfRange event.sequence.get event.elapsedNs.get)
  else .ok ()

/-- The budget of what the validator keeps of an event. -/
def reserveEvent (budget : StructuralIndexBudget) (event : DiagnosticEvent) :
    Except ProjectionError StructuralIndexBudget :=
  match event with
  | .spanStarted _ | .customSpanStarted _ => budget.reserveOwned 2 (scopeIds event.scope)
  | _ => budget.reserve 1 0

/-- `next_sequence.checked_add(1)`. -/
def nextAfter (sequence : Nat) : Except ProjectionError Nat :=
  match checkedAdd u64Max sequence 1 with
  | none => .error (.sequenceMismatch u64Max u64Max)
  | some next => .ok next

/-- `observe`. -/
def observe (collector : ProjectionCollector) (event : DiagnosticEvent) :
    Except ProjectionError ProjectionCollector := do
  checkHeader collector.metadata.runId collector.nextSequence event
  let budget ← reserveEvent collector.structuralBudget event
  match collector.validator.validate event with
  | (.error fault, _) => .error (.invalidReference fault)
  | (.ok _, validator) => do
    let (parentTrack, tracks, budget) ← collector.tracks.registerScope event.scope budget
    let collector := { collector with
      structuralBudget := budget, validator := validator, tracks := tracks }
    let collector ← collector.collectEventTracks event parentTrack
    let collector ← collector.collectFlows event
    let next ← nextAfter collector.nextSequence
    .ok { collector with nextSequence := next }

/-- The pass over a list of events. -/
def observeAll (collector : ProjectionCollector) (events : List DiagnosticEvent) :
    Except ProjectionError ProjectionCollector :=
  events.foldlM observe collector

end ProjectionCollector

/-! ## The plan -/

/-- `FlowAttachment`. -/
structure FlowAttachment where
  id : Nat
  canonicalIdentity : String
deriving DecidableEq

/-- `ProjectionPlan`. -/
structure ProjectionPlan where
  metadata : ProjectionMetadata
  tracks : TrackCatalog
  spanTracks : List (SchemaU64 × String)
  flows : List (CollectedFlow × FlowAttachment)
  actUsage : List (String × UsageSummary)
  eventCount : Nat
  structuralIndexUsage : StructuralIndexUsage

namespace ProjectionPlan

/-- `starting_flows.get`. -/
def startingFlows (plan : ProjectionPlan) (sequence : SchemaU64) : List FlowAttachment :=
  (plan.flows.filter fun flow => flow.1.sourceSequence = sequence).map Prod.snd

/-- `terminating_flows.get`. -/
def terminatingFlows (plan : ProjectionPlan) (sequence : SchemaU64) : List FlowAttachment :=
  (plan.flows.filter fun flow => flow.1.targetSequence = sequence).map Prod.snd

end ProjectionPlan

/-- The order of `flows`. -/
def flowLe (left right : CollectedFlow) : Bool :=
  decide (left.canonicalIdentity ≤ right.canonicalIdentity)

/-- The loop of `finish` that attaches the flows. -/
def attachFlowIds (ids : DenseIdentityMap) : List CollectedFlow → StructuralIndexBudget →
    Except ProjectionError (List (CollectedFlow × FlowAttachment) × StructuralIndexBudget)
  | [], budget => .ok ([], budget)
  | flow :: rest, budget => do
    let budget ← budget.reserveOwned 1 [flow.canonicalIdentity]
    let budget ← budget.reserveOwned 1 [flow.canonicalIdentity]
    let id ← ids.id flow.canonicalIdentity
    let (attached, budget) ← attachFlowIds ids rest budget
    .ok ((flow, ⟨id, flow.canonicalIdentity⟩) :: attached, budget)

/-- `ProjectionCollector::finish`. -/
def ProjectionCollector.finish (collector : ProjectionCollector) :
    Except ProjectionError ProjectionPlan :=
  let observed := collector.nextSequence - 1
  if observed ≠ collector.metadata.exportedThrough.get then
    .error (.watermarkMismatch collector.metadata.capturedWatermark.get
      collector.metadata.exportedThrough.get observed)
  else do
    let (spanTracks, tracks, budget) ←
      allocateSpanLanes collector.tracks collector.spans collector.structuralBudget
    let (tracks, budget) ← tracks.finish collector.limits.maxTrackIds budget
    let flows := collector.flows.mergeSort flowLe
    let budget ← flows.foldlM (fun (budget : StructuralIndexBudget) flow =>
      budget.reserveOwned 1 [flow.canonicalIdentity]) budget
    let ids ← DenseIdentityMap.assign (flows.map CollectedFlow.canonicalIdentity) .flow
      collector.limits.maxFlowIds
    let (attached, budget) ← attachFlowIds ids flows budget
    .ok ⟨collector.metadata, tracks, spanTracks, attached, collector.actUsage, observed,
      budget.usage⟩

end Troupe.Perfetto
