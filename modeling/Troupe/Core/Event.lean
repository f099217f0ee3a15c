import Troupe.Core.Detail

/-! # Diagnostic events

`DiagnosticEvent` of `event.rs`: fourteen kinds of event over one header. A header's sequence is
positive, and the kinds whose constructor checks its arguments (`new` returning `Result`) carry the
check that succeeded as a field.

`schema_version` is the constant `EVENT_SCHEMA_VERSION` in every header, so it is not stored. -/

namespace Troupe.Core

/-! ## Header -/

/-- `EVENT_SCHEMA_VERSION`. -/
def eventSchemaVersion : Nat := 1

/-- `DiagnosticScope`. -/
structure DiagnosticScope where
  sceneId : Option RunLocalId
  actorId : Option RunLocalId
  cueId : Option RunLocalId
  effectId : Option RunLocalId
  actId : Option RunLocalId
  toolCallId : Option RunLocalId
  sessionGeneration : Option SchemaU64
deriving DecidableEq

/-- The scope of the run itself: every field absent. -/
def DiagnosticScope.run : DiagnosticScope := ⟨none, none, none, none, none, none, none⟩

/-- `CausalLink`. -/
structure CausalLink where
  sourceSequence : SchemaU64
  relation : CausalRelation
deriving DecidableEq

/-- `DiagnosticEventHeader`. -/
structure DiagnosticEventHeader where
  runId : CanonicalUuid
  sequence : SchemaU64
  elapsedNs : ElapsedNs
  scope : DiagnosticScope
  causedBy : List CausalLink
  /-- "diagnostic event sequence must start at one" was not raised. -/
  sequence_pos : 0 < sequence.get
deriving DecidableEq

/-- `EventValidationError`. -/
structure EventValidationError where
  message : String
deriving DecidableEq

/-- `From<DetailValidationError> for EventValidationError`. -/
def EventValidationError.ofDetail (_ : DetailValidationError) : EventValidationError :=
  ⟨"custom diagnostic payload is invalid"⟩

/-- `DiagnosticEventHeader::new`. -/
def DiagnosticEventHeader.new (runId : CanonicalUuid) (sequence : SchemaU64)
    (elapsedNs : ElapsedNs) (scope : DiagnosticScope) (causedBy : List CausalLink) :
    Except EventValidationError DiagnosticEventHeader :=
  if h : 0 < sequence.get then
    .ok ⟨runId, sequence, elapsedNs, scope, causedBy, h⟩
  else
    .error ⟨"diagnostic event sequence must start at one"⟩

/-- A run-scoped header of run 1. -/
def DiagnosticEventHeader.at (sequence : SchemaU64) (elapsedNs : ElapsedNs)
    (causedBy : List CausalLink) (h : 0 < sequence.get) : DiagnosticEventHeader :=
  ⟨⟨1⟩, sequence, elapsedNs, .run, causedBy, h⟩

/-! ## Built-in events -/

/-- `SpanStarted`. -/
structure SpanStarted where
  header : DiagnosticEventHeader
  detail : SpanStartDetail
  parentSpanId : Option SchemaU64
deriving DecidableEq

/-- `SpanFinished`. -/
structure SpanFinished where
  header : DiagnosticEventHeader
  spanId : SchemaU64
  outcome : SpanOutcome
  errorCode : Option String
deriving DecidableEq

/-- `InstantOccurred`. -/
structure InstantOccurred where
  header : DiagnosticEventHeader
  detail : InstantDetail
  containingSpanId : Option SchemaU64
deriving DecidableEq

/-- `CounterSampled`. -/
structure CounterSampled where
  header : DiagnosticEventHeader
  counterKind : CounterKind
  value : SchemaU64
deriving DecidableEq

/-- `AgentMessageDelta`. -/
structure AgentMessageDelta where
  header : DiagnosticEventHeader
  messageId : RunLocalId
  sourceMessageId : Option String
  textDelta : String
deriving DecidableEq

/-- `AgentMessageCompleted`. -/
structure AgentMessageCompleted where
  header : DiagnosticEventHeader
  messageId : RunLocalId
  utf8Bytes : SchemaU64
  unicodeScalarCount : SchemaU64
  truncated : Bool
deriving DecidableEq

/-- `AgentPlanSnapshot`. -/
structure AgentPlanSnapshot where
  header : DiagnosticEventHeader
  entries : List PlanEntry
  truncated : Bool
deriving DecidableEq

/-- The checks of `ContextUsageSampled::new`. -/
def validateContextUsage (contextUsedTokens contextWindowTokens : Option SchemaU64)
    (cumulativeCostAmount : Option DecimalString) (cumulativeCostCurrency : Option CurrencyCode)
    (sampleOrigin : ContextSampleOrigin) (observedElapsedNs : Option ElapsedNs) :
    Except EventValidationError Unit :=
  if cumulativeCostAmount.isSome != cumulativeCostCurrency.isSome then
    .error ⟨"cumulative cost amount and currency must appear together"⟩
  else if cumulativeCostAmount.any fun amount => amount.value.toList.head? == some '-' then
    .error ⟨"cumulative cost amount must be nonnegative"⟩
  else if contextUsedTokens.any fun used => contextWindowTokens.any (·.get < used.get) then
    .error ⟨"context used tokens exceed the context window"⟩
  else if sampleOrigin == .carriedForward && observedElapsedNs.isNone then
    .error ⟨"carried-forward context usage requires its observation time"⟩
  else
    .ok ()

/-- `ContextUsageSampled`. -/
structure ContextUsageSampled where
  header : DiagnosticEventHeader
  contextUsedTokens : Option SchemaU64
  contextWindowTokens : Option SchemaU64
  cumulativeCostAmount : Option DecimalString
  cumulativeCostCurrency : Option CurrencyCode
  sampleOrigin : ContextSampleOrigin
  observedElapsedNs : Option ElapsedNs
  /-- Built by `ContextUsageSampled::new`. -/
  valid : validateContextUsage contextUsedTokens contextWindowTokens cumulativeCostAmount
    cumulativeCostCurrency sampleOrigin observedElapsedNs = .ok ()
deriving DecidableEq

/-- The six token counts a terminal usage report can carry. -/
structure UsageTokens where
  providerTotalTokens : Option TokenCount
  inputTokens : Option TokenCount
  outputTokens : Option TokenCount
  thoughtTokens : Option TokenCount
  cachedReadTokens : Option TokenCount
  cachedWriteTokens : Option TokenCount
deriving DecidableEq

/-- `primary_complete` of `ActTokenUsageFinalized::new`. -/
def UsageTokens.primaryComplete (tokens : UsageTokens) : Bool :=
  tokens.providerTotalTokens.isSome && tokens.inputTokens.isSome && tokens.outputTokens.isSome

/-- `any_value` of `ActTokenUsageFinalized::new`. -/
def UsageTokens.anyValue (tokens : UsageTokens) : Bool :=
  tokens.providerTotalTokens.isSome || tokens.inputTokens.isSome || tokens.outputTokens.isSome ||
    tokens.thoughtTokens.isSome || tokens.cachedReadTokens.isSome || tokens.cachedWriteTokens.isSome

/-- `state_is_valid` of `ActTokenUsageFinalized::new`. -/
def usageStateIsValid (availability : UsageAvailability) (source : Option UsageSource)
    (unavailableReason : Option UsageUnavailableReason) (tokens : UsageTokens) : Bool :=
  match availability with
  | .available =>
    tokens.primaryComplete && source == some .acpPromptResponseUsage && unavailableReason.isNone
  | .partial_ =>
    tokens.anyValue && !tokens.primaryComplete && source == some .acpPromptResponseUsage &&
      unavailableReason.isNone
  | .unavailable => !tokens.anyValue && source.isNone && unavailableReason.isSome

/-- `ActTokenUsageFinalized`. -/
structure ActTokenUsageFinalized where
  header : DiagnosticEventHeader
  availability : UsageAvailability
  source : Option UsageSource
  unavailableReason : Option UsageUnavailableReason
  tokens : UsageTokens
  /-- "terminal usage availability fields are inconsistent" was not raised. -/
  valid : usageStateIsValid availability source unavailableReason tokens = true
deriving DecidableEq

/-- `AffectedElapsedInterval`. -/
structure AffectedElapsedInterval where
  startNs : ElapsedNs
  endNs : ElapsedNs
deriving DecidableEq

/-- `ObservationGap`. -/
structure ObservationGap where
  header : DiagnosticEventHeader
  producer : String
  component : Option String
  reason : String
  droppedCount : Option SchemaU64
  affectedElapsed : Option AffectedElapsedInterval
  affectedKind : Option DiagnosticEventKind
  affectedScope : Option DiagnosticScope
deriving DecidableEq

/-! ## Custom events -/

/-- `CustomSpanStarted::validate_fields` and `CustomInstantOccurred::validate_fields`. -/
def validateNamedAttributes (name : String) (attributes : DiagnosticAttributes) :
    Except DetailValidationError Unit := do
  validateCustomName name
  validateAttributes attributes

/-- `CustomCounterSampled::validate_fields`. -/
def validateCustomCounter (name : String) (unit : Option String)
    (dimensions : DiagnosticDimensions) : Except DetailValidationError Unit := do
  validateCustomName name
  validateUnit unit
  validateDimensions dimensions

/-- `CustomSpanStarted`. -/
structure CustomSpanStarted where
  header : DiagnosticEventHeader
  name : String
  parentSpanId : Option SchemaU64
  attributes : DiagnosticAttributes
  /-- Built by `CustomSpanStarted::new`. -/
  valid : validateNamedAttributes name attributes = .ok ()

/-- `CustomSpanFinished`. -/
structure CustomSpanFinished where
  header : DiagnosticEventHeader
  spanId : SchemaU64
  outcome : SpanOutcome

/-- `CustomInstantOccurred`. -/
structure CustomInstantOccurred where
  header : DiagnosticEventHeader
  name : String
  containingSpanId : Option SchemaU64
  severity : Option CustomSeverity
  attributes : DiagnosticAttributes
  /-- Built by `CustomInstantOccurred::new`. -/
  valid : validateNamedAttributes name attributes = .ok ()

/-- `CustomCounterSampled`. -/
structure CustomCounterSampled where
  header : DiagnosticEventHeader
  name : String
  value : CustomNumber
  unit : Option String
  dimensions : DiagnosticDimensions
  /-- Built by `CustomCounterSampled::new`. -/
  valid : validateCustomCounter name unit dimensions = .ok ()

/-! ## The event type -/

/-- `DiagnosticEvent`. -/
inductive DiagnosticEvent where
  | spanStarted (event : SpanStarted)
  | spanFinished (event : SpanFinished)
  | instantOccurred (event : InstantOccurred)
  | counterSampled (event : CounterSampled)
  | agentMessageDelta (event : AgentMessageDelta)
  | agentMessageCompleted (event : AgentMessageCompleted)
  | agentPlanSnapshot (event : AgentPlanSnapshot)
  | contextUsageSampled (event : ContextUsageSampled)
  | actTokenUsageFinalized (event : ActTokenUsageFinalized)
  | observationGap (event : ObservationGap)
  | customSpanStarted (event : CustomSpanStarted)
  | customSpanFinished (event : CustomSpanFinished)
  | customInstantOccurred (event : CustomInstantOccurred)
  | customCounterSampled (event : CustomCounterSampled)

namespace DiagnosticEvent

/-- `DiagnosticEvent::header`. -/
def header : DiagnosticEvent → DiagnosticEventHeader
  | spanStarted event => event.header
  | spanFinished event => event.header
  | instantOccurred event => event.header
  | counterSampled event => event.header
  | agentMessageDelta event => event.header
  | agentMessageCompleted event => event.header
  | agentPlanSnapshot event => event.header
  | contextUsageSampled event => event.header
  | actTokenUsageFinalized event => event.header
  | observationGap event => event.header
  | customSpanStarted event => event.header
  | customSpanFinished event => event.header
  | customInstantOccurred event => event.header
  | customCounterSampled event => event.header

/-- `header().sequence()`. -/
abbrev sequence (event : DiagnosticEvent) : SchemaU64 := event.header.sequence

/-- `header().elapsed_ns()`. -/
abbrev elapsedNs (event : DiagnosticEvent) : ElapsedNs := event.header.elapsedNs

/-- `header().scope()`. -/
abbrev scope (event : DiagnosticEvent) : DiagnosticScope := event.header.scope

end DiagnosticEvent

end Troupe.Core
