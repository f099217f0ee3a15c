import Troupe.Web.State.Projection

/-! # Snapshots

The rows of a `SnapshotResponse` (`protocol/http.ts`) and the projections `state/reducer.ts` makes of
them. What the decoder checks of a row and the projections rely on is a field of the row. -/

namespace Troupe.Web.State

open Troupe.Core

/-! ## Rows -/

/-- `ProjectedSpanDefinition`. -/
inductive ProjectedSpanDefinition where
  | builtIn (detail : SpanStartDetail)
  | custom (name : String) (attributes : DiagnosticAttributes)
      (valid : validateNamedAttributes name attributes = .ok ())

/-- `ProjectedSpanCompletion`. -/
structure ProjectedSpanCompletion where
  finishSequence : SchemaU64
  finishedAtNs : ElapsedNs
  outcome : SpanOutcome
  errorCode : Option String
  causedBy : List CausalLink

/-- `ProjectedSpanSnapshot`. -/
structure ProjectedSpanSnapshot where
  runId : CanonicalUuid
  spanId : SchemaU64
  startedAtNs : ElapsedNs
  scope : DiagnosticScope
  parentSpanId : Option SchemaU64
  startedCausedBy : List CausalLink
  definition : ProjectedSpanDefinition
  completion : Option ProjectedSpanCompletion
  /-- "sequence must start at one". -/
  spanId_pos : 0 < spanId.get
  /-- "completion is not after its start". -/
  finish_after : ∀ finish, completion = some finish → spanId.get < finish.finishSequence.get

/-- `ProjectedMessageCompletion`. -/
structure ProjectedMessageCompletion where
  sequence : SchemaU64
  elapsedNs : ElapsedNs
  utf8Bytes : SchemaU64
  unicodeScalarCount : SchemaU64
  truncated : Bool
  causedBy : List CausalLink
  /-- "sequence must start at one". -/
  sequence_pos : 0 < sequence.get

/-- `ProjectedMessageSnapshot`. -/
structure ProjectedMessageSnapshot where
  runId : CanonicalUuid
  messageId : RunLocalId
  scope : DiagnosticScope
  firstSequence : Nat
  latestSequence : Nat
  latestElapsedNs : Nat
  sourceMessageId : Option String
  text : String
  completion : Option ProjectedMessageCompletion
  /-- "completion is not the latest message fact". -/
  completed_latest : ∀ last, completion = some last → last.sequence.get = latestSequence

/-- `ProjectedCounterIdentity`. -/
inductive ProjectedCounterIdentity where
  | builtIn (scope : DiagnosticScope) (counterKind : CounterKind)
  | custom (scope : DiagnosticScope) (name : String) (unit : Option String)
      (dimensions : DiagnosticDimensions)
      (valid : validateCustomCounter name unit dimensions = .ok ())

/-- `ProjectedCounterValue`. -/
inductive ProjectedCounterValue where
  | unsigned (value : SchemaU64)
  | number (value : CustomNumber)

/-- `ProjectedCounterSnapshot`. -/
structure ProjectedCounterSnapshot where
  runId : CanonicalUuid
  identity : ProjectedCounterIdentity
  sequence : SchemaU64
  elapsedNs : ElapsedNs
  value : ProjectedCounterValue
  causedBy : List CausalLink
  /-- "sequence must start at one". -/
  sequence_pos : 0 < sequence.get

/-- `SnapshotTruncation`. -/
inductive SnapshotTruncation where
  | agentMessage (sequence : Nat) (scope : DiagnosticScope) (messageId : RunLocalId)
  | agentPlan (sequence : Nat) (scope : DiagnosticScope)
deriving DecidableEq

/-- `SnapshotResponse`, with the `SnapshotState` in it. -/
structure SnapshotResponse where
  runId : CanonicalUuid
  watermarkSequence : Nat
  throughElapsedNs : Nat
  spans : List ProjectedSpanSnapshot
  messages : List ProjectedMessageSnapshot
  counters : List ProjectedCounterSnapshot
  usage : UsageSnapshot
  gaps : List ObservationGap
  truncations : List SnapshotTruncation
  /-- "materialized fact is outside the captured prefix", of the spans. -/
  spans_within : ∀ row ∈ spans, row.spanId.get ≤ watermarkSequence ∧
    ∀ finish, row.completion = some finish → finish.finishSequence.get ≤ watermarkSequence
  /-- "message is outside the captured prefix". -/
  messages_within : ∀ row ∈ messages, row.latestSequence ≤ watermarkSequence
  /-- "materialized fact is outside the captured prefix", of the counters. -/
  counters_within : ∀ row ∈ counters, row.sequence.get ≤ watermarkSequence
  /-- "context samples are not a unique captured projection". -/
  contexts_within : ∀ event ∈ usage.contexts, event.header.sequence.get ≤ watermarkSequence
  /-- "gap is outside canonical snapshot order". -/
  gaps_within : ∀ gap ∈ gaps, gap.header.sequence.get ≤ watermarkSequence

/-! ## Events of the rows -/

/-- `snapshotSpanStart`. -/
def snapshotSpanStart (row : ProjectedSpanSnapshot) : SpanStartEvent :=
  let header : DiagnosticEventHeader :=
    ⟨row.runId, row.spanId, row.startedAtNs, row.scope, row.startedCausedBy, row.spanId_pos⟩
  match row.definition with
  | .builtIn detail => .builtIn ⟨header, detail, row.parentSpanId⟩
  | .custom name attributes valid => .custom ⟨header, name, row.parentSpanId, attributes, valid⟩

/-- `snapshotSpanFinish`. -/
def snapshotSpanFinish (row : ProjectedSpanSnapshot) : Option SpanFinishEvent :=
  match h : row.completion with
  | none => none
  | some completion =>
    let header : DiagnosticEventHeader :=
      ⟨row.runId, completion.finishSequence, completion.finishedAtNs, row.scope, completion.causedBy,
        Nat.lt_trans row.spanId_pos (row.finish_after completion h)⟩
    match row.definition with
    | .builtIn _ => some (.builtIn ⟨header, row.spanId, completion.outcome, completion.errorCode⟩)
    | .custom .. => some (.custom ⟨header, row.spanId, completion.outcome⟩)

/-- `snapshotMessageCompletion`. -/
def snapshotMessageCompletion (row : ProjectedMessageSnapshot) : Option AgentMessageCompleted :=
  row.completion.map fun completion => {
    header := ⟨row.runId, completion.sequence, completion.elapsedNs, row.scope, completion.causedBy,
      completion.sequence_pos⟩
    messageId := row.messageId
    utf8Bytes := completion.utf8Bytes
    unicodeScalarCount := completion.unicodeScalarCount
    truncated := completion.truncated }

/-- `snapshotCounterEvent`. -/
def snapshotCounterEvent (row : ProjectedCounterSnapshot) : Except RangeError CounterEvent :=
  match row.identity, row.value with
  | .builtIn scope counterKind, .unsigned value =>
    .ok (.builtIn ⟨⟨row.runId, row.sequence, row.elapsedNs, scope, row.causedBy, row.sequence_pos⟩,
      counterKind, value⟩)
  | .builtIn .., .number _ =>
    .error ⟨"decoded built-in counter snapshot has a non-unsigned value"⟩
  | .custom .., .unsigned _ =>
    .error ⟨"decoded custom counter snapshot has an unsigned value"⟩
  | .custom scope name unit dimensions valid, .number value =>
    .ok (.custom ⟨⟨row.runId, row.sequence, row.elapsedNs, scope, row.causedBy, row.sequence_pos⟩,
      name, value, unit, dimensions, valid⟩)

/-! ## Hydration -/

/-- The event of a start. -/
def SpanStartEvent.event : SpanStartEvent → DiagnosticEvent
  | builtIn event => .spanStarted event
  | custom event => .customSpanStarted event

/-- The event of a finish. -/
def SpanFinishEvent.event : SpanFinishEvent → DiagnosticEvent
  | builtIn event => .spanFinished event
  | custom event => .customSpanFinished event

/-- The span `hydrateSnapshotSpans` makes of a row. -/
def materializedSpan (row : ProjectedSpanSnapshot) : ProjectedSpan where
  spanId := row.spanId.get
  start := some (snapshotSpanStart row)
  finish := snapshotSpanFinish row

/-- The events of a span. -/
def ProjectedSpan.events (span : ProjectedSpan) : List DiagnosticEvent :=
  (span.start.map SpanStartEvent.event).toList ++ (span.finish.map SpanFinishEvent.event).toList

/-- `hydrateSnapshotSpans`. -/
def hydrateSnapshotSpans (projection : LiveProjection) (rows : List ProjectedSpanSnapshot)
    (instantEvents : List DiagnosticEvent) :
    ProjectionBucket ProjectedSpan × ProjectionBucket ProjectedToolFact :=
  let materialized := rows.map materializedSpan
  let spans := materialized.foldl (upsertBounded spanPolicy) projection.spans
  let completeSpanInventory : ProjectionBucket ProjectedSpan :=
    ⟨projection.spans.baseThrough, materialized, none, false, []⟩
  let toolEvents := (materialized.flatMap ProjectedSpan.events ++ instantEvents).mergeSort
    fun left right => left.sequence.get ≤ right.sequence.get
  let tools := toolEvents.foldl (fun tools event => projectTool tools completeSpanInventory event)
    projection.tools
  (spans, tools)

/-- The message `hydrateSnapshotMessages` makes of a row, and whether its text was cut here. -/
def materializedMessage (truncations : List SnapshotTruncation) (row : ProjectedMessageSnapshot) :
    ProjectedMessage × Bool :=
  let trimmed := trimMessageText (codeUnits row.text)
  let completion := snapshotMessageCompletion row
  let resourceTruncated := completion.any fun completion =>
    .agentMessage completion.header.sequence.get row.scope row.messageId ∈ truncations
  let incomplete := trimmed.2 || resourceTruncated
  ({ messageId := row.messageId
     scope := row.scope
     firstSequence := row.firstSequence
     latestSequence := row.latestSequence
     latestElapsedNs := row.latestElapsedNs
     sourceMessageId := row.sourceMessageId
     text := trimmed.1
     textCompleteFromStart := !incomplete
     textTruncatedBefore := incomplete
     completion },
   trimmed.2)

/-- One turn of the loop of `hydrateSnapshotMessages`. -/
def hydrateMessage (truncations : List SnapshotTruncation)
    (messages : ProjectionBucket ProjectedMessage) (row : ProjectedMessageSnapshot) :
    ProjectionBucket ProjectedMessage :=
  let (message, cut) := materializedMessage truncations row
  let updated := upsertBounded messagePolicy messages message
  if message.textTruncatedBefore then
    let marked := markDropped updated
      ((message.completion.map fun completion => completion.header.sequence.get).getD
        row.latestSequence)
    { marked with lost := marked.lost ++ if cut then [row.latestSequence] else [] }
  else updated

/-- `hydrateSnapshotMessages`. -/
def hydrateSnapshotMessages (projection : LiveProjection) (snapshot : SnapshotResponse) :
    ProjectionBucket ProjectedMessage :=
  let ordered := snapshot.messages.mergeSort fun left right =>
    left.latestSequence ≤ right.latestSequence
  ordered.foldl (hydrateMessage snapshot.truncations) projection.messages

/-- Whether an event is an `instant_occurred`. -/
def isInstant : DiagnosticEvent → Bool
  | .instantOccurred _ => true
  | _ => false

/-- One turn of the loop of `hydrateSnapshotProjection` over the counters. -/
def hydrateCounter (counters : ProjectionBucket ProjectedCounter) (row : ProjectedCounterSnapshot) :
    Except RangeError (ProjectionBucket ProjectedCounter) := do
  let event ← snapshotCounterEvent row
  return projectSample counters event

/-- `hydrateSnapshotProjection`. -/
def hydrateSnapshotProjection (snapshot : SnapshotResponse) (suffixEvents : List DiagnosticEvent) :
    Except RangeError LiveProjection := do
  let instantEvents := suffixEvents.filter isInstant
  let projection := createLiveProjection snapshot.watermarkSequence
  let (spans, tools) := hydrateSnapshotSpans projection snapshot.spans instantEvents
  let messages := hydrateSnapshotMessages projection snapshot
  let counterRows := snapshot.counters.mergeSort fun left right =>
    left.sequence.get ≤ right.sequence.get
  let counters ← counterRows.foldlM hydrateCounter projection.counters
  let contexts := snapshot.usage.contexts.mergeSort fun left right =>
    left.header.sequence.get ≤ right.header.sequence.get
  let contextUsage := contexts.foldl projectContextSample projection.contextUsage
  let results := instantEvents.foldl projectResult projection.results
  let hydrated := { projection with spans, tools, messages, counters, contextUsage, results }
  return snapshot.gaps.foldl (fun projection gap => projectEvent projection (.observationGap gap))
    hydrated

end Troupe.Web.State
