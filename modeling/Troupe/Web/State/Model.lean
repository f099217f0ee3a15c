import Troupe.Core.WireEvent
import Troupe.Web.State.Lru

/-! # The browser's diagnostic state

`state/model.ts`, with the types of `protocol/http.ts` the reducer reads.

* A `U64String` is the number it writes; `compareU64` is the order of the numbers.
* An event is the `DiagnosticEvent` of the log, as the decoder of the page reads it.
* A text the reducer cuts is the list of its UTF-16 code units, as `length`, `charCodeAt` and `slice`
  see it.
* `scopeKey` and the other keys made by `JSON.stringify` of distinct shapes are the data they write.
* `ProjectionBucket.lost` is kept for the statements, and no function reads it: for each item the
  bucket evicted or shortened, the sequence of the event that had changed it last. -/

namespace Troupe.Web.State

open Troupe.Core

/-! ## Capacities -/

/-- `ADJACENT_WINDOW_CAPACITY`. -/
def adjacentWindowCapacity : Nat := 4
/-- `VISIBLE_WINDOW_EVENT_CAPACITY`. -/
def visibleWindowEventCapacity : Nat := 4096
/-- `LIVE_EDGE_EVENT_CAPACITY`. -/
def liveEdgeEventCapacity : Nat := visibleWindowEventCapacity
/-- `SPAN_CAPACITY`. -/
def spanCapacity : Nat := 256
/-- `MESSAGE_CAPACITY`. -/
def messageCapacity : Nat := 128
/-- `MESSAGE_TEXT_CODE_UNIT_CAPACITY`. -/
def messageTextCodeUnitCapacity : Nat := 1048576
/-- `COUNTER_SERIES_CAPACITY`. -/
def counterSeriesCapacity : Nat := 256
/-- `CONTEXT_USAGE_CAPACITY`. -/
def contextUsageCapacity : Nat := 128
/-- `ACT_USAGE_CAPACITY`. -/
def actUsageCapacity : Nat := 256
/-- `TOOL_FACT_CAPACITY`. -/
def toolFactCapacity : Nat := 256
/-- `RESULT_FACT_CAPACITY`. -/
def resultFactCapacity : Nat := 256
/-- `GAP_CAPACITY`. -/
def gapCapacity : Nat := 128
/-- `QUERY_RESULT_CAPACITY`. -/
def queryResultCapacity : Nat := 64
/-- `EXPANDED_ITEM_CAPACITY`. -/
def expandedItemCapacity : Nat := 128
/-- `USAGE_SCOPE_AGGREGATE_CAPACITY`. -/
def usageScopeAggregateCapacity : Nat := 256

/-- The `RangeError` a function throws. -/
structure RangeError where
  message : String
deriving DecidableEq

/-! ## Delivery and windows -/

/-- `SequenceCursor`. -/
structure SequenceCursor where
  deliveredThrough : Nat
  committedWatermark : Nat
deriving DecidableEq

/-- `DeliveryIssue`. -/
inductive DeliveryIssue where
  | crossRun (expectedRunId receivedRunId : CanonicalUuid) (receivedSequence : Nat)
  | nonContiguous (expectedSequence receivedSequence : Nat)
deriving DecidableEq

/-- `EventWindow`. -/
structure EventWindow where
  id : String
  runId : CanonicalUuid
  startNs : Nat
  endNs : Nat
  capturedThrough : Nat
  events : List DiagnosticEvent

/-- `WindowState`. -/
structure WindowState where
  visible : Option EventWindow
  adjacent : FixedLru String EventWindow

/-- The windows the page holds. -/
def WindowState.Holds (windows : WindowState) (window : EventWindow) : Prop :=
  windows.visible = some window ∨ ∃ id, windows.adjacent.entries.lookup id = some window

/-! ## Projections -/

/-- `SpanStartEvent`. -/
inductive SpanStartEvent where
  | builtIn (event : SpanStarted)
  | custom (event : CustomSpanStarted)

/-- The header of a start. -/
def SpanStartEvent.header : SpanStartEvent → DiagnosticEventHeader
  | builtIn event => event.header
  | custom event => event.header

/-- `SpanFinishEvent`. -/
inductive SpanFinishEvent where
  | builtIn (event : SpanFinished)
  | custom (event : CustomSpanFinished)

/-- The header of a finish. -/
def SpanFinishEvent.header : SpanFinishEvent → DiagnosticEventHeader
  | builtIn event => event.header
  | custom event => event.header

/-- `ProjectedSpan`. -/
structure ProjectedSpan where
  spanId : Nat
  start : Option SpanStartEvent
  finish : Option SpanFinishEvent

/-- `ProjectedMessage`. -/
structure ProjectedMessage where
  messageId : RunLocalId
  scope : DiagnosticScope
  firstSequence : Nat
  latestSequence : Nat
  latestElapsedNs : Nat
  sourceMessageId : Option String
  text : List UInt16
  textCompleteFromStart : Bool
  textTruncatedBefore : Bool
  completion : Option AgentMessageCompleted

/-- The events of `ProjectedCounter`. -/
inductive CounterEvent where
  | builtIn (event : CounterSampled)
  | custom (event : CustomCounterSampled)

/-- The header of a sample. -/
def CounterEvent.header : CounterEvent → DiagnosticEventHeader
  | builtIn event => event.header
  | custom event => event.header

/-- A `series_key`, as the data it writes. -/
inductive CounterKey where
  | builtIn (scope : DiagnosticScope) (counterKind : CounterKind)
  | custom (scope : DiagnosticScope) (name : String) (unit : Option String)
      (dimensions : List (String × DiagnosticDimension))
deriving DecidableEq

/-- `ProjectedCounter`. -/
structure ProjectedCounter where
  seriesKey : CounterKey
  event : CounterEvent

/-- `ProjectedContextUsage`. -/
structure ProjectedContextUsage where
  scopeKey : DiagnosticScope
  event : ContextUsageSampled

/-- `ProjectedActUsage`. -/
structure ProjectedActUsage where
  actKey : String
  event : ActTokenUsageFinalized

/-- The `phase` of a `ProjectedToolFact`. -/
inductive ToolPhase where
  | started
  | updated
  | finished
deriving DecidableEq

/-- `ProjectedToolFact`. -/
structure ProjectedToolFact where
  phase : ToolPhase
  sequence : Nat
  elapsedNs : Nat
  scope : DiagnosticScope
  toolCallId : Option RunLocalId
  spanId : Option Nat
  title : Option String
  toolKind : Option ToolKind
  status : Option ToolCallStatus
  outcome : Option SpanOutcome
  errorCode : Option String

/-- `ProjectedResultKind`. -/
inductive ProjectedResultKind where
  | submitted
  | rejected
  | repairRequested
  | accepted
  | missing
deriving DecidableEq

/-- `ProjectedResultFact`. -/
structure ProjectedResultFact where
  resultKind : ProjectedResultKind
  sequence : Nat
  elapsedNs : Nat
  scope : DiagnosticScope
  actId : Option RunLocalId
  containingSpanId : Option Nat
  issue : Option ResultIssue
  errorCode : Option String

/-- `ProjectionBucket`. -/
structure ProjectionBucket (T : Type) where
  baseThrough : Nat
  items : List T
  droppedThrough : Option Nat
  needsServerRefresh : Bool
  lost : List Nat

/-- `GapProjection`. -/
structure GapProjection extends ProjectionBucket ObservationGap where
  declaredDroppedCount : Nat
  hasUnknownDroppedCount : Bool

/-- `LiveProjection`. -/
structure LiveProjection where
  spans : ProjectionBucket ProjectedSpan
  messages : ProjectionBucket ProjectedMessage
  counters : ProjectionBucket ProjectedCounter
  contextUsage : ProjectionBucket ProjectedContextUsage
  actUsage : ProjectionBucket ProjectedActUsage
  tools : ProjectionBucket ProjectedToolFact
  results : ProjectionBucket ProjectedResultFact
  gaps : GapProjection

/-- `LiveEdgeState`. -/
structure LiveEdgeState where
  baseThrough : Nat
  observedElapsedNs : Nat
  events : List DiagnosticEvent
  droppedThrough : Option Nat
  projection : LiveProjection

/-! ## Usage -/

/-- `UsageFieldAggregateSnapshot`. -/
structure UsageFieldAggregateSnapshot where
  knownSum : Option Nat
  reportedActs : Nat
  finalizedActs : Nat

/-- `UsageAggregateSnapshot`. -/
structure UsageAggregateSnapshot where
  finalizedActs : Nat
  reportedActs : Nat
  availableActs : Nat
  partialActs : Nat
  unavailableActs : Nat
  providerTotalTokens : UsageFieldAggregateSnapshot
  inputTokens : UsageFieldAggregateSnapshot
  outputTokens : UsageFieldAggregateSnapshot
  thoughtTokens : UsageFieldAggregateSnapshot
  cachedReadTokens : UsageFieldAggregateSnapshot
  cachedWriteTokens : UsageFieldAggregateSnapshot

/-- `ScopedUsageAggregateSnapshot`. -/
structure ScopedUsageAggregateSnapshot where
  scope : DiagnosticScope
  aggregate : UsageAggregateSnapshot

/-- `ProjectedActUsageSnapshot`. -/
structure ProjectedActUsageSnapshot where
  actId : RunLocalId
  event : ActTokenUsageFinalized

/-- `UsageSnapshot`. -/
structure UsageSnapshot where
  runId : CanonicalUuid
  throughSequence : Nat
  contexts : List ContextUsageSampled
  usages : List ProjectedActUsageSnapshot
  aggregate : UsageAggregateSnapshot
  scopedAggregates : List ScopedUsageAggregateSnapshot

/-- `UsageSnapshotState`. -/
structure UsageSnapshotState where
  capturedThrough : Nat
  usages : List ProjectedActUsage
  aggregate : UsageAggregateSnapshot
  scopedAggregates : List ScopedUsageAggregateSnapshot
  truncated : Bool
  staleThrough : Option Nat

/-! ## Queries -/

/-- `elapsed_range` of a `QueryDependency`. -/
structure ElapsedRange where
  startNs : Nat
  endNs : Nat
deriving DecidableEq

/-- `QueryDependency`. -/
structure QueryDependency where
  eventKinds : Option (List DiagnosticEventKind)
  scope : Option DiagnosticScope
  elapsedRange : Option ElapsedRange

/-- `CachedQueryResult`, with the value the server answered. -/
structure CachedQueryResult (Value : Type) where
  key : String
  capturedThrough : Nat
  value : Value
  stale : Bool
  invalidatedThrough : Option Nat
  dependency : QueryDependency

/-- `QueryCache`. -/
abbrev QueryCache (Value : Type) := FixedLru String (CachedQueryResult Value)

/-! ## Presentation -/

/-- The `kind` of a `SelectionReference`. -/
inductive SelectionKind where
  | event
  | span
  | message
  | scope
deriving DecidableEq

/-- `SelectionReference`. -/
structure SelectionReference where
  kind : SelectionKind
  id : String
deriving DecidableEq

/-- `PresentationFilters`. -/
structure PresentationFilters where
  eventKinds : List DiagnosticEventKind
  sceneId : Option String
  actorId : Option String
  text : String

/-- A `number`: finite, with the value it has, or an infinity or `NaN`. -/
inductive JsNumber where
  | finite (value : ℚ)
  | notFinite

/-- `zoom` of a `PresentationState`. -/
structure Zoom where
  anchorNs : Nat
  scale : JsNumber

/-- `PresentationState`. -/
structure PresentationState where
  selection : Option SelectionReference
  pinnedDetail : Option SelectionReference
  expanded : List String
  filters : PresentationFilters
  viewport : Option ElapsedRange
  followLive : Bool
  zoom : Option Zoom

/-! ## The state -/

/-- `ServerRangeResumeRequest`. -/
structure ServerRangeResumeRequest where
  afterSequence : Nat
  throughSequence : Nat
deriving DecidableEq

/-- `PauseState`. -/
structure PauseState where
  paused : Bool
  pausedAt : Option Nat
  unseenCount : Int
  resumeRequest : Option ServerRangeResumeRequest
  frozenLive : Option LiveEdgeState

/-- `DiagnosticState`. -/
structure DiagnosticState (Value : Type) where
  runId : CanonicalUuid
  cursor : SequenceCursor
  deliveryIssue : Option DeliveryIssue
  windows : WindowState
  live : LiveEdgeState
  usageSnapshot : Option UsageSnapshotState
  queries : QueryCache Value
  presentation : PresentationState
  pause : PauseState

end Troupe.Web.State
