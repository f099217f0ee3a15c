import Troupe.Web.State.Snapshot

/-! # The reducer

`reduceDiagnosticState` of `state/reducer.ts` with the setters of `state/selection.ts`, and the
functions that make a first state. A thrown `RangeError` is an error; the page keeps its state then.
-/

namespace Troupe.Web.State

open Troupe.Core Troupe.Lib

variable {Value : Type}

/-! ## Presentation -/

/-- `createPresentationState`. -/
def createPresentationState : PresentationState where
  selection := none
  pinnedDetail := none
  expanded := []
  filters := ⟨[], none, none, ""⟩
  viewport := none
  followLive := true
  zoom := none

/-- `select`. -/
def select (state : PresentationState) (selection : Option SelectionReference) : PresentationState :=
  { state with selection }

/-- `pinDetail`. -/
def pinDetail (state : PresentationState) (selection : Option SelectionReference) :
    PresentationState :=
  { state with pinnedDetail := selection }

/-- `toggleExpanded`. -/
def toggleExpanded (state : PresentationState) (id : String) :
    Except RangeError PresentationState :=
  if id.isEmpty then .error ⟨"expanded identity must not be empty"⟩
  else if id ∈ state.expanded then .ok { state with expanded := state.expanded.filter (· ≠ id) }
  else
    let expanded := state.expanded ++ [id]
    .ok { state with expanded := expanded.drop (expanded.length - expandedItemCapacity) }

/-- `setFilters`. -/
def setFilters (state : PresentationState) (filters : PresentationFilters) : PresentationState :=
  { state with filters }

/-- `setViewport`. -/
def setViewport (state : PresentationState) (viewport : Option ElapsedRange) :
    Except RangeError PresentationState :=
  if viewport.any fun range => range.endNs < range.startNs then
    .error ⟨"viewport range is reversed"⟩
  else .ok { state with viewport }

/-- `setFollowLive`. -/
def setFollowLive (state : PresentationState) (followLive : Bool) : PresentationState :=
  { state with followLive }

/-- `Number.isFinite(scale) && scale > 0`. -/
def JsNumber.isPositive : JsNumber → Bool
  | finite value => 0 < value
  | notFinite => false

/-- `setZoom`. -/
def setZoom (state : PresentationState) (zoom : Option Zoom) : Except RangeError PresentationState :=
  if zoom.all fun zoom => zoom.scale.isPositive then .ok { state with zoom }
  else .error ⟨"zoom scale must be finite and positive"⟩

/-! ## First states -/

/-- `createLiveEdge`. -/
def createLiveEdge (baseThrough observedElapsedNs : Nat) : LiveEdgeState where
  baseThrough
  observedElapsedNs
  events := []
  droppedThrough := none
  projection := createLiveProjection baseThrough

/-- The pause state of `createDiagnosticState`. -/
def unpaused : PauseState where
  paused := false
  pausedAt := none
  unseenCount := 0
  resumeRequest := none
  frozenLive := none

/-- `createDiagnosticState`. -/
def createDiagnosticState (runId : CanonicalUuid) (throughSequence throughElapsedNs : Nat) :
    DiagnosticState Value where
  runId
  cursor := ⟨throughSequence, throughSequence⟩
  deliveryIssue := none
  windows := createWindowState
  live := createLiveEdge throughSequence throughElapsedNs
  usageSnapshot := none
  queries := createQueryCache
  presentation := createPresentationState
  pause := unpaused

/-- `receiveUsageSnapshot`. -/
def receiveUsageSnapshot (state : DiagnosticState Value) (snapshot : UsageSnapshot) :
    Except RangeError (DiagnosticState Value) :=
  if snapshot.runId ≠ state.runId then .error ⟨"usage snapshot belongs to another Run"⟩
  else if state.usageSnapshot.any fun usage => snapshot.throughSequence ≤ usage.capturedThrough then
    .ok state
  else
    let usages := (snapshot.usages.drop (snapshot.usages.length - actUsageCapacity)).map
      fun item => { actKey := item.actId.value, event := item.event : ProjectedActUsage }
    let scopedAggregates := snapshot.scopedAggregates.drop
      (snapshot.scopedAggregates.length - usageScopeAggregateCapacity)
    .ok { state with
      usageSnapshot := some {
        capturedThrough := snapshot.throughSequence
        usages
        aggregate := snapshot.aggregate
        scopedAggregates
        truncated := usages.length != snapshot.usages.length ||
          scopedAggregates.length != snapshot.scopedAggregates.length
        staleThrough :=
          if snapshot.throughSequence < state.cursor.committedWatermark then
            some state.cursor.committedWatermark
          else none } }

/-- The pause state of `snapshotState`. -/
def snapshotPause (snapshot : SnapshotResponse) (previous : DiagnosticState Value) : PauseState :=
  if previous.pause.paused then
    { previous.pause with
      unseenCount :=
        match previous.pause.pausedAt with
        | none => 0
        | some pausedAt => max 0 ((snapshot.watermarkSequence : Int) - pausedAt)
      frozenLive := some (previous.pause.frozenLive.getD previous.live) }
  else unpaused

/-- What `snapshotState` takes over from the state it replaces. -/
def keepPrevious (snapshot : SnapshotResponse) (previous : Option (DiagnosticState Value))
    (state : DiagnosticState Value) : DiagnosticState Value :=
  match previous with
  | none => state
  | some previous =>
    { state with
      presentation := previous.presentation
      pause := snapshotPause snapshot previous }

/-- `snapshotState`. -/
def snapshotState (snapshot : SnapshotResponse) (previous : Option (DiagnosticState Value))
    (suffixEvents : List DiagnosticEvent) : Except RangeError (DiagnosticState Value) :=
  if previous.any fun previous => previous.runId ≠ snapshot.runId then
    .error ⟨"snapshot belongs to another Run"⟩
  else do
    let initial : DiagnosticState Value :=
      createDiagnosticState snapshot.runId snapshot.watermarkSequence snapshot.throughElapsedNs
    let projection ← hydrateSnapshotProjection snapshot suffixEvents
    let state ← receiveUsageSnapshot { initial with live := { initial.live with projection } }
      snapshot.usage
    return keepPrevious snapshot previous state

/-- `createDiagnosticStateFromSnapshot`. -/
def createDiagnosticStateFromSnapshot (snapshot : SnapshotResponse)
    (previous : Option (DiagnosticState Value)) : Except RangeError (DiagnosticState Value) :=
  snapshotState snapshot previous []

/-- `EventsResponse`. -/
structure EventsResponse where
  runId : CanonicalUuid
  capturedWatermark : Nat
  events : List DiagnosticEvent
  nextAfter : Option Nat

/-- The loop of `validateHydrationSuffix`. -/
def checkSuffixEvents (snapshot : SnapshotResponse) :
    Nat → List DiagnosticEvent → Except RangeError Unit
  | _, [] => .ok ()
  | expectedSequence, event :: rest =>
    if event.header.runId ≠ snapshot.runId then
      .error ⟨"event suffix contains an event from another Run"⟩
    else if event.sequence.get ≠ expectedSequence then
      .error ⟨"event suffix is not a dense sequence range"⟩
    else if snapshot.throughElapsedNs < event.elapsedNs.get then
      .error ⟨"event suffix is newer than the snapshot state"⟩
    else checkSuffixEvents snapshot (expectedSequence + 1) rest

/-- `validateHydrationSuffix`. -/
def validateHydrationSuffix (snapshot : SnapshotResponse) (suffix : EventsResponse) (after : Nat) :
    Except RangeError Unit :=
  if suffix.runId ≠ snapshot.runId then .error ⟨"event suffix belongs to another Run"⟩
  else if suffix.capturedWatermark < snapshot.watermarkSequence then
    .error ⟨"event suffix was captured before the snapshot watermark"⟩
  else if suffix.nextAfter ≠ none then
    .error ⟨"event suffix must be a complete finite response"⟩
  else if snapshot.watermarkSequence < after then
    .error ⟨"event suffix starts after the snapshot watermark"⟩
  else if visibleWindowEventCapacity < snapshot.watermarkSequence - after then
    .error ⟨"event suffix exceeds the visible window capacity"⟩
  else if suffix.events.length ≠ snapshot.watermarkSequence - after then
    .error ⟨"event suffix does not cover the exact snapshot range"⟩
  else checkSuffixEvents snapshot (after + 1) suffix.events

/-- The id of the window of a hydration. -/
def bootstrapWindowId (runId : CanonicalUuid) (after through : Nat) : String :=
  "bootstrap:" ++ displayUuid runId ++ ":" ++ toString after ++ ":" ++ toString through

/-- `hydrateDiagnosticStateFromSnapshot`. -/
def hydrateDiagnosticStateFromSnapshot (snapshot : SnapshotResponse) (suffix : EventsResponse)
    (after : Nat) (previous : Option (DiagnosticState Value)) :
    Except RangeError (DiagnosticState Value) := do
  validateHydrationSuffix snapshot suffix after
  let state ← snapshotState snapshot previous suffix.events
  let projection :=
    if after = 0 then state.live.projection
    else
      { state.live.projection with
        tools := markDropped state.live.projection.tools after
        results := markDropped state.live.projection.results after }
  let first :=
    match suffix.events with
    | [] => snapshot.throughElapsedNs
    | event :: _ => event.elapsedNs.get
  let rest := (suffix.events.drop 1).map fun event => event.elapsedNs.get
  let windows ← activateWindow state.windows {
    id := bootstrapWindowId snapshot.runId after snapshot.watermarkSequence
    runId := snapshot.runId
    startNs := rest.foldl min first
    endNs := rest.foldl max first
    capturedThrough := snapshot.watermarkSequence
    events := suffix.events }
  return { state with windows, live := { state.live with projection } }

/-! ## Events -/

/-- `staleUsageSnapshot`. -/
def staleUsageSnapshot (snapshot : Option UsageSnapshotState) (through : Nat) :
    Option UsageSnapshotState :=
  snapshot.map fun usage =>
    if through ≤ usage.capturedThrough then usage
    else if usage.staleThrough.any (through ≤ ·) then usage
    else { usage with staleThrough := some through }

/-- `withPauseWatermark`. -/
def withPauseWatermark (pause : PauseState) (watermark : Nat) : PauseState :=
  match pause.paused, pause.pausedAt with
  | true, some pausedAt => { pause with unseenCount := max 0 ((watermark : Int) - pausedAt) }
  | _, _ => pause

/-- Whether an event makes the usage snapshot of `acceptedEvent` stale. -/
def touchesUsage (event : DiagnosticEvent) : Bool :=
  event.kind = .actTokenUsageFinalized || gapAffects event [.actTokenUsageFinalized]

/-- `acceptedEvent`. -/
def acceptedEvent (state : DiagnosticState Value) (event : DiagnosticEvent) :
    DiagnosticState Value :=
  let projection := projectEvent state.live.projection event
  let watermark := max event.sequence.get state.cursor.committedWatermark
  { state with
    cursor := ⟨event.sequence.get, watermark⟩
    deliveryIssue := none
    live := appendLiveEvent state.live event projection
    usageSnapshot :=
      if touchesUsage event then staleUsageSnapshot state.usageSnapshot event.sequence.get
      else state.usageSnapshot
    queries := invalidateQueries state.queries event
    pause := withPauseWatermark state.pause watermark }

/-- What a later watermark does to the queries, the usage snapshot and the pause state. -/
def withWatermark (state : DiagnosticState Value) (watermark : Nat) : DiagnosticState Value :=
  { state with
    cursor := { state.cursor with committedWatermark := watermark }
    queries := invalidateAllQueries state.queries watermark
    usageSnapshot := staleUsageSnapshot state.usageSnapshot watermark
    pause := withPauseWatermark state.pause watermark }

/-- `receiveEvent`. -/
def receiveEvent (state : DiagnosticState Value) (event : DiagnosticEvent) :
    DiagnosticState Value :=
  if event.header.runId ≠ state.runId then
    { state with
      deliveryIssue := some (.crossRun state.runId event.header.runId event.sequence.get) }
  else if event.sequence.get ≤ state.cursor.deliveredThrough then state
  else
    let expected := state.cursor.deliveredThrough + 1
    if event.sequence.get ≠ expected then
      { withWatermark state (max event.sequence.get state.cursor.committedWatermark) with
        deliveryIssue := some (.nonContiguous expected event.sequence.get) }
    else acceptedEvent state event

/-! ## Pausing -/

/-- Whether a mark is after `sequence`. -/
def droppedAfter (droppedThrough : Option Nat) (sequence : Nat) : Bool :=
  droppedThrough.any (sequence < ·)

/-- `projectionLostAfter`. -/
def projectionLostAfter (projection : LiveProjection) (sequence : Nat) : Bool :=
  [projection.spans.droppedThrough,
   projection.messages.droppedThrough,
   projection.counters.droppedThrough,
   projection.contextUsage.droppedThrough,
   projection.actUsage.droppedThrough,
   projection.tools.droppedThrough,
   projection.results.droppedThrough,
   projection.gaps.droppedThrough].any (droppedAfter · sequence)

/-- `needsServerRange` of `resume`. -/
def needsServerRange (state : DiagnosticState Value) (after : Nat) : Bool :=
  let through := state.cursor.committedWatermark
  let rawLoss := droppedAfter state.live.droppedThrough after
  let deliveryLag : Bool := state.cursor.deliveredThrough < through
  after < through && (rawLoss || deliveryLag || projectionLostAfter state.live.projection after)

/-- `resume`. -/
def resume (state : DiagnosticState Value) : DiagnosticState Value :=
  match state.pause.paused, state.pause.pausedAt with
  | true, some after =>
    { state with
      pause := {
        paused := false
        pausedAt := none
        unseenCount := 0
        resumeRequest :=
          if needsServerRange state after then some ⟨after, state.cursor.committedWatermark⟩
          else none
        frozenLive := none } }
  | _, _ => state

/-- The arm `pause` of `reduceDiagnosticState`. -/
def pause (state : DiagnosticState Value) : DiagnosticState Value :=
  if state.pause.paused then state
  else
    { state with
      pause := {
        paused := true
        pausedAt := some state.cursor.deliveredThrough
        unseenCount := (state.cursor.committedWatermark : Int) - state.cursor.deliveredThrough
        resumeRequest := none
        frozenLive := some state.live } }

/-- `presentedLiveEdge`. -/
def presentedLiveEdge (state : DiagnosticState Value) : LiveEdgeState :=
  if state.pause.paused then state.pause.frozenLive.getD state.live else state.live

/-! ## The reducer -/

/-- `historyUnknown` of `cacheQueryForCurrentState`. -/
def historyUnknown (state : DiagnosticState Value) (captured : Nat) : Bool :=
  captured < state.live.baseThrough || droppedAfter state.live.droppedThrough captured ||
    state.cursor.deliveredThrough < state.cursor.committedWatermark

/-- One turn of the loop of `cacheQueryForCurrentState`. -/
def staleIfAffected (result candidate : CachedQueryResult Value) (event : DiagnosticEvent) :
    CachedQueryResult Value :=
  if result.capturedThrough < event.sequence.get && queryDependsOnEvent result.dependency event then
    staleAt candidate event.sequence.get
  else candidate

/-- `cacheQueryForCurrentState`. -/
def cacheQueryForCurrentState (state : DiagnosticState Value) (result : CachedQueryResult Value) :
    QueryCache Value :=
  let captured := result.capturedThrough
  let candidate :=
    if historyUnknown state captured && captured < state.cursor.committedWatermark then
      staleAt result state.cursor.committedWatermark
    else
      state.live.events.foldl (staleIfAffected result) result
  cacheQueryResult state.queries candidate

/-- `DiagnosticStateAction`. -/
inductive DiagnosticStateAction (Value : Type) where
  | eventReceived (event : DiagnosticEvent)
  | snapshotReceived (snapshot : SnapshotResponse)
  | watermarkObserved (throughSequence : Nat)
  | pause
  | resume
  | resumeRequestConsumed
  | windowActivated (window : EventWindow)
  | usageSnapshotReceived (snapshot : UsageSnapshot)
  | queryCached (result : CachedQueryResult Value)
  | select (selection : Option SelectionReference)
  | pinDetail (selection : Option SelectionReference)
  | toggleExpanded (id : String)
  | filtersSet (filters : PresentationFilters)
  | viewportSet (viewport : Option ElapsedRange)
  | followLiveSet (followLive : Bool)
  | zoomSet (zoom : Option Zoom)

/-- `reduceDiagnosticState`. -/
def reduceDiagnosticState (state : DiagnosticState Value) :
    DiagnosticStateAction Value → Except RangeError (DiagnosticState Value)
  | .snapshotReceived snapshot => createDiagnosticStateFromSnapshot snapshot (some state)
  | .eventReceived event => .ok (receiveEvent state event)
  | .watermarkObserved throughSequence =>
    if throughSequence ≤ state.cursor.committedWatermark then .ok state
    else .ok (withWatermark state throughSequence)
  | .pause => .ok (State.pause state)
  | .resume => .ok (State.resume state)
  | .resumeRequestConsumed => .ok { state with pause := { state.pause with resumeRequest := none } }
  | .windowActivated window =>
    if window.runId ≠ state.runId then
      .ok { state with
        deliveryIssue := some (.crossRun state.runId window.runId window.capturedThrough) }
    else do
      let windows ← activateWindow state.windows window
      return { state with windows }
  | .usageSnapshotReceived snapshot => receiveUsageSnapshot state snapshot
  | .queryCached result => .ok { state with queries := cacheQueryForCurrentState state result }
  | .select selection => .ok { state with presentation := State.select state.presentation selection }
  | .pinDetail selection =>
    .ok { state with presentation := State.pinDetail state.presentation selection }
  | .toggleExpanded id => do
    let presentation ← State.toggleExpanded state.presentation id
    return { state with presentation }
  | .filtersSet filters =>
    .ok { state with presentation := setFilters state.presentation filters }
  | .viewportSet viewport => do
    let presentation ← setViewport state.presentation viewport
    return { state with presentation }
  | .followLiveSet followLive =>
    .ok { state with presentation := setFollowLive state.presentation followLive }
  | .zoomSet zoom => do
    let presentation ← setZoom state.presentation zoom
    return { state with presentation }

end Troupe.Web.State
