import Troupe.Web.State.Model

/-! # The query cache and the event windows

`state/queries.ts`, and what the reducer calls of `state/windows.ts`. -/

namespace Troupe.Web.State

open Troupe.Core

variable {Value : Type}

/-! ## Queries -/

/-- `createQueryCache`. -/
def createQueryCache : QueryCache Value := createFixedLru queryResultCapacity

/-- The later of what is invalid and `sequence`. -/
def laterInvalid (invalidated : Option Nat) (sequence : Nat) : Nat :=
  match invalidated with
  | none => sequence
  | some through => if through < sequence then sequence else through

/-- `staleAt`, which `invalidateQueries` and `invalidateAllQueries` write out. -/
def staleAt (result : CachedQueryResult Value) (sequence : Nat) : CachedQueryResult Value :=
  { result with
    stale := true
    invalidatedThrough := some (laterInvalid result.invalidatedThrough sequence) }

/-- `cacheQueryResult`. -/
def cacheQueryResult (cache : QueryCache Value) (result : CachedQueryResult Value) :
    QueryCache Value :=
  let previousInvalidation :=
    (cache.entries.lookup result.key).bind CachedQueryResult.invalidatedThrough
  let next :=
    match previousInvalidation with
    | none => result
    | some previous =>
      if result.capturedThrough < previous then
        { result with
          stale := true
          invalidatedThrough :=
            match result.invalidatedThrough with
            | none => some previous
            | some through => if through < previous then some previous else some through }
      else result
  (lruSet cache result.key next).state

/-- One field of `scopeMatches`. -/
def scopeFieldMatches {α : Type} [DecidableEq α] (expected actual : Option α) : Bool :=
  expected.isNone || expected == actual

/-- `scopeMatches`. -/
def scopeMatches (queryScope eventScope : DiagnosticScope) : Bool :=
  scopeFieldMatches queryScope.sceneId eventScope.sceneId &&
  scopeFieldMatches queryScope.actorId eventScope.actorId &&
  scopeFieldMatches queryScope.cueId eventScope.cueId &&
  scopeFieldMatches queryScope.effectId eventScope.effectId &&
  scopeFieldMatches queryScope.actId eventScope.actId &&
  scopeFieldMatches queryScope.toolCallId eventScope.toolCallId &&
  scopeFieldMatches queryScope.sessionGeneration eventScope.sessionGeneration

/-- `kindMatches`. -/
def kindMatches (dependency : QueryDependency) (event : DiagnosticEvent) : Bool :=
  match dependency.eventKinds with
  | none => true
  | some kinds =>
    match event with
    | .observationGap gap =>
      kinds.contains .observationGap || gap.affectedKind.all kinds.contains
    | event => kinds.contains event.kind

/-- `rangeIntersectsGap`. -/
def rangeIntersectsGap (range : ElapsedRange) (gap : ObservationGap) : Bool :=
  match gap.affectedElapsed with
  | none => true
  | some affected => range.startNs ≤ affected.endNs.get && affected.startNs.get < range.endNs

/-- The scope of `queryDependsOnEvent`. -/
def scopeDepends (queryScope : DiagnosticScope) : DiagnosticEvent → Bool
  | .observationGap gap => gap.affectedScope.all (scopeMatches queryScope)
  | event => scopeMatches queryScope event.scope

/-- The range of `queryDependsOnEvent`. -/
def rangeDepends (range : ElapsedRange) : DiagnosticEvent → Bool
  | .observationGap gap => rangeIntersectsGap range gap
  | .spanFinished _ => true
  | .customSpanFinished _ => true
  | event => range.startNs ≤ event.elapsedNs.get && event.elapsedNs.get < range.endNs

/-- `queryDependsOnEvent`. -/
def queryDependsOnEvent (dependency : QueryDependency) (event : DiagnosticEvent) : Bool :=
  kindMatches dependency event &&
  dependency.scope.all (scopeDepends · event) &&
  dependency.elapsedRange.all (rangeDepends · event)

/-- `invalidateQueries`; the code returns the cache itself when no result changes. -/
def invalidateQueries (cache : QueryCache Value) (event : DiagnosticEvent) : QueryCache Value :=
  { cache with
    entries := mapValues
      (fun result =>
        if result.capturedThrough < event.sequence.get ∧
            queryDependsOnEvent result.dependency event then
          staleAt result event.sequence.get
        else result)
      cache.entries }

/-- `invalidateAllQueries`. -/
def invalidateAllQueries (cache : QueryCache Value) (throughSequence : Nat) : QueryCache Value :=
  { cache with
    entries := mapValues
      (fun result =>
        if result.capturedThrough < throughSequence then staleAt result throughSequence
        else result)
      cache.entries }

/-! ## Windows -/

/-- `createWindowState`. -/
def createWindowState : WindowState := ⟨none, createFixedLru adjacentWindowCapacity⟩

/-- The loop of `createEventWindow` over the events. -/
def checkWindowEvents (window : EventWindow) :
    Option DiagnosticEvent → List DiagnosticEvent → Except RangeError Unit
  | _, [] => .ok ()
  | previous, event :: rest =>
    if event.header.runId ≠ window.runId then
      .error ⟨"window contains an event from another run"⟩
    else if window.capturedThrough < event.sequence.get then
      .error ⟨"window event is newer than its captured watermark"⟩
    else if event.elapsedNs.get < window.startNs ∨ window.endNs < event.elapsedNs.get then
      .error ⟨"window event is outside its elapsed range"⟩
    else if previous.any fun previous => event.sequence.get ≤ previous.sequence.get then
      .error ⟨"window event sequence is not strictly ordered"⟩
    else checkWindowEvents window (some event) rest

/-- `createEventWindow`. -/
def createEventWindow (window : EventWindow) : Except RangeError EventWindow :=
  if window.id.isEmpty then .error ⟨"window identity must not be empty"⟩
  else if window.endNs < window.startNs then .error ⟨"window range is reversed"⟩
  else if visibleWindowEventCapacity < window.events.length then
    .error ⟨"window event capacity exceeded"⟩
  else do
    checkWindowEvents window none window.events
    return window

/-- `activateWindow`. -/
def activateWindow (state : WindowState) (window : EventWindow) : Except RangeError WindowState := do
  let candidate ← createEventWindow window
  return match state.visible with
    | none => ⟨some candidate, lruDelete state.adjacent candidate.id⟩
    | some visible =>
      if visible.id = candidate.id then { state with visible := some candidate }
      else
        ⟨some candidate, (lruSet (lruDelete state.adjacent candidate.id) visible.id visible).state⟩

/-- `appendLiveEvent`. -/
def appendLiveEvent (state : LiveEdgeState) (event : DiagnosticEvent) (projection : LiveProjection) :
    LiveEdgeState :=
  { state with
    events :=
      if liveEdgeEventCapacity ≤ state.events.length then state.events.drop 1 ++ [event]
      else state.events ++ [event]
    droppedThrough :=
      if liveEdgeEventCapacity ≤ state.events.length then
        match state.events.head? with
        | none => state.droppedThrough
        | some oldest => some oldest.sequence.get
      else state.droppedThrough
    observedElapsedNs := max state.observedElapsedNs event.elapsedNs.get
    projection }

end Troupe.Web.State
