import Troupe.Lib.Transition
import Troupe.Server.Replay

/-! # The browser's live controller

`live/reconnect.ts` with the parts of `live/snapshot.ts` and `state/reducer.ts` it calls. The page
is single threaded, so what runs between two awaits is one step; between two steps any callback of
any stream ever opened may come, any response may arrive, and the page may stop the controller.

* A stream is its position in `streams`, an asynchronous operation its position in `operations`.
  Both lists keep what has been closed or settled.
* `Reducers` are the parts of the reducer that do not read the cursor.
* A response is what the decoders yield. `Action.FromLog` is what the server promises of it: what
  it carries is of one log of events. Frames may be lost, repeated and reordered at will.
* `World.heard` is kept for the statements: the frames of each stream since its last `open` or
  `error`. No function reads it. -/

namespace Troupe.Web

open Troupe.Lib Troupe.Core Troupe.Server

/-! ## Errors -/

/-- What a `catch` receives: a `DiagnosticTransportError`, another `Error` with or without a string
`code`, or a value that is no `Error`. -/
inductive ThrownError where
  | transport (code message : String)
  | error (code : Option String) (message : String)
  | other (text : String)
deriving DecidableEq

/-- `LiveControllerError`. -/
structure LiveControllerError where
  code : String
  message : String
deriving DecidableEq

/-- `errorState`. -/
def errorState : ThrownError → LiveControllerError
  | .transport code message => ⟨code, message⟩
  | .error code message => ⟨code.getD "protocol", message⟩
  | .other text => ⟨"unknown", text⟩

/-- `isSecurityFailure`. -/
def isSecurityFailure : ThrownError → Bool
  | .transport code _ => code == "security"
  | .error code _ => code == some "security_scope"
  | .other _ => false

/-! ## Diagnostics -/

/-- `DeliveryIssue`. -/
inductive DeliveryIssue where
  | crossRun (expectedRunId receivedRunId : CanonicalUuid) (receivedSequence : Nat)
  | nonContiguous (expectedSequence receivedSequence : Nat)
deriving DecidableEq

/-- `DeliveryCursor`. -/
structure DeliveryCursor where
  deliveredThrough : Nat
  committedWatermark : Nat

/-- `DiagnosticState`. `live` is the live edge with the window of the hydration; `view` is the
usage snapshot, the query cache, the pause state and the presentation. -/
structure DiagnosticState (Live View : Type) where
  runId : CanonicalUuid
  cursor : DeliveryCursor
  deliveryIssue : Option DeliveryIssue
  live : Live
  view : View

/-- `SnapshotResponse`. -/
structure SnapshotResponse (Summary : Type) where
  runId : CanonicalUuid
  watermarkSequence : Nat
  state : Summary

/-- `EventsResponse`. -/
structure EventsResponse where
  runId : CanonicalUuid
  capturedWatermark : Nat
  events : List CommittedEvent
  nextAfter : Option Nat

/-- The projections of the reducer and of the server. -/
structure Reducers (Summary Live View : Type) where
  /-- The server's read model of the events up to a watermark. -/
  summarize : List CommittedEvent → Summary
  /-- The live edge and the window of `hydrateDiagnosticStateFromSnapshot`. -/
  hydrateLive : SnapshotResponse Summary → List CommittedEvent → Except ThrownError Live
  /-- What it makes of the rest, with the previous state. -/
  hydrateView : SnapshotResponse Summary → Option (DiagnosticState Live View) → View
  /-- `appendLiveEvent` with `projectEvent`. -/
  appendLiveEvent : Live → CommittedEvent → Live
  /-- The rest of `acceptedEvent`, which also gets the new watermark. -/
  acceptedView : View → CommittedEvent → Nat → View
  /-- What a new watermark does to the queries, the usage snapshot and the pause state. -/
  observedView : View → Nat → View

section Diagnostics

variable {Summary Live View : Type} (R : Reducers Summary Live View)

/-- `acceptedEvent`. -/
def acceptedEvent (state : DiagnosticState Live View) (event : CommittedEvent) :
    DiagnosticState Live View :=
  let watermark := max event.sequence.get state.cursor.committedWatermark
  { state with
    cursor := ⟨event.sequence.get, watermark⟩
    deliveryIssue := none
    live := R.appendLiveEvent state.live event
    view := R.acceptedView state.view event watermark }

/-- `receiveEvent`; `none` is the state object itself, which callers compare by identity. -/
def receiveEvent (state : DiagnosticState Live View) (event : CommittedEvent) :
    Option (DiagnosticState Live View) :=
  if event.runId ≠ state.runId then
    some { state with
      deliveryIssue := some (.crossRun state.runId event.runId event.sequence.get) }
  else if event.sequence.get ≤ state.cursor.deliveredThrough then none
  else
    let expected := state.cursor.deliveredThrough + 1
    if event.sequence.get ≠ expected then
      let watermark := max event.sequence.get state.cursor.committedWatermark
      some { state with
        cursor := { state.cursor with committedWatermark := watermark }
        deliveryIssue := some (.nonContiguous expected event.sequence.get)
        view := R.observedView state.view watermark }
    else some (acceptedEvent R state event)

/-- The arm `watermark_observed` of `reduceDiagnosticState`. -/
def watermarkObserved (state : DiagnosticState Live View) (through : Nat) :
    DiagnosticState Live View :=
  if through ≤ state.cursor.committedWatermark then state
  else
    { state with
      cursor := { state.cursor with committedWatermark := through }
      view := R.observedView state.view through }

/-- `SNAPSHOT_SUFFIX_MAX_EVENTS`. -/
def snapshotSuffixMaxEvents : Nat := 4096

/-- `snapshotSuffixAfter`. -/
def snapshotSuffixAfter (watermark : Nat) : Nat :=
  if snapshotSuffixMaxEvents < watermark then watermark - snapshotSuffixMaxEvents else 0

/-- The loop of `fetchDiagnosticSnapshotWindow` over the events of the suffix. -/
def checkSuffixEvents (runId : CanonicalUuid) (range : String) :
    Nat → List CommittedEvent → Except ThrownError Unit
  | _, [] => .ok ()
  | expected, event :: rest =>
    if event.runId ≠ runId then .error (.transport "identity" range)
    else if event.sequence.get ≠ expected then .error (.transport "protocol" range)
    else checkSuffixEvents runId range (expected + 1) rest

/-- "snapshot suffix is not the exact dense range". -/
def rangeMessage (after through : Nat) : String :=
  "snapshot suffix is not the exact dense range (" ++ toString after ++ "," ++ toString through ++
    "]"

/-- The checks of `fetchDiagnosticSnapshotWindow` on the suffix. -/
def checkSnapshotSuffix (snapshot : SnapshotResponse Summary) (response : EventsResponse) :
    Except ThrownError Unit :=
  let after := snapshotSuffixAfter snapshot.watermarkSequence
  let range := rangeMessage after snapshot.watermarkSequence
  if response.runId ≠ snapshot.runId then
    .error (.transport "identity" "snapshot suffix belongs to another Run")
  else if response.capturedWatermark < snapshot.watermarkSequence then
    .error (.transport "protocol" "snapshot suffix was captured before the snapshot watermark")
  else if response.nextAfter ≠ none then
    .error (.transport "protocol"
      "finite snapshot suffix unexpectedly returned a continuation cursor")
  else if snapshotSuffixMaxEvents < response.events.length then
    .error (.transport "protocol" "snapshot suffix exceeds 4096 events")
  else if response.events.length ≠ snapshot.watermarkSequence - after then
    .error (.transport "protocol" range)
  else checkSuffixEvents snapshot.runId range (after + 1) response.events

/-- `hydrateDiagnosticStateFromSnapshot`. -/
def hydrateDiagnosticStateFromSnapshot (snapshot : SnapshotResponse Summary)
    (suffix : List CommittedEvent) (previous : Option (DiagnosticState Live View)) :
    Except ThrownError (DiagnosticState Live View) :=
  match R.hydrateLive snapshot suffix with
  | .error error => .error error
  | .ok live =>
    .ok {
      runId := snapshot.runId
      cursor := ⟨snapshot.watermarkSequence, snapshot.watermarkSequence⟩
      deliveryIssue := none
      live
      view := R.hydrateView snapshot previous }

/-- `stateFromSnapshotWindow`, after the window was fetched with its checks. -/
def stateFromSnapshotWindow (snapshot : SnapshotResponse Summary) (suffix : EventsResponse)
    (previous : Option (DiagnosticState Live View)) :
    Except ThrownError (DiagnosticState Live View) :=
  if previous.any fun state => state.runId ≠ snapshot.runId then
    .error (.transport "identity" "cannot rebase state across Runs")
  else if previous.any fun state => snapshot.watermarkSequence < state.cursor.deliveredThrough then
    .error (.transport "protocol" "server snapshot watermark moved behind the delivered cursor")
  else hydrateDiagnosticStateFromSnapshot R snapshot suffix.events previous

end Diagnostics

/-! ## Statuses and frames -/

/-- `ProductionLifecycle`: its state, and the outcome of a failed run. -/
inductive LifecycleState where
  | active
  | completed
  | failed (cancelled : Bool)
  | incomplete
deriving DecidableEq

/-- `DiagnosticStatus`. -/
structure DiagnosticStatus where
  runId : CanonicalUuid
  eventSchemaVersion : Nat
  archive : Bool
  lifecycle : LifecycleState

/-- `DiagnosticBootstrap`: the identity of the server, its status and whether the versions allow
the interactive mode. -/
structure DiagnosticBootstrap where
  identityRunId : CanonicalUuid
  identityEventSchemaVersion : Nat
  interactive : Bool
  status : DiagnosticStatus

/-- The checks of `fetchDiagnosticStatus`. -/
def checkStatus (bootstrap : DiagnosticBootstrap) (status : DiagnosticStatus) :
    Except ThrownError Unit :=
  if status.runId ≠ bootstrap.identityRunId then
    .error (.transport "identity" "status belongs to another Run")
  else if status.eventSchemaVersion ≠ bootstrap.identityEventSchemaVersion then
    .error (.transport "identity" "status event schema differs from server identity")
  else .ok ()

/-- `RunOutcome`. -/
inductive RunOutcome where
  | running
  | completed
  | failed
  | cancelled
  | incomplete
deriving DecidableEq

/-- `outcomeFromStatus`. -/
def outcomeFromStatus (status : DiagnosticStatus) : RunOutcome :=
  match status.lifecycle with
  | .active => .running
  | .completed => .completed
  | .incomplete => .incomplete
  | .failed cancelled => if cancelled then .cancelled else .failed

/-- The control frames of `DecodedSseFrame`. -/
inductive SseControl where
  | streamReady (resumeAfter replayThrough : Nat)
  | heartbeat (committedWatermark : Nat)
  | deliveryGap (reason : String) (committedWatermark : Nat)
  | resyncRequired (reason : String) (committedWatermark : Nat)
  | streamClosed (reason : String) (committedWatermark : Nat)
deriving DecidableEq

/-- `DecodedSseFrame`. -/
inductive DecodedSseFrame where
  | event (event : CommittedEvent)
  | control (runId : CanonicalUuid) (control : SseControl)

/-- What a stream calls the controller with. -/
inductive Callback where
  | opened
  | errored
  | frame (frame : DecodedSseFrame)
  /-- A frame that does not decode. -/
  | protocolError (error : ThrownError)

/-! ## The controller -/

/-- `LiveConnectionPhase`. -/
inductive LiveConnectionPhase where
  | idle
  | bootstrapping
  | compatibility
  | snapshot
  | connecting
  | live
  | reconnecting
  | resyncing
  | archive
  | closed
  | failed
  | stopped
deriving DecidableEq

/-- `isTerminal`, of a phase. -/
def LiveConnectionPhase.isTerminal : LiveConnectionPhase → Bool
  | .archive | .closed | .failed | .stopped | .compatibility => true
  | _ => false

/-- `ShellConnection`. -/
inductive ShellConnection where
  | connected
  | reconnecting
  | offline
  | archive
deriving DecidableEq

/-- `LiveSecurityState`; the scope is set exactly in `trustedNetwork`. -/
inductive LiveSecurityState where
  | unknown
  | trustedNetwork
  | unsupported
deriving DecidableEq

/-- `LiveDiagnosticsState`. -/
structure LiveDiagnosticsState (Summary Live View : Type) where
  phase : LiveConnectionPhase
  connection : ShellConnection
  security : LiveSecurityState
  outcome : Option RunOutcome
  bootstrap : Option DiagnosticBootstrap
  status : Option DiagnosticStatus
  snapshot : Option (SnapshotResponse Summary)
  diagnostics : Option (DiagnosticState Live View)
  terminalReason : Option String
  error : Option LiveControllerError

/-- An `EventSource` with the closure `openStream` gave it. -/
structure EventStream where
  generation : Nat
  closed : Bool
deriving DecidableEq

/-- The await an operation of `trackOperation` is at. -/
inductive Operation (Summary : Type) where
  | resyncStatus (generation : Nat) (bootstrap : DiagnosticBootstrap)
  | resyncSnapshot (generation : Nat) (bootstrap : DiagnosticBootstrap)
      (status : DiagnosticStatus)
  | resyncSuffix (generation : Nat) (bootstrap : DiagnosticBootstrap) (status : DiagnosticStatus)
      (snapshot : SnapshotResponse Summary)
  | refreshStatus (bootstrap : DiagnosticBootstrap)
  | settled

/-- The await `start` is at. -/
inductive StartStage (Summary : Type) where
  | uncalled
  | bootstrapping
  | snapshot (bootstrap : DiagnosticBootstrap)
  | suffix (bootstrap : DiagnosticBootstrap) (snapshot : SnapshotResponse Summary)
  | returned

/-- `LiveDiagnosticsController`. -/
structure Controller (Summary Live View : Type) where
  current : LiveDiagnosticsState Summary Live View
  stream : Option Nat
  generation : Nat
  readySeen : Bool
  expectedResume : Option Nat
  pendingOperation : Option Nat
  stopped : Bool
  streams : List EventStream
  operations : List (Operation Summary)
  start : StartStage Summary

/-- A response, or what its request threw. -/
inductive Response (Summary : Type) where
  | threw (error : ThrownError)
  | bootstrap (bootstrap : DiagnosticBootstrap)
  | status (status : DiagnosticStatus)
  | snapshot (snapshot : SnapshotResponse Summary)
  | events (events : EventsResponse)

namespace Controller

variable {Summary Live View : Type} (R : Reducers Summary Live View)

/-- `INITIAL_STATE`, in a new controller. -/
def new : Controller Summary Live View where
  current := {
    phase := .idle
    connection := .offline
    security := .unknown
    outcome := none
    bootstrap := none
    status := none
    snapshot := none
    diagnostics := none
    terminalReason := none
    error := none }
  stream := none
  generation := 0
  readySeen := false
  expectedResume := none
  pendingOperation := none
  stopped := false
  streams := []
  operations := []
  start := .uncalled

/-- `closeStream`. -/
def closeStream (c : Controller Summary Live View) : Controller Summary Live View :=
  { c with
    streams := match c.stream with
      | none => c.streams
      | some k => c.streams.modify k fun stream => { stream with closed := true }
    stream := none
    readySeen := false
    expectedResume := none }

/-- `activeGeneration`. -/
def activeGeneration (c : Controller Summary Live View) (generation : Nat) : Bool :=
  !c.stopped && generation == c.generation

/-- `isTerminal`. -/
def isTerminal (c : Controller Summary Live View) : Bool := c.current.phase.isTerminal

/-- `fail`. -/
def fail (c : Controller Summary Live View) (error : ThrownError) : Controller Summary Live View :=
  if c.stopped then c
  else
    let c := closeStream { c with generation := c.generation + 1 }
    { c with
      current := { c.current with
        phase := .failed
        connection := .offline
        security := if isSecurityFailure error then .unsupported else c.current.security
        error := some (errorState error) } }

/-- `stop`. -/
def stop (c : Controller Summary Live View) : Controller Summary Live View :=
  if c.stopped then c
  else
    let c := closeStream { c with stopped := true, generation := c.generation + 1 }
    { c with current := { c.current with phase := .stopped, connection := .offline } }

/-- `openStream`, with what the `EventSource` constructor throws. -/
def openStream (c : Controller Summary Live View) (after : Nat) (constructor : Option ThrownError) :
    Controller Summary Live View × Option ThrownError :=
  match c.current.bootstrap with
  | none => (c, some (.transport "protocol" "cannot open SSE before bootstrap"))
  | some _ =>
    let c := { c with
      generation := c.generation + 1
      readySeen := false
      expectedResume := some after }
    match constructor with
    | some error => (c, some error)
    | none =>
      ({ c with
        stream := some c.streams.length
        streams := c.streams ++ [⟨c.generation, false⟩] }, none)

/-- The catch of an operation that runs for a generation. -/
def failActive (c : Controller Summary Live View) (generation : Nat) (error : ThrownError) :
    Controller Summary Live View :=
  if c.activeGeneration generation then c.fail error else c

/-- The `finally` of `trackOperation`. -/
def settle (c : Controller Summary Live View) (i : Nat) : Controller Summary Live View :=
  { c with
    operations := c.operations.set i .settled
    pendingOperation := if c.pendingOperation = some i then none else c.pendingOperation }

/-- `trackOperation`, of an operation that has run to its first await. -/
def trackOperation (c : Controller Summary Live View) (operation : Operation Summary) :
    Controller Summary Live View :=
  { c with
    operations := c.operations ++ [operation]
    pendingOperation := some c.operations.length }

/-- `beginResync`, with `resynchronize` up to its first await. The operation of a controller without
bootstrap has ended before it is tracked. -/
def beginResync (c : Controller Summary Live View) : Controller Summary Live View :=
  if c.stopped || c.pendingOperation.isSome || c.isTerminal then c
  else
    let c := closeStream { c with generation := c.generation + 1 }
    let c := { c with
      current := { c.current with
        phase := .resyncing, connection := .reconnecting, error := none } }
    match c.current.bootstrap with
    | none => c.failActive c.generation (.transport "protocol" "cannot resync before bootstrap")
    | some bootstrap => c.trackOperation (.resyncStatus c.generation bootstrap)

/-- `commitDiagnostic`. -/
def commitDiagnostic (c : Controller Summary Live View) (next : DiagnosticState Live View) :
    Controller Summary Live View :=
  { c with current := { c.current with diagnostics := some next } }

/-- `observeWatermark`, of a controller with this state. -/
def observeWatermark (c : Controller Summary Live View) (diagnostics : DiagnosticState Live View)
    (watermark : Nat) : Controller Summary Live View :=
  c.commitDiagnostic (watermarkObserved R diagnostics watermark)

/-- `handleReady`. -/
def handleReady (c : Controller Summary Live View) (diagnostics : DiagnosticState Live View)
    (resumeAfter replayThrough : Nat) : Controller Summary Live View :=
  if c.readySeen then c.fail (.transport "protocol" "duplicate stream_ready control")
  else if c.expectedResume ≠ some resumeAfter ∨
      replayThrough < diagnostics.cursor.committedWatermark then
    c.beginResync
  else
    { c with
      readySeen := true
      current := { c.current with
        diagnostics := some (watermarkObserved R diagnostics replayThrough)
        phase := .live
        connection := .connected
        error := none } }

/-- `handleClosed`, with `refreshTerminalStatus` up to its await. -/
def handleClosed (c : Controller Summary Live View) (diagnostics : DiagnosticState Live View)
    (reason : String) (watermark : Nat) : Controller Summary Live View :=
  let c := closeStream { c with generation := c.generation + 1 }
  let c := { c with
    current := { c.current with
      diagnostics := some (watermarkObserved R diagnostics watermark)
      phase := .closed
      connection := .offline
      terminalReason := some reason
      error := none } }
  match c.current.bootstrap with
  | none => c
  | some bootstrap => c.trackOperation (.refreshStatus bootstrap)

/-- The arm for events of `handleFrame`. -/
def handleEvent (c : Controller Summary Live View) (diagnostics : DiagnosticState Live View)
    (event : CommittedEvent) : Controller Summary Live View :=
  if !c.readySeen then c.fail (.transport "protocol" "event arrived before stream_ready")
  else if event.runId ≠ diagnostics.runId then
    c.fail (.transport "identity" "SSE event belongs to another Run")
  else
    match receiveEvent R diagnostics event with
    | none => c
    | some next =>
      let c := c.commitDiagnostic next
      if next.deliveryIssue.isSome then c.beginResync else c

/-- The arms for controls of `handleFrame`. -/
def handleControl (c : Controller Summary Live View) (diagnostics : DiagnosticState Live View)
    (runId : CanonicalUuid) (control : SseControl) : Controller Summary Live View :=
  if runId ≠ diagnostics.runId then
    c.fail (.transport "identity" "SSE control belongs to another Run")
  else
    match control with
    | .streamReady resumeAfter replayThrough =>
      c.handleReady R diagnostics resumeAfter replayThrough
    | .heartbeat watermark =>
      if !c.readySeen then c.fail (.transport "protocol" "control arrived before stream_ready")
      else c.observeWatermark R diagnostics watermark
    | .deliveryGap _ watermark => (c.observeWatermark R diagnostics watermark).beginResync
    | .resyncRequired _ watermark => (c.observeWatermark R diagnostics watermark).beginResync
    | .streamClosed reason watermark => c.handleClosed R diagnostics reason watermark

/-- `handleFrame`. Without diagnostics `requireState` throws into the event target. -/
def handleFrame (c : Controller Summary Live View) (frame : DecodedSseFrame) :
    Controller Summary Live View :=
  match c.current.diagnostics with
  | none => c
  | some diagnostics =>
    match frame with
    | .event event => c.handleEvent R diagnostics event
    | .control runId control => c.handleControl R diagnostics runId control

/-- The body of `onOpen` and of `onError`, which set these phases. -/
def awaitReady (c : Controller Summary Live View) (phase : LiveConnectionPhase) :
    Controller Summary Live View :=
  let c := { c with readySeen := false }
  match c.current.diagnostics with
  | none => c
  | some diagnostics =>
    { c with
      expectedResume := some diagnostics.cursor.deliveredThrough
      current := { c.current with phase, connection := .reconnecting, error := none } }

/-- A callback of a stream: the listeners of `openDiagnosticEventStream`, then the closures of
`openStream`. -/
def onCallback (c : Controller Summary Live View) (k : Nat) (callback : Callback) :
    Controller Summary Live View :=
  match c.streams[k]? with
  | none => c
  | some stream =>
    if stream.closed || !c.activeGeneration stream.generation then c
    else
      match callback with
      | .opened =>
        c.awaitReady (if c.current.phase = .connecting then .connecting else .reconnecting)
      | .frame frame => c.handleFrame R frame
      | .errored => if c.isTerminal then c else c.awaitReady .reconnecting
      | .protocolError error => c.fail error

/-! ### Asynchronous operations -/

/-- What `start` and `resynchronize` do with a fetched window: the phase depends on the status, and
a run that is going on is followed. -/
def enterWindow (c : Controller Summary Live View) (status : DiagnosticStatus)
    (snapshot : SnapshotResponse Summary) (diagnostics : DiagnosticState Live View)
    (constructor : Option ThrownError) : Controller Summary Live View × Option ThrownError :=
  let entered (phase : LiveConnectionPhase) (connection : ShellConnection) :
      Controller Summary Live View :=
    { c with current := { c.current with
        snapshot := some snapshot, diagnostics := some diagnostics, phase, connection } }
  if status.archive then (entered .archive .archive, none)
  else if status.lifecycle ≠ .active then (entered .closed .offline, none)
  else (entered .connecting .reconnecting).openStream snapshot.watermarkSequence constructor

/-- The fields `resynchronize` and `refreshTerminalStatus` update with a new status. -/
def updateStatus (c : Controller Summary Live View) (bootstrap : DiagnosticBootstrap)
    (status : DiagnosticStatus) : Controller Summary Live View :=
  { c with current := { c.current with
      bootstrap := some { bootstrap with status }
      status := some status
      outcome := some (outcomeFromStatus status) } }

/-- The part of `resynchronize` after its last await. -/
def finishResync (c : Controller Summary Live View) (generation : Nat)
    (bootstrap : DiagnosticBootstrap) (status : DiagnosticStatus)
    (snapshot : SnapshotResponse Summary) (suffix : EventsResponse)
    (constructor : Option ThrownError) : Controller Summary Live View :=
  if !c.activeGeneration generation then c
  else
    match c.current.diagnostics with
    | none => c.fail (.transport "protocol" "diagnostic state is not initialized")
    | some previous =>
      match stateFromSnapshotWindow R snapshot suffix (some previous) with
      | .error error => c.fail error
      | .ok diagnostics =>
        match (c.updateStatus bootstrap status).enterWindow status snapshot diagnostics
          constructor with
        | (c, none) => c
        | (c, some error) => c.failActive generation error

/-- An operation goes on with a response. -/
def onResponse (c : Controller Summary Live View) (i : Nat) (response : Response Summary)
    (constructor : Option ThrownError) : Controller Summary Live View :=
  match c.operations[i]?, response with
  | some (.resyncStatus generation bootstrap), .status status =>
    match checkStatus bootstrap status with
    | .error error => (c.failActive generation error).settle i
    | .ok _ =>
      { c with operations := c.operations.set i (.resyncSnapshot generation bootstrap status) }
  | some (.resyncSnapshot generation bootstrap status), .snapshot snapshot =>
    if snapshot.runId ≠ bootstrap.identityRunId then
      (c.failActive generation
        (.transport "identity" "snapshot belongs to another Run")).settle i
    else
      { c with
        operations := c.operations.set i (.resyncSuffix generation bootstrap status snapshot) }
  | some (.resyncSuffix generation bootstrap status snapshot), .events suffix =>
    match checkSnapshotSuffix snapshot suffix with
    | .error error => (c.failActive generation error).settle i
    | .ok _ =>
      (c.finishResync R generation bootstrap status snapshot suffix constructor).settle i
  | some (.refreshStatus bootstrap), .status status =>
    match checkStatus bootstrap status with
    | .error _ => c.settle i
    | .ok _ =>
      if c.stopped || c.current.phase ≠ .closed then c.settle i
      else (c.updateStatus bootstrap status).settle i
  | some (.resyncStatus generation _), .threw error
  | some (.resyncSnapshot generation _ _), .threw error
  | some (.resyncSuffix generation _ _ _), .threw error => (c.failActive generation error).settle i
  | some (.refreshStatus _), .threw _ => c.settle i
  | _, _ => c

/-- A call of `start`, up to its first await. -/
def callStart (c : Controller Summary Live View) : Controller Summary Live View :=
  if c.current.phase ≠ .idle then c
  else
    { c with
      start := .bootstrapping
      current := { c.current with
        phase := .bootstrapping, connection := .reconnecting, error := none } }

/-- `start` goes on with a response. -/
def onStartResponse (c : Controller Summary Live View) (response : Response Summary)
    (constructor : Option ThrownError) : Controller Summary Live View :=
  let returned := { c with start := .returned }
  match c.start, response with
  | .bootstrapping, .bootstrap bootstrap =>
    if c.stopped then returned
    else
      let shell := { c.current with
        bootstrap := some bootstrap
        status := some bootstrap.status
        security := .trustedNetwork
        outcome := some (outcomeFromStatus bootstrap.status) }
      if !bootstrap.interactive then
        { returned with current := { shell with phase := .compatibility, connection := .offline } }
      else
        { c with
          start := .snapshot bootstrap
          current := { shell with phase := .snapshot, connection := .reconnecting } }
  | .snapshot bootstrap, .snapshot snapshot =>
    if snapshot.runId ≠ bootstrap.identityRunId then
      returned.fail (.transport "identity" "snapshot belongs to another Run")
    else { c with start := .suffix bootstrap snapshot }
  | .suffix bootstrap snapshot, .events suffix =>
    match checkSnapshotSuffix snapshot suffix with
    | .error error => returned.fail error
    | .ok _ =>
      if c.stopped then returned
      else
        match stateFromSnapshotWindow R snapshot suffix none with
        | .error error => returned.fail error
        | .ok diagnostics =>
          match returned.enterWindow bootstrap.status snapshot diagnostics constructor with
          | (c, none) => c
          | (c, some error) => c.fail error
  | .bootstrapping, .threw error
  | .snapshot _, .threw error
  | .suffix _ _, .threw error => returned.fail error
  | _, _ => c

/-- `pause`, `resume` and the actions on the presentation: they read the state and change what
`view` stands for. -/
def present (c : Controller Summary Live View) (change : DiagnosticState Live View → View) :
    Controller Summary Live View :=
  match c.current.diagnostics with
  | none => c
  | some diagnostics => c.commitDiagnostic { diagnostics with view := change diagnostics }

end Controller

/-! ## Runs -/

/-- The controller, and for each stream the frames since its last `open` or `error`. -/
structure World (Summary Live View : Type) where
  controller : Controller Summary Live View
  heard : Nat → List DecodedSseFrame

/-- What can happen next. -/
inductive Action (Summary Live View : Type) where
  | start
  | startResponse (response : Response Summary) (constructor : Option ThrownError)
  | callback (k : Nat) (callback : Callback)
  | response (i : Nat) (response : Response Summary) (constructor : Option ThrownError)
  | present (change : DiagnosticState Live View → View)
  | stop

section Runs

variable {Summary Live View : Type} (R : Reducers Summary Live View) {runId : CanonicalUuid}

/-- What a stream has heard after a callback. -/
def hear (heard : List DecodedSseFrame) : Callback → List DecodedSseFrame
  | .frame frame => heard ++ [frame]
  | .opened | .errored => []
  | .protocolError _ => heard

/-- One step. -/
def World.step (w : World Summary Live View) : Action Summary Live View → World Summary Live View
  | .start => { w with controller := w.controller.callStart }
  | .startResponse response constructor =>
    { w with controller := w.controller.onStartResponse R response constructor }
  | .callback k callback =>
    { controller := w.controller.onCallback R k callback
      heard := Function.update w.heard k (hear (w.heard k) callback) }
  | .response i response constructor =>
    { w with controller := w.controller.onResponse R i response constructor }
  | .present change => { w with controller := w.controller.present change }
  | .stop => { w with controller := w.controller.stop }

/-- A response whose content is of the log. -/
def Response.FromLog (log : CommittedLog runId) : Response Summary → Prop
  | .snapshot given =>
    given.runId = runId ∧ given.watermarkSequence ≤ log.events.length ∧
      given.state = R.summarize (log.events.take given.watermarkSequence)
  | .events given => ∀ event ∈ given.events, event.runId = runId → event ∈ log.events
  | _ => True

/-- An action whose content is of the log. -/
def Action.FromLog (log : CommittedLog runId) : Action Summary Live View → Prop
  | .startResponse given _ => given.FromLog R log
  | .response _ given _ => given.FromLog R log
  | .callback _ (.frame (.event event)) => event.runId = runId → event ∈ log.events
  | _ => True

/-- A step with content of the log. -/
def LiveStep (log : CommittedLog runId) (w w' : World Summary Live View) : Prop :=
  ∃ action, action.FromLog R log ∧ w.step R action = w'

/-- A page that has just been loaded. -/
def World.new : World Summary Live View := ⟨.new, fun _ => []⟩

end Runs

end Troupe.Web
