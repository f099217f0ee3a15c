import Troupe.Server.Subscriber
import Troupe.Server.Tail

/-! # Replay sessions

`replay.rs`: a session replays the committed events after a cursor from the store, page by page, and
then follows the commit tail, again reading pages from the store. The methods of `ReplaySession` are
functions here; the loops that call them (`drive`, `drive_replay`, `drive_live_range` and the
`for` loops over a page) are the stages of `Server.Handoff`, since other parties run between two
iterations.

* `CommittedLog` is the store: the events of one run, sequences `1, 2, …`.
* `SseSender` keeps, next to the subscriber, the list of what was placed in it. The list is for the
  statements; no function reads it.
* `listener` is the tail state the session last read. -/

namespace Troupe.Server

open Troupe.Lib Troupe.Core

/-! ## The store -/

/-- The committed events of a run. -/
structure CommittedLog (runId : CanonicalUuid) where
  events : List CommittedEvent
  /-- Sequences start at one and have no gap. -/
  dense : events.map (·.sequence.get) = List.range' 1 events.length
  /-- Every event is of the run. -/
  sameRun : ∀ event ∈ events, event.runId = runId

namespace CommittedLog

variable {runId : CanonicalUuid}

theorem sequence_get (log : CommittedLog runId) {i : Nat} {event : CommittedEvent}
    (h : log.events[i]? = some event) : event.sequence.get = i + 1 := by
  have hmap : (log.events.map (·.sequence.get))[i]? = some event.sequence.get := by
    rw [List.getElem?_map, h, Option.map_some]
  rw [log.dense] at hmap
  obtain ⟨hlt, hvalue⟩ := List.getElem?_eq_some_iff.mp hmap
  rw [List.getElem_range'] at hvalue
  omega

theorem length_le (log : CommittedLog runId) : log.events.length ≤ u64Max := by
  cases hlast : log.events.getLast? with
  | none => simp [List.getLast?_eq_none_iff.mp hlast]
  | some event =>
    rw [List.getLast?_eq_getElem?] at hlast
    have hsequence := log.sequence_get hlast
    have hle := event.sequence.le_max
    omega

/-- The events after a position come one by one. -/
theorem next_of_prefix (log : CommittedLog runId) {n : Nat} {event : CommittedEvent}
    {rest : List CommittedEvent} (h : event :: rest <+: log.events.drop n) :
    log.events[n]? = some event ∧ event.sequence.get = n + 1 ∧ event.runId = runId ∧
      rest <+: log.events.drop (n + 1) := by
  obtain ⟨tail, htail⟩ := h
  have hget : log.events[n]? = some event := by
    rw [← List.head?_drop, ← htail]
    rfl
  refine ⟨hget, log.sequence_get hget, log.sameRun event (List.mem_of_getElem? hget), tail, ?_⟩
  rw [← List.drop_drop, ← htail]
  rfl

/-- `committed_watermark` of the store. -/
def watermark (log : CommittedLog runId) : SchemaU64 := ⟨log.events.length, log.length_le⟩

end CommittedLog

/-! ## Windows and pages -/

/-- `CAPTURED_EVENT_PAGE_SIZE`. -/
def capturedEventPageSize : Nat := 512

/-- `ReaderProfile`. -/
inductive ReaderProfile where
  | active
  | archive
deriving DecidableEq

/-- `ReplayErrorKind`, for the errors of the functions modelled here. -/
inductive ReplayErrorKind where
  | archiveFollowUnsupported
  | futureCursor
  | runIdentityMismatch
  | invalidRetainedRange
  | capturedHeadBehindRange
  | pageTooLarge
  | nonDensePage
  | unexpectedPage
  | incompleteReplay
  | invalidPhase
  | commitSignalInvalid
deriving DecidableEq

/-- `ReplayError`. -/
inductive ReplayError where
  | invalid (kind : ReplayErrorKind) (requested committedHead : Option SchemaU64)
  | reader
  | subscriber (error : SubscriberError)
deriving DecidableEq

/-- `ReplayError::invalid`. -/
def ReplayError.ofKind (kind : ReplayErrorKind) : ReplayError := .invalid kind none none

/-- `CapturedEventSource`: one read transaction on the store. Its rows come back in key order. -/
structure CapturedEventSource where
  profile : ReaderProfile
  runId : CanonicalUuid
  capturedWatermark : SchemaU64
  rows : List CommittedEvent

/-- `CapturedEventSource::read_event_page`: the rows after `after`, a page of them. -/
def CapturedEventSource.readEventPage (source : CapturedEventSource) (after : SchemaU64) :
    List CommittedEvent :=
  if source.capturedWatermark ≤ after then
    []
  else
    (source.rows.filter fun event =>
      after < event.sequence && event.sequence ≤ source.capturedWatermark).take
        capturedEventPageSize

/-- A capture of the active store (`DiagnosticReader::open_active` and `capture`). -/
def CommittedLog.capture {runId : CanonicalUuid} (log : CommittedLog runId) : CapturedEventSource :=
  ⟨.active, runId, log.watermark, log.events⟩

/-- `ReplayWindow`. -/
structure ReplayWindow where
  profile : ReaderProfile
  runId : CanonicalUuid
  committedHead : SchemaU64
  earliestAvailableSequence : Option SchemaU64
deriving DecidableEq

/-- `ReplayWindow::new`. -/
def ReplayWindow.new (profile : ReaderProfile) (runId : CanonicalUuid) (committedHead : SchemaU64)
    (earliestAvailableSequence : Option SchemaU64) : Except ReplayError ReplayWindow :=
  let retainedRangeValid := match earliestAvailableSequence with
    | none => committedHead.get == 0
    | some earliest =>
      committedHead.get != 0 && earliest.get != 0 && earliest.get ≤ committedHead.get
  if !retainedRangeValid then
    .error (.ofKind .invalidRetainedRange)
  else
    .ok ⟨profile, runId, committedHead, earliestAvailableSequence⟩

/-- `ReplayWindow::capture`. -/
def ReplayWindow.capture (source : CapturedEventSource) : Except ReplayError ReplayWindow :=
  ReplayWindow.new source.profile source.runId source.capturedWatermark
    (retainedEarliest source.capturedWatermark)

/-- `ReplayRange`. -/
structure ReplayRange where
  afterExclusive : SchemaU64
  throughInclusive : SchemaU64
deriving DecidableEq

/-- `ReplayRange::is_empty`. -/
def ReplayRange.isEmpty (range : ReplayRange) : Bool :=
  range.afterExclusive.get == range.throughInclusive.get

/-- `ReplayPage`. -/
structure ReplayPage where
  runId : CanonicalUuid
  range : ReplayRange
  events : List CommittedEvent

/-- The loop of `ReplayPage::new`: every event is of the run and the next expected one. -/
def validateDense (runId : CanonicalUuid) (through : SchemaU64) :
    Option Nat → List CommittedEvent → Except ReplayError Unit
  | _, [] => .ok ()
  | expected, event :: events =>
    if event.runId ≠ runId then
      .error (.ofKind .runIdentityMismatch)
    else if expected ≠ some event.sequence.get ∨ through < event.sequence then
      .error (.ofKind .nonDensePage)
    else
      validateDense runId through (checkedAdd u64Max event.sequence.get 1) events

/-- `ReplayPage::new`. -/
def ReplayPage.new (runId : CanonicalUuid) (range : ReplayRange) (events : List CommittedEvent) :
    Except ReplayError ReplayPage :=
  if capturedEventPageSize < events.length then
    .error (.ofKind .pageTooLarge)
  else do
    validateDense runId range.throughInclusive
      (checkedAdd u64Max range.afterExclusive.get 1) events
    if !range.isEmpty && events.isEmpty then
      .error (.ofKind .nonDensePage)
    else
      .ok ⟨runId, range, events⟩

/-- `ReplayPage::capture`. -/
def ReplayPage.capture (source : CapturedEventSource) (range : ReplayRange) :
    Except ReplayError ReplayPage :=
  if source.capturedWatermark < range.throughInclusive then
    .error (.ofKind .capturedHeadBehindRange)
  else
    let events :=
      if range.isEmpty then []
      else (source.readEventPage range.afterExclusive).takeWhile
        (·.sequence ≤ range.throughInclusive)
    ReplayPage.new source.runId range events

/-! ## Pages of a committed log -/

namespace CommittedLog

variable {runId : CanonicalUuid} {log : CommittedLog runId} {after : SchemaU64}

/-- A page of a log starts right after the position it was asked for. -/
theorem readEventPage_prefix (log : CommittedLog runId) (after : SchemaU64) :
    log.capture.readEventPage after =
      (log.events.drop after.get).take capturedEventPageSize := by
  have hlength : log.watermark.get = log.events.length := rfl
  unfold CapturedEventSource.readEventPage capture
  simp only
  split
  next hbehind =>
    rw [SchemaU64.le_def, hlength] at hbehind
    rw [List.drop_eq_nil_of_le hbehind, List.take_nil]
  next hahead =>
    have hbefore : (log.events.take after.get).filter (fun event =>
        after < event.sequence && event.sequence ≤ log.watermark) = [] := by
      rw [List.filter_eq_nil_iff]
      intro event hevent
      obtain ⟨i, hi, hget⟩ := List.mem_take_iff_getElem.mp hevent
      have hsequence := log.sequence_get (List.getElem?_eq_some_iff.mpr ⟨by omega, hget⟩)
      simp only [Bool.and_eq_true, decide_eq_true_eq, SchemaU64.lt_def, not_and]
      intro hlt
      omega
    have hafter : (log.events.drop after.get).filter (fun event =>
        after < event.sequence && event.sequence ≤ log.watermark) =
          log.events.drop after.get := by
      rw [List.filter_eq_self]
      intro event hevent
      obtain ⟨i, hi, hget⟩ := List.mem_drop_iff_getElem.mp hevent
      have hsequence := log.sequence_get (List.getElem?_eq_some_iff.mpr ⟨by omega, hget⟩)
      simp only [Bool.and_eq_true, decide_eq_true_eq, SchemaU64.lt_def, SchemaU64.le_def, hlength]
      omega
    conv_lhs => rw [← List.take_append_drop after.get log.events]
    rw [List.filter_append, hbefore, hafter, List.nil_append]

/-- Events in sequence pass the density check. -/
theorem validateDense_ok (log : CommittedLog runId) {through : SchemaU64}
    {events : List CommittedEvent} {n : Nat} (h : events <+: log.events.drop n) (hthrough : ∀ event ∈ events, event.sequence ≤ through) :
    validateDense runId through (checkedAdd u64Max n 1) events = .ok () := by
  induction events generalizing n with
  | nil => rfl
  | cons event events ih =>
    obtain ⟨-, hsequence, hrun, hrest⟩ := log.next_of_prefix h
    have hle := event.sequence.le_max
    have hexpected : checkedAdd u64Max n 1 = some event.sequence.get :=
      checkedAdd_eq_some.mpr ⟨by omega, hsequence⟩
    have hwithin : ¬through < event.sequence := by
      have := hthrough event List.mem_cons_self
      rw [SchemaU64.le_def] at this
      rw [SchemaU64.lt_def]
      omega
    unfold validateDense
    rw [if_neg (by simpa using hrun), if_neg (by simp [hexpected, hwithin]), hsequence]
    exact ih hrest fun event hevent => hthrough event (List.mem_cons_of_mem _ hevent)

/-- Events after position `n` that reach no further than `through` are no more than the distance. -/
theorem length_le_of_prefix {through : SchemaU64} {events : List CommittedEvent} {n : Nat}
    (h : events <+: log.events.drop n) (hthrough : ∀ event ∈ events, event.sequence ≤ through)
    (hn : n ≤ through.get) : n + events.length ≤ through.get := by
  induction events generalizing n with
  | nil => exact hn
  | cons event events ih =>
    obtain ⟨-, hsequence, -, hrest⟩ := log.next_of_prefix h
    have hevent := hthrough event List.mem_cons_self
    rw [SchemaU64.le_def] at hevent
    have := ih hrest (fun event hevent => hthrough event (List.mem_cons_of_mem _ hevent)) (by omega)
    simp only [List.length_cons]
    omega

/-- A page of a log is the next events, and as many of them as stay in the range. -/
theorem capturePage_ok (log : CommittedLog runId) {range : ReplayRange}
    (hrange : range.afterExclusive.get < range.throughInclusive.get)
    (hthrough : range.throughInclusive.get ≤ log.events.length) :
    ∃ events, ReplayPage.capture log.capture range = .ok ⟨runId, range, events⟩ ∧
      events <+: log.events.drop range.afterExclusive.get ∧
      range.afterExclusive.get + events.length ≤ range.throughInclusive.get := by
  have hnonempty : range.isEmpty = false := by
    simp only [ReplayRange.isEmpty, beq_eq_false_iff_ne]
    omega
  let page := (log.events.drop range.afterExclusive.get).take capturedEventPageSize
  let events := page.takeWhile (·.sequence ≤ range.throughInclusive)
  have hprefix : events <+: log.events.drop range.afterExclusive.get :=
    (List.takeWhile_prefix _).trans (List.take_prefix _ _)
  have hwithin : ∀ event ∈ events, event.sequence ≤ range.throughInclusive := by
    intro event hevent
    have hall : events.all (·.sequence ≤ range.throughInclusive) = true := List.all_takeWhile
    simpa using List.all_eq_true.mp hall event hevent
  refine ⟨events, ?_, hprefix, length_le_of_prefix hprefix hwithin (by omega)⟩
  have hsome : events ≠ [] := by
    cases hdrop : log.events.drop range.afterExclusive.get with
    | nil =>
      have := List.drop_eq_nil_iff.mp hdrop
      omega
    | cons event rest =>
      have hfirst : event :: rest <+: log.events.drop range.afterExclusive.get :=
        hdrop ▸ List.prefix_rfl
      obtain ⟨-, hsequence, -, -⟩ := log.next_of_prefix hfirst
      have hle : event.sequence ≤ range.throughInclusive := by
        rw [SchemaU64.le_def]
        omega
      simp [events, page, hdrop, capturedEventPageSize, hle]
  have hsize : ¬capturedEventPageSize < events.length := by
    have hpage : page.length ≤ capturedEventPageSize := List.length_take_le _ _
    have hevents : events.length ≤ page.length := (List.takeWhile_prefix _).length_le
    omega
  have hhead : ¬log.capture.capturedWatermark < range.throughInclusive := by
    rw [SchemaU64.lt_def, Nat.not_lt]
    exact hthrough
  have hdense := log.validateDense_ok hprefix hwithin
  have hnew : ReplayPage.new runId range events = .ok ⟨runId, range, events⟩ := by
    unfold ReplayPage.new
    rw [if_neg hsize, hdense]
    simp [bind, Except.bind, hsome]
  unfold ReplayPage.capture
  rw [if_neg hhead, readEventPage_prefix]
  simp only [hnonempty]
  exact hnew

end CommittedLog

/-! ## The sender -/

/-- What a sender placed in the subscriber: an event's frame, or the terminal one. -/
inductive Placed where
  | event (event : CommittedEvent)
  | terminal (frame : SseFrame)

/-- `SseSender`, with what it has placed. -/
structure SseSender where
  shared : SubscriberShared
  placed : List Placed

namespace SseSender

/-- The terminal frame a call placed, if it did. -/
def terminalPlaced (before after : SubscriberShared) : List Placed :=
  if before.state.accepting && !after.state.accepting then
    after.state.terminal.toList.map .terminal
  else
    []

/-- The sender after a call of one of its methods. -/
def record (sender : SseSender) (shared : SubscriberShared) (events : List Placed) : SseSender :=
  { shared, placed := sender.placed ++ events ++ terminalPlaced sender.shared shared }

/-- An attempt of `try_send_event` or `send_replay_event`. -/
def sendEvent (sender : SseSender) (event : CommittedEvent) (committedWatermark : SchemaU64)
    (mode : SendMode) : Except SubscriberError (EnqueueAttempt × SseSender) := do
  let (attempt, shared) ← sender.shared.sendEvent event committedWatermark mode
  .ok (attempt, sender.record shared
    (if attempt = .complete .enqueued then [.event event] else []))

/-- `SseSender::try_send_heartbeat`. -/
def trySendHeartbeat (sender : SseSender) (committedWatermark : SchemaU64) :
    Except SubscriberError (DeliveryStatus × SseSender) := do
  let (status, shared) ← sender.shared.trySendHeartbeat committedWatermark
  .ok (status, sender.record shared [])

/-- `SseSender::close`. -/
def close (sender : SseSender) (reason : String) (committedWatermark : SchemaU64) :
    Except SubscriberError (DeliveryStatus × SseSender) := do
  let (status, shared) ← sender.shared.close reason committedWatermark
  .ok (status, sender.record shared [])

/-- `SseSender::resync_required`. -/
def resyncRequired (sender : SseSender) (reason : String) (committedWatermark : SchemaU64)
    (earliestAvailableSequence : Option SchemaU64) :
    Except SubscriberError (DeliveryStatus × SseSender) := do
  let (status, shared) ← sender.shared.resyncRequired reason committedWatermark
    earliestAvailableSequence
  .ok (status, sender.record shared [])

end SseSender

/-! ## Sessions -/

/-- `EffectiveCursor`, without the place it was read from. -/
structure EffectiveCursor where
  value : SchemaU64
deriving DecidableEq

/-- `EffectiveCursor::is_recoverable_from`. -/
def EffectiveCursor.isRecoverableFrom (cursor : EffectiveCursor) : Option SchemaU64 → Bool
  | none => cursor.value.get == 0
  | some earliest => earliest.get ≤ saturatingAdd u64Max cursor.value.get 1

/-- `ReplayPhase`. -/
inductive ReplayPhase where
  | replaying
  | live
  | closed
deriving DecidableEq

/-- `ReplaySession`. -/
structure ReplaySession where
  runId : CanonicalUuid
  earliestAvailableSequence : Option SchemaU64
  replayThrough : SchemaU64
  ingestedThrough : SchemaU64
  sender : SseSender
  listener : CommitTailState
  phase : ReplayPhase

/-- `ReplayStart`. -/
inductive ReplayStart where
  | ready (session : ReplaySession)
  | resync (body : SubscriberShared)

/-- `ReplayCoordinator::begin`, after it has subscribed and captured the window. -/
def begin (limits : SubscriberLimits) (cursor : EffectiveCursor) (window : ReplayWindow)
    (tailState : CommitTailState) : Except ReplayError ReplayStart :=
  if window.profile = .archive then
    .error (.ofKind .archiveFollowUnsupported)
  else if window.runId ≠ tailState.runId then
    .error (.ofKind .runIdentityMismatch)
  else if tailState.status.isInvalid then
    .error (.ofKind .commitSignalInvalid)
  else if window.committedHead < cursor.value then
    .error (.invalid .futureCursor (some cursor.value) (some window.committedHead))
  else if !cursor.isRecoverableFrom window.earliestAvailableSequence then do
    let body ← (resyncBody window.runId cursorUnavailableReason window.committedHead
      window.earliestAvailableSequence).mapError .subscriber
    .ok (.resync body)
  else do
    let shared ← (openSubscriber window.runId cursor.value window.committedHead limits).mapError
      .subscriber
    .ok (.ready
      { runId := window.runId
        earliestAvailableSequence := window.earliestAvailableSequence
        replayThrough := window.committedHead
        ingestedThrough := cursor.value
        sender := { shared, placed := [] }
        listener := tailState
        phase := .replaying })

/-- What sending one event of a page led to. -/
inductive PushOutcome where
  | waiting
  | continued
  | stopped
deriving DecidableEq

namespace ReplaySession

/-- `ReplaySession::replay_range`. -/
def replayRange (session : ReplaySession) : ReplayRange :=
  ⟨session.ingestedThrough, session.replayThrough⟩

/-- `ReplaySession::validate_page`. -/
def validatePage (session : ReplaySession) (page : ReplayPage) (maximumThrough : SchemaU64)
    (expectedPhase : ReplayPhase) : Except ReplayError Unit :=
  if session.phase ≠ expectedPhase then
    .error (.ofKind .invalidPhase)
  else if page.runId ≠ session.runId then
    .error (.ofKind .runIdentityMismatch)
  else if page.range.afterExclusive ≠ session.ingestedThrough ∨
      maximumThrough < page.range.throughInclusive then
    .error (.ofKind .unexpectedPage)
  else
    .ok ()

/-- One iteration of the loops of `push_replay_page` and `push_live_page`. -/
def pushEvent (session : ReplaySession) (event : CommittedEvent) (committedWatermark : SchemaU64)
    (mode : SendMode) : Except (Fault ReplayError) (PushOutcome × ReplaySession) :=
  match session.sender.sendEvent event committedWatermark mode with
  | .error error => .error (.raised (.subscriber error))
  | .ok (attempt, sender) =>
    let session := { session with sender }
    match attempt with
    | .wait => .ok (.waiting, session)
    | .complete .enqueued =>
      .ok (.continued, { session with ingestedThrough := event.sequence })
    | .complete .duplicate => .ok (.continued, session)
    | .complete .overflowed | .complete .resyncRequired | .complete .closed =>
      .ok (.stopped, { session with phase := .closed })
    | .complete .droppedControl => .error (.panicked "event delivery is not a control")

/-- The head a session reports: what the tail says, or what it has itself taken in. -/
def observedHead (session : ReplaySession) : SchemaU64 :=
  if session.ingestedThrough ≤ session.listener.committedHead then session.listener.committedHead
  else session.ingestedThrough

/-- `ReplaySession::post_stream_resync`. -/
def postStreamResync (session : ReplaySession) (reason : String) :
    Except ReplayError ReplaySession :=
  if session.phase = .closed then
    .ok session
  else do
    let watermark := session.observedHead
    let (_, sender) ← (session.sender.resyncRequired reason watermark
      (session.earliestAvailableSequence.or (retainedEarliest watermark))).mapError .subscriber
    .ok { session with sender, phase := .closed }

/-- `ReplaySession::next_live_range`. -/
def nextLiveRange (session : ReplaySession) :
    Except ReplayError (Option ReplayRange × ReplaySession) :=
  if session.phase ≠ .live then
    .ok (none, session)
  else
    let head := session.listener.committedHead
    match session.listener.status with
    | .invalid reason => do
      let watermark := session.observedHead
      let (_, sender) ← (session.sender.resyncRequired reason watermark
        (retainedEarliest watermark)).mapError .subscriber
      .ok (none, { session with sender, phase := .closed })
    | .open =>
      if session.ingestedThrough < head then
        .ok (some ⟨session.ingestedThrough, head⟩, session)
      else
        .ok (none, session)
    | .closed reason =>
      if session.ingestedThrough < head then
        .ok (some ⟨session.ingestedThrough, head⟩, session)
      else if head = session.ingestedThrough then do
        let (_, sender) ← (session.sender.close reason head).mapError .subscriber
        .ok (none, { session with sender, phase := .closed })
      else do
        let session ← session.postStreamResync cursorInconsistentReason
        .ok (none, session)

/-- `ReplaySession::finish_replay`, with the session it leaves also when it fails. -/
def finishReplay (session : ReplaySession) : Except ReplayError Unit × ReplaySession :=
  if session.phase ≠ .replaying then
    (.error (.ofKind .invalidPhase), session)
  else if session.ingestedThrough ≠ session.replayThrough then
    match session.postStreamResync cursorInconsistentReason with
    | .error error => (.error error, session)
    | .ok session => (.error (.ofKind .incompleteReplay), session)
  else
    let session := { session with phase := .live }
    match session.nextLiveRange with
    | .error error => (.error error, session)
    | .ok (_, session) => (.ok (), session)

/-- `ReplaySession::heartbeat`. -/
def heartbeat (session : ReplaySession) : Except ReplayError (DeliveryStatus × ReplaySession) := do
  let (status, sender) ← (session.sender.trySendHeartbeat session.observedHead).mapError .subscriber
  .ok (status, { session with sender })

end ReplaySession

end Troupe.Server
