import Troupe.Lib.Transition
import Troupe.Server.Replay

/-! # From replay to live

A follow request runs next to the writer, which commits batches and moves the tail, and to the HTTP
body, which the client reads or drops. `HandoffStep` is one step of any of them:

* the store grows (`commit`), the tail is moved, closed or made invalid (`advance`, `notify`,
  `closeTail`); a head is never announced before the store has it;
* the request subscribes, captures its window, begins a session and drives it. A read of the store
  is one step, each attempt to send an event is one, and a read of the store may fail;
* the session looks at the tail (`listen`). The source looks at it at each use; here a use takes
  the last look, so it may also be an older one;
* the client polls or drops the body.

`replay_handoff` is the result: what a session places in the subscriber is the committed events after
the cursor, each once and in order, then at most one terminal frame. -/

namespace Troupe.Server

open Troupe.Lib Troupe.Core Troupe.Store
open Relation (ReflTransGen)

variable {runId : CanonicalUuid} {limits : SubscriberLimits}

/-! ## The driver -/

/-- Where `drive` and the loops it calls are. -/
inductive DriverStage where
  /-- The head of the loop of `drive_replay`. -/
  | replaying
  /-- A page was captured; `push_replay_page` comes next. -/
  | replayPage (page : ReplayPage)
  /-- In the loop of `push_replay_page`. -/
  | replayPushing (events : List CommittedEvent)
  /-- The head of the loop of `drive`, and of `wait_for_live_range` in it. -/
  | live
  /-- The head of the loop of `drive_live_range`. -/
  | liveRange (through : SchemaU64)
  /-- A page was captured; `push_live_page` comes next. -/
  | livePage (through : SchemaU64) (page : ReplayPage)
  /-- In the loop of `push_live_page`. -/
  | livePushing (through pageThrough : SchemaU64) (events : List CommittedEvent)
  /-- `drive_replay` or `drive_live_range` failed; `post_stream_resync` comes next. -/
  | failing (error : ReplayError)
  /-- `drive` returned. -/
  | returned (result : Except ReplayError Unit)
  /-- `drive` panicked. -/
  | panicked

/-- Where a captured page, or the failure to capture it, leads. -/
def afterCapture (next : ReplayPage → DriverStage) : Except ReplayError ReplayPage → DriverStage
  | .ok page => next page
  | .error error => .failing error

/-- Where one iteration of a loop over a page leads. -/
def afterPush (again rest : DriverStage) (session : ReplaySession) :
    Except (Fault ReplayError) (PushOutcome × ReplaySession) → ReplaySession × DriverStage
  | .ok (.waiting, session) => (session, again)
  | .ok (.continued, session) => (session, rest)
  | .ok (.stopped, session) => (session, .live)
  | .error (.raised error) => (session, .failing error)
  | .error (.panicked _) => (session, .panicked)

/-- The entry of `push_live_page`: a page that does not validate ends the stream. -/
def enterLivePage (session : ReplaySession) (through : SchemaU64) (page : ReplayPage) :
    ReplaySession × DriverStage :=
  match session.validatePage page session.listener.committedHead .live with
  | .ok () => (session, .livePushing through page.range.throughInclusive page.events)
  | .error error =>
    match session.postStreamResync cursorInconsistentReason with
    | .error error' => (session, .failing error')
    | .ok session => (session, .failing error)

/-- `finish_replay` at the end of `drive_replay`. -/
def finishDriveReplay (session : ReplaySession) : ReplaySession × DriverStage :=
  match session.finishReplay with
  | (.ok (), session) => (session, .live)
  | (.error error, session) => (session, .failing error)

/-- `next_live_range` in `wait_for_live_range`. -/
def awaitLiveRange (session : ReplaySession) : ReplaySession × DriverStage :=
  match session.nextLiveRange with
  | .error error => (session, .returned (.error error))
  | .ok (some range, session) => (session, .liveRange range.throughInclusive)
  | .ok (none, session) =>
    (session, if session.phase = .closed then .returned (.ok ()) else .live)

/-- The heartbeat after a timeout. -/
def sendHeartbeat (session : ReplaySession) : ReplaySession × DriverStage :=
  match session.heartbeat with
  | .error error => (session, .returned (.error error))
  | .ok (status, session) =>
    (session, if status = .closed ∨ status = .overflowed ∨ status = .resyncRequired then
      .returned (.ok ()) else .live)

/-- The last thing a failed `drive` does; the result of `post_stream_resync` is dropped. -/
def failDrive (session : ReplaySession) (error : ReplayError) : ReplaySession × DriverStage :=
  match session.postStreamResync cursorInconsistentReason with
  | .error _ => (session, .returned (.error error))
  | .ok session => (session, .returned (.error error))

/-- One step of `drive`. -/
inductive DriverStep {runId : CanonicalUuid} (stored : CommittedLog runId) :
    ReplaySession × DriverStage → ReplaySession × DriverStage → Prop where
  | readReplayPage {session : ReplaySession} (more : session.replayRange.isEmpty = false) :
      DriverStep stored (session, .replaying)
        (session, afterCapture .replayPage
          (ReplayPage.capture stored.capture session.replayRange))
  | replayReadFailed {session : ReplaySession} (more : session.replayRange.isEmpty = false) :
      DriverStep stored (session, .replaying) (session, .failing .reader)
  | pushReplayPage {session : ReplaySession} {page : ReplayPage} :
      DriverStep stored (session, .replayPage page)
        (session, match session.validatePage page session.replayThrough .replaying with
          | .ok () => .replayPushing page.events
          | .error error => .failing error)
  | pushReplayEvent {session : ReplaySession} {event : CommittedEvent}
      {events : List CommittedEvent} :
      DriverStep stored (session, .replayPushing (event :: events))
        (afterPush (.replayPushing (event :: events)) (.replayPushing events) session
          (session.pushEvent event session.replayThrough .wait))
  | replayPageDone {session : ReplaySession} :
      DriverStep stored (session, .replayPushing []) (session, .replaying)
  | finishReplay {session : ReplaySession} (done : session.replayRange.isEmpty = true) :
      DriverStep stored (session, .replaying) (finishDriveReplay session)
  | closed {session : ReplaySession} (done : session.phase = .closed) :
      DriverStep stored (session, .live) (session, .returned (.ok ()))
  | await {session : ReplaySession} (going : session.phase ≠ .closed) :
      DriverStep stored (session, .live) (awaitLiveRange session)
  | timeout {session : ReplaySession} (going : session.phase ≠ .closed) :
      DriverStep stored (session, .live) (sendHeartbeat session)
  | readLivePage {session : ReplaySession} {through : SchemaU64}
      (more : session.ingestedThrough < through) :
      DriverStep stored (session, .liveRange through)
        (session, afterCapture (.livePage through)
          (ReplayPage.capture stored.capture ⟨session.ingestedThrough, through⟩))
  | liveReadFailed {session : ReplaySession} {through : SchemaU64}
      (more : session.ingestedThrough < through) :
      DriverStep stored (session, .liveRange through) (session, .failing .reader)
  | liveRangeDone {session : ReplaySession} {through : SchemaU64}
      (done : ¬session.ingestedThrough < through) :
      DriverStep stored (session, .liveRange through) (session, .live)
  | pushLivePage {session : ReplaySession} {through : SchemaU64} {page : ReplayPage} :
      DriverStep stored (session, .livePage through page) (enterLivePage session through page)
  | pushLiveEvent {session : ReplaySession} {through pageThrough : SchemaU64}
      {event : CommittedEvent} {events : List CommittedEvent} :
      DriverStep stored (session, .livePushing through pageThrough (event :: events))
        (afterPush (.livePushing through pageThrough (event :: events))
          (.livePushing through pageThrough events) session
          (session.pushEvent event pageThrough .disconnectOnFull))
  | livePageDone {session : ReplaySession} {through pageThrough : SchemaU64} :
      DriverStep stored (session, .livePushing through pageThrough [])
        (session, .liveRange through)
  | fail {session : ReplaySession} {error : ReplayError} :
      DriverStep stored (session, .failing error) (failDrive session error)

/-! ## The system -/

/-- Where a follow request is. -/
inductive ReplayProcess where
  /-- `begin` has subscribed to the tail. -/
  | subscribed
  /-- `begin` has captured the window. -/
  | captured (window : ReplayWindow)
  /-- `begin` failed. -/
  | rejected (error : ReplayError)
  /-- `begin` answered with a body that only says to resynchronize. -/
  | resync (body : SubscriberShared)
  /-- A session is driven. -/
  | driving (session : ReplaySession) (stage : DriverStage)

/-- The store, the commit tail and one follow request. -/
structure ReplayWorld (runId : CanonicalUuid) where
  stored : CommittedLog runId
  signal : CommitTailState
  process : ReplayProcess

/-- The answer of `begin`. -/
def started : Except ReplayError ReplayStart → ReplayProcess
  | .ok (.ready session) => .driving session .replaying
  | .ok (.resync body) => .resync body
  | .error error => .rejected error

/-- Where capturing the window leads. -/
def windowCaptured : Except ReplayError ReplayWindow → ReplayProcess
  | .ok window => .captured window
  | .error error => .rejected error

/-- A step of the writer, of the request or of the client. -/
inductive HandoffStep {runId : CanonicalUuid} (limits : SubscriberLimits) (cursor : EffectiveCursor) :
    ReplayWorld runId → ReplayWorld runId → Prop where
  | commit {w : ReplayWorld runId} {stored : CommittedLog runId}
      (grows : w.stored.events <+: stored.events) :
      HandoffStep limits cursor w { w with stored }
  | advance {w : ReplayWorld runId} {run : CanonicalUuid} {previous committed : SchemaU64}
      (durable : committed.get ≤ w.stored.events.length) :
      HandoffStep limits cursor w { w with signal := (w.signal.advance run previous committed).2 }
  | notify {w : ReplayWorld runId} {notification : CommitNotification}
      (durable : notification.committed ≤ w.stored.events.length) :
      HandoffStep limits cursor w
        { w with signal := (w.signal.observeNotification notification).2 }
  | closeTail {w : ReplayWorld runId} {reason : String} {final : SchemaU64} :
      HandoffStep limits cursor w { w with signal := (w.signal.close reason final).2 }
  | captureWindow {w : ReplayWorld runId} (at_start : w.process = .subscribed) :
      HandoffStep limits cursor w
        { w with process := windowCaptured (ReplayWindow.capture w.stored.capture) }
  | windowReadFailed {w : ReplayWorld runId} (at_start : w.process = .subscribed) :
      HandoffStep limits cursor w { w with process := .rejected .reader }
  | begin {w : ReplayWorld runId} {window : ReplayWindow}
      (has_window : w.process = .captured window) :
      HandoffStep limits cursor w
        { w with process := started (begin limits cursor window w.signal) }
  | listen {w : ReplayWorld runId} {session : ReplaySession} {stage : DriverStage}
      (runs : w.process = .driving session stage) :
      HandoffStep limits cursor w
        { w with process := .driving { session with listener := w.signal } stage }
  | drive {w : ReplayWorld runId} {session session' : ReplaySession} {stage stage' : DriverStage}
      (runs : w.process = .driving session stage)
      (step : DriverStep w.stored (session, stage) (session', stage')) :
      HandoffStep limits cursor w { w with process := .driving session' stage' }
  | pollBody {w : ReplayWorld runId} {session : ReplaySession} {stage : DriverStage}
      {answer : SubscriberShared.PollFrame} {shared : SubscriberShared}
      (runs : w.process = .driving session stage)
      (poll : session.sender.shared.pollFrame = .ok (answer, shared)) :
      HandoffStep limits cursor w
        { w with
          process := .driving { session with sender := { session.sender with shared } } stage }
  | dropBody {w : ReplayWorld runId} {session : ReplaySession} {stage : DriverStage}
      (runs : w.process = .driving session stage) :
      HandoffStep limits cursor w
        { w with
          process := .driving
            { session with
              sender := { session.sender with shared := session.sender.shared.dropBody } } stage }

/-! ## What is placed -/

/-- A sender has placed the committed events after the cursor up to `ingested`, and at most one
terminal frame after them. The stream is closed for a `final` reason only. -/
def PlacedUpTo {runId : CanonicalUuid} (stored : CommittedLog runId) (cursor ingested : Nat)
    (final : Prop) (sender : SseSender) : Prop :=
  ∃ terminals : List SseFrame,
    sender.placed = ((stored.events.drop cursor).take (ingested - cursor)).map .event ++
      terminals.map .terminal ∧
    terminals.length ≤ 1 ∧
    (sender.shared.state.accepting = true → terminals = []) ∧
    ∀ frame ∈ terminals, frame.kind = .streamClosed → final

section Placed

variable {runId : CanonicalUuid} {stored stored' : CommittedLog runId} {cursor ingested : Nat}
  {final : Prop} {sender : SseSender} {shared : SubscriberShared}

/-- A call that neither places an event nor ends the stream places nothing. -/
theorem record_keep (h : shared.state.accepting = sender.shared.state.accepting) :
    sender.record shared [] = { sender with shared } := by
  simp [SseSender.record, SseSender.terminalPlaced, h]

theorem record_self : sender.record sender.shared [] = sender := record_keep rfl

/-- What was placed stays placed when the store grows. -/
theorem PlacedUpTo.grow (h : PlacedUpTo stored cursor ingested final sender)
    (hgrows : stored.events <+: stored'.events) (hcursor : cursor ≤ ingested)
    (hlength : ingested ≤ stored.events.length) :
    PlacedUpTo stored' cursor ingested final sender := by
  obtain ⟨terminals, hplaced, hrest⟩ := h
  refine ⟨terminals, ?_, hrest⟩
  obtain ⟨more, hmore⟩ := hgrows
  rw [hplaced, ← hmore, List.drop_append_of_le_length (by omega), List.take_append_of_le_length]
  rw [List.length_drop]
  omega

/-- A frame of another kind leaves the log of placed frames alone. -/
theorem PlacedUpTo.keep (h : PlacedUpTo stored cursor ingested final sender)
    (haccepting : shared.state.accepting = true → sender.shared.state.accepting = true) :
    PlacedUpTo stored cursor ingested final { sender with shared } := by
  obtain ⟨terminals, hplaced, hlength, hnone, hfinal⟩ := h
  exact ⟨terminals, hplaced, hlength, fun h => hnone (haccepting h), hfinal⟩

/-- A terminal frame placed by a live subscriber is the only one. -/
theorem PlacedUpTo.terminate (h : PlacedUpTo stored cursor ingested final sender)
    {terminal : SseFrame} (hlive : sender.shared.Live)
    (hterminal : shared.state.terminal = some terminal) (hclosed : shared.state.accepting = false)
    (hfinal : terminal.kind = .streamClosed → final) :
    PlacedUpTo stored cursor ingested final (sender.record shared []) := by
  obtain ⟨terminals, hplaced, -, hnone, -⟩ := h
  refine ⟨[terminal], ?_, Nat.le_refl 1, ?_, ?_⟩
  · simp [SseSender.record, SseSender.terminalPlaced, hlive.1, hclosed, hterminal, hplaced,
      hnone hlive.1]
  · intro haccepting
    rw [show (sender.record shared []).shared = shared from rfl, hclosed] at haccepting
    cases haccepting
  · intro frame hframe hkind
    rw [List.mem_singleton.mp hframe] at hkind
    exact hfinal hkind

/-- The next committed event extends what is placed. -/
theorem PlacedUpTo.enqueue (h : PlacedUpTo stored cursor ingested final sender)
    {event : CommittedEvent} {final' : Prop} (hlive : sender.shared.Live)
    (haccepting : shared.state.accepting = true) (hcursor : cursor ≤ ingested)
    (hevent : stored.events[ingested]? = some event) :
    PlacedUpTo stored cursor (ingested + 1) final' (sender.record shared [.event event]) := by
  obtain ⟨terminals, hplaced, -, hnone, -⟩ := h
  refine ⟨[], ?_, Nat.zero_le 1, fun _ => rfl, by simp⟩
  have hnext : (stored.events.drop cursor)[ingested - cursor]? = some event := by
    rw [List.getElem?_drop, ← hevent]
    congr 1
    omega
  have hsplit : (stored.events.drop cursor).take (ingested + 1 - cursor) =
      (stored.events.drop cursor).take (ingested - cursor) ++ [event] := by
    rw [show ingested + 1 - cursor = ingested - cursor + 1 by omega, List.take_add_one, hnext]
    rfl
  simp [SseSender.record, SseSender.terminalPlaced, hlive.1, haccepting, hplaced,
    hnone hlive.1, hsplit]

end Placed

/-! ## The invariant -/

/-- The tail ended where the session is. -/
def EndsAt (signal : CommitTailState) (session : ReplaySession) : Prop :=
  signal.status ≠ .open ∧ signal.committedHead = session.ingestedThrough

/-- A session that has taken in the committed events after the cursor up to `ingestedThrough`. -/
structure Following {runId : CanonicalUuid} (cursor : SchemaU64) (stored : CommittedLog runId)
    (signal : CommitTailState) (session : ReplaySession) : Prop where
  run : session.runId = runId
  senderRun : session.sender.shared.runId = runId
  heard : session.listener.Precedes signal
  durable : signal.committedHead.get ≤ stored.events.length
  replay_le : session.replayThrough.get ≤ stored.events.length
  cursor_le : cursor.get ≤ session.ingestedThrough.get
  ingested_le : session.ingestedThrough.get ≤ stored.events.length
  lastEnqueued : session.sender.shared.state.lastEnqueuedSequence = session.ingestedThrough
  placed : PlacedUpTo stored cursor.get session.ingestedThrough.get (EndsAt signal session)
    session.sender

/-- `events` are the next committed events, none after `through`. -/
def NextEvents {runId : CanonicalUuid} (stored : CommittedLog runId) (session : ReplaySession)
    (through : SchemaU64) (events : List CommittedEvent) : Prop :=
  events <+: stored.events.drop session.ingestedThrough.get ∧
    session.ingestedThrough.get + events.length ≤ through.get

/-- The errors a session can end with: a failed read, or a control frame that cannot be written. -/
def ReplayError.Expected (error : ReplayError) : Prop :=
  error = .reader ∨ ∃ e, error = .subscriber (.frame e)

/-- What holds at each stage of `drive`. -/
def AtStage {runId : CanonicalUuid} (stored : CommittedLog runId) (session : ReplaySession) :
    DriverStage → Prop
  | .replaying =>
    session.phase = .replaying ∧ session.ingestedThrough.get ≤ session.replayThrough.get
  | .replayPage page =>
    session.phase = .replaying ∧ page.runId = runId ∧ page.range = session.replayRange ∧
      NextEvents stored session session.replayThrough page.events
  | .replayPushing events =>
    session.phase = .replaying ∧ NextEvents stored session session.replayThrough events
  | .live => True
  | .liveRange through =>
    session.phase = .live ∧ through.get ≤ session.listener.committedHead.get
  | .livePage through page =>
    session.phase = .live ∧ page.runId = runId ∧
      page.range = ⟨session.ingestedThrough, through⟩ ∧
      through.get ≤ session.listener.committedHead.get ∧
      NextEvents stored session through page.events
  | .livePushing through pageThrough events =>
    session.phase = .live ∧ through.get ≤ session.listener.committedHead.get ∧
      NextEvents stored session pageThrough events
  | .failing error => error.Expected
  | .returned result => ∀ error, result = .error error → error.Expected
  | .panicked => False

section Session

variable {runId : CanonicalUuid} {cursor : SchemaU64} {stored : CommittedLog runId}
  {signal : CommitTailState} {session : ReplaySession} {error : ReplayError} {sender : SseSender}
  {reason : String} {watermark : SchemaU64} {session' : ReplaySession}
  {events : List CommittedEvent} {stored' : CommittedLog runId}

theorem PlacedUpTo.imp {ingested cursor : Nat} {final final' : Prop}
    (h : PlacedUpTo stored cursor ingested final sender) (himp : final → final') :
    PlacedUpTo stored cursor ingested final' sender := by
  obtain ⟨terminals, hplaced, hlength, hnone, hfinal⟩ := h
  exact ⟨terminals, hplaced, hlength, hnone, fun frame hframe hkind =>
    himp (hfinal frame hframe hkind)⟩

/-- The head a session reports covers what it has taken in. -/
theorem ingested_le_observedHead (session : ReplaySession) :
    session.ingestedThrough.get ≤ session.observedHead.get := by
  unfold ReplaySession.observedHead
  split
  next h => exact h
  next => exact Nat.le_refl _

/-- A session whose sender was told to resynchronize. -/
theorem Following.resync (h : Following cursor stored signal session)
    {earliest : Option SchemaU64} {status : DeliveryStatus}
    (hresync : session.sender.resyncRequired reason watermark earliest = .ok (status, sender)) :
    Following cursor stored signal { session with sender, phase := .closed } := by
  unfold SseSender.resyncRequired at hresync
  rw [bind_eq_ok] at hresync
  obtain ⟨⟨status', shared⟩, hshared, hrecord⟩ := hresync
  cases hrecord
  rcases SubscriberShared.resyncRequired_ok hshared with
    ⟨-, -, rfl⟩ | ⟨-, hlive, terminal, hterminal, rfl⟩
  · rw [record_self]
    exact ⟨h.run, h.senderRun, h.heard, h.durable, h.replay_le, h.cursor_le, h.ingested_le,
      h.lastEnqueued, h.placed⟩
  · obtain ⟨hkind, -⟩ := SseFrame.resyncRequired_kind hterminal
    refine ⟨h.run, h.senderRun, h.heard, h.durable, h.replay_le, h.cursor_le, h.ingested_le,
      h.lastEnqueued, ?_⟩
    refine h.placed.terminate hlive rfl rfl ?_
    rw [hkind]
    intro hclosed
    cases hclosed

theorem postStreamResync_ok (h : Following cursor stored signal session)
    (hpost : session.postStreamResync reason = .ok session') :
    Following cursor stored signal session' ∧ session'.phase = .closed := by
  unfold ReplaySession.postStreamResync at hpost
  split at hpost
  next hclosed =>
    cases hpost
    exact ⟨h, hclosed⟩
  next =>
    rw [bind_eq_ok] at hpost
    obtain ⟨⟨status, sender⟩, hresync, hsession⟩ := hpost
    cases hsession
    exact ⟨h.resync (mapError_eq_ok.mp hresync), rfl⟩

/-- An error of the sender reaches the session as a subscriber error. -/
theorem expected_of_mapError {α : Type} {x : Except SubscriberError α}
    (h : x.mapError .subscriber = .error error)
    (hframe : ∀ e, x = .error e → ∃ frame, e = .frame frame) : error.Expected := by
  obtain ⟨e, hx, rfl⟩ := mapError_eq_error.mp h
  obtain ⟨frame, rfl⟩ := hframe e hx
  exact Or.inr ⟨frame, rfl⟩

theorem resyncRequired_sender_error
    {earliest : Option SchemaU64} {error : SubscriberError}
    (h : sender.resyncRequired reason watermark earliest = .error error) :
    ∃ frame, error = .frame frame :=
  SubscriberShared.resyncRequired_error (bind_total_eq_error (fun _ => ⟨_, rfl⟩) h)

theorem postStreamResync_error
    (hpost : session.postStreamResync reason = .error error) : error.Expected := by
  unfold ReplaySession.postStreamResync at hpost
  split at hpost
  next => cases hpost
  next =>
    exact expected_of_mapError (bind_total_eq_error (fun _ => ⟨_, rfl⟩) hpost)
      fun _ => resyncRequired_sender_error

/-- The next committed event is taken in, waits for room, or ends the stream. -/
theorem pushEvent_next (h : Following cursor stored signal session) {event : CommittedEvent}
        (hnext : NextEvents stored session watermark (event :: events)) (mode : SendMode) :
    ∃ outcome session', session.pushEvent event watermark mode = .ok (outcome, session') ∧
      Following cursor stored signal session' ∧
      session'.listener = session.listener ∧ session'.replayThrough = session.replayThrough ∧
      match outcome with
      | .waiting => session'.phase = session.phase ∧
          session'.ingestedThrough = session.ingestedThrough
      | .continued => session'.phase = session.phase ∧
          session'.ingestedThrough = event.sequence ∧
          NextEvents stored session' watermark events
      | .stopped => session'.phase = .closed := by
  obtain ⟨hget, hsequence, hrun, hrest⟩ := stored.next_of_prefix hnext.1
  have hwithin : event.sequence.get ≤ watermark.get := by
    have := hnext.2
    rw [List.length_cons] at this
    omega
  obtain ⟨⟨attempt, shared⟩, hsend⟩ := SubscriberShared.sendEvent_isOk
    session.sender.shared (hrun.trans h.senderRun.symm) watermark mode
  have hsent := (SubscriberShared.sendEvent_ok hsend).2
  have hpush : session.sender.sendEvent event watermark mode = .ok (attempt,
      session.sender.record shared
        (if attempt = .complete .enqueued then [.event event] else [])) := by
    simp only [SseSender.sendEvent, hsend, bind, Except.bind]
  unfold ReplaySession.pushEvent
  rw [hpush]
  have hlast := congrArg SchemaU64.get h.lastEnqueued
  cases hsent with
  | closed =>
    refine ⟨.stopped, _, rfl, ?_, rfl, rfl, rfl⟩
    simp only [reduceCtorEq, EnqueueAttempt.complete.injEq, if_false, record_self]
    exact ⟨h.run, h.senderRun, h.heard, h.durable, h.replay_le, h.cursor_le, h.ingested_le,
      h.lastEnqueued, h.placed⟩
  | inconsistent _ misplaced =>
    rw [SchemaU64.lt_def, SchemaU64.lt_def] at misplaced
    omega
  | duplicate _ old =>
    rw [SchemaU64.le_def] at old
    omega
  | waits =>
    refine ⟨.waiting, _, rfl, ?_, rfl, rfl, rfl, rfl⟩
    simp only [reduceCtorEq, if_false, record_self]
    exact h
  | overflowed live gap =>
    refine ⟨.stopped, _, rfl, ?_, rfl, rfl, rfl⟩
    refine ⟨h.run, h.senderRun, h.heard, h.durable, h.replay_le, h.cursor_le, h.ingested_le,
      h.lastEnqueued, h.placed.terminate live rfl rfl ?_⟩
    intro hkind
    rw [(SseFrame.deliveryGap_eq_ok.mp gap).2.2] at hkind
    cases hkind
  | enqueued live _ _ _ =>
    have hlength : session.ingestedThrough.get < stored.events.length :=
      (List.getElem?_eq_some_iff.mp hget).1
    refine ⟨.continued, _, rfl, ?_, rfl, rfl, rfl, rfl, ?_⟩
    · refine ⟨h.run, h.senderRun, h.heard, h.durable, h.replay_le, ?_, ?_, rfl, ?_⟩
      · show cursor.get ≤ event.sequence.get
        have := h.cursor_le
        omega
      · show event.sequence.get ≤ stored.events.length
        omega
      · show PlacedUpTo stored cursor.get event.sequence.get _ _
        rw [hsequence]
        exact h.placed.enqueue live live.1 h.cursor_le hget
    · constructor
      · show events <+: stored.events.drop event.sequence.get
        rw [hsequence]
        exact hrest
      · show event.sequence.get + events.length ≤ watermark.get
        have := hnext.2
        rw [List.length_cons] at this
        omega

/-- A session closed at the head where the tail ended. -/
theorem Following.close (h : Following cursor stored signal session)
    {status : DeliveryStatus}
    (hended : session.listener.status ≠ .open)
    (hhead : session.listener.committedHead = session.ingestedThrough)
    (hclose : session.sender.close reason session.listener.committedHead = .ok (status, sender)) :
    Following cursor stored signal { session with sender, phase := .closed } := by
  unfold SseSender.close at hclose
  rw [bind_eq_ok] at hclose
  obtain ⟨⟨status', shared⟩, hshared, hrecord⟩ := hclose
  cases hrecord
  rcases SubscriberShared.close_ok hshared with ⟨-, -, rfl⟩ | ⟨-, hlive, terminal, -, rfl⟩
  · rw [record_self]
    exact ⟨h.run, h.senderRun, h.heard, h.durable, h.replay_le, h.cursor_le, h.ingested_le,
      h.lastEnqueued, h.placed⟩
  · obtain ⟨hfinal, hstatus⟩ := h.heard.final hended
    exact ⟨h.run, h.senderRun, h.heard, h.durable, h.replay_le, h.cursor_le, h.ingested_le,
      h.lastEnqueued, h.placed.terminate hlive rfl rfl fun _ => ⟨hstatus, hfinal.trans hhead⟩⟩

theorem nextLiveRange_ok (h : Following cursor stored signal session) {range : Option ReplayRange}
    (hnext : session.nextLiveRange = .ok (range, session')) :
    Following cursor stored signal session' ∧
      ∀ r ∈ range, session'.phase = .live ∧
        r.throughInclusive.get ≤ session'.listener.committedHead.get := by
  unfold ReplaySession.nextLiveRange at hnext
  split at hnext
  next =>
    cases hnext
    exact ⟨h, by simp⟩
  next hphase =>
  rw [ne_eq, not_not] at hphase
  simp only at hnext
  split at hnext
  next reason _ =>
    rw [bind_eq_ok] at hnext
    obtain ⟨⟨status, sender⟩, hresync, hok⟩ := hnext
    cases hok
    exact ⟨h.resync (mapError_eq_ok.mp hresync), by simp⟩
  next =>
    split at hnext
    next =>
      cases hnext
      exact ⟨h, by simp [hphase]⟩
    next =>
      cases hnext
      exact ⟨h, by simp⟩
  next reason hstatus =>
    split at hnext
    next =>
      cases hnext
      exact ⟨h, by simp [hphase]⟩
    next =>
    split at hnext
    next hhead =>
      rw [bind_eq_ok] at hnext
      obtain ⟨⟨status, sender⟩, hclose, hok⟩ := hnext
      cases hok
      exact ⟨h.close (by rw [hstatus]; simp) hhead (mapError_eq_ok.mp hclose), by simp⟩
    next =>
      rw [bind_eq_ok] at hnext
      obtain ⟨session'', hpost, hok⟩ := hnext
      cases hok
      exact ⟨(postStreamResync_ok h hpost).1, by simp⟩

theorem nextLiveRange_error (h : Following cursor stored signal session)
    (hnext : session.nextLiveRange = .error error) : error.Expected := by
  unfold ReplaySession.nextLiveRange at hnext
  split at hnext
  next => cases hnext
  simp only at hnext
  split at hnext
  next =>
    exact expected_of_mapError (bind_total_eq_error (fun _ => ⟨_, rfl⟩) hnext)
      fun _ => resyncRequired_sender_error
  next => split at hnext <;> cases hnext
  next =>
    split at hnext
    next => cases hnext
    split at hnext
    next hhead =>
      refine expected_of_mapError (bind_total_eq_error (fun _ => ⟨_, rfl⟩) hnext) fun e he => ?_
      refine SubscriberShared.close_error ?_ (bind_total_eq_error (fun _ => ⟨_, rfl⟩) he)
      rw [h.lastEnqueued, hhead]
    next => exact postStreamResync_error (bind_total_eq_error (fun _ => ⟨_, rfl⟩) hnext)

/-- A heartbeat never fails, and places nothing. -/
theorem heartbeat_ok (h : Following cursor stored signal session) :
    ∃ status session', session.heartbeat = .ok (status, session') ∧
      Following cursor stored signal session' := by
  have hcovers : session.sender.shared.state.lastEnqueuedSequence.get ≤
      session.observedHead.get := by
    rw [h.lastEnqueued]
    exact ingested_le_observedHead session
  obtain ⟨⟨status, shared⟩, hsend⟩ := SubscriberShared.trySendHeartbeat_isOk hcovers
  refine ⟨status, { session with sender := session.sender.record shared [] }, ?_, ?_⟩
  · simp only [ReplaySession.heartbeat, SseSender.trySendHeartbeat, hsend, Except.mapError, bind,
      Except.bind]
  · rcases SubscriberShared.trySendHeartbeat_ok hsend with rfl | ⟨hlive, -, rfl⟩
    · rw [record_self]
      exact h
    · rw [record_keep (show (session.sender.shared.pushed _ _ _).state.accepting = _ from rfl)]
      exact ⟨h.run, h.senderRun, h.heard, h.durable, h.replay_le, h.cursor_le, h.ingested_le,
        h.lastEnqueued, h.placed.keep id⟩

/-! ## Steps of the driver -/

theorem validatePage_ok {page : ReplayPage} (through : SchemaU64) {phase : ReplayPhase}
    (hphase : session.phase = phase) (hrun : page.runId = session.runId)
    (hafter : page.range.afterExclusive = session.ingestedThrough)
    (hthrough : page.range.throughInclusive.get ≤ through.get) :
    session.validatePage page through phase = .ok () := by
  have hwithin : ¬through < page.range.throughInclusive := Nat.not_lt.mpr hthrough
  simp [ReplaySession.validatePage, hphase, hrun, hafter, hwithin]

theorem finishDriveReplay_invariant (h : Following cursor stored signal session)
    (hphase : session.phase = .replaying)
    (hdone : session.ingestedThrough = session.replayThrough) :
    Following cursor stored signal (finishDriveReplay session).1 ∧
      AtStage stored (finishDriveReplay session).1 (finishDriveReplay session).2 := by
  have hlive : Following cursor stored signal { session with phase := .live } :=
    ⟨h.run, h.senderRun, h.heard, h.durable, h.replay_le, h.cursor_le, h.ingested_le,
      h.lastEnqueued, h.placed⟩
  unfold finishDriveReplay ReplaySession.finishReplay
  rw [if_neg (by simp [hphase]), if_neg (by simp [hdone])]
  simp only
  cases hnext : ReplaySession.nextLiveRange { session with phase := .live } with
  | error error => exact ⟨hlive, nextLiveRange_error hlive hnext⟩
  | ok answer => exact ⟨(nextLiveRange_ok hlive hnext).1, trivial⟩

theorem awaitLiveRange_invariant (h : Following cursor stored signal session) :
    Following cursor stored signal (awaitLiveRange session).1 ∧
      AtStage stored (awaitLiveRange session).1 (awaitLiveRange session).2 := by
  unfold awaitLiveRange
  cases hnext : session.nextLiveRange with
  | error error => exact ⟨h, by rintro _ ⟨⟩; exact nextLiveRange_error h hnext⟩
  | ok answer =>
    obtain ⟨range, session'⟩ := answer
    obtain ⟨hfollowing, hrange⟩ := nextLiveRange_ok h hnext
    cases range with
    | some range => exact ⟨hfollowing, hrange range rfl⟩
    | none =>
      refine ⟨hfollowing, ?_⟩
      show AtStage stored session' (if _ then _ else _)
      split
      next => nofun
      next => trivial

theorem sendHeartbeat_invariant_of (h : Following cursor stored signal session) :
    Following cursor stored signal (sendHeartbeat session).1 ∧
      AtStage stored (sendHeartbeat session).1 (sendHeartbeat session).2 := by
  obtain ⟨status, session', hbeat, hfollowing⟩ := heartbeat_ok h
  unfold sendHeartbeat
  rw [hbeat]
  refine ⟨hfollowing, ?_⟩
  show AtStage stored session' (if _ then _ else _)
  split
  next => nofun
  next => trivial

theorem failDrive_invariant (h : Following cursor stored signal session)
    (herror : error.Expected) :
    Following cursor stored signal (failDrive session error).1 ∧
      AtStage stored (failDrive session error).1 (failDrive session error).2 := by
  unfold failDrive
  cases hpost : session.postStreamResync cursorInconsistentReason with
  | error _ => exact ⟨h, by rintro _ ⟨⟩; exact herror⟩
  | ok session' => exact ⟨(postStreamResync_ok h hpost).1, by rintro _ ⟨⟩; exact herror⟩

theorem enterLivePage_invariant (h : Following cursor stored signal session) {through : SchemaU64}
    {page : ReplayPage} (hpage : AtStage stored session (.livePage through page)) :
    Following cursor stored signal (enterLivePage session through page).1 ∧
      AtStage stored (enterLivePage session through page).1
        (enterLivePage session through page).2 := by
  obtain ⟨hphase, hrun, hrange, hthrough, hnext⟩ := hpage
  have hvalid := validatePage_ok session.listener.committedHead hphase
    (by rw [hrun, h.run]) (by rw [hrange]) (by rw [hrange]; exact hthrough)
  unfold enterLivePage
  rw [hvalid]
  refine ⟨h, hphase, hthrough, ?_⟩
  rw [hrange]
  exact hnext

/-- One iteration over a page of the next events. -/
theorem afterPush_invariant (h : Following cursor stored signal session) {event : CommittedEvent}
    (again rest : DriverStage)
    (hnext : NextEvents stored session watermark (event :: events)) (mode : SendMode)
    (hagain : ∀ session', session'.listener = session.listener →
      session'.replayThrough = session.replayThrough → session'.phase = session.phase →
      session'.ingestedThrough = session.ingestedThrough → AtStage stored session' again)
    (hrest : ∀ session', session'.listener = session.listener →
      session'.replayThrough = session.replayThrough → session'.phase = session.phase →
      NextEvents stored session' watermark events → AtStage stored session' rest) :
    Following cursor stored signal
        (afterPush again rest session (session.pushEvent event watermark mode)).1 ∧
      AtStage stored (afterPush again rest session (session.pushEvent event watermark mode)).1
        (afterPush again rest session (session.pushEvent event watermark mode)).2 := by
  obtain ⟨outcome, session', hpush, hfollowing, hlistener, hreplay, houtcome⟩ :=
    pushEvent_next h hnext mode
  rw [hpush]
  cases outcome with
  | waiting =>
    obtain ⟨hphase, hingested⟩ := houtcome
    exact ⟨hfollowing, hagain session' hlistener hreplay hphase hingested⟩
  | continued =>
    obtain ⟨hphase, -, hevents⟩ := houtcome
    exact ⟨hfollowing, hrest session' hlistener hreplay hphase hevents⟩
  | stopped => exact ⟨hfollowing, trivial⟩

theorem NextEvents.congr {through : SchemaU64}
    (h : NextEvents stored session through events)
    (hingested : session'.ingestedThrough = session.ingestedThrough) :
    NextEvents stored session' through events := by
  unfold NextEvents at h ⊢
  rw [hingested]
  exact h

/-- Every step of the driver keeps the session in step with the store. -/
theorem driverStep_invariant {stage stage' : DriverStage}
    (h : Following cursor stored signal session) (hstage : AtStage stored session stage)
    (hstep : DriverStep stored (session, stage) (session', stage')) :
    Following cursor stored signal session' ∧ AtStage stored session' stage' := by
  generalize hfrom : (session, stage) = a at hstep
  generalize hto : (session', stage') = b at hstep
  cases hstep with
  | readReplayPage more =>
    cases hfrom
    cases hto
    refine ⟨h, ?_⟩
    have hlt : session.ingestedThrough.get < session.replayThrough.get := by
      have hne : ¬session.ingestedThrough.get = session.replayThrough.get := by
        simpa [ReplaySession.replayRange, ReplayRange.isEmpty] using more
      have := hstage.2
      omega
    obtain ⟨events, hcapture, hprefix, hlength⟩ :=
      stored.capturePage_ok (show session.replayRange.afterExclusive.get < _ from hlt) h.replay_le
    rw [hcapture]
    exact ⟨hstage.1, rfl, rfl, hprefix, hlength⟩
  | replayReadFailed =>
    cases hfrom
    cases hto
    exact ⟨h, Or.inl rfl⟩
  | pushReplayPage =>
    cases hfrom
    cases hto
    obtain ⟨hphase, hrun, hrange, hnext⟩ := hstage
    have hvalid := validatePage_ok session.replayThrough hphase
      (by rw [hrun, h.run]) (by rw [hrange]; rfl) (by rw [hrange]; exact Nat.le_refl _)
    rw [hvalid]
    exact ⟨h, hphase, hnext⟩
  | pushReplayEvent =>
    cases hfrom
    obtain ⟨hphase, hnext⟩ := hstage
    have hpush := afterPush_invariant h (.replayPushing _) (.replayPushing _) hnext .wait
      (fun session' _ hreplay hphase' hingested =>
        ⟨hphase'.trans hphase, hreplay ▸ hnext.congr hingested⟩)
      (fun session' _ hreplay hphase' hevents => ⟨hphase'.trans hphase, hreplay ▸ hevents⟩)
    rw [← hto] at hpush
    exact hpush
  | replayPageDone =>
    cases hfrom
    cases hto
    exact ⟨h, hstage.1, hstage.2.2⟩
  | finishReplay done =>
    cases hfrom
    have hdone : session.ingestedThrough = session.replayThrough := by
      simpa [ReplaySession.replayRange, ReplayRange.isEmpty] using done
    have hfinish := finishDriveReplay_invariant h hstage.1 hdone
    rw [← hto] at hfinish
    exact hfinish
  | closed =>
    cases hfrom
    cases hto
    exact ⟨h, fun error hfailed => by cases hfailed⟩
  | await =>
    cases hfrom
    have hawait := awaitLiveRange_invariant h
    rw [← hto] at hawait
    exact hawait
  | timeout =>
    cases hfrom
    have hbeat := sendHeartbeat_invariant_of h
    rw [← hto] at hbeat
    exact hbeat
  | readLivePage more =>
    cases hfrom
    cases hto
    refine ⟨h, ?_⟩
    obtain ⟨events, hcapture, hprefix, hlength⟩ := stored.capturePage_ok
      (show (ReplayRange.mk session.ingestedThrough _).afterExclusive.get < _ from more)
      (Nat.le_trans hstage.2 (Nat.le_trans h.heard.head_le h.durable))
    rw [hcapture]
    exact ⟨hstage.1, rfl, rfl, hstage.2, hprefix, hlength⟩
  | liveReadFailed =>
    cases hfrom
    cases hto
    exact ⟨h, Or.inl rfl⟩
  | liveRangeDone =>
    cases hfrom
    cases hto
    exact ⟨h, trivial⟩
  | pushLivePage =>
    cases hfrom
    have henter := enterLivePage_invariant h hstage
    rw [← hto] at henter
    exact henter
  | @pushLiveEvent _ through pageThrough event events =>
    cases hfrom
    obtain ⟨hphase, hthrough, hnext⟩ := hstage
    have hpush := afterPush_invariant h (.livePushing through pageThrough (event :: events))
      (.livePushing through pageThrough events) hnext .disconnectOnFull
      (fun session' hlistener _ hphase' hingested =>
        ⟨hphase'.trans hphase, hlistener ▸ hthrough, hnext.congr hingested⟩)
      (fun session' hlistener _ hphase' hevents =>
        ⟨hphase'.trans hphase, hlistener ▸ hthrough, hevents⟩)
    rw [← hto] at hpush
    exact hpush
  | livePageDone =>
    cases hfrom
    cases hto
    exact ⟨h, hstage.1, hstage.2.1⟩
  | fail =>
    cases hfrom
    have hfail := failDrive_invariant h hstage
    rw [← hto] at hfail
    exact hfail

/-! ## Steps of the others -/

/-- The store grows under a session. -/
theorem Following.grow (h : Following cursor stored signal session)
    (hgrows : stored.events <+: stored'.events) :
    Following cursor stored' signal session := by
  have hlength := hgrows.length_le
  exact ⟨h.run, h.senderRun, h.heard, Nat.le_trans h.durable hlength,
    Nat.le_trans h.replay_le hlength, h.cursor_le, Nat.le_trans h.ingested_le hlength,
    h.lastEnqueued, h.placed.grow hgrows h.cursor_le h.ingested_le⟩

theorem NextEvents.grow {through : SchemaU64}
    (h : NextEvents stored session through events)
    (hgrows : stored.events <+: stored'.events) : NextEvents stored' session through events := by
  refine ⟨h.1.trans ?_, h.2⟩
  obtain ⟨more, hmore⟩ := hgrows
  rw [← hmore, List.drop_append]
  exact List.prefix_append _ _

theorem AtStage.grow {stage : DriverStage} (h : AtStage stored session stage)
    (hgrows : stored.events <+: stored'.events) :
    AtStage stored' session stage := by
  cases stage with
  | replayPage page => exact ⟨h.1, h.2.1, h.2.2.1, h.2.2.2.grow hgrows⟩
  | replayPushing events => exact ⟨h.1, h.2.grow hgrows⟩
  | livePage through page => exact ⟨h.1, h.2.1, h.2.2.1, h.2.2.2.1, h.2.2.2.2.grow hgrows⟩
  | livePushing through pageThrough events => exact ⟨h.1, h.2.1, h.2.2.grow hgrows⟩
  | replaying => exact h
  | live => exact h
  | liveRange _ => exact h
  | failing _ => exact h
  | returned _ => exact h
  | panicked => exact h

/-- The tail moves under a session. -/
theorem Following.tail (h : Following cursor stored signal session) {signal' : CommitTailState}
    (hlater : signal.Precedes signal')
    (hdurable : signal'.committedHead.get ≤ stored.events.length) :
    Following cursor stored signal' session := by
  refine ⟨h.run, h.senderRun, h.heard.trans hlater, hdurable, h.replay_le, h.cursor_le,
    h.ingested_le, h.lastEnqueued, h.placed.imp ?_⟩
  rintro ⟨hstatus, hhead⟩
  obtain ⟨hhead', hstatus'⟩ := hlater.final hstatus
  exact ⟨hstatus', hhead'.trans hhead⟩

/-- A session looks at the tail again. -/
theorem Following.listen (h : Following cursor stored signal session) :
    Following cursor stored signal { session with listener := signal } :=
  ⟨h.run, h.senderRun, .refl signal, h.durable, h.replay_le, h.cursor_le, h.ingested_le,
    h.lastEnqueued, h.placed⟩

theorem AtStage.listen {stage : DriverStage} (h : AtStage stored session stage)
    (hheard : session.listener.Precedes signal) :
    AtStage stored { session with listener := signal } stage := by
  cases stage with
  | liveRange through => exact ⟨h.1, Nat.le_trans h.2 hheard.head_le⟩
  | livePage through page =>
    exact ⟨h.1, h.2.1, h.2.2.1, Nat.le_trans h.2.2.2.1 hheard.head_le, h.2.2.2.2⟩
  | livePushing through pageThrough events =>
    exact ⟨h.1, Nat.le_trans h.2.1 hheard.head_le, h.2.2⟩
  | replaying => exact h
  | replayPage page => exact h
  | replayPushing events => exact h
  | live => exact h
  | failing _ => exact h
  | returned _ => exact h
  | panicked => exact h

/-- The client's side leaves what the sender relies on. -/
theorem Following.body (h : Following cursor stored signal session) {shared : SubscriberShared}
    (hrun : shared.runId = session.sender.shared.runId)
    (hlast : shared.state.lastEnqueuedSequence =
      session.sender.shared.state.lastEnqueuedSequence)
    (haccepting : shared.state.accepting = true → session.sender.shared.state.accepting = true) :
    Following cursor stored signal
      { session with sender := { session.sender with shared } } :=
  ⟨h.run, hrun.trans h.senderRun, h.heard, h.durable, h.replay_le, h.cursor_le, h.ingested_le,
    hlast.trans h.lastEnqueued, h.placed.keep haccepting⟩

theorem AtStage.body {stage : DriverStage} (h : AtStage stored session stage)
    (sender : SseSender) : AtStage stored { session with sender } stage := by
  cases stage <;> exact h

/-- A poll leaves the sender's side of the subscriber as it is. -/
theorem pollFrame_frame {shared shared' : SubscriberShared} {answer : SubscriberShared.PollFrame}
    (h : shared.pollFrame = .ok (answer, shared')) :
    shared'.runId = shared.runId ∧
      shared'.state.lastEnqueuedSequence = shared.state.lastEnqueuedSequence ∧
      shared'.state.accepting = shared.state.accepting := by
  unfold SubscriberShared.pollFrame at h
  split at h
  next frame queue _ =>
    rw [bind_eq_ok] at h
    obtain ⟨state, haccount, hok⟩ := h
    cases hok
    unfold SubscriberShared.accountDelivered at haccount
    rw [bind_eq_ok] at haccount
    obtain ⟨bytes, -, haccount⟩ := haccount
    split at haccount
    next =>
      rw [bind_eq_ok] at haccount
      obtain ⟨count, -, haccount⟩ := haccount
      split at haccount
      next =>
        cases haccount
        exact ⟨rfl, rfl, rfl⟩
      next => cases haccount
    next =>
      cases haccount
      exact ⟨rfl, rfl, rfl⟩
  next =>
    split at h
    next =>
      cases h
      exact ⟨rfl, rfl, rfl⟩
    next => split at h <;> cases h <;> exact ⟨rfl, rfl, rfl⟩

end Session

/-! ## Beginning a session -/

/-- A window of a log ends at its watermark. -/
theorem captureWindow_ok (stored : CommittedLog runId) :
    ReplayWindow.capture stored.capture =
      .ok ⟨.active, runId, stored.watermark, retainedEarliest stored.watermark⟩ := by
  unfold ReplayWindow.capture ReplayWindow.new retainedEarliest
  show (if _ then _ else _) = _
  by_cases hempty : stored.watermark.get = 0
  · simp [CommittedLog.capture, hempty]
  · have hone : (1 : SchemaU64).get = 1 := by decide
    have hpos : 1 ≤ stored.watermark.get := by omega
    simp [CommittedLog.capture, hempty, hone, hpos]

/-- A session begins at its cursor, with nothing placed. -/
theorem begin_ready {cursor : EffectiveCursor} {window : ReplayWindow}
    {tail : CommitTailState} {session : ReplaySession}
    (h : begin limits cursor window tail = .ok (.ready session)) :
    cursor.value.get ≤ window.committedHead.get ∧
      ∃ shared, openSubscriber window.runId cursor.value window.committedHead limits = .ok shared ∧
        session =
          { runId := window.runId
            earliestAvailableSequence := window.earliestAvailableSequence
            replayThrough := window.committedHead
            ingestedThrough := cursor.value
            sender := { shared, placed := [] }
            listener := tail
            phase := .replaying } := by
  unfold begin at h
  simp only [ite_error_eq_ok] at h
  obtain ⟨-, -, -, hcursor, h⟩ := h
  refine ⟨Nat.not_lt.mp hcursor, ?_⟩
  split at h
  next =>
    rw [bind_eq_ok] at h
    obtain ⟨body, -, hbody⟩ := h
    cases hbody
  next =>
    rw [bind_eq_ok] at h
    obtain ⟨shared, hopen, hready⟩ := h
    cases hready
    exact ⟨shared, mapError_eq_ok.mp hopen, rfl⟩

theorem openSubscriber_state {resumeAfter replayThrough : SchemaU64}
    {shared : SubscriberShared}
    (h : openSubscriber runId resumeAfter replayThrough limits = .ok shared) :
    shared.runId = runId ∧ shared.state.lastEnqueuedSequence = resumeAfter := by
  unfold openSubscriber at h
  rw [bind_eq_ok] at h
  obtain ⟨ready, -, h⟩ := h
  rw [ite_error_eq_ok] at h
  obtain ⟨-, h⟩ := h
  cases h
  exact ⟨rfl, rfl⟩

/-- The two errors that would mean the session and the store disagree. -/
def ReplayError.Disagrees (error : ReplayError) : Prop :=
  error = .ofKind .unexpectedPage ∨ error = .subscriber .watermarkBehindCursor

theorem ReplayError.Expected.not_disagrees {error : ReplayError} (h : error.Expected) :
    ¬error.Disagrees := by
  rcases h with rfl | ⟨frame, rfl⟩
  · simp [Disagrees, ofKind]
  · simp [Disagrees, ofKind]

theorem openSubscriber_error {resumeAfter replayThrough : SchemaU64}
    {error : SubscriberError}
    (h : openSubscriber runId resumeAfter replayThrough limits = .error error) :
    error ≠ .watermarkBehindCursor := by
  unfold openSubscriber at h
  cases hready : SseFrame.streamReady runId resumeAfter replayThrough with
  | error e =>
    simp only [hready, Except.mapError, bind, Except.bind, Except.error.injEq] at h
    simp [← h]
  | ok ready =>
    simp only [hready, Except.mapError, bind, Except.bind] at h
    split at h
    next =>
      simp only [Except.error.injEq] at h
      simp [← h]
    next => cases h

theorem resyncBody_error {reason : String} {watermark : SchemaU64}
    {earliest : Option SchemaU64} {error : SubscriberError}
    (h : resyncBody runId reason watermark earliest = .error error) :
    error ≠ .watermarkBehindCursor := by
  obtain ⟨e, -, rfl⟩ := mapError_eq_error.mp (bind_total_eq_error (fun _ => ⟨_, rfl⟩) h)
  simp

theorem begin_error {cursor : EffectiveCursor} {window : ReplayWindow}
    {tail : CommitTailState} {error : ReplayError}
    (h : begin limits cursor window tail = .error error) : ¬error.Disagrees := by
  unfold begin at h
  iterate 4
    split at h
    next => cases h; simp [ReplayError.Disagrees, ReplayError.ofKind]
  split at h
  next =>
    obtain ⟨e, he, rfl⟩ := mapError_eq_error.mp (bind_total_eq_error (fun _ => ⟨_, rfl⟩) h)
    simpa [ReplayError.Disagrees, ReplayError.ofKind] using resyncBody_error he
  next =>
    obtain ⟨e, he, rfl⟩ := mapError_eq_error.mp (bind_total_eq_error (fun _ => ⟨_, rfl⟩) h)
    simpa [ReplayError.Disagrees, ReplayError.ofKind] using openSubscriber_error he

/-! ## Runs -/

/-- What holds of a request, next to the store and the tail. -/
def ProcessOk {runId : CanonicalUuid} (cursor : SchemaU64) (stored : CommittedLog runId)
    (signal : CommitTailState) : ReplayProcess → Prop
  | .subscribed => True
  | .captured window =>
    window.runId = runId ∧ window.committedHead.get ≤ stored.events.length
  | .rejected error => ¬error.Disagrees
  | .resync _ => True
  | .driving session stage => Following cursor stored signal session ∧ AtStage stored session stage

/-- What every step keeps. -/
structure HandoffInvariant {runId : CanonicalUuid} (cursor : SchemaU64) (w : ReplayWorld runId) :
    Prop where
  durable : w.signal.committedHead.get ≤ w.stored.events.length
  process : ProcessOk cursor w.stored w.signal w.process

section Runs

variable {runId : CanonicalUuid} {limits : SubscriberLimits} {cursor : EffectiveCursor}
  {w w' : ReplayWorld runId}

/-- The tail moves, to a head the store has. -/
theorem HandoffInvariant.tail (h : HandoffInvariant cursor.value w) {signal : CommitTailState}
    (hlater : w.signal.Precedes signal)
    (hdurable : signal.committedHead.get ≤ w.stored.events.length) :
    HandoffInvariant cursor.value { w with signal } := by
  refine ⟨hdurable, ?_⟩
  have hprocess := h.process
  show ProcessOk cursor.value w.stored signal w.process
  cases hw : w.process with
  | driving session stage =>
    rw [hw] at hprocess
    exact ⟨hprocess.1.tail hlater hdurable, hprocess.2⟩
  | subscribed => trivial
  | captured window => rw [hw] at hprocess; exact hprocess
  | rejected error => rw [hw] at hprocess; exact hprocess
  | resync body => trivial

/-- The store grows. -/
theorem HandoffInvariant.grow (h : HandoffInvariant cursor.value w) {stored : CommittedLog runId}
    (hgrows : w.stored.events <+: stored.events) :
    HandoffInvariant cursor.value { w with stored } := by
  refine ⟨Nat.le_trans h.durable hgrows.length_le, ?_⟩
  have hprocess := h.process
  show ProcessOk cursor.value stored w.signal w.process
  cases hw : w.process with
  | driving session stage =>
    rw [hw] at hprocess
    exact ⟨hprocess.1.grow hgrows, hprocess.2.grow hgrows⟩
  | captured window =>
    rw [hw] at hprocess
    exact ⟨hprocess.1, Nat.le_trans hprocess.2 hgrows.length_le⟩
  | subscribed => trivial
  | rejected error => rw [hw] at hprocess; exact hprocess
  | resync body => trivial

theorem begin_invariant (h : HandoffInvariant cursor.value w) {window : ReplayWindow}
    (hwindow : w.process = .captured window) :
    ProcessOk cursor.value w.stored w.signal (started (begin limits cursor window w.signal)) := by
  have hprocess := h.process
  rw [hwindow] at hprocess
  obtain ⟨hrun, hhead⟩ := hprocess
  cases hbegin : begin limits cursor window w.signal with
  | error error => exact begin_error hbegin
  | ok start =>
    cases start with
    | resync body => trivial
    | ready session =>
      obtain ⟨hcursor, shared, hopen, rfl⟩ := begin_ready hbegin
      obtain ⟨hshared, hlast⟩ := openSubscriber_state hopen
      refine ⟨⟨hrun, hshared.trans hrun, .refl _, h.durable, hhead, Nat.le_refl _,
        Nat.le_trans hcursor hhead, hlast, ?_⟩, rfl, hcursor⟩
      exact ⟨[], by simp, Nat.zero_le 1, fun _ => rfl, by simp⟩

/-- Every step keeps the invariant. -/
theorem handoffStep_invariant (h : HandoffInvariant cursor.value w)
    (hstep : HandoffStep limits cursor w w') : HandoffInvariant cursor.value w' := by
  have hprocess := h.process
  cases hstep with
  | commit grows => exact h.grow grows
  | advance durable =>
    obtain ⟨hlater, hhead⟩ := w.signal.advance_precedes _ _ _
    refine h.tail hlater ?_
    rcases hhead with hhead | hhead
    · rw [hhead]; exact h.durable
    · rw [hhead]; exact durable
  | notify durable =>
    obtain ⟨hlater, hhead⟩ :=
      w.signal.observeNotification_precedes _
    refine h.tail hlater ?_
    rcases hhead with hhead | hhead
    · rw [hhead]; exact h.durable
    · rw [hhead]
      exact Nat.le_trans (Nat.mod_le _ _) durable
  | closeTail =>
    obtain ⟨hlater, hhead⟩ := w.signal.close_precedes _ _
    exact h.tail hlater (by rw [hhead]; exact h.durable)
  | captureWindow at_start =>
    refine ⟨h.durable, ?_⟩
    show ProcessOk _ _ _ (windowCaptured (ReplayWindow.capture w.stored.capture))
    rw [captureWindow_ok]
    exact ⟨rfl, Nat.le_refl _⟩
  | windowReadFailed at_start =>
    refine ⟨h.durable, ?_⟩
    show ¬ReplayError.reader.Disagrees
    simp [ReplayError.Disagrees, ReplayError.ofKind]
  | begin has_window => exact ⟨h.durable, begin_invariant h has_window⟩
  | listen runs =>
    rw [runs] at hprocess
    exact ⟨h.durable, hprocess.1.listen, hprocess.2.listen hprocess.1.heard⟩
  | drive runs step =>
    rw [runs] at hprocess
    exact ⟨h.durable, driverStep_invariant hprocess.1 hprocess.2 step⟩
  | pollBody runs poll =>
    rw [runs] at hprocess
    obtain ⟨hrun, hlast, haccepting⟩ := pollFrame_frame poll
    exact ⟨h.durable, hprocess.1.body hrun hlast (by rw [haccepting]; exact id),
      hprocess.2.body _⟩
  | dropBody runs =>
    rw [runs] at hprocess
    exact ⟨h.durable, hprocess.1.body rfl rfl nofun, hprocess.2.body _⟩

/-- The error a request ended with, or is ending with. -/
def ReplayProcess.error? : ReplayProcess → Option ReplayError
  | .rejected error => some error
  | .driving _ (.failing error) => some error
  | .driving _ (.returned (.error error)) => some error
  | _ => none

theorem ProcessOk.error? {stored : CommittedLog runId} {signal : CommitTailState}
    {process : ReplayProcess} (h : ProcessOk cursor.value stored signal process)
    {error : ReplayError} (herror : process.error? = some error) : ¬error.Disagrees := by
  unfold ReplayProcess.error? at herror
  split at herror
  next =>
    cases herror
    exact h
  next =>
    cases herror
    exact ReplayError.Expected.not_disagrees h.2
  next =>
    cases herror
    exact ReplayError.Expected.not_disagrees (h.2 _ rfl)
  next => cases herror

/-- In every run of a follow request next to the writer and the client:

* what the session has placed in the subscriber is the committed events after the cursor, each once
  and in order, then at most one terminal frame;
* the stream is closed only when the tail has ended and every event up to its head was placed;
* neither the session nor its sender ever finds that it and the store disagree, and the driver does
  not panic. -/
theorem replay_handoff (hstart : w.process = .subscribed)
    (hdurable : w.signal.committedHead.get ≤ w.stored.events.length)
    (hrun : ReflTransGen (HandoffStep limits cursor) w w') :
    (∀ session stage, w'.process = .driving session stage →
      ∃ (n : Nat) (terminals : List SseFrame), cursor.value.get + n ≤ w'.stored.events.length ∧
        session.sender.placed = ((w'.stored.events.drop cursor.value.get).take n).map .event ++
          terminals.map .terminal ∧
        terminals.length ≤ 1 ∧
        ∀ frame ∈ terminals, frame.kind = .streamClosed →
          w'.signal.status ≠ .open ∧
            w'.signal.committedHead.get = cursor.value.get + n) ∧
    (∀ error, w'.process.error? = some error → error ≠ .ofKind .unexpectedPage ∧
      error ≠ .subscriber .watermarkBehindCursor) ∧
    ∀ session, w'.process ≠ .driving session .panicked := by
  have hinit : HandoffInvariant cursor.value w := ⟨hdurable, by rw [hstart]; trivial⟩
  have hinv : HandoffInvariant cursor.value w' :=
    run_invariant (p := HandoffInvariant cursor.value)
      (fun _ _ hinv hstep => handoffStep_invariant hinv hstep) hinit hrun
  refine ⟨?_, ?_, ?_⟩
  · intro session stage hdriving
    have hprocess := hinv.process
    rw [hdriving] at hprocess
    obtain ⟨hfollowing, -⟩ := hprocess
    obtain ⟨terminals, hplaced, hlength, -, hfinal⟩ := hfollowing.placed
    have hcursor := hfollowing.cursor_le
    have hingested := hfollowing.ingested_le
    refine ⟨session.ingestedThrough.get - cursor.value.get, terminals, by omega, hplaced, hlength,
      ?_⟩
    intro frame hframe hkind
    obtain ⟨hstatus, hhead⟩ := hfinal frame hframe hkind
    refine ⟨hstatus, ?_⟩
    rw [hhead]
    omega
  · intro error herror
    have hagrees := hinv.process.error? herror
    simpa [ReplayError.Disagrees] using hagrees
  · intro session hpanicked
    have hprocess := hinv.process
    rw [hpanicked] at hprocess
    exact hprocess.2

end Runs

/-! ## A run -/

/-- The first stored event of run 1. -/
def followEvent : CommittedEvent :=
  ⟨.instantOccurred ⟨.at 1 0 [] SchemaU64.one_pos, .cueAdmitted, none⟩, utf8 "{}"⟩

/-- The second. -/
def nextEvent : CommittedEvent :=
  ⟨.instantOccurred ⟨.at 2 0 [] SchemaU64.two_pos, .cueAdmitted, none⟩, utf8 "{}"⟩

theorem followEvents_sameRun : ∀ event ∈ [followEvent, nextEvent], event.runId = ⟨1⟩ := by
  simp [followEvent, nextEvent, CommittedEvent.runId, DiagnosticEvent.header,
    DiagnosticEventHeader.at]

/-- A log of one event. -/
def oneEvent : CommittedLog ⟨1⟩ where
  events := [followEvent]
  dense := rfl
  sameRun event h := followEvents_sameRun event (List.mem_append_left [nextEvent] h)

/-- The log with both events. -/
def bothEvents : CommittedLog ⟨1⟩ where
  events := [followEvent, nextEvent]
  dense := rfl
  sameRun := followEvents_sameRun

/-- The log of one event, which the tail does not show yet. -/
def follow (process : ReplayProcess) : ReplayWorld ⟨1⟩ := ⟨oneEvent, .new ⟨1⟩ 0, process⟩

/-- Room for two events. -/
def followLimits : SubscriberLimits := ⟨2, 2048, ⟨Nat.two_pos, Nat.succ_pos 2047⟩, by decide⟩

/-- The subscriber of a follow from the start of the log. -/
def followShared : SubscriberShared :=
  let ready := controlFrame .streamReady
    [("control_schema_version", .nat controlSchemaVersion),
     ("run_id", .string (displayUuid ⟨1⟩)),
     ("resume_after", serializeU64 0),
     ("replay_through", serializeU64 1)]
  ⟨⟨[ready], 0, ready.byteLen, 0, 0, false, none, true, true⟩, ⟨1⟩, followLimits⟩

/-- The session of a follow from the start of the log. -/
def followSession : ReplaySession :=
  ⟨⟨1⟩, some 1, 1, 0, ⟨followShared, []⟩, .new ⟨1⟩ 0, .replaying⟩

theorem begin_follow :
    begin followLimits ⟨0⟩ ⟨.active, ⟨1⟩, 1, some 1⟩ (.new ⟨1⟩ 0) = .ok (.ready followSession) := by
  have hopen : openSubscriber ⟨1⟩ 0 1 followLimits = .ok followShared := by decide +kernel
  unfold begin
  rw [if_neg (by decide), if_neg (by decide), if_neg (by decide), if_neg (by decide),
    if_neg (by decide), hopen]
  rfl

/-- The subscriber with the first event in it. -/
def followedShared : SubscriberShared := followShared.pushed (.diagnosticEvent followEvent) 1 1

/-- The session once it has taken the event in. -/
def followedSession : ReplaySession :=
  { followSession with
    ingestedThrough := 1
    sender := ⟨followedShared, [.event followEvent]⟩ }

/-- The session that the tail has shown the second event. -/
def liveSession : ReplaySession :=
  { followedSession with listener := ⟨⟨1⟩, 2, .open⟩, phase := .live }

/-- The session once it has taken that in too. -/
def caughtUpSession : ReplaySession :=
  { liveSession with
    ingestedThrough := 2
    sender := ⟨followedShared.pushed (.diagnosticEvent nextEvent) 1 2,
      [.event followEvent, .event nextEvent]⟩ }

theorem pushEvent_follow :
    followSession.pushEvent followEvent 1 .wait = .ok (.continued, followedSession) := by
  have hsend : followShared.sendEvent followEvent 1 .wait =
      .ok (.complete .enqueued, followedShared) := by
    decide +kernel
  unfold ReplaySession.pushEvent SseSender.sendEvent
  rw [show followSession.sender.shared = followShared from rfl, hsend]
  rfl

theorem pushEvent_live :
    liveSession.pushEvent nextEvent 2 .disconnectOnFull = .ok (.continued, caughtUpSession) := by
  have hsend : followedShared.sendEvent nextEvent 2 .disconnectOnFull =
      .ok (.complete .enqueued, followedShared.pushed (.diagnosticEvent nextEvent) 1 2) := by
    decide +kernel
  unfold ReplaySession.pushEvent SseSender.sendEvent
  rw [show liveSession.sender.shared = followedShared from rfl, hsend]
  rfl

/-- The first event is replayed before the tail shows it, and the second is delivered live. -/
theorem replay_handoff_first :
    ∃ w, ReflTransGen (HandoffStep followLimits ⟨0⟩) (follow .subscribed) w ∧
      w.process = .driving caughtUpSession (.livePushing 2 2 []) ∧
      caughtUpSession.sender.placed = bothEvents.events.map .event ∧
      ∃ (n : Nat) (terminals : List SseFrame), n ≤ w.stored.events.length ∧
        caughtUpSession.sender.placed =
          ((w.stored.events.drop 0).take n).map .event ++ terminals.map .terminal := by
  have hcapture : HandoffStep followLimits ⟨0⟩ (follow .subscribed)
      (follow (.captured ⟨.active, ⟨1⟩, 1, some 1⟩)) := .captureWindow rfl
  have hbegin : HandoffStep followLimits ⟨0⟩ (follow (.captured ⟨.active, ⟨1⟩, 1, some 1⟩))
      (follow (started (begin followLimits ⟨0⟩ ⟨.active, ⟨1⟩, 1, some 1⟩ (.new ⟨1⟩ 0)))) :=
    .begin rfl
  rw [begin_follow] at hbegin
  have h := (ReflTransGen.single hcapture).tail hbegin
  have h := h.tail (.drive rfl (.readReplayPage rfl))
  have h := h.tail (.drive rfl .pushReplayPage)
  have hpush : DriverStep oneEvent (followSession, .replayPushing [followEvent])
      (afterPush (.replayPushing [followEvent]) (.replayPushing []) followSession
        (followSession.pushEvent followEvent 1 .wait)) := .pushReplayEvent
  rw [pushEvent_follow] at hpush
  have h := h.tail (.drive rfl hpush)
  have h := h.tail (.drive rfl .replayPageDone)
  have h := h.tail (.drive rfl (.finishReplay rfl))
  have h := h.tail (@HandoffStep.commit _ _ _ _ bothEvents (List.prefix_append [followEvent] _))
  have h := h.tail (@HandoffStep.advance _ _ _ _ ⟨1⟩ 0 2 (by decide))
  have h := h.tail (.listen rfl)
  have h := h.tail (.drive rfl (.await (by decide)))
  have h := h.tail (.drive rfl (.readLivePage (by decide)))
  have h := h.tail (.drive rfl .pushLivePage)
  have hlive : DriverStep bothEvents (liveSession, .livePushing 2 2 [nextEvent])
      (afterPush (.livePushing 2 2 [nextEvent]) (.livePushing 2 2 []) liveSession
        (liveSession.pushEvent nextEvent 2 .disconnectOnFull)) := .pushLiveEvent
  rw [pushEvent_live] at hlive
  have h := h.tail (.drive rfl hlive)
  obtain ⟨n, terminals, hn, hplaced, -⟩ :=
    (replay_handoff rfl (by decide) h).1 caughtUpSession (.livePushing 2 2 []) rfl
  exact ⟨_, h, rfl, rfl, n, terminals, Nat.le_trans (Nat.le_add_left n _) hn, hplaced⟩

end Troupe.Server
