import Troupe.Cli.Follow

/-! # Following prints each event once

Along every run of `FollowStep` the records written are the committed events from one position on,
in order and without gap. The position is where the finite query starts; for `--tail 0` it is the
replay watermark of the first connection that was ready. The client ends with `StreamClosed` only
when the last record is the last event of the ended log, and it never reports a gap, an invalid
stream or another run.

The last needs that a probe of the server's identity fails in transport or not at all. Any other
failure of the probe, a 503 say, is reported as another run (`probe_status_ends`). -/

namespace Troupe.Cli

open Troupe.Lib Troupe.Core Troupe.Server
open Relation (ReflTransGen)

variable {runId : CanonicalUuid} {start : EventStart}

/-! ## Positions -/

/-- The position after which records are written, once it is known. -/
def Printout.position (output : Printout) (start : EventStart) : Option Nat :=
  if start.isTailZero then output.firstReplay.map SchemaU64.get
  else output.captured.map fun watermark => start.resolve watermark.get

/-- The records written are the committed events from the position on. -/
def Prints (start : EventStart) (log : CommittedLog runId) (output : Printout) : Prop :=
  match output.position start with
  | none => output.written = []
  | some position => output.written <+: (published log).drop position

/-- Every event from the position on was written. -/
def PrintedAll (start : EventStart) (log : CommittedLog runId) (output : Printout) : Prop :=
  ∃ position, output.position start = some position ∧
    output.written = (published log).drop position

theorem resolve_le (start : EventStart) (watermark : Nat) :
    start.resolve watermark ≤ watermark := by
  cases start with
  | tail count => exact Nat.sub_le _ _
  | after cursor =>
    unfold EventStart.resolve
    dsimp only
    split <;> omega

theorem resolve_tailZero {start : EventStart} (h : start.isTailZero = true) (watermark : Nat) :
    start.resolve watermark = watermark := by
  cases start with
  | tail count =>
    have hzero : count.get = 0 := by simpa [EventStart.isTailZero] using h
    rw [EventStart.resolve, hzero, Nat.sub_zero]
  | after => cases h

/-! ## What the client knows -/

/-- The client's cursor stands where its records end. -/
structure Knows (start : EventStart) (log : CommittedLog runId) (output : Printout)
    (state : FollowState) : Prop where
  run : state.cursor.runId = runId
  committed : state.cursor.sequence.get ≤ log.events.length
  /-- Before `--tail 0` has its first connection nothing is written. -/
  waiting : state.adoptConnectionHead = true →
    start.isTailZero = true ∧ output.firstReplay = none ∧ output.written = []
  printed : state.adoptConnectionHead = false →
    ∃ position, output.position start = some position ∧ position ≤ state.cursor.sequence.get ∧
      output.written = ((published log).take state.cursor.sequence.get).drop position

/-- The client and the stream it reads agree on what was sent. -/
structure Reads (state : FollowState) (requested : EventCursor) (ready : Bool)
    (stream : ServerStream) : Prop where
  resume : stream.resumeAfter = requested.sequence
  ready_iff : ready = stream.replayThrough.isSome
  adopted : ready = true → state.adoptConnectionHead = false
  fresh : ready = false → requested = state.cursor ∧ stream.sent = state.cursor.sequence.get
  sent_le : stream.sent ≤ state.cursor.sequence.get
  /-- The cursor is ahead of what was sent only up to the replay watermark. -/
  le_sent : state.cursor.sequence.get ≤ stream.sent ∨
    ∃ through ∈ stream.replayThrough, state.cursor.sequence.get ≤ through.get

/-- The invariant, stage by stage. -/
def Follows (start : EventStart) (w : FollowWorld runId) : Prop :=
  match w.client with
  | .querying =>
    w.output.captured = none ∧ w.output.firstReplay = none ∧ w.output.written = []
  | .printing rest lastOutput watermark =>
    w.output.captured = some watermark ∧ w.output.firstReplay = none ∧
      watermark.get ≤ w.log.events.length ∧
        lastOutput = w.output.written.getLast?.map .fromEvent ∧
          w.output.written ++ rest =
            ((published w.log).take watermark.get).drop (start.resolve watermark.get)
  | .identifying state _ => Knows start w.log w.output state
  | .connecting state _ => Knows start w.log w.output state
  | .consuming state requested ready stream =>
    Knows start w.log w.output state ∧ Reads state requested ready stream
  | .waiting state => Knows start w.log w.output state
  | .returned result => Prints start w.log w.output ∧
    (result = .ok .streamClosed → w.ended = true ∧ PrintedAll start w.log w.output) ∧
      ∀ code, result = .error code →
        code ≠ .sequenceGap ∧ code ≠ .invalidStream ∧ code ≠ .runIdentityMismatch

/-! ## The log -/

section Log

variable {log log' : CommittedLog runId} {output : Printout}

theorem published_getElem? {n : Nat} {event : CommittedEvent} (h : log.events[n]? = some event) :
    (published log)[n]? = some event.event := by
  rw [published, List.getElem?_map, h, Option.map_some]

theorem published_length : (published log).length = log.events.length := List.length_map _

theorem published_prefix (hgrows : log.events <+: log'.events) :
    published log <+: published log' := List.IsPrefix.map _ hgrows

/-- What was taken of the log is still there when it grows. -/
theorem published_grow (hgrows : log.events <+: log'.events) {n : Nat}
    (hn : n ≤ log.events.length) : (published log').take n = (published log).take n := by
  obtain ⟨more, hmore⟩ := published_prefix hgrows
  rw [← hmore, List.take_append_of_le_length (by rwa [published_length])]

theorem Prints.grow (h : Prints start log output) (hgrows : log.events <+: log'.events) :
    Prints start log' output := by
  unfold Prints at h ⊢
  cases hfound : output.position start with
  | none =>
    rw [hfound] at h
    exact h
  | some position =>
    rw [hfound] at h
    obtain ⟨more, hmore⟩ := published_prefix hgrows
    dsimp only
    rw [← hmore, List.drop_append]
    exact h.trans (List.prefix_append _ _)

theorem Knows.grow {state : FollowState} (h : Knows start log output state)
    (hgrows : log.events <+: log'.events) : Knows start log' output state where
  run := h.run
  committed := h.committed.trans hgrows.length_le
  waiting := h.waiting
  printed := by
    intro hadopted
    obtain ⟨position, hposition, hle, hwritten⟩ := h.printed hadopted
    exact ⟨position, hposition, hle, by rw [published_grow hgrows h.committed]; exact hwritten⟩

theorem Printout.write_none (output : Printout) : output.write none = output := by
  rw [Printout.write, Option.toList_none, List.append_nil]

/-- The records so far are the first ones from the position on. -/
theorem Knows.prints {state : FollowState} (h : Knows start log output state) :
    Prints start log output := by
  unfold Prints
  cases hadopt : state.adoptConnectionHead with
  | true =>
    obtain ⟨htail, hfirst, hwritten⟩ := h.waiting hadopt
    have hnone : output.position start = none := by
      rw [Printout.position, if_pos htail, hfirst]
      rfl
    rw [hnone]
    exact hwritten
  | false =>
    obtain ⟨position, hposition, -, hwritten⟩ := h.printed hadopt
    rw [hposition]
    dsimp only
    rw [hwritten, List.drop_take]
    exact List.take_prefix _ _

end Log

/-! ## Steps -/

section Steps

variable {w : FollowWorld runId}

/-- A client that ends without an error of its own. -/
theorem follows_returned (h : Prints start w.log w.output)
    {result : Except FollowErrorCode FollowTermination} (hclosed : result ≠ .ok .streamClosed)
    (hcode : ∀ code, result = .error code →
      code ≠ .sequenceGap ∧ code ≠ .invalidStream ∧ code ≠ .runIdentityMismatch) :
    Follows start { w with client := .returned result } :=
  ⟨h, fun hresult => absurd hresult hclosed, hcode⟩

/-- The records printed so far, whatever the stage. -/
theorem Follows.prints (h : Follows start w) : Prints start w.log w.output := by
  unfold Follows at h
  cases hclient : w.client with
  | querying =>
    rw [hclient] at h
    obtain ⟨hcaptured, hfirst, hwritten⟩ := h
    have hnone : w.output.position start = none := by
      rw [Printout.position, hcaptured, hfirst]
      split <;> rfl
    unfold Prints
    rw [hnone]
    exact hwritten
  | printing rest lastOutput watermark =>
    rw [hclient] at h
    obtain ⟨hcaptured, hfirst, hcommitted, -, hwritten⟩ := h
    unfold Prints
    by_cases htail : start.isTailZero = true
    · have hnone : w.output.position start = none := by
        rw [Printout.position, if_pos htail, hfirst]
        rfl
      rw [hnone]
      rw [resolve_tailZero htail, List.drop_eq_nil_of_le (List.length_take_le _ _)] at hwritten
      exact (List.append_eq_nil_iff.mp hwritten).1
    · have hsome : w.output.position start = some (start.resolve watermark.get) := by
        rw [Printout.position, if_neg htail, hcaptured]
        rfl
      rw [hsome]
      refine (List.prefix_append w.output.written rest).trans ?_
      rw [hwritten, List.drop_take]
      exact List.take_prefix _ _
  | identifying | connecting | waiting =>
    rw [hclient] at h
    exact Knows.prints h
  | consuming =>
    rw [hclient] at h
    exact h.1.prints
  | returned =>
    rw [hclient] at h
    exact h.1

theorem follows_query {response : EventsResponse} (h : Follows start w)
    (hclient : w.client = .querying) (hanswers : Answers w.log start response) :
    Follows start (w.queried start response) := by
  have hprints := h.prints
  unfold Follows at h
  rw [hclient] at h
  obtain ⟨-, hfirst, hwritten⟩ := h
  unfold FollowWorld.queried
  split
  · refine ⟨rfl, hfirst, hanswers.committed, ?_, ?_⟩
    · show none = w.output.written.getLast?.map _
      rw [hwritten]
      rfl
    · show w.output.written ++ response.events = _
      rw [hwritten, List.nil_append, hanswers.events]
  · exact follows_returned hprints nofun (by rintro code ⟨⟩; decide)

/-- The next initial event is later than the one before it. -/
theorem follows_print {event : DiagnosticEvent} {rest : List DiagnosticEvent}
    {lastOutput : Option EventCursor} {watermark : SchemaU64} (h : Follows start w)
    (hclient : w.client = .printing (event :: rest) lastOutput watermark) :
    Follows start (w.printed event rest lastOutput watermark) := by
  unfold Follows at h
  rw [hclient] at h
  obtain ⟨hcaptured, hfirst, hcommitted, hlast, hwritten⟩ := h
  have hget : ∀ i found, (w.output.written ++ event :: rest)[i]? = some found →
      found.header.runId = runId ∧
        found.header.sequence.get = start.resolve watermark.get + i + 1 := by
    intro i found hfound
    rw [hwritten, List.getElem?_drop, List.getElem?_take] at hfound
    split at hfound
    · rw [published, List.getElem?_map, Option.map_eq_some_iff] at hfound
      obtain ⟨committed, hcommitted, rfl⟩ := hfound
      exact ⟨w.log.sameRun _ (List.mem_of_getElem? hcommitted), w.log.sequence_get hcommitted⟩
    · cases hfound
  have hevent := hget w.output.written.length event (by simp)
  have hok : ensureInitialIdentity event runId lastOutput = .ok () := by
    have hprevious : (lastOutput.any fun previous =>
        decide (previous.sequence.get ≥ (EventCursor.fromEvent event).sequence.get)) = false := by
      rw [hlast]
      cases hlastEvent : w.output.written.getLast? with
      | none => rfl
      | some previous =>
        rw [List.getLast?_eq_getElem?] at hlastEvent
        have hlt := (List.getElem?_eq_some_iff.mp hlastEvent).1
        have hprev := hget (w.output.written.length - 1) previous (by
          rw [List.getElem?_append_left hlt]
          exact hlastEvent)
        simp only [Option.map_some, Option.any_some, EventCursor.fromEvent, hprev.2, hevent.2,
          decide_eq_false_iff_not]
        omega
    have hrun : ¬ (EventCursor.fromEvent event).runId ≠ runId := not_not.mpr hevent.1
    unfold ensureInitialIdentity
    dsimp only
    rw [if_neg hrun, if_neg (by simp [hprevious])]
  unfold FollowWorld.printed
  rw [hok]
  refine ⟨hcaptured, hfirst, hcommitted, ?_, ?_⟩
  · show some (EventCursor.fromEvent event) =
      (w.output.written ++ [event]).getLast?.map EventCursor.fromEvent
    rw [List.getLast?_concat, Option.map_some]
  · show w.output.written ++ [event] ++ rest = _
    rw [List.append_assoc]
    exact hwritten

theorem follows_printedAll {lastOutput : Option EventCursor} {watermark : SchemaU64}
    (h : Follows start w) (hclient : w.client = .printing [] lastOutput watermark) :
    Knows start w.log w.output
      { cursor := ⟨runId, watermark⟩, adoptConnectionHead := start.isTailZero } := by
  have hprints := h.prints
  unfold Follows at h
  rw [hclient] at h
  obtain ⟨hcaptured, hfirst, hcommitted, -, hwritten⟩ := h
  rw [List.append_nil] at hwritten
  refine ⟨rfl, hcommitted, fun htail => ?_, fun htail => ?_⟩
  · refine ⟨htail, hfirst, ?_⟩
    rw [hwritten, resolve_tailZero htail, List.drop_eq_nil_of_le (List.length_take_le _ _)]
  · have hsome : w.output.position start = some (start.resolve watermark.get) := by
      rw [Printout.position, if_neg (by simpa using htail), hcaptured]
      rfl
    exact ⟨_, hsome, resolve_le start _, hwritten⟩

theorem follows_connect {state : FollowState} {reconnect : Bool}
    (h : Knows start w.log w.output state) (reply : StreamReply) :
    Follows start (w.connected state reconnect reply) := by
  have hresume : (streamRequest state.cursor reconnect).resumeAfter = state.cursor.sequence := by
    cases reconnect <;> rfl
  unfold FollowWorld.connected
  cases hreply : connect reply with
  | error code =>
    refine follows_returned h.prints nofun ?_
    rintro _ ⟨⟩
    unfold connect at hreply
    split at hreply
    · cases hreply
    · split at hreply
      · cases hreply
      · split at hreply
        · cases hreply
          decide
        · split at hreply <;> cases hreply
          decide
  | ok result =>
    cases result with
    | retry => exact (h : Follows start { w with client := .waiting state })
    | connected =>
      show Knows start w.log w.output state ∧ _
      refine ⟨h, ?_, rfl, nofun, fun _ => ⟨rfl, ?_⟩, ?_, Or.inl ?_⟩
      · exact hresume
      · rw [ServerStream.opened, hresume]
      · rw [ServerStream.opened, hresume]
      · rw [ServerStream.opened, hresume]

/-! ## Frames -/

section Receive

variable {state : FollowState} {requested : EventCursor} {ready : Bool}
  {stream stream' : ServerStream}

/-- Any frame but the ready control leaves the replay watermark of the first connection. -/
theorem received_other {frame : DecodedFrame} (hframe : frame.replayThrough? = none) :
    w.received state requested ready frame stream' =
      match consumeFrame requested ready state frame with
      | .error code => { w with client := .returned (.error code) }
      | .ok (.proceed state ready record) =>
        { w with
          client := .consuming state requested ready stream'
          output := w.output.write record }
      | .ok .reconnect => { w with client := .waiting state }
      | .ok .closed => { w with client := .returned (.ok .streamClosed) } := by
  have hkept : w.output.firstReplay.or frame.replayThrough? = w.output.firstReplay := by
    rw [hframe, Option.or_none]
  unfold FollowWorld.received
  simp only [hkept] <;> rfl

/-- Once ready, an event under its own id is consumed. -/
theorem consumeFrame_event (requested : EventCursor) (state : FollowState)
    (event : CommittedEvent) :
    consumeFrame requested true state (.event event.sequence event.event) =
      (state.consumeEvent event.event).map fun (state, record) => .proceed state true record := by
  have hid : ¬ event.sequence ≠ event.event.header.sequence := not_not.mpr rfl
  unfold consumeFrame
  dsimp only
  rw [if_neg (by simp), if_neg hid]

/-- The next event of the stream is skipped below the cursor and written at it. -/
theorem follows_event {event : CommittedEvent} (h : Knows start w.log w.output state)
    (hreads : Reads state requested ready stream) (hready : stream.replayThrough.isSome = true)
    (hnext : w.log.events[stream.sent]? = some event) :
    Follows start (w.received state requested ready (.event event.sequence event.event)
      { stream with sent := stream.sent + 1 }) := by
  obtain rfl : ready = true := by rw [hreads.ready_iff, hready]
  have hrun : ¬ (EventCursor.fromEvent event.event).runId ≠ state.cursor.runId := by
    rw [not_not, h.run]
    exact w.log.sameRun event (List.mem_of_getElem? hnext)
  have hidentity : (EventCursor.fromEvent event.event).sequence.get = stream.sent + 1 :=
    w.log.sequence_get hnext
  have hlength : stream.sent < w.log.events.length := (List.getElem?_eq_some_iff.mp hnext).1
  rw [received_other rfl, consumeFrame_event]
  by_cases hskip : stream.sent + 1 ≤ state.cursor.sequence.get
  · have hconsume : state.consumeEvent event.event = .ok (state, none) := by
      unfold FollowState.consumeEvent
      dsimp only
      rw [if_neg hrun, if_pos (by rwa [hidentity])]
    rw [hconsume]
    refine ⟨?_, hreads.resume, hreads.ready_iff, hreads.adopted, nofun, hskip, ?_⟩
    · show Knows start w.log (w.output.write none) state
      rw [Printout.write_none]
      exact h
    · refine hreads.le_sent.imp (fun hle => ?_) id
      show state.cursor.sequence.get ≤ stream.sent + 1
      omega
  · have hcursor : state.cursor.sequence.get = stream.sent := by
      have := hreads.sent_le
      omega
    have hconsume : state.consumeEvent event.event =
        .ok ({ state with cursor := .fromEvent event.event }, some event.event) := by
      have hexpected : checkedAdd u64Max state.cursor.sequence.get 1 =
          some (stream.sent + 1) := by
        rw [hcursor, ← hidentity]
        refine checkedAdd_of_le ?_ |>.trans (by rw [hidentity])
        rw [← hidentity]
        exact (EventCursor.fromEvent event.event).sequence.le_max
      unfold FollowState.consumeEvent
      dsimp only
      rw [if_neg hrun, if_neg (by rwa [hidentity]), hexpected]
      dsimp only
      rw [if_neg (not_not.mpr hidentity)]
    rw [hconsume]
    refine ⟨⟨?_, ?_, fun hadopt => ?_, fun hadopt => ?_⟩, hreads.resume, hreads.ready_iff,
      hreads.adopted, nofun, hidentity.ge, Or.inl hidentity.le⟩
    · exact w.log.sameRun event (List.mem_of_getElem? hnext)
    · exact hidentity.le.trans hlength
    · exact absurd ((hreads.adopted rfl).symm.trans hadopt) Bool.false_ne_true
    · obtain ⟨position, hposition, hle, hwritten⟩ := h.printed hadopt
      refine ⟨position, hposition, ?_, ?_⟩
      · exact (hle.trans hcursor.le).trans ((Nat.le_succ _).trans hidentity.ge)
      · show w.output.written ++ [event.event] =
          ((published w.log).take (EventCursor.fromEvent event.event).sequence.get).drop position
        have htake : (published w.log).take (stream.sent + 1) =
            (published w.log).take stream.sent ++ [event.event] := by
          rw [List.take_add_one, published_getElem? hnext]
          rfl
        have hlong : position ≤ ((published w.log).take stream.sent).length := by
          rw [List.length_take, published_length]
          omega
        rw [hidentity, htake, List.drop_append_of_le_length hlong, hwritten, hcursor]

/-- The ready control moves the cursor once, for `--tail 0`. -/
theorem follows_ready {through : SchemaU64} (h : Knows start w.log w.output state)
    (hreads : Reads state requested ready stream) (hnew : stream.replayThrough = none)
    (hresume : stream.resumeAfter ≤ through) (hcommitted : through.get ≤ w.log.events.length) :
    Follows start (w.received state requested ready
      (.control (.streamReady runId stream.resumeAfter through))
      { stream with replayThrough := some through }) := by
  obtain rfl : ready = false := by rw [hreads.ready_iff, hnew]; rfl
  obtain ⟨rfl, hsent⟩ := hreads.fresh rfl
  have hrun : ¬ (DecodedSseControl.streamReady runId stream.resumeAfter through).runId ≠
      state.cursor.runId := not_not.mpr h.run.symm
  unfold FollowWorld.received consumeFrame consumeControl
  dsimp only
  rw [if_neg hrun, if_neg Bool.false_ne_true, if_neg (not_not.mpr hreads.resume)]
  cases hadopt : state.adoptConnectionHead with
  | true =>
    obtain ⟨htail, hfirst, hwritten⟩ := h.waiting hadopt
    rw [if_pos rfl]
    have hcursor : stream.sent ≤ through.get := by
      rw [hsent, ← hreads.resume]
      exact hresume
    refine ⟨⟨h.run, hcommitted, nofun, fun _ => ⟨through.get, ?_, le_rfl, ?_⟩⟩, hreads.resume, rfl,
      fun _ => rfl, nofun, hcursor, Or.inr ⟨through, rfl, le_rfl⟩⟩
    · show Printout.position (.write _ none) start = _
      rw [Printout.write_none, Printout.position, if_pos htail, hfirst]
      rfl
    · show w.output.written ++ [] = ((published w.log).take through.get).drop through.get
      rw [hwritten, List.drop_eq_nil_of_le (List.length_take_le _ _)]
      rfl
  | false =>
    rw [if_neg Bool.false_ne_true]
    refine ⟨⟨h.run, h.committed, fun htrue => ?_, fun _ => ?_⟩, hreads.resume, rfl,
      fun _ => hadopt, nofun, hreads.sent_le, Or.inl hsent.ge⟩
    · rw [hadopt] at htrue
      cases htrue
    · obtain ⟨position, hposition, hle, hwritten⟩ := h.printed hadopt
      refine ⟨position, ?_, hle, (List.append_nil _).trans hwritten⟩
      show Printout.position (.write _ none) start = _
      rw [Printout.write_none, ← hposition]
      unfold Printout.position at hposition ⊢
      by_cases htail : start.isTailZero = true
      · rw [if_pos htail] at hposition
        obtain ⟨found, hfirst, -⟩ := Option.map_eq_some_iff.mp hposition
        rw [if_pos htail, if_pos htail, hfirst]
        rfl
      · rw [if_neg htail, if_neg htail]

/-- A watermark the server may send is not behind the cursor. -/
theorem cursor_le_watermark (hreads : Reads state requested ready stream) {watermark : Nat}
    (hfits : WatermarkFits w.log stream watermark) : state.cursor.sequence.get ≤ watermark := by
  rcases hreads.le_sent with hle | ⟨through, hthrough, hle⟩
  · exact hle.trans hfits.sent
  · exact hle.trans (hfits.replay through hthrough)

theorem follows_receive {frame : DecodedFrame} (h : Knows start w.log w.output state)
    (hreads : Reads state requested ready stream)
    (hsends : StreamSends w.log w.ended stream frame stream') :
    Follows start (w.received state requested ready frame stream') := by
  have hready : ∀ {p : Prop}, stream.replayThrough.isSome = true → (ready = true → p) → p :=
    fun hsome hp => hp (by rw [hreads.ready_iff, hsome])
  have hrun : ∀ control : DecodedSseControl, control.runId = runId →
      ¬ control.runId ≠ state.cursor.runId :=
    fun control hcontrol => not_not.mpr (hcontrol.trans h.run.symm)
  cases hsends with
  | ready hnew _ hresume hcommitted => exact follows_ready h hreads hnew hresume hcommitted
  | event hsome _ hnext => exact follows_event h hreads hsome hnext
  | heartbeat hsome _ hfits =>
    refine hready hsome fun hready => ?_
    subst hready
    rw [received_other rfl, consumeFrame, consumeControl,
      if_neg (hrun (.heartbeat runId _) rfl)]
    rw [if_neg (by simp), if_neg (not_lt.mpr (cursor_le_watermark hreads hfits))]
    refine ⟨?_, hreads⟩
    show Knows start w.log (w.output.write none) state
    rw [Printout.write_none]
    exact h
  | deliveryGap hsome _ hfits =>
    refine hready hsome fun hready => ?_
    subst hready
    rw [received_other rfl, consumeFrame, consumeControl,
      if_neg (hrun (.deliveryGap runId _ _ _) rfl)]
    rw [if_neg (by simp), if_neg (not_lt.mpr (cursor_le_watermark hreads hfits))]
    exact h
  | resyncRequired =>
    rw [received_other rfl, consumeFrame, consumeControl,
      if_neg (hrun (.resyncRequired runId _ _ _) rfl)]
    exact follows_returned h.prints nofun (by rintro _ ⟨⟩; decide)
  | @streamClosed reason watermark hsome _ hover hsent hfinal =>
    refine hready hsome fun hready => ?_
    subst hready
    have hcursor : state.cursor.sequence.get = w.log.events.length := by
      have := h.committed
      have := hreads.sent_le
      omega
    have hsame : watermark = state.cursor.sequence :=
      SchemaU64.get_injective (by rw [hfinal, hcursor])
    rw [received_other rfl, consumeFrame, consumeControl,
      if_neg (hrun (.streamClosed runId _ _) rfl)]
    rw [if_neg (by simp), if_neg (not_not.mpr hsame)]
    refine ⟨h.prints, fun _ => ⟨hover, ?_⟩, nofun⟩
    obtain ⟨position, hposition, -, hwritten⟩ := h.printed (hreads.adopted rfl)
    refine ⟨position, hposition, hwritten.trans ?_⟩
    rw [hcursor, ← published_length, List.take_length]

end Receive

/-- **What one step keeps.** -/
theorem follows_step {w' : FollowWorld runId} (h : Follows start w)
    (hstep : FollowStep start (· = .transport) w w') : Follows start w' := by
  have hprints := h.prints
  cases hstep with
  | @commit log hopen hgrows =>
    unfold Follows at h ⊢
    dsimp only
    cases hclient : w.client with
    | querying =>
      rw [hclient] at h
      exact h
    | printing rest lastOutput watermark =>
      rw [hclient] at h
      obtain ⟨hcaptured, hfirst, hcommitted, hlast, hwritten⟩ := h
      refine ⟨hcaptured, hfirst, hcommitted.trans hgrows.length_le, hlast, ?_⟩
      rw [published_grow hgrows hcommitted]
      exact hwritten
    | identifying | connecting | waiting =>
      rw [hclient] at h
      exact h.grow hgrows
    | consuming =>
      rw [hclient] at h
      exact ⟨h.1.grow hgrows, h.2⟩
    | returned =>
      rw [hclient] at h
      refine ⟨hprints.grow hgrows, fun hresult => ?_, h.2.2⟩
      rw [(h.2.1 hresult).1] at hopen
      cases hopen
  | finish =>
    unfold Follows at h ⊢
    dsimp only
    cases hclient : w.client with
    | querying | printing =>
      rw [hclient] at h
      exact h
    | identifying | connecting | waiting =>
      rw [hclient] at h
      exact ⟨h.run, h.committed, h.waiting, h.printed⟩
    | consuming =>
      rw [hclient] at h
      exact ⟨⟨h.1.run, h.1.committed, h.1.waiting, h.1.printed⟩, h.2⟩
    | returned =>
      rw [hclient] at h
      exact ⟨h.1, fun hresult => ⟨rfl, (h.2.1 hresult).2⟩, h.2.2⟩
  | queryFailed hclient hcode =>
    refine follows_returned hprints nofun ?_
    rintro _ ⟨⟩
    rcases hcode with rfl | rfl | rfl <;> decide
  | query response hclient hanswers => exact follows_query h hclient hanswers
  | print hclient => exact follows_print h hclient
  | printedAll hclient =>
    have hknows := follows_printedAll h hclient
    exact hknows
  | identified hclient | reconnect hclient =>
    unfold Follows at h
    rw [hclient] at h
    exact h
  | probeFailed code hclient hcode =>
    subst hcode
    unfold Follows at h
    rw [hclient] at h
    exact h
  | connect reply hclient =>
    unfold Follows at h
    rw [hclient] at h
    exact follows_connect h reply
  | receive hclient hsends =>
    unfold Follows at h
    rw [hclient] at h
    exact follows_receive h.1 h.2 hsends
  | disconnect hclient =>
    unfold Follows at h
    rw [hclient] at h
    exact h.1
  | interrupt => exact follows_returned hprints nofun nofun
  | outputFailed => exact follows_returned hprints nofun (by rintro _ ⟨⟩; decide)

end Steps

/-! ## Runs -/

/-- A client that has not asked for anything. -/
def FollowWorld.initial (log : CommittedLog runId) (ended : Bool) : FollowWorld runId where
  log := log
  ended := ended
  client := .querying
  output := { written := [], captured := none, firstReplay := none }

/-- **Following prints each event once.** Along every run whose identity probes fail in transport
or not at all:

* the records written are the committed events from the starting position on, in order, none twice
  and none left out;
* the client ends with `StreamClosed` only when the log has ended and all of it was written;
* it reports no gap, no invalid stream and no other run. -/
theorem follow_prints_once (log : CommittedLog runId) (ended : Bool) {w : FollowWorld runId}
    (hrun : ReflTransGen (FollowStep start (· = .transport)) (.initial log ended) w) :
    Prints start w.log w.output ∧
      (w.client = .returned (.ok .streamClosed) → w.ended = true ∧ PrintedAll start w.log w.output) ∧
        ∀ code, w.client = .returned (.error code) →
          code ≠ .sequenceGap ∧ code ≠ .invalidStream ∧ code ≠ .runIdentityMismatch := by
  have hinit : Follows start (FollowWorld.initial log ended) := ⟨rfl, rfl, rfl⟩
  have hfollows : Follows start w :=
    run_invariant (p := Follows start) (fun _ _ h hstep => follows_step h hstep) hinit hrun
  refine ⟨hfollows.prints, fun hclosed => ?_, fun code hcode => ?_⟩
  · unfold Follows at hfollows
    rw [hclosed] at hfollows
    exact hfollows.2.1 rfl
  · unfold Follows at hfollows
    rw [hcode] at hfollows
    exact hfollows.2.2 code rfl

/-! ## Two runs -/

/-- Events of run 1. -/
def firstEvent : CommittedEvent :=
  ⟨.instantOccurred ⟨.at 1 0 [] SchemaU64.one_pos, .cueAdmitted, none⟩, utf8 "{}"⟩

def secondEvent : CommittedEvent :=
  ⟨.instantOccurred ⟨.at 2 0 [] SchemaU64.two_pos, .cueAdmitted, none⟩, utf8 "{}"⟩

/-- A log of one event. -/
def oneEventLog : CommittedLog ⟨1⟩ where
  events := [firstEvent]
  dense := rfl
  sameRun := by
    simp [firstEvent, CommittedEvent.runId, DiagnosticEvent.header, DiagnosticEventHeader.at]

/-- A log of both. -/
def twoEventLog : CommittedLog ⟨1⟩ where
  events := [firstEvent, secondEvent]
  dense := rfl
  sameRun := by
    simp [firstEvent, secondEvent, CommittedEvent.runId, DiagnosticEvent.header,
      DiagnosticEventHeader.at]

/-- The finite answer that has the first event. -/
def firstResponse : EventsResponse where
  apiSchemaVersion := 1
  runId := ⟨1⟩
  capturedWatermark := 1
  events := [firstEvent.event]
  nextAfter := none

/-- A client prints the event of its query, loses its stream, and prints the event committed since
from the next. -/
theorem follow_prints_once_run : ∃ w : FollowWorld ⟨1⟩,
    ReflTransGen (FollowStep (.after 0) (· = .transport)) (.initial oneEventLog false) w ∧
      w.output.written = [firstEvent.event, secondEvent.event] ∧
      w.client = .returned (.ok .streamClosed) ∧ PrintedAll (.after 0) w.log w.output := by
  have h : ReflTransGen (FollowStep (.after 0) (· = .transport)) (.initial oneEventLog false) _ :=
    .single (.query firstResponse rfl ⟨rfl, rfl, by decide, rfl, rfl⟩)
  have h := h.tail (.print rfl)
  have h := h.tail (.printedAll rfl)
  have h := h.tail (.identified rfl)
  have h := h.tail (.connect (.answered 200 true) rfl)
  have h := h.tail (.receive rfl (@StreamSends.ready _ _ _ _ 1 rfl rfl (by decide) (by decide)))
  have h := h.tail (.disconnect rfl)
  have h := h.tail (@FollowStep.commit _ _ _ _ twoEventLog rfl ⟨[secondEvent], rfl⟩)
  have h := h.tail .finish
  have h := h.tail (.reconnect rfl)
  have h := h.tail (.identified rfl)
  have h := h.tail (.connect (.answered 200 true) rfl)
  have h := h.tail (.receive rfl (@StreamSends.ready _ _ _ _ 1 rfl rfl (by decide) (by decide)))
  have h := h.tail (.receive rfl (.event rfl rfl rfl))
  have h := h.tail
    (.receive rfl (@StreamSends.streamClosed _ _ _ _ "run_finished" 2 rfl rfl rfl rfl rfl))
  exact ⟨_, h, rfl, rfl, ((follow_prints_once oneEventLog false h).2.1 rfl).2⟩

/-- A probe answered with another status than 200 is reported as another run. -/
theorem probe_status_ends :
    ∃ w : FollowWorld ⟨1⟩,
      ReflTransGen (FollowStep (.after 0) (· = .unexpectedStatus)) (.initial oneEventLog true) w ∧
        w.client = .returned (.error .runIdentityMismatch) := by
  have h : ReflTransGen (FollowStep (.after 0) (· = .unexpectedStatus))
      (.initial oneEventLog true) _ :=
    .single (.query firstResponse rfl ⟨rfl, rfl, by decide, rfl, rfl⟩)
  have h := h.tail (.print rfl)
  have h := h.tail (.printedAll rfl)
  exact ⟨_, h.tail (.probeFailed .unexpectedStatus rfl rfl), rfl⟩

end Troupe.Cli
