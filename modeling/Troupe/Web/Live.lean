import Troupe.Web.Standing

/-! # What the browser shows follows the log

* `KeepsReady`: but for a `stream_ready` frame, nothing sets `readySeen`.
* `live_controller_follows_log`: along every run of the page the diagnostics are a hydration
  followed by the log's events in order, callbacks of other streams change nothing, and what makes
  the cursor doubtful starts a resynchronization. -/

namespace Troupe.Web

open Troupe.Lib Troupe.Core Troupe.Server
open Relation (ReflTransGen)

variable {Summary Live View : Type} {runId : CanonicalUuid}

/-! ## The handshake of a connection -/

/-- A `stream_ready` was heard. -/
def HeardReady (heard : List DecodedSseFrame) : Prop :=
  ∃ frameRunId resumeAfter replayThrough,
    .control frameRunId (.streamReady resumeAfter replayThrough) ∈ heard

/-- `readySeen` is not set, and the stream it is about stays. -/
def KeepsReady (c c' : Controller Summary Live View) : Prop :=
  c'.readySeen = true → c.readySeen = true ∧ c'.stream = c.stream

section Handshake

variable {R : Reducers Summary Live View} {log : CommittedLog runId}
  {c : Controller Summary Live View}

theorem KeepsReady.of_unset {c' : Controller Summary Live View} (h : c'.readySeen = false) :
    KeepsReady c c' := by
  intro hseen
  rw [h] at hseen
  cases hseen

theorem fail_keepsReady (error : ThrownError) : KeepsReady c (c.fail error) := by
  unfold Controller.fail
  split
  · exact fun hseen => ⟨hseen, rfl⟩
  · exact .of_unset rfl

theorem failActive_keepsReady (generation : Nat) (error : ThrownError) :
    KeepsReady c (c.failActive generation error) := by
  unfold Controller.failActive
  split
  · exact fail_keepsReady error
  · exact fun hseen => ⟨hseen, rfl⟩

theorem stop_keepsReady : KeepsReady c c.stop := by
  unfold Controller.stop
  split
  · exact fun hseen => ⟨hseen, rfl⟩
  · exact .of_unset rfl

theorem beginResync_keepsReady : KeepsReady c c.beginResync := by
  unfold Controller.beginResync
  split
  · exact fun hseen => ⟨hseen, rfl⟩
  · dsimp only
    split
    · exact fun hseen => absurd (failActive_keepsReady _ _ hseen).1 nofun
    · exact .of_unset rfl

theorem enterWindow_keepsReady (status : DiagnosticStatus) (snapshot : SnapshotResponse Summary)
    (state : DiagnosticState Live View) (constructor : Option ThrownError) :
    KeepsReady c (c.enterWindow status snapshot state constructor).1 := by
  unfold Controller.enterWindow Controller.openStream
  dsimp only
  split
  · exact fun hseen => ⟨hseen, rfl⟩
  split
  · exact fun hseen => ⟨hseen, rfl⟩
  split
  · exact fun hseen => ⟨hseen, rfl⟩
  split
  · exact .of_unset rfl
  · exact .of_unset rfl

theorem KeepsReady.trans {a b c : Controller Summary Live View} (hab : KeepsReady a b)
    (hbc : KeepsReady b c) : KeepsReady a c := by
  intro hseen
  obtain ⟨hb, hstream⟩ := hbc hseen
  obtain ⟨ha, hstream'⟩ := hab hb
  exact ⟨ha, hstream.trans hstream'⟩

theorem finishResync_keepsReady (generation : Nat) (bootstrap : DiagnosticBootstrap)
    (status : DiagnosticStatus) (snapshot : SnapshotResponse Summary) (suffix : EventsResponse)
    (constructor : Option ThrownError) :
    KeepsReady c (c.finishResync R generation bootstrap status snapshot suffix constructor) := by
  unfold Controller.finishResync
  split
  · exact fun hseen => ⟨hseen, rfl⟩
  split
  · exact fail_keepsReady _
  split
  · exact fail_keepsReady _
  rename_i state _
  have hentered := enterWindow_keepsReady (c := c.updateStatus bootstrap status) status snapshot
    state constructor
  split
  · rename_i entered hwindow
    rw [hwindow] at hentered
    exact hentered
  · rename_i entered error hwindow
    rw [hwindow] at hentered
    exact hentered.trans (failActive_keepsReady generation error)

theorem onResponse_keepsReady (i : Nat) (response : Response Summary)
    (constructor : Option ThrownError) :
    KeepsReady c (c.onResponse R i response constructor) := by
  unfold Controller.onResponse
  split
  · split
    · exact failActive_keepsReady _ _
    · exact fun hseen => ⟨hseen, rfl⟩
  · split
    · exact failActive_keepsReady _ _
    · exact fun hseen => ⟨hseen, rfl⟩
  · split
    · exact failActive_keepsReady _ _
    · exact finishResync_keepsReady _ _ _ _ _ _
  · split
    · exact fun hseen => ⟨hseen, rfl⟩
    split
    · exact fun hseen => ⟨hseen, rfl⟩
    · exact fun hseen => ⟨hseen, rfl⟩
  · exact failActive_keepsReady _ _
  · exact failActive_keepsReady _ _
  · exact failActive_keepsReady _ _
  · exact fun hseen => ⟨hseen, rfl⟩
  · exact fun hseen => ⟨hseen, rfl⟩

theorem onStartResponse_keepsReady (response : Response Summary)
    (constructor : Option ThrownError) :
    KeepsReady c (c.onStartResponse R response constructor) := by
  have hreturned (error : ThrownError) :
      KeepsReady c (Controller.fail { c with start := .returned } error) :=
    fail_keepsReady (c := { c with start := .returned }) error
  unfold Controller.onStartResponse
  dsimp only
  split
  · split
    · exact fun hseen => ⟨hseen, rfl⟩
    split
    · exact fun hseen => ⟨hseen, rfl⟩
    · exact fun hseen => ⟨hseen, rfl⟩
  · split
    · exact hreturned _
    · exact fun hseen => ⟨hseen, rfl⟩
  · rename_i bootstrap snapshot suffix _
    split
    · exact hreturned _
    split
    · exact fun hseen => ⟨hseen, rfl⟩
    split
    · exact hreturned _
    rename_i state _
    have hentered := enterWindow_keepsReady (c := { c with start := .returned }) bootstrap.status
      snapshot state constructor
    split
    · rename_i entered hwindow
      rw [hwindow] at hentered
      exact hentered
    · rename_i entered error hwindow
      rw [hwindow] at hentered
      exact KeepsReady.trans hentered (fail_keepsReady error)
  · exact hreturned _
  · exact hreturned _
  · exact hreturned _
  · exact fun hseen => ⟨hseen, rfl⟩

/-- Only a `stream_ready` frame sets `readySeen`. -/
theorem handleFrame_ready (frame : DecodedSseFrame) :
    KeepsReady c (c.handleFrame R frame) ∨
      (HeardReady [frame] ∧ (c.handleFrame R frame).stream = c.stream) := by
  unfold Controller.handleFrame
  split
  · exact .inl fun hseen => ⟨hseen, rfl⟩
  rename_i state _
  cases frame with
  | event event =>
    refine .inl ?_
    dsimp only
    unfold Controller.handleEvent
    split
    · exact fail_keepsReady _
    split
    · exact fail_keepsReady _
    split
    · exact fun hseen => ⟨hseen, rfl⟩
    dsimp only
    split
    · exact beginResync_keepsReady (c := c.commitDiagnostic _)
    · exact fun hseen => ⟨hseen, rfl⟩
  | control frameRunId control =>
    dsimp only
    unfold Controller.handleControl
    split
    · exact .inl (fail_keepsReady _)
    cases control with
    | streamReady resumeAfter replayThrough =>
      dsimp only
      unfold Controller.handleReady
      split
      · exact .inl (fail_keepsReady _)
      split
      · exact .inl beginResync_keepsReady
      · exact .inr ⟨⟨frameRunId, resumeAfter, replayThrough, List.mem_singleton_self _⟩, rfl⟩
    | heartbeat watermark =>
      refine .inl ?_
      dsimp only
      split
      · exact fail_keepsReady _
      · exact fun hseen => ⟨hseen, rfl⟩
    | deliveryGap _ watermark =>
      exact .inl (beginResync_keepsReady (c := c.observeWatermark R state watermark))
    | resyncRequired _ watermark =>
      exact .inl (beginResync_keepsReady (c := c.observeWatermark R state watermark))
    | streamClosed reason watermark =>
      refine .inl ?_
      dsimp only
      unfold Controller.handleClosed
      dsimp only
      split
      · exact .of_unset rfl
      · exact .of_unset rfl

end Handshake

/-! ## Runs -/

/-- What holds of the page at every moment. -/
structure PageInvariant (R : Reducers Summary Live View) (log : CommittedLog runId)
    (w : World Summary Live View) : Prop where
  sound : Sound R log w.controller
  standing : Standing w.controller
  heard : w.controller.readySeen = true → ∀ k ∈ w.controller.stream, HeardReady (w.heard k)

section Runs

variable {R : Reducers Summary Live View} {log : CommittedLog runId} {w : World Summary Live View}

theorem new_pageInvariant : PageInvariant R log (World.new : World Summary Live View) := by
  refine ⟨⟨?_, ?_, nofun, ?_, trivial, nofun⟩, .starting ⟨rfl, rfl, rfl, rfl, .inl ⟨rfl, rfl⟩⟩,
    nofun⟩
  · intro i op hget
    cases hget
  · intro k stream hget
    cases hget
  · intro i op hget
    cases hget

/-- The frames heard stay those of the connection when no callback comes. -/
theorem heard_of_keepsReady {c' : Controller Summary Live View}
    (h : PageInvariant R log w) (hkeeps : KeepsReady w.controller c') :
    c'.readySeen = true → ∀ k ∈ c'.stream, HeardReady (w.heard k) := by
  intro hseen k hk
  obtain ⟨hready, hstream⟩ := hkeeps hseen
  exact h.heard hready k (hstream ▸ hk)

theorem PageInvariant.following (h : PageInvariant R log w) {k : Nat}
    (hstream : w.controller.stream = some k) : Following w.controller k := by
  cases h.standing with
  | starting h' => exact absurd hstream (by simp [h'.noStream])
  | resyncing h' => exact absurd hstream (by simp [h'.noStream])
  | stranded h' _ _ => exact absurd hstream (by simp [h'.noStream])
  | ended h' => exact absurd hstream (by simp [h'.noStream])
  | stopped h' => exact absurd hstream (by simp [h'.noStream])
  | following j h' _ =>
    obtain rfl : k = j := Option.some.inj (hstream.symm.trans h'.stream)
    exact h'

theorem callback_heard (h : PageInvariant R log w) (k : Nat)
    (callback : Callback) (hseen : (w.controller.onCallback R k callback).readySeen = true) :
    ∀ j ∈ (w.controller.onCallback R k callback).stream,
      HeardReady (Function.update w.heard k (hear (w.heard k) callback) j) := by
  intro j hj
  by_cases hother : w.controller.stream ≠ some k
  · rw [onCallback_other h.sound hother] at hseen hj
    have hjk : j ≠ k := by
      rintro rfl
      exact hother hj
    rw [Function.update_of_ne hjk]
    exact h.heard hseen j hj
  have hstream : w.controller.stream = some k := not_not.mp hother
  have h' := h.following hstream
  have hawait (phase : LiveConnectionPhase) :
      (w.controller.awaitReady phase).readySeen = false := by
    unfold Controller.awaitReady
    dsimp only
    split <;> rfl
  rw [h'.onCallback] at hseen hj
  cases callback with
  | opened =>
    rw [hawait] at hseen
    cases hseen
  | errored =>
    rw [hawait] at hseen
    cases hseen
  | protocolError error =>
    obtain ⟨hready, hkeeps⟩ := fail_keepsReady error hseen
    have hjk : j = k := by
      rw [hkeeps, hstream] at hj
      exact (Option.some.inj hj).symm
    rw [hjk, Function.update_self]
    exact h.heard hready k hstream
  | frame frame =>
    rcases handleFrame_ready (R := R) frame with hkeeps | ⟨⟨r, a, t, hmem⟩, hkeeps⟩
    · obtain ⟨hready, hkeeps⟩ := hkeeps hseen
      have hjk : j = k := by
        rw [hkeeps, hstream] at hj
        exact (Option.some.inj hj).symm
      obtain ⟨r, a, t, hmem⟩ := h.heard hready k hstream
      rw [hjk, Function.update_self]
      exact ⟨r, a, t, List.mem_append_left _ hmem⟩
    · have hjk : j = k := by
        rw [hkeeps, hstream] at hj
        exact (Option.some.inj hj).symm
      rw [hjk, Function.update_self]
      exact ⟨r, a, t, List.mem_append_right _ hmem⟩

/-- One step keeps the invariant, moves no cursor back and leaves no final phase. -/
theorem step_pageInvariant {w w' : World Summary Live View} (h : PageInvariant R log w)
    (hstep : LiveStep R log w w') :
    PageInvariant R log w' ∧ Advances w.controller w'.controller := by
  obtain ⟨action, hfrom, rfl⟩ := hstep
  have hpage {c' : Controller Summary Live View} (hkept : Kept R log w.controller c')
      (hready : KeepsReady w.controller c') :
      PageInvariant R log { w with controller := c' } ∧ Advances w.controller c' := by
    have hheard := heard_of_keepsReady h hready
    exact ⟨⟨hkept.sound, hkept.standing, hheard⟩, hkept.advances⟩
  cases action with
  | start =>
    refine hpage (callStart_kept h.sound h.standing) ?_
    unfold Controller.callStart
    split <;> exact fun hseen => ⟨hseen, rfl⟩
  | startResponse response constructor =>
    exact hpage (onStartResponse_kept h.sound h.standing hfrom)
      (onStartResponse_keepsReady response constructor)
  | response i response constructor =>
    exact hpage (onResponse_kept h.sound h.standing hfrom)
      (onResponse_keepsReady i response constructor)
  | present change =>
    refine hpage (present_kept h.sound h.standing change) ?_
    unfold Controller.present
    split <;> exact fun hseen => ⟨hseen, rfl⟩
  | stop => exact hpage (stop_kept h.sound h.standing) stop_keepsReady
  | callback k callback =>
    have hlog : ∀ event, callback = .frame (.event event) → event.runId = runId →
        event ∈ log.events := by
      rintro event rfl
      exact hfrom
    have hkept := onCallback_kept (R := R) (k := k) h.sound h.standing hlog
    exact ⟨⟨hkept.sound, hkept.standing, callback_heard h k callback⟩, hkept.advances⟩

theorem run_pageInvariant
    (hrun : ReflTransGen (LiveStep R log) World.new w) : PageInvariant R log w :=
  run_invariant (p := PageInvariant R log) (fun _ _ h hstep => (step_pageInvariant h hstep).1)
    new_pageInvariant hrun

/-- Later the cursor is not behind, and a final phase was not left. -/
theorem run_advances {w w' : World Summary Live View} (h : PageInvariant R log w)
    (hrun : ReflTransGen (LiveStep R log) w w') : Advances w.controller w'.controller := by
  induction hrun with
  | refl => exact .refl _
  | tail hbefore hstep ih =>
    have hinv : PageInvariant R log _ :=
      run_invariant (p := PageInvariant R log) (fun _ _ h hstep => (step_pageInvariant h hstep).1) h
        hbefore
    exact ih.trans (step_pageInvariant hinv hstep).2

/-! ## What a page shows -/

/-- A frame that makes the cursor doubtful: a gap the server declares, an event that is not the
next one, or a handshake for another cursor. -/
def DecodedSseFrame.Doubtful (c : Controller Summary Live View)
    (state : DiagnosticState Live View) : DecodedSseFrame → Prop
  | .event received =>
    c.readySeen = true ∧ received.runId = state.runId ∧
      state.cursor.deliveredThrough + 1 < received.sequence.get
  | .control frameRunId (.deliveryGap _ _) => frameRunId = state.runId
  | .control frameRunId (.resyncRequired _ _) => frameRunId = state.runId
  | .control frameRunId (.streamReady resumeAfter replayThrough) =>
    frameRunId = state.runId ∧ c.readySeen = false ∧
      (c.expectedResume ≠ some resumeAfter ∨ replayThrough < state.cursor.committedWatermark)
  | .control _ _ => False

/-- What a page shows, at a moment of a run. -/
structure ShowsLog (R : Reducers Summary Live View) (log : CommittedLog runId)
    (w : World Summary Live View) : Prop where
  follows : ∀ state ∈ w.controller.current.diagnostics, FollowsLog R log state
  /-- At most one stream is open. -/
  oneOpen : ∀ (i j : Nat) si sj, w.controller.streams[i]? = some si →
    w.controller.streams[j]? = some sj → si.closed = false → sj.closed = false → i = j
  /-- Only the controller's own stream is listened to, and only while its generation is the
  present one. -/
  others : ∀ k callback, w.controller.stream ≠ some k →
    w.controller.onCallback R k callback = w.controller
  stale : ∀ (k : Nat) stream callback, w.controller.streams[k]? = some stream →
    stream.closed = true ∨ stream.generation ≠ w.controller.generation →
      w.controller.onCallback R k callback = w.controller
  /-- An event is applied after the `stream_ready` of its connection only. -/
  handshake : ∀ k event,
    (w.controller.onCallback R k (.frame (.event event))).current.diagnostics ≠
      w.controller.current.diagnostics → HeardReady (w.heard k)
  /-- What makes the cursor doubtful starts a resynchronization. -/
  resyncs : ∀ k frame, w.controller.stream = some k →
    ∀ state ∈ w.controller.current.diagnostics, frame.Doubtful w.controller state →
      Resyncing (w.controller.onCallback R k (.frame frame))
  /-- While there is a delivery issue a resynchronization is in progress, unless the phase is
  terminal. -/
  issue : ∀ state ∈ w.controller.current.diagnostics, state.deliveryIssue ≠ none →
    Resyncing w.controller ∨ w.controller.isTerminal = true
  /-- Later the cursor is not behind, and `archive`, `closed`, `failed` and `stopped` are not
  left. -/
  later : ∀ w', ReflTransGen (LiveStep R log) w w' → Advances w.controller w'.controller

theorem doubtful_resyncs {c : Controller Summary Live View} {k : Nat}
    {state : DiagnosticState Live View} {frame : DecodedSseFrame} (hsound : Sound R log c)
    (h : Following c k) (hstate : c.current.diagnostics = some state)
    (hdoubtful : frame.Doubtful c state) : Resyncing (c.onCallback R k (.frame frame)) := by
  rw [h.onCallback]
  show Resyncing (c.handleFrame R frame)
  unfold Controller.handleFrame
  rw [hstate]
  cases frame with
  | event event =>
    obtain ⟨hready, hrun, hgap⟩ := hdoubtful
    dsimp only
    unfold Controller.handleEvent
    rw [hready, if_neg (by simp), if_neg (not_not.mpr hrun)]
    have hreceived : ∃ next, receiveEvent R state event = some next ∧
        next.deliveryIssue.isSome = true ∧ FollowsLog R log next := by
      unfold receiveEvent
      dsimp only
      rw [if_neg (not_not.mpr hrun), if_neg (by omega), if_pos (by omega)]
      exact ⟨_, rfl, rfl, hsound.follows state hstate⟩
    obtain ⟨next, hnext, hissue, hfollows⟩ := hreceived
    rw [hnext]
    dsimp only
    rw [if_pos hissue]
    exact (beginResync_kept (hsound.withDiagnostics hfollows) (h.withDiagnostics next)).2
  | control frameRunId control =>
    dsimp only
    unfold Controller.handleControl
    cases control with
    | streamReady resumeAfter replayThrough =>
      obtain ⟨hrun, hready, hmismatch⟩ := hdoubtful
      rw [if_neg (not_not.mpr hrun)]
      dsimp only
      unfold Controller.handleReady
      rw [hready, if_neg (by simp), if_pos hmismatch]
      exact (beginResync_kept hsound h).2
    | heartbeat watermark => exact hdoubtful.elim
    | streamClosed reason watermark => exact hdoubtful.elim
    | deliveryGap reason watermark =>
      have hrun : frameRunId = state.runId := hdoubtful
      rw [if_neg (not_not.mpr hrun)]
      exact (observe_then_resync_kept hsound h hstate watermark).2
    | resyncRequired reason watermark =>
      have hrun : frameRunId = state.runId := hdoubtful
      rw [if_neg (not_not.mpr hrun)]
      exact (observe_then_resync_kept hsound h hstate watermark).2

/-- Before the handshake an event fails the controller and its diagnostics stay. -/
theorem applied_ready {c : Controller Summary Live View} {k : Nat} {event : CommittedEvent}
    (h : Following c k)
    (hchanged : (c.onCallback R k (.frame (.event event))).current.diagnostics ≠
      c.current.diagnostics) : c.readySeen = true := by
  by_contra hunset
  apply hchanged
  rw [h.onCallback]
  show (c.handleFrame R (.event event)).current.diagnostics = c.current.diagnostics
  unfold Controller.handleFrame
  split
  · rfl
  · dsimp only
    unfold Controller.handleEvent
    rw [if_pos (by simpa using hunset)]
    unfold Controller.fail
    split <;> rfl

/-- **Along every run the page shows the log.** -/
theorem live_controller_follows_log
    (hrun : ReflTransGen (LiveStep R log) World.new w) : ShowsLog R log w := by
  have h := run_pageInvariant hrun
  refine ⟨h.sound.follows, ?_, ?_, ?_, ?_, ?_, ?_, fun w' hrun' => run_advances h hrun'⟩
  · intro i j si sj hi hj hopeni hopenj
    have hsi := h.sound.onlyOpen i si hi hopeni
    have hsj := h.sound.onlyOpen j sj hj hopenj
    exact Option.some.inj (hsi.symm.trans hsj)
  · intro k callback hother
    exact onCallback_other h.sound hother callback
  · intro k stream callback hget hstale
    exact onCallback_stale hget hstale callback
  · intro k event hchanged
    by_cases hother : w.controller.stream ≠ some k
    · rw [onCallback_other h.sound hother] at hchanged
      exact absurd rfl hchanged
    have hstream : w.controller.stream = some k := not_not.mp hother
    exact h.heard (applied_ready (h.following hstream) hchanged) k hstream
  · intro k frame hstream state hstate hdoubtful
    exact doubtful_resyncs h.sound (h.following hstream) hstate hdoubtful
  · intro state hstate hissue
    cases h.standing with
    | starting h' => exact absurd hstate (by simp [h'.empty])
    | following k h' hsettled => exact absurd (hsettled state hstate) hissue
    | resyncing h' => exact .inl h'
    | stranded h' _ hsettled => exact absurd (hsettled state hstate) hissue
    | ended h' =>
      refine .inr ?_
      unfold Controller.isTerminal
      rcases h'.phase with hphase | hphase | hphase | hphase <;> rw [hphase] <;> rfl
    | stopped h' =>
      refine .inr ?_
      unfold Controller.isTerminal
      rw [h'.phase]
      rfl

/-- Actions with content of the log are a run. -/
theorem run_of_actions (actions : List (Action Summary Live View)) :
    ∀ w : World Summary Live View, (∀ action ∈ actions, action.FromLog R log) →
      ReflTransGen (LiveStep R log) w (actions.foldl (World.step R) w) := by
  induction actions with
  | nil => exact fun w _ => .refl
  | cons action rest ih =>
    intro w hfrom
    have hstep : LiveStep R log w (w.step R action) :=
      ⟨action, hfrom action List.mem_cons_self, rfl⟩
    exact .head hstep (ih _ fun other hother => hfrom other (List.mem_cons_of_mem _ hother))

end Runs

/-! ## A run -/

/-- An event of run 1. -/
def shownEvent : CommittedEvent :=
  ⟨.instantOccurred ⟨.at 1 0 [] SchemaU64.one_pos, .cueAdmitted, none⟩, utf8 "{}"⟩

theorem shownEvent_sameRun : ∀ event ∈ [shownEvent], event.runId = ⟨1⟩ := by
  simp [shownEvent, CommittedEvent.runId, DiagnosticEvent.header, DiagnosticEventHeader.at]

/-- A log of one event. -/
def shownLog : CommittedLog ⟨1⟩ where
  events := [shownEvent]
  dense := rfl
  sameRun := shownEvent_sameRun

/-- A page that lists the sequences it was shown. -/
def sequenceReducers : Reducers (List Nat) (List Nat) Unit where
  summarize events := events.map (·.sequence.get)
  hydrateLive snapshot _ := .ok snapshot.state
  hydrateView _ _ := ()
  appendLiveEvent live event := live ++ [event.sequence.get]
  acceptedView _ _ _ := ()
  observedView _ _ := ()

/-- The status of a run that is going on. -/
def activeStatus : DiagnosticStatus := ⟨⟨1⟩, 1, false, .active⟩

/-- The page is loaded before the event is committed, and follows the stream. -/
def shownActions : List (Action (List Nat) (List Nat) Unit) :=
  [.start,
    .startResponse (.bootstrap ⟨⟨1⟩, 1, true, activeStatus⟩) none,
    .startResponse (.snapshot ⟨⟨1⟩, 0, []⟩) none,
    .startResponse (.events ⟨⟨1⟩, 1, [], none⟩) none,
    .callback 0 .opened,
    .callback 0 (.frame (.control ⟨1⟩ (.streamReady 0 1))),
    .callback 0 (.frame (.event shownEvent))]

/-- The page after these actions. -/
def shownWorld : World (List Nat) (List Nat) Unit :=
  shownActions.foldl (World.step sequenceReducers) .new

theorem shownActions_fromLog :
    ∀ action ∈ shownActions, action.FromLog sequenceReducers shownLog := by
  unfold shownActions
  simp [Action.FromLog, Response.FromLog, sequenceReducers, shownLog]

theorem live_controller_shows_event :
    ShowsLog sequenceReducers shownLog shownWorld ∧
      shownWorld.controller.current.diagnostics.map (fun state =>
        (state.cursor.deliveredThrough, state.live)) = some (1, [1]) :=
  ⟨live_controller_follows_log (run_of_actions shownActions .new shownActions_fromLog), rfl⟩

end Troupe.Web
