import Mathlib.Data.List.Range
import Troupe.Web.State.Reducer

/-! # Runs of the reducer

A session is a state of the reducer with the events it accepted since the state was made, or since a
snapshot replaced it. `delivered` is for the statements: no function of the reducer reads it.

* `Moved` says all that an action does to a session; `step_moved` that each does one of these.
* `Edge`: the live edge is the end of what was delivered, which is dense from the base on, and
  `dropped_through` is the last event before it. `run_edge`: so it is along every run. -/

namespace Troupe.Web.State

open Troupe.Core Troupe.Lib

variable {Value : Type}

/-! ## Sessions -/

/-- A state a page begins with. -/
inductive Started : DiagnosticState Value → Prop where
  | created (runId : CanonicalUuid) (throughSequence throughElapsedNs : Nat) :
    Started (createDiagnosticState runId throughSequence throughElapsedNs)
  | snapshot {snapshot : SnapshotResponse} {state : DiagnosticState Value}
      (h : createDiagnosticStateFromSnapshot snapshot none = .ok state) : Started state
  | hydrated {snapshot : SnapshotResponse} {suffix : EventsResponse} {after : Nat}
      {state : DiagnosticState Value}
      (h : hydrateDiagnosticStateFromSnapshot snapshot suffix after none = .ok state) :
    Started state

/-- A state, with the events accepted since it was made or replaced by a snapshot. -/
structure Session (Value : Type) where
  state : DiagnosticState Value
  delivered : List DiagnosticEvent

/-- Whether an event is the next one of the run. -/
def accepts (state : DiagnosticState Value) (event : DiagnosticEvent) : Prop :=
  event.header.runId = state.runId ∧ event.sequence.get = state.cursor.deliveredThrough + 1

instance (state : DiagnosticState Value) (event : DiagnosticEvent) :
    Decidable (accepts state event) := by
  unfold accepts
  infer_instance

/-- What has been delivered after an action that returned. -/
def Session.deliveredAfter (session : Session Value) :
    DiagnosticStateAction Value → List DiagnosticEvent
  | .snapshotReceived _ => []
  | .eventReceived event =>
    if accepts session.state event then session.delivered ++ [event] else session.delivered
  | _ => session.delivered

/-- One action; an action that throws changes nothing. -/
def Session.step (session : Session Value) (action : DiagnosticStateAction Value) : Session Value :=
  match reduceDiagnosticState session.state action with
  | .ok state => ⟨state, session.deliveredAfter action⟩
  | .error _ => session

/-- A sequence of actions. -/
def Session.run (session : Session Value) (actions : List (DiagnosticStateAction Value)) :
    Session Value :=
  actions.foldl Session.step session

/-- The session a page begins with. -/
def Session.new (state : DiagnosticState Value) : Session Value := ⟨state, []⟩

/-! ## What an action does -/

/-- The parts of the state the results are about stay. -/
structure Kept (state state' : DiagnosticState Value) : Prop where
  cursor : state'.cursor = state.cursor
  live : state'.live = state.live
  queries : state'.queries = state.queries
  pause : ∃ resumeRequest, state'.pause = { state.pause with resumeRequest }

/-- All that an action does to a session. -/
inductive Moved (session : Session Value) : DiagnosticStateAction Value → Session Value → Prop where
  | accepted (event : DiagnosticEvent) (h : accepts session.state event) :
    Moved session (.eventReceived event)
      ⟨acceptedEvent session.state event, session.delivered ++ [event]⟩
  | observed (action : DiagnosticStateAction Value) (watermark : Nat)
      (deliveryIssue : Option DeliveryIssue)
      (h : session.state.cursor.committedWatermark ≤ watermark) :
    Moved session action
      ⟨{ withWatermark session.state watermark with deliveryIssue }, session.delivered⟩
  | replaced (snapshot : SnapshotResponse) (state : DiagnosticState Value)
      (h : snapshotState snapshot (some session.state) [] = .ok state) :
    Moved session (.snapshotReceived snapshot) ⟨state, []⟩
  | paused (h : session.state.pause.paused = false) :
    Moved session .pause ⟨State.pause session.state, session.delivered⟩
  | resumed : Moved session .resume ⟨State.resume session.state, session.delivered⟩
  | cached (result : CachedQueryResult Value) :
    Moved session (.queryCached result)
      ⟨{ session.state with queries := cacheQueryForCurrentState session.state result },
        session.delivered⟩
  | kept (action : DiagnosticStateAction Value) (state : DiagnosticState Value)
      (h : Kept session.state state) :
    Moved session action ⟨state, session.delivered⟩

section Moved

variable {session : Session Value}

theorem Moved.stay (action : DiagnosticStateAction Value) : Moved session action session :=
  .kept action session.state ⟨rfl, rfl, rfl, _, rfl⟩

theorem receiveEvent_moved (event : DiagnosticEvent) :
    Moved session (.eventReceived event)
      ⟨receiveEvent session.state event, session.deliveredAfter (.eventReceived event)⟩ := by
  rw [Session.deliveredAfter, receiveEvent]
  by_cases hrun : event.header.runId ≠ session.state.runId
  · rw [if_pos hrun, if_neg fun h => hrun h.1]
    exact .kept _ _ ⟨rfl, rfl, rfl, _, rfl⟩
  rw [if_neg hrun]
  by_cases hseen : event.sequence.get ≤ session.state.cursor.deliveredThrough
  · have hnot : ¬ accepts session.state event := by
      rintro ⟨-, hnext⟩
      omega
    rw [if_pos hseen, if_neg hnot]
    exact .stay _
  rw [if_neg hseen]
  dsimp only
  by_cases hnext : event.sequence.get ≠ session.state.cursor.deliveredThrough + 1
  · rw [if_pos hnext, if_neg fun h => hnext h.2]
    exact .observed _ _ _ (Nat.le_max_right _ _)
  · have haccepts : accepts session.state event := ⟨not_not.mp hrun, not_not.mp hnext⟩
    rw [if_neg hnext, if_pos haccepts]
    exact .accepted event haccepts

theorem receiveUsageSnapshot_kept {state state' : DiagnosticState Value} {snapshot : UsageSnapshot}
    (h : receiveUsageSnapshot state snapshot = .ok state') :
    ∃ usageSnapshot, state' = { state with usageSnapshot } := by
  unfold receiveUsageSnapshot at h
  split at h
  · cases h
  split at h
  · cases h
    exact ⟨_, rfl⟩
  · cases h
    exact ⟨_, rfl⟩

/-- **Every action moves the session in one of these ways.** -/
theorem step_moved (session : Session Value) (action : DiagnosticStateAction Value) :
    Moved session action (session.step action) := by
  unfold Session.step
  split
  swap
  · exact .stay action
  rename_i state hreduced
  cases action with
  | eventReceived event =>
    cases hreduced
    exact receiveEvent_moved event
  | snapshotReceived snapshot => exact .replaced snapshot state hreduced
  | watermarkObserved throughSequence =>
    rw [reduceDiagnosticState] at hreduced
    split at hreduced
    · cases hreduced
      exact .stay _
    · rename_i hlater
      cases hreduced
      exact .observed _ _ _ (by omega)
  | pause =>
    cases hreduced
    by_cases hpaused : session.state.pause.paused
    · rw [State.pause, if_pos hpaused]
      exact .stay _
    · exact .paused (Bool.eq_false_iff.mpr hpaused)
  | resume =>
    cases hreduced
    exact .resumed
  | resumeRequestConsumed =>
    cases hreduced
    exact .kept _ _ ⟨rfl, rfl, rfl, _, rfl⟩
  | windowActivated window =>
    rw [reduceDiagnosticState] at hreduced
    split at hreduced
    · cases hreduced
      exact .kept _ _ ⟨rfl, rfl, rfl, _, rfl⟩
    · obtain ⟨windows, -, hstate⟩ := bind_eq_ok.mp hreduced
      cases hstate
      exact .kept _ _ ⟨rfl, rfl, rfl, _, rfl⟩
  | usageSnapshotReceived snapshot =>
    obtain ⟨usageSnapshot, rfl⟩ := receiveUsageSnapshot_kept hreduced
    exact .kept _ _ ⟨rfl, rfl, rfl, _, rfl⟩
  | queryCached result =>
    cases hreduced
    exact .cached result
  | select selection =>
    cases hreduced
    exact .kept _ _ ⟨rfl, rfl, rfl, _, rfl⟩
  | pinDetail selection =>
    cases hreduced
    exact .kept _ _ ⟨rfl, rfl, rfl, _, rfl⟩
  | toggleExpanded id =>
    obtain ⟨presentation, -, hstate⟩ := bind_eq_ok.mp hreduced
    cases hstate
    exact .kept _ _ ⟨rfl, rfl, rfl, _, rfl⟩
  | filtersSet filters =>
    cases hreduced
    exact .kept _ _ ⟨rfl, rfl, rfl, _, rfl⟩
  | viewportSet viewport =>
    obtain ⟨presentation, -, hstate⟩ := bind_eq_ok.mp hreduced
    cases hstate
    exact .kept _ _ ⟨rfl, rfl, rfl, _, rfl⟩
  | followLiveSet followLive =>
    cases hreduced
    exact .kept _ _ ⟨rfl, rfl, rfl, _, rfl⟩
  | zoomSet zoom =>
    obtain ⟨presentation, -, hstate⟩ := bind_eq_ok.mp hreduced
    cases hstate
    exact .kept _ _ ⟨rfl, rfl, rfl, _, rfl⟩

/-- Pausing changes the pause state alone. -/
theorem pause_eq (state : DiagnosticState Value) :
    ∃ pauseState, State.pause state = { state with pause := pauseState } := by
  unfold State.pause
  split
  · exact ⟨state.pause, rfl⟩
  · exact ⟨_, rfl⟩

/-- Resuming changes the pause state alone. -/
theorem resume_eq (state : DiagnosticState Value) :
    ∃ pauseState, State.resume state = { state with pause := pauseState } := by
  unfold State.resume
  split
  · exact ⟨_, rfl⟩
  · exact ⟨state.pause, rfl⟩

/-- What a snapshot makes of a state. -/
theorem snapshotState_eq_ok {snapshot : SnapshotResponse} {previous : Option (DiagnosticState Value)}
    {suffixEvents : List DiagnosticEvent} {state : DiagnosticState Value}
    (h : snapshotState snapshot previous suffixEvents = .ok state) :
    ∃ projection, hydrateSnapshotProjection snapshot suffixEvents = .ok projection ∧
      state.cursor = ⟨snapshot.watermarkSequence, snapshot.watermarkSequence⟩ ∧
      state.live = { createLiveEdge snapshot.watermarkSequence snapshot.throughElapsedNs with
        projection } ∧
      state.queries = createQueryCache ∧
      state.pause = (previous.map (snapshotPause snapshot)).getD unpaused := by
  unfold snapshotState at h
  split at h
  · cases h
  obtain ⟨projection, hprojection, h⟩ := bind_eq_ok.mp h
  obtain ⟨received, hreceived, h⟩ := bind_eq_ok.mp h
  obtain ⟨usageSnapshot, rfl⟩ := receiveUsageSnapshot_kept hreceived
  refine ⟨projection, hprojection, ?_⟩
  cases previous with
  | none =>
    cases h
    exact ⟨rfl, rfl, rfl, rfl⟩
  | some previous =>
    cases h
    exact ⟨rfl, rfl, rfl, rfl⟩

end Moved

/-! ## The live edge -/

/-- The sequence of an event. -/
abbrev sequenceOf (event : DiagnosticEvent) : Nat := event.sequence.get

/-- The live edge is what was delivered but for the first `gone` events. -/
structure EdgeAt (session : Session Value) (gone : Nat) : Prop where
  gone_le : gone ≤ session.delivered.length
  events : session.state.live.events = session.delivered.drop gone
  dropped : session.state.live.droppedThrough =
    if gone = 0 then none else some (session.state.live.baseThrough + gone)

/-- What holds of the live edge and the cursor at every moment. -/
structure Edge (session : Session Value) : Prop where
  cut : ∃ gone, EdgeAt session gone
  dense : session.delivered.map sequenceOf =
    List.range' (session.state.live.baseThrough + 1) session.delivered.length
  cursor : session.state.cursor.deliveredThrough =
    session.state.live.baseThrough + session.delivered.length
  committed : session.state.cursor.deliveredThrough ≤ session.state.cursor.committedWatermark

section Edge

variable {session : Session Value}

theorem Edge.sequence_get (h : Edge session) {i : Nat} (hi : i < session.delivered.length) :
    sequenceOf session.delivered[i] = session.state.live.baseThrough + 1 + i := by
  have hget : (session.delivered.map sequenceOf)[i]? =
      (List.range' (session.state.live.baseThrough + 1) session.delivered.length)[i]? := by
    rw [h.dense]
  rw [List.getElem?_map, List.getElem?_eq_getElem hi, List.getElem?_range' hi] at hget
  simpa using hget

/-- What was delivered is after the base and up to the cursor. -/
theorem Edge.mem_bounds (h : Edge session) {event : DiagnosticEvent}
    (hevent : event ∈ session.delivered) :
    session.state.live.baseThrough < sequenceOf event ∧
      sequenceOf event ≤ session.state.cursor.deliveredThrough := by
  obtain ⟨i, hi, rfl⟩ := List.getElem_of_mem hevent
  rw [h.sequence_get hi, h.cursor]
  omega

/-- Everything after the base up to the cursor was delivered. -/
theorem Edge.exists_delivered (h : Edge session) {n : Nat}
    (hbase : session.state.live.baseThrough < n)
    (hcursor : n ≤ session.state.cursor.deliveredThrough) :
    ∃ event ∈ session.delivered, sequenceOf event = n := by
  have hi : n - session.state.live.baseThrough - 1 < session.delivered.length := by
    rw [h.cursor] at hcursor
    omega
  refine ⟨_, List.getElem_mem hi, ?_⟩
  rw [h.sequence_get hi]
  omega

/-- What was delivered after a point the live edge does not cut is still in it. -/
theorem Edge.mem_events (h : Edge session) {after : Nat}
    (hdropped : droppedAfter session.state.live.droppedThrough after = false)
    {event : DiagnosticEvent} (hevent : event ∈ session.delivered)
    (hafter : after < sequenceOf event) : event ∈ session.state.live.events := by
  obtain ⟨gone, hcut⟩ := h.cut
  obtain ⟨i, hi, rfl⟩ := List.getElem_of_mem hevent
  rw [h.sequence_get hi] at hafter
  have hgone : gone ≤ i := by
    by_cases hzero : gone = 0
    · omega
    · rw [hcut.dropped, if_neg hzero] at hdropped
      simp only [droppedAfter, Option.any_some, decide_eq_false_iff_not, not_lt] at hdropped
      omega
  have hlength : i - gone < (session.delivered.drop gone).length := by
    rw [List.length_drop]
    omega
  have hget : (session.delivered.drop gone)[i - gone] = session.delivered[i] := by
    rw [List.getElem_drop]
    congr 1
    omega
  rw [hcut.events, ← hget]
  exact List.getElem_mem hlength

/-- A state without events whose cursor is at its base. -/
theorem Edge.of_base {state : DiagnosticState Value} {watermark elapsedNs : Nat}
    {projection : LiveProjection} (hcursor : state.cursor = ⟨watermark, watermark⟩)
    (hlive : state.live = { createLiveEdge watermark elapsedNs with projection }) :
    Edge (Session.new state) := by
  refine ⟨⟨0, Nat.zero_le _, ?_, ?_⟩, rfl, ?_, ?_⟩
  · exact congrArg LiveEdgeState.events hlive
  · exact congrArg LiveEdgeState.droppedThrough hlive
  · change state.cursor.deliveredThrough = state.live.baseThrough + 0
    rw [hcursor, hlive]
    rfl
  · change state.cursor.deliveredThrough ≤ state.cursor.committedWatermark
    rw [hcursor]

/-- A step that leaves the live edge alone and moves no cursor back. -/
theorem Edge.frame (h : Edge session) {state : DiagnosticState Value}
    (hlive : state.live = session.state.live)
    (hdelivered : state.cursor.deliveredThrough = session.state.cursor.deliveredThrough)
    (hcommitted : session.state.cursor.committedWatermark ≤ state.cursor.committedWatermark) :
    Edge ⟨state, session.delivered⟩ := by
  obtain ⟨gone, hcut⟩ := h.cut
  refine ⟨⟨gone, hcut.gone_le, ?_, ?_⟩, ?_, ?_, ?_⟩
  · rw [← hcut.events]
    exact congrArg LiveEdgeState.events hlive
  · dsimp only
    rw [hlive]
    exact hcut.dropped
  · dsimp only
    rw [hlive]
    exact h.dense
  · dsimp only
    rw [hlive, hdelivered]
    exact h.cursor
  · dsimp only
    rw [hdelivered]
    exact Nat.le_trans h.committed hcommitted

theorem Edge.accepted (h : Edge session) {event : DiagnosticEvent}
    (haccepts : accepts session.state event) :
    Edge ⟨acceptedEvent session.state event, session.delivered ++ [event]⟩ := by
  obtain ⟨gone, hcut⟩ := h.cut
  have hnext : sequenceOf event = session.state.live.baseThrough + 1 + session.delivered.length := by
    rw [sequenceOf, haccepts.2, h.cursor]
    omega
  have hlength : session.state.live.events.length = session.delivered.length - gone := by
    rw [hcut.events, List.length_drop]
  refine ⟨?_, ?_, ?_, Nat.le_max_left _ _⟩
  · by_cases hfull : liveEdgeEventCapacity ≤ session.state.live.events.length
    · have hgone : gone < session.delivered.length := by
        have hpos : 0 < liveEdgeEventCapacity := by decide
        omega
      have hevents : session.state.live.events =
          session.delivered[gone] :: session.delivered.drop (gone + 1) := by
        rw [hcut.events, List.drop_eq_getElem_cons hgone]
      refine ⟨gone + 1, ?_, ?_, ?_⟩
      · simp only [List.length_append, List.length_singleton]
        omega
      · simp only [acceptedEvent, appendLiveEvent, if_pos hfull]
        rw [List.drop_append_of_le_length hgone, hevents, List.drop_one, List.tail_cons]
      · simp only [acceptedEvent, appendLiveEvent, if_pos hfull]
        rw [hevents, List.head?_cons, if_neg (Nat.succ_ne_zero gone)]
        simp only [Option.some.injEq]
        exact (h.sequence_get hgone).trans (by omega)
    · refine ⟨gone, ?_, ?_, ?_⟩
      · simp only [List.length_append]
        exact Nat.le_add_right_of_le hcut.gone_le
      · simp only [acceptedEvent, appendLiveEvent, if_neg hfull]
        rw [List.drop_append_of_le_length hcut.gone_le, hcut.events]
      · simp only [acceptedEvent, appendLiveEvent, if_neg hfull]
        exact hcut.dropped
  · change (session.delivered ++ [event]).map sequenceOf =
      List.range' (session.state.live.baseThrough + 1) (session.delivered ++ [event]).length
    rw [List.map_append, h.dense, List.length_append, List.length_singleton, List.range'_concat,
      List.map_singleton, hnext]
    simp
  · change sequenceOf event = session.state.live.baseThrough + (session.delivered ++ [event]).length
    rw [hnext, List.length_append, List.length_singleton]
    omega

theorem Edge.moved {session' : Session Value} {action : DiagnosticStateAction Value}
    (h : Edge session) (hmoved : Moved session action session') : Edge session' := by
  cases hmoved with
  | accepted event haccepts => exact h.accepted haccepts
  | observed _ watermark _ hlater => exact h.frame rfl rfl hlater
  | replaced snapshot state hstate =>
    obtain ⟨projection, -, hcursor, hlive, -⟩ := snapshotState_eq_ok hstate
    exact Edge.of_base hcursor hlive
  | paused _ =>
    obtain ⟨pauseState, hpause⟩ := pause_eq session.state
    rw [hpause]
    exact h.frame rfl rfl le_rfl
  | resumed =>
    obtain ⟨pauseState, hresume⟩ := resume_eq session.state
    rw [hresume]
    exact h.frame rfl rfl le_rfl
  | cached _ => exact h.frame rfl rfl le_rfl
  | kept _ state hkept =>
    exact h.frame hkept.live (by rw [hkept.cursor]) (by rw [hkept.cursor])

end Edge

/-- How a page begins: at its base, with nothing cached and not paused. -/
theorem Started.base {state : DiagnosticState Value} (h : Started state) :
    ∃ watermark elapsedNs projection,
      state.cursor = ⟨watermark, watermark⟩ ∧
      state.live = { createLiveEdge watermark elapsedNs with projection } ∧
      state.queries = createQueryCache ∧ state.pause = unpaused := by
  cases h with
  | created runId throughSequence throughElapsedNs =>
    exact ⟨throughSequence, throughElapsedNs, _, rfl, rfl, rfl, rfl⟩
  | @snapshot snapshot _ hstate =>
    obtain ⟨projection, -, hcursor, hlive, hqueries, hpause⟩ := snapshotState_eq_ok hstate
    exact ⟨_, _, projection, hcursor, hlive, hqueries, hpause⟩
  | @hydrated snapshot suffix after _ hstate =>
    obtain ⟨-, -, hstate⟩ := bind_eq_ok.mp hstate
    obtain ⟨made, hmade, hstate⟩ := bind_eq_ok.mp hstate
    obtain ⟨windows, -, hstate⟩ := bind_eq_ok.mp hstate
    obtain ⟨projection, -, hcursor, hlive, hqueries, hpause⟩ := snapshotState_eq_ok hmade
    cases hstate
    exact ⟨_, _, _, hcursor, by rw [hlive], hqueries, hpause⟩

/-- What every action keeps, every run keeps. -/
theorem run_kept {p : Session Value → Prop}
    (hstep : ∀ session action session', p session → Moved session action session' → p session')
    {session : Session Value} (h : p session) (actions : List (DiagnosticStateAction Value)) :
    p (session.run actions) := by
  induction actions generalizing session with
  | nil => exact h
  | cons action rest ih => exact ih (hstep _ _ _ h (step_moved session action))

/-- **The live edge follows what is delivered**, along every run. -/
theorem run_edge {state : DiagnosticState Value} (h : Started state)
    (actions : List (DiagnosticStateAction Value)) : Edge ((Session.new state).run actions) := by
  obtain ⟨watermark, elapsedNs, projection, hcursor, hlive, -⟩ := h.base
  exact run_kept (fun _ _ _ hedge hmoved => hedge.moved hmoved) (Edge.of_base hcursor hlive) actions

/-- A sample of a counter. -/
def sampleAt (sequence : SchemaU64) (h : 0 < sequence.get) : DiagnosticEvent :=
  .counterSampled ⟨.at sequence ⟨0, Nat.zero_le _⟩ [] h, .cueActive, sequence⟩

end Troupe.Web.State
