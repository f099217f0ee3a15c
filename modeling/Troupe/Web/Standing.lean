import Troupe.Web.Controller

/-! # Where the controller stands

The controller is always in one `Standing`: starting, following one stream, resynchronizing,
stranded, over, or stopped. Every function of the controller leads from a standing to a standing
(`Kept`), and the standings say which stream is open and which operation runs, so that a callback
of any other stream does nothing and `beginResync` is never refused while a stream is followed. -/

namespace Troupe.Web

open Troupe.Lib Troupe.Core Troupe.Server
open Relation (ReflTransGen)

variable {Summary Live View : Type} {runId : CanonicalUuid}

/-! ## Content -/

/-- `live` is the hydration of the server's snapshot at a watermark. -/
structure HydratedAt (R : Reducers Summary Live View) (log : CommittedLog runId) (watermark : Nat)
    (live : Live) : Prop where
  committed : watermark ≤ log.events.length
  hydrated :
    R.hydrateLive ⟨runId, watermark, R.summarize (log.events.take watermark)⟩
      ((log.events.take watermark).drop (snapshotSuffixAfter watermark)) = .ok live

/-- The state is a hydration followed by exactly the log's events up to the cursor. -/
def FollowsLog (R : Reducers Summary Live View) (log : CommittedLog runId)
    (state : DiagnosticState Live View) : Prop :=
  state.runId = runId ∧ state.cursor.deliveredThrough ≤ log.events.length ∧
    ∃ watermark hydrated, HydratedAt R log watermark hydrated ∧
      watermark ≤ state.cursor.deliveredThrough ∧
        state.live = ((log.events.take state.cursor.deliveredThrough).drop watermark).foldl
          R.appendLiveEvent hydrated

section Content

variable {R : Reducers Summary Live View} {log : CommittedLog runId}
  {state : DiagnosticState Live View}

/-- An event of the log stands at the position of its sequence. -/
theorem getElem?_of_mem {event : CommittedEvent} {n : Nat} (hmem : event ∈ log.events)
    (hsequence : event.sequence.get = n + 1) : log.events[n]? = some event := by
  obtain ⟨j, hj⟩ := List.mem_iff_getElem?.mp hmem
  have hat := log.sequence_get hj
  have hn : j = n := by omega
  rw [← hn]
  exact hj

/-- The loop over the suffix accepts dense events of the run only. -/
theorem checkSuffixEvents_ok {range : String} :
    ∀ {events : List CommittedEvent} {expected : Nat},
      checkSuffixEvents runId range expected events = .ok () →
        ∀ i event, events[i]? = some event →
          event.runId = runId ∧ event.sequence.get = expected + i := by
  intro events
  induction events with
  | nil =>
    intro expected _ i event hevent
    simp at hevent
  | cons first rest ih =>
    intro expected hok i event hevent
    unfold checkSuffixEvents at hok
    by_cases hrun : first.runId ≠ runId
    · rw [if_pos hrun] at hok
      cases hok
    · rw [if_neg hrun] at hok
      by_cases hsequence : first.sequence.get ≠ expected
      · rw [if_pos hsequence] at hok
        cases hok
      · rw [if_neg hsequence] at hok
        cases i with
        | zero =>
          obtain rfl : first = event := by simpa using hevent
          exact ⟨not_not.mp hrun, by simpa using hsequence⟩
        | succ i =>
          obtain ⟨hr, hs⟩ := ih hok i event (by simpa using hevent)
          exact ⟨hr, by omega⟩

/-- A suffix that passes the checks is the log's range. -/
theorem checkSnapshotSuffix_ok {snapshot : SnapshotResponse Summary} {response : EventsResponse}
    (hrun : snapshot.runId = runId)
    (hlog : ∀ event ∈ response.events, event.runId = runId → event ∈ log.events)
    (hok : checkSnapshotSuffix snapshot response = .ok ()) :
    response.events = (log.events.take snapshot.watermarkSequence).drop
      (snapshotSuffixAfter snapshot.watermarkSequence) := by
  unfold checkSnapshotSuffix at hok
  dsimp only at hok
  split at hok
  · cases hok
  split at hok
  · cases hok
  split at hok
  · cases hok
  split at hok
  · cases hok
  split at hok
  · cases hok
  rename_i hlength
  rw [hrun] at hok
  have hdense := checkSuffixEvents_ok hok
  apply List.ext_getElem?
  intro i
  rw [List.getElem?_drop, List.getElem?_take]
  by_cases hi : i < response.events.length
  · have hget := List.getElem?_eq_getElem hi
    obtain ⟨hr, hs⟩ := hdense i _ hget
    have hmem := hlog _ (List.getElem_mem hi) hr
    rw [if_pos (by omega), hget]
    exact (getElem?_of_mem hmem (by omega)).symm
  · rw [List.getElem?_eq_none (by omega), if_neg (by omega)]

/-- A hydrated state follows the log from its own watermark on. -/
theorem hydrated_followsLog {snapshot : SnapshotResponse Summary} {suffix : List CommittedEvent}
    {previous : Option (DiagnosticState Live View)}
    (hfrom : Response.FromLog R log (.snapshot snapshot))
    (hsuffix : suffix = (log.events.take snapshot.watermarkSequence).drop
      (snapshotSuffixAfter snapshot.watermarkSequence))
    (hok : hydrateDiagnosticStateFromSnapshot R snapshot suffix previous = .ok state) :
    FollowsLog R log state ∧ state.deliveryIssue = none ∧
      state.cursor.deliveredThrough = snapshot.watermarkSequence := by
  obtain ⟨hrun, hcommitted, hsummary⟩ := hfrom
  unfold hydrateDiagnosticStateFromSnapshot at hok
  split at hok
  · cases hok
  rename_i live hlive
  cases hok
  refine ⟨⟨hrun, hcommitted, snapshot.watermarkSequence, live, ⟨hcommitted, ?_⟩, le_rfl, ?_⟩,
    rfl, rfl⟩
  · have hsnapshot : snapshot = ⟨runId, snapshot.watermarkSequence,
        R.summarize (log.events.take snapshot.watermarkSequence)⟩ := by
      rw [← hsummary, ← hrun]
    rw [← hlive, hsuffix, ← hsnapshot]
  · rw [List.drop_eq_nil_of_le (List.length_take_le _ _)]
    rfl

/-- The next event of the log keeps the state on the log. -/
theorem acceptedEvent_followsLog {event : CommittedEvent}
    (h : FollowsLog R log state) (hmem : event ∈ log.events)
    (hnext : event.sequence.get = state.cursor.deliveredThrough + 1) :
    FollowsLog R log (acceptedEvent R state event) := by
  obtain ⟨hrun, -, watermark, hydrated, hhydrated, hle, hlive⟩ := h
  have hget := getElem?_of_mem hmem hnext
  obtain ⟨hlt, -⟩ := List.getElem?_eq_some_iff.mp hget
  refine ⟨hrun, ?_, watermark, hydrated, hhydrated, ?_, ?_⟩
  · show event.sequence.get ≤ log.events.length
    omega
  · show watermark ≤ event.sequence.get
    omega
  · show R.appendLiveEvent state.live event =
      ((log.events.take event.sequence.get).drop watermark).foldl R.appendLiveEvent hydrated
    rw [hnext, List.take_add_one, hget, Option.toList_some,
      List.drop_append_of_le_length (by rw [List.length_take]; omega), List.foldl_append, ← hlive]
    rfl

theorem watermarkObserved_followsLog (through : Nat)
    (h : FollowsLog R log state) : FollowsLog R log (watermarkObserved R state through) := by
  unfold watermarkObserved
  split
  · exact h
  · exact h

@[simp] theorem watermarkObserved_deliveryIssue (state : DiagnosticState Live View)
    (through : Nat) :
    (watermarkObserved R state through).deliveryIssue = state.deliveryIssue := by
  unfold watermarkObserved
  split <;> rfl

@[simp] theorem watermarkObserved_deliveredThrough (state : DiagnosticState Live View)
    (through : Nat) :
    (watermarkObserved R state through).cursor.deliveredThrough =
      state.cursor.deliveredThrough := by
  unfold watermarkObserved
  split <;> rfl

/-- What a received event of the run does: it is refused, or it is the next one. -/
theorem receiveEvent_cases {state next : DiagnosticState Live View} {event : CommittedEvent}
    (hrun : event.runId = state.runId) (h : receiveEvent R state event = some next) :
    (next.deliveryIssue.isSome = true ∧ next.runId = state.runId ∧ next.live = state.live ∧
        next.cursor.deliveredThrough = state.cursor.deliveredThrough) ∨
      (event.sequence.get = state.cursor.deliveredThrough + 1 ∧
        next = acceptedEvent R state event) := by
  unfold receiveEvent at h
  dsimp only at h
  rw [if_neg (not_not.mpr hrun)] at h
  split at h
  · cases h
  split at h
  · cases h
    exact .inl ⟨rfl, rfl, rfl, rfl⟩
  · rename_i hnext
    cases h
    exact .inr ⟨not_not.mp hnext, rfl⟩

end Content

/-! ## Standings -/

/-- The generation a resynchronization runs for. -/
def Operation.resyncGeneration : Operation Summary → Option Nat
  | .resyncStatus generation _ => some generation
  | .resyncSnapshot generation _ _ => some generation
  | .resyncSuffix generation _ _ _ => some generation
  | .refreshStatus _ => none
  | .settled => none

/-- The pending operation is a resynchronization of the present generation. -/
structure Resyncing (c : Controller Summary Live View) : Prop where
  going : c.stopped = false
  phase : c.current.phase = .resyncing
  noStream : c.stream = none
  running : ∃ i op, c.pendingOperation = some i ∧ c.operations[i]? = some op ∧
    op.resyncGeneration = some c.generation
  loaded : c.current.diagnostics.isSome = true
  returned : c.start = .returned

/-- A stream is followed. -/
structure Following (c : Controller Summary Live View) (k : Nat) : Prop where
  going : c.stopped = false
  phase : c.current.phase = .connecting ∨ c.current.phase = .live ∨
    c.current.phase = .reconnecting
  stream : c.stream = some k
  opened : c.streams[k]? = some ⟨c.generation, false⟩
  idle : c.pendingOperation = none
  loaded : c.current.diagnostics.isSome = true
  bootstrapped : c.current.bootstrap.isSome = true
  returned : c.start = .returned

/-- The phases a controller stays in. -/
def LiveConnectionPhase.isFinal : LiveConnectionPhase → Bool
  | .archive | .closed | .failed | .stopped => true
  | _ => false

/-- Nothing runs and no stream is open, in a phase that is not final. A resynchronization ends so
when the new `EventSource` cannot be made: `openStream` has taken a new generation by then, and the
catch takes the error for one of an older generation. -/
structure Detached (c : Controller Summary Live View) : Prop where
  going : c.stopped = false
  noStream : c.stream = none
  idle : c.pendingOperation = none
  notFinal : c.current.phase.isFinal = false
  returned : c.start = .returned

/-- `start` has not returned. -/
structure Starting (c : Controller Summary Live View) : Prop where
  going : c.stopped = false
  noStream : c.stream = none
  idle : c.pendingOperation = none
  empty : c.current.diagnostics = none
  phase : (c.start = .uncalled ∧ c.current.phase = .idle) ∨
    (c.start = .bootstrapping ∧ c.current.phase = .bootstrapping) ∨
      ((∃ b, c.start = .snapshot b) ∨ ∃ b s, c.start = .suffix b s) ∧
        c.current.phase = .snapshot ∧ c.current.bootstrap.isSome = true

/-- The stream has closed; its status may still be refreshed. -/
structure Over (c : Controller Summary Live View) : Prop where
  going : c.stopped = false
  phase : c.current.phase = .archive ∨ c.current.phase = .closed ∨ c.current.phase = .failed ∨
    c.current.phase = .compatibility
  noStream : c.stream = none
  refreshing : ∀ i, c.pendingOperation = some i →
    c.current.phase = .closed ∧ ∃ b, c.operations[i]? = some (.refreshStatus b)
  returned : c.start = .returned

/-- The page has stopped the controller. -/
structure Stopped (c : Controller Summary Live View) : Prop where
  stopped : c.stopped = true
  phase : c.current.phase = .stopped
  noStream : c.stream = none

/-- Where the controller stands. -/
inductive Standing (c : Controller Summary Live View) : Prop where
  | starting (h : Starting c)
  | following (k : Nat) (h : Following c k)
      (settled : ∀ state ∈ c.current.diagnostics, state.deliveryIssue = none)
  | resyncing (h : Resyncing c)
  | stranded (h : Detached c) (phase : c.current.phase = .connecting)
      (settled : ∀ state ∈ c.current.diagnostics, state.deliveryIssue = none)
  | ended (h : Over c)
  | stopped (h : Stopped c)

/-- What an operation has fetched is of the log. -/
def Operation.FromLog (R : Reducers Summary Live View) (log : CommittedLog runId) :
    Operation Summary → Prop
  | .resyncSuffix _ _ _ fetched => Response.FromLog R log (.snapshot fetched)
  | _ => True

/-- What `start` has fetched is of the log. -/
def StartStage.FromLog (R : Reducers Summary Live View) (log : CommittedLog runId) :
    StartStage Summary → Prop
  | .suffix _ fetched => Response.FromLog R log (.snapshot fetched)
  | _ => True

/-- What holds in every standing. -/
structure Sound (R : Reducers Summary Live View) (log : CommittedLog runId)
    (c : Controller Summary Live View) : Prop where
  /-- Only the pending operation runs. -/
  onlyPending : ∀ i op, c.operations[i]? = some op → op ≠ .settled → c.pendingOperation = some i
  /-- Only the stream of the controller is open. -/
  onlyOpen : ∀ (k : Nat) stream, c.streams[k]? = some stream → stream.closed = false →
    c.stream = some k
  ready : c.readySeen = true → c.stream.isSome = true
  fetched : ∀ (i : Nat) op, c.operations[i]? = some op → op.FromLog R log
  starting : c.start.FromLog R log
  follows : ∀ state ∈ c.current.diagnostics, FollowsLog R log state

/-- From `c` to `c'` the cursor has not moved back and a final phase was not left. -/
structure Advances (c c' : Controller Summary Live View) : Prop where
  delivered : ∀ state ∈ c.current.diagnostics, ∃ state' ∈ c'.current.diagnostics,
    state.cursor.deliveredThrough ≤ state'.cursor.deliveredThrough
  final : c.current.phase.isFinal = true → c'.current.phase.isFinal = true

/-- A step keeps the invariant and advances. -/
structure Kept (R : Reducers Summary Live View) (log : CommittedLog runId)
    (c c' : Controller Summary Live View) : Prop where
  sound : Sound R log c'
  standing : Standing c'
  advances : Advances c c'

section Steps

variable {R : Reducers Summary Live View} {log : CommittedLog runId}
  {c : Controller Summary Live View} {state : DiagnosticState Live View} {k : Nat} {i : Nat}
  {generation : Nat}

theorem Advances.refl (c : Controller Summary Live View) : Advances c c :=
  ⟨fun state h => ⟨state, h, le_rfl⟩, id⟩

theorem Advances.trans {a b c : Controller Summary Live View} (hab : Advances a b)
    (hbc : Advances b c) : Advances a c := by
  refine ⟨?_, fun h => hbc.final (hab.final h)⟩
  intro state hstate
  obtain ⟨state', hstate', hle⟩ := hab.delivered state hstate
  obtain ⟨state'', hstate'', hle'⟩ := hbc.delivered state' hstate'
  exact ⟨state'', hstate'', hle.trans hle'⟩

/-- The same diagnostics, and a phase that is final or was not. -/
theorem Advances.of_diagnostics {c c' : Controller Summary Live View}
    (hdiagnostics : c'.current.diagnostics = c.current.diagnostics)
    (hphase : c.current.phase.isFinal = true → c'.current.phase.isFinal = true) :
    Advances c c' :=
  ⟨fun state h => ⟨state, hdiagnostics ▸ h, le_rfl⟩, hphase⟩

theorem Kept.refl (hsound : Sound R log c) (hstanding : Standing c) : Kept R log c c :=
  ⟨hsound, hstanding, .refl c⟩

/-! ### Closing a stream -/

theorem closeStream_closed (h : Sound R log c) {stream : EventStream}
    (hget : c.closeStream.streams[k]? = some stream) : stream.closed = true := by
  unfold Controller.closeStream at hget
  dsimp only at hget
  cases hstream : c.stream with
  | none =>
    rw [hstream] at hget
    by_contra hopen
    have := h.onlyOpen k stream hget (by simpa using hopen)
    rw [hstream] at this
    cases this
  | some j =>
    rw [hstream] at hget
    dsimp only at hget
    rw [List.getElem?_modify] at hget
    cases hk : c.streams[k]? with
    | none =>
      rw [hk] at hget
      cases hget
    | some before =>
      rw [hk, Option.map_eq_map, Option.map_some, Option.some.injEq] at hget
      by_cases hj : j = k
      · rw [if_pos hj] at hget
        rw [← hget]
      · rw [if_neg hj] at hget
        by_contra hopen
        have := h.onlyOpen k before hk (by rw [hget]; simpa using hopen)
        rw [hstream] at this
        exact hj (Option.some.inj this)

/-- A controller whose streams were closed. -/
theorem Sound.detached {c' : Controller Summary Live View} (h : Sound R log c)
    (hstreams : c'.streams = c.closeStream.streams) (hready : c'.readySeen = false)
    (hoperations : c'.operations = c.operations)
    (hpending : c'.pendingOperation = c.pendingOperation) (hstart : c'.start = c.start)
    (hfollows : ∀ state ∈ c'.current.diagnostics, FollowsLog R log state) : Sound R log c' := by
  refine ⟨?_, ?_, ?_, ?_, ?_, hfollows⟩
  · rw [hoperations, hpending]
    exact h.onlyPending
  · intro k stream hget hopen
    rw [hstreams] at hget
    rw [closeStream_closed h hget] at hopen
    cases hopen
  · intro hseen
    rw [hready] at hseen
    cases hseen
  · rw [hoperations]
    exact h.fetched
  · rw [hstart]
    exact h.starting

theorem fail_kept (hsound : Sound R log c) (hreturned : c.start = .returned)
    (hidle : c.pendingOperation = none) (hgoing : c.stopped = false)
    (hnotFinal : c.current.phase.isFinal = false) (error : ThrownError) :
    Kept R log c (c.fail error) := by
  unfold Controller.fail
  rw [if_neg (by simp [hgoing])]
  refine ⟨?_, ?_, ?_⟩
  · exact hsound.detached rfl rfl rfl rfl rfl hsound.follows
  · refine .ended ⟨hgoing, .inr (.inr (.inl rfl)), rfl, ?_, hreturned⟩
    intro i hi
    have : c.pendingOperation = some i := hi
    rw [hidle] at this
    cases this
  · exact .of_diagnostics rfl (fun h => by rw [hnotFinal] at h; cases h)

theorem stop_kept (hsound : Sound R log c) (hstanding : Standing c) : Kept R log c c.stop := by
  unfold Controller.stop
  by_cases hstopped : c.stopped = true
  · rw [if_pos hstopped]
    exact .refl hsound hstanding
  · rw [if_neg hstopped]
    exact ⟨hsound.detached rfl rfl rfl rfl rfl hsound.follows, .stopped ⟨rfl, rfl, rfl⟩,
      .of_diagnostics rfl (fun _ => rfl)⟩

theorem Following.not_terminal (h : Following c k) :
    c.isTerminal = false ∧ c.current.phase.isFinal = false := by
  unfold Controller.isTerminal
  rcases h.phase with hphase | hphase | hphase <;> rw [hphase] <;> exact ⟨rfl, rfl⟩

/-- A tracked operation becomes the pending one. -/
theorem Sound.tracked (h : Sound R log c) (hidle : c.pendingOperation = none)
    {op : Operation Summary} (hop : op.FromLog R log) : Sound R log (c.trackOperation op) := by
  unfold Controller.trackOperation
  refine ⟨?_, h.onlyOpen, h.ready, ?_, h.starting, h.follows⟩
  · intro i op' hget hrunning
    dsimp only at hget ⊢
    rw [List.getElem?_append] at hget
    split at hget
    · have := h.onlyPending i op' hget hrunning
      rw [hidle] at this
      cases this
    · rename_i hle
      obtain ⟨hlt, -⟩ := List.getElem?_eq_some_iff.mp hget
      rw [List.length_singleton] at hlt
      rw [Option.some.injEq]
      omega
  · intro i op' hget
    dsimp only at hget
    rw [List.getElem?_append] at hget
    split at hget
    · exact h.fetched i op' hget
    · obtain ⟨hlt, heq⟩ := List.getElem?_eq_some_iff.mp hget
      have hzero : i - c.operations.length = 0 := by
        rw [List.length_singleton] at hlt
        omega
      rw [← heq]
      simpa [hzero] using hop

/-- While a stream is followed `beginResync` is never refused. -/
theorem beginResync_kept (hsound : Sound R log c) (h : Following c k) :
    Kept R log c c.beginResync ∧ Resyncing c.beginResync := by
  obtain ⟨bootstrap, hbootstrap⟩ := Option.isSome_iff_exists.mp h.bootstrapped
  have hbegun : c.beginResync =
      Controller.trackOperation
        { Controller.closeStream { c with generation := c.generation + 1 } with
          current := { c.current with
            phase := .resyncing, connection := .reconnecting, error := none } }
        (.resyncStatus (c.generation + 1) bootstrap) := by
    unfold Controller.beginResync
    rw [h.going, h.idle, h.not_terminal.1, if_neg (by simp)]
    dsimp only [Controller.closeStream]
    rw [hbootstrap]
  have hresyncing : Resyncing c.beginResync := by
    rw [hbegun]
    refine ⟨h.going, rfl, rfl, ⟨c.operations.length, .resyncStatus (c.generation + 1) bootstrap,
      rfl, ?_, rfl⟩, h.loaded, h.returned⟩
    exact List.getElem?_concat_length
  refine ⟨⟨?_, .resyncing hresyncing, ?_⟩, hresyncing⟩
  · rw [hbegun]
    have hop : Operation.FromLog R log (.resyncStatus (c.generation + 1) bootstrap) := trivial
    have hdetached : Sound R log
        { Controller.closeStream { c with generation := c.generation + 1 } with
          current := { c.current with
            phase := .resyncing, connection := .reconnecting, error := none } } :=
      hsound.detached rfl rfl rfl rfl rfl hsound.follows
    exact hdetached.tracked h.idle hop
  · rw [hbegun]
    exact .of_diagnostics rfl (fun hfinal => by rw [h.not_terminal.2] at hfinal; cases hfinal)

/-! ### Frames of the followed stream -/

theorem Following.fail_kept (hsound : Sound R log c) (h : Following c k)
    (error : ThrownError) : Kept R log c (c.fail error) :=
  Web.fail_kept hsound h.returned h.idle h.going h.not_terminal.2 error

/-- The followed controller with other diagnostics. -/
theorem Following.withDiagnostics (h : Following c k)
    (next : DiagnosticState Live View) :
    Following (c.commitDiagnostic next) k :=
  ⟨h.going, h.phase, h.stream, h.opened, h.idle, rfl, h.bootstrapped, h.returned⟩

theorem Sound.withDiagnostics (h : Sound R log c) {next : DiagnosticState Live View}
    (hnext : FollowsLog R log next) :
    Sound R log (c.commitDiagnostic next) := by
  refine ⟨h.onlyPending, h.onlyOpen, h.ready, h.fetched, h.starting, ?_⟩
  intro state hstate
  cases hstate
  exact hnext

/-- Diagnostics whose cursor is not behind. -/
theorem Advances.withDiagnostics {state next : DiagnosticState Live View}
    {c' : Controller Summary Live View} (hstate : c.current.diagnostics = some state)
    (hnext : c'.current.diagnostics = some next)
    (hle : state.cursor.deliveredThrough ≤ next.cursor.deliveredThrough)
    (hfinal : c.current.phase.isFinal = true → c'.current.phase.isFinal = true) :
    Advances c c' := by
  refine ⟨?_, hfinal⟩
  intro before hbefore
  rw [hstate] at hbefore
  cases hbefore
  exact ⟨next, hnext, hle⟩

theorem handleEvent_kept {event : CommittedEvent}
    (hsound : Sound R log c) (h : Following c k) (hstate : c.current.diagnostics = some state)
    (hsettled : state.deliveryIssue = none)
    (hlog : event.runId = runId → event ∈ log.events) :
    Kept R log c (c.handleEvent R state event) := by
  have hfollows := hsound.follows state hstate
  have hquiet : Standing c :=
    .following k h (fun before hbefore => by
      rw [hstate] at hbefore
      cases hbefore
      exact hsettled)
  unfold Controller.handleEvent
  split
  · exact h.fail_kept hsound _
  split
  · exact h.fail_kept hsound _
  rename_i hrun
  replace hrun := not_not.mp hrun
  split
  · exact .refl hsound hquiet
  rename_i next hnext
  dsimp only
  rcases receiveEvent_cases hrun hnext with ⟨hissue, hid, hlive, hdelivered⟩ | ⟨hsequence, rfl⟩
  · -- a refused event: the issue starts a resync
    have hkeeps : FollowsLog R log next := by
      obtain ⟨h₁, h₂, h₃⟩ := hfollows
      refine ⟨hid.trans h₁, ?_, ?_⟩
      · rw [hdelivered]
        exact h₂
      · rw [hdelivered, hlive]
        exact h₃
    rw [if_pos hissue]
    have hbegun := (beginResync_kept (hsound.withDiagnostics hkeeps) (h.withDiagnostics next)).1
    have hcommitted : Advances c (c.commitDiagnostic next) :=
      .withDiagnostics hstate rfl hdelivered.ge id
    exact ⟨hbegun.sound, hbegun.standing, hcommitted.trans hbegun.advances⟩
  · -- the next event
    have hmem := hlog (hrun.trans hfollows.1)
    rw [if_neg (by simp [acceptedEvent])]
    refine ⟨hsound.withDiagnostics (acceptedEvent_followsLog hfollows hmem hsequence),
      .following k (h.withDiagnostics _) ?_, ?_⟩
    · intro after hafter
      cases hafter
      rfl
    · refine .withDiagnostics hstate rfl ?_ id
      show state.cursor.deliveredThrough ≤ event.sequence.get
      omega

theorem observeWatermark_kept (hsound : Sound R log c)
    (h : Following c k) (hstate : c.current.diagnostics = some state) (watermark : Nat) :
    Sound R log (c.observeWatermark R state watermark) ∧
      Following (c.observeWatermark R state watermark) k ∧
        Advances c (c.observeWatermark R state watermark) := by
  unfold Controller.observeWatermark
  refine ⟨hsound.withDiagnostics
    (watermarkObserved_followsLog watermark (hsound.follows state hstate)),
    h.withDiagnostics _, .withDiagnostics hstate rfl ?_ id⟩
  rw [watermarkObserved_deliveredThrough]

theorem observe_then_resync_kept
    (hsound : Sound R log c) (h : Following c k) (hstate : c.current.diagnostics = some state)
    (watermark : Nat) :
    Kept R log c (c.observeWatermark R state watermark).beginResync ∧
      Resyncing (c.observeWatermark R state watermark).beginResync := by
  obtain ⟨hsound', h', hadvances⟩ := observeWatermark_kept hsound h hstate watermark
  obtain ⟨hkept, hresyncing⟩ := beginResync_kept hsound' h'
  exact ⟨⟨hkept.sound, hkept.standing, hadvances.trans hkept.advances⟩, hresyncing⟩

theorem handleReady_kept (hsound : Sound R log c)
    (h : Following c k) (hstate : c.current.diagnostics = some state)
    (hsettled : state.deliveryIssue = none) (resumeAfter replayThrough : Nat) :
    Kept R log c (c.handleReady R state resumeAfter replayThrough) := by
  unfold Controller.handleReady
  split
  · exact h.fail_kept hsound _
  split
  · exact (beginResync_kept hsound h).1
  refine ⟨?_, .following k ?_ ?_, .withDiagnostics hstate rfl ?_ ?_⟩
  · refine ⟨hsound.onlyPending, hsound.onlyOpen, fun _ => ?_, hsound.fetched, hsound.starting, ?_⟩
    · show c.stream.isSome = true
      rw [h.stream]
      rfl
    · intro after hafter
      cases hafter
      exact watermarkObserved_followsLog replayThrough (hsound.follows state hstate)
  · exact ⟨h.going, .inr (.inl rfl), h.stream, h.opened, h.idle, rfl, h.bootstrapped, h.returned⟩
  · intro after hafter
    cases hafter
    rw [watermarkObserved_deliveryIssue]
    exact hsettled
  · rw [watermarkObserved_deliveredThrough]
  · intro hfinal
    rw [h.not_terminal.2] at hfinal
    cases hfinal

theorem handleClosed_kept (hsound : Sound R log c)
    (h : Following c k) (hstate : c.current.diagnostics = some state) (reason : String)
    (watermark : Nat) : Kept R log c (c.handleClosed R state reason watermark) := by
  obtain ⟨bootstrap, hbootstrap⟩ := Option.isSome_iff_exists.mp h.bootstrapped
  have hclosed : c.handleClosed R state reason watermark =
      Controller.trackOperation
        { Controller.closeStream { c with generation := c.generation + 1 } with
          current := { c.current with
            diagnostics := some (watermarkObserved R state watermark)
            phase := .closed
            connection := .offline
            terminalReason := some reason
            error := none } }
        (.refreshStatus bootstrap) := by
    unfold Controller.handleClosed
    dsimp only [Controller.closeStream]
    rw [hbootstrap]
  have hop : Operation.FromLog R log (.refreshStatus bootstrap) := trivial
  have hdetached : Sound R log
      { Controller.closeStream { c with generation := c.generation + 1 } with
        current := { c.current with
          diagnostics := some (watermarkObserved R state watermark)
          phase := .closed
          connection := .offline
          terminalReason := some reason
          error := none } } := by
    refine hsound.detached rfl rfl rfl rfl rfl ?_
    intro after hafter
    cases hafter
    exact watermarkObserved_followsLog watermark (hsound.follows state hstate)
  rw [hclosed]
  refine ⟨hdetached.tracked h.idle hop, .ended ⟨h.going, .inr (.inl rfl), rfl, ?_, h.returned⟩,
    .withDiagnostics hstate rfl ?_ fun _ => rfl⟩
  · intro i hi
    cases hi
    exact ⟨rfl, bootstrap, List.getElem?_concat_length⟩
  · rw [watermarkObserved_deliveredThrough]

theorem handleControl_kept (hsound : Sound R log c)
    (h : Following c k) (hstate : c.current.diagnostics = some state)
    (hsettled : state.deliveryIssue = none) (frameRunId : CanonicalUuid) (control : SseControl) :
    Kept R log c (c.handleControl R state frameRunId control) := by
  unfold Controller.handleControl
  split
  · exact h.fail_kept hsound _
  cases control with
  | streamReady resumeAfter replayThrough =>
    exact handleReady_kept hsound h hstate hsettled resumeAfter replayThrough
  | heartbeat watermark =>
    dsimp only
    split
    · exact h.fail_kept hsound _
    · obtain ⟨hsound', h', hadvances⟩ := observeWatermark_kept hsound h hstate watermark
      refine ⟨hsound', .following k h' ?_, hadvances⟩
      intro after hafter
      cases hafter
      rw [watermarkObserved_deliveryIssue]
      exact hsettled
  | deliveryGap _ watermark => exact (observe_then_resync_kept hsound h hstate watermark).1
  | resyncRequired _ watermark => exact (observe_then_resync_kept hsound h hstate watermark).1
  | streamClosed reason watermark => exact handleClosed_kept hsound h hstate reason watermark

theorem awaitReady_kept (hsound : Sound R log c) (h : Following c k)
    (hsettled : ∀ state ∈ c.current.diagnostics, state.deliveryIssue = none)
    {phase : LiveConnectionPhase} (hphase : phase = .connecting ∨ phase = .reconnecting) :
    Kept R log c (c.awaitReady phase) := by
  obtain ⟨state, hstate⟩ := Option.isSome_iff_exists.mp h.loaded
  have hawaiting : c.awaitReady phase =
      { c with
        readySeen := false
        expectedResume := some state.cursor.deliveredThrough
        current := { c.current with phase, connection := .reconnecting, error := none } } := by
    unfold Controller.awaitReady
    dsimp only
    rw [hstate]
  rw [hawaiting]
  refine ⟨⟨hsound.onlyPending, hsound.onlyOpen, fun hseen => (nomatch hseen), hsound.fetched,
    hsound.starting, hsound.follows⟩, .following k ?_ hsettled, .of_diagnostics rfl ?_⟩
  · refine ⟨h.going, ?_, h.stream, h.opened, h.idle, h.loaded, h.bootstrapped, h.returned⟩
    exact hphase.elim .inl fun hphase => .inr (.inr hphase)
  · intro hfinal
    rw [h.not_terminal.2] at hfinal
    cases hfinal

/-- A callback of the followed stream is handled. -/
theorem Following.onCallback (h : Following c k) (callback : Callback) :
    c.onCallback R k callback =
      match callback with
      | .opened =>
        c.awaitReady (if c.current.phase = .connecting then .connecting else .reconnecting)
      | .frame frame => c.handleFrame R frame
      | .errored => c.awaitReady .reconnecting
      | .protocolError error => c.fail error := by
  unfold Controller.onCallback
  rw [h.opened]
  dsimp only
  rw [if_neg (by simp [Controller.activeGeneration, h.going])]
  cases callback with
  | errored =>
    dsimp only
    rw [h.not_terminal.1, if_neg (by simp)]
  | opened => rfl
  | frame frame => rfl
  | protocolError error => rfl

/-- A stream that is not the controller's is closed. -/
theorem onCallback_other (hsound : Sound R log c) (hother : c.stream ≠ some k)
    (callback : Callback) : c.onCallback R k callback = c := by
  unfold Controller.onCallback
  split
  · rfl
  rename_i stream hget
  cases hclosed : stream.closed with
  | true => rfl
  | false => exact absurd (hsound.onlyOpen k stream hget hclosed) hother

/-- A callback of a closed stream or of another generation changes nothing. -/
theorem onCallback_stale {stream : EventStream} (hget : c.streams[k]? = some stream)
    (hstale : stream.closed = true ∨ stream.generation ≠ c.generation) (callback : Callback) :
    c.onCallback R k callback = c := by
  unfold Controller.onCallback
  rw [hget]
  dsimp only
  have hignored : (stream.closed || !c.activeGeneration stream.generation) = true := by
    rcases hstale with hclosed | hgeneration
    · rw [hclosed]
      rfl
    · simp [Controller.activeGeneration, hgeneration]
  rw [if_pos hignored]

theorem onCallback_kept {callback : Callback} (hsound : Sound R log c)
    (hstanding : Standing c)
    (hlog : ∀ event, callback = .frame (.event event) → event.runId = runId → event ∈ log.events) :
    Kept R log c (c.onCallback R k callback) := by
  by_cases hother : c.stream ≠ some k
  · rw [onCallback_other hsound hother]
    exact .refl hsound hstanding
  have hstream : c.stream = some k := not_not.mp hother
  cases hstanding with
  | starting h => exact absurd hstream (by simp [h.noStream])
  | resyncing h => exact absurd hstream (by simp [h.noStream])
  | stranded h _ _ => exact absurd hstream (by simp [h.noStream])
  | ended h => exact absurd hstream (by simp [h.noStream])
  | stopped h => exact absurd hstream (by simp [h.noStream])
  | following j h hsettled =>
    obtain rfl : k = j := Option.some.inj (hstream.symm.trans h.stream)
    obtain ⟨state, hstate⟩ := Option.isSome_iff_exists.mp h.loaded
    have hissue := hsettled state hstate
    rw [h.onCallback]
    cases callback with
    | opened =>
      refine awaitReady_kept hsound h hsettled ?_
      split
      · exact .inl rfl
      · exact .inr rfl
    | errored => exact awaitReady_kept hsound h hsettled (.inr rfl)
    | protocolError error => exact h.fail_kept hsound error
    | frame frame =>
      show Kept R log c (c.handleFrame R frame)
      unfold Controller.handleFrame
      rw [hstate]
      cases frame with
      | event event => exact handleEvent_kept hsound h hstate hissue (hlog event rfl)
      | control frameRunId control =>
        exact handleControl_kept hsound h hstate hissue frameRunId control

/-! ### Operations -/

theorem Detached.fail_kept (h : Detached c) (hsound : Sound R log c) (error : ThrownError) :
    Kept R log c (c.fail error) :=
  Web.fail_kept hsound h.returned h.idle h.going h.notFinal error

/-- An `EventSource` that could be made is followed. -/
theorem openStream_kept (after : Nat)
    (constructor : Option ThrownError) (hsound : Sound R log c) (hgoing : c.stopped = false)
    (hnone : c.stream = none) (hidle : c.pendingOperation = none)
    (hbootstrap : c.current.bootstrap.isSome = true) (hreturned : c.start = .returned)
    (hphase : c.current.phase = .connecting) (hstate : c.current.diagnostics = some state) :
    let opened := c.openStream after constructor
    Sound R log opened.1 ∧ opened.1.current = c.current ∧
      (opened.2 = none → ∃ k, Following opened.1 k) ∧
        (opened.2.isSome = true → Detached opened.1 ∧ opened.1.generation = c.generation + 1) := by
  obtain ⟨bootstrap, hbootstrap'⟩ := Option.isSome_iff_exists.mp hbootstrap
  unfold Controller.openStream
  rw [hbootstrap']
  cases constructor with
  | some error =>
    refine ⟨⟨hsound.onlyPending, hsound.onlyOpen, fun hseen => (nomatch hseen), hsound.fetched,
      hsound.starting, hsound.follows⟩, rfl, fun h => (nomatch h), fun _ => ?_⟩
    refine ⟨⟨hgoing, hnone, hidle, ?_, hreturned⟩, rfl⟩
    show c.current.phase.isFinal = false
    rw [hphase]
    rfl
  | none =>
    refine ⟨⟨hsound.onlyPending, ?_, fun hseen => (nomatch hseen), hsound.fetched,
      hsound.starting, hsound.follows⟩, rfl, fun _ => ⟨c.streams.length, ?_⟩, fun h => (nomatch h)⟩
    · intro k stream hget hopen
      dsimp only at hget ⊢
      rw [List.getElem?_append] at hget
      split at hget
      · have := hsound.onlyOpen k stream hget hopen
        rw [hnone] at this
        cases this
      · obtain ⟨hlt, -⟩ := List.getElem?_eq_some_iff.mp hget
        rw [List.length_singleton] at hlt
        rw [Option.some.injEq]
        omega
    · refine ⟨hgoing, .inl hphase, rfl, List.getElem?_concat_length, hidle, ?_, hbootstrap,
        hreturned⟩
      show c.current.diagnostics.isSome = true
      rw [hstate]
      rfl

/-- A fetched window is entered: the run is over, or its stream is followed, or the stream could
not be made. -/
theorem enterWindow_kept (status : DiagnosticStatus) (snapshot : SnapshotResponse Summary)
    (constructor : Option ThrownError) (hsound : Sound R log c)
    (h : Detached c) (hbootstrap : c.current.bootstrap.isSome = true)
    (hfollows : FollowsLog R log state) (hsettled : state.deliveryIssue = none)
    (hadvances : ∀ before ∈ c.current.diagnostics,
      before.cursor.deliveredThrough ≤ state.cursor.deliveredThrough) :
    let entered := c.enterWindow status snapshot state constructor
    Sound R log entered.1 ∧ Advances c entered.1 ∧
      (entered.2 = none → Standing entered.1) ∧
        (entered.2.isSome = true → Detached entered.1 ∧
          entered.1.generation = c.generation + 1 ∧ entered.1.current.phase = .connecting ∧
            ∀ after ∈ entered.1.current.diagnostics, after.deliveryIssue = none) := by
  have hentered (phase : LiveConnectionPhase) (connection : ShellConnection) :
      Sound R log { c with current := { c.current with
        snapshot := some snapshot, diagnostics := some state, phase, connection } } := by
    refine ⟨hsound.onlyPending, hsound.onlyOpen, hsound.ready, hsound.fetched, hsound.starting, ?_⟩
    intro after hafter
    cases hafter
    exact hfollows
  have hmoves {c' : Controller Summary Live View}
      (hdiagnostics : c'.current.diagnostics = some state) : Advances c c' := by
    refine ⟨fun before hbefore => ⟨state, hdiagnostics, hadvances before hbefore⟩, ?_⟩
    intro hfinal
    rw [h.notFinal] at hfinal
    cases hfinal
  unfold Controller.enterWindow
  dsimp only
  split
  · refine ⟨hentered _ _, hmoves rfl, fun _ => .ended ⟨h.going, .inl rfl, h.noStream, ?_,
      h.returned⟩, fun hsome => (nomatch hsome)⟩
    intro i hi
    exact absurd hi (by simp [h.idle])
  split
  · refine ⟨hentered _ _, hmoves rfl, fun _ => .ended ⟨h.going, .inr (.inl rfl), h.noStream, ?_,
      h.returned⟩, fun hsome => (nomatch hsome)⟩
    intro i hi
    exact absurd hi (by simp [h.idle])
  obtain ⟨hopened, hcurrent, hfollowing, hdetached⟩ :=
    openStream_kept snapshot.watermarkSequence constructor (hentered .connecting .reconnecting)
      h.going h.noStream h.idle hbootstrap h.returned rfl rfl
  have hafter : ∀ after ∈ (Controller.openStream
      { c with current := { c.current with
        snapshot := some snapshot, diagnostics := some state, phase := .connecting
        connection := .reconnecting } } snapshot.watermarkSequence
          constructor).1.current.diagnostics, after.deliveryIssue = none := by
    intro after hafter
    rw [hcurrent] at hafter
    cases hafter
    exact hsettled
  refine ⟨hopened, hmoves (by rw [hcurrent]), fun hnone => ?_, fun hsome => ?_⟩
  · obtain ⟨k, hk⟩ := hfollowing hnone
    exact .following k hk hafter
  · exact ⟨(hdetached hsome).1, (hdetached hsome).2, by rw [hcurrent], hafter⟩

/-- A window the server sent gives a state on the log, not behind the previous one. -/
theorem stateFromSnapshotWindow_ok {snapshot : SnapshotResponse Summary} {suffix : EventsResponse}
    {previous : Option (DiagnosticState Live View)}
    (hfrom : Response.FromLog R log (.snapshot snapshot))
    (hevents : Response.FromLog R log (.events suffix))
    (hchecked : checkSnapshotSuffix snapshot suffix = .ok ())
    (hok : stateFromSnapshotWindow R snapshot suffix previous = .ok state) :
    FollowsLog R log state ∧ state.deliveryIssue = none ∧
      ∀ before ∈ previous, before.cursor.deliveredThrough ≤ state.cursor.deliveredThrough := by
  unfold stateFromSnapshotWindow at hok
  split at hok
  · cases hok
  split at hok
  · cases hok
  rename_i hbehind
  have hsuffix := checkSnapshotSuffix_ok hfrom.1 hevents hchecked
  obtain ⟨hfollows, hsettled, hdelivered⟩ := hydrated_followsLog hfrom hsuffix hok
  refine ⟨hfollows, hsettled, ?_⟩
  intro before hbefore
  cases hbefore
  rw [hdelivered]
  simpa using hbehind

/-! ### Settling -/

theorem Sound.settle (h : Sound R log c) (i : Nat) : Sound R log (c.settle i) := by
  unfold Controller.settle
  refine ⟨?_, h.onlyOpen, h.ready, ?_, h.starting, h.follows⟩
  · intro j op hget hrunning
    dsimp only at hget ⊢
    rw [List.getElem?_set] at hget
    by_cases hij : i = j
    · rw [if_pos hij] at hget
      split at hget
      · cases hget
        exact absurd rfl hrunning
      · cases hget
    · rw [if_neg hij] at hget
      have hpending := h.onlyPending j op hget hrunning
      rw [if_neg (by rw [hpending, Option.some.injEq]; exact fun h => hij h.symm)]
      exact hpending
  · intro j op hget
    dsimp only at hget
    rw [List.getElem?_set] at hget
    by_cases hij : i = j
    · rw [if_pos hij] at hget
      split at hget
      · cases hget
        trivial
      · cases hget
    · rw [if_neg hij] at hget
      exact h.fetched j op hget

/-- A running operation gets to its next await. -/
theorem Sound.goesOn {op op' : Operation Summary} (h : Sound R log c)
    (hget : c.operations[i]? = some op) (hrunning : op ≠ .settled) (hop : op'.FromLog R log) :
    Sound R log { c with operations := c.operations.set i op' } := by
  refine ⟨?_, h.onlyOpen, h.ready, ?_, h.starting, h.follows⟩
  · intro j other hother hrunning'
    dsimp only at hother ⊢
    rw [List.getElem?_set] at hother
    by_cases hij : i = j
    · rw [← hij]
      exact h.onlyPending i op hget hrunning
    · rw [if_neg hij] at hother
      exact h.onlyPending j other hother hrunning'
  · intro j other hother
    dsimp only at hother
    rw [List.getElem?_set] at hother
    by_cases hij : i = j
    · rw [if_pos hij] at hother
      split at hother
      · cases hother
        exact hop
      · cases hother
    · rw [if_neg hij] at hother
      exact h.fetched j other hother

theorem fail_settle (error : ThrownError) (i : Nat) :
    (c.fail error).settle i = (c.settle i).fail error := by
  unfold Controller.fail
  by_cases hstopped : c.stopped = true
  · have hstopped' : (c.settle i).stopped = true := hstopped
    rw [if_pos hstopped, if_pos hstopped']
  · have hstopped' : ¬(c.settle i).stopped = true := hstopped
    rw [if_neg hstopped, if_neg hstopped']
    rfl

theorem failActive_settle (generation : Nat) (error : ThrownError) (i : Nat) :
    (c.failActive generation error).settle i = (c.settle i).failActive generation error := by
  unfold Controller.failActive
  by_cases hactive : c.activeGeneration generation = true
  · have hactive' : (c.settle i).activeGeneration generation = true := hactive
    rw [if_pos hactive, if_pos hactive', fail_settle]
  · have hactive' : ¬(c.settle i).activeGeneration generation = true := hactive
    rw [if_neg hactive, if_neg hactive']

theorem enterWindow_settle (status : DiagnosticStatus) (snapshot : SnapshotResponse Summary)
    (state : DiagnosticState Live View) (constructor : Option ThrownError) (i : Nat) :
    (c.settle i).enterWindow status snapshot state constructor =
      ((c.enterWindow status snapshot state constructor).1.settle i,
        (c.enterWindow status snapshot state constructor).2) := by
  unfold Controller.enterWindow
  dsimp only
  split
  · rfl
  split
  · rfl
  unfold Controller.openStream
  cases hbootstrap : c.current.bootstrap with
  | none =>
    have hbootstrap' : (c.settle i).current.bootstrap = none := hbootstrap
    dsimp only
    rw [hbootstrap']
    rfl
  | some bootstrap =>
    have hbootstrap' : (c.settle i).current.bootstrap = some bootstrap := hbootstrap
    dsimp only
    rw [hbootstrap']
    cases constructor with
    | none => rfl
    | some error => rfl

theorem finishResync_settle (generation : Nat) (bootstrap : DiagnosticBootstrap)
    (status : DiagnosticStatus) (snapshot : SnapshotResponse Summary) (suffix : EventsResponse)
    (constructor : Option ThrownError) (i : Nat) :
    (c.finishResync R generation bootstrap status snapshot suffix constructor).settle i =
      (c.settle i).finishResync R generation bootstrap status snapshot suffix constructor := by
  unfold Controller.finishResync
  by_cases hactive : (!c.activeGeneration generation) = true
  · have hactive' : (!(c.settle i).activeGeneration generation) = true := hactive
    rw [if_pos hactive, if_pos hactive']
  have hactive' : ¬(!(c.settle i).activeGeneration generation) = true := hactive
  rw [if_neg hactive, if_neg hactive']
  cases hdiagnostics : c.current.diagnostics with
  | none =>
    have hdiagnostics' : (c.settle i).current.diagnostics = none := hdiagnostics
    rw [hdiagnostics']
    exact fail_settle _ i
  | some previous =>
    have hdiagnostics' : (c.settle i).current.diagnostics = some previous := hdiagnostics
    rw [hdiagnostics']
    dsimp only
    cases stateFromSnapshotWindow R snapshot suffix (some previous) with
    | error error => exact fail_settle error i
    | ok state =>
      dsimp only
      have hsettled : ((c.settle i).updateStatus bootstrap status).enterWindow status snapshot state
          constructor = _ :=
        enterWindow_settle (c := c.updateStatus bootstrap status) status snapshot state constructor i
      rw [hsettled]
      cases (c.updateStatus bootstrap status).enterWindow status snapshot state constructor with
      | mk entered thrown =>
        cases thrown with
        | none => rfl
        | some error => exact failActive_settle generation error i

/-! ### Responses -/

theorem Advances.settle (c : Controller Summary Live View) (i : Nat) : Advances c (c.settle i) :=
  .of_diagnostics rfl id

/-- A resynchronization that settles leaves nothing running. -/
theorem Resyncing.settle (h : Resyncing c) (hpending : c.pendingOperation = some i) :
    Detached (c.settle i) := by
  refine ⟨h.going, h.noStream, ?_, ?_, h.returned⟩
  · show (if c.pendingOperation = some i then none else c.pendingOperation) = none
    rw [if_pos hpending]
  · show c.current.phase.isFinal = false
    rw [h.phase]
    rfl

theorem Stopped.settle (h : Stopped c) (i : Nat) : Stopped (c.settle i) :=
  ⟨h.stopped, h.phase, h.noStream⟩

theorem Stopped.fail (h : Stopped c) (error : ThrownError) : c.fail error = c := by
  unfold Controller.fail
  rw [if_pos h.stopped]

theorem Stopped.not_active (h : Stopped c) (generation : Nat) :
    c.activeGeneration generation = false := by
  unfold Controller.activeGeneration
  rw [h.stopped]
  rfl

/-- The generation of a running resynchronization is the present one, unless the controller has
been stopped. -/
theorem Standing.of_resync {op : Operation Summary}
    (hsound : Sound R log c) (hstanding : Standing c) (hget : c.operations[i]? = some op)
    (hgeneration : op.resyncGeneration = some generation) :
    (Resyncing c ∧ c.pendingOperation = some i ∧ generation = c.generation) ∨ Stopped c := by
  have hrunning : op ≠ .settled := by
    rintro rfl
    cases hgeneration
  have hpending := hsound.onlyPending i op hget hrunning
  cases hstanding with
  | starting h => exact absurd hpending (by simp [h.idle])
  | following k h _ => exact absurd hpending (by simp [h.idle])
  | stranded h _ _ => exact absurd hpending (by simp [h.idle])
  | stopped h => exact .inr h
  | ended h =>
    obtain ⟨-, b, hb⟩ := h.refreshing i hpending
    rw [hget] at hb
    cases hb
    cases hgeneration
  | resyncing h =>
    obtain ⟨j, op', hj, hop', hgen⟩ := h.running
    obtain rfl : i = j := Option.some.inj (hpending.symm.trans hj)
    obtain rfl : op = op' := Option.some.inj (hget.symm.trans hop')
    rw [hgeneration] at hgen
    exact .inl ⟨h, hpending, Option.some.inj hgen⟩

/-- A resynchronization fails. -/
theorem resync_fails_kept {op : Operation Summary}
    (hsound : Sound R log c) (hstanding : Standing c) (hget : c.operations[i]? = some op)
    (hgeneration : op.resyncGeneration = some generation) (error : ThrownError) :
    Kept R log c ((c.failActive generation error).settle i) := by
  rw [failActive_settle]
  unfold Controller.failActive
  rcases hstanding.of_resync hsound hget hgeneration with ⟨h, hpending, rfl⟩ | h
  · have hactive : (c.settle i).activeGeneration c.generation = true := by
      show (!c.stopped && c.generation == c.generation) = true
      simp [h.going]
    rw [if_pos hactive]
    have hfailed := (h.settle hpending).fail_kept (hsound.settle i) error
    exact ⟨hfailed.sound, hfailed.standing, (Advances.settle c i).trans hfailed.advances⟩
  · rw [if_neg (by simp [(h.settle i).not_active])]
    exact ⟨hsound.settle i, .stopped (h.settle i), .settle c i⟩

/-- A resynchronization gets to its next await. -/
theorem resync_goesOn_kept {op op' : Operation Summary}
    (hsound : Sound R log c) (hstanding : Standing c) (hget : c.operations[i]? = some op)
    (hgeneration : op.resyncGeneration = some generation)
    (hgeneration' : op'.resyncGeneration = some generation) (hop : op'.FromLog R log) :
    Kept R log c { c with operations := c.operations.set i op' } := by
  have hrunning : op ≠ .settled := by
    rintro rfl
    cases hgeneration
  refine ⟨hsound.goesOn hget hrunning hop, ?_, .of_diagnostics rfl id⟩
  rcases hstanding.of_resync hsound hget hgeneration with ⟨h, hpending, rfl⟩ | h
  · obtain ⟨hlt, -⟩ := List.getElem?_eq_some_iff.mp hget
    exact .resyncing ⟨h.going, h.phase, h.noStream,
      ⟨i, op', hpending, List.getElem?_set_self hlt, hgeneration'⟩, h.loaded, h.returned⟩
  · exact .stopped ⟨h.stopped, h.phase, h.noStream⟩

theorem Detached.updateStatus (h : Detached c) (bootstrap : DiagnosticBootstrap)
    (status : DiagnosticStatus) : Detached (c.updateStatus bootstrap status) :=
  ⟨h.going, h.noStream, h.idle, h.notFinal, h.returned⟩

theorem Sound.updateStatus (h : Sound R log c) (bootstrap : DiagnosticBootstrap)
    (status : DiagnosticStatus) : Sound R log (c.updateStatus bootstrap status) :=
  ⟨h.onlyPending, h.onlyOpen, h.ready, h.fetched, h.starting, h.follows⟩

/-- A resynchronization ends with a window. -/
theorem resync_ends_kept {bootstrap : DiagnosticBootstrap}
    {status : DiagnosticStatus} {snapshot : SnapshotResponse Summary} {suffix : EventsResponse}
    (constructor : Option ThrownError) (hsound : Sound R log c) (hstanding : Standing c)
    (hget : c.operations[i]? = some (.resyncSuffix generation bootstrap status snapshot))
    (hevents : Response.FromLog R log (.events suffix))
    (hchecked : checkSnapshotSuffix snapshot suffix = .ok ()) :
    Kept R log c
      ((c.finishResync R generation bootstrap status snapshot suffix constructor).settle i) := by
  have hfrom : Response.FromLog R log (.snapshot snapshot) := hsound.fetched i _ hget
  rw [finishResync_settle]
  unfold Controller.finishResync
  rcases hstanding.of_resync hsound hget rfl with ⟨h, hpending, rfl⟩ | h
  · obtain ⟨previous, hprevious⟩ := Option.isSome_iff_exists.mp h.loaded
    have hdetached := h.settle hpending
    have hkept {c' : Controller Summary Live View} (hkept : Kept R log (c.settle i) c') :
        Kept R log c c' :=
      ⟨hkept.sound, hkept.standing, (Advances.settle c i).trans hkept.advances⟩
    have hactive : (c.settle i).activeGeneration c.generation = true := by
      show (!c.stopped && c.generation == c.generation) = true
      simp [h.going]
    have hprevious' : (c.settle i).current.diagnostics = some previous := hprevious
    rw [hactive, hprevious', if_neg (by simp)]
    dsimp only
    cases hstate : stateFromSnapshotWindow R snapshot suffix (some previous) with
    | error error => exact hkept (hdetached.fail_kept (hsound.settle i) error)
    | ok state =>
      obtain ⟨hfollows, hsettled, hadvances⟩ :=
        stateFromSnapshotWindow_ok hfrom hevents hchecked hstate
      dsimp only
      cases hentered : ((c.settle i).updateStatus bootstrap status).enterWindow status snapshot
        state constructor with
      | mk entered thrown =>
        obtain ⟨hsound', hadvances', hstanding', hstranded⟩ :=
          enterWindow_kept status snapshot constructor
            ((hsound.settle i).updateStatus bootstrap status)
            (hdetached.updateStatus bootstrap status) rfl hfollows hsettled
            (fun before hbefore => hadvances before (hprevious ▸ hbefore))
        rw [hentered] at hsound' hadvances' hstanding' hstranded
        have hupdated : Advances (c.settle i) entered :=
          ⟨hadvances'.delivered, hadvances'.final⟩
        cases thrown with
        | none => exact hkept ⟨hsound', hstanding' rfl, hupdated⟩
        | some error =>
          obtain ⟨hleft, hgeneration, hphase, hclear⟩ := hstranded rfl
          dsimp only
          have hinactive : entered.activeGeneration c.generation = false := by
            have hnew : entered.generation = c.generation + 1 := hgeneration
            simp [Controller.activeGeneration, hnew]
          unfold Controller.failActive
          rw [hinactive, if_neg (by simp)]
          exact hkept ⟨hsound', .stranded hleft hphase hclear, hupdated⟩
  · have hinactive := (h.settle i).not_active generation
    rw [hinactive, if_pos (by rfl)]
    exact ⟨hsound.settle i, .stopped (h.settle i), .settle c i⟩

/-- A refresh of the terminal status ends. -/
theorem refresh_ends {bootstrap : DiagnosticBootstrap} (hsound : Sound R log c)
    (hstanding : Standing c) (hget : c.operations[i]? = some (.refreshStatus bootstrap)) :
    Standing (c.settle i) := by
  have hpending := hsound.onlyPending i _ hget nofun
  cases hstanding with
  | starting h => exact absurd hpending (by simp [h.idle])
  | following k h _ => exact absurd hpending (by simp [h.idle])
  | stranded h _ _ => exact absurd hpending (by simp [h.idle])
  | stopped h => exact .stopped (h.settle i)
  | resyncing h =>
    obtain ⟨j, op, hj, hop, hgeneration⟩ := h.running
    obtain rfl : i = j := Option.some.inj (hpending.symm.trans hj)
    obtain rfl : Operation.refreshStatus bootstrap = op := Option.some.inj (hget.symm.trans hop)
    cases hgeneration
  | ended h =>
    refine .ended ⟨h.going, h.phase, h.noStream, ?_, h.returned⟩
    intro j hj
    have hnone : (if c.pendingOperation = some i then none else c.pendingOperation) = some j := hj
    rw [if_pos hpending] at hnone
    cases hnone

theorem Standing.updateStatus (h : Standing c) (hclosed : c.current.phase = .closed)
    (bootstrap : DiagnosticBootstrap) (status : DiagnosticStatus) :
    Standing (c.updateStatus bootstrap status) := by
  cases h with
  | starting h =>
    rcases h.phase with ⟨-, hphase⟩ | ⟨-, hphase⟩ | ⟨-, hphase, -⟩ <;>
      rw [hclosed] at hphase <;> cases hphase
  | following k h _ =>
    rcases h.phase with hphase | hphase | hphase <;> rw [hclosed] at hphase <;> cases hphase
  | stranded h _ _ =>
    have := h.notFinal
    rw [hclosed] at this
    cases this
  | resyncing h => exact absurd h.phase (by simp [hclosed])
  | stopped h => exact absurd h.phase (by simp [hclosed])
  | ended h => exact .ended ⟨h.going, h.phase, h.noStream, h.refreshing, h.returned⟩

theorem onResponse_kept {response : Response Summary} {constructor : Option ThrownError}
    (hsound : Sound R log c) (hstanding : Standing c) (hfrom : response.FromLog R log) :
    Kept R log c (c.onResponse R i response constructor) := by
  unfold Controller.onResponse
  split
  · rename_i hget
    split
    · exact resync_fails_kept hsound hstanding hget rfl _
    · exact resync_goesOn_kept hsound hstanding hget rfl rfl trivial
  · rename_i hget
    split
    · exact resync_fails_kept hsound hstanding hget rfl _
    · exact resync_goesOn_kept hsound hstanding hget rfl rfl hfrom
  · rename_i hget
    split
    · exact resync_fails_kept hsound hstanding hget rfl _
    · rename_i hchecked
      exact resync_ends_kept constructor hsound hstanding hget hfrom hchecked
  · rename_i bootstrap status hget
    have hended : Kept R log c (c.settle i) :=
      ⟨hsound.settle i, refresh_ends hsound hstanding hget, .settle c i⟩
    split
    · exact hended
    split
    · exact hended
    · rename_i hphase
      have hclosed : c.current.phase = .closed := by
        by_contra hother
        exact hphase (by simp [hother])
      exact ⟨(hsound.settle i).updateStatus bootstrap status,
        hended.standing.updateStatus hclosed bootstrap status, .of_diagnostics rfl id⟩
  · rename_i hget
    exact resync_fails_kept hsound hstanding hget rfl _
  · rename_i hget
    exact resync_fails_kept hsound hstanding hget rfl _
  · rename_i hget
    exact resync_fails_kept hsound hstanding hget rfl _
  · rename_i hget
    exact ⟨hsound.settle i, refresh_ends hsound hstanding hget, .settle c i⟩
  · exact .refl hsound hstanding

/-! ### Starting -/

theorem Sound.withStart (h : Sound R log c) {stage : StartStage Summary}
    (hstage : stage.FromLog R log) : Sound R log { c with start := stage } :=
  ⟨h.onlyPending, h.onlyOpen, h.ready, h.fetched, hstage, h.follows⟩

/-- `start` goes on only while the controller is starting or stopped. -/
theorem Standing.of_start (h : Standing c) (hstart : c.start ≠ .returned) :
    Starting c ∨ Stopped c := by
  cases h with
  | starting h => exact .inl h
  | stopped h => exact .inr h
  | following k h _ => exact absurd h.returned hstart
  | stranded h _ _ => exact absurd h.returned hstart
  | resyncing h => exact absurd h.returned hstart
  | ended h => exact absurd h.returned hstart

theorem Starting.notFinal (h : Starting c) : c.current.phase.isFinal = false := by
  rcases h.phase with ⟨-, hphase⟩ | ⟨-, hphase⟩ | ⟨-, hphase, -⟩ <;> rw [hphase] <;> rfl

/-- `start` has returned with nothing running. -/
theorem Starting.detached (h : Starting c) : Detached { c with start := .returned } :=
  ⟨h.going, h.noStream, h.idle, h.notFinal, rfl⟩

/-- Of a stopped controller `start` only goes on to its next await. -/
theorem Stopped.goesOn (hsound : Sound R log c) (h : Stopped c) {stage : StartStage Summary}
    (hstage : stage.FromLog R log) : Kept R log c { c with start := stage } :=
  ⟨hsound.withStart hstage, .stopped ⟨h.stopped, h.phase, h.noStream⟩, .of_diagnostics rfl id⟩

/-- `start` fails. -/
theorem start_fails_kept (hsound : Sound R log c) (hstanding : Standing c)
    (hstart : c.start ≠ .returned) (error : ThrownError) :
    Kept R log c (Controller.fail { c with start := .returned } error) := by
  have hsound' : Sound R log { c with start := .returned } :=
    hsound.withStart (show StartStage.FromLog R log .returned from trivial)
  rcases hstanding.of_start hstart with h | h
  · have hfailed := h.detached.fail_kept hsound' error
    exact ⟨hfailed.sound, hfailed.standing, hfailed.advances.delivered, hfailed.advances.final⟩
  · have hstopped : Stopped { c with start := .returned } := ⟨h.stopped, h.phase, h.noStream⟩
    rw [hstopped.fail]
    exact h.goesOn hsound (show StartStage.FromLog R log .returned from trivial)

theorem callStart_kept (hsound : Sound R log c) (hstanding : Standing c) :
    Kept R log c c.callStart := by
  unfold Controller.callStart
  split
  · exact .refl hsound hstanding
  rename_i hidle
  replace hidle := not_not.mp hidle
  have hstarting : Starting c := by
    cases hstanding with
    | starting h => exact h
    | following k h _ =>
      rcases h.phase with hphase | hphase | hphase <;> rw [hidle] at hphase <;> cases hphase
    | stranded h hphase _ =>
      rw [hidle] at hphase
      cases hphase
    | resyncing h => exact absurd h.phase (by simp [hidle])
    | stopped h => exact absurd h.phase (by simp [hidle])
    | ended h =>
      rcases h.phase with hphase | hphase | hphase | hphase <;> rw [hidle] at hphase <;>
        cases hphase
  refine ⟨⟨hsound.onlyPending, hsound.onlyOpen, hsound.ready, hsound.fetched, trivial,
    hsound.follows⟩, .starting ⟨hstarting.going, hstarting.noStream, hstarting.idle,
      hstarting.empty, .inr (.inl ⟨rfl, rfl⟩)⟩, .of_diagnostics rfl ?_⟩
  intro hfinal
  rw [hstarting.notFinal] at hfinal
  cases hfinal

theorem present_kept (hsound : Sound R log c) (hstanding : Standing c)
    (change : DiagnosticState Live View → View) : Kept R log c (c.present change) := by
  unfold Controller.present
  split
  · exact .refl hsound hstanding
  rename_i state hstate
  have hfollows : FollowsLog R log { state with view := change state } :=
    hsound.follows state hstate
  refine ⟨hsound.withDiagnostics hfollows, ?_, .withDiagnostics hstate rfl le_rfl id⟩
  have hclear (hsettled : ∀ before ∈ c.current.diagnostics, before.deliveryIssue = none) :
      ∀ after ∈ (c.commitDiagnostic { state with view := change state }).current.diagnostics,
        after.deliveryIssue = none := by
    intro after hafter
    cases hafter
    exact hsettled state hstate
  cases hstanding with
  | starting h => exact absurd hstate (by simp [h.empty])
  | following k h hsettled => exact .following k (h.withDiagnostics _) (hclear hsettled)
  | stranded h hphase hsettled =>
    exact .stranded ⟨h.going, h.noStream, h.idle, h.notFinal, h.returned⟩ hphase (hclear hsettled)
  | resyncing h => exact .resyncing ⟨h.going, h.phase, h.noStream, h.running, rfl, h.returned⟩
  | stopped h => exact .stopped ⟨h.stopped, h.phase, h.noStream⟩
  | ended h => exact .ended ⟨h.going, h.phase, h.noStream, h.refreshing, h.returned⟩

theorem onStartResponse_kept {response : Response Summary} {constructor : Option ThrownError}
    (hsound : Sound R log c) (hstanding : Standing c) (hfrom : response.FromLog R log) :
    Kept R log c (c.onStartResponse R response constructor) := by
  have hreturned : StartStage.FromLog R log (.returned : StartStage Summary) := trivial
  unfold Controller.onStartResponse
  dsimp only
  split
  · rename_i bootstrap hstart
    rcases hstanding.of_start (by simp [hstart]) with h | h
    · rw [if_neg (by simp [h.going])]
      have hadvances {c' : Controller Summary Live View} : Advances c c' := by
        refine ⟨fun state hstate => ?_, fun hfinal => ?_⟩
        · rw [h.empty] at hstate
          cases hstate
        · rw [h.notFinal] at hfinal
          cases hfinal
      split
      · refine ⟨⟨hsound.onlyPending, hsound.onlyOpen, hsound.ready, hsound.fetched, trivial,
          hsound.follows⟩, .ended ⟨h.going, .inr (.inr (.inr rfl)), h.noStream, ?_, rfl⟩,
          hadvances⟩
        intro i hi
        exact absurd hi (by simp [h.idle])
      · exact ⟨⟨hsound.onlyPending, hsound.onlyOpen, hsound.ready, hsound.fetched, trivial,
          hsound.follows⟩, .starting ⟨h.going, h.noStream, h.idle, h.empty,
            .inr (.inr ⟨.inl ⟨_, rfl⟩, rfl, rfl⟩)⟩, hadvances⟩
    · rw [if_pos h.stopped]
      exact h.goesOn hsound hreturned
  · rename_i bootstrap snapshot hstart
    split
    · exact start_fails_kept hsound hstanding (by simp [hstart]) _
    · have hstage : StartStage.FromLog R log (.suffix bootstrap snapshot) := hfrom
      refine ⟨hsound.withStart hstage, ?_, .of_diagnostics rfl id⟩
      rcases hstanding.of_start (by simp [hstart]) with h | h
      · refine .starting ⟨h.going, h.noStream, h.idle, h.empty, ?_⟩
        rcases h.phase with ⟨hother, -⟩ | ⟨hother, -⟩ | ⟨-, hphase⟩
        · exact absurd hother (by simp [hstart])
        · exact absurd hother (by simp [hstart])
        · exact .inr (.inr ⟨.inr ⟨bootstrap, snapshot, rfl⟩, hphase⟩)
      · exact .stopped ⟨h.stopped, h.phase, h.noStream⟩
  · rename_i bootstrap snapshot suffix hstart
    have hsnapshot : Response.FromLog R log (.snapshot snapshot) := by
      have := hsound.starting
      rw [hstart] at this
      exact this
    split
    · exact start_fails_kept hsound hstanding (by simp [hstart]) _
    rename_i hchecked
    rcases hstanding.of_start (by simp [hstart]) with h | h
    · rw [if_neg (by simp [h.going])]
      split
      · exact start_fails_kept hsound hstanding (by simp [hstart]) _
      rename_i state hstate
      have hbootstrap : c.current.bootstrap.isSome = true := by
        rcases h.phase with ⟨hother, -⟩ | ⟨hother, -⟩ | ⟨-, -, hbootstrap⟩
        · exact absurd hother (by simp [hstart])
        · exact absurd hother (by simp [hstart])
        · exact hbootstrap
      obtain ⟨hfollows, hsettled, -⟩ := stateFromSnapshotWindow_ok hsnapshot hfrom hchecked hstate
      obtain ⟨hsound', hadvances, hentered, hfailed⟩ :=
        enterWindow_kept bootstrap.status snapshot constructor (hsound.withStart hreturned)
          h.detached hbootstrap hfollows hsettled (fun before hbefore => by
            have hnone : c.current.diagnostics = some before := hbefore
            rw [h.empty] at hnone
            cases hnone)
      cases hwindow : Controller.enterWindow { c with start := .returned } bootstrap.status snapshot
        state constructor with
      | mk entered thrown =>
        rw [hwindow] at hsound' hadvances hentered hfailed
        have hmoves : Advances c entered := ⟨hadvances.delivered, hadvances.final⟩
        cases thrown with
        | none => exact ⟨hsound', hentered rfl, hmoves⟩
        | some error =>
          have hkept := (hfailed rfl).1.fail_kept hsound' error
          exact ⟨hkept.sound, hkept.standing, hmoves.trans hkept.advances⟩
    · rw [if_pos h.stopped]
      exact h.goesOn hsound hreturned
  · rename_i hstart
    exact start_fails_kept hsound hstanding (by simp [hstart]) _
  · rename_i hstart
    exact start_fails_kept hsound hstanding (by simp [hstart]) _
  · rename_i hstart
    exact start_fails_kept hsound hstanding (by simp [hstart]) _
  · exact .refl hsound hstanding

end Steps

end Troupe.Web
