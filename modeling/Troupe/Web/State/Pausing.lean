import Troupe.Web.State.Marks
import Troupe.Web.State.Session

/-! # Pausing and resuming

While the page is paused it presents the live edge it was paused at and counts what it has not seen;
`resume` asks the server for the range it has not seen when it finds a loss after the pause.

* `Held`: the pause state counts `committed_watermark - paused_at` and holds the frozen edge.
  `run_held` and `presentedLiveEdge_run`: so it is along every run.
* `Whole`: what `resume` answers without a request for. The live edge or a cached window has every
  event after the pause, and no bucket has evicted or shortened what was changed after it.
* `KeepsUnseen`: what an action must not do for that, while the page is paused. `resume` does not
  look at the base of the live edge, which a snapshot moves; a text `projectMessage` cuts leaves no
  mark; and a span started after it was finished is dated by its finish.

Headline results: **`resume_whole`** and, for a snapshot, what becomes of the unseen range otherwise:
`snapshot_uncovers`. -/

namespace Troupe.Web.State

open Troupe.Core Troupe.Lib

variable {Value : Type}

/-! ## The pause state -/

/-- The page is paused since `pausedAt`. -/
def PausedAt (state : DiagnosticState Value) (pausedAt : Nat) : Prop :=
  state.pause.paused = true ∧ state.pause.pausedAt = some pausedAt

/-- What the pause state says while the page is paused. -/
def Held (state : DiagnosticState Value) : Prop :=
  state.pause.paused = true → ∃ pausedAt frozen,
    state.pause.pausedAt = some pausedAt ∧ state.pause.frozenLive = some frozen ∧
    state.pause.unseenCount = max 0 ((state.cursor.committedWatermark : Int) - pausedAt)

section Held

variable {session session' : Session Value} {action : DiagnosticStateAction Value}

theorem withPauseWatermark_eq (pause : PauseState) (watermark : Nat) :
    ∃ unseenCount, withPauseWatermark pause watermark = { pause with unseenCount } := by
  unfold withPauseWatermark
  split
  · exact ⟨_, rfl⟩
  · exact ⟨pause.unseenCount, rfl⟩

theorem withPauseWatermark_held {state : DiagnosticState Value} (h : Held state)
    {state' : DiagnosticState Value}
    (hpause : state'.pause = withPauseWatermark state.pause state'.cursor.committedWatermark) :
    Held state' := by
  intro hpaused
  obtain ⟨unseenCount, hsame⟩ :=
    withPauseWatermark_eq state.pause state'.cursor.committedWatermark
  have hbefore : state.pause.paused = true := by
    rwa [hpause, hsame] at hpaused
  obtain ⟨pausedAt, frozen, hat, hfrozen, -⟩ := h hbefore
  refine ⟨pausedAt, frozen, ?_, ?_, ?_⟩
  · rw [hpause, hsame]
    exact hat
  · rw [hpause, hsame]
    exact hfrozen
  · rw [hpause]
    simp [withPauseWatermark, hbefore, hat]

theorem Held.moved (h : Held session.state) (hedge : Edge session)
    (hmoved : Moved session action session') : Held session'.state := by
  cases hmoved with
  | accepted event _ => exact withPauseWatermark_held h rfl
  | observed _ watermark _ _ => exact withPauseWatermark_held h rfl
  | replaced snapshot state hstate =>
    obtain ⟨-, -, hcursor, -, -, hpause⟩ := snapshotState_eq_ok hstate
    intro hpaused
    change state.pause = snapshotPause snapshot session.state at hpause
    dsimp only at hpaused ⊢
    rw [hpause, hcursor]
    unfold snapshotPause at hpause ⊢
    split at hpause
    · rename_i hbefore
      obtain ⟨pausedAt, frozen, hat, -, -⟩ := h hbefore
      rw [if_pos hbefore]
      exact ⟨pausedAt, _, hat, rfl, by simp [hat]⟩
    · rw [hpause] at hpaused
      cases hpaused
  | paused hbefore =>
    intro _
    have hcommitted := hedge.committed
    rw [State.pause, if_neg (by rw [hbefore]; decide)]
    refine ⟨_, _, rfl, rfl, ?_⟩
    dsimp only
    omega
  | resumed =>
    intro hpaused
    unfold State.resume at hpaused ⊢
    split at hpaused
    · cases hpaused
    · rename_i hnone
      obtain ⟨pausedAt, -, hat, -⟩ := h hpaused
      exact absurd hat (hnone _ hpaused)
  | cached _ => exact h
  | kept _ state hkept =>
    obtain ⟨resumeRequest, hpause⟩ := hkept.pause
    intro hpaused
    rw [hpause] at hpaused ⊢
    rw [hkept.cursor]
    exact h hpaused

/-- A paused page stays so, with the same edge, until it resumes. -/
theorem moved_frozen (h : Held session.state) (hpaused : session.state.pause.paused = true)
    (hmoved : Moved session action session') (haction : action ≠ .resume) :
    session'.state.pause.paused = true ∧
      session'.state.pause.pausedAt = session.state.pause.pausedAt ∧
      session'.state.pause.frozenLive = session.state.pause.frozenLive := by
  cases hmoved with
  | accepted event _ =>
    obtain ⟨unseenCount, hsame⟩ := withPauseWatermark_eq session.state.pause
      (max event.sequence.get session.state.cursor.committedWatermark)
    simp only [acceptedEvent, hsame]
    exact ⟨hpaused, trivial, trivial⟩
  | observed _ watermark _ _ =>
    obtain ⟨unseenCount, hsame⟩ := withPauseWatermark_eq session.state.pause watermark
    simp only [withWatermark, hsame]
    exact ⟨hpaused, trivial, trivial⟩
  | replaced snapshot state hstate =>
    obtain ⟨-, -, -, -, -, hpause⟩ := snapshotState_eq_ok hstate
    change state.pause = snapshotPause snapshot session.state at hpause
    obtain ⟨pausedAt, frozen, -, hfrozen, -⟩ := h hpaused
    dsimp only
    rw [hpause, snapshotPause, if_pos hpaused, hfrozen]
    exact ⟨hpaused, rfl, rfl⟩
  | paused hbefore =>
    rw [hbefore] at hpaused
    cases hpaused
  | resumed => exact absurd rfl haction
  | cached _ => exact ⟨hpaused, rfl, rfl⟩
  | kept _ state hkept =>
    obtain ⟨resumeRequest, hpause⟩ := hkept.pause
    dsimp only
    rw [hpause]
    exact ⟨hpaused, rfl, rfl⟩

/-- What the page is paused at and presents stays along every run without a `resume`. -/
theorem run_frozen (hedge : Edge session) (h : Held session.state)
    (hpaused : session.state.pause.paused = true) {actions : List (DiagnosticStateAction Value)}
    (hactions : .resume ∉ actions) :
    (session.run actions).state.pause.paused = true ∧
      (session.run actions).state.pause.pausedAt = session.state.pause.pausedAt ∧
      (session.run actions).state.pause.frozenLive = session.state.pause.frozenLive := by
  induction actions generalizing session with
  | nil => exact ⟨hpaused, rfl, rfl⟩
  | cons action rest ih =>
    have hmoved := step_moved session action
    obtain ⟨hstill, hat, hfrozen⟩ := moved_frozen h hpaused hmoved fun heq =>
      hactions (heq ▸ List.mem_cons_self)
    obtain ⟨hlast, hlastAt, hlastFrozen⟩ := ih (hedge.moved hmoved) (h.moved hedge hmoved) hstill
      fun hmem => hactions (List.mem_cons_of_mem action hmem)
    exact ⟨hlast, hlastAt.trans hat, hlastFrozen.trans hfrozen⟩

end Held

/-! ## What is unseen -/

/-- The losses of all buckets. -/
def lostSequences (projection : LiveProjection) : List Nat :=
  projection.spans.lost ++ projection.messages.lost ++ projection.counters.lost ++
    projection.contextUsage.lost ++ projection.actUsage.lost ++ projection.tools.lost ++
    projection.results.lost ++ projection.gaps.lost

/-- Every committed event after `after` is in the live edge or in a window the page holds. -/
def Covered (state : DiagnosticState Value) (after : Nat) : Prop :=
  ∀ n, after < n → n ≤ state.cursor.committedWatermark →
    ∃ event, sequenceOf event = n ∧
      (event ∈ state.live.events ∨ ∃ window, state.windows.Holds window ∧ event ∈ window.events)

/-- Nothing after `after` is missing: neither an event, nor an item changed after it. -/
structure Whole (state : DiagnosticState Value) (after : Nat) : Prop where
  covered : Covered state after
  unharmed : ∀ n ∈ lostSequences state.live.projection, n ≤ after

/-- What pausing and resuming is for: a page paused at `pausedAt` counts what it has not seen,
presents one live edge until it resumes, and on resuming requests the unseen range or holds it
whole. -/
structure PauseKept (session : Session Value) (pausedAt : Nat) : Prop where
  unseen : session.state.pause.unseenCount =
    max 0 ((session.state.cursor.committedWatermark : Int) - pausedAt)
  frozen : ∀ actions, .resume ∉ actions →
    presentedLiveEdge (session.run actions).state = presentedLiveEdge session.state
  requested : ∀ request, (resume session.state).pause.resumeRequest = some request →
    request = ⟨pausedAt, session.state.cursor.committedWatermark⟩ ∧
      pausedAt < session.state.cursor.committedWatermark
  whole : (resume session.state).pause.resumeRequest = none → Whole session.state pausedAt

/-- What an action must not do while the page is paused: replace the state by a snapshot taken after
the pause, or deliver an event after the pause that starts a finished span or makes the text of a
message too long. -/
def KeepsUnseen (state : DiagnosticState Value) : DiagnosticStateAction Value → Prop
  | .snapshotReceived snapshot => ∀ pausedAt, PausedAt state pausedAt →
    snapshot.runId = state.runId → snapshot.watermarkSequence ≤ pausedAt
  | .eventReceived event => ∀ pausedAt, PausedAt state pausedAt → accepts state event →
    pausedAt < sequenceOf event →
      startsFinished state.live.projection.spans event = false ∧
      shortensMessage state.live.projection.messages event = false
  | _ => True

/-- Every action of a run keeps what is unseen. -/
def Session.Undisturbed : Session Value → List (DiagnosticStateAction Value) → Prop
  | _, [] => True
  | session, action :: rest =>
    KeepsUnseen session.state action ∧ (session.step action).Undisturbed rest

/-- Up to where a loss is none of what is unseen. -/
def seenThrough (state : DiagnosticState Value) : Nat :=
  match state.pause.paused, state.pause.pausedAt with
  | true, some pausedAt => min pausedAt state.cursor.deliveredThrough
  | _, _ => state.cursor.deliveredThrough

/-- What holds along the runs that keep what is unseen. -/
structure Unharmed (session : Session Value) : Prop where
  base : ∀ pausedAt, PausedAt session.state pausedAt →
    session.state.live.baseThrough ≤ pausedAt
  marked : Marked (seenThrough session.state) session.state.cursor.deliveredThrough
    session.state.live.projection

section Unseen

variable {session session' : Session Value} {action : DiagnosticStateAction Value}
  {state : DiagnosticState Value}

theorem seenThrough_of_paused {pausedAt : Nat} (h : PausedAt state pausedAt) :
    seenThrough state = min pausedAt state.cursor.deliveredThrough := by
  rw [seenThrough, h.1, h.2]

theorem seenThrough_of_unpaused (h : ∀ pausedAt, ¬ PausedAt state pausedAt) :
    seenThrough state = state.cursor.deliveredThrough := by
  unfold seenThrough
  split
  · rename_i pausedAt hpaused hat
    exact absurd ⟨hpaused, hat⟩ (h pausedAt)
  · rfl

theorem seenThrough_le : seenThrough state ≤ state.cursor.deliveredThrough := by
  unfold seenThrough
  split
  · exact Nat.min_le_right _ _
  · exact le_rfl

theorem withPauseWatermark_pausedAt {state' : DiagnosticState Value} {watermark pausedAt : Nat}
    (h : state'.pause = withPauseWatermark state.pause watermark) :
    PausedAt state' pausedAt ↔ PausedAt state pausedAt := by
  obtain ⟨unseenCount, hsame⟩ := withPauseWatermark_eq state.pause watermark
  unfold PausedAt
  rw [h, hsame]

/-- A step that changes neither the live edge nor the cursor, nor what the page is paused at. -/
theorem Unharmed.frame (h : Unharmed session)
    (hlive : state.live = session.state.live)
    (hdelivered : state.cursor.deliveredThrough = session.state.cursor.deliveredThrough)
    (hpaused : ∀ pausedAt, PausedAt state pausedAt ↔ PausedAt session.state pausedAt) :
    Unharmed ⟨state, session.delivered⟩ := by
  have hseen : seenThrough state = seenThrough session.state := by
    by_cases hat : ∃ pausedAt, PausedAt session.state pausedAt
    · obtain ⟨pausedAt, hat⟩ := hat
      rw [seenThrough_of_paused hat, seenThrough_of_paused ((hpaused pausedAt).mpr hat), hdelivered]
    · have hnone := not_exists.mp hat
      rw [seenThrough_of_unpaused hnone,
        seenThrough_of_unpaused fun pausedAt h => hnone pausedAt ((hpaused pausedAt).mp h),
        hdelivered]
  constructor
  · intro pausedAt hat
    dsimp only
    rw [hlive]
    exact h.base pausedAt ((hpaused pausedAt).mp hat)
  · dsimp only
    rw [hseen, hdelivered, hlive]
    exact h.marked

theorem Unharmed.accepted (h : Unharmed session) {event : DiagnosticEvent}
    (haccepts : accepts session.state event)
    (hkeeps : KeepsUnseen session.state (.eventReceived event)) :
    Unharmed ⟨acceptedEvent session.state event, session.delivered ++ [event]⟩ := by
  have hpaused (pausedAt : Nat) : PausedAt (acceptedEvent session.state event) pausedAt ↔
      PausedAt session.state pausedAt := withPauseWatermark_pausedAt rfl
  have hnext : event.sequence.get = session.state.cursor.deliveredThrough + 1 := haccepts.2
  refine ⟨fun pausedAt hat => h.base pausedAt ((hpaused pausedAt).mp hat), ?_⟩
  have hseen : seenThrough session.state ≤ seenThrough (acceptedEvent session.state event) ∧
      (event.sequence.get ≤ seenThrough (acceptedEvent session.state event) ∨
        (startsFinished session.state.live.projection.spans event = false ∧
          shortensMessage session.state.live.projection.messages event = false)) := by
    by_cases hat : ∃ pausedAt, PausedAt session.state pausedAt
    · obtain ⟨pausedAt, hat⟩ := hat
      rw [seenThrough_of_paused hat, seenThrough_of_paused ((hpaused pausedAt).mpr hat)]
      change min pausedAt session.state.cursor.deliveredThrough ≤ min pausedAt event.sequence.get ∧
        (event.sequence.get ≤ min pausedAt event.sequence.get ∨ _)
      refine ⟨by omega, ?_⟩
      by_cases hafter : pausedAt < event.sequence.get
      · exact .inr (hkeeps pausedAt hat haccepts hafter)
      · exact .inl (by omega)
    · have hnone := not_exists.mp hat
      rw [seenThrough_of_unpaused hnone,
        seenThrough_of_unpaused fun pausedAt h => hnone pausedAt ((hpaused pausedAt).mp h)]
      change session.state.cursor.deliveredThrough ≤ event.sequence.get ∧
        (event.sequence.get ≤ event.sequence.get ∨ _)
      exact ⟨by omega, .inl le_rfl⟩
  exact projectEvent_marked (h.marked.mono hseen.1 le_rfl) (by omega) hseen.2

theorem snapshotState_runId {snapshot : SnapshotResponse} {previous state : DiagnosticState Value}
    {suffixEvents : List DiagnosticEvent}
    (h : snapshotState snapshot (some previous) suffixEvents = .ok state) :
    snapshot.runId = previous.runId := by
  unfold snapshotState at h
  split at h
  · cases h
  · rename_i hrun
    simp only [Option.any_some, ne_eq, decide_not, Bool.not_eq_true', decide_eq_false_iff_not,
      not_not] at hrun
    exact hrun.symm

/-- A snapshot pauses no page, and does not move the pause. -/
theorem snapshotPause_pausedAt {snapshot : SnapshotResponse} {previous : DiagnosticState Value}
    (hpause : state.pause = snapshotPause snapshot previous) {pausedAt : Nat}
    (h : PausedAt state pausedAt) : PausedAt previous pausedAt := by
  unfold PausedAt at h
  rw [hpause, snapshotPause] at h
  split at h
  · exact h
  · exact absurd h.1 Bool.false_ne_true

theorem Unharmed.moved (h : Unharmed session) (hedge : Edge session)
    (hmoved : Moved session action session') (hkeeps : KeepsUnseen session.state action) :
    Unharmed session' := by
  cases hmoved with
  | accepted event haccepts => exact h.accepted haccepts hkeeps
  | observed _ watermark _ _ =>
    exact h.frame rfl rfl fun pausedAt => withPauseWatermark_pausedAt rfl
  | replaced snapshot state hstate =>
    obtain ⟨projection, hprojection, hcursor, hlive, -, hpause⟩ := snapshotState_eq_ok hstate
    constructor
    · intro pausedAt hat
      have hbase : state.live.baseThrough = snapshot.watermarkSequence := by
        rw [hlive]
        rfl
      dsimp only
      rw [hbase]
      exact hkeeps pausedAt (snapshotPause_pausedAt hpause hat) (snapshotState_runId hstate)
    · dsimp only
      rw [hcursor, hlive]
      exact hydrateSnapshotProjection_marked (List.forall_mem_nil _) hprojection
  | paused hbefore =>
    have hnone (pausedAt : Nat) : ¬ PausedAt session.state pausedAt := by
      rintro ⟨hpaused, -⟩
      rw [hbefore] at hpaused
      cases hpaused
    have hmarked := h.marked
    rw [seenThrough_of_unpaused hnone] at hmarked
    rw [State.pause, if_neg (by rw [hbefore]; decide)]
    constructor
    · rintro pausedAt ⟨-, hat⟩
      obtain rfl := Option.some.inj hat
      have hcursor := hedge.cursor
      dsimp only
      omega
    · simpa [seenThrough] using hmarked
  | resumed =>
    unfold State.resume
    split
    · refine ⟨fun pausedAt hat => absurd hat.1 Bool.false_ne_true, ?_⟩
      exact h.marked.mono seenThrough_le le_rfl
    · exact h
  | cached _ => exact h.frame rfl rfl fun _ => Iff.rfl
  | kept _ state hkept =>
    obtain ⟨resumeRequest, hpause⟩ := hkept.pause
    refine h.frame hkept.live (by rw [hkept.cursor]) fun pausedAt => ?_
    unfold PausedAt
    rw [hpause]

end Unseen

/-! ## Resuming -/

section Resume

variable {state : DiagnosticState Value} {pausedAt : Nat}

theorem resume_request (h : PausedAt state pausedAt) :
    (resume state).pause.resumeRequest =
      if needsServerRange state pausedAt then
        some ⟨pausedAt, state.cursor.committedWatermark⟩
      else none := by
  unfold resume
  rw [h.1, h.2]

/-- A request is for the unseen range, which is not empty. -/
theorem resume_requested (h : PausedAt state pausedAt) {request : ServerRangeResumeRequest}
    (hrequest : (resume state).pause.resumeRequest = some request) :
    request = ⟨pausedAt, state.cursor.committedWatermark⟩ ∧
      pausedAt < state.cursor.committedWatermark := by
  rw [resume_request h] at hrequest
  split at hrequest
  · rename_i hneeds
    refine ⟨(Option.some.inj hrequest).symm, ?_⟩
    simp only [needsServerRange, Bool.and_eq_true, decide_eq_true_eq] at hneeds
    exact hneeds.1
  · cases hrequest

/-- What a bucket has lost is not after a point that its mark is not after. -/
theorem Marks.lost_le {T K : Type} {policy : BucketPolicy T K} {bound through after : Nat}
    {bucket : ProjectionBucket T} (h : Marks policy bound through bucket) (hbound : bound ≤ after)
    (hmark : through ≤ after ∨ droppedAfter bucket.droppedThrough after = false) :
    ∀ n ∈ bucket.lost, n ≤ after := by
  intro n hn
  rcases hmark with hthrough | hmark
  · exact (h.within n hn).trans hthrough
  · rcases h.marked n hn with hle | ⟨mark, hdropped, hle⟩
    · exact hle.trans hbound
    · rw [hdropped] at hmark
      simp only [droppedAfter, Option.any_some, decide_eq_false_iff_not, not_lt] at hmark
      exact hle.trans hmark

theorem Marked.lost_le {projection : LiveProjection} {bound through after : Nat}
    (h : Marked bound through projection) (hbound : bound ≤ after)
    (hmarks : through ≤ after ∨ projectionLostAfter projection after = false) :
    ∀ n ∈ lostSequences projection, n ≤ after := by
  simp only [projectionLostAfter, List.any_cons, List.any_nil, Bool.or_false, Bool.or_eq_false_iff]
    at hmarks
  intro n hn
  simp only [lostSequences, List.mem_append] at hn
  rcases hn with ((((((hn | hn) | hn) | hn) | hn) | hn) | hn) | hn
  · exact h.spans.lost_le hbound (hmarks.imp_right fun h => h.1) n hn
  · exact h.messages.lost_le hbound (hmarks.imp_right fun h => h.2.1) n hn
  · exact h.counters.lost_le hbound (hmarks.imp_right fun h => h.2.2.1) n hn
  · exact h.contextUsage.lost_le hbound (hmarks.imp_right fun h => h.2.2.2.1) n hn
  · exact h.actUsage.lost_le hbound (hmarks.imp_right fun h => h.2.2.2.2.1) n hn
  · exact h.tools.lost_le hbound (hmarks.imp_right fun h => h.2.2.2.2.2.1) n hn
  · exact h.results.lost_le hbound (hmarks.imp_right fun h => h.2.2.2.2.2.2.1) n hn
  · exact h.gaps.lost_le hbound (hmarks.imp_right fun h => h.2.2.2.2.2.2.2) n hn

/-- Without a request nothing unseen is missing. -/
theorem Unharmed.whole {session : Session Value} (h : Unharmed session) (hedge : Edge session)
    (hpaused : PausedAt session.state pausedAt)
    (hrequest : (resume session.state).pause.resumeRequest = none) :
    Whole session.state pausedAt := by
  have hcommitted := hedge.committed
  have hseen : seenThrough session.state ≤ pausedAt := by
    rw [seenThrough_of_paused hpaused]
    exact Nat.min_le_left _ _
  have hneeds : needsServerRange session.state pausedAt = false := by
    rw [resume_request hpaused] at hrequest
    split at hrequest
    · cases hrequest
    · rename_i hneeds
      exact Bool.eq_false_iff.mpr hneeds
  by_cases hunseen : pausedAt < session.state.cursor.committedWatermark
  · simp only [needsServerRange, hunseen, decide_true, Bool.true_and, Bool.or_eq_false_iff,
      decide_eq_false_iff_not, Nat.not_lt] at hneeds
    obtain ⟨⟨hraw, hall⟩, hlost⟩ := hneeds
    refine ⟨fun n hafter hn => ?_, h.marked.lost_le hseen (.inr hlost)⟩
    obtain ⟨event, hevent, rfl⟩ := hedge.exists_delivered
      (Nat.lt_of_le_of_lt (h.base pausedAt hpaused) hafter) (hn.trans hall)
    exact ⟨event, rfl, .inl (hedge.mem_events hraw hevent hafter)⟩
  · refine ⟨fun n hafter hn => ?_, h.marked.lost_le hseen (.inl (by omega))⟩
    omega

end Resume

/-! ## Runs -/

section Runs

variable {state : DiagnosticState Value}

theorem run_held (h : Started state) (actions : List (DiagnosticStateAction Value)) :
    Held ((Session.new state).run actions).state := by
  obtain ⟨watermark, elapsedNs, projection, hcursor, hlive, -, hpause⟩ := h.base
  have hheld : Held (Session.new state).state := by
    intro hpaused
    change state.pause.paused = true at hpaused
    rw [hpause] at hpaused
    cases hpaused
  exact (run_kept (p := fun session => Edge session ∧ Held session.state)
    (fun _ _ _ hinv hmoved => ⟨hinv.1.moved hmoved, hinv.2.moved hinv.1 hmoved⟩)
    ⟨.of_base hcursor hlive, hheld⟩ actions).2

/-- **A paused page presents one edge**, along every run until it resumes. -/
theorem presentedLiveEdge_run (h : Started state) (actions : List (DiagnosticStateAction Value))
    (hpaused : ((Session.new state).run actions).state.pause.paused = true)
    {later : List (DiagnosticStateAction Value)} (hlater : .resume ∉ later) :
    presentedLiveEdge (((Session.new state).run actions).run later).state =
      presentedLiveEdge ((Session.new state).run actions).state := by
  have hheld := run_held h actions
  obtain ⟨hstill, -, hfrozen⟩ := run_frozen (run_edge h actions) hheld hpaused hlater
  obtain ⟨-, frozen, -, hedge, -⟩ := hheld hpaused
  rw [presentedLiveEdge, presentedLiveEdge, if_pos hstill, if_pos hpaused, hfrozen, hedge,
    Option.getD_some, Option.getD_some]

theorem checkSuffixEvents_within {snapshot : SnapshotResponse} {expected : Nat}
    {events : List DiagnosticEvent} (h : checkSuffixEvents snapshot expected events = .ok ()) :
    ∀ event ∈ events, event.sequence.get < expected + events.length := by
  induction events generalizing expected with
  | nil => exact List.forall_mem_nil _
  | cons event rest ih =>
    rw [checkSuffixEvents] at h
    split at h
    · cases h
    split at h
    · cases h
    rename_i hsequence
    split at h
    · cases h
    rw [List.length_cons]
    refine List.forall_mem_cons.mpr ⟨?_, fun other hother => ?_⟩
    · rw [not_not.mp hsequence]
      omega
    · have hrest := ih h other hother
      omega

theorem validateHydrationSuffix_within {snapshot : SnapshotResponse} {suffix : EventsResponse}
    {after : Nat} (h : validateHydrationSuffix snapshot suffix after = .ok ()) :
    ∀ event ∈ suffix.events, event.sequence.get ≤ snapshot.watermarkSequence := by
  unfold validateHydrationSuffix at h
  iterate 3
    split at h
    · cases h
  split at h
  · cases h
  rename_i hafter
  split at h
  · cases h
  split at h
  · cases h
  rename_i hlength
  intro event hevent
  have hwithin := checkSuffixEvents_within h event hevent
  omega

/-- A page begins with nothing lost but what has a mark. -/
theorem Started.unharmed (h : Started state) : Unharmed (Session.new state) := by
  obtain ⟨-, -, -, -, -, -, hpause⟩ := h.base
  refine ⟨fun pausedAt hat => ?_, ?_⟩
  · have hpaused : state.pause.paused = true := hat.1
    rw [hpause] at hpaused
    cases hpaused
  change Marked (seenThrough state) state.cursor.deliveredThrough state.live.projection
  cases h with
  | created runId throughSequence throughElapsedNs => exact emptyProjection_marked
  | @snapshot snapshot _ hstate =>
    obtain ⟨projection, hprojection, hcursor, hlive, -⟩ := snapshotState_eq_ok hstate
    rw [hcursor, hlive]
    exact hydrateSnapshotProjection_marked (List.forall_mem_nil _) hprojection
  | @hydrated snapshot suffix after _ hstate =>
    obtain ⟨⟨⟩, hvalid, hstate⟩ := bind_eq_ok.mp hstate
    obtain ⟨made, hmade, hstate⟩ := bind_eq_ok.mp hstate
    obtain ⟨windows, -, hstate⟩ := bind_eq_ok.mp hstate
    obtain ⟨projection, hprojection, hcursor, hlive, -⟩ := snapshotState_eq_ok hmade
    have hmarked (bound : Nat) : Marked bound snapshot.watermarkSequence made.live.projection := by
      rw [hlive]
      exact hydrateSnapshotProjection_marked (validateHydrationSuffix_within hvalid) hprojection
    cases hstate
    dsimp only
    rw [hcursor]
    split
    · exact hmarked _
    · exact { hmarked _ with
        tools := (hmarked _).tools.dropped after
        results := (hmarked _).results.dropped after }

/-- What every action of an undisturbed run keeps. -/
theorem Unharmed.run {session : Session Value} (h : Unharmed session) (hedge : Edge session)
    {actions : List (DiagnosticStateAction Value)} (hkeeps : session.Undisturbed actions) :
    Unharmed (session.run actions) := by
  induction actions generalizing session with
  | nil => exact h
  | cons action rest ih =>
    have hmoved := step_moved session action
    exact ih (h.moved hedge hmoved hkeeps.1) (hedge.moved hmoved) hkeeps.2

/-- **Pausing and resuming loses nothing silently**, in a run whose actions keep what is unseen. The
count of the unseen, the edge presented and the range requested are right along every run
(`run_held`, `presentedLiveEdge_run`, `resume_requested`). -/
theorem resume_whole (h : Started state) (actions : List (DiagnosticStateAction Value))
    (hkeeps : (Session.new state).Undisturbed actions) :
    let session := (Session.new state).run actions
    session.state.pause.paused = true →
      ∃ pausedAt, session.state.pause.pausedAt = some pausedAt ∧ PauseKept session pausedAt := by
  intro session hpaused
  have hedge := run_edge h actions
  obtain ⟨pausedAt, frozen, hat, -, hunseen⟩ := run_held h actions hpaused
  have hpausedAt : PausedAt session.state pausedAt := ⟨hpaused, hat⟩
  obtain ⟨watermark, elapsedNs, projection, hcursor, hlive, -⟩ := h.base
  refine ⟨pausedAt, hat, hunseen, fun later hlater => ?_, fun request hrequest => ?_,
    fun hrequest => ?_⟩
  · exact presentedLiveEdge_run h actions hpaused hlater
  · exact resume_requested hpausedAt hrequest
  · exact (h.unharmed.run (.of_base hcursor hlive) hkeeps).whole hedge hpausedAt hrequest

theorem delayed_le : 1 ≤ u64Max := by decide

theorem delayed_pos : 0 < (⟨1, delayed_le⟩ : SchemaU64).get := by decide

/-- A page paused before its first event, which is then delivered. -/
def delayedActions : List (DiagnosticStateAction Unit) :=
  [.pause, .eventReceived (sampleAt ⟨1, delayed_le⟩ delayed_pos)]

/-- The page holds the event and requests nothing. -/
theorem delayed_whole :
    let session := (Session.new (createDiagnosticState ⟨1⟩ 0 0)).run delayedActions
    session.state.pause.unseenCount = 1 ∧ (resume session.state).pause.resumeRequest = none ∧
      Whole session.state 0 := by
  intro session
  have hkeeps : (Session.new (createDiagnosticState ⟨1⟩ 0 0)).Undisturbed delayedActions :=
    ⟨trivial, fun _ _ _ _ => ⟨rfl, rfl⟩, trivial⟩
  obtain ⟨pausedAt, hat, hkept⟩ := resume_whole (.created ⟨1⟩ 0 0) delayedActions hkeeps rfl
  cases hat
  exact ⟨hkept.unseen, rfl, hkept.whole rfl⟩

end Runs

/-! ## What the code misses -/

section Misses

variable {snapshot : SnapshotResponse} {state previous : DiagnosticState Value}

theorem snapshotState_windows {suffixEvents : List DiagnosticEvent}
    (h : snapshotState snapshot (some previous) suffixEvents = .ok state) :
    state.windows = createWindowState := by
  unfold snapshotState at h
  split at h
  · cases h
  obtain ⟨projection, -, h⟩ := bind_eq_ok.mp h
  obtain ⟨received, hreceived, h⟩ := bind_eq_ok.mp h
  obtain ⟨usageSnapshot, rfl⟩ := receiveUsageSnapshot_kept hreceived
  cases h
  rfl

/-- **A snapshot leaves the unseen range uncovered**, whatever it shows of it. `resume` then asks for
the range only when the snapshot did not fit into the buckets. -/
theorem snapshot_uncovers (h : snapshotState snapshot (some previous) [] = .ok state)
    {pausedAt : Nat} (hafter : pausedAt < snapshot.watermarkSequence) :
    ¬ Covered state pausedAt ∧
      needsServerRange state pausedAt = projectionLostAfter state.live.projection pausedAt := by
  obtain ⟨projection, -, hcursor, hlive, -⟩ := snapshotState_eq_ok h
  constructor
  · intro hcovered
    obtain ⟨event, -, hheld⟩ := hcovered snapshot.watermarkSequence hafter (by rw [hcursor])
    rcases hheld with hedge | ⟨window, hwindow, -⟩
    · rw [hlive] at hedge
      exact absurd hedge List.not_mem_nil
    · rw [snapshotState_windows h] at hwindow
      rcases hwindow with hvisible | ⟨id, hadjacent⟩
      · cases hvisible
      · cases hadjacent
  · rw [needsServerRange, hcursor, hlive]
    simp [hafter, createLiveEdge, droppedAfter]

/-- A snapshot of one event, of a kind that has no row. -/
def rowlessSnapshot : SnapshotResponse where
  runId := ⟨1⟩
  watermarkSequence := 1
  throughElapsedNs := 0
  spans := []
  messages := []
  counters := []
  usage := {
    runId := ⟨1⟩
    throughSequence := 1
    contexts := []
    usages := []
    aggregate := ⟨0, 0, 0, 0, 0, ⟨none, 0, 0⟩, ⟨none, 0, 0⟩, ⟨none, 0, 0⟩, ⟨none, 0, 0⟩,
      ⟨none, 0, 0⟩, ⟨none, 0, 0⟩⟩
    scopedAggregates := [] }
  gaps := []
  truncations := []
  spans_within := List.forall_mem_nil _
  messages_within := List.forall_mem_nil _
  counters_within := List.forall_mem_nil _
  contexts_within := List.forall_mem_nil _
  gaps_within := List.forall_mem_nil _

theorem rowlessSnapshot_projection :
    hydrateSnapshotProjection rowlessSnapshot [] = .ok (createLiveProjection 1) := by
  simp only [hydrateSnapshotProjection, hydrateSnapshotSpans, hydrateSnapshotMessages,
    rowlessSnapshot, List.filter_nil, List.map_nil, List.flatMap_nil, List.append_nil,
    List.mergeSort_nil, List.foldl_nil, List.foldlM_nil]
  rfl

theorem shownMessage_valid : validateRunLocalId "message-1" = .ok () := by decide +kernel

/-- A snapshot with a finished span, a completed message and a counter. -/
def shownSnapshot : SnapshotResponse :=
  { rowlessSnapshot with
    watermarkSequence := 4
    spans := [
      ⟨⟨1⟩, 1, ⟨0, Nat.zero_le _⟩, .run, none, [], .builtIn .runLifecycle,
        some ⟨2, ⟨0, Nat.zero_le _⟩, .completed, none, []⟩, SchemaU64.one_pos,
        fun _ h => Option.some.inj h ▸ Nat.one_lt_two⟩]
    messages := [
      ⟨⟨1⟩, ⟨"message-1", shownMessage_valid⟩, .run, 3, 3, 0, none, "hello",
        some ⟨3, ⟨0, Nat.zero_le _⟩, 5, 5, false, [], SchemaU64.three_pos⟩,
        fun _ h => Option.some.inj h ▸ rfl⟩]
    counters := [
      ⟨⟨1⟩, .builtIn .run .actorMailboxDepth, 4, ⟨0, Nat.zero_le _⟩, .unsigned 2, [],
        SchemaU64.four_pos⟩]
    spans_within := List.forall_mem_singleton.mpr
      ⟨by decide, fun _ h => Option.some.inj h ▸ by decide⟩
    messages_within := List.forall_mem_singleton.mpr (by decide)
    counters_within := List.forall_mem_singleton.mpr (Nat.le_refl 4)
    contexts_within := List.forall_mem_nil _
    gaps_within := List.forall_mem_nil _ }

example : (shownSnapshot.spans.filterMap snapshotSpanFinish).length = 1 ∧
    (shownSnapshot.messages.filterMap snapshotMessageCompletion).length = 1 ∧
    (shownSnapshot.counters.mapM snapshotCounterEvent).toOption.isSome = true := ⟨rfl, rfl, rfl⟩

/-- **A paused page can miss what a snapshot skipped.** A page paused before its first event takes a
snapshot after it; resuming requests nothing, and the event is nowhere. -/
theorem snapshot_while_paused :
    ¬ ∀ (state : DiagnosticState Unit), Started state →
      ∀ actions : List (DiagnosticStateAction Unit),
        let session := (Session.new state).run actions
        session.state.pause.paused = true →
          ∃ pausedAt, session.state.pause.pausedAt = some pausedAt ∧ PauseKept session pausedAt := by
  intro hclaim
  have hpaused : State.pause (createDiagnosticState ⟨1⟩ 0 0 : DiagnosticState Unit) =
      ((Session.new (createDiagnosticState ⟨1⟩ 0 0)).run [.pause]).state := rfl
  obtain ⟨state, hstate⟩ : ∃ state, snapshotState rowlessSnapshot
      (some (State.pause (createDiagnosticState ⟨1⟩ 0 0 : DiagnosticState Unit))) [] = .ok state := by
    unfold snapshotState
    rw [rowlessSnapshot_projection]
    exact ⟨_, rfl⟩
  obtain ⟨projection, hprojection, -, hlive, -, hpause⟩ := snapshotState_eq_ok hstate
  have hunseen : 0 < rowlessSnapshot.watermarkSequence := Nat.zero_lt_one
  obtain ⟨hmissing, hneeds⟩ := snapshot_uncovers hstate hunseen
  have hrun : ((Session.new (createDiagnosticState ⟨1⟩ 0 0)).run
      [.pause, .snapshotReceived rowlessSnapshot]).state = state := by
    change (((Session.new (createDiagnosticState ⟨1⟩ 0 0)).run [.pause]).step
      (.snapshotReceived rowlessSnapshot)).state = state
    rw [Session.step, reduceDiagnosticState, createDiagnosticStateFromSnapshot, ← hpaused, hstate]
  have hat : PausedAt state 0 := by
    constructor <;> rw [hpause] <;> rfl
  obtain ⟨pausedAt, hpausedAt, hkept⟩ := hclaim (createDiagnosticState ⟨1⟩ 0 0) (.created ⟨1⟩ 0 0)
    [.pause, .snapshotReceived rowlessSnapshot] (by rw [hrun]; exact hat.1)
  rw [hrun, hat.2] at hpausedAt
  cases hpausedAt
  have hwhole := hkept.whole
  rw [hrun] at hwhole
  refine hmissing (hwhole ?_).covered
  rw [resume_request hat, hneeds, hlive]
  cases hprojection.symm.trans rowlessSnapshot_projection
  rfl

end Misses

end Troupe.Web.State
