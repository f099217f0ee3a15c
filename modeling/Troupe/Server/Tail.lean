import Troupe.Store.Batch

/-! # The commit tail

`CommitSignal` of `subscriber.rs`: how far the log is committed, and whether more will follow. The
writer moves it; sessions read it through a `watch` channel, which always holds the last state
published. Every change is published, so the published state is the state.

Once the tail is closed or invalid its head stays where it is: `Precedes` says what a reader may rely
on between two looks at it. -/

namespace Troupe.Server

open Troupe.Lib Troupe.Core Troupe.Store

/-! ## State and operations -/

/-- `CommitTailStatus`. -/
inductive CommitTailStatus where
  | open
  | invalid (reason : String)
  | closed (reason : String)
deriving DecidableEq

/-- `matches!(status, CommitTailStatus::Invalid { .. })`. -/
def CommitTailStatus.isInvalid : CommitTailStatus → Bool
  | .invalid _ => true
  | .open | .closed _ => false

/-- `CommitTailState`. -/
structure CommitTailState where
  runId : CanonicalUuid
  committedHead : SchemaU64
  status : CommitTailStatus
deriving DecidableEq

/-- `CommitSignalErrorKind`. -/
inductive CommitSignalErrorKind where
  | runIdentityMismatch
  | stalePrevious
  | nonIncreasingCommit
  | nonDenseNotification
  | finalWatermarkMismatch
  | emptyReason
  | notOpen
deriving DecidableEq

/-- `CommitSignalError::reason`. -/
def CommitSignalErrorKind.reason : CommitSignalErrorKind → String
  | .runIdentityMismatch => "commit_run_identity_mismatch"
  | .stalePrevious => "commit_previous_watermark_mismatch"
  | .nonIncreasingCommit => "commit_watermark_not_increasing"
  | .nonDenseNotification => "commit_notification_not_dense"
  | .finalWatermarkMismatch => "final_commit_watermark_mismatch"
  | .emptyReason => "stream_close_reason_empty"
  | .notOpen => "commit_signal_not_open"

/-- `CommitSignal::new`. -/
def CommitTailState.new (runId : CanonicalUuid) (committedHead : SchemaU64) : CommitTailState :=
  ⟨runId, committedHead, .open⟩

/-- `validate_advance`. -/
def validateAdvance (state : CommitTailState) (runId : CanonicalUuid)
    (previous committed : SchemaU64) : Except CommitSignalErrorKind Unit :=
  if state.status ≠ .open then .error .notOpen
  else if runId ≠ state.runId then .error .runIdentityMismatch
  else if previous ≠ state.committedHead then .error .stalePrevious
  else if committed ≤ previous then .error .nonIncreasingCommit
  else .ok ()

/-- `latch_invalid`. -/
def latchInvalid (state : CommitTailState) (reason : String) : CommitTailState :=
  match state.status with
  | .invalid _ => state
  | .open | .closed _ => { state with status := .invalid reason }

namespace CommitTailState

/-- `CommitSignal::advance`. -/
def advance (state : CommitTailState) (runId : CanonicalUuid) (previous committed : SchemaU64) :
    Except CommitSignalErrorKind Unit × CommitTailState :=
  match validateAdvance state runId previous committed with
  | .error error => (.error error, latchInvalid state error.reason)
  | .ok () => (.ok (), { state with committedHead := committed })

/-- `CommitSignal::close`. -/
def close (state : CommitTailState) (reason : String) (finalCommittedHead : SchemaU64) :
    Except CommitSignalErrorKind Unit × CommitTailState :=
  if reason.isEmpty then (.error .emptyReason, state)
  else if state.status ≠ .open then (.error .notOpen, state)
  else if finalCommittedHead ≠ state.committedHead then (.error .finalWatermarkMismatch, state)
  else (.ok (), { state with committedHead := finalCommittedHead, status := .closed reason })

/-- `CommitSignal::observe_notification`. -/
def observeNotification (state : CommitTailState) (notification : CommitNotification) :
    Except CommitSignalErrorKind Unit × CommitTailState :=
  let previous := SchemaU64.ofNat notification.previous
  let committed := SchemaU64.ofNat notification.committed
  if previous ≤ committed ∧ committed.get - previous.get = notification.eventCount then
    state.advance notification.runId previous committed
  else
    (.error .nonDenseNotification,
      latchInvalid state CommitSignalErrorKind.nonDenseNotification.reason)

/-! ## What a reader may rely on -/

/-- `after` is the tail at a later time than `before`. -/
structure Precedes (before after : CommitTailState) : Prop where
  run : after.runId = before.runId
  head_le : before.committedHead.get ≤ after.committedHead.get
  final : before.status ≠ .open →
    after.committedHead = before.committedHead ∧ after.status ≠ .open

theorem Precedes.refl (state : CommitTailState) : state.Precedes state :=
  ⟨rfl, Nat.le_refl _, fun h => ⟨rfl, h⟩⟩

theorem Precedes.trans {a b c : CommitTailState} (hab : a.Precedes b) (hbc : b.Precedes c) :
    a.Precedes c := by
  refine ⟨hbc.run.trans hab.run, Nat.le_trans hab.head_le hbc.head_le, ?_⟩
  intro h
  obtain ⟨hhead, hstatus⟩ := hab.final h
  obtain ⟨hhead', hstatus'⟩ := hbc.final hstatus
  exact ⟨hhead'.trans hhead, hstatus'⟩

variable {state : CommitTailState}

theorem latchInvalid_precedes (state : CommitTailState) (reason : String) :
    state.Precedes (latchInvalid state reason) ∧
      (latchInvalid state reason).committedHead = state.committedHead := by
  unfold latchInvalid
  split
  next => exact ⟨.refl state, rfl⟩
  next => exact ⟨⟨rfl, Nat.le_refl _, fun _ => ⟨rfl, by simp⟩⟩, rfl⟩
  next => exact ⟨⟨rfl, Nat.le_refl _, fun _ => ⟨rfl, by simp⟩⟩, rfl⟩

/-- An advance moves the head to `committed`, or leaves it. -/
theorem advance_precedes (state : CommitTailState) (runId : CanonicalUuid) (previous committed : SchemaU64) :
    state.Precedes (state.advance runId previous committed).2 ∧
      ((state.advance runId previous committed).2.committedHead = state.committedHead ∨
        (state.advance runId previous committed).2.committedHead = committed) := by
  unfold advance
  split
  next error _ =>
    obtain ⟨hprecedes, hhead⟩ := latchInvalid_precedes state error.reason
    exact ⟨hprecedes, Or.inl hhead⟩
  next hvalid =>
    unfold validateAdvance at hvalid
    simp only [ite_error_eq_ok, not_not, and_true] at hvalid
    obtain ⟨hopen, -, rfl, hlt⟩ := hvalid
    rw [SchemaU64.le_def, Nat.not_le] at hlt
    exact ⟨⟨rfl, Nat.le_of_lt hlt, fun h => absurd hopen h⟩, Or.inr rfl⟩

/-- Closing keeps the head. -/
theorem close_precedes (state : CommitTailState) (reason : String) (final : SchemaU64) :
    state.Precedes (state.close reason final).2 ∧
      (state.close reason final).2.committedHead = state.committedHead := by
  unfold close
  split
  next => exact ⟨.refl state, rfl⟩
  split
  next => exact ⟨.refl state, rfl⟩
  next hopen =>
  split
  next => exact ⟨.refl state, rfl⟩
  next hfinal =>
    rw [not_not] at hopen hfinal
    exact ⟨⟨rfl, Nat.le_of_eq (by rw [hfinal]), fun h => absurd hopen h⟩, hfinal⟩

/-- A notification moves the head to what it says was committed, or leaves it. -/
theorem observeNotification_precedes (state : CommitTailState) (notification : CommitNotification) :
    state.Precedes (state.observeNotification notification).2 ∧
      ((state.observeNotification notification).2.committedHead = state.committedHead ∨
        (state.observeNotification notification).2.committedHead =
          .ofNat notification.committed) := by
  unfold observeNotification
  simp only
  split
  next => exact advance_precedes _ _ _ _
  next =>
    obtain ⟨hprecedes, hhead⟩ := latchInvalid_precedes state
      CommitSignalErrorKind.nonDenseNotification.reason
    exact ⟨hprecedes, Or.inl hhead⟩

end CommitTailState

end Troupe.Server
