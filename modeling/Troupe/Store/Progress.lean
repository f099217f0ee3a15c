import Mathlib.Data.List.ReduceOption
import Mathlib.Data.List.Basic
import Mathlib.Data.Option.Basic
import Troupe.Lib.Machine

/-! # Supervision of the writer's progress

Model of `store/progress.rs`: `WriterProgressSupervisor`, which is told the time and what the writer
has committed, and reports one failure.

* A `Duration` is its nanoseconds, at most `durationMax`; `saturating_add` stops there.
* A call returns its result and the supervisor after it.
* A history lists calls and their replies, the newest first.

A stall or a drain timeout is reported when its deadline has come: the start plus the timeout, or
`Duration::MAX` when the sum is past it. -/

namespace Troupe.Store

open Troupe.Lib

/-- `Duration::MAX`. -/
def durationMax : Nat := u64Max * 1000000000 + 999999999

/-- `DeadlineValidationError`. -/
inductive DeadlineValidationError where
  | writerStallNotPositive
  | shutdownDrainNotPositive
deriving DecidableEq

/-- `WriterDeadlines`. -/
structure WriterDeadlines where
  writerStallTimeout : Nat
  shutdownDrainTimeout : Nat
  stallPositive : 0 < writerStallTimeout
  drainPositive : 0 < shutdownDrainTimeout

/-- `WriterDeadlines::new`. -/
def WriterDeadlines.new (writerStallTimeout shutdownDrainTimeout : Nat) :
    Except DeadlineValidationError WriterDeadlines :=
  if hstall : writerStallTimeout = 0 then .error .writerStallNotPositive
  else if hdrain : shutdownDrainTimeout = 0 then .error .shutdownDrainNotPositive
  else .ok ⟨writerStallTimeout, shutdownDrainTimeout, Nat.pos_of_ne_zero hstall,
    Nat.pos_of_ne_zero hdrain⟩

/-- `WriterProgressSample`. -/
structure WriterProgressSample where
  committedSequence : Nat
  acceptedTailEvents : Nat
deriving DecidableEq

def WriterProgressSample.hasAcceptedTail (sample : WriterProgressSample) : Bool :=
  sample.acceptedTailEvents > 0

/-- `WriterFailureStage`. -/
inductive WriterFailureStage where
  | progress
  | taskExit
  | commit
  | flush
  | storage
  | drain
deriving DecidableEq

/-- `WriterFailureCode`. -/
inductive WriterFailureCode where
  | progressStalled
  | unexpectedExit
  | panicked
  | commitUnavailable
  | flushUnavailable
  | storageUnavailable
  | shutdownDrainTimedOut
deriving DecidableEq

/-- `WriterCoreFailure`. -/
structure WriterCoreFailure where
  stage : WriterFailureStage
  code : WriterFailureCode
deriving DecidableEq

/-- `DueFailure`. -/
inductive DueFailure where
  | stall
  | drain
deriving DecidableEq

def DueFailure.failure : DueFailure → WriterCoreFailure
  | .stall => ⟨.progress, .progressStalled⟩
  | .drain => ⟨.drain, .shutdownDrainTimedOut⟩

def DueFailure.precedence : DueFailure → Nat
  | .stall => 0
  | .drain => 1

/-- `WriterTaskOutcome`. -/
inductive WriterTaskOutcome where
  | exited
  | panicked
  | commitUnavailable
  | flushUnavailable
  | storageUnavailable
deriving DecidableEq

def WriterTaskOutcome.failure : WriterTaskOutcome → WriterCoreFailure
  | .exited => ⟨.taskExit, .unexpectedExit⟩
  | .panicked => ⟨.taskExit, .panicked⟩
  | .commitUnavailable => ⟨.commit, .commitUnavailable⟩
  | .flushUnavailable => ⟨.flush, .flushUnavailable⟩
  | .storageUnavailable => ⟨.storage, .storageUnavailable⟩

/-- `ProgressObservationError`. -/
inductive ProgressObservationError where
  | clockRegressed
  | watermarkRegressed (previous actual : Nat)
  | sampleUnavailable
deriving DecidableEq

/-- `DrainTracker`. -/
inductive DrainTracker where
  | notStarted
  | draining (startedAt : Nat)
  | drained
  | timedOut
deriving DecidableEq

/-- `DrainState`. -/
inductive DrainState where
  | notStarted
  | draining
  | drained
  | timedOut
deriving DecidableEq

/-- `WriterProgressSupervisor`. -/
structure WriterProgressSupervisor where
  deadlines : WriterDeadlines
  sample : WriterProgressSample
  hasSample : Bool
  lastObservedAt : Option Nat
  stalledSince : Option Nat
  drain : DrainTracker
  failure : Option WriterCoreFailure

/-- `Iterator::min_by_key` with the key of `due_failure`: the first of the least. -/
def earliest : List (Nat × DueFailure) → Option (Nat × DueFailure)
  | [] => none
  | item :: items =>
    match earliest items with
    | none => some item
    | some other =>
      if other.1 < item.1 ∨ (other.1 = item.1 ∧ other.2.precedence < item.2.precedence) then
        some other
      else some item

namespace WriterProgressSupervisor

/-- `WriterProgressSupervisor::new`. -/
def new (deadlines : WriterDeadlines) : WriterProgressSupervisor where
  deadlines
  sample := ⟨0, 0⟩
  hasSample := false
  lastObservedAt := none
  stalledSince := none
  drain := .notStarted
  failure := none

/-- `WriterProgressSupervisor::drain_state`. -/
def drainState (s : WriterProgressSupervisor) : DrainState :=
  match s.drain with
  | .notStarted => .notStarted
  | .draining _ => .draining
  | .drained => .drained
  | .timedOut => .timedOut

/-- `WriterProgressSupervisor::validate_observation`. -/
def validateObservation (s : WriterProgressSupervisor) (now : Nat)
    (sample : WriterProgressSample) : Except ProgressObservationError Unit :=
  if s.lastObservedAt.any (now < ·) then .error .clockRegressed
  else if s.hasSample && sample.committedSequence < s.sample.committedSequence then
    .error (.watermarkRegressed s.sample.committedSequence sample.committedSequence)
  else .ok ()

/-- When a stall is due. -/
def stallDue (s : WriterProgressSupervisor) : Option Nat :=
  s.stalledSince.map (saturatingAdd durationMax · s.deadlines.writerStallTimeout)

/-- When a drain timeout is due. -/
def drainDue (s : WriterProgressSupervisor) : Option Nat :=
  match s.drain with
  | .draining startedAt =>
    some (saturatingAdd durationMax startedAt s.deadlines.shutdownDrainTimeout)
  | _ => none

/-- `WriterProgressSupervisor::due_failure`. -/
def dueFailure (s : WriterProgressSupervisor) (now : Nat) : Option DueFailure :=
  let due := [s.stallDue.map (·, .stall), s.drainDue.map (·, .drain)].reduceOption
  (earliest (due.filter fun item => item.1 ≤ now)).map Prod.snd

/-- `WriterProgressSupervisor::latch`. -/
def latch (s : WriterProgressSupervisor) (failure : WriterCoreFailure) :
    Option WriterCoreFailure × WriterProgressSupervisor :=
  if s.failure.isSome then (none, s) else (some failure, { s with failure := some failure })

/-- The first part of `observe`: what it keeps of a sample. -/
def record (s : WriterProgressSupervisor) (now : Nat) (sample : WriterProgressSample) :
    WriterProgressSupervisor :=
  let watermarkAdvanced := s.hasSample && sample.committedSequence > s.sample.committedSequence
  let tailStarted := sample.hasAcceptedTail && !s.sample.hasAcceptedTail
  { s with
    stalledSince :=
      if !sample.hasAcceptedTail then none
      else if !s.hasSample || watermarkAdvanced || tailStarted then some now
      else s.stalledSince
    sample
    hasSample := true
    lastObservedAt := some now }

/-- The second part of `observe`: the end of the drain, or the failure that is due. -/
def judge (s : WriterProgressSupervisor) (now : Nat) :
    Option WriterCoreFailure × WriterProgressSupervisor :=
  match s.drain, s.sample.hasAcceptedTail with
  | .draining _, false => (none, { s with drain := .drained })
  | _, _ =>
    match s.dueFailure now with
    | none => (none, s)
    | some .stall => s.latch DueFailure.stall.failure
    | some .drain => { s with drain := .timedOut }.latch DueFailure.drain.failure

/-- `WriterProgressSupervisor::observe`. -/
def observe (s : WriterProgressSupervisor) (now : Nat) (sample : WriterProgressSample) :
    Except ProgressObservationError (Option WriterCoreFailure) × WriterProgressSupervisor :=
  match s.validateObservation now sample with
  | .error error => (.error error, s)
  | .ok () =>
    let (failure, s) := (s.record now sample).judge now
    (.ok failure, s)

/-- `WriterProgressSupervisor::begin_shutdown`. -/
def beginShutdown (s : WriterProgressSupervisor) (now : Nat) :
    Except ProgressObservationError DrainState × WriterProgressSupervisor :=
  if !s.hasSample then (.error .sampleUnavailable, s)
  else if s.lastObservedAt.any (now < ·) then (.error .clockRegressed, s)
  else
    let s := match s.drain with
      | .notStarted =>
        if s.sample.hasAcceptedTail then { s with drain := .draining now }
        else { s with drain := .drained }
      | _ => s
    (.ok s.drainState, s)

/-- `WriterProgressSupervisor::report_writer_outcome`. -/
def reportWriterOutcome (s : WriterProgressSupervisor) (now : Nat) (sample : WriterProgressSample)
    (outcome : WriterTaskOutcome) :
    Except ProgressObservationError (Option WriterCoreFailure) × WriterProgressSupervisor :=
  match s.observe now sample with
  | (.error error, s) => (.error error, s)
  | (.ok (some failure), s) => (.ok (some failure), s)
  | (.ok none, s) =>
    if outcome = .exited ∧ s.drain = .drained then (.ok none, s)
    else
      let (failure, s) := s.latch outcome.failure
      (.ok failure, s)

end WriterProgressSupervisor

/-! ## Calls -/

/-- A call on the supervisor. -/
inductive ProgressCall where
  | observe (now : Nat) (sample : WriterProgressSample)
  | beginShutdown (now : Nat)
  | reportWriterOutcome (now : Nat) (sample : WriterProgressSample) (outcome : WriterTaskOutcome)

/-- What a call returns. -/
inductive ProgressReply where
  | outcome (failure : Option WriterCoreFailure)
  | drain (state : DrainState)
deriving DecidableEq

open WriterProgressSupervisor in
def ProgressCall.run (s : WriterProgressSupervisor) :
    ProgressCall → Except ProgressObservationError ProgressReply × WriterProgressSupervisor
  | .observe now sample =>
    let (reply, s) := s.observe now sample
    (reply.map .outcome, s)
  | .beginShutdown now =>
    let (reply, s) := s.beginShutdown now
    (reply.map .drain, s)
  | .reportWriterOutcome now sample outcome =>
    let (reply, s) := s.reportWriterOutcome now sample outcome
    (reply.map .outcome, s)

/-- The time a call is told. -/
def ProgressCall.now : ProgressCall → Nat
  | .observe now _ => now
  | .beginShutdown now => now
  | .reportWriterOutcome now _ _ => now

/-- The sample a call is told. -/
def ProgressCall.sample : ProgressCall → Option WriterProgressSample
  | .observe _ sample => some sample
  | .beginShutdown _ => none
  | .reportWriterOutcome _ sample _ => some sample

abbrev ProgressHistory := List (ProgressCall × Except ProgressObservationError ProgressReply)

/-- The failure a call reports. -/
def reported : Except ProgressObservationError ProgressReply → Option WriterCoreFailure
  | .ok (.outcome failure) => failure
  | _ => none

/-- The failures reported, the newest first. -/
def failures (history : ProgressHistory) : List WriterCoreFailure :=
  history.filterMap fun item => reported item.2

/-- The time and the sample of a call that was accepted. -/
def observation : ProgressCall × Except ProgressObservationError ProgressReply →
    Option (Nat × WriterProgressSample)
  | (call, .ok _) => call.sample.map (call.now, ·)
  | (_, .error _) => none

/-- The accepted observations, the newest first. -/
def observations (history : ProgressHistory) : List (Nat × WriterProgressSample) :=
  history.filterMap observation

/-- Any calls after `new`, and the supervisor after them. -/
inductive Supervises (deadlines : WriterDeadlines) :
    ProgressHistory → WriterProgressSupervisor → Prop where
  | new : Supervises deadlines [] (.new deadlines)
  | call {history : ProgressHistory} {s : WriterProgressSupervisor}
      (h : Supervises deadlines history s) (call : ProgressCall) :
      Supervises deadlines ((call, (call.run s).1) :: history) (call.run s).2

/-! ## What a call does -/

namespace WriterProgressSupervisor

variable {s : WriterProgressSupervisor} {now : Nat} {sample : WriterProgressSample}

theorem latch_fst {failure failure' : WriterCoreFailure} :
    (s.latch failure).1 = some failure' ↔ s.failure = none ∧ failure = failure' := by
  unfold latch
  cases s.failure <;> simp

/-- A failure is reported when it is the first, and then it stays. -/
theorem latch_failure (failure : WriterCoreFailure) :
    (s.latch failure).2 = { s with failure := s.failure.or (some failure) } := by
  obtain ⟨deadlines, sample, hasSample, last, stalled, drain, latched⟩ := s
  cases latched <;> rfl

theorem latch_toList (failure : WriterCoreFailure) :
    (s.latch failure).1.toList ++ s.failure.toList = (s.latch failure).2.failure.toList := by
  unfold latch
  cases hlatched : s.failure <;> simp [hlatched]

/-- What is due is the deadline that came first; of two that came together it is the stall. -/
theorem dueFailure_cases :
    (s.dueFailure now = some .stall ↔ ∃ deadline, s.stallDue = some deadline ∧ deadline ≤ now ∧
      ∀ other, s.drainDue = some other → other ≤ now → deadline ≤ other) ∧
    (s.dueFailure now = some .drain ↔ ∃ deadline, s.drainDue = some deadline ∧ deadline ≤ now ∧
      ∀ other, s.stallDue = some other → other ≤ now → deadline < other) := by
  unfold dueFailure
  cases s.stallDue with
  | none =>
    cases s.drainDue with
    | none => simp [List.reduceOption, earliest]
    | some drain => by_cases hdrain : drain ≤ now <;> simp [List.reduceOption, earliest, hdrain]
  | some stall =>
    cases s.drainDue with
    | none => by_cases hstall : stall ≤ now <;> simp [List.reduceOption, earliest, hstall]
    | some drain =>
      by_cases hstall : stall ≤ now
      · by_cases hdrain : drain ≤ now
        · by_cases hfirst : drain < stall
          · simp [List.reduceOption, earliest, hstall, hdrain, hfirst]
          · simp [List.reduceOption, earliest, hstall, hdrain, hfirst, DueFailure.precedence,
              Nat.not_lt.1 hfirst]
        · simp [List.reduceOption, earliest, hstall, hdrain]
      · by_cases hdrain : drain ≤ now <;> simp [List.reduceOption, earliest, hstall, hdrain]

/-- A stall is due when its deadline has come, and no drain timeout was due before it. -/
theorem dueFailure_eq_stall : s.dueFailure now = some .stall ↔
    ∃ deadline, s.stallDue = some deadline ∧ deadline ≤ now ∧
      ∀ other, s.drainDue = some other → other ≤ now → deadline ≤ other :=
  dueFailure_cases.1

/-- A drain timeout is due when its deadline has come, and no stall was due by then. -/
theorem dueFailure_eq_drain : s.dueFailure now = some .drain ↔
    ∃ deadline, s.drainDue = some deadline ∧ deadline ≤ now ∧
      ∀ other, s.stallDue = some other → other ≤ now → deadline < other :=
  dueFailure_cases.2

/-- What `judge` can do: end the drain, find nothing due, or report a stall or a drain timeout. -/
theorem judge_cases (s : WriterProgressSupervisor) (now : Nat) :
    ((∃ startedAt, s.drain = .draining startedAt) ∧ s.sample.hasAcceptedTail = false ∧
      s.judge now = (none, { s with drain := .drained })) ∨
    ((∀ startedAt, s.drain = .draining startedAt → s.sample.hasAcceptedTail = true) ∧
      ((s.dueFailure now = none ∧ s.judge now = (none, s)) ∨
        (s.dueFailure now = some .stall ∧ s.judge now = s.latch DueFailure.stall.failure) ∨
        (s.dueFailure now = some .drain ∧
          s.judge now = { s with drain := .timedOut }.latch DueFailure.drain.failure))) := by
  unfold judge
  split
  next startedAt hdrain htail => exact .inl ⟨⟨startedAt, hdrain⟩, htail, rfl⟩
  next hdraining =>
    refine .inr ⟨fun startedAt hdrain => ?_, ?_⟩
    · by_contra htail
      exact hdraining startedAt hdrain (Bool.eq_false_iff.2 htail)
    · split
      next hdue => exact .inl ⟨hdue, rfl⟩
      next hdue => exact .inr (.inl ⟨hdue, rfl⟩)
      next hdue => exact .inr (.inr ⟨hdue, rfl⟩)

theorem judge_stalledSince : (s.judge now).2.stalledSince = s.stalledSince := by
  rcases s.judge_cases now with ⟨-, -, h⟩ | ⟨-, ⟨-, h⟩ | ⟨-, h⟩ | ⟨-, h⟩⟩ <;>
    simp [h, latch_failure]

theorem judge_toList : (s.judge now).1.toList ++ s.failure.toList =
    (s.judge now).2.failure.toList := by
  rcases s.judge_cases now with ⟨-, -, h⟩ | ⟨-, ⟨-, h⟩ | ⟨-, h⟩ | ⟨-, h⟩⟩
  · simp [h]
  · simp [h]
  · rw [h]
    exact latch_toList _
  · rw [h]
    exact latch_toList _

theorem validateObservation_eq_ok : s.validateObservation now sample = .ok () ↔
    (∀ last ∈ s.lastObservedAt, last ≤ now) ∧
      (s.hasSample = true → s.sample.committedSequence ≤ sample.committedSequence) := by
  have hclock : s.lastObservedAt.any (now < ·) = true ↔ ¬∀ last ∈ s.lastObservedAt, last ≤ now := by
    cases s.lastObservedAt <;> simp
  unfold validateObservation
  by_cases hlate : ∀ last ∈ s.lastObservedAt, last ≤ now
  · rw [if_neg fun h => hclock.1 h hlate, and_iff_right hlate]
    cases s.hasSample <;> simp
  · rw [if_pos (hclock.2 hlate)]
    exact ⟨nofun, fun h => absurd h.1 hlate⟩

theorem observe_eq (s : WriterProgressSupervisor) (now : Nat) (sample : WriterProgressSample) :
    (∃ error, s.observe now sample = (.error error, s)) ∨
      (s.validateObservation now sample = .ok () ∧
        s.observe now sample =
          (.ok ((s.record now sample).judge now).1, ((s.record now sample).judge now).2)) := by
  unfold observe
  cases hvalid : s.validateObservation now sample with
  | error error => exact .inl ⟨error, rfl⟩
  | ok => exact .inr ⟨rfl, rfl⟩

theorem reportWriterOutcome_eq (s : WriterProgressSupervisor) (now : Nat)
    (sample : WriterProgressSample) (outcome : WriterTaskOutcome) :
    (∃ error, s.reportWriterOutcome now sample outcome = (.error error, s)) ∨
      ∃ failure s', s.validateObservation now sample = .ok () ∧
        (s.record now sample).judge now = (failure, s') ∧
        (s.reportWriterOutcome now sample outcome = (.ok failure, s') ∨
          (failure = none ∧ s.reportWriterOutcome now sample outcome =
            (.ok (s'.latch outcome.failure).1, (s'.latch outcome.failure).2))) := by
  unfold reportWriterOutcome
  rcases s.observe_eq now sample with ⟨error, h⟩ | ⟨hvalid, h⟩
  · exact .inl ⟨error, by rw [h]⟩
  · rcases hjudge : (s.record now sample).judge now with ⟨failure, s'⟩
    rw [hjudge] at h
    refine .inr ⟨failure, s', hvalid, rfl, ?_⟩
    rw [h]
    cases failure with
    | some failure => exact .inl rfl
    | none =>
      dsimp only
      split
      · exact .inl rfl
      · exact .inr ⟨rfl, rfl⟩

end WriterProgressSupervisor

open WriterProgressSupervisor

variable {s : WriterProgressSupervisor}

theorem run_observe (now : Nat) (sample : WriterProgressSample) :
    (ProgressCall.observe now sample).run s =
      ((s.observe now sample).1.map .outcome, (s.observe now sample).2) := rfl

theorem run_beginShutdown (now : Nat) : (ProgressCall.beginShutdown now).run s =
    ((s.beginShutdown now).1.map .drain, (s.beginShutdown now).2) := rfl

theorem run_reportWriterOutcome (now : Nat) (sample : WriterProgressSample)
    (outcome : WriterTaskOutcome) : (ProgressCall.reportWriterOutcome now sample outcome).run s =
      ((s.reportWriterOutcome now sample outcome).1.map .outcome,
        (s.reportWriterOutcome now sample outcome).2) := rfl

/-- A call is refused and changes nothing, begins the shutdown, or observes a sample; a reported
outcome is latched after the observation. -/
theorem ProgressCall.run_cases (s : WriterProgressSupervisor) (call : ProgressCall) :
    (∃ error, call.run s = (.error error, s)) ∨
    (∃ now s', call = .beginShutdown now ∧ s.beginShutdown now = (.ok s'.drainState, s') ∧
      s.hasSample = true ∧ call.run s = (.ok (.drain s'.drainState), s')) ∨
    (∃ sample failure s', call.sample = some sample ∧
      s.validateObservation call.now sample = .ok () ∧
      (s.record call.now sample).judge call.now = (failure, s') ∧
      (call.run s = (.ok (.outcome failure), s') ∨
        ∃ outcome : WriterTaskOutcome, failure = none ∧
          call.run s = (.ok (.outcome (s'.latch outcome.failure).1),
            (s'.latch outcome.failure).2))) := by
  cases call with
  | observe now sample =>
    rw [run_observe]
    rcases s.observe_eq now sample with ⟨error, h⟩ | ⟨hvalid, h⟩
    · rw [h]
      exact .inl ⟨error, rfl⟩
    · rw [h]
      exact .inr (.inr ⟨sample, _, _, rfl, hvalid, rfl, .inl rfl⟩)
  | beginShutdown now =>
    rw [run_beginShutdown]
    by_cases hsample : s.hasSample = true
    · by_cases hclock : s.lastObservedAt.any (now < ·) = true
      · have hrefused : s.beginShutdown now = (.error .clockRegressed, s) := by
          simp only [WriterProgressSupervisor.beginShutdown, hsample, hclock, Bool.not_true,
            Bool.false_eq_true, if_false, if_true]
        rw [hrefused]
        exact .inl ⟨_, rfl⟩
      · have hbegun : ∃ s', s.beginShutdown now = (.ok s'.drainState, s') := by
          simp only [WriterProgressSupervisor.beginShutdown, hsample, hclock, Bool.not_true,
            Bool.false_eq_true, if_false]
          exact ⟨_, rfl⟩
        obtain ⟨s', hbegun⟩ := hbegun
        rw [hbegun]
        exact .inr (.inl ⟨now, s', rfl, hbegun, hsample, rfl⟩)
    · have hrefused : s.beginShutdown now = (.error .sampleUnavailable, s) := by
        simp [WriterProgressSupervisor.beginShutdown, hsample]
      rw [hrefused]
      exact .inl ⟨_, rfl⟩
  | reportWriterOutcome now sample outcome =>
    rw [run_reportWriterOutcome]
    rcases s.reportWriterOutcome_eq now sample outcome with
      ⟨error, h⟩ | ⟨failure, s', hvalid, hjudge, h | ⟨hnone, h⟩⟩
    · rw [h]
      exact .inl ⟨error, rfl⟩
    · rw [h]
      exact .inr (.inr ⟨sample, failure, s', rfl, hvalid, hjudge, .inl rfl⟩)
    · rw [h]
      exact .inr (.inr ⟨sample, failure, s', rfl, hvalid, hjudge, .inr ⟨outcome, hnone, rfl⟩⟩)

/-! ## What the supervisor knows of its history -/

/-- From an observation at `since` on, every one found a tail and the same watermark. -/
def Stalled (observations : List (Nat × WriterProgressSample)) (since : Nat) : Prop :=
  ∃ interval first older, observations = interval ++ (since, first) :: older ∧
    first.hasAcceptedTail = true ∧
      ∀ o ∈ interval, o.2.hasAcceptedTail = true ∧ o.2.committedSequence = first.committedSequence

/-- The shutdown began at `startedAt`, and every observation since found a tail. -/
def Draining (history : ProgressHistory) (startedAt : Nat) : Prop :=
  ∃ newer older, history = newer ++ (.beginShutdown startedAt, .ok (.drain .draining)) :: older ∧
    (∀ item ∈ older, ∀ state, item.2 ≠ .ok (.drain state)) ∧
      ∀ o ∈ observations newer, o.2.hasAcceptedTail = true

/-- The fields that follow the observations. -/
structure Tracked (history : ProgressHistory) (s : WriterProgressSupervisor) : Prop where
  newest : (observations history).head? = s.lastObservedAt.map (·, s.sample)
  known : s.hasSample = s.lastObservedAt.isSome
  stalled : ∀ since, s.stalledSince = some since → Stalled (observations history) since
  draining : ∀ startedAt, s.drain = .draining startedAt → Draining history startedAt
  notStarted : s.drain = .notStarted → ∀ item ∈ history, ∀ state, item.2 ≠ .ok (.drain state)

variable {history : ProgressHistory} {deadlines : WriterDeadlines}

theorem Stalled.cons {observations : List (Nat × WriterProgressSample)} {since now : Nat}
    {sample previous : WriterProgressSample} (h : Stalled observations since)
    (hnewest : observations.head?.map Prod.snd = some previous)
    (htail : sample.hasAcceptedTail = true)
    (hsame : sample.committedSequence = previous.committedSequence) :
    Stalled ((now, sample) :: observations) since := by
  obtain ⟨interval, first, older, rfl, hfirst, hinterval⟩ := h
  refine ⟨(now, sample) :: interval, first, older, rfl, hfirst, ?_⟩
  have hprevious : previous.committedSequence = first.committedSequence := by
    cases interval with
    | nil =>
      cases hnewest
      rfl
    | cons o interval =>
      cases hnewest
      exact (hinterval o List.mem_cons_self).2
  rintro o (_ | ⟨_, ho⟩)
  · exact ⟨htail, hsame.trans hprevious⟩
  · exact hinterval o ho

theorem Draining.cons {startedAt : Nat} (h : Draining history startedAt)
    {item : ProgressCall × Except ProgressObservationError ProgressReply}
    (hitem : ∀ o, observation item = some o → o.2.hasAcceptedTail = true) :
    Draining (item :: history) startedAt := by
  obtain ⟨newer, older, rfl, holder, hnewer⟩ := h
  refine ⟨item :: newer, older, rfl, holder, fun o ho => ?_⟩
  obtain ⟨other, hmem, hother⟩ := List.mem_filterMap.1 ho
  rcases List.mem_cons.1 hmem with rfl | hmem
  · exact hitem o hother
  · exact hnewer o (List.mem_filterMap.2 ⟨other, hmem, hother⟩)

theorem tracked_new (deadlines : WriterDeadlines) : Tracked [] (.new deadlines) where
  newest := rfl
  known := rfl
  stalled := nofun
  draining := nofun
  notStarted := nofun

/-- A refused call is no observation. -/
theorem Tracked.error (h : Tracked history s) (call : ProgressCall)
    (error : ProgressObservationError) : Tracked ((call, .error error) :: history) s where
  newest := h.newest
  known := h.known
  stalled := h.stalled
  draining startedAt hdrain := (h.draining startedAt hdrain).cons nofun
  notStarted hdrain item hitem state := by
    rcases List.mem_cons.1 hitem with rfl | hitem
    · exact nofun
    · exact h.notStarted hdrain item hitem state

/-- What follows the observations does not depend on the failure that is latched. -/
theorem Tracked.latch (h : Tracked history s) (failure : WriterCoreFailure) :
    Tracked history (s.latch failure).2 := by
  rw [latch_failure]
  exact ⟨h.newest, h.known, h.stalled, h.draining, h.notStarted⟩

theorem Tracked.beginShutdown (h : Tracked history s) {now : Nat} {s' : WriterProgressSupervisor}
    (hbegun : s.beginShutdown now = (.ok s'.drainState, s')) :
    Tracked ((.beginShutdown now, .ok (.drain s'.drainState)) :: history) s' := by
  unfold WriterProgressSupervisor.beginShutdown at hbegun
  split at hbegun
  · cases hbegun
  split at hbegun
  · cases hbegun
  obtain ⟨-, rfl⟩ := Prod.mk.inj hbegun
  cases hdrain : s.drain with
  | notStarted =>
    by_cases htail : s.sample.hasAcceptedTail = true
    · simp only [htail, if_true]
      exact {
        newest := h.newest
        known := h.known
        stalled := h.stalled
        draining := by
          rintro startedAt ⟨⟩
          exact ⟨[], history, rfl, h.notStarted hdrain, nofun⟩
        notStarted := nofun }
    · simp only [htail]
      exact ⟨h.newest, h.known, h.stalled, nofun, nofun⟩
  | draining startedAt =>
    exact ⟨h.newest, h.known, h.stalled,
      fun startedAt hdrain => (h.draining startedAt hdrain).cons nofun,
      fun hother => absurd (hdrain.symm.trans hother) nofun⟩
  | drained | timedOut =>
    exact ⟨h.newest, h.known, h.stalled, fun _ hother => absurd (hdrain.symm.trans hother) nofun,
      fun hother => absurd (hdrain.symm.trans hother) nofun⟩

/-- The start of a stall after an observation: this one, or the one it was before. -/
theorem Tracked.stalled_record (h : Tracked history s) {now since : Nat}
    {sample : WriterProgressSample} (hvalid : s.validateObservation now sample = .ok ())
    (hsince : (s.record now sample).stalledSince = some since) :
    Stalled ((now, sample) :: observations history) since := by
  obtain ⟨-, hwatermark⟩ := validateObservation_eq_ok.1 hvalid
  dsimp only [record] at hsince
  by_cases htail : sample.hasAcceptedTail = true
  · rw [htail, Bool.not_true, if_neg Bool.false_ne_true] at hsince
    split at hsince
    · cases hsince
      exact ⟨[], sample, _, rfl, htail, nofun⟩
    next hsame =>
      simp only [Bool.or_eq_true, Bool.not_eq_true', Bool.and_eq_true, decide_eq_true_eq,
        Bool.true_and, not_or, Bool.not_eq_false, not_and] at hsame
      obtain ⟨⟨hknown, hadvanced⟩, -⟩ := hsame
      refine (h.stalled since hsince).cons ?_ htail
        (Nat.le_antisymm (Nat.not_lt.1 (hadvanced hknown)) (hwatermark hknown))
      rw [h.newest]
      rw [h.known] at hknown
      obtain ⟨last, hlast⟩ := Option.isSome_iff_exists.1 hknown
      rw [hlast]
      rfl
  · rw [Bool.eq_false_iff.2 htail] at hsince
    cases hsince

theorem Tracked.observed (h : Tracked history s) {call : ProgressCall}
    {sample : WriterProgressSample} (hsample : call.sample = some sample)
    (hvalid : s.validateObservation call.now sample = .ok ())
    (failure : Option WriterCoreFailure) :
    Tracked ((call, .ok (.outcome failure)) :: history)
      ((s.record call.now sample).judge call.now).2 := by
  have hobserved : ∀ reply, observation (call, .ok reply) = some (call.now, sample) := by
    intro reply
    rw [observation, hsample]
    rfl
  have hobservations : observations ((call, .ok (.outcome failure)) :: history) =
      (call.now, sample) :: observations history :=
    List.filterMap_cons_some (hobserved _)
  have hstalled : ∀ since, (s.record call.now sample).stalledSince = some since →
      Stalled (observations ((call, .ok (.outcome failure)) :: history)) since := by
    intro since hsince
    rw [hobservations]
    exact h.stalled_record hvalid hsince
  have hnotStarted : s.drain = .notStarted → ∀ item ∈ (call, .ok (.outcome failure)) :: history,
      ∀ state, item.2 ≠ .ok (.drain state) := by
    intro hdrain item hitem state
    rcases List.mem_cons.1 hitem with rfl | hitem
    · exact nofun
    · exact h.notStarted hdrain item hitem state
  have hnewest : (observations ((call, .ok (.outcome failure)) :: history)).head? =
      some (call.now, sample) := by rw [hobservations]; rfl
  have hdraining : sample.hasAcceptedTail = true → ∀ startedAt, s.drain = .draining startedAt →
      Draining ((call, .ok (.outcome failure)) :: history) startedAt := by
    intro htail startedAt hdrain
    refine (h.draining startedAt hdrain).cons fun o ho => ?_
    cases (hobserved _).symm.trans ho
    exact htail
  rcases (s.record call.now sample).judge_cases call.now with
    ⟨-, -, hjudge⟩ | ⟨htail, ⟨-, hjudge⟩ | ⟨-, hjudge⟩ | ⟨-, hjudge⟩⟩
  · rw [hjudge]
    exact ⟨hnewest, rfl, hstalled, nofun, nofun⟩
  · rw [hjudge]
    exact ⟨hnewest, rfl, hstalled, fun _ hdrain => hdraining (htail _ hdrain) _ hdrain, hnotStarted⟩
  · rw [hjudge]
    exact Tracked.latch
      ⟨hnewest, rfl, hstalled, fun _ hdrain => hdraining (htail _ hdrain) _ hdrain, hnotStarted⟩ _
  · rw [hjudge]
    have htimedOut : Tracked ((call, .ok (.outcome failure)) :: history)
        { s.record call.now sample with drain := .timedOut } :=
      ⟨hnewest, rfl, hstalled, nofun, nofun⟩
    exact htimedOut.latch _

theorem Tracked.run (h : Tracked history s) (call : ProgressCall) :
    Tracked ((call, (call.run s).1) :: history) (call.run s).2 := by
  rcases call.run_cases s with ⟨error, hrun⟩ | ⟨now, s', rfl, hbegun, -, hrun⟩ |
    ⟨sample, failure, s', hsample, hvalid, hjudge, hrun | ⟨outcome, -, hrun⟩⟩
  · rw [hrun]
    exact h.error call error
  · rw [hrun]
    exact h.beginShutdown hbegun
  · rw [hrun]
    have hobserved := h.observed hsample hvalid failure
    rwa [hjudge] at hobserved
  · rw [hrun]
    have hobserved := h.observed hsample hvalid (s'.latch outcome.failure).1
    rw [hjudge] at hobserved
    exact hobserved.latch _

theorem Supervises.tracked (h : Supervises deadlines history s) : Tracked history s := by
  induction h with
  | new => exact tracked_new deadlines
  | call _ call ih => exact ih.run call

/-! ## What a call reports, and what it keeps -/

theorem beginShutdown_eq {now : Nat} {s' : WriterProgressSupervisor}
    (hbegun : s.beginShutdown now = (.ok s'.drainState, s')) :
    s' = { s with drain := s'.drain } ∧ (s.drain = .notStarted ∨ s'.drain = s.drain) := by
  unfold WriterProgressSupervisor.beginShutdown at hbegun
  split at hbegun
  · cases hbegun
  split at hbegun
  · cases hbegun
  obtain ⟨-, rfl⟩ := Prod.mk.inj hbegun
  cases hdrain : s.drain with
  | notStarted =>
    refine ⟨?_, .inl rfl⟩
    dsimp only
    split <;> rfl
  | draining _ | drained | timedOut => exact ⟨rfl, .inr hdrain⟩

theorem judge_deadlines {now : Nat} : (s.judge now).2.deadlines = s.deadlines := by
  rcases s.judge_cases now with ⟨-, -, h⟩ | ⟨-, ⟨-, h⟩ | ⟨-, h⟩ | ⟨-, h⟩⟩ <;>
    simp [h, latch_failure]

theorem run_deadlines (call : ProgressCall) : (call.run s).2.deadlines = s.deadlines := by
  rcases call.run_cases s with ⟨error, hrun⟩ | ⟨now, s', rfl, hbegun, -, hrun⟩ |
    ⟨sample, failure, s', -, -, hjudge, hrun⟩
  · rw [hrun]
  · rw [hrun, (beginShutdown_eq hbegun).1]
  · have hkept : s'.deadlines = s.deadlines := by
      have hjudged : (failure, s').2.deadlines = _ := hjudge ▸ judge_deadlines
      exact hjudged
    rcases hrun with hrun | ⟨outcome, -, hrun⟩
    · rw [hrun]
      exact hkept
    · rw [hrun, latch_failure]
      exact hkept

theorem Supervises.deadlines_eq (h : Supervises deadlines history s) : s.deadlines = deadlines := by
  induction h with
  | new => rfl
  | call _ call ih => exact (run_deadlines call).trans ih

/-- A call reports a failure only when none was, and keeps it. -/
theorem run_failure (call : ProgressCall) :
    (reported (call.run s).1).toList ++ s.failure.toList = (call.run s).2.failure.toList := by
  rcases call.run_cases s with ⟨error, hrun⟩ | ⟨now, s', rfl, hbegun, -, hrun⟩ |
    ⟨sample, failure, s', -, -, hjudge, hrun⟩
  · rw [hrun]
    rfl
  · rw [hrun, (beginShutdown_eq hbegun).1]
    rfl
  · have hjudged : failure.toList ++ s.failure.toList = s'.failure.toList := by
      have hboth : (failure, s').1.toList ++ _ = (failure, s').2.failure.toList :=
        hjudge ▸ judge_toList
      exact hboth
    rcases hrun with hrun | ⟨outcome, rfl, hrun⟩
    · rw [hrun]
      exact hjudged
    · rw [hrun]
      have hnone : s.failure.toList = s'.failure.toList := hjudged
      exact (congrArg _ hnone).trans (latch_toList outcome.failure)

theorem Supervises.failures_eq (h : Supervises deadlines history s) :
    failures history = s.failure.toList := by
  induction h with
  | new => rfl
  | @call history s _ call ih =>
    rw [← run_failure call, ← ih, failures, List.filterMap_cons]
    cases reported (call.run s).1 <;> rfl

/-- A reported failure is due, or is the outcome the call was told. -/
theorem reported_cases {call : ProgressCall} {failure : WriterCoreFailure}
    (h : reported (call.run s).1 = some failure) :
    (∃ sample due, call.sample = some sample ∧
      (s.record call.now sample).dueFailure call.now = some due ∧ due.failure = failure ∧
      (call.run s).2.stalledSince = (s.record call.now sample).stalledSince ∧
      (call.run s).1 = .ok (.outcome (some failure)) ∧
      ∀ startedAt, s.drain = .draining startedAt → sample.hasAcceptedTail = true) ∨
    ∃ outcome : WriterTaskOutcome, outcome.failure = failure := by
  rcases call.run_cases s with ⟨error, hrun⟩ | ⟨now, s', -, -, -, hrun⟩ |
    ⟨sample, found, s', hsample, -, hjudge, hrun⟩
  · rw [hrun] at h
    cases h
  · rw [hrun] at h
    cases h
  · rcases hrun with hrun | ⟨outcome, -, hrun⟩
    · rw [hrun] at h ⊢
      obtain rfl : found = some failure := h
      have hstalled : s'.stalledSince = (s.record call.now sample).stalledSince := by
        have hjudged : ((some failure, s') : Option WriterCoreFailure × _).2.stalledSince = _ :=
          hjudge ▸ judge_stalledSince
        exact hjudged
      rcases (s.record call.now sample).judge_cases call.now with
        ⟨-, -, hcase⟩ | ⟨htail, ⟨-, hcase⟩ | ⟨hdue, hcase⟩ | ⟨hdue, hcase⟩⟩
      · cases hjudge.symm.trans hcase
      · cases hjudge.symm.trans hcase
      · have hlatch := (latch_fst.1 (congrArg Prod.fst (hcase.symm.trans hjudge))).2
        exact .inl ⟨sample, _, hsample, hdue, hlatch, hstalled, rfl, htail⟩
      · have hlatch := (latch_fst.1 (congrArg Prod.fst (hcase.symm.trans hjudge))).2
        exact .inl ⟨sample, _, hsample, hdue, hlatch, hstalled, rfl, htail⟩
    · rw [hrun] at h
      exact .inr ⟨outcome, (latch_fst.1 h).2⟩

/-- A drain that is over stays as it is. -/
theorem run_drain (call : ProgressCall) (h : s.drain = .drained ∨ s.drain = .timedOut) :
    (call.run s).2.drain = s.drain := by
  have hover : ∀ startedAt, s.drain ≠ .draining startedAt := by
    rintro startedAt hdrain
    rw [hdrain] at h
    rcases h with h | h <;> cases h
  have hstarted : s.drain ≠ .notStarted := by
    intro hdrain
    rw [hdrain] at h
    rcases h with h | h <;> cases h
  rcases call.run_cases s with ⟨error, hrun⟩ | ⟨now, s', -, hbegun, -, hrun⟩ |
    ⟨sample, failure, s', -, -, hjudge, hrun⟩
  · rw [hrun]
  · rw [hrun]
    exact (beginShutdown_eq hbegun).2.resolve_left hstarted
  · have hkept : s'.drain = s.drain := by
      have hs' := congrArg (fun result => result.2.drain) hjudge
      rcases (s.record call.now sample).judge_cases call.now with
        ⟨⟨startedAt, hdrain⟩, -, -⟩ | ⟨-, ⟨-, hcase⟩ | ⟨-, hcase⟩ | ⟨hdue, -⟩⟩
      · exact absurd hdrain (hover startedAt)
      · rw [hcase] at hs'
        exact hs'.symm
      · rw [hcase, latch_failure] at hs'
        exact hs'.symm
      · obtain ⟨deadline, hdeadline, -⟩ := dueFailure_eq_drain.1 hdue
        unfold drainDue at hdeadline
        split at hdeadline
        next startedAt hdrain => exact absurd hdrain (hover startedAt)
        · cases hdeadline
    rcases hrun with hrun | ⟨outcome, -, hrun⟩
    · rw [hrun]
      exact hkept
    · rw [hrun, latch_failure]
      exact hkept

/-! ## The supervision over any calls -/

/-- The supervisor after more calls. -/
def WriterProgressSupervisor.after (s : WriterProgressSupervisor) (calls : List ProgressCall) :
    WriterProgressSupervisor :=
  calls.foldl (fun s call => (call.run s).2) s

theorem after_drain (calls : List ProgressCall) (h : s.drain = .drained ∨ s.drain = .timedOut) :
    (s.after calls).drain = s.drain := by
  induction calls generalizing s with
  | nil => rfl
  | cons call calls ih =>
    have hkept := run_drain call h
    exact (ih (hkept ▸ h)).trans hkept

theorem after_failure (calls : List ProgressCall) {failure : WriterCoreFailure}
    (h : s.failure = some failure) : (s.after calls).failure = some failure := by
  induction calls generalizing s with
  | nil => exact h
  | cons call calls ih =>
    refine ih ?_
    have hkept := run_failure (s := s) call
    rw [h] at hkept
    cases hreported : reported (call.run s).1 with
    | none =>
      rw [hreported] at hkept
      cases hfailure : (call.run s).2.failure with
      | none =>
        rw [hfailure] at hkept
        cases hkept
      | some other =>
        rw [hfailure] at hkept
        cases hkept
        rfl
    | some other =>
      rw [hreported] at hkept
      have hlength := congrArg List.length hkept
      cases hfailure : (call.run s).2.failure <;> simp [hfailure] at hlength

/-- A drain deadline is one of a drain that has begun. -/
theorem drainDue_eq_some {deadline : Nat} : s.drainDue = some deadline ↔
    ∃ startedAt, s.drain = .draining startedAt ∧
      saturatingAdd durationMax startedAt s.deadlines.shutdownDrainTimeout = deadline := by
  unfold drainDue
  cases s.drain <;> simp

/-- A stall is due only after a sample with a tail. -/
theorem record_stallDue {now deadline : Nat} {sample : WriterProgressSample}
    (h : (s.record now sample).stallDue = some deadline) : sample.hasAcceptedTail = true := by
  by_contra htail
  simp [stallDue, record, htail] at h

/-- When both deadlines have come, the earlier one decides. -/
theorem run_both_due {call : ProgressCall} {reply : ProgressReply} {stall drain : Nat}
    (haccepted : (call.run s).1 = .ok reply) (hcall : call.sample.isSome)
    (hstall : (call.run s).2.stallDue = some stall) (hdrain : s.drainDue = some drain)
    (hstallDue : stall ≤ call.now) (hdrainDue : drain ≤ call.now) :
    (call.run s).2.drainState = (if stall ≤ drain then .draining else .timedOut) ∧
      (s.failure = none → reported (call.run s).1 =
        some (if stall ≤ drain then DueFailure.stall.failure else DueFailure.drain.failure)) := by
  obtain ⟨startedAt, hstarted, hdeadline⟩ := drainDue_eq_some.1 hdrain
  rcases call.run_cases s with ⟨error, hrun⟩ | ⟨now, s', rfl, -, -, -⟩ |
    ⟨sample, failure, s', hsample, -, hjudge, hrun⟩
  · rw [hrun] at haccepted
    cases haccepted
  · cases hcall
  · have hfields : (call.run s).2.stalledSince = s'.stalledSince ∧
        (call.run s).2.deadlines = s'.deadlines ∧ (call.run s).2.drain = s'.drain := by
      rcases hrun with hrun | ⟨outcome, -, hrun⟩
      · rw [hrun]
        exact ⟨rfl, rfl, rfl⟩
      · rw [hrun, latch_failure]
        exact ⟨rfl, rfl, rfl⟩
    have hs' : s' = ((s.record call.now sample).judge call.now).2 := by rw [hjudge]
    have hsince : (call.run s).2.stallDue = (s.record call.now sample).stallDue := by
      unfold stallDue
      rw [hfields.1, hfields.2.1, hs', judge_stalledSince, judge_deadlines]
    rw [hsince] at hstall
    have htracker : (s.record call.now sample).drain = .draining startedAt := hstarted
    have hrecorded : (s.record call.now sample).drainDue = some drain := hdrain
    have hreported : ∀ due : DueFailure, s.failure = none →
        ((s.record call.now sample).judge call.now).1 = some due.failure →
        reported (call.run s).1 = some due.failure := by
      intro due _ hdue
      rw [hjudge] at hdue
      obtain rfl : failure = some due.failure := hdue
      rcases hrun with hrun | ⟨outcome, hnone, -⟩
      · rw [hrun]
        rfl
      · cases hnone
    have hnonempty : (s.record call.now sample).sample.hasAcceptedTail = true :=
      record_stallDue hstall
    rw [WriterProgressSupervisor.drainState, hfields.2.2, hs']
    by_cases hfirst : stall ≤ drain
    · rw [if_pos hfirst, if_pos hfirst]
      have hdue : (s.record call.now sample).dueFailure call.now = some .stall :=
        dueFailure_eq_stall.2 ⟨stall, hstall, hstallDue, fun other hother _ => by
          cases hrecorded.symm.trans hother
          exact hfirst⟩
      rcases (s.record call.now sample).judge_cases call.now with
        ⟨-, htail, -⟩ | ⟨-, ⟨hother, -⟩ | ⟨-, hcase⟩ | ⟨hother, -⟩⟩
      · exact absurd htail (by rw [hnonempty]; decide)
      · cases hdue.symm.trans hother
      · rw [hcase, latch_failure]
        refine ⟨by rw [htracker], fun hnone => hreported _ hnone ?_⟩
        rw [hcase]
        exact latch_fst.2 ⟨hnone, rfl⟩
      · cases hdue.symm.trans hother
    · rw [if_neg hfirst, if_neg hfirst]
      have hdue : (s.record call.now sample).dueFailure call.now = some .drain :=
        dueFailure_eq_drain.2 ⟨drain, hrecorded, hdrainDue, fun other hother _ => by
          cases hstall.symm.trans hother
          exact Nat.lt_of_not_le hfirst⟩
      rcases (s.record call.now sample).judge_cases call.now with
        ⟨-, htail, -⟩ | ⟨-, ⟨hother, -⟩ | ⟨hother, -⟩ | ⟨-, hcase⟩⟩
      · exact absurd htail (by rw [hnonempty]; decide)
      · cases hdue.symm.trans hother
      · cases hdue.symm.trans hother
      · rw [hcase, latch_failure]
        refine ⟨rfl, fun hnone => hreported _ hnone ?_⟩
        rw [hcase]
        exact latch_fst.2 ⟨hnone, rfl⟩

/-- **The supervision is sound over any calls.** One failure is reported at most, and it stays. A
stall is reported when every observation from some time on found a tail and the same watermark, and
its deadline has come; a drain timeout when the shutdown began, every observation since found a
tail, and its deadline has come. The earlier of two deadlines decides, a drain that is over stays
as it is, and a refused call changes nothing. -/
theorem supervision_sound (deadlines : WriterDeadlines) :
    ∀ (history : ProgressHistory) (s : WriterProgressSupervisor), Supervises deadlines history s →
      failures history = s.failure.toList ∧
      (∀ (calls : List ProgressCall) failure, s.failure = some failure →
        (s.after calls).failure = some failure) ∧
      (∀ call : ProgressCall, reported (call.run s).1 = some DueFailure.stall.failure →
        ∃ since, Stalled (observations ((call, (call.run s).1) :: history)) since ∧
          saturatingAdd durationMax since deadlines.writerStallTimeout ≤ call.now) ∧
      (∀ call : ProgressCall, reported (call.run s).1 = some DueFailure.drain.failure →
        ∃ startedAt, Draining ((call, (call.run s).1) :: history) startedAt ∧
          saturatingAdd durationMax startedAt deadlines.shutdownDrainTimeout ≤ call.now) ∧
      (∀ (call : ProgressCall) reply stall drain, (call.run s).1 = .ok reply → call.sample.isSome →
        (call.run s).2.stallDue = some stall → s.drainDue = some drain →
        stall ≤ call.now → drain ≤ call.now →
        (call.run s).2.drainState = (if stall ≤ drain then .draining else .timedOut) ∧
          (s.failure = none → reported (call.run s).1 =
            some (if stall ≤ drain then DueFailure.stall.failure else DueFailure.drain.failure))) ∧
      (∀ calls : List ProgressCall, s.drainState = .drained ∨ s.drainState = .timedOut →
        (s.after calls).drainState = s.drainState) ∧
      ∀ (call : ProgressCall) error, (call.run s).1 = .error error → (call.run s).2 = s := by
  intro history s h
  have hdeadlines := h.deadlines_eq
  refine ⟨h.failures_eq, fun calls _ => after_failure calls, fun call hreported => ?_,
    fun call hreported => ?_, fun call reply stall drain => run_both_due, fun calls hover => ?_,
    fun call error herror => ?_⟩
  · rcases reported_cases hreported with
      ⟨sample, due, -, hdue, hfailure, hsince, -⟩ | ⟨outcome, hfailure⟩
    · cases due with
      | drain => cases hfailure
      | stall =>
        obtain ⟨deadline, hdeadline, hnow, -⟩ := dueFailure_eq_stall.1 hdue
        obtain ⟨since, hstalled, rfl⟩ := Option.map_eq_some_iff.1 hdeadline
        exact ⟨since, (h.tracked.run call).stalled since (hsince.trans hstalled), hdeadlines ▸ hnow⟩
    · cases outcome <;> cases hfailure
  · rcases reported_cases hreported with
      ⟨sample, due, hsample, hdue, hfailure, -, hreply, htail⟩ | ⟨outcome, hfailure⟩
    · cases due with
      | stall => cases hfailure
      | drain =>
        obtain ⟨deadline, hdeadline, hnow, -⟩ := dueFailure_eq_drain.1 hdue
        obtain ⟨startedAt, hstarted, rfl⟩ := drainDue_eq_some.1 hdeadline
        refine ⟨startedAt, (h.tracked.draining startedAt hstarted).cons fun o ho => ?_,
          hdeadlines ▸ hnow⟩
        rw [hreply, observation, hsample] at ho
        cases ho
        exact htail startedAt hstarted
    · cases outcome <;> cases hfailure
  · have hdrain : s.drain = .drained ∨ s.drain = .timedOut := by
      unfold WriterProgressSupervisor.drainState at hover
      cases hs : s.drain <;> simp [hs] at hover ⊢
    unfold WriterProgressSupervisor.drainState
    rw [after_drain calls hdrain]
  · rcases call.run_cases s with ⟨error, hrun⟩ | ⟨now, s', -, -, -, hrun⟩ |
      ⟨sample, failure, s', -, -, -, hrun | ⟨outcome, -, hrun⟩⟩
    · rw [hrun]
    · rw [hrun] at herror
      cases herror
    · rw [hrun] at herror
      cases herror
    · rw [hrun] at herror
      cases herror

/-- Shutdown begins with a tail, and the tail is still there when the drain timeout is over. -/
theorem supervision_sound_timed_out :
    ∃ (deadlines : WriterDeadlines) (history : ProgressHistory) (s : WriterProgressSupervisor),
      Supervises deadlines history s ∧ s.drain = .draining 1 ∧
      ∃ startedAt, Draining ((.observe 11 ⟨6, 1⟩, .ok (.outcome (some DueFailure.drain.failure))) ::
        history) startedAt ∧
          saturatingAdd durationMax startedAt deadlines.shutdownDrainTimeout ≤ 11 := by
  have hrun : Supervises ⟨30, 10, by decide, by decide⟩ _ _ :=
    .call (.call .new (.observe 0 ⟨5, 2⟩)) (.beginShutdown 1)
  obtain ⟨-, -, -, hdrain, -⟩ := supervision_sound _ _ _ hrun
  exact ⟨_, _, _, hrun, rfl, hdrain (.observe 11 ⟨6, 1⟩) (by decide +kernel)⟩

/-- The end of the clock cuts a timeout short. -/
theorem stall_at_durationMax :
    ∃ (deadlines : WriterDeadlines) (history : ProgressHistory) (s : WriterProgressSupervisor)
      (call : ProgressCall), Supervises deadlines history s ∧
        reported (call.run s).1 = some DueFailure.stall.failure ∧ call.now ≤ durationMax ∧
        deadlines.writerStallTimeout ≤ durationMax ∧
        ∀ since, Stalled (observations ((call, (call.run s).1) :: history)) since →
          call.now - since < deadlines.writerStallTimeout := by
  refine ⟨⟨durationMax, 1, by decide, by decide⟩, _, _, .observe durationMax ⟨0, 1⟩,
    .call .new (.observe 1 ⟨0, 1⟩), by decide +kernel, Nat.le_refl _, Nat.le_refl _, ?_⟩
  rintro since ⟨interval, first, older, hsplit, -⟩
  have hmem : (since, first) ∈ [(durationMax, (⟨0, 1⟩ : WriterProgressSample)), (1, ⟨0, 1⟩)] := by
    have hobservations : [(durationMax, (⟨0, 1⟩ : WriterProgressSample)), (1, ⟨0, 1⟩)] =
        interval ++ (since, first) :: older := hsplit ▸ (by decide +kernel)
    rw [hobservations]
    simp
  have hsince : since = durationMax ∨ since = 1 := by
    simpa using List.mem_map_of_mem (f := Prod.fst) hmem
  rcases hsince with rfl | rfl
  · decide
  · decide

end Troupe.Store
