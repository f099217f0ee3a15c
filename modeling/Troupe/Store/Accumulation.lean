import Mathlib.Algebra.BigOperators.Group.List.Basic
import Mathlib.Data.List.Induction
import Troupe.Store.Batch

/-! # Batches in the making

The batches a `BatchAccumulator` emits (`store/batch.rs`), over any sequence of `push`, `poll` and
`flush` at any readings of the clock.

* `BatchWorld` keeps, as history, the events that were pushed, each with the reading at its push, and
  the batches that were emitted, each with the call that answered with it.
* `push` and `poll` build a batch without the checks of `EventBatch::new`. What `Gathers` says of the
  pending events is that these checks would pass.

Result: **`batch_accumulation`**. -/

namespace Troupe.Store

open Troupe.Core Troupe.Lib

/-! ## Calls -/

/-- An event that was pushed, and the reading of the clock. -/
abbrev Push := AcceptedDiagnosticEvent × Nat

/-- A call of a method of the accumulator. -/
inductive AccumulatorCall where
  | push (event : AcceptedDiagnosticEvent) (now : Nat)
  | poll (now : Nat)
  | flush

/-- What the call answers, and what it makes of the accumulator. -/
def BatchAccumulator.answer (accumulator : BatchAccumulator) :
    AccumulatorCall → Except BatchError (Option TriggeredBatch) × BatchAccumulator
  | .push event now => accumulator.push event now
  | .poll now => accumulator.poll now
  | .flush => accumulator.flush

/-- An accumulator and what went through it. -/
structure BatchWorld where
  accumulator : BatchAccumulator
  pushed : List Push
  emitted : List (TriggeredBatch × AccumulatorCall)

namespace BatchWorld

/-- A new accumulator. -/
def new : BatchWorld := ⟨.new, [], []⟩

/-- The event a call pushes, when it succeeds. -/
def pushOf {ε α : Type} : AccumulatorCall → Except ε α → List Push
  | .push event now, .ok _ => [(event, now)]
  | _, _ => []

/-- The batch a call answers with. -/
def batchOf {ε α : Type} : Except ε (Option α) → List α
  | .ok (some batch) => [batch]
  | _ => []

def perform (w : BatchWorld) (call : AccumulatorCall) : BatchWorld where
  accumulator := (w.accumulator.answer call).2
  pushed := w.pushed ++ pushOf call (w.accumulator.answer call).1
  emitted := w.emitted ++ (batchOf (w.accumulator.answer call).1).map (·, call)

/-- The world after the calls. -/
def run (calls : List AccumulatorCall) : BatchWorld := calls.foldl perform .new

theorem run_concat (calls : List AccumulatorCall) (call : AccumulatorCall) :
    run (calls ++ [call]) = (run calls).perform call := List.foldl_concat ..

end BatchWorld

/-! ## Batches -/

/-- The events that were pushed. -/
def eventsOf (pushes : List Push) : List AcceptedDiagnosticEvent := pushes.map Prod.fst

/-- The canonical bytes of the events that were pushed. -/
def bytesOf (pushes : List Push) : Nat := (pushes.map fun push => push.1.canonicalBytes.length).sum

/-- The oldest of the events has waited long enough. -/
def Aged (pushes : List Push) (now : Nat) : Prop :=
  ∃ oldest ∈ pushes.head?, oldest.2 + maxBatchAge ≤ now

/-- The reason a batch is emitted for, at the call that emits it. -/
inductive TriggerMet (pushes : List Push) : BatchTrigger → AccumulatorCall → Prop
  | pushedLate {event : AcceptedDiagnosticEvent} {now : Nat} (aged : Aged pushes now) :
      TriggerMet pushes .oldestAge (.push event now)
  | polledLate {now : Nat} (aged : Aged pushes now) : TriggerMet pushes .oldestAge (.poll now)
  | full {event : AcceptedDiagnosticEvent} {now : Nat} (young : ¬Aged pushes now)
      (many : pushes.length = maxBatchEvents) : TriggerMet pushes .eventCount (.push event now)
  | heavy {event : AcceptedDiagnosticEvent} {now : Nat} (young : ¬Aged pushes now)
      (few : pushes.length < maxBatchEvents) (large : maxBatchCanonicalBytes ≤ bytesOf pushes) :
      TriggerMet pushes .canonicalBytes (.push event now)
  | flushed : TriggerMet pushes .explicitFlush .flush

/-- The batch is that of these events. -/
structure Emits (emission : TriggeredBatch × AccumulatorCall) (pushes : List Push) : Prop where
  events : emission.1.batch.events = eventsOf pushes
  nonempty : pushes ≠ []
  count : pushes.length ≤ maxBatchEvents
  /-- Only the last event may bring the batch to its size. -/
  bytes : bytesOf pushes.dropLast < maxBatchCanonicalBytes
  /-- It passes the checks of `EventBatch::new`, which counts the same bytes. -/
  checked : EventBatch.new (eventsOf pushes) = .ok emission.1.batch
  trigger : TriggerMet pushes emission.1.trigger emission.2

/-- What is pending are the events of these pushes, and they would make a batch. -/
structure Gathers (accumulator : BatchAccumulator) (pushes : List Push) : Prop where
  pending : accumulator.pending = eventsOf pushes
  bytes : accumulator.pendingBytes = bytesOf pushes
  oldest : accumulator.oldestAt = pushes.head?.map Prod.snd
  measured : ∀ first ∈ pushes.head?,
    measureBatch first.1.runId none 0 (eventsOf pushes) = .ok (bytesOf pushes)
  run : ∀ first ∈ pushes.head?, accumulator.runId = some first.1.runId
  last : ∀ last ∈ pushes.getLast?, accumulator.lastSequence = some last.1.sequence

/-- Between two calls there is room for one more event. -/
structure Holds (accumulator : BatchAccumulator) (pushes : List Push) : Prop
    extends Gathers accumulator pushes where
  few : pushes.length < maxBatchEvents
  light : bytesOf pushes < maxBatchCanonicalBytes

section Gather

variable {accumulator : BatchAccumulator} {pushes : List Push} {event : AcceptedDiagnosticEvent}
  {now : Nat}

theorem eventsOf_concat (pushes : List Push) (event : AcceptedDiagnosticEvent) (now : Nat) :
    eventsOf (pushes ++ [(event, now)]) = eventsOf pushes ++ [event] := List.map_append ..

theorem bytesOf_concat (pushes : List Push) (event : AcceptedDiagnosticEvent) (now : Nat) :
    bytesOf (pushes ++ [(event, now)]) = bytesOf pushes + event.canonicalBytes.length := by
  unfold bytesOf
  rw [List.map_append, List.sum_append]
  rfl

/-- One event more is measured. -/
theorem measureBatch_concat {runId : CanonicalUuid} {events : List AcceptedDiagnosticEvent}
    {previous : Option Nat} {start bytes : Nat}
    (h : measureBatch runId previous start events = .ok bytes)
    (hfollows : followsInBatch runId
      ((events.getLast?.map (·.sequence)).or previous) event = .ok ())
    (hbytes : bytes + event.canonicalBytes.length ≤ usizeMax) :
    measureBatch runId previous start (events ++ [event]) =
      .ok (bytes + event.canonicalBytes.length) := by
  induction events generalizing previous start with
  | nil =>
    cases h
    rw [List.getLast?_nil, Option.map_none, Option.none_or] at hfollows
    rw [List.nil_append, measureBatch, hfollows, ok_bind, checkedAdd_of_le hbytes]
    rfl
  | cons first rest ih =>
    rw [List.cons_append, measureBatch]
    rw [measureBatch] at h
    cases hfirst : followsInBatch runId previous first with
    | error error =>
      rw [hfirst] at h
      cases h
    | ok =>
      rw [hfirst, ok_bind] at h
      rw [ok_bind]
      cases hadd : checkedAdd usizeMax start first.canonicalBytes.length with
      | none =>
        rw [hadd] at h
        cases h
      | some added =>
        rw [hadd] at h
        refine ih h ?_
        rw [← hfollows]
        congr 1
        cases rest with
        | nil => rfl
        | cons second rest =>
          rw [List.getLast?_cons_cons, Option.or_eq_left_of_isSome (by simp),
            Option.or_eq_left_of_isSome (by simp)]

theorem Gathers.observe (h : Gathers accumulator pushes) (now : Nat) :
    Gathers { accumulator with lastObservedAt := some now } pushes :=
  ⟨h.pending, h.bytes, h.oldest, h.measured, h.run, h.last⟩

theorem validateNext_eq_ok (h : accumulator.validateNext event = .ok ()) :
    followsInBatch (accumulator.runId.getD event.runId) accumulator.lastSequence event = .ok () := by
  unfold BatchAccumulator.validateNext at h
  cases hrun : accumulator.runId <;> rw [hrun] at h <;> exact h

theorem runId_of_follows {runId : CanonicalUuid} {previous : Option Nat}
    (h : followsInBatch runId previous event = .ok ()) : event.runId = runId := by
  unfold followsInBatch at h
  rw [ite_error_eq_ok, not_not] at h
  exact h.1

/-- Nothing is asked of the sequence of a first event. -/
theorem follows_first (event : AcceptedDiagnosticEvent) :
    followsInBatch event.runId none event = .ok () := by
  unfold followsInBatch
  rw [if_neg (not_not.mpr rfl)]

/-- **One event more is gathered.** -/
theorem Gathers.append (h : Gathers accumulator pushes)
    (hvalid : accumulator.validateNext event = .ok ())
    (hbytes : bytesOf pushes + event.canonicalBytes.length ≤ usizeMax) :
    Gathers (accumulator.append event now (bytesOf pushes + event.canonicalBytes.length))
      (pushes ++ [(event, now)]) := by
  have hfollows := validateNext_eq_ok hvalid
  have hrun := runId_of_follows hfollows
  have hhead : (pushes ++ [(event, now)]).head? = pushes.head?.or (some (event, now)) := by
    cases pushes <;> rfl
  refine ⟨?_, (bytesOf_concat pushes event now).symm, ?_, ?_, ?_, ?_⟩
  · rw [eventsOf_concat, ← h.pending]
    rfl
  · rw [hhead]
    show some (accumulator.oldestAt.getD now) = _
    rw [h.oldest]
    cases pushes.head? <;> rfl
  · rw [hhead, eventsOf_concat, bytesOf_concat]
    cases hfirst : pushes.head? with
    | none =>
      have hnil : pushes = [] := List.head?_eq_none_iff.mp hfirst
      rintro first ⟨⟩
      subst hnil
      exact measureBatch_concat rfl (follows_first event) hbytes
    | some first =>
      rintro first' ⟨⟩
      refine measureBatch_concat (h.measured _ hfirst) ?_ hbytes
      have hlast : (eventsOf pushes).getLast?.map (·.sequence) = accumulator.lastSequence := by
        cases hends : pushes.getLast? with
        | none =>
          rw [List.getLast?_eq_none_iff.mp hends] at hfirst
          cases hfirst
        | some last =>
          rw [h.last last hends]
          unfold eventsOf
          rw [List.getLast?_map, hends]
          rfl
      rw [hlast, Option.or_none]
      rw [h.run _ hfirst, Option.getD_some] at hfollows
      exact hfollows
  · rw [hhead]
    cases hfirst : pushes.head? with
    | none =>
      rintro first ⟨⟩
      rfl
    | some first =>
      rintro first' ⟨⟩
      rw [h.run _ hfirst, Option.getD_some] at hrun
      exact congrArg some hrun
  · rintro last hlast
    rw [List.getLast?_concat] at hlast
    cases hlast
    rfl

/-- What is gathered passes the checks of a batch. -/
theorem Gathers.checked (h : Gathers accumulator pushes) (hne : accumulator.pending ≠ []) :
    EventBatch.new (eventsOf pushes) = .ok ⟨accumulator.pending, accumulator.pendingBytes, hne⟩ := by
  have hpending := h.pending
  have hbytes := h.bytes
  generalize accumulator.pending = pending at hpending hne
  generalize accumulator.pendingBytes = bytes at hbytes
  subst hpending hbytes
  cases pushes with
  | nil => exact absurd rfl hne
  | cons first rest =>
    have hmeasured := h.measured first rfl
    have hcons : eventsOf (first :: rest) = first.1 :: eventsOf rest := rfl
    simp only [hcons] at hmeasured ⊢
    unfold EventBatch.new
    dsimp only
    rw [hmeasured]
    rfl

theorem aged_iff (h : Gathers accumulator pushes) (now : Nat) :
    accumulator.oldestIsDue now = true ↔ Aged pushes now := by
  have hpositive : 0 < maxBatchAge := by decide
  unfold BatchAccumulator.oldestIsDue Aged
  rw [h.oldest]
  cases pushes.head? with
  | none => simp
  | some oldest =>
    simp only [Option.map_some, Option.any_some, decide_eq_true_eq, Option.mem_def,
      Option.some.injEq, exists_eq_left']
    omega

/-- **What is taken is a batch, and nothing is left.** -/
theorem Gathers.take (h : Gathers accumulator pushes) {trigger : BatchTrigger}
    {call : AccumulatorCall} (hne : accumulator.pending ≠ []) (hcount : pushes.length ≤ maxBatchEvents)
    (hbytes : bytesOf pushes.dropLast < maxBatchCanonicalBytes)
    (htrigger : TriggerMet pushes trigger call) :
    Emits ((accumulator.take trigger hne).1, call) pushes ∧
      Holds (accumulator.take trigger hne).2 [] := by
  have hnonempty : pushes ≠ [] := by
    rintro rfl
    exact hne h.pending
  exact ⟨⟨h.pending, hnonempty, hcount, hbytes, h.checked hne, htrigger⟩,
    ⟨⟨rfl, rfl, rfl, by simp, by simp, by simp⟩, by decide, by decide⟩⟩

theorem bytesOf_dropLast_le (pushes : List Push) : bytesOf pushes.dropLast ≤ bytesOf pushes := by
  cases pushes using List.reverseRecOn with
  | nil => exact Nat.le_refl _
  | append_singleton pushes push =>
    rw [List.dropLast_concat, bytesOf_concat]
    exact Nat.le_add_right _ _

end Gather

/-! ## Calls -/

/-- A call that should gather `pushes` in all: a batch is made of them, or they are held. -/
def Answers (before pushes : List Push) (call : AccumulatorCall) :
    Except BatchError (Option TriggeredBatch) × BatchAccumulator → Prop
  | (.error _, accumulator) => Holds accumulator before
  | (.ok none, accumulator) => Holds accumulator pushes
  | (.ok (some triggered), accumulator) => Emits (triggered, call) pushes ∧ Holds accumulator []

section Calls

variable {accumulator : BatchAccumulator} {pushes : List Push} {event : AcceptedDiagnosticEvent}
  {now : Nat}

theorem observeTime_cases (h : Holds accumulator pushes) (now : Nat) :
    (∃ error, accumulator.observeTime now = (.error error, accumulator)) ∨
      ∃ observed, accumulator.observeTime now = (.ok (), observed) ∧ Holds observed pushes ∧
        observed.runId = accumulator.runId ∧ observed.lastSequence = accumulator.lastSequence := by
  unfold BatchAccumulator.observeTime
  split
  · exact .inl ⟨_, rfl⟩
  · exact .inr ⟨_, rfl, ⟨h.toGathers.observe now, h.few, h.light⟩, rfl, rfl⟩

/-- The trigger of a push, when there is one. -/
theorem pushTrigger_met (event : AcceptedDiagnosticEvent) (now : Nat)
    (h : Gathers accumulator pushes) (hcount : pushes.length ≤ maxBatchEvents) :
    match accumulator.pushTrigger now with
    | none => pushes.length < maxBatchEvents ∧ bytesOf pushes < maxBatchCanonicalBytes
    | some trigger => TriggerMet pushes trigger (.push event now) := by
  have hlength : accumulator.pending.length = pushes.length := by
    rw [h.pending]
    exact List.length_map _
  unfold BatchAccumulator.pushTrigger
  rw [hlength, h.bytes]
  by_cases haged : accumulator.oldestIsDue now = true
  · rw [if_pos haged]
    exact .pushedLate ((aged_iff h now).mp haged)
  · have hyoung : ¬Aged pushes now := fun hold => haged ((aged_iff h now).mpr hold)
    rw [if_neg haged]
    by_cases hmany : maxBatchEvents ≤ pushes.length
    · rw [if_pos hmany]
      exact .full hyoung (Nat.le_antisymm hcount hmany)
    · rw [if_neg hmany]
      by_cases hlarge : maxBatchCanonicalBytes ≤ bytesOf pushes
      · rw [if_pos hlarge]
        exact .heavy hyoung (Nat.lt_of_not_le hmany) hlarge
      · rw [if_neg hlarge]
        exact ⟨Nat.lt_of_not_le hmany, Nat.lt_of_not_le hlarge⟩

theorem push_answers (h : Holds accumulator pushes) (event : AcceptedDiagnosticEvent) (now : Nat) :
    Answers pushes (pushes ++ [(event, now)]) (.push event now) (accumulator.push event now) := by
  unfold BatchAccumulator.push
  cases hvalid : accumulator.validateNext event with
  | error error => exact h
  | ok =>
    rcases observeTime_cases h now with ⟨error, hobserve⟩ | ⟨observed, hobserve, hheld, hrun, hlast⟩
    · rw [hobserve]
      exact h
    · have hvalid' : observed.validateNext event = .ok () := by
        rw [← hvalid]
        unfold BatchAccumulator.validateNext
        rw [hrun, hlast]
      rw [hobserve]
      dsimp only
      rw [hheld.bytes]
      cases hadd : checkedAdd usizeMax (bytesOf pushes) event.canonicalBytes.length with
      | none => exact hheld
      | some added =>
        obtain ⟨hfits, rfl⟩ := checkedAdd_eq_some.mp hadd
        have happended : Gathers (observed.append event now _) (pushes ++ [(event, now)]) :=
          hheld.toGathers.append hvalid' hfits
        have hcount : (pushes ++ [(event, now)]).length ≤ maxBatchEvents := by
          rw [List.length_append, List.length_singleton]
          exact hheld.few
        have hmet := pushTrigger_met event now happended hcount
        dsimp only
        generalize htrigger : (observed.append event now
          (bytesOf pushes + event.canonicalBytes.length)).pushTrigger now = trigger at hmet
        cases trigger with
        | none => exact ⟨happended, hmet.1, hmet.2⟩
        | some trigger =>
          refine happended.take _ hcount ?_ hmet
          rw [List.dropLast_concat]
          exact hheld.light

theorem poll_answers (h : Holds accumulator pushes) (now : Nat) :
    Answers pushes pushes (.poll now) (accumulator.poll now) := by
  unfold BatchAccumulator.poll
  rcases observeTime_cases h now with ⟨error, hobserve⟩ | ⟨observed, hobserve, hheld, -, -⟩
  · rw [hobserve]
    exact h
  · rw [hobserve]
    dsimp only
    split
    next haged =>
      exact hheld.toGathers.take _ (Nat.le_of_lt hheld.few) (Nat.lt_of_le_of_lt (bytesOf_dropLast_le pushes) hheld.light)
        (.polledLate ((aged_iff hheld.toGathers now).mp haged))
    next => exact hheld

theorem flush_answers (h : Holds accumulator pushes) :
    Answers pushes pushes .flush accumulator.flush := by
  unfold BatchAccumulator.flush
  split
  next => exact h
  next =>
    exact h.toGathers.take _ (Nat.le_of_lt h.few) (Nat.lt_of_le_of_lt (bytesOf_dropLast_le pushes) h.light)
      .flushed

/-- A call that fails changes nothing but the reading of the clock. -/
theorem answer_error {call : AccumulatorCall} {error : BatchError}
    (h : (accumulator.answer call).1 = .error error) :
    (accumulator.answer call).2.pending = accumulator.pending ∧
      (accumulator.answer call).2.pendingBytes = accumulator.pendingBytes ∧
      (accumulator.answer call).2.oldestAt = accumulator.oldestAt := by
  have hobserved (now : Nat) : (accumulator.observeTime now).2.pending = accumulator.pending ∧
      (accumulator.observeTime now).2.pendingBytes = accumulator.pendingBytes ∧
      (accumulator.observeTime now).2.oldestAt = accumulator.oldestAt := by
    unfold BatchAccumulator.observeTime
    split <;> exact ⟨rfl, rfl, rfl⟩
  cases call with
  | push event now =>
    simp only [BatchAccumulator.answer] at h ⊢
    unfold BatchAccumulator.push at h ⊢
    cases hvalid : accumulator.validateNext event with
    | error error => exact ⟨rfl, rfl, rfl⟩
    | ok =>
      rw [hvalid] at h
      have hkept := hobserved now
      generalize accumulator.observeTime now = result at h hkept
      obtain ⟨answer, observed⟩ := result
      cases answer with
      | error error => exact hkept
      | ok =>
        dsimp only at h hkept ⊢
        cases hadd : checkedAdd usizeMax observed.pendingBytes event.canonicalBytes.length with
        | none => exact hkept
        | some pendingBytes =>
          rw [hadd] at h
          dsimp only at h
          split at h <;> cases h
  | poll now =>
    simp only [BatchAccumulator.answer] at h ⊢
    unfold BatchAccumulator.poll at h ⊢
    have hkept := hobserved now
    generalize accumulator.observeTime now = result at h hkept
    obtain ⟨answer, observed⟩ := result
    cases answer with
    | error error => exact hkept
    | ok =>
      dsimp only at h
      split at h <;> cases h
  | flush =>
    simp only [BatchAccumulator.answer] at h
    unfold BatchAccumulator.flush at h
    split at h <;> cases h

end Calls

/-! ## Runs -/

/-- The pushes are those of the batches, one after the other, and of what is held. -/
def Accumulates (w : BatchWorld) : Prop :=
  ∃ segments held, w.pushed = segments.flatten ++ held ∧
    List.Forall₂ Emits w.emitted segments ∧ Holds w.accumulator held

/-- What a call that answers as it should makes of the world. -/
theorem accumulates_answer {w : BatchWorld} {segments : List (List Push)} {held more : List Push}
    {call : AccumulatorCall} (hpushed : w.pushed = segments.flatten ++ held)
    (hemitted : List.Forall₂ Emits w.emitted segments)
    (hanswer : Answers held (held ++ more) call (w.accumulator.answer call))
    (hmore : ∀ answer, (w.accumulator.answer call).1 = .ok answer →
      BatchWorld.pushOf call (w.accumulator.answer call).1 = more) :
    Accumulates (w.perform call) := by
  unfold BatchWorld.perform
  generalize w.accumulator.answer call = result at hanswer hmore
  obtain ⟨answer, accumulator⟩ := result
  cases answer with
  | error error =>
    refine ⟨segments, held, ?_, ?_, hanswer⟩
    · show w.pushed ++ BatchWorld.pushOf call (.error error) = _
      cases call <;> simp [BatchWorld.pushOf, hpushed]
    · simpa [BatchWorld.batchOf] using hemitted
  | ok batch =>
    have hpushes := hmore batch rfl
    dsimp only at hpushes ⊢
    cases batch with
    | none =>
      refine ⟨segments, held ++ more, ?_, ?_, hanswer⟩
      · dsimp only
        rw [hpushes, hpushed, List.append_assoc]
      · simpa [BatchWorld.batchOf] using hemitted
    | some triggered =>
      refine ⟨segments ++ [held ++ more], [], ?_, ?_, hanswer.2⟩
      · dsimp only
        rw [hpushes, hpushed, List.flatten_append, List.flatten_singleton, List.append_nil,
          List.append_assoc]
      · exact List.rel_append hemitted (.cons hanswer.1 .nil)

/-- **Every call keeps what was pushed.** -/
theorem accumulates_perform {w : BatchWorld} (h : Accumulates w) (call : AccumulatorCall) :
    Accumulates (w.perform call) := by
  obtain ⟨segments, held, hpushed, hemitted, hheld⟩ := h
  cases call with
  | push event now =>
    refine accumulates_answer hpushed hemitted (push_answers hheld event now) fun answer hok => ?_
    rw [hok]
    rfl
  | poll now =>
    have hpoll : Answers held (held ++ []) (.poll now) (w.accumulator.answer (.poll now)) := by
      rw [List.append_nil]
      exact poll_answers hheld now
    exact accumulates_answer hpushed hemitted hpoll fun _ _ => rfl
  | flush =>
    have hflush : Answers held (held ++ []) .flush (w.accumulator.answer .flush) := by
      rw [List.append_nil]
      exact flush_answers hheld
    exact accumulates_answer hpushed hemitted hflush fun _ _ => rfl

theorem accumulates_run (calls : List AccumulatorCall) : Accumulates (.run calls) := by
  induction calls using List.reverseRecOn with
  | nil =>
    exact ⟨[], [], rfl, .nil, ⟨⟨rfl, rfl, rfl, by simp, by simp, by simp⟩, by decide, by decide⟩⟩
  | append_singleton calls call ih =>
    rw [BatchWorld.run_concat]
    exact accumulates_perform ih call

/-- **Batch accumulation loses nothing**: the batches that were emitted, and then what is pending, are
the events that were pushed; each is a batch its events make, emitted for a reason that was there; what
is pending is below the limits of a batch; and a call that fails leaves it. -/
theorem batch_accumulation (calls : List AccumulatorCall) :
    (∃ segments held, (BatchWorld.run calls).pushed = segments.flatten ++ held ∧
        List.Forall₂ Emits (BatchWorld.run calls).emitted segments ∧
        Holds (BatchWorld.run calls).accumulator held) ∧
      (BatchWorld.run calls).emitted.flatMap (·.1.batch.events) ++
          (BatchWorld.run calls).accumulator.pending =
        eventsOf (BatchWorld.run calls).pushed ∧
      ∀ call error, ((BatchWorld.run calls).accumulator.answer call).1 = .error error →
        ((BatchWorld.run calls).accumulator.answer call).2.pending =
            (BatchWorld.run calls).accumulator.pending ∧
          ((BatchWorld.run calls).accumulator.answer call).2.pendingBytes =
            (BatchWorld.run calls).accumulator.pendingBytes ∧
          ((BatchWorld.run calls).accumulator.answer call).2.oldestAt =
            (BatchWorld.run calls).accumulator.oldestAt := by
  obtain ⟨segments, held, hpushed, hemitted, hheld⟩ := accumulates_run calls
  refine ⟨⟨segments, held, hpushed, hemitted, hheld⟩, ?_, fun _ _ => answer_error⟩
  have hevents (emitted : List (TriggeredBatch × AccumulatorCall)) (segments : List (List Push))
      (h : List.Forall₂ Emits emitted segments) :
      emitted.flatMap (·.1.batch.events) = eventsOf segments.flatten := by
    induction h with
    | nil => rfl
    | cons hemits _ ih =>
      rw [List.flatMap_cons, hemits.events, ih, List.flatten_cons]
      exact (List.map_append ..).symm
  rw [hevents _ _ hemitted, hheld.pending, hpushed]
  exact (List.map_append ..).symm

end Troupe.Store
