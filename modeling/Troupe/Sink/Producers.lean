import Troupe.Sink.Gate

/-! # What the producers did

The books of the sink's queue are those of the conservation module, and what is offered to the queue is
what the producers' calls offered.

Results: **`solvent_world`** and **`booked_step`**. -/

namespace Troupe.Sink

open Troupe.Lib

variable {V : Type}

/-! ## The queue -/

section Queue

variable {s s' : SinkState V} {w w' : SinkWorld V}

/-- The queue of the sink stays, or takes a step. -/
def QueueMoves (s s' : SinkState V) : Prop :=
  (s'.queue = s.queue ∧ s'.budget = s.budget) ∨ QueueStep s.budget s.queue s'.budget s'.queue

theorem discardQueued_moves (hunlocked : s.queue.admission = none) :
    QueueStep s.budget s.queue s.discardQueued.budget s.discardQueued.queue :=
  .discard hunlocked rfl

theorem enqueue_moves {call call' : EnqueueCall V} (h : EnqueueStep s call s' call') :
    QueueMoves s s' := by
  cases h
  case sequence event _ _ =>
    obtain ⟨last, failure, hrecord⟩ := recordEnqueueSequence_spec s event.item.sequence
    rw [hrecord]
    exact .inl ⟨rfl, rfl⟩
  case contend event carries => exact .inr (.contend event)
  case beginAdmit event queue budget carries unlocked begins =>
    exact .inr (.beginAdmit event unlocked begins)
  case admitPass event plan queue budget carries locked passes => exact .inr (.admitPass locked passes)
  case discard stopped unlocked => exact .inr (discardQueued_moves unlocked)
  all_goals exact .inl ⟨rfl, rfl⟩

theorem driver_moves {d d' : Driver} (h : DriverStep s d s' d') : QueueMoves s s' := by
  have hcomplete {ticket : Nat} {answer : Except QueueAccessError Unit}
      {queue : TrackedQueue (DispatchEvent V)} {budget : RuntimeBudget}
      (unlocked : s.queue.admission = none)
      (completes : s.queue.completeCallback s.budget ticket = (answer, queue, budget)) :
      QueueStep s.budget s.queue budget queue := by
    cases completes
    exact .completeCallback ticket unlocked rfl
  cases h with
  | dispatch polling running unlocked begins free => exact .inr (.beginCallback unlocked begins)
  | dispatchBusy polling running unlocked begins busy => exact .inr (.beginCallback unlocked begins)
  | stop idle stopped unlocked => exact .inr (discardQueued_moves unlocked)
  | complete settling active unlocked completes => exact .inr (hcomplete unlocked completes)
  | completeError settling active unlocked completes => exact .inr (hcomplete unlocked completes)
  | failComplete failing active unlocked completes => exact .inr (hcomplete unlocked completes)
  | failError failing active unlocked completes => exact .inr (hcomplete unlocked completes)
  | discard discarding unlocked discards => exact .inr (discardQueued_moves unlocked)
  | discardError discarding unlocked discards => exact .inr (discardQueued_moves unlocked)
  | _ => exact .inl ⟨rfl, rfl⟩

/-- The queues of the runtime, this sink's first. -/
def SinkWorld.runtime (w : SinkWorld V) : SinkRuntime (DispatchEvent V) :=
  ⟨w.state.budget, w.state.queue :: w.others⟩

/-- Every step keeps the books of the queues. -/
theorem solvent_world {limits : BudgetLimits} (h : Solvent limits w.runtime)
    (hstep : WorldStep w w') : Solvent limits w'.runtime := by
  have hmoves {state : SinkState V} (hmoves : QueueMoves w.state state) :
      Solvent limits ⟨state.budget, state.queue :: w.others⟩ := by
    rcases hmoves with ⟨hqueue, hbudget⟩ | hmove
    · rw [hqueue, hbudget]
      exact h
    · exact solvent_step h (@SinkStep.use _ w.state.budget _ [] w.others w.state.queue _ hmove)
  cases hstep with
  | enqueueCall calls step => exact hmoves (enqueue_moves step)
  | drive step => exact hmoves (driver_moves step)
  | sealCall calls step =>
    rw [(seal_frame step).1]
    exact h
  | closeCall calls step =>
    rw [(close_frame step).1]
    exact h
  | discard unlocked => exact hmoves (.inr (discardQueued_moves unlocked))
  | other step => exact solvent_step h step
  | _ => exact h

end Queue

/-! ## What the producers did -/

/-- The books of the producers' calls. -/
structure Booked (w : SinkWorld V) : Prop where
  offered : (w.state.queue.offered : Multiset (QueueEvent (DispatchEvent V))) =
    w.enqueues.filterMap EnqueueCall.offeredEvent
  gaps : w.state.producers.sourceGaps =
    min (w.enqueues.map (EnqueueCall.recorded EnqueueRequest.gaps)).sum usizeMax
  truncated : w.state.producers.truncatedPayloads =
    min (w.enqueues.map (EnqueueCall.recorded EnqueueRequest.truncated)).sum usizeMax
  terminal : w.state.producers.terminalAccounted = true →
    ∃ call ∈ w.enqueues, call.request.isTerminal = true ∧ call.stage.claims = true
  /-- A seal for a finished act is past its check of the terminal event. -/
  cause : ∀ call ∈ w.seals, call.facts.cause = .actFinished →
    call.stage ≠ .entering → (∀ error, call.stage ≠ .returned (.error error)) →
      w.state.producers.terminalAccounted = true
  facts : ∀ facts, w.state.gate.sealFacts = some facts → facts.cause = .actFinished →
    w.state.producers.terminalAccounted = true

section Booked

variable {s s' : SinkState V} {w w' : SinkWorld V} {call call' : EnqueueCall V}

/-- A part of `try_admit` offers its event when it returns. -/
theorem advance_offered {T : Type} {q q' : TrackedQueue T} {budget budget' : RuntimeBudget}
    {event : QueueEvent T} {plan : EvictionPlan} {progress : AdmitProgress T}
    (h : q.advance budget event plan progress = (budget', q')) :
    q'.offered =
      q.offered ++ if (EnqueueStage.afterAdmit progress).performed then [event] else [] := by
  cases progress <;> cases h
  · rfl
  · exact (List.append_nil _).symm
  · rfl

/-- A producer's step books the event it offers. -/
theorem enqueue_offered (h : EnqueueStep s call s' call') :
    (s'.queue.offered : Multiset (QueueEvent (DispatchEvent V))) + call.offeredEvent.toList =
      s.queue.offered + call'.offeredEvent.toList := by
  have hadmit {request : EnqueueRequest V} {event : QueueEvent (DispatchEvent V)}
      {queue : TrackedQueue (DispatchEvent V)} {progress : AdmitProgress (DispatchEvent V)}
      (carries : request.event? = some event)
      (hoffered : queue.offered = s.queue.offered ++
        if (EnqueueStage.afterAdmit progress).performed then [event] else []) :
      (queue.offered : Multiset (QueueEvent (DispatchEvent V))) =
        s.queue.offered +
          (EnqueueCall.offeredEvent ⟨request, .afterAdmit progress⟩).toList := by
    rw [hoffered, ← Multiset.coe_add]
    unfold EnqueueCall.offeredEvent
    cases (EnqueueStage.afterAdmit progress).performed <;> simp [carries]
  cases h
  case sequence request stage event carries ready =>
    obtain ⟨last, failure, hrecord⟩ := recordEnqueueSequence_spec s event.item.sequence
    rw [hrecord, ready]
    cases request.isTerminal <;> rfl
  case contend request event carries =>
    have hoffered : EnqueueCall.offeredEvent
        ⟨request, .offered (.dropped .queueContended event.metadata.dropDelta)⟩ = some event :=
      carries
    rw [hoffered, Option.toList_some, Multiset.coe_add, Multiset.coe_add]
    exact congrArg _ (List.append_nil _)
  case beginAdmit event queue budget carries unlocked begins =>
    rw [← hadmit carries (advance_offered begins)]
    exact add_zero _
  case admitPass event plan queue budget carries locked passes =>
    rw [← hadmit carries (advance_offered passes)]
    exact add_zero _
  all_goals rfl

/-- A producer's step books the count it records. -/
theorem enqueue_recorded (h : EnqueueStep s call s' call') :
    (∀ n n', s.producers.sourceGaps = min n usizeMax →
        n' + call.recorded EnqueueRequest.gaps = n + call'.recorded EnqueueRequest.gaps →
          s'.producers.sourceGaps = min n' usizeMax) ∧
      ∀ n n', s.producers.truncatedPayloads = min n usizeMax →
        n' + call.recorded EnqueueRequest.truncated = n + call'.recorded EnqueueRequest.truncated →
          s'.producers.truncatedPayloads = min n' usizeMax := by
  have hevent {request : EnqueueRequest V} {event : QueueEvent (DispatchEvent V)}
      (carries : request.event? = some event) (stage : EnqueueStage) :
      EnqueueCall.recorded EnqueueRequest.gaps ⟨request, stage⟩ = 0 ∧
        EnqueueCall.recorded EnqueueRequest.truncated ⟨request, stage⟩ = 0 := by
    unfold EnqueueCall.recorded
    cases request with
    | event _ => cases stage.performed <;> exact ⟨rfl, rfl⟩
    | terminal _ _ => cases stage.performed <;> exact ⟨rfl, rfl⟩
    | sourceGaps _ => cases carries
    | truncatedPayloads _ => cases carries
  have hsame (hproducers : s'.producers.sourceGaps = s.producers.sourceGaps ∧
        s'.producers.truncatedPayloads = s.producers.truncatedPayloads)
      (hgaps : call'.recorded EnqueueRequest.gaps = call.recorded EnqueueRequest.gaps)
      (htruncated : call'.recorded EnqueueRequest.truncated =
        call.recorded EnqueueRequest.truncated) :
      (∀ n n', s.producers.sourceGaps = min n usizeMax →
        n' + call.recorded EnqueueRequest.gaps = n + call'.recorded EnqueueRequest.gaps →
          s'.producers.sourceGaps = min n' usizeMax) ∧
      ∀ n n', s.producers.truncatedPayloads = min n usizeMax →
        n' + call.recorded EnqueueRequest.truncated = n + call'.recorded EnqueueRequest.truncated →
          s'.producers.truncatedPayloads = min n' usizeMax := by
    rw [hproducers.1, hproducers.2, hgaps, htruncated]
    refine ⟨fun n n' hn heq => ?_, fun n n' hn heq => ?_⟩
    · rw [hn, Nat.add_right_cancel heq]
    · rw [hn, Nat.add_right_cancel heq]
  cases h
  case recordSourceGaps count =>
    refine ⟨fun n n' hn heq => ?_, fun n n' hn heq => ?_⟩
    · have hn' : n' = n + count := heq
      rw [hn', ← saturatingAdd_min, ← hn]
    · have hn' : n' = n := heq
      rw [hn', ← hn]
  case recordTruncatedPayloads count =>
    refine ⟨fun n n' hn heq => ?_, fun n n' hn heq => ?_⟩
    · have hn' : n' = n := heq
      rw [hn', ← hn]
    · have hn' : n' = n + count := heq
      rw [hn', ← saturatingAdd_min, ← hn]
  case sequence request stage event carries ready =>
    refine hsame ?_ ?_ ?_
    · obtain ⟨last, failure, hrecord⟩ := recordEnqueueSequence_spec s event.item.sequence
      rw [hrecord]
      exact ⟨rfl, rfl⟩
    · rw [(hevent carries _).1, (hevent carries _).1]
    · rw [(hevent carries _).2, (hevent carries _).2]
  case contend event carries =>
    exact hsame ⟨rfl, rfl⟩ (by rw [(hevent carries _).1]; rfl) (by rw [(hevent carries _).2]; rfl)
  case beginAdmit event queue budget carries unlocked begins =>
    exact hsame ⟨rfl, rfl⟩ (by rw [(hevent carries _).1]; rfl) (by rw [(hevent carries _).2]; rfl)
  case admitPass event plan queue budget carries locked passes =>
    exact hsame ⟨rfl, rfl⟩ (by rw [(hevent carries _).1]; rfl) (by rw [(hevent carries _).2]; rfl)
  all_goals exact hsame ⟨rfl, rfl⟩ rfl rfl

/-- A claimed terminal event stays claimed, and only a claim accounts for one. -/
theorem enqueue_claims (h : EnqueueStep s call s' call') :
    (call.request.isTerminal = true → call.stage.claims = true → call'.stage.claims = true) ∧
      (s.producers.terminalAccounted = true → s'.producers.terminalAccounted = true) ∧
      (s'.producers.terminalAccounted = true → s.producers.terminalAccounted = true ∨
        call'.request.isTerminal = true ∧ call'.stage.claims = true) := by
  cases h
  case claim terminal unaccounted => exact ⟨nofun, fun _ => rfl, fun _ => .inr ⟨terminal, rfl⟩⟩
  case sequence request stage event carries ready =>
    obtain ⟨last, failure, hrecord⟩ := recordEnqueueSequence_spec s event.item.sequence
    rw [hrecord]
    exact ⟨fun _ _ => rfl, id, .inl⟩
  case beginAdmit event queue budget carries unlocked begins =>
    refine ⟨fun _ _ => ?_, id, .inl⟩
    cases s.queue.queue.beginAdmit s.budget event <;> rfl
  case admitPass event plan queue budget carries locked passes =>
    refine ⟨fun _ _ => ?_, id, .inl⟩
    cases s.queue.queue.admitPass s.budget event plan <;> rfl
  case leave => exact ⟨fun _ _ => rfl, id, .inl⟩
  case keep => exact ⟨fun _ _ => rfl, id, .inl⟩
  case discard => exact ⟨fun _ _ => rfl, id, .inl⟩
  case contend => exact ⟨fun _ _ => rfl, id, .inl⟩
  all_goals exact ⟨nofun, id, .inl⟩

/-- The driver offers nothing. -/
theorem driver_offered {d d' : Driver} (h : DriverStep s d s' d') :
    s'.queue.offered = s.queue.offered := by
  have hcomplete {ticket : Nat} {answer : Except QueueAccessError Unit}
      {queue : TrackedQueue (DispatchEvent V)} {budget : RuntimeBudget}
      (completes : s.queue.completeCallback s.budget ticket = (answer, queue, budget)) :
      queue.offered = s.queue.offered := by
    cases completes
    rfl
  cases h with
  | complete settling active unlocked completes => exact hcomplete completes
  | completeError settling active unlocked completes => exact hcomplete completes
  | failComplete failing active unlocked completes => exact hcomplete completes
  | failError failing active unlocked completes => exact hcomplete completes
  | _ => rfl

/-- A step of a seal with its check of the terminal event. -/
theorem seal_cause {call call' : SealCall} (h : SealStep s call s' call')
    (hcall : call.facts.cause = .actFinished → call.stage ≠ .entering →
      (∀ error, call.stage ≠ .returned (.error error)) → s.producers.terminalAccounted = true)
    (hfacts : ∀ facts, s.gate.sealFacts = some facts → facts.cause = .actFinished →
      s.producers.terminalAccounted = true) :
    (call'.facts.cause = .actFinished → call'.stage ≠ .entering →
        (∀ error, call'.stage ≠ .returned (.error error)) →
          s.producers.terminalAccounted = true) ∧
      ∀ facts, s'.gate.sealFacts = some facts → facts.cause = .actFinished →
        s.producers.terminalAccounted = true := by
  cases h with
  | check accounted => exact ⟨fun hcause _ _ => accounted hcause, hfacts⟩
  | latch unset =>
    refine ⟨fun hcause _ _ => hcall hcause nofun nofun, ?_⟩
    intro facts hlatched hcause
    cases hlatched
    exact hcall hcause nofun nofun
  | refuse finished unaccounted => exact ⟨fun _ _ herror => absurd rfl (herror _), hfacts⟩
  | late other => exact ⟨fun _ _ herror => absurd rfl (herror _), hfacts⟩
  | _ => exact ⟨fun hcause _ _ => hcall hcause nofun nofun, hfacts⟩

/-- Every step keeps the producers' books. -/
theorem booked_step (h : Booked w) (hstep : WorldStep w w') : Booked w' := by
  cases hstep with
  | beginEnqueue request =>
    refine ⟨?_, ?_, ?_, ?_, h.cause, h.facts⟩
    · rw [List.filterMap_append]
      exact h.offered.trans (congrArg _ (List.append_nil _).symm)
    · rw [List.map_append, List.sum_append]
      exact h.gaps
    · rw [List.map_append, List.sum_append]
      exact h.truncated
    · intro hterminal
      obtain ⟨call, hcall, hclaims⟩ := h.terminal hterminal
      exact ⟨call, List.mem_append_left _ hcall, hclaims⟩
  | @enqueueCall state before after call call' calls step =>
    obtain ⟨hgate, -, hrequest⟩ := enqueue_frame step
    obtain ⟨hstays, hkeeps, hnew⟩ := enqueue_claims step
    have hoffered := h.offered
    have hgaps := h.gaps
    have htruncated := h.truncated
    have hterminal := h.terminal
    rw [calls] at hoffered hgaps htruncated hterminal
    refine ⟨?_, ?_, ?_, ?_, ?_, ?_⟩
    · have hreplace := coe_filterMap_replace before after call call' EnqueueCall.offeredEvent
      have hstepped := enqueue_offered step
      rw [hoffered, ← hreplace] at hstepped
      exact add_right_cancel hstepped
    · exact (enqueue_recorded step).1 _ _ hgaps (sum_map_replace before after call call' _)
    · exact (enqueue_recorded step).2 _ _ htruncated (sum_map_replace before after call call' _)
    · intro haccounted
      rcases hnew haccounted with hold | hclaims
      · obtain ⟨other, hother, hisTerminal, hclaims⟩ := hterminal hold
        rcases List.mem_append.mp hother with hother | hother
        · exact ⟨other, List.mem_append_left _ hother, hisTerminal, hclaims⟩
        · rcases List.mem_cons.mp hother with rfl | hother
          · exact ⟨call', by simp, hrequest ▸ hisTerminal, hstays hisTerminal hclaims⟩
          · exact ⟨other, List.mem_append_right _ (List.mem_cons_of_mem _ hother), hisTerminal,
              hclaims⟩
      · exact ⟨call', by simp, hclaims⟩
    · intro other hother hcause hstage herror
      exact hkeeps (h.cause other hother hcause hstage herror)
    · intro facts hfacts hcause
      rw [hgate] at hfacts
      exact hkeeps (h.facts facts hfacts hcause)
  | beginSeal facts =>
    refine ⟨h.offered, h.gaps, h.truncated, h.terminal, ?_, h.facts⟩
    intro call hcall hcause hstage
    rcases List.mem_append.mp hcall with hcall | hcall
    · exact h.cause call hcall hcause hstage
    · rw [List.mem_singleton.mp hcall] at hstage
      exact absurd rfl hstage
  | @sealCall state before after call call' calls step =>
    obtain ⟨hframe, -⟩ := seal_frame step
    have hcause := h.cause
    rw [calls] at hcause
    obtain ⟨hcall, hfacts⟩ := seal_cause step (hcause call (by simp)) h.facts
    rw [hframe]
    exact ⟨h.offered, h.gaps, h.truncated, h.terminal, forall_replace hcause hcall, hfacts⟩
  | closeCall calls step =>
    obtain ⟨hframe, -, hfacts⟩ := close_frame step
    rw [hframe]
    exact ⟨h.offered, h.gaps, h.truncated, h.terminal, h.cause, fun facts hset =>
      h.facts facts (hfacts ▸ hset)⟩
  | drive step =>
    obtain ⟨hgate, hproducers⟩ := driver_frame step
    constructor <;> simp only [hgate, hproducers, driver_offered step]
    · exact h.offered
    · exact h.gaps
    · exact h.truncated
    · exact h.terminal
    · exact h.cause
    · exact h.facts
  | discard unlocked => exact ⟨h.offered, h.gaps, h.truncated, h.terminal, h.cause, h.facts⟩
  | _ => exact ⟨h.offered, h.gaps, h.truncated, h.terminal, h.cause, h.facts⟩

end Booked

end Troupe.Sink
