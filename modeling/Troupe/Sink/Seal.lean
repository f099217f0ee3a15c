import Troupe.Sink.Driver

/-! # The seal protocol of a sink

For any number of producers, seals and closes on one sink, in any interleaving.

* `Idle`: once `try_close_drained` saw a sealed sink with an empty queue and no callback, nothing that
  the summary reads changes but the counters of a delivery that is still being recorded.
* `CloseCall.Knows`: what a close has checked at its stage.

Results: **`sink_seal_protocol`**: once a `seal` succeeded no later enqueue does; the summary is latched
once; one that `try_close_drained` latched accounts for every enqueued event; a complete one means
that every enqueued event was delivered, the terminal one among them. -/

namespace Troupe.Sink

open Relation (ReflTransGen)
open Troupe.Core Troupe.Lib

variable {V : Type}

/-! ## The close -/

/-- No producer is inside, nothing is queued and no callback runs. -/
structure Idle (s : SinkState V) : Prop where
  past : s.gate.phase.past = true
  empty : s.queue.queue.state.queued = []
  free : s.queue.inCallback = none

/-- What a step of an idle sink leaves alone. -/
structure SameBooks (s s' : SinkState V) : Prop where
  sealFacts : s'.gate.sealFacts = s.gate.sealFacts
  drops : s'.queue.queue.drops = s.queue.queue.drops
  dropped : s'.queue.dropped = s.queue.dropped
  sourceGaps : s'.producers.sourceGaps = s.producers.sourceGaps
  truncatedPayloads : s'.producers.truncatedPayloads = s.producers.truncatedPayloads
  callbackFailure : s'.delivery.callbackFailure = s.delivery.callbackFailure
  succeeded : s'.delivery.succeeded = s.delivery.succeeded
  failed : s'.delivery.failed = s.delivery.failed

/-- What a step of an idle and settled sink leaves alone besides. -/
structure SameCounters (s s' : SinkState V) : Prop where
  deliverySettling : s'.delivery.deliverySettling = false
  deliveredEvents : s'.delivery.deliveredEvents = s.delivery.deliveredEvents
  first : s'.delivery.firstDeliveredSequence = s.delivery.firstDeliveredSequence
  last : s'.delivery.lastDeliveredSequence = s.delivery.lastDeliveredSequence

section Close

variable {s s' : SinkState V} {d d' : Driver} {w w' : SinkWorld V} {limits : BudgetLimits}

/-- An idle sink took a step. -/
structure IdleStep (s s' : SinkState V) : Prop where
  idle : Idle s'
  books : SameBooks s s'
  counters : s.delivery.deliverySettling = false → SameCounters s s'

/-- A step that leaves queue, delivery and the facts of the seal alone keeps the sink idle. -/
theorem Idle.same (h : Idle s) (hpast : s'.gate.phase.past = true)
    (hfacts : s'.gate.sealFacts = s.gate.sealFacts) (hqueue : s'.queue = s.queue)
    (hdelivery : s'.delivery = s.delivery)
    (hgaps : s'.producers.sourceGaps = s.producers.sourceGaps)
    (htruncated : s'.producers.truncatedPayloads = s.producers.truncatedPayloads) :
    IdleStep s s' := by
  refine ⟨⟨hpast, hqueue ▸ h.empty, hqueue ▸ h.free⟩, ?_, fun hsettled => ?_⟩
  · constructor <;> simp only [hfacts, hqueue, hdelivery, hgaps, htruncated]
  · constructor <;> simp only [hdelivery, hsettled]

/-- A discard of an empty queue drops nothing, whatever the budget answers. -/
theorem discardQueuedLocked_empty {T : Type} {queue : SinkQueue T} (h : queue.state.queued = [])
    (budget : RuntimeBudget) : (queue.discardQueuedLocked budget).2.1.state.queued = [] ∧
      (queue.discardQueuedLocked budget).2.1.drops = queue.drops := by
  unfold SinkQueue.discardQueuedLocked
  simp only
  cases queue.state.totalUsage.checkedSub
      ((queue.state.activeCallback.map (·.metadata.usage)).getD 0) with
  | none => exact ⟨h, rfl⟩
  | some queuedUsage =>
    simp only
    generalize budget.tryReplace queuedUsage 0 = result
    obtain ⟨answer, next⟩ := result
    cases answer with
    | error error => exact ⟨h, rfl⟩
    | ok usage =>
      rw [h]
      exact ⟨rfl, rfl⟩

/-- A discard of an empty queue does nothing that the books see. -/
theorem Idle.discardQueued (h : Idle s) : IdleStep s s.discardQueued := by
  obtain ⟨hqueued, hdrops⟩ := discardQueuedLocked_empty h.empty s.budget
  have hdropped : s.discardQueued.queue.dropped = s.queue.dropped := by
    show (if _ then s.queue.dropped ++ s.queue.queue.state.queued else s.queue.dropped) = _
    rw [h.empty, List.append_nil, ite_self]
  exact ⟨⟨h.past, hqueued, h.free⟩, ⟨rfl, hdrops, hdropped, rfl, rfl, rfl, rfl, rfl⟩,
    fun hsettled => ⟨hsettled, rfl, rfl, rfl⟩⟩

/-- Producers do nothing to a sealed sink but come and go. -/
theorem enqueue_outside {call call' : EnqueueCall V} (h : EnqueueStep s call s' call')
    (houtside : call.stage.inside = false) :
    ∃ active, s' = { s with producers.activeEnqueues := active } := by
  cases h
  case sequence request stage event carries ready =>
    rw [ready] at houtside
    cases hterminal : request.isTerminal <;> rw [hterminal] at houtside <;> cases houtside
  all_goals first | exact ⟨_, rfl⟩ | cases houtside

/-- A callback that runs has its event. -/
theorem Driven.not_free {sequence : Nat} (h : Driven s d) (hfree : s.queue.inCallback = none) :
    d.stage ≠ .running sequence ∧ (∀ retried, d.stage ≠ .succeeding sequence retried) ∧
      d.stage ≠ .settling sequence ∧ d.stage ≠ .unsettled sequence := by
  have hcallback := h.callback
  rw [hfree] at hcallback
  unfold Driver.Holds at hcallback
  refine ⟨?_, fun retried => ?_, ?_, ?_⟩ <;> intro hstage <;> rw [hstage] at hcallback <;>
    exact absurd hcallback.2 nofun

/-- The driver finds nothing to do in an idle sink. -/
theorem driver_idle (h : Idle s) (hdriven : Driven s d) (hstep : DriverStep s d s' d') :
    IdleStep s s' := by
  have hsettling := hdriven.settling
  have hbegin {delivery : CallbackDelivery (DispatchEvent V)}
      {queue : SinkQueue (DispatchEvent V)}
      (begins : s.queue.queue.tryBeginCallback = (some delivery, queue)) : False := by
    unfold SinkQueue.tryBeginCallback at begins
    rw [h.empty] at begins
    by_cases hactive : s.queue.queue.state.activeCallback.isSome
    · rw [if_pos hactive] at begins
      cases begins
    · rw [if_neg hactive] at begins
      cases begins
  have hactive {entry : Nat × Nat} {retried : Bool} (failing : d.stage = .failing retried)
      (active : d.active = some entry) : False := by
    have hcallback := hdriven.callback
    unfold Driver.Holds at hcallback
    rw [failing, h.free, active] at hcallback
    cases hcallback
  have hunsettled {state : SinkState V} (hbooks : SameBooks s state)
      (hqueue : state.queue = s.queue) (hgate : state.gate = s.gate)
      (hsettles : d.stage.settles = true) : IdleStep s state := by
    refine ⟨⟨hgate ▸ h.past, hqueue ▸ h.empty, hqueue ▸ h.free⟩, hbooks, fun hsettled => ?_⟩
    rw [hsettling, hsettles] at hsettled
    cases hsettled
  have hsame : IdleStep s s := h.same h.past rfl rfl rfl rfl rfl
  cases hstep with
  | dispatch polling running unlocked begins free => exact (hbegin begins).elim
  | dispatchBusy polling running unlocked begins busy => exact (hbegin begins).elim
  | returnOther running => exact absurd running (hdriven.not_free h.free).1
  | raise running kind event => exact absurd running (hdriven.not_free h.free).1
  | settle succeeding active => exact absurd succeeding ((hdriven.not_free h.free).2.1 _)
  | mismatch succeeding other => exact absurd succeeding ((hdriven.not_free h.free).2.1 _)
  | complete settling active unlocked completes =>
    exact absurd settling (hdriven.not_free h.free).2.2.1
  | completeError settling active unlocked completes =>
    exact absurd settling (hdriven.not_free h.free).2.2.1
  | unsettled unsettled => exact absurd unsettled (hdriven.not_free h.free).2.2.2
  | recordFirst recording =>
    exact hunsettled (by constructor <;> rfl) rfl rfl (by rw [recording]; rfl)
  | recordLast recording =>
    exact hunsettled (by constructor <;> rfl) rfl rfl (by rw [recording]; rfl)
  | recordCount recording =>
    exact hunsettled (by constructor <;> rfl) rfl rfl (by rw [recording]; rfl)
  | settled settled => exact hunsettled (by constructor <;> rfl) rfl rfl (by rw [settled]; rfl)
  | stopped stopping => exact hunsettled (by constructor <;> rfl) rfl rfl (by rw [stopping]; rfl)
  | failComplete failing active unlocked completes => exact (hactive failing active).elim
  | failError failing active unlocked completes => exact (hactive failing active).elim
  | stop idle stopped unlocked => exact h.discardQueued
  | discard discarding unlocked discards => exact h.discardQueued
  | discardError discarding unlocked discards =>
    obtain ⟨hidle, hbooks, hcounters⟩ := h.discardQueued
    exact ⟨⟨hidle.past, hidle.empty, hidle.free⟩,
      ⟨hbooks.sealFacts, hbooks.drops, hbooks.dropped, hbooks.sourceGaps, hbooks.truncatedPayloads,
        hbooks.callbackFailure, hbooks.succeeded, hbooks.failed⟩,
      fun hsettled => ⟨hsettled, rfl, rfl, rfl⟩⟩
  | _ => exact hsame

/-- **An idle sink stays idle, and what the summary reads stays.** -/
theorem idle_step (h : Idle w.state) (hgate : Gate w) (hdriven : Driven w.state w.driver)
    (hstep : WorldStep w w') : IdleStep w.state w'.state := by
  have hpast := past_step h.past hstep
  cases hstep with
  | @enqueueCall state before after call call' calls step =>
    have houtside := hgate.shut (.inl h.past) call (by simp [calls])
    obtain ⟨active, rfl⟩ := enqueue_outside step houtside
    exact h.same hpast rfl rfl rfl rfl rfl
  | @sealCall state before after call call' calls step =>
    have hnot : call.stage.owns = false := by
      rw [Bool.eq_false_iff]
      intro howns
      have hphase := h.past
      rw [hgate.sealing_of_owns (by simp [calls]) howns] at hphase
      cases hphase
    have hfacts : state.gate.sealFacts = w.state.gate.sealFacts := by
      cases step with
      | latch unset => cases hnot
      | _ => rfl
    rw [(seal_frame step).1] at hpast ⊢
    exact h.same hpast hfacts rfl rfl rfl rfl
  | closeCall calls step =>
    obtain ⟨hframe, -, hfacts⟩ := close_frame step
    rw [hframe] at hpast ⊢
    exact h.same hpast hfacts rfl rfl rfl rfl
  | drive step => exact driver_idle h hdriven step
  | discard unlocked => exact h.discardQueued
  | requestCancel live once =>
    exact ⟨⟨h.past, h.empty, h.free⟩, by constructor <;> rfl,
      fun hsettled => ⟨hsettled, rfl, rfl, rfl⟩⟩
  | _ => exact h.same hpast rfl rfl rfl rfl rfl

/-- What was read of this fact is what the sink has. -/
def DeliveryFacts.Agrees (facts : DeliveryFacts) (s : SinkState V) : Fact → Prop
  | .actOutcome => facts.actOutcome = s.gate.sealFacts.bind (·.actOutcome)
  | .deliveredEvents => facts.deliveredEvents = s.delivery.deliveredEvents
  | .firstDeliveredSequence => facts.firstDeliveredSequence = s.delivery.firstDeliveredSequence
  | .lastDeliveredSequence => facts.lastDeliveredSequence = s.delivery.lastDeliveredSequence
  | .drops => facts.drops = s.queue.queue.drops.snapshot
  | .sourceGaps => facts.sourceGaps = s.producers.sourceGaps
  | .truncatedPayloads => facts.truncatedPayloads = s.producers.truncatedPayloads
  | .callbackFailure => facts.callbackFailure = s.delivery.callbackFailure
  -- A failure of the dispatcher may still be recorded.
  | .unexpectedFailure => True

theorem DeliveryFacts.agrees_load {facts : DeliveryFacts} {fact other : Fact}
    (h : other ≠ fact → facts.Agrees s other) : (facts.load s fact).Agrees s other := by
  by_cases heq : other = fact
  · subst heq
    cases other <;> trivial
  · have hold := h heq
    cases other <;> cases fact <;> first | exact hold | exact absurd rfl heq

theorem DeliveryFacts.Agrees.step {facts : DeliveryFacts} {fact : Fact} (h : facts.Agrees s fact)
    (hbooks : SameBooks s s') (hcounters : SameCounters s s') : facts.Agrees s' fact := by
  cases fact <;> simp only [DeliveryFacts.Agrees] at h ⊢
  · rw [hbooks.sealFacts]
    exact h
  · rw [hcounters.deliveredEvents]
    exact h
  · rw [hcounters.first]
    exact h
  · rw [hcounters.last]
    exact h
  · rw [hbooks.drops]
    exact h
  · rw [hbooks.sourceGaps]
    exact h
  · rw [hbooks.truncatedPayloads]
    exact h
  · rw [hbooks.callbackFailure]
    exact h

/-- An idle sink with nothing left to count, and what its nominal close reason means. -/
structure Quiet (s : SinkState V) (nominal : SinkCloseReason) : Prop where
  idle : Idle s
  settled : s.delivery.deliverySettling = false
  nominal : nominal = .actFinished → (∃ facts, s.gate.sealFacts = some facts ∧
    facts.cause = .actFinished) ∧ (s.delivery.failed = [] ∨ s.delivery.callbackFailure.isSome = true)

theorem Quiet.step {nominal : SinkCloseReason} (h : Quiet s nominal) (hstep : IdleStep s s') :
    Quiet s' nominal := by
  refine ⟨hstep.idle, (hstep.counters h.settled).deliverySettling, ?_⟩
  rw [hstep.books.sealFacts, hstep.books.failed, hstep.books.callbackFailure]
  exact h.nominal

/-- What a call of `try_close_drained` knows at its stage. -/
def CloseStage.DrainedKnows (s : SinkState V) : CloseStage → Prop
  | .snapshotting => s.gate.phase.past = true
  | .settling _ => Idle s
  | .choosing _ => Idle s ∧ s.delivery.deliverySettling = false
  | .latching nominal | .exchanging nominal => Quiet s nominal
  | .reading nominal rest facts => Quiet s nominal ∧ ∀ fact ∉ rest, facts.Agrees s fact
  | _ => True

/-- The nominal close reason at this stage. -/
def CloseStage.nominal? : CloseStage → Option SinkCloseReason
  | .latching nominal | .exchanging nominal | .reading nominal _ _ => some nominal
  | _ => none

/-- What a close knows at its stage. -/
def CloseCall.Knows (s : SinkState V) (call : CloseCall) : Prop :=
  match call.request with
  | .drained => call.stage.DrainedKnows s
  | .runtimeShutdown _ => call.stage.nominal? ≠ some .actFinished

/-- What the latched summary says of the sink. -/
def Latched (s : SinkState V) : Prop :=
  ∀ summary, s.gate.summary = some summary → ∃ request nominal facts,
    s.gate.latchedBy = some request ∧
      summary = .fromDeliveryFacts s.runId s.actId nominal request.callbackAbandoned facts ∧
      match request with
      | .drained => Quiet s nominal ∧ ∀ fact, facts.Agrees s fact
      | .runtimeShutdown _ => nominal ≠ .actFinished

theorem CloseStage.DrainedKnows.step {stage : CloseStage} (h : stage.DrainedKnows s)
    (hpast : s.gate.phase.past = true → s'.gate.phase.past = true)
    (hidle : Idle s → IdleStep s s') : stage.DrainedKnows s' := by
  cases stage with
  | snapshotting => exact hpast h
  | settling terminalReason => exact (hidle h).idle
  | choosing terminalReason =>
    exact ⟨(hidle h.1).idle, ((hidle h.1).counters h.2).deliverySettling⟩
  | latching nominal => exact Quiet.step h (hidle h.idle)
  | exchanging nominal => exact Quiet.step h (hidle h.idle)
  | reading nominal rest facts =>
    obtain ⟨hquiet, hagrees⟩ := h
    have hstep := hidle hquiet.idle
    exact ⟨hquiet.step hstep, fun fact hfact =>
      (hagrees fact hfact).step hstep.books (hstep.counters hquiet.settled)⟩
  | _ => trivial

theorem CloseCall.Knows.step {call : CloseCall} (h : call.Knows s)
    (hpast : s.gate.phase.past = true → s'.gate.phase.past = true)
    (hidle : Idle s → IdleStep s s') : call.Knows s' := by
  obtain ⟨request, stage⟩ := call
  cases request with
  | drained => exact CloseStage.DrainedKnows.step h hpast hidle
  | runtimeShutdown abandoned => exact h

/-- What a close knows after its own step, of the sink before it. -/
theorem close_knows {call call' : CloseCall} (hknows : call.Knows s) (hdriven : Driven s d)
    (hfree : s.queue.queue.state.activeCallback = none → s.queue.inCallback = none)
    (hstep : CloseStep s call s' call') : call'.Knows s := by
  cases hstep with
  | drainClosed closed =>
    unfold CloseCall.Knows SinkState.closedAnswer
    cases s.gate.summary <;> trivial
  | drainSealed sealed =>
    show s.gate.phase.past = true
    rw [sealed]
    rfl
  | drainIdle unlocked empty idle => exact ⟨hknows, empty, hfree idle⟩
  | drainSettled settled => exact ⟨hknows, settled⟩
  | @drainChoose terminalReason nominal chosen =>
    refine ⟨hknows.1, hknows.2, fun hnominal => ?_⟩
    subst hnominal
    cases terminalReason with
    | some reason => cases reason; cases chosen
    | none =>
      unfold SinkState.drainedReason at chosen
      by_cases hcancel : s.delivery.runtimeCancelRequested = true
      · simp [hcancel] at chosen
      · simp only [hcancel, Bool.false_eq_true, if_false] at chosen
        obtain ⟨facts, hfacts, hreason⟩ := Option.map_eq_some_iff.mp chosen
        refine ⟨⟨facts, hfacts, ?_⟩, ?_⟩
        · unfold SinkSealFacts.nominalCloseReason at hreason
          cases hcause : facts.cause with
          | actFinished => rfl
          | runtimeShutdown =>
            rw [hcause] at hreason
            cases hreason
        · rcases hdriven.failed with hfailed | ⟨-, -, hreason⟩
          · exact .inl hfailed
          · exact .inr (hreason.resolve_right hcancel)
  | shutdownContended =>
    show some (shutdownReason _ _) ≠ _
    unfold shutdownReason
    split <;> exact nofun
  | shutdownSnapshot unlocked =>
    show some (shutdownReason _ _) ≠ _
    unfold shutdownReason
    split <;> exact nofun
  | @latchClosed request nominal closed =>
    unfold CloseCall.Knows SinkState.closedAnswer
    cases request <;> cases s.gate.summary <;> first | trivial | exact nofun
  | @latchPanic request nominal unsealed =>
    cases request <;> first | trivial | exact nofun
  | @exchange request nominal sealed =>
    cases request with
    | drained => exact ⟨hknows, fun fact hfact => absurd (by cases fact <;> decide) hfact⟩
    | runtimeShutdown abandoned => exact hknows
  | @read request nominal fact rest facts =>
    cases request with
    | drained =>
      refine ⟨hknows.1, fun other hother => DeliveryFacts.agrees_load fun hne => ?_⟩
      exact hknows.2 other (by simp [hne, hother])
    | runtimeShutdown abandoned => exact hknows
  | @set request nominal facts summary unset built =>
    cases request <;> first | trivial | exact nofun
  | @reset request nominal facts summary set =>
    cases request <;> first | trivial | exact nofun
  | @finish request summary => cases request <;> trivial
  | _ => first | exact hknows | trivial

/-- **What holds of a sink and its users between two steps.** -/
structure Sound (limits : BudgetLimits) (w : SinkWorld V) : Prop where
  gate : Gate w
  solvent : Solvent limits w.runtime
  booked : Booked w
  driven : Driven w.state w.driver
  closes : ∀ call ∈ w.closes, call.Knows w.state
  latched : Latched w.state

theorem Sound.conserved (h : Sound limits w) : Conserved w.state.queue :=
  h.solvent.queues _ (List.mem_cons_self ..)

theorem Sound.free (h : Sound limits w)
    (hactive : w.state.queue.queue.state.activeCallback = none) :
    w.state.queue.inCallback = none := by
  have hsame := h.conserved.active
  rw [hactive] at hsame
  exact Option.map_eq_none_iff.mp hsame.symm

/-- A step keeps what the closes know. -/
theorem knows_step (h : Sound limits w) (hstep : WorldStep w w') :
    ∀ call ∈ w'.closes, call.Knows w'.state := by
  have hpast (hpast : w.state.gate.phase.past = true) := past_step hpast hstep
  have hidle (hidle : Idle w.state) := idle_step hidle h.gate h.driven hstep
  have hall : ∀ call ∈ w'.closes, call.Knows w.state := by
    cases hstep with
    | beginClose request =>
      intro call hcall
      rcases List.mem_append.mp hcall with hcall | hcall
      · exact h.closes call hcall
      · rw [List.mem_singleton.mp hcall]
        cases request <;> first | trivial | exact nofun
    | @closeCall state before after call call' calls step =>
      have hcloses := h.closes
      rw [calls] at hcloses
      exact forall_replace hcloses (close_knows (hcloses call (by simp)) h.driven h.free step)
    | _ => exact h.closes
  exact fun call hcall => (hall call hcall).step hpast hidle

/-- A step keeps what the latched summary says. -/
theorem latched_step (h : Sound limits w) (hstep : WorldStep w w') :
    Latched w'.state := by
  have hidle (hidle : Idle w.state) := idle_step hidle h.gate h.driven hstep
  have hids := ids_step hstep
  intro summary hsummary
  rw [hids.1, hids.2]
  cases hset : w.state.gate.summary with
  | some old =>
    obtain ⟨hkept, hby⟩ := summary_step hset hstep
    obtain ⟨request, nominal, facts, hrequest, hbuilt, hmeans⟩ := h.latched old hset
    rw [hkept] at hsummary
    cases hsummary
    refine ⟨request, nominal, facts, hby.trans hrequest, hbuilt, ?_⟩
    cases request with
    | drained =>
      obtain ⟨hquiet, hagrees⟩ := hmeans
      have hmoved := hidle hquiet.idle
      exact ⟨hquiet.step hmoved, fun fact =>
        (hagrees fact).step hmoved.books (hmoved.counters hquiet.settled)⟩
    | runtimeShutdown abandoned => exact hmeans
  | none =>
    -- Only `set` latches a summary, and its call has read everything.
    cases hstep with
    | @closeCall state before after call call' calls step =>
      have hknows := h.closes call (by simp [calls])
      cases step with
      | @set request nominal facts built unset hbuilt =>
        cases hsummary
        refine ⟨request, nominal, facts, rfl, hbuilt, ?_⟩
        cases request with
        | drained =>
          obtain ⟨hquiet, hagrees⟩ := hknows
          have hmoved := hidle hquiet.idle
          exact ⟨hquiet.step hmoved, fun fact =>
            (hagrees fact (List.not_mem_nil)).step hmoved.books (hmoved.counters hquiet.settled)⟩
        | runtimeShutdown abandoned => exact fun hnominal => hknows (congrArg some hnominal)
      | _ => exact absurd (hset.symm.trans hsummary) nofun
    | enqueueCall calls step =>
      rw [(enqueue_frame step).1, hset] at hsummary
      cases hsummary
    | sealCall calls step => cases step <;> exact absurd (hset.symm.trans hsummary) nofun
    | drive step =>
      rw [(driver_frame step).1, hset] at hsummary
      cases hsummary
    | _ => exact absurd (hset.symm.trans hsummary) nofun

theorem sound_step (h : Sound limits w) (hstep : WorldStep w w') :
    Sound limits w' where
  gate := gate_step h.gate hstep
  solvent := solvent_world h.solvent hstep
  booked := booked_step h.booked hstep
  driven := driven_step h.driven hstep
  closes := knows_step h hstep
  latched := latched_step h hstep

end Close

/-! ## The protocol -/

/-- The summary accounts for every event whose enqueue succeeded. -/
structure Accounts (w : SinkWorld V) (summary : SinkDeliverySummary) : Prop where
  events : (w.acceptedEvents : Multiset (QueueEvent (DispatchEvent V))) =
    w.state.delivery.succeeded + w.state.delivery.failed + w.state.queue.dropped
  delivered : summary.deliveredEvents = w.state.delivery.succeeded.length % 2 ^ 64
  dropped : summary.droppedByKind =
    eventKinds.filterMap fun kind => (countDropped w.state.queue.dropped kind).snapshot kind
  /-- At most one callback failed or was cancelled, and the summary says so. -/
  failed : w.state.delivery.failed = [] ∨ ∃ event, w.state.delivery.failed = [event] ∧
    (summary.callbackFailure.map (·.eventSequence) = some event.item.sequence ∨
      summary.closeReason ≠ .actFinished)

/-- Every event whose enqueue succeeded was delivered, the terminal one among them. -/
structure AllDelivered (w : SinkWorld V) (summary : SinkDeliverySummary) : Prop where
  latchedBy : w.state.gate.latchedBy = some .drained
  reason : summary.closeReason = .actFinished
  events : (w.acceptedEvents : Multiset (QueueEvent (DispatchEvent V))) =
    w.state.delivery.succeeded
  dropped : w.state.queue.dropped = []
  failed : w.state.delivery.failed = []
  callbackFailure : w.state.delivery.callbackFailure = none
  gaps : ∀ call ∈ w.accepted, call.request.gaps = 0
  truncated : ∀ call ∈ w.accepted, call.request.truncated = 0
  terminal : ∃ call ∈ w.accepted, call.request.isTerminal = true ∧
    ∃ event ∈ w.state.delivery.succeeded, call.request.event? = some event

section Protocol

variable {w w' : SinkWorld V} {limits : BudgetLimits}

/-- Sums that saturate. -/
theorem foldl_saturatingAdd {α : Type} (f : α → Nat) (max start : Nat) (items : List α) :
    items.foldl (fun total item => saturatingAdd max total (f item)) (min start max) =
      min (start + (items.map f).sum) max := by
  induction items generalizing start with
  | nil => rfl
  | cons item rest ih =>
    rw [List.foldl_cons, saturatingAdd_min, ih, List.map_cons, List.sum_cons, Nat.add_assoc]

theorem mem_eventKinds (kind : DiagnosticEventKind) : kind ∈ eventKinds := by
  cases kind <;> decide

/-- No dropped event is left out of the total. -/
theorem dropped_eq_nil {T : Type} {dropped : List (QueueEvent T)}
    (h : (eventKinds.filterMap fun kind => (countDropped dropped kind).snapshot kind).foldl
      (fun total count => saturatingAdd usizeMax total count.events) 0 = 0) : dropped = [] := by
  by_contra hne
  obtain ⟨event, hevent⟩ := List.exists_mem_of_ne_nil _ hne
  let kind := event.metadata.eventKind
  have hmember : event ∈ dropped.filter (·.metadata.eventKind = kind) := by simp [hevent, kind]
  have hcount : 0 < (countDropped dropped kind).events := by
    have hlength := List.length_pos_of_mem hmember
    exact Nat.lt_min.mpr ⟨hlength, by decide⟩
  have hsnapshot : (countDropped dropped kind).snapshot kind =
      some ⟨kind, (countDropped dropped kind).events, (countDropped dropped kind).encodedBytes⟩ :=
    if_pos (.inl (Nat.ne_of_gt hcount))
  have hlisted : _ ∈ eventKinds.filterMap fun kind => (countDropped dropped kind).snapshot kind :=
    List.mem_filterMap.mpr ⟨kind, mem_eventKinds kind, hsnapshot⟩
  have hsum := foldl_saturatingAdd (·.events) usizeMax 0
    (eventKinds.filterMap fun kind => (countDropped dropped kind).snapshot kind)
  rw [Nat.zero_min, h, Nat.zero_add] at hsum
  have hmax : 0 < usizeMax := by decide
  have hzero := List.sum_eq_zero_iff_forall_eq_nat.mp (by omega) _
    (List.mem_map_of_mem (f := (·.events)) hlisted)
  exact Nat.ne_of_gt hcount hzero

/-- Past the seal the calls that did their work are those that returned `Ok`. -/
theorem performed_iff {stage : EnqueueStage} (h : stage.inside = false) :
    stage.performed = stage.accepted := by
  cases stage <;> first | rfl | cases h
  rename_i answer
  cases answer <;> rfl

theorem Gate.offered (h : Gate w) (hpast : w.state.gate.phase.past = true) :
    w.enqueues.filterMap EnqueueCall.offeredEvent = w.acceptedEvents := by
  unfold SinkWorld.acceptedEvents SinkWorld.accepted
  rw [List.filterMap_filter]
  refine List.filterMap_congr fun call hcall => ?_
  unfold EnqueueCall.offeredEvent
  rw [performed_iff (h.shut (.inl hpast) call hcall)]

/-- A count that the producers recorded in total was recorded by no call. -/
theorem Gate.recorded (h : Gate w) (hpast : w.state.gate.phase.past = true)
    (count : EnqueueRequest V → Nat)
    (hnone : min (w.enqueues.map (EnqueueCall.recorded count)).sum usizeMax = 0) :
    ∀ call ∈ w.accepted, count call.request = 0 := by
  intro call hcall
  obtain ⟨hmember, haccepted⟩ := List.mem_filter.mp hcall
  have hperformed : call.stage.performed = true := by
    rw [performed_iff (h.shut (.inl hpast) call hmember)]
    exact haccepted
  have hzero : (w.enqueues.map (EnqueueCall.recorded count)).sum = 0 := by
    have hmax : 0 < usizeMax := by decide
    omega
  have hrecorded := List.sum_eq_zero_iff_forall_eq_nat.mp hzero _ (List.mem_map_of_mem hmember)
  unfold EnqueueCall.recorded at hrecorded
  rw [if_pos hperformed] at hrecorded
  exact hrecorded

/-- An idle sink has delivered, failed or dropped what was enqueued. -/
theorem Sound.accounted (h : Sound limits w) (hidle : Idle w.state) :
    (w.acceptedEvents : Multiset (QueueEvent (DispatchEvent V))) =
      w.state.delivery.succeeded + w.state.delivery.failed + w.state.queue.dropped := by
  have hall := h.conserved.conserved
  rw [hidle.empty, hidle.free, h.driven.delivered, h.booked.offered,
    h.gate.offered hidle.past] at hall
  rw [hall]
  simp

/-- What a drained summary says. -/
theorem Sound.accounts (h : Sound limits w) {summary : SinkDeliverySummary}
    (hset : w.state.gate.summary = some summary)
    (hdrained : w.state.gate.latchedBy = some .drained) : Accounts w summary := by
  obtain ⟨request, nominal, facts, hby, rfl, hmeans⟩ := h.latched summary hset
  rw [hdrained] at hby
  cases hby
  obtain ⟨hquiet, hagrees⟩ := hmeans
  have hstage : w.driver.stage.uncounted = 0 := by
    have hsettles := h.driven.settling
    rw [hquiet.settled] at hsettles
    cases hcase : w.driver.stage <;> first | rfl | (rw [hcase] at hsettles; cases hsettles)
  refine ⟨h.accounted hquiet.idle, ?_, ?_, ?_⟩
  · have hcounted := h.driven.counted
    rw [hstage, Nat.add_zero, Nat.mod_eq_of_lt h.driven.counter] at hcounted
    exact (hagrees .deliveredEvents).trans hcounted
  · have hledger := h.conserved.ledger
    refine (hagrees .drops).trans ?_
    unfold DropLedger.snapshot
    rw [hledger]
  · rcases h.driven.failed with hfailed | ⟨hone, hfree, hreason⟩
    · exact .inl hfailed
    · right
      obtain ⟨event, hevent⟩ := List.length_eq_one_iff.mp hone
      refine ⟨event, hevent, ?_⟩
      have hfailure : facts.callbackFailure = w.state.delivery.callbackFailure :=
        hagrees .callbackFailure
      cases hlatched : w.state.delivery.callbackFailure with
      | some failure =>
        left
        have hsequence := h.driven.failure failure hlatched
        rw [hevent, hfree] at hsequence
        show facts.callbackFailure.map (·.eventSequence) = some event.item.sequence
        rw [hfailure, hlatched]
        exact congrArg some (List.singleton_inj.mp hsequence).symm
      | none =>
        right
        have hnominal : nominal ≠ .actFinished := by
          intro hfinished
          rcases (hquiet.nominal hfinished).2 with hnone | hsome
          · rw [hnone] at hevent
            cases hevent
          · rw [hlatched] at hsome
            cases hsome
        show (if facts.callbackFailure.isSome then SinkCloseReason.callbackFailed else nominal) ≠ _
        rw [hfailure, hlatched]
        exact hnominal

/-- The terminal event of a finished act was enqueued before the seal. -/
theorem Sound.terminal (h : Sound limits w) (hpast : w.state.gate.phase.past = true)
    {facts : SinkSealFacts} (hfacts : w.state.gate.sealFacts = some facts)
    (hcause : facts.cause = .actFinished) :
    ∃ call ∈ w.accepted, call.request.isTerminal = true := by
  obtain ⟨call, hcall, hterminal, hclaims⟩ :=
    h.booked.terminal (h.booked.facts facts hfacts hcause)
  refine ⟨call, List.mem_filter.mpr ⟨hcall, ?_⟩, hterminal⟩
  have houtside := h.gate.shut (.inl hpast) call hcall
  rw [← performed_iff houtside]
  cases hstage : call.stage <;> rw [hstage] at houtside hclaims <;>
    first | exact hclaims | cases houtside

/-- What a complete summary says. -/
theorem Sound.allDelivered (h : Sound limits w) {summary : SinkDeliverySummary}
    (hset : w.state.gate.summary = some summary) (hcomplete : summary.complete = true) :
    AllDelivered w summary := by
  obtain ⟨request, nominal, facts, hby, rfl, hmeans⟩ := h.latched summary hset
  obtain ⟨hreason, hdropped, hgaps, htruncated, hfailure, -, -⟩ := of_decide_eq_true hcomplete
  have hnone : facts.callbackFailure = none := Option.isNone_iff_eq_none.mp hfailure
  rw [hnone] at hreason
  have hnominal : nominal = .actFinished := hreason
  cases request with
  | runtimeShutdown abandoned => exact absurd hnominal hmeans
  | drained =>
    obtain ⟨hquiet, hagrees⟩ := hmeans
    have haccounts := h.accounts hset hby
    have hlatched : w.state.delivery.callbackFailure = none := by
      rw [← hnone]
      exact (hagrees .callbackFailure).symm
    have hnothing : w.state.queue.dropped = [] := by
      refine dropped_eq_nil ?_
      rw [← haccounts.dropped]
      exact hdropped
    obtain ⟨⟨sealFacts, hsealFacts, hcause⟩, hfailed⟩ := hquiet.nominal hnominal
    have hfailed : w.state.delivery.failed = [] := by
      refine hfailed.resolve_right ?_
      rw [hlatched]
      exact nofun
    have hevents : (w.acceptedEvents : Multiset (QueueEvent (DispatchEvent V))) =
        w.state.delivery.succeeded := by
      rw [haccounts.events, hfailed, hnothing]
      simp
    have hpast := hquiet.idle.past
    refine ⟨hby, ?_, hevents, hnothing, hfailed, hlatched, ?_, ?_, ?_⟩
    · show (if facts.callbackFailure.isSome then SinkCloseReason.callbackFailed else nominal) = _
      rw [hnone]
      exact hnominal
    · refine h.gate.recorded hpast _ ?_
      rw [← h.booked.gaps, ← hgaps]
      exact (hagrees .sourceGaps).symm
    · refine h.gate.recorded hpast _ ?_
      rw [← h.booked.truncated, ← htruncated]
      exact (hagrees .truncatedPayloads).symm
    · obtain ⟨call, hcall, hterminal⟩ := h.terminal hpast hsealFacts hcause
      refine ⟨call, hcall, hterminal, ?_⟩
      obtain ⟨event, hevent⟩ : ∃ event, call.request.event? = some event := by
        cases hrequest : call.request <;> rw [hrequest] at hterminal <;>
          first | exact ⟨_, rfl⟩ | cases hterminal
      refine ⟨event, ?_, hevent⟩
      have hmember : event ∈ w.acceptedEvents := List.mem_filterMap.mpr ⟨call, hcall, hevent⟩
      rw [← Multiset.mem_coe, hevents] at hmember
      exact hmember

/-- A registered sink is sound. -/
theorem sound_new (runId : CanonicalUuid) (actId : RunLocalId) {budget : RuntimeBudget}
    {others : List (TrackedQueue (DispatchEvent V))} (h : Solvent limits ⟨budget, others⟩) :
    Sound limits (.new runId actId budget others) where
  gate :=
    ⟨rfl, fun _ _ hcall => absurd hcall List.not_mem_nil, rfl,
      fun _ hcall => absurd hcall List.not_mem_nil, rfl,
      fun hset => absurd hset Bool.false_ne_true, fun _ hcall => absurd hcall List.not_mem_nil⟩
  solvent := by
    refine ⟨?_, ?_, h.limits⟩
    · intro q hq
      rcases List.mem_cons.mp hq with rfl | hq
      · exact conserved_new .product
      · exact h.queues q hq
    · have hshared : budget.usage = (others.map (·.queue.state.totalUsage)).sum := h.shared
      show budget.usage = 0 + (others.map (·.queue.state.totalUsage)).sum
      rw [hshared, zero_add]
  booked := ⟨rfl, rfl, rfl, fun hterminal => absurd hterminal Bool.false_ne_true,
    fun _ hcall => absurd hcall List.not_mem_nil,
    fun _ hset => absurd hset (Option.some_ne_none _).symm⟩
  driven := ⟨rfl, rfl, rfl, Nat.two_pow_pos _, ⟨rfl, rfl⟩, fun _ => ⟨rfl, rfl⟩,
    fun hends => absurd hends Bool.false_ne_true,
    fun _ hset => absurd hset (Option.some_ne_none _).symm, .inl rfl⟩
  closes := fun _ hcall => absurd hcall List.not_mem_nil
  latched := fun _ hset => absurd hset (Option.some_ne_none _).symm

/-- **The seal protocol.** For every interleaving of any number of producers, seals and closes with the
driver and the other sinks of the runtime: once a `seal` has returned `Ok`, no enqueue returns `Ok`
that had not; a latched summary stays, and every close that returns one returns it; if
`try_close_drained` latched it, every enqueued event is delivered, dropped, or the one whose callback
failed or was cancelled; if `close_for_runtime_shutdown` did, it is not complete; and if it is
complete, every enqueued event was delivered. -/
theorem sink_seal_protocol {runId : CanonicalUuid} {actId : RunLocalId} {budget : RuntimeBudget}
    {others : List (TrackedQueue (DispatchEvent V))}
    (hsinks : ReflTransGen SinkStep ⟨.new, []⟩ ⟨budget, others⟩)
    (h : ReflTransGen WorldStep (.new runId actId budget others) w) :
    (∀ call ∈ w.seals, call.stage = .returned (.ok ()) →
        ∀ w', ReflTransGen WorldStep w w' → w'.accepted = w.accepted) ∧
      ∀ summary, w.state.gate.summary = some summary →
        (∀ w', ReflTransGen WorldStep w w' → w'.state.gate.summary = some summary) ∧
          (∀ call ∈ w.closes, ∀ other, call.stage = .returned (.ok (.closed other)) →
            other = summary) ∧
          (w.state.gate.latchedBy = some .drained → Accounts w summary) ∧
          (∀ abandoned, w.state.gate.latchedBy = some (.runtimeShutdown abandoned) →
            summary.complete = false) ∧
          (summary.complete = true → AllDelivered w summary) := by
  have hsolvent : Solvent RuntimeBudget.new.limits ⟨budget, others⟩ := by
    refine run_invariant (p := Solvent _) (fun _ _ hr hstep => solvent_step hr hstep) ?_ hsinks
    exact ⟨by simp, withLimits_usage _ _, rfl⟩
  have hsound : Sound RuntimeBudget.new.limits w :=
    run_invariant (p := Sound _) (fun _ _ hw hstep => sound_step hw hstep)
      (sound_new runId actId hsolvent) h
  refine ⟨fun call hcall hok w' hrun => ?_, fun summary hset => ⟨fun w' hrun => ?_, ?_,
    hsound.accounts hset, fun abandoned hby => ?_, hsound.allDelivered hset⟩⟩
  · have hpast := hsound.gate.sealed call hcall hok
    have hkept := run_invariant
      (p := fun w' => Gate w' ∧ w'.state.gate.phase.past = true ∧ w'.accepted = w.accepted)
      (fun _ _ ⟨hgate, hpast, hsame⟩ hstep => ⟨gate_step hgate hstep, past_step hpast hstep,
        (accepted_step hgate hpast hstep).trans hsame⟩) ⟨hsound.gate, hpast, rfl⟩ hrun
    exact hkept.2.2
  · exact run_invariant (p := fun w' => w'.state.gate.summary = some summary)
      (fun _ _ hset hstep => (summary_step hset hstep).1) hset hrun
  · intro call hcall other hstage
    have hlatched := hsound.gate.latched call hcall other (by rw [hstage]; rfl)
    exact Option.some.inj (hlatched.symm.trans hset)
  · refine Bool.eq_false_iff.mpr fun hcomplete => ?_
    rw [(hsound.allDelivered hset hcomplete).latchedBy] at hby
    cases hby

end Protocol

/-! ## Three runs -/

section Samples

variable {w : SinkWorld V} {state : SinkState V}

/-- A step of the only producer. -/
theorem only_enqueue {call call' : EnqueueCall V} (calls : w.enqueues = [call])
    (step : EnqueueStep w.state call state call') :
    WorldStep w { w with state, enqueues := [call'] } :=
  @WorldStep.enqueueCall V w state [] [] call call' calls step

/-- The last pass of the only producer's admission. -/
theorem only_pass {request : EnqueueRequest V} {event : QueueEvent (DispatchEvent V)}
    {plan : EvictionPlan} {outcome : AdmissionOutcome} {queue : SinkQueue (DispatchEvent V)}
    {budget : RuntimeBudget} (calls : w.enqueues = [⟨request, .admitting⟩])
    (carries : request.event? = some event) (locked : w.state.queue.admission = some (event, plan))
    (returns : w.state.queue.queue.admitPass w.state.budget event plan =
      .returned outcome queue budget) :
    WorldStep w
      { w with
        state := w.state.withQueue
          { w.state.queue with
            queue
            admission := none
            offered := w.state.queue.offered ++ [event]
            dropped := w.state.queue.dropped ++ w.state.queue.lost event plan outcome } budget
        enqueues := [⟨request, .offered outcome⟩] } := by
  have hpass := only_enqueue calls (EnqueueStep.admitPass carries locked rfl)
  rw [returns] at hpass
  exact hpass

/-- A step of the only seal. -/
theorem only_seal {call call' : SealCall} (calls : w.seals = [call])
    (step : SealStep w.state call state call') : WorldStep w { w with state, seals := [call'] } :=
  @WorldStep.sealCall V w state [] [] call call' calls step

/-- A step of the only close. -/
theorem only_close {call call' : CloseCall} (calls : w.closes = [call])
    (step : CloseStep w.state call state call') : WorldStep w { w with state, closes := [call'] } :=
  @WorldStep.closeCall V w state [] [] call call' calls step

/-- The only close latches the summary. -/
theorem only_latch {start : SinkWorld V} {request : CloseRequest} {nominal : SinkCloseReason}
    (h : ReflTransGen WorldStep start w)
    (calls : w.closes = [⟨request, .latching nominal⟩]) (sealed : w.state.gate.phase = .sealed)
    (unset : w.state.gate.summary = none) : ∃ summary,
      summary = SinkDeliverySummary.fromDeliveryFacts w.state.runId w.state.actId nominal
        request.callbackAbandoned (Fact.all.foldl (·.load w.state) .unread) ∧
      ReflTransGen WorldStep start
        { w with
          state := { w.state with
            gate.phase := .closing, gate.summary := some summary, gate.latchedBy := some request }
          closes := [⟨request, .latched summary⟩] } := by
  have h := h.tail (only_close calls (.latchSealed sealed))
  have h := h.tail (only_close rfl (.exchange sealed))
  iterate 9 have h := h.tail (only_close rfl .read)
  exact ⟨_, rfl, h.tail (only_close rfl (.set unset rfl))⟩

end Samples

/-- A structural event. -/
def sampleEvent : QueueEvent (DispatchEvent Unit) :=
  ⟨⟨1, (), by decide⟩, .spanFinished, 100, .structural, by decide⟩

/-- The act of the sink. -/
theorem sampleAct_valid : validateRunLocalId "act-1" = .ok () := by decide +kernel

def sampleAct : RunLocalId := ⟨"act-1", sampleAct_valid⟩

/-- The terminal event is enqueued and delivered, the act is finished, and the sink closes. -/
theorem sink_seal_protocol_complete : ∃ w : SinkWorld Unit,
    ReflTransGen WorldStep (.new ⟨0⟩ sampleAct .new []) w ∧
      ∃ summary, w.state.gate.summary = some summary ∧ summary.complete = true ∧
        AllDelivered w summary := by
  have h : ReflTransGen WorldStep (.new ⟨0⟩ sampleAct .new []) _ :=
    .single (.beginEnqueue (.terminal sampleEvent rfl))
  have h := h.tail (only_enqueue rfl (.loadPhase rfl))
  have h := h.tail (only_enqueue rfl (.loadTerminal rfl))
  have h := h.tail (only_enqueue rfl .count)
  have h := h.tail (only_enqueue rfl (.reloadPhase rfl))
  have h := h.tail (only_enqueue rfl (.reloadTerminal rfl))
  have h := h.tail (only_enqueue rfl (.claim rfl rfl))
  have h := h.tail (only_enqueue rfl (.sequence rfl rfl))
  have h := h.tail (only_enqueue rfl (.beginAdmit rfl rfl rfl))
  have h := h.tail (only_pass rfl rfl rfl rfl)
  have h := h.tail (only_enqueue rfl .keep)
  have h := h.tail (only_enqueue rfl .leave)
  have h := h.tail (.drive (.dispatch rfl rfl rfl rfl rfl))
  have h := h.tail (.drive (.returnNone rfl))
  have h := h.tail (.drive (.settle rfl rfl))
  have h := h.tail (.drive (.complete rfl rfl rfl rfl))
  have h := h.tail (.drive (.recordFirst rfl))
  have h := h.tail (.drive (.recordLast rfl))
  have h := h.tail (.drive (.recordCount rfl))
  have h := h.tail (.drive (.settled rfl))
  have h := h.tail (.beginSeal ⟨.actFinished, some .completed, fun _ => rfl⟩)
  have h := h.tail (only_seal rfl (.check fun _ => rfl))
  have h := h.tail (only_seal rfl (.exchange rfl))
  have h := h.tail (only_seal rfl (.drain rfl))
  have h := h.tail (only_seal rfl (.latch rfl))
  have h := h.tail (only_seal rfl .finish)
  have h := h.tail (.beginClose .drained)
  have h := h.tail (only_close rfl (.drainSealed rfl))
  have h := h.tail (only_close rfl (.drainIdle rfl rfl rfl))
  have h := h.tail (only_close rfl (.drainSettled rfl))
  have h := h.tail (only_close rfl (.drainChoose rfl))
  obtain ⟨_, rfl, h⟩ := only_latch h rfl rfl rfl
  exact ⟨_, h, _, rfl, rfl, ((sink_seal_protocol .refl h).2 _ rfl).2.2.2.2 rfl⟩

/-- An event whose callback returned a value is neither delivered nor dropped. -/
theorem failed_callback_unaccounted : ∃ w : SinkWorld Unit,
    ReflTransGen WorldStep (.new ⟨0⟩ sampleAct .new []) w ∧
      (∃ call ∈ w.seals, call.stage = .returned (.ok ())) ∧ w.acceptedEvents.length = 1 ∧
      ∃ summary, w.state.gate.summary = some summary ∧ summary.deliveredEvents = 0 ∧
        summary.droppedEvents = 0 := by
  have h : ReflTransGen WorldStep (.new ⟨0⟩ sampleAct .new []) _ :=
    .single (.beginEnqueue (.event sampleEvent))
  have h := h.tail (only_enqueue rfl (.loadPhase rfl))
  have h := h.tail (only_enqueue rfl (.loadTerminal rfl))
  have h := h.tail (only_enqueue rfl .count)
  have h := h.tail (only_enqueue rfl (.reloadPhase rfl))
  have h := h.tail (only_enqueue rfl (.reloadTerminal rfl))
  have h := h.tail (only_enqueue rfl (.sequence rfl rfl))
  have h := h.tail (only_enqueue rfl (.beginAdmit rfl rfl rfl))
  have h := h.tail (only_pass rfl rfl rfl rfl)
  have h := h.tail (only_enqueue rfl .keep)
  have h := h.tail (only_enqueue rfl .leave)
  have h := h.tail (.drive (.dispatch rfl rfl rfl rfl rfl))
  have h := h.tail (.drive (.returnOther rfl))
  have h := h.tail (.drive (.failComplete rfl rfl rfl rfl))
  have h := h.tail (.drive (.discard rfl rfl rfl))
  have h := h.tail (.beginSeal ⟨.runtimeShutdown, none, nofun⟩)
  have h := h.tail (only_seal rfl (.check nofun))
  have h := h.tail (only_seal rfl (.exchange rfl))
  have h := h.tail (only_seal rfl (.drain rfl))
  have h := h.tail (only_seal rfl (.latch rfl))
  have h := h.tail (only_seal rfl .finish)
  have h := h.tail (.beginClose .drained)
  have h := h.tail (only_close rfl (.drainSealed rfl))
  have h := h.tail (only_close rfl (.drainIdle rfl rfl rfl))
  have h := h.tail (only_close rfl (.drainSettled rfl))
  have h := h.tail (only_close rfl (.drainChoose rfl))
  obtain ⟨_, rfl, h⟩ := only_latch h rfl rfl rfl
  exact ⟨_, h, ⟨_, List.mem_singleton_self _, rfl⟩, rfl, _, rfl, rfl, rfl⟩

/-- An event that is queued when the runtime shuts down is neither delivered nor dropped. -/
theorem shutdown_leaves_queued : ∃ w : SinkWorld Unit,
    ReflTransGen WorldStep (.new ⟨0⟩ sampleAct .new []) w ∧ w.acceptedEvents.length = 1 ∧
      ∃ summary, w.state.gate.summary = some summary ∧ summary.deliveredEvents = 0 ∧
        summary.droppedEvents = 0 ∧ summary.complete = false := by
  have h : ReflTransGen WorldStep (.new ⟨0⟩ sampleAct .new []) _ :=
    .single (.beginEnqueue (.event sampleEvent))
  have h := h.tail (only_enqueue rfl (.loadPhase rfl))
  have h := h.tail (only_enqueue rfl (.loadTerminal rfl))
  have h := h.tail (only_enqueue rfl .count)
  have h := h.tail (only_enqueue rfl (.reloadPhase rfl))
  have h := h.tail (only_enqueue rfl (.reloadTerminal rfl))
  have h := h.tail (only_enqueue rfl (.sequence rfl rfl))
  have h := h.tail (only_enqueue rfl (.beginAdmit rfl rfl rfl))
  have h := h.tail (only_pass rfl rfl rfl rfl)
  have h := h.tail (only_enqueue rfl .keep)
  have h := h.tail (only_enqueue rfl .leave)
  have h := h.tail (.beginSeal ⟨.runtimeShutdown, none, nofun⟩)
  have h := h.tail (only_seal rfl (.check nofun))
  have h := h.tail (only_seal rfl (.exchange rfl))
  have h := h.tail (only_seal rfl (.drain rfl))
  have h := h.tail (only_seal rfl (.latch rfl))
  have h := h.tail (only_seal rfl .finish)
  have h := h.tail (.beginClose (.runtimeShutdown false))
  have h := h.tail (only_close rfl (.shutdownUnset rfl))
  have h := h.tail (only_close rfl (.shutdownSnapshot rfl))
  obtain ⟨_, rfl, h⟩ := only_latch h rfl rfl rfl
  exact ⟨_, h, rfl, _, rfl, rfl, rfl, rfl⟩

end Troupe.Sink
