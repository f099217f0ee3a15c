import Troupe.Sink.Producers

/-! # What the driver did

Where the event of the callback is, and what the delivery counters say about the completed ones.

Result: **`driven_step`**. -/

namespace Troupe.Sink

variable {V : Type}

/-! ## What the driver did -/

/-- `delivery_settling` is set. -/
def DriverStage.settles : DriverStage → Bool
  | .settling _ | .recordingFirst _ | .recordingLast _ | .recordingCount | .settled | .unsettled _
  | .stopping => true
  | _ => false

/-- The delivery that `delivered_events` does not count yet. -/
def DriverStage.uncounted : DriverStage → Nat
  | .recordingFirst _ | .recordingLast _ | .recordingCount => 1
  | _ => 0

/-- The task is ending. -/
def DriverStage.ends : DriverStage → Bool
  | .failing _ | .discarding | .done => true
  | _ => false

/-- The event of the callback, as the stage of the task has it. -/
def Driver.Holds (d : Driver) (inCallback : Option (QueueEvent (DispatchEvent V))) : Prop :=
  match d.stage with
  | .running sequence | .succeeding sequence _ | .settling sequence | .unsettled sequence =>
    d.active.isSome = true ∧ inCallback.map (·.item.sequence) = some sequence
  | .failing _ => d.active.isSome = inCallback.isSome
  | .stopping | .done => True
  | _ => d.active = none ∧ inCallback = none

/-- Where the events went that the driver took from the queue. -/
structure Driven (s : SinkState V) (d : Driver) : Prop where
  delivered : (s.queue.delivered : Multiset (QueueEvent (DispatchEvent V))) =
    s.delivery.succeeded + s.delivery.failed
  settling : s.delivery.deliverySettling = d.stage.settles
  counted : (s.delivery.deliveredEvents + d.stage.uncounted) % 2 ^ 64 =
    s.delivery.succeeded.length % 2 ^ 64
  counter : s.delivery.deliveredEvents < 2 ^ 64
  callback : d.Holds s.queue.inCallback
  alive : d.stage.ends = false →
    s.delivery.failed = [] ∧ s.delivery.callbackFailure = none
  ending : d.stage.ends = true → d.stage ≠ .done →
    s.delivery.callbackFailure.isSome = true ∨ s.delivery.runtimeCancelRequested = true
  failure : ∀ failure, s.delivery.callbackFailure = some failure →
    (s.delivery.failed ++ s.queue.inCallback.toList).map (·.item.sequence) =
      [failure.eventSequence]
  failed : s.delivery.failed = [] ∨ s.delivery.failed.length = 1 ∧ s.queue.inCallback = none ∧
    (s.delivery.callbackFailure.isSome = true ∨ s.delivery.runtimeCancelRequested = true)

section Driven

variable {s s' : SinkState V} {d d' : Driver} {w w' : SinkWorld V}
  {cancelPending stopRequested : Bool}

/-- Producers leave the callback and what was delivered alone. -/
theorem enqueue_callback {call call' : EnqueueCall V} (h : EnqueueStep s call s' call') :
    s'.queue.inCallback = s.queue.inCallback ∧ s'.queue.delivered = s.queue.delivered := by
  have hadvance {event : QueueEvent (DispatchEvent V)} {plan : EvictionPlan}
      {progress : AdmitProgress (DispatchEvent V)} {budget : RuntimeBudget}
      {queue : TrackedQueue (DispatchEvent V)}
      (h : s.queue.advance s.budget event plan progress = (budget, queue)) :
      queue.inCallback = s.queue.inCallback ∧ queue.delivered = s.queue.delivered := by
    cases progress <;> cases h <;> exact ⟨rfl, rfl⟩
  cases h
  case sequence event _ _ =>
    obtain ⟨last, failure, hrecord⟩ := recordEnqueueSequence_spec s event.item.sequence
    rw [hrecord]
    exact ⟨rfl, rfl⟩
  case beginAdmit event queue budget carries unlocked begins => exact hadvance begins
  case admitPass event plan queue budget carries locked passes => exact hadvance passes
  all_goals exact ⟨rfl, rfl⟩

/-- What a completed callback leaves. -/
theorem completeCallback_ok {q q' : TrackedQueue (DispatchEvent V)} {budget budget' : RuntimeBudget}
    {ticket : Nat} (h : q.completeCallback budget ticket = (.ok (), q', budget')) :
    q'.inCallback = none ∧ q'.delivered = q.delivered ++ q.inCallback.toList := by
  unfold TrackedQueue.completeCallback at h
  generalize q.queue.tryCompleteCallback budget ticket = result at h
  obtain ⟨answer, queue, next⟩ := result
  cases h
  exact ⟨rfl, rfl⟩

/-- A callback that could not be completed stays. -/
theorem completeCallback_error {q q' : TrackedQueue (DispatchEvent V)}
    {budget budget' : RuntimeBudget} {ticket : Nat} {error : QueueAccessError}
    (h : q.completeCallback budget ticket = (.error error, q', budget')) :
    q'.inCallback = q.inCallback ∧ q'.delivered = q.delivered := by
  unfold TrackedQueue.completeCallback at h
  generalize q.queue.tryCompleteCallback budget ticket = result at h
  obtain ⟨answer, queue, next⟩ := result
  cases h
  exact ⟨rfl, rfl⟩

/-- What the driver's fields say depends on the callback and what was delivered only. -/
theorem Driven.congr (h : Driven s d) (s' : SinkState V) (hdelivery : s'.delivery = s.delivery)
    (hcallback : s'.queue.inCallback = s.queue.inCallback)
    (hdelivered : s'.queue.delivered = s.queue.delivered) : Driven s' d := by
  constructor <;> simp only [hdelivery, hcallback, hdelivered]
  · exact h.delivered
  · exact h.settling
  · exact h.counted
  · exact h.counter
  · exact h.callback
  · exact h.alive
  · exact h.ending
  · exact h.failure
  · exact h.failed

/-- A move of the task that changes no field of the sink. -/
theorem Driven.move (h : Driven s d) (hsettles : d'.stage.settles = d.stage.settles)
    (huncounted : d'.stage.uncounted = d.stage.uncounted) (hholds : d'.Holds s.queue.inCallback)
    (halive : d'.stage.ends = false → d.stage.ends = false)
    (hending : d'.stage.ends = true → d'.stage ≠ .done →
      s.delivery.callbackFailure.isSome = true ∨ s.delivery.runtimeCancelRequested = true) :
    Driven s d' :=
  ⟨h.delivered, h.settling.trans hsettles.symm, by rw [huncounted]; exact h.counted, h.counter,
    hholds, fun hends => h.alive (halive hends), hending, h.failure, h.failed⟩

/-- The first failure of the callback is recorded, and its event is not yet completed. -/
theorem Driven.fail {sequence : Nat} {failure : CallbackFailure} {active : Option (Nat × Nat)}
    (h : Driven s ⟨.running sequence, active, cancelPending, stopRequested⟩)
    (hevent : failure.eventSequence = sequence) :
    Driven (s.recordCallbackFailure failure)
      ⟨.failing false, active, cancelPending, stopRequested⟩ := by
  obtain ⟨hactive, hcallback⟩ := h.callback
  obtain ⟨hfailed, hnone⟩ := h.alive rfl
  obtain ⟨event, hsome, hsequence⟩ := Option.map_eq_some_iff.mp hcallback
  refine ⟨h.delivered, h.settling, h.counted, h.counter, ?_, nofun, fun _ _ => .inl rfl, ?_,
    .inl hfailed⟩
  · show active.isSome = s.queue.inCallback.isSome
    rw [hactive, hsome]
    rfl
  · intro latched hlatched
    have hfirst : latched = failure := by
      unfold SinkState.recordCallbackFailure at hlatched
      rw [hnone] at hlatched
      exact (Option.some.inj hlatched).symm
    show (s.delivery.failed ++ s.queue.inCallback.toList).map (·.item.sequence) = _
    rw [hfirst, hevent, hfailed, hsome, ← hsequence]
    rfl

/-- The callback is completed after a success. -/
theorem Driven.complete {sequence : Nat} {active : Option (Nat × Nat)}
    {queue : TrackedQueue (DispatchEvent V)}
    {budget : RuntimeBudget}
    (h : Driven s ⟨.settling sequence, active, cancelPending, stopRequested⟩)
    (hcallback : queue.inCallback = none)
    (hdelivered : queue.delivered = s.queue.delivered ++ s.queue.inCallback.toList) :
    Driven
      { s.withQueue queue budget with
        delivery.succeeded := s.delivery.succeeded ++ s.queue.inCallback.toList }
      ⟨.recordingFirst sequence, none, cancelPending, stopRequested⟩ := by
  obtain ⟨event, hsome, -⟩ := Option.map_eq_some_iff.mp h.callback.2
  obtain ⟨hfailed, hnone⟩ := h.alive rfl
  have hcounted := h.counted
  refine ⟨?_, h.settling, ?_, h.counter, ⟨rfl, hcallback⟩, fun _ => ⟨hfailed, hnone⟩, nofun, ?_,
    .inl hfailed⟩
  · have hall := h.delivered
    rw [hfailed] at hall
    show (queue.delivered : Multiset (QueueEvent (DispatchEvent V))) =
      (s.delivery.succeeded ++ s.queue.inCallback.toList : List (QueueEvent (DispatchEvent V))) +
        s.delivery.failed
    rw [hdelivered, hfailed, ← Multiset.coe_add, ← Multiset.coe_add, hall]
    simp
  · show (s.delivery.deliveredEvents + 1) % 2 ^ 64 =
      (s.delivery.succeeded ++ s.queue.inCallback.toList).length % 2 ^ 64
    rw [hsome, List.length_append]
    simp only [DriverStage.uncounted, Option.toList_some, List.length_singleton] at hcounted ⊢
    omega
  · intro failure hfailure
    exact absurd (hnone.symm.trans hfailure) nofun

/-- The callback is completed after a failure. -/
theorem Driven.failComplete {retried : Bool} {entry : Nat × Nat}
    {queue : TrackedQueue (DispatchEvent V)}
    {budget : RuntimeBudget}
    (h : Driven s ⟨.failing retried, some entry, cancelPending, stopRequested⟩)
    (hcallback : queue.inCallback = none)
    (hdelivered : queue.delivered = s.queue.delivered ++ s.queue.inCallback.toList) :
    Driven
      { s.withQueue queue budget with
        delivery.failed := s.delivery.failed ++ s.queue.inCallback.toList }
      ⟨.discarding, none, cancelPending, stopRequested⟩ := by
  have hsome : s.queue.inCallback.isSome = true := h.callback.symm
  obtain ⟨event, hevent⟩ := Option.isSome_iff_exists.mp hsome
  have hfailed : s.delivery.failed = [] := by
    rcases h.failed with hfailed | ⟨-, hnone, -⟩
    · exact hfailed
    · rw [hnone] at hsome
      cases hsome
  have hreason := h.ending rfl nofun
  refine ⟨?_, h.settling, h.counted, h.counter, ⟨rfl, hcallback⟩, nofun, fun _ _ => hreason, ?_,
    .inr ⟨?_, hcallback, hreason⟩⟩
  · show (queue.delivered : Multiset (QueueEvent (DispatchEvent V))) =
      s.delivery.succeeded +
        (s.delivery.failed ++ s.queue.inCallback.toList : List (QueueEvent (DispatchEvent V)))
    rw [hdelivered, ← Multiset.coe_add, ← Multiset.coe_add, h.delivered, add_assoc]
  · intro failure hfailure
    have hold := h.failure failure hfailure
    show ((s.delivery.failed ++ s.queue.inCallback.toList) ++ queue.inCallback.toList).map _ = _
    rw [hcallback, Option.toList_none, List.append_nil]
    exact hold
  · show (s.delivery.failed ++ s.queue.inCallback.toList).length = 1
    rw [hfailed, hevent]
    rfl

/-- **Every step of the driver keeps its books.** -/
theorem driven_drive (h : Driven s d) (hstep : DriverStep s d s' d') : Driven s' d' := by
  have hending := h.ending
  obtain ⟨stage, active, cancelPending, stopRequested⟩ := d
  cases hstep with
  | noDispatch polling =>
    cases polling
    exact h.move rfl rfl h.callback (fun _ => rfl) nofun
  | dispatch polling running unlocked begins free =>
    cases polling
    obtain ⟨hfailed, hnone⟩ := h.alive rfl
    exact ⟨h.delivered, h.settling, h.counted, h.counter, ⟨rfl, rfl⟩,
      fun _ => ⟨hfailed, hnone⟩, nofun,
      fun failure hfailure => absurd (hnone.symm.trans hfailure) nofun, .inl hfailed⟩
  | dispatchBusy polling running unlocked begins busy =>
    cases polling
    exact absurd (h.callback.1.symm.trans busy) nofun
  | stop idle stopped unlocked =>
    cases idle
    have hmoved := h.congr s.discardQueued rfl rfl rfl
    exact hmoved.move rfl rfl trivial nofun (fun _ hdone => absurd rfl hdone)
  | leave idle leaves =>
    cases idle
    exact h.move rfl rfl trivial nofun (fun _ hdone => absurd rfl hdone)
  | sleep idle running =>
    cases idle
    exact h.move rfl rfl h.callback (fun _ => rfl) nofun
  | wake sleeping =>
    cases sleeping
    exact h.move rfl rfl h.callback (fun _ => rfl) nofun
  | returnNone running =>
    cases running
    exact h.move rfl rfl h.callback (fun _ => rfl) nofun
  | returnOther running =>
    cases running
    exact h.fail rfl
  | raise running kind event =>
    cases running
    exact h.fail event
  | cancelRunning running requested =>
    cases running
    obtain ⟨hactive, hcallback⟩ := h.callback
    refine h.move rfl rfl ?_ nofun (fun _ _ => .inr requested)
    obtain ⟨event, hsome, -⟩ := Option.map_eq_some_iff.mp hcallback
    exact hactive.trans (by rw [hsome]; rfl)
  | cancelSleeping sleeping requested pending =>
    cases sleeping
    obtain ⟨hactive, hcallback⟩ := h.callback
    refine h.move rfl rfl ?_ nofun (fun _ _ => .inr requested)
    show active.isSome = s.queue.inCallback.isSome
    rw [hcallback, show active = none from hactive]
    rfl
  | cancelRetry succeeding requested pending =>
    cases succeeding
    obtain ⟨hactive, hcallback⟩ := h.callback
    refine h.move rfl rfl ?_ nofun (fun _ _ => .inr requested)
    obtain ⟨event, hsome, -⟩ := Option.map_eq_some_iff.mp hcallback
    exact hactive.trans (by rw [hsome]; rfl)
  | cancelHandler failing pending =>
    cases failing
    exact h.move rfl rfl trivial nofun (fun _ hdone => absurd rfl hdone)
  | settle succeeding active =>
    cases succeeding
    exact ⟨h.delivered, rfl, h.counted, h.counter, h.callback, h.alive, nofun, h.failure, h.failed⟩
  | mismatch succeeding other =>
    cases succeeding
    have hmoved := h.congr
      (s.recordUnexpectedFailure "callback_complete"
        "callback sequence does not match active delivery") rfl rfl rfl
    exact hmoved.move rfl rfl trivial nofun (fun _ hdone => absurd rfl hdone)
  | settleContended settling =>
    cases settling
    exact h.move rfl rfl h.callback (fun _ => rfl) nofun
  | complete settling active unlocked completes =>
    cases settling
    obtain ⟨hcallback, hdelivered⟩ := completeCallback_ok completes
    exact h.complete hcallback hdelivered
  | @completeError sequence ticket queue budget error settling active unlocked completes =>
    cases settling
    obtain ⟨hcallback, hdelivered⟩ := completeCallback_error completes
    have hmoved := h.congr
      ((s.withQueue queue budget).recordUnexpectedFailure "callback_complete" error.text) rfl
      hcallback hdelivered
    exact hmoved.move rfl rfl trivial (fun _ => rfl) nofun
  | recordFirst recording =>
    cases recording
    exact ⟨h.delivered, h.settling, h.counted, h.counter, h.callback, h.alive, nofun, h.failure,
      h.failed⟩
  | recordLast recording =>
    cases recording
    exact ⟨h.delivered, h.settling, h.counted, h.counter, h.callback, h.alive, nofun, h.failure,
      h.failed⟩
  | recordCount recording =>
    cases recording
    refine ⟨h.delivered, h.settling, ?_, Nat.mod_lt _ (by decide), h.callback, h.alive, nofun,
      h.failure, h.failed⟩
    show ((s.delivery.deliveredEvents + 1) % 2 ^ 64 + 0) % 2 ^ 64 = _
    rw [Nat.add_zero, Nat.mod_mod]
    exact h.counted
  | settled settled =>
    cases settled
    exact ⟨h.delivered, rfl, h.counted, h.counter, h.callback, h.alive, nofun, h.failure, h.failed⟩
  | unsettled unsettled =>
    cases unsettled
    exact ⟨h.delivered, rfl, h.counted, h.counter, h.callback, h.alive, nofun, h.failure, h.failed⟩
  | stopped stopping =>
    cases stopping
    exact ⟨h.delivered, rfl, h.counted, h.counter, trivial, nofun,
      fun _ hdone => absurd rfl hdone, h.failure, h.failed⟩
  | failContended failing =>
    cases failing
    exact h.move rfl rfl h.callback nofun (fun _ _ => hending rfl nofun)
  | failComplete failing active unlocked completes =>
    cases failing
    cases active
    obtain ⟨hcallback, hdelivered⟩ := completeCallback_ok completes
    exact h.failComplete hcallback hdelivered
  | @failError retried entry queue budget error failing active unlocked completes =>
    cases failing
    obtain ⟨hcallback, hdelivered⟩ := completeCallback_error completes
    have hmoved := h.congr
      ((s.withQueue queue budget).recordUnexpectedFailure "callback_complete" error.text) rfl
      hcallback hdelivered
    exact hmoved.move rfl rfl trivial nofun (fun _ hdone => absurd rfl hdone)
  | failIdle failing free =>
    cases failing
    cases free
    refine h.move rfl rfl ⟨rfl, ?_⟩ nofun (fun _ _ => hending rfl nofun)
    have hnone : s.queue.inCallback.isSome = false := h.callback.symm
    exact Option.isNone_iff_eq_none.mp (by simpa using hnone)
  | discardContended discarding =>
    cases discarding
    obtain ⟨hactive, hcallback⟩ := h.callback
    refine h.move rfl rfl ?_ nofun (fun _ _ => hending rfl nofun)
    show active.isSome = s.queue.inCallback.isSome
    rw [hcallback, show active = none from hactive]
    rfl
  | discard discarding unlocked discards =>
    cases discarding
    have hmoved := h.congr s.discardQueued rfl rfl rfl
    exact hmoved.move rfl rfl trivial nofun (fun _ hdone => absurd rfl hdone)
  | @discardError error discarding unlocked discards =>
    cases discarding
    have hmoved := h.congr
      (s.discardQueued.recordUnexpectedFailure "callback_discard" error.text) rfl rfl rfl
    exact hmoved.move rfl rfl trivial nofun (fun _ hdone => absurd rfl hdone)

/-- Every step keeps the driver's books. -/
theorem driven_step (h : Driven w.state w.driver) (hstep : WorldStep w w') :
    Driven w'.state w'.driver := by
  cases hstep with
  | enqueueCall calls step =>
    obtain ⟨-, hdelivery, -⟩ := enqueue_frame step
    obtain ⟨hcallback, hdelivered⟩ := enqueue_callback step
    exact h.congr _ hdelivery hcallback hdelivered
  | sealCall calls step =>
    rw [(seal_frame step).1]
    exact h.congr _ rfl rfl rfl
  | closeCall calls step =>
    rw [(close_frame step).1]
    exact h.congr _ rfl rfl rfl
  | drive step => exact driven_drive h step
  | discard unlocked => exact h.congr _ rfl rfl rfl
  | requestCancel live once =>
    exact ⟨h.delivered, h.settling, h.counted, h.counter, h.callback, h.alive,
      fun _ _ => .inr rfl, h.failure,
      h.failed.imp_right fun ⟨hlength, hcallback, _⟩ => ⟨hlength, hcallback, .inr rfl⟩⟩
  | requestStop => exact h.move rfl rfl h.callback id h.ending
  | other step => exact h.congr _ rfl rfl rfl
  | _ => exact h

end Driven

end Troupe.Sink
