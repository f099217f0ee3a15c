import Mathlib.Algebra.Order.Group.Multiset
import Mathlib.Tactic.Abel
import Troupe.Lib.Transition
import Troupe.Sink.Queue

/-! # Conservation of sink events

Any number of sink queues over one budget, used by any number of threads.

* A step is one call on one queue under its lock, one pass of an admission that holds the lock, or an
  admission that finds the lock taken. A call that returns an error changes nothing and needs no
  step, except where the model of the call says otherwise.
* `TrackedQueue` adds history to a queue: the events offered to it (whose `try_admit` returned), and
  those delivered and dropped. `SinkRuntime.queues` are the live ones.

Results: **`queue_step`**, what a step does to one queue and the budget, and **`sink_conservation`**:
in every reachable state offered events are in one place, the ledgers count the dropped ones, and the
shared usage is that of the live queues. -/

namespace Troupe.Sink

open Relation (ReflTransGen)
open Troupe.Core Troupe.Lib

variable {T : Type}

/-! ## Steps -/

/-- A queue, the admission that holds its lock, and its history. -/
structure TrackedQueue (T : Type) where
  queue : SinkQueue T
  admission : Option (QueueEvent T × EvictionPlan)
  inCallback : Option (QueueEvent T)
  offered : List (QueueEvent T)
  delivered : List (QueueEvent T)
  dropped : List (QueueEvent T)

/-- The queues of a runtime that were not dropped, and their budget. -/
structure SinkRuntime (T : Type) where
  budget : RuntimeBudget
  queues : List (TrackedQueue T)

namespace TrackedQueue

/-- A queue that was just created. -/
def new (T : Type) (limits : SinkQueueLimits) : TrackedQueue T :=
  ⟨.withLimits T limits, none, none, [], [], []⟩

/-- The events that an admission drops. -/
def lost (q : TrackedQueue T) (event : QueueEvent T) (plan : EvictionPlan) :
    AdmissionOutcome → List (QueueEvent T)
  | .enqueued _ => plan.victims.filterMap fun victim => q.queue.state.queued[victim.index]?
  | .dropped _ _ => [event]
  | .terminalized _ => q.queue.state.queued ++ [event]

/-- The queue and the budget after a part of an admission. -/
def advance (q : TrackedQueue T) (budget : RuntimeBudget) (event : QueueEvent T)
    (plan : EvictionPlan) : AdmitProgress T → RuntimeBudget × TrackedQueue T
  | .returned outcome queue budget =>
    (budget,
      { q with
        queue
        admission := none
        offered := q.offered ++ [event]
        dropped := q.dropped ++ q.lost event plan outcome })
  | .looping plan => (budget, { q with admission := some (event, plan) })
  | .panicked _ => (budget, { q with admission := none, offered := q.offered ++ [event] })

end TrackedQueue

/-- One step on one queue and the budget. -/
inductive QueueStep : RuntimeBudget → TrackedQueue T → RuntimeBudget → TrackedQueue T → Prop
  /-- `try_admit` finds the lock taken. -/
  | contend {budget : RuntimeBudget} {q : TrackedQueue T} (event : QueueEvent T) :
      QueueStep budget q budget
        { q with
          queue := { q.queue with drops := q.queue.drops.record event.metadata.dropDelta }
          offered := q.offered ++ [event]
          dropped := q.dropped ++ [event] }
  | beginAdmit {budget budget' : RuntimeBudget} {q q' : TrackedQueue T} (event : QueueEvent T)
      (unlocked : q.admission = none)
      (begins : q.advance budget event .start (q.queue.beginAdmit budget event) = (budget', q')) :
      QueueStep budget q budget' q'
  | admitPass {budget budget' : RuntimeBudget} {q q' : TrackedQueue T} {event : QueueEvent T}
      {plan : EvictionPlan} (locked : q.admission = some (event, plan))
      (passes : q.advance budget event plan (q.queue.admitPass budget event plan) =
        (budget', q')) :
      QueueStep budget q budget' q'
  | beginCallback {budget : RuntimeBudget} {q : TrackedQueue T} {delivery : CallbackDelivery T}
      {queue : SinkQueue T} (unlocked : q.admission = none)
      (begins : q.queue.tryBeginCallback = (some delivery, queue)) :
      QueueStep budget q budget
        { q with queue, inCallback := some ⟨delivery.item, delivery.metadata⟩ }
  | completeCallback {budget budget' : RuntimeBudget} {q : TrackedQueue T} {queue : SinkQueue T}
      {answer : Except QueueAccessError Unit} (ticket : Nat) (unlocked : q.admission = none)
      (completes : q.queue.tryCompleteCallback budget ticket = (answer, queue, budget')) :
      QueueStep budget q budget'
        { q with
          queue
          inCallback := if answer.isOk then none else q.inCallback
          delivered := if answer.isOk then q.delivered ++ q.inCallback.toList else q.delivered }
  | discard {budget budget' : RuntimeBudget} {q : TrackedQueue T} {queue : SinkQueue T}
      {answer : Except QueueAccessError (List DropDelta)} (unlocked : q.admission = none)
      (discards : q.queue.discardQueuedLocked budget = (answer, queue, budget')) :
      QueueStep budget q budget'
        { q with
          queue
          dropped := if answer.isOk then q.dropped ++ q.queue.state.queued else q.dropped }

/-- One step of the runtime. -/
inductive SinkStep : SinkRuntime T → SinkRuntime T → Prop
  | create {budget : RuntimeBudget} {queues : List (TrackedQueue T)} (limits : SinkQueueLimits) :
      SinkStep ⟨budget, queues⟩ ⟨budget, queues ++ [.new T limits]⟩
  | use {budget budget' : RuntimeBudget} {before after : List (TrackedQueue T)}
      {q q' : TrackedQueue T} (step : QueueStep budget q budget' q') :
      SinkStep ⟨budget, before ++ q :: after⟩ ⟨budget', before ++ q' :: after⟩
  /-- A queue is dropped, which no admission is using. -/
  | drop {budget : RuntimeBudget} {before after : List (TrackedQueue T)} {q : TrackedQueue T}
      (unlocked : q.admission = none) :
      SinkStep ⟨budget, before ++ q :: after⟩ ⟨(q.queue.drop budget).2, before ++ after⟩

/-! ## Eviction -/

/-- The victims are the content events before the cursor. -/
inductive Planned (queued : List (QueueEvent T)) : List Victim → Nat → Prop
  | start : Planned queued [] 0
  | next {victims : List Victim} {cursor : Nat} {skipped after : List (QueueEvent T)}
      {event : QueueEvent T} (planned : Planned queued victims cursor)
      (split : queued.drop cursor = skipped ++ event :: after)
      (structural : ∀ other ∈ skipped, other.isContent = false) (content : event.isContent = true) :
      Planned queued (victims ++ [⟨cursor + skipped.length, event.metadata⟩])
        (cursor + skipped.length + 1)

section Eviction

variable {queued : List (QueueEvent T)} {victims : List Victim} {cursor : Nat}

/-- `find` stops at the first content event from the cursor on. -/
theorem findVictim_eq_some {victim : Victim} (h : findVictim queued cursor = some victim) :
    ∃ skipped event after, queued.drop cursor = skipped ++ event :: after ∧
      (∀ other ∈ skipped, other.isContent = false) ∧ event.isContent = true ∧
      victim = ⟨cursor + skipped.length, event.metadata⟩ := by
  unfold findVictim at h
  obtain ⟨found, hfound, rfl⟩ := Option.map_eq_some_iff.mp h
  obtain ⟨hcontent, before, after, hsplit, hbefore⟩ := List.find?_eq_some_iff_append.mp hfound
  have hindex : found.2 = cursor + before.length := by
    have hget := congrArg (·[before.length]?) hsplit
    simp only [List.getElem?_drop, List.getElem?_zipIdx] at hget
    rw [List.getElem?_append_right (Nat.le_refl _), Nat.sub_self, List.getElem?_cons_zero] at hget
    obtain ⟨event, -, heq⟩ := Option.map_eq_some_iff.mp hget
    rw [← heq]
    simp
  have hevents := congrArg (List.map Prod.fst) hsplit
  rw [List.map_drop, List.zipIdx_map_fst, List.map_append, List.map_cons] at hevents
  refine ⟨before.map Prod.fst, found.1, after.map Prod.fst, hevents, ?_, hcontent, ?_⟩
  · intro other hother
    obtain ⟨pair, hpair, rfl⟩ := List.mem_map.mp hother
    simpa using hbefore pair hpair
  · rw [List.length_map, hindex]

theorem Planned.findVictim {victim : Victim} (h : Planned queued victims cursor)
    (hfind : findVictim queued cursor = some victim) :
    Planned queued (victims ++ [victim]) (victim.index + 1) := by
  obtain ⟨skipped, event, after, hsplit, hstructural, hcontent, rfl⟩ := findVictim_eq_some hfind
  exact .next h hsplit hstructural hcontent

theorem Planned.cursor_le (h : Planned queued victims cursor) : cursor ≤ queued.length := by
  cases h with
  | start => exact Nat.zero_le _
  | next planned split structural content =>
    have hlength := congrArg List.length split
    rw [List.length_drop, List.length_append, List.length_cons] at hlength
    omega

/-- The events up to the victim that was found. -/
theorem take_found {skipped after : List (QueueEvent T)} {event : QueueEvent T}
    (hsplit : queued.drop cursor = skipped ++ event :: after) :
    queued.take (cursor + skipped.length + 1) = queued.take cursor ++ skipped ++ [event] := by
  rw [Nat.add_assoc, List.take_add, hsplit, List.append_assoc]
  congr 1
  rw [List.take_append]
  simp

/-- The victims, removed from the back, leave the structural events before the cursor. -/
theorem Planned.remove (h : Planned queued victims cursor) (tail : List (QueueEvent T)) :
    victims.foldrM removeVictim (queued.take cursor ++ tail) =
      some ((queued.take cursor).filter (!·.isContent) ++ tail) := by
  induction h generalizing tail with
  | start => rfl
  | @next victims cursor skipped after event planned split structural content ih =>
    have hle := planned.cursor_le
    have hlength : (queued.take cursor ++ skipped).length = cursor + skipped.length := by
      rw [List.length_append, List.length_take, Nat.min_eq_left hle]
    have hskipped : skipped.filter (!·.isContent) = skipped := by
      rw [List.filter_eq_self]
      intro other hother
      simp [structural other hother]
    have hremove : removeVictim ⟨cursor + skipped.length, event.metadata⟩
        (queued.take cursor ++ skipped ++ [event] ++ tail) =
        some (queued.take cursor ++ (skipped ++ tail)) := by
      unfold removeVictim
      rw [if_pos (by simp only [List.length_append, List.length_singleton] at hlength ⊢; omega),
        ← hlength, List.append_assoc _ [event], List.eraseIdx_append_of_length_le (Nat.le_refl _)]
      simp
    rw [take_found split, List.foldrM_append]
    simp only [List.foldrM_cons, List.foldrM_nil, pure_bind]
    rw [hremove, Option.bind_eq_bind, Option.bind_some, ih]
    simp [List.filter_append, hskipped, content]

/-- The events of the victims are the content events before the cursor. -/
theorem Planned.evicted (h : Planned queued victims cursor) :
    (victims.filterMap fun victim => queued[victim.index]?) =
        (queued.take cursor).filter (·.isContent) ∧
      victims.map (·.metadata) = ((queued.take cursor).filter (·.isContent)).map (·.metadata) := by
  induction h with
  | start => exact ⟨rfl, rfl⟩
  | @next victims cursor skipped after event planned split structural content ih =>
    have hskipped : skipped.filter (·.isContent) = [] := by
      rw [List.filter_eq_nil_iff]
      intro other hother
      simp [structural other hother]
    have hget : queued[cursor + skipped.length]? = some event := by
      have hdrop := congrArg (·[skipped.length]?) split
      simpa using hdrop
    rw [take_found split, List.filterMap_append, ih.1, List.map_append, ih.2]
    simp [List.filter_append, hskipped, content, hget]

/-- A planned eviction splits the queue into content events that go and events that stay. -/
theorem Planned.splits (h : Planned queued victims cursor) : ∃ evicted remaining,
    victims.foldrM removeVictim queued = some remaining ∧
      (victims.filterMap fun victim => queued[victim.index]?) = evicted ∧
      victims.map (·.metadata) = evicted.map (·.metadata) ∧ queued.Perm (evicted ++ remaining) ∧
      ∀ event ∈ evicted, event.isContent = true := by
  obtain ⟨hevents, hmetadata⟩ := h.evicted
  have hremove := h.remove (queued.drop cursor)
  rw [List.take_append_drop] at hremove
  refine ⟨_, _, hremove, hevents, hmetadata, ?_, fun event hevent => (List.mem_filter.mp hevent).2⟩
  have hperm := (List.filter_append_perm (·.isContent) (queued.take cursor)).append_right
    (queued.drop cursor)
  rw [List.take_append_drop, List.append_assoc] at hperm
  exact hperm.symm

end Eviction

/-! ## Usage and ledger -/

/-- What the events hold of a budget. -/
def usageOf (events : List (QueueEvent T)) : BudgetUsage := (events.map (·.metadata.usage)).sum

/-- What a ledger says about one kind when exactly these events were dropped. -/
def countDropped (dropped : List (QueueEvent T)) (kind : DiagnosticEventKind) : DropCounter :=
  let ofKind := dropped.filter (·.metadata.eventKind = kind)
  ⟨min ofKind.length usizeMax, min (ofKind.map (·.metadata.encodedBytes)).sum usizeMax⟩

section Sums

variable {events other : List (QueueEvent T)} {ledger : DropLedger}

@[simp]
theorem usageOf_nil : usageOf ([] : List (QueueEvent T)) = 0 := rfl

@[simp]
theorem usageOf_singleton (event : QueueEvent T) : usageOf [event] = event.metadata.usage := by
  simp [usageOf]

@[simp]
theorem usageOf_append : usageOf (events ++ other) = usageOf events + usageOf other := by
  simp [usageOf]

@[simp]
theorem usageOf_cons (event : QueueEvent T) :
    usageOf (event :: other) = event.metadata.usage + usageOf other := by
  simp [usageOf]

theorem usageOf_perm (h : events.Perm other) : usageOf events = usageOf other :=
  (h.map _).sum_eq

theorem usageOf_metadata (events : List (QueueEvent T)) :
    usageOf events = ((events.map (·.metadata)).map EventMetadata.usage).sum := by
  rw [List.map_map]
  rfl

/-- One more drop is counted under its kind. -/
theorem record_counts {dropped : List (QueueEvent T)} (h : ledger.byKind = countDropped dropped)
    (event : QueueEvent T) :
    (ledger.record event.metadata.dropDelta).byKind = countDropped (dropped ++ [event]) := by
  funext kind
  have hrecord : (ledger.record event.metadata.dropDelta).byKind kind =
      if kind = event.metadata.eventKind then
        (countDropped dropped kind).record event.metadata.dropDelta
      else countDropped dropped kind := by
    rw [← h]
    rfl
  rw [hrecord]
  by_cases hkind : kind = event.metadata.eventKind
  · have hsame : [event].filter (·.metadata.eventKind = kind) = [event] := by simp [hkind]
    rw [if_pos hkind]
    simp only [countDropped, DropCounter.record, EventMetadata.dropDelta, List.filter_append, hsame,
      List.length_append, List.map_append, List.sum_append, saturatingAdd_min]
    simp
  · have hother : [event].filter (·.metadata.eventKind = kind) = [] := by simp [Ne.symm hkind]
    rw [if_neg hkind]
    simp only [countDropped, List.filter_append, hother, List.append_nil]

/-- More drops are counted under their kinds. -/
theorem recordAll_counts {dropped : List (QueueEvent T)} (h : ledger.byKind = countDropped dropped)
    (events : List (QueueEvent T)) :
    (ledger.recordAll (events.map (·.metadata.dropDelta))).byKind =
      countDropped (dropped ++ events) := by
  induction events generalizing ledger dropped with
  | nil =>
    rw [List.append_nil]
    exact h
  | cons event rest ih =>
    have hrest := ih (record_counts h event)
    rw [List.append_assoc] at hrest
    exact hrest

end Sums

/-! ## The invariant -/

/-- The plan of an admission is about this queue. -/
structure PlanOk (queued : List (QueueEvent T)) (plan : EvictionPlan) : Prop where
  planned : Planned queued plan.victims plan.victimCursor
  released : plan.released = (plan.victims.map (·.metadata.usage)).sum
  releasedContent : plan.releasedContent = plan.released

/-- What holds of one queue between two steps. -/
structure Conserved (q : TrackedQueue T) : Prop where
  /-- Every offered event is in one place. -/
  conserved : (q.offered : Multiset (QueueEvent T)) =
    q.delivered + q.inCallback.toList + q.queue.state.queued + q.dropped
  active : q.queue.state.activeCallback.map (·.metadata) = q.inCallback.map (·.metadata)
  total : q.queue.state.totalUsage = usageOf q.queue.state.queued + usageOf q.inCallback.toList
  content : q.queue.state.contentUsage = usageOf (q.queue.state.queued.filter (·.isContent)) +
    usageOf (q.inCallback.toList.filter (·.isContent))
  total_fits : q.queue.state.totalUsage.FitsWithin q.queue.limits.total
  content_fits : q.queue.state.contentUsage.FitsWithin q.queue.limits.content
  ledger : q.queue.drops.byKind = countDropped q.dropped
  plan : ∀ admission ∈ q.admission, PlanOk q.queue.state.queued admission.2

theorem conserved_new (limits : SinkQueueLimits) : Conserved (.new T limits) where
  conserved := rfl
  active := rfl
  total := rfl
  content := rfl
  total_fits := ⟨Nat.zero_le _, Nat.zero_le _⟩
  content_fits := ⟨Nat.zero_le _, Nat.zero_le _⟩
  ledger := by
    funext kind
    simp [countDropped, TrackedQueue.new, SinkQueue.withLimits, DropLedger.new]
  plan := by simp [TrackedQueue.new]

section Steps

variable {q q' : TrackedQueue T} {budget budget' : RuntimeBudget} {others : BudgetUsage}
  {limits : BudgetLimits} {event : QueueEvent T} {plan : EvictionPlan}

/-- What a step leaves: the queue's own books, and the others' share of the budget. -/
structure Balanced (q : TrackedQueue T) (budget : RuntimeBudget) (others : BudgetUsage)
    (limits : BudgetLimits) : Prop where
  conserved : Conserved q
  shared : budget.usage = others + q.queue.state.totalUsage
  limits : budget.limits = limits

/-- An offered event that is not enqueued is dropped. -/
theorem Conserved.lose (h : Conserved q) (event : QueueEvent T)
    (terminalReason : Option SinkTerminalReason) (admission : Option (QueueEvent T × EvictionPlan))
    (hplan : ∀ pending ∈ admission, PlanOk q.queue.state.queued pending.2) :
    Conserved
      { q with
        queue :=
          { q.queue with
            state := { q.queue.state with terminalReason }
            drops := q.queue.drops.record event.metadata.dropDelta }
        admission
        offered := q.offered ++ [event]
        dropped := q.dropped ++ [event] } where
  conserved := by
    rw [← Multiset.coe_add, h.conserved, ← Multiset.coe_add, ← add_assoc]
  active := h.active
  total := h.total
  content := h.content
  total_fits := h.total_fits
  content_fits := h.content_fits
  ledger := record_counts h.ledger event
  plan := hplan

/-- The usage of the active callback is that of its event. -/
theorem Conserved.callbackUsage (h : Conserved q) :
    (q.queue.state.activeCallback.map (·.metadata.usage)).getD 0 = usageOf q.inCallback.toList ∧
      ((q.queue.state.activeCallback.filter (·.metadata.admissionClass = .content)).map
          (·.metadata.usage)).getD 0 = usageOf (q.inCallback.toList.filter (·.isContent)) := by
  have hactive := h.active
  cases hcallback : q.inCallback with
  | none =>
    rw [hcallback, Option.map_none, Option.map_eq_none_iff] at hactive
    simp [hactive]
  | some event =>
    rw [hcallback, Option.map_some] at hactive
    obtain ⟨active, hsome, hmetadata⟩ := Option.map_eq_some_iff.mp hactive
    rw [hsome]
    refine ⟨by simp [hmetadata], ?_⟩
    by_cases hcontent : event.metadata.admissionClass = .content
    · simp [Option.filter, hmetadata, hcontent, QueueEvent.isContent]
    · simp [Option.filter, hmetadata, hcontent, QueueEvent.isContent]

/-- The queue without its queued events. -/
def TrackedQueue.discarded (q : TrackedQueue T) : SinkQueue T :=
  { q.queue with
    state :=
      { q.queue.state with
        queued := []
        totalUsage := usageOf q.inCallback.toList
        contentUsage := usageOf (q.inCallback.toList.filter (·.isContent)) }
    drops := q.queue.drops.recordAll (q.queue.state.queued.map (·.metadata.dropDelta)) }

/-- A discard succeeds and gives back what the queued events held. -/
theorem discard_spec (h : Balanced q budget others limits) : ∃ budget',
    q.queue.discardQueuedLocked budget =
        (.ok (q.queue.state.queued.map (·.metadata.dropDelta)), q.discarded, budget') ∧
      budget'.usage = others + usageOf q.inCallback.toList ∧ budget'.limits = limits := by
  obtain ⟨hcallback, hcontent⟩ := h.conserved.callbackUsage
  have htotal := h.conserved.total
  have hshared : budget.usage = others + usageOf q.inCallback.toList +
      usageOf q.queue.state.queued := by
    rw [h.shared, htotal]
    abel
  obtain ⟨next, hreplace, hlimits, husage⟩ := tryReplace_release hshared
  refine ⟨next, ?_, husage, hlimits.trans h.limits⟩
  unfold SinkQueue.discardQueuedLocked
  simp only [hcallback, hcontent, BudgetUsage.checkedSub_eq_some.mpr htotal, hreplace]
  rfl

theorem fitsWithin_of_le {usage other : BudgetUsage} {limits : BudgetLimits} (hle : other ≤ usage)
    (h : usage.FitsWithin limits) : other.FitsWithin limits :=
  ⟨Nat.le_trans hle.1 h.1, Nat.le_trans hle.2 h.2⟩

theorem Conserved.discarded (h : Conserved q) :
    Conserved
      { q with
        queue := q.discarded
        admission := none
        dropped := q.dropped ++ q.queue.state.queued } where
  conserved := by
    simp only [TrackedQueue.discarded]
    rw [h.conserved, ← Multiset.coe_add, Multiset.coe_nil]
    abel
  active := h.active
  total := by simp [TrackedQueue.discarded]
  content := by simp [TrackedQueue.discarded]
  total_fits := fitsWithin_of_le (BudgetUsage.le_of_add_eq h.total.symm) h.total_fits
  content_fits := fitsWithin_of_le (BudgetUsage.le_of_add_eq h.content.symm) h.content_fits
  ledger := recordAll_counts h.ledger _
  plan := by simp

/-- A part of an admission did not panic, and what it leaves is balanced. -/
structure Advances (q : TrackedQueue T) (budget : RuntimeBudget) (event : QueueEvent T)
    (plan : EvictionPlan) (others : BudgetUsage) (limits : BudgetLimits)
    (progress : AdmitProgress T) : Prop where
  balanced : Balanced (q.advance budget event plan progress).2
    (q.advance budget event plan progress).1 others limits
  returns : ∀ message, progress ≠ .panicked message

theorem advances_refuse (h : Balanced q budget others limits) (reason : DropReason) :
    Advances q budget event plan others limits (q.queue.refuse budget event reason) := by
  refine ⟨⟨?_, h.shared, h.limits⟩, fun _ hpanic => nomatch hpanic⟩
  exact h.conserved.lose event q.queue.state.terminalReason none (by simp)

/-- A terminalized queue has dropped its queued events and the incoming one. -/
theorem advances_terminalize (h : Balanced q budget others limits) :
    Advances q budget event plan others limits (q.queue.terminalizeLocked budget event) := by
  obtain ⟨budget', hdiscard, husage, hlimits⟩ := discard_spec h
  unfold SinkQueue.terminalizeLocked
  rw [hdiscard]
  refine ⟨⟨?_, husage, hlimits⟩, fun _ hpanic => nomatch hpanic⟩
  have hlost := h.conserved.discarded.lose event (some .deliveryOverflow) none (by simp)
  simp only [TrackedQueue.advance, TrackedQueue.lost]
  rw [← List.append_assoc]
  exact hlost

/-- What the victims hold is part of what the queue holds. -/
theorem PlanOk.released_le (h : Balanced q budget others limits)
    (hplan : PlanOk q.queue.state.queued plan) : ∃ rest, budget.usage = rest + plan.released := by
  obtain ⟨evicted, remaining, -, -, hmetadata, hperm, -⟩ := hplan.planned.splits
  have hreleased : plan.released = usageOf evicted := by
    rw [hplan.released, usageOf_metadata, ← hmetadata, List.map_map]
    rfl
  refine ⟨others + usageOf q.inCallback.toList + usageOf remaining, ?_⟩
  rw [h.shared, h.conserved.total, usageOf_perm hperm, usageOf_append, hreleased]
  abel

/-- A pass that did not admit the event plans one more victim, or gives up. -/
theorem advances_planVictim (h : Balanced q budget others limits)
    (hplan : PlanOk q.queue.state.queued plan) {failed : Bool} {before : EvictionPlan} :
    Advances q budget event before others limits
      (q.queue.planVictim budget event { plan with runtimeCapacityFailed := failed }) := by
  unfold SinkQueue.planVictim
  cases hfind : findVictim q.queue.state.queued plan.victimCursor with
  | none =>
    dsimp only
    cases event.metadata.admissionClass with
    | content => exact advances_refuse h _
    | structural => exact advances_terminalize h
  | some victim =>
    have hnext : PlanOk q.queue.state.queued
        ⟨plan.victims ++ [victim], plan.released + victim.metadata.usage,
          plan.released + victim.metadata.usage, victim.index + 1, failed⟩ :=
      ⟨hplan.planned.findVictim hfind, by simp [hplan.released], rfl⟩
    have hadd : plan.released.checkedAdd victim.metadata.usage =
        some (plan.released + victim.metadata.usage) := by
      obtain ⟨rest, hrest⟩ := hnext.released_le h
      have hrepresentable := budget.usage_representable
      rw [hrest] at hrepresentable
      apply BudgetUsage.checkedAdd_of_le
      unfold BudgetUsage.Representable packedFieldBits at hrepresentable
      simp only [BudgetUsage.le_def, BudgetUsage.add_events, BudgetUsage.add_encodedBytes,
        usizeMax] at hrepresentable ⊢
      omega
    simp only [hplan.releasedContent, hadd]
    refine ⟨⟨?_, h.shared, h.limits⟩, fun _ hpanic => by cases hpanic⟩
    exact { h.conserved with plan := by rintro pending ⟨⟩; exact hnext }

/-- What an event adds to the content usage. -/
theorem usageOf_filter_singleton (event : QueueEvent T) :
    usageOf ([event].filter (·.isContent)) = SinkQueue.incomingContent event := by
  unfold SinkQueue.incomingContent QueueEvent.isContent
  cases hclass : event.metadata.admissionClass <;> simp [hclass]

/-- The victims go, the event comes. -/
theorem advances_enqueue (h : Balanced q budget others limits)
    (hplan : PlanOk q.queue.state.queued plan) {restTotal restContent : BudgetUsage}
    (htotal : q.queue.state.totalUsage = restTotal + plan.released)
    (hcontent : q.queue.state.contentUsage = restContent + plan.releasedContent)
    (hfits : (restTotal + event.metadata.usage).FitsWithin q.queue.limits.total)
    (hcontentFits : (restContent + SinkQueue.incomingContent event).FitsWithin
      q.queue.limits.content)
    (hshared : budget'.usage = others + (restTotal + event.metadata.usage))
    (hlimits : budget'.limits = limits) :
    Advances q budget event plan others limits
      (q.queue.enqueue budget' event plan (restTotal + event.metadata.usage)
        (restContent + SinkQueue.incomingContent event)) := by
  obtain ⟨evicted, remaining, hremove, hevents, hmetadata, hperm, hevicted⟩ := hplan.planned.splits
  have hreleased : plan.released = usageOf evicted := by
    rw [hplan.released, usageOf_metadata, ← hmetadata, List.map_map]
    rfl
  have hdeltas : plan.victims.map (·.metadata.dropDelta) = evicted.map (·.metadata.dropDelta) := by
    have hmap := congrArg (List.map EventMetadata.dropDelta) hmetadata
    rw [List.map_map, List.map_map] at hmap
    exact hmap
  have hfilter : (q.queue.state.queued.filter (·.isContent)).Perm
      (evicted ++ remaining.filter (·.isContent)) := by
    have hperm := hperm.filter (·.isContent)
    rw [List.filter_append, List.filter_eq_self.mpr hevicted] at hperm
    exact hperm
  have hrest : restTotal = usageOf remaining + usageOf q.inCallback.toList := by
    apply BudgetUsage.add_cancel (c := usageOf evicted)
    rw [← hreleased, ← htotal, h.conserved.total, usageOf_perm hperm, usageOf_append, hreleased]
    abel
  have hrestContent : restContent = usageOf (remaining.filter (·.isContent)) +
      usageOf (q.inCallback.toList.filter (·.isContent)) := by
    apply BudgetUsage.add_cancel (c := usageOf evicted)
    rw [← hreleased, ← hplan.releasedContent, ← hcontent, h.conserved.content,
      usageOf_perm hfilter, usageOf_append, hplan.releasedContent, hreleased]
    abel
  unfold SinkQueue.enqueue
  simp only [hremove]
  refine ⟨⟨?_, hshared, hlimits⟩, fun _ hpanic => nomatch hpanic⟩
  simp only [TrackedQueue.advance, TrackedQueue.lost, hevents]
  exact {
    conserved := by
      have hqueued : (q.queue.state.queued : Multiset (QueueEvent T)) = evicted + remaining := by
        rw [Multiset.coe_add]
        exact Multiset.coe_eq_coe.mpr hperm
      simp only [← Multiset.coe_add]
      rw [h.conserved.conserved, hqueued]
      abel
    active := h.conserved.active
    total := by
      rw [hrest, usageOf_append, usageOf_singleton]
      exact add_right_comm _ _ _
    content := by
      rw [hrestContent, List.filter_append, usageOf_append, usageOf_filter_singleton]
      exact add_right_comm _ _ _
    total_fits := hfits
    content_fits := hcontentFits
    ledger := by
      rw [hdeltas]
      exact recordAll_counts h.conserved.ledger evicted
    plan := by simp }

/-- One pass keeps the books. -/
theorem advances_admitPass (h : Balanced q budget others limits) (event : QueueEvent T)
    (hplan : PlanOk q.queue.state.queued plan) :
    Advances q budget event plan others limits (q.queue.admitPass budget event plan) := by
  have hvictim : Advances q budget event plan others limits (q.queue.planVictim budget event plan) :=
    advances_planVictim h hplan
  unfold SinkQueue.admitPass
  cases hnextTotal : (q.queue.state.totalUsage.checkedSub plan.released).bind
    (·.checkedAdd event.metadata.usage) with
  | none => exact hvictim
  | some nextTotal =>
    cases hnextContent : (q.queue.state.contentUsage.checkedSub plan.releasedContent).bind
      (·.checkedAdd (SinkQueue.incomingContent event)) with
    | none => exact hvictim
    | some nextContent =>
      obtain ⟨restTotal, hrest, hsum⟩ := Option.bind_eq_some_iff.mp hnextTotal
      obtain ⟨restContent, hrestContent, hsumContent⟩ := Option.bind_eq_some_iff.mp hnextContent
      rw [BudgetUsage.checkedSub_eq_some] at hrest hrestContent
      rw [BudgetUsage.checkedAdd_eq_some hsum, BudgetUsage.checkedAdd_eq_some hsumContent]
      dsimp only
      split
      · rename_i hfits
        have hbudget : budget.usage = others + restTotal + plan.released := by
          rw [h.shared, hrest, add_assoc]
        have hreplaced := tryReplace_spec hbudget event.metadata.usage
        generalize budget.tryReplace plan.released event.metadata.usage = result at hreplaced
        cases hreplaced with
        | replaced next hlimits husage _ =>
          refine advances_enqueue h hplan hrest hrestContent hfits.1 hfits.2 ?_
            (hlimits.trans h.limits)
          rw [husage, add_assoc]
        | full _ _ _ => exact advances_planVictim h hplan
        | tooLarge _ => exact advances_refuse h _
      · exact hvictim

/-- The start of an admission keeps the books. -/
theorem advances_beginAdmit (h : Balanced q budget others limits) (event : QueueEvent T) :
    Advances q budget event .start others limits (q.queue.beginAdmit budget event) := by
  have hlooping : Advances q budget event .start others limits (.looping .start) := by
    refine ⟨⟨?_, h.shared, h.limits⟩, fun _ hpanic => nomatch hpanic⟩
    exact { h.conserved with plan := by rintro pending ⟨⟩; exact ⟨.start, rfl, rfl⟩ }
  unfold SinkQueue.beginAdmit
  split
  · exact advances_refuse h _
  · cases event.metadata.admissionClass with
    | content =>
      dsimp only
      split
      · exact hlooping
      · exact advances_refuse h _
    | structural =>
      dsimp only
      split
      · exact hlooping
      · exact advances_terminalize h

/-- The oldest event goes from the queue into the callback. -/
theorem balanced_beginCallback (h : Balanced q budget others limits)
    (hunlocked : q.admission = none) {delivery : CallbackDelivery T} {queue : SinkQueue T}
    (hbegin : q.queue.tryBeginCallback = (some delivery, queue)) :
    Balanced { q with queue, inCallback := some ⟨delivery.item, delivery.metadata⟩ } budget others
      limits := by
  unfold SinkQueue.tryBeginCallback at hbegin
  cases hactive : q.queue.state.activeCallback with
  | some active =>
    rw [hactive] at hbegin
    cases hbegin
  | none =>
    cases hqueued : q.queue.state.queued with
    | nil =>
      rw [hactive, hqueued] at hbegin
      cases hbegin
    | cons event rest =>
      rw [hactive, hqueued] at hbegin
      cases hbegin
      have hnone : q.inCallback = none := by
        have hsame := h.conserved.active
        rw [hactive] at hsame
        exact Option.map_eq_none_iff.mp hsame.symm
      have hconserved := h.conserved
      refine ⟨⟨?_, rfl, ?_, ?_, hconserved.total_fits, hconserved.content_fits, hconserved.ledger, ?_⟩,
        h.shared, h.limits⟩
      · have hall := hconserved.conserved
        rw [hnone, hqueued] at hall
        rw [hall]
        simp only [Option.toList_none, Option.toList_some, Multiset.coe_nil, ← Multiset.cons_coe,
          ← Multiset.singleton_add, add_zero]
        abel
      · have htotal := hconserved.total
        rw [hnone, hqueued] at htotal
        simp only [htotal]
        simp [add_comm]
      · have hcontent := hconserved.content
        rw [hnone, hqueued, ← List.singleton_append, List.filter_append, usageOf_append,
          Option.toList_none, List.filter_nil, usageOf_nil, add_zero, add_comm] at hcontent
        exact hcontent
      · simp [hunlocked]

/-- The queue without its active callback. -/
def TrackedQueue.completed (q : TrackedQueue T) : SinkQueue T :=
  { q.queue with
    state :=
      { q.queue.state with
        activeCallback := none
        totalUsage := usageOf q.queue.state.queued
        contentUsage := usageOf (q.queue.state.queued.filter (·.isContent)) } }

theorem Conserved.completed (h : Conserved q) (hunlocked : q.admission = none) :
    Conserved
      { q with
        queue := q.completed
        inCallback := none
        delivered := q.delivered ++ q.inCallback.toList } where
  conserved := by
    simp only [TrackedQueue.completed]
    rw [h.conserved, ← Multiset.coe_add, Option.toList_none, Multiset.coe_nil, add_zero]
  active := rfl
  total := by simp [TrackedQueue.completed]
  content := by simp [TrackedQueue.completed]
  total_fits := fitsWithin_of_le
    (BudgetUsage.le_of_add_eq (h.total.trans (add_comm _ _)).symm) h.total_fits
  content_fits := fitsWithin_of_le
    (BudgetUsage.le_of_add_eq (h.content.trans (add_comm _ _)).symm) h.content_fits
  ledger := h.ledger
  plan := by simp [hunlocked]

/-- The active callback completes and gives back what its event held. -/
theorem complete_spec (h : Balanced q budget others limits) {active : ActiveCallback}
    (hactive : q.queue.state.activeCallback = some active) : ∃ budget',
    q.queue.tryCompleteCallback budget active.ticket = (.ok (), q.completed, budget') ∧
      budget'.usage = others + usageOf q.queue.state.queued ∧ budget'.limits = limits := by
  have hsame := h.conserved.active
  rw [hactive] at hsame
  obtain ⟨event, hevent, hmetadata⟩ := Option.map_eq_some_iff.mp hsame.symm
  have htotal := h.conserved.total
  have hcontent := h.conserved.content
  rw [hevent, Option.toList_some] at htotal hcontent
  rw [usageOf_singleton, hmetadata] at htotal
  rw [usageOf_filter_singleton] at hcontent
  have hshared : budget.usage = others + usageOf q.queue.state.queued + active.metadata.usage := by
    rw [h.shared, htotal, add_assoc]
  obtain ⟨next, hreplace, hlimits, husage⟩ := tryReplace_release hshared
  refine ⟨next, ?_, husage, hlimits.trans h.limits⟩
  unfold SinkQueue.tryCompleteCallback TrackedQueue.completed
  simp only [hactive, ne_eq, not_true_eq_false, if_false, hreplace,
    BudgetUsage.checkedSub_eq_some.mpr htotal]
  unfold SinkQueue.incomingContent at hcontent
  rw [hmetadata] at hcontent
  cases hclass : active.metadata.admissionClass with
  | content =>
    rw [hclass] at hcontent
    simp only [if_true, BudgetUsage.checkedSub_eq_some.mpr hcontent]
  | structural =>
    rw [hclass] at hcontent
    simp [hcontent]

/-- A call that does not complete the active callback changes nothing. -/
theorem balanced_completeCallback (h : Balanced q budget others limits)
    (hunlocked : q.admission = none) {ticket : Nat} {queue : SinkQueue T}
    {answer : Except QueueAccessError Unit}
    (hcomplete : q.queue.tryCompleteCallback budget ticket = (answer, queue, budget')) :
    Balanced
        { q with
          queue
          inCallback := if answer.isOk then none else q.inCallback
          delivered := if answer.isOk then q.delivered ++ q.inCallback.toList else q.delivered }
        budget' others limits ∧
      ∀ error, answer ≠ .error (.budgetInvariant error) := by
  cases hcallback : q.queue.state.activeCallback with
  | none =>
    unfold SinkQueue.tryCompleteCallback at hcomplete
    rw [hcallback] at hcomplete
    cases hcomplete
    exact ⟨h, fun _ => nofun⟩
  | some active =>
    by_cases hticket : active.ticket = ticket
    · obtain ⟨next, hspec, husage, hlimits⟩ := complete_spec h hcallback
      rw [← hticket, hspec] at hcomplete
      cases hcomplete
      exact ⟨⟨h.conserved.completed hunlocked, husage, hlimits⟩, fun _ => nofun⟩
    · unfold SinkQueue.tryCompleteCallback at hcomplete
      simp only [hcallback, ne_eq, hticket, not_false_eq_true, if_true] at hcomplete
      cases hcomplete
      exact ⟨h, fun _ => nofun⟩

/-- **A step on one queue keeps its books, and leaves the others' share of the budget.** -/
theorem queue_step (h : Balanced q budget others limits) (hstep : QueueStep budget q budget' q') :
    Balanced q' budget' others limits := by
  cases hstep with
  | contend event =>
    exact ⟨h.conserved.lose event q.queue.state.terminalReason q.admission h.conserved.plan,
      h.shared, h.limits⟩
  | beginAdmit event unlocked begins =>
    have hadvances := (advances_beginAdmit h event).balanced
    rw [begins] at hadvances
    exact hadvances
  | admitPass locked passes =>
    rename_i event plan
    have hadvances := (advances_admitPass h event (h.conserved.plan _ locked)).balanced
    rw [passes] at hadvances
    exact hadvances
  | beginCallback unlocked begins => exact balanced_beginCallback h unlocked begins
  | completeCallback ticket unlocked completes =>
    exact (balanced_completeCallback h unlocked completes).1
  | discard unlocked discards =>
    obtain ⟨next, hspec, husage, hlimits⟩ := discard_spec h
    rw [hspec] at discards
    cases discards
    have hdiscarded := h.conserved.discarded
    rw [← unlocked] at hdiscarded
    exact ⟨hdiscarded, husage, hlimits⟩

end Steps

/-! ## The runtime -/

/-- What the live queues hold together. -/
def SinkRuntime.held (r : SinkRuntime T) : BudgetUsage :=
  (r.queues.map (·.queue.state.totalUsage)).sum

/-- Every queue's books are right, and the shared usage is the sum of theirs. -/
structure Solvent (limits : BudgetLimits) (r : SinkRuntime T) : Prop where
  queues : ∀ q ∈ r.queues, Conserved q
  shared : r.budget.usage = r.held
  limits : r.budget.limits = limits

section Runtime

variable {limits : BudgetLimits} {r r' : SinkRuntime T} {budget : RuntimeBudget}
  {before after : List (TrackedQueue T)} {q : TrackedQueue T}

/-- One queue's view of a solvent runtime. -/
theorem Solvent.balanced (h : Solvent limits ⟨budget, before ++ q :: after⟩) :
    Balanced q budget ((before ++ after).map (·.queue.state.totalUsage)).sum limits where
  conserved := h.queues q (by simp)
  shared := by
    rw [h.shared]
    simp only [SinkRuntime.held, List.map_append, List.map_cons, List.sum_append, List.sum_cons]
    abel
  limits := h.limits

/-- Dropping a queue gives back all that it held. -/
theorem drop_spec {others : BudgetUsage} (h : Balanced q budget others limits) : ∃ usage budget',
    q.queue.drop budget = (.ok usage, budget') ∧ budget'.usage = others ∧
      budget'.limits = limits := by
  unfold SinkQueue.drop
  by_cases hzero : q.queue.state.totalUsage = 0
  · rw [if_neg (not_not.mpr hzero)]
    refine ⟨_, budget, rfl, ?_, h.limits⟩
    rw [h.shared, hzero, add_zero]
  · rw [if_pos hzero]
    obtain ⟨next, hreplace, hlimits, husage⟩ := tryReplace_release h.shared
    exact ⟨_, next, hreplace, husage, hlimits.trans h.limits⟩

/-- Every step keeps the runtime solvent. -/
theorem solvent_step (h : Solvent limits r) (hstep : SinkStep r r') : Solvent limits r' := by
  cases hstep with
  | create limits' =>
    refine ⟨?_, ?_, h.limits⟩
    · intro q hq
      rcases List.mem_append.mp hq with hq | hq
      · exact h.queues q hq
      · rw [List.mem_singleton.mp hq]
        exact conserved_new limits'
    · rw [h.shared]
      simp [SinkRuntime.held, TrackedQueue.new, SinkQueue.withLimits, QueueState.new]
  | @use budget budget' before after q q' step =>
    have hbalanced := queue_step h.balanced step
    refine ⟨?_, ?_, hbalanced.limits⟩
    · intro other hother
      rcases List.mem_append.mp hother with hother | hother
      · exact h.queues other (List.mem_append_left _ hother)
      · rcases List.mem_cons.mp hother with rfl | hother
        · exact hbalanced.conserved
        · exact h.queues other (List.mem_append_right _ (List.mem_cons_of_mem _ hother))
    · rw [hbalanced.shared]
      simp only [SinkRuntime.held, List.map_append, List.map_cons, List.sum_append, List.sum_cons]
      abel
  | @drop budget before after q unlocked =>
    obtain ⟨usage, budget', hdrop, hshared, hlimits⟩ := drop_spec h.balanced
    rw [hdrop]
    refine ⟨?_, hshared, hlimits⟩
    intro other hother
    rcases List.mem_append.mp hother with hother | hother
    · exact h.queues other (List.mem_append_left _ hother)
    · exact h.queues other (List.mem_append_right _ (List.mem_cons_of_mem _ hother))

/-- No call on a queue of a solvent runtime releases what is not held, and none panics. -/
structure Covered (q : TrackedQueue T) (budget : RuntimeBudget) : Prop where
  complete : ∀ ticket error,
    (q.queue.tryCompleteCallback budget ticket).1 ≠ .error (.budgetInvariant error)
  discard : ∃ deltas, (q.queue.discardQueuedLocked budget).1 = .ok deltas
  drop : ∃ usage, (q.queue.drop budget).1 = .ok usage
  beginAdmit : ∀ event message, q.queue.beginAdmit budget event ≠ .panicked message
  admitPass : ∀ event plan, q.admission = some (event, plan) →
    (∃ rest, budget.usage = rest + plan.released) ∧
      ∀ message, q.queue.admitPass budget event plan ≠ .panicked message

theorem Balanced.covered {others : BudgetUsage} (h : Balanced q budget others limits) :
    Covered q budget where
  complete ticket error := by
    have hunlocked : Balanced { q with admission := none } budget others limits :=
      ⟨{ h.conserved with plan := by simp }, h.shared, h.limits⟩
    exact (balanced_completeCallback hunlocked rfl rfl).2 error
  discard := by
    obtain ⟨budget', hdiscard, -⟩ := discard_spec h
    rw [hdiscard]
    exact ⟨_, rfl⟩
  drop := by
    obtain ⟨usage, budget', hdrop, -⟩ := drop_spec h
    rw [hdrop]
    exact ⟨usage, rfl⟩
  beginAdmit event := (advances_beginAdmit h event).returns
  admitPass event plan hadmission := by
    have hplan := h.conserved.plan _ hadmission
    exact ⟨hplan.released_le h, (advances_admitPass h event hplan).returns⟩

/-- **Act-sink conservation.** In every reachable state of any number of queues over one budget:
every event offered to a live queue is delivered, in the callback, queued or dropped, once; its ledger
counts the dropped events, up to `usize::MAX`; its usages are those of the events it holds and within
its limits; the shared usage is the sum over the live queues and within its limits; no release
underflows; and without queues nothing is held. -/
theorem sink_conservation
    {representable : BudgetUsage.Representable ⟨limits.maxEvents, limits.maxEncodedBytes⟩}
    (h : ReflTransGen SinkStep ⟨.withLimits limits representable, []⟩ r) :
    (∀ q ∈ r.queues,
      (q.offered : Multiset (QueueEvent T)) =
          q.delivered + q.inCallback.toList + q.queue.state.queued + q.dropped ∧
        q.queue.drops.byKind = countDropped q.dropped ∧
        q.queue.state.totalUsage =
          usageOf q.queue.state.queued + usageOf q.inCallback.toList ∧
        q.queue.state.contentUsage = usageOf (q.queue.state.queued.filter (·.isContent)) +
          usageOf (q.inCallback.toList.filter (·.isContent)) ∧
        q.queue.state.totalUsage.FitsWithin q.queue.limits.total ∧
        q.queue.state.contentUsage.FitsWithin q.queue.limits.content ∧
        Covered q r.budget) ∧
      unpack r.budget.packedUsage = (r.queues.map (·.queue.state.totalUsage)).sum ∧
      (unpack r.budget.packedUsage).FitsWithin limits ∧
      (r.queues = [] → unpack r.budget.packedUsage = 0) := by
  have hsolvent : Solvent limits r := by
    refine run_invariant (p := Solvent limits) (fun _ _ hr hstep => solvent_step hr hstep) ?_ h
    exact ⟨by simp, withLimits_usage limits representable, rfl⟩
  refine ⟨fun q hq => ?_, hsolvent.shared, ?_, fun hnone => ?_⟩
  · have hconserved := hsolvent.queues q hq
    obtain ⟨before, after, hsplit⟩ := List.append_of_mem hq
    have hcovered : Covered q r.budget := by
      have hview : Solvent limits ⟨r.budget, before ++ q :: after⟩ := by
        rw [← hsplit]
        exact hsolvent
      exact hview.balanced.covered
    exact ⟨hconserved.conserved, hconserved.ledger, hconserved.total, hconserved.content,
      hconserved.total_fits, hconserved.content_fits, hcovered⟩
  · rw [← hsolvent.limits]
    exact r.budget.within
  · have hshared := hsolvent.shared
    unfold SinkRuntime.held at hshared
    rw [hnone] at hshared
    exact hshared

end Runtime

/-- A content event of a given size. -/
def gapEvent (encodedBytes : Nat) (h : encodedBytes ≤ usizeMax) : QueueEvent Unit :=
  ⟨(), .observationGap, encodedBytes, .content, h⟩

/-- A step on the only queue. -/
theorem use_only {T : Type} {budget budget' : RuntimeBudget} {q q' : TrackedQueue T}
    (step : QueueStep budget q budget' q') : SinkStep ⟨budget, [q]⟩ ⟨budget', [q']⟩ :=
  @SinkStep.use T budget budget' [] [] q q' step

/-- One queue with the limits of the product, and one event on its way through the callback. -/
theorem sink_conservation_callback : ∃ r,
    ReflTransGen SinkStep (⟨.new, []⟩ : SinkRuntime Unit) r ∧
      r.queues.map (·.inCallback.toList.length) = [1] ∧
      unpack r.budget.packedUsage = (r.queues.map (·.queue.state.totalUsage)).sum := by
  let event := gapEvent 100 (by decide)
  have hcreated : ReflTransGen SinkStep (⟨.new, []⟩ : SinkRuntime Unit) _ :=
    .single (.create .product)
  have hbegun := hcreated.tail (use_only (.beginAdmit event rfl rfl))
  have hadmitted := hbegun.tail (use_only (.admitPass rfl rfl))
  have hcallback := hadmitted.tail (use_only (.beginCallback rfl rfl))
  exact ⟨_, hcallback, rfl, (sink_conservation hcallback).2.1⟩

/-- The byte counter of a kind stops at `usize::MAX`. -/
theorem ledger_saturates : ∃ r,
    ReflTransGen SinkStep (⟨.new, []⟩ : SinkRuntime Unit) r ∧ ∃ q ∈ r.queues,
      (q.queue.drops.byKind .observationGap).encodedBytes ≠
        ((q.dropped.filter (·.metadata.eventKind = .observationGap)).map
          (·.metadata.encodedBytes)).sum := by
  let event := gapEvent usizeMax (Nat.le_refl _)
  have hcreated : ReflTransGen SinkStep (⟨.new, []⟩ : SinkRuntime Unit) _ :=
    .single (.create .product)
  have hfirst := hcreated.tail (use_only (.beginAdmit event rfl rfl))
  have hsecond := hfirst.tail (use_only (.beginAdmit event rfl rfl))
  exact ⟨_, hsecond, _, List.mem_singleton_self _, by decide⟩

end Troupe.Sink
