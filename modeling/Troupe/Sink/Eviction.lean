import Troupe.Sink.Conservation

/-! # Eviction

What `try_admit` does as a whole: which queued events it evicts for an event, and what it leaves
when it does not enqueue it.

* `Admits` strings the passes of the loop together. Other queues use the budget between two passes,
  so a call finds a list of budgets, one when it begins and one in each pass.
* `Shared` says that a queue and a budget stand together in some reachable runtime; the budgets that
  a call finds are of that kind.
* `Fits` says that an event fits once the `n` oldest content events are gone.

Result: **`eviction_minimal`**. -/

namespace Troupe.Sink

open Relation (ReflTransGen)
open Troupe.Core Troupe.Lib

variable {T : Type}

/-! ## Whole admissions -/

/-- The loop of `try_admit` from a plan on, and the budgets its passes find. -/
inductive Admits (queue : SinkQueue T) (event : QueueEvent T) :
    EvictionPlan → List RuntimeBudget → AdmissionOutcome → SinkQueue T → RuntimeBudget → Prop
  | returns {plan : EvictionPlan} {budget budget' : RuntimeBudget} {outcome : AdmissionOutcome}
      {queue' : SinkQueue T}
      (h : queue.admitPass budget event plan = .returned outcome queue' budget') :
      Admits queue event plan [budget] outcome queue' budget'
  | again {plan plan' : EvictionPlan} {budget budget' : RuntimeBudget}
      {found : List RuntimeBudget} {outcome : AdmissionOutcome} {queue' : SinkQueue T}
      (h : queue.admitPass budget event plan = .looping plan')
      (rest : Admits queue event plan' found outcome queue' budget') :
      Admits queue event plan (budget :: found) outcome queue' budget'

/-- `try_admit`, with the lock held. -/
inductive TryAdmit (queue : SinkQueue T) (event : QueueEvent T) :
    List RuntimeBudget → AdmissionOutcome → SinkQueue T → RuntimeBudget → Prop
  | early {budget budget' : RuntimeBudget} {outcome : AdmissionOutcome} {queue' : SinkQueue T}
      (h : queue.beginAdmit budget event = .returned outcome queue' budget') :
      TryAdmit queue event [budget] outcome queue' budget'
  | loops {plan : EvictionPlan} {budget budget' : RuntimeBudget} {found : List RuntimeBudget}
      {outcome : AdmissionOutcome} {queue' : SinkQueue T}
      (h : queue.beginAdmit budget event = .looping plan)
      (rest : Admits queue event plan found outcome queue' budget') :
      TryAdmit queue event (budget :: found) outcome queue' budget'

/-- The usage of the `n` oldest content events. -/
def oldestUsage (queue : SinkQueue T) (n : Nat) : BudgetUsage :=
  usageOf ((queue.state.queued.filter (·.isContent)).take n)

/-- The event fits the limits of the queue and the shared budget once the `n` oldest content events
are gone. -/
structure Fits (queue : SinkQueue T) (budget : RuntimeBudget) (event : QueueEvent T) (n : Nat) :
    Prop where
  total : ∃ rest, queue.state.totalUsage = rest + oldestUsage queue n ∧
    (rest + event.metadata.usage).FitsWithin queue.limits.total
  content : ∃ rest, queue.state.contentUsage = rest + oldestUsage queue n ∧
    (rest + SinkQueue.incomingContent event).FitsWithin queue.limits.content
  shared : ∃ rest, budget.usage = rest + oldestUsage queue n ∧
    (rest + event.metadata.usage).FitsWithin budget.limits

/-- The queue is one of a reachable runtime with this budget. -/
def Shared (queue : SinkQueue T) (budget : RuntimeBudget) : Prop :=
  ∃ (limits : BudgetLimits)
    (representable : BudgetUsage.Representable ⟨limits.maxEvents, limits.maxEncodedBytes⟩)
    (r : SinkRuntime T),
    ReflTransGen SinkStep ⟨.withLimits limits representable, []⟩ r ∧
      r.budget = budget ∧ ∃ q ∈ r.queues, q.queue = queue

theorem Shared.balanced {queue : SinkQueue T} {budget : RuntimeBudget} (h : Shared queue budget) :
    ∃ (q : TrackedQueue T) (others : BudgetUsage) (limits : BudgetLimits),
      q.queue = queue ∧ Balanced q budget others limits := by
  obtain ⟨limits, representable, r, hrun, rfl, q, hq, rfl⟩ := h
  have hsolvent : Solvent limits r := by
    refine run_invariant (p := Solvent limits) (fun _ _ hr hstep => solvent_step hr hstep) ?_ hrun
    exact ⟨by simp, withLimits_usage limits representable, rfl⟩
  obtain ⟨before, after, hsplit⟩ := List.append_of_mem hq
  have hview : Solvent limits ⟨r.budget, before ++ q :: after⟩ := by
    rw [← hsplit]
    exact hsolvent
  exact ⟨q, _, limits, rfl, hview.balanced⟩

section Plans

variable {queue queue' : SinkQueue T} {budget budget' : RuntimeBudget} {event : QueueEvent T}
  {plan plan' : EvictionPlan} {outcome : AdmissionOutcome} {q : TrackedQueue T}
  {others : BudgetUsage} {limits : BudgetLimits} {reason : DropReason} {delta : DropDelta}

/-- The victims of a plan are the oldest content events. -/
theorem PlanOk.oldest (h : PlanOk queue.state.queued plan) :
    (queue.state.queued.take plan.victimCursor).filter (·.isContent) =
        (queue.state.queued.filter (·.isContent)).take plan.victims.length ∧
      plan.released = oldestUsage queue plan.victims.length := by
  obtain ⟨-, hmetadata⟩ := h.planned.evicted
  have hlength : plan.victims.length =
      ((queue.state.queued.take plan.victimCursor).filter (·.isContent)).length := by
    simpa using congrArg List.length hmetadata
  have hprefix : (queue.state.queued.take plan.victimCursor).filter (·.isContent) =
      (queue.state.queued.filter (·.isContent)).take plan.victims.length := by
    have hsplit : queue.state.queued.filter (·.isContent) =
        (queue.state.queued.take plan.victimCursor).filter (·.isContent) ++
          (queue.state.queued.drop plan.victimCursor).filter (·.isContent) := by
      rw [← List.filter_append, List.take_append_drop]
    rw [hsplit, hlength, List.take_left]
  refine ⟨ hprefix, ?_⟩
  rw [h.released, oldestUsage, ← hprefix, usageOf_metadata, ← hmetadata, List.map_map]
  rfl

/-- What an admission leaves when it enqueues the event: of the events before the cursor the
structural ones, the events after it, and the new event last. -/
structure Enqueues (queue : SinkQueue T) (event : QueueEvent T) (before after : List (QueueEvent T))
    (evicted : List DropDelta) (queue' : SinkQueue T) : Prop where
  split : queue.state.queued = before ++ after
  evicted_eq : evicted = (before.filter (·.isContent)).map (·.metadata.dropDelta)
  queued : queue'.state.queued = before.filter (!·.isContent) ++ after ++ [event]
  active : queue'.state.activeCallback = queue.state.activeCallback
  total : queue'.state.totalUsage + usageOf (before.filter (·.isContent)) =
    queue.state.totalUsage + event.metadata.usage
  content : queue'.state.contentUsage + usageOf (before.filter (·.isContent)) =
    queue.state.contentUsage + SinkQueue.incomingContent event
  terminal : queue'.state.terminalReason = queue.state.terminalReason

theorem enqueue_spec (hplan : PlanOk queue.state.queued plan) (budget : RuntimeBudget)
    (event : QueueEvent T) {restTotal restContent : BudgetUsage}
    (htotal : queue.state.totalUsage = restTotal + plan.released)
    (hcontent : queue.state.contentUsage = restContent + plan.releasedContent) :
    ∃ before after evicted queue', queue.enqueue budget event plan
        (restTotal + event.metadata.usage) (restContent + SinkQueue.incomingContent event) =
          .returned (.enqueued evicted) queue' budget ∧
      Enqueues queue event before after evicted queue' ∧
      (before.filter (·.isContent)).length = plan.victims.length := by
  obtain ⟨-, hmetadata⟩ := hplan.planned.evicted
  have hremove := hplan.planned.remove (queue.state.queued.drop plan.victimCursor)
  rw [List.take_append_drop] at hremove
  have hreleased : plan.released =
      usageOf ((queue.state.queued.take plan.victimCursor).filter (·.isContent)) := by
    rw [hplan.released, usageOf_metadata, ← hmetadata, List.map_map]
    rfl
  unfold SinkQueue.enqueue
  simp only [hremove]
  refine ⟨queue.state.queued.take plan.victimCursor, queue.state.queued.drop plan.victimCursor, _,
    _, rfl, ?_, ?_⟩
  · exact {
      split := (List.take_append_drop _ _).symm
      evicted_eq := by
        have hdeltas := congrArg (List.map EventMetadata.dropDelta) hmetadata
        rw [List.map_map, List.map_map] at hdeltas
        exact hdeltas
      queued := rfl
      active := rfl
      total := by
        rw [← hreleased, htotal]
        exact add_right_comm _ _ _
      content := by
        rw [← hreleased, hcontent, hplan.releasedContent]
        exact add_right_comm _ _ _
      terminal := rfl }
  · simpa using (congrArg List.length hmetadata).symm

/-- The end of an admission that terminalizes the queue. -/
inductive Terminated : AdmitProgress T → Prop
  | terminalized {dropped : List DropDelta} {queue' : SinkQueue T} {budget' : RuntimeBudget}
      (h : queue'.state.queued = []) :
      Terminated (.returned (.terminalized dropped) queue' budget')
  | panicked {message : String} : Terminated (.panicked message)

theorem discardQueuedLocked_queued {answer : Except QueueAccessError (List DropDelta)}
    (h : queue.discardQueuedLocked budget = (answer, queue', budget')) :
    queue'.state.terminalReason = queue.state.terminalReason ∧
      (queue'.state.queued = [] ∨ queue' = queue) := by
  unfold SinkQueue.discardQueuedLocked at h
  dsimp only at h
  split at h
  · cases h
    exact ⟨rfl, .inr rfl⟩
  · split at h
    · cases h
      exact ⟨rfl, .inr rfl⟩
    · cases h
      exact ⟨rfl, .inl rfl⟩

theorem terminated_terminalizeLocked (queue : SinkQueue T) (budget : RuntimeBudget)
    (event : QueueEvent T) : Terminated (queue.terminalizeLocked budget event) := by
  unfold SinkQueue.terminalizeLocked SinkQueue.discardQueuedLocked
  dsimp only
  split
  · exact .panicked
  next hdiscard =>
    split at hdiscard
    · cases hdiscard
    · split at hdiscard
      · cases hdiscard
      · cases hdiscard
        exact .terminalized rfl

/-- A pass whose event does not fit plans one more victim, refuses the event, or terminalizes. -/
theorem planVictim_cases (queue : SinkQueue T) (budget : RuntimeBudget) (event : QueueEvent T)
    (plan : EvictionPlan) :
    (∃ victim plan', queue.planVictim budget event plan = .looping plan' ∧
      plan'.victims = plan.victims ++ [victim]) ∨
    (∃ reason, queue.planVictim budget event plan = queue.refuse budget event reason) ∨
    Terminated (queue.planVictim budget event plan) := by
  unfold SinkQueue.planVictim
  split
  · split
    · exact .inr (.inl ⟨_, rfl⟩)
    · exact .inr (.inr (terminated_terminalizeLocked queue budget event))
  · split
    · exact .inr (.inr .panicked)
    · split
      · exact .inr (.inr .panicked)
      · exact .inl ⟨_, _, rfl, rfl⟩

/-- The content usage is part of the total usage. -/
theorem Conserved.content_le (h : Conserved q) :
    q.queue.state.contentUsage ≤ q.queue.state.totalUsage := by
  have hpart : ∀ events : List (QueueEvent T), usageOf (events.filter (·.isContent)) ≤
      usageOf events := fun events =>
    BudgetUsage.le_of_add_eq ((usageOf_append.symm.trans
      (usageOf_perm (List.perm_append_comm.trans (List.filter_append_perm (·.isContent) events)))))
  have hqueued := hpart q.queue.state.queued
  have hcallback := hpart q.inCallback.toList
  rw [h.total, h.content]
  exact ⟨Nat.add_le_add hqueued.1 hcallback.1, Nat.add_le_add hqueued.2 hcallback.2⟩

/-- An event that fits is counted without overflow. -/
theorem Fits.checkedAdd
    (h : Balanced q budget others limits) {n : Nat} (hfits : Fits q.queue budget event n)
    {restTotal restContent : BudgetUsage}
    (htotal : q.queue.state.totalUsage = restTotal + oldestUsage q.queue n)
    (hcontent : q.queue.state.contentUsage = restContent + oldestUsage q.queue n) :
    restTotal.checkedAdd event.metadata.usage = some (restTotal + event.metadata.usage) ∧
      restContent.checkedAdd (SinkQueue.incomingContent event) =
        some (restContent + SinkQueue.incomingContent event) := by
  obtain ⟨rest, hshared, hwithin⟩ := hfits.shared
  have hrest : rest = others + restTotal := by
    apply BudgetUsage.add_cancel (c := oldestUsage q.queue n)
    rw [← hshared, h.shared, htotal, add_assoc]
  have hcontentRest : restContent ≤ restTotal := by
    have hle := h.conserved.content_le
    rw [htotal, hcontent] at hle
    exact ⟨Nat.le_of_add_le_add_right hle.1, Nat.le_of_add_le_add_right hle.2⟩
  have hincoming : SinkQueue.incomingContent event ≤ event.metadata.usage := by
    unfold SinkQueue.incomingContent
    split
    · exact ⟨Nat.le_refl _, Nat.le_refl _⟩
    · exact ⟨Nat.zero_le _, Nat.zero_le _⟩
  have hrepresentable := budget.representable
  rw [hrest] at hwithin
  unfold BudgetUsage.Representable packedFieldBits at hrepresentable
  dsimp only at hrepresentable
  unfold BudgetUsage.FitsWithin at hwithin
  rw [BudgetUsage.le_def] at hcontentRest hincoming
  simp only [BudgetUsage.add_events, BudgetUsage.add_encodedBytes] at hwithin
  constructor
  · apply BudgetUsage.checkedAdd_of_le
    simp only [BudgetUsage.le_def, BudgetUsage.add_events, BudgetUsage.add_encodedBytes, usizeMax]
    omega
  · apply BudgetUsage.checkedAdd_of_le
    simp only [BudgetUsage.le_def, BudgetUsage.add_events, BudgetUsage.add_encodedBytes, usizeMax]
    omega

/-- A pass enqueues its event exactly when it fits. -/
theorem admitPass_cases
    (h : Balanced q budget others limits) (hplan : PlanOk q.queue.state.queued plan) :
    (Fits q.queue budget event plan.victims.length ∧
      ∃ before after evicted queue' budget', q.queue.admitPass budget event plan =
        .returned (.enqueued evicted) queue' budget' ∧
        Enqueues q.queue event before after evicted queue' ∧
        (before.filter (·.isContent)).length = plan.victims.length) ∨
    (¬Fits q.queue budget event plan.victims.length ∧
      ((∃ failed, q.queue.admitPass budget event plan =
        q.queue.planVictim budget event { plan with runtimeCapacityFailed := failed }) ∨
      q.queue.admitPass budget event plan = q.queue.refuse budget event .budgetUnavailable)) := by
  obtain ⟨-, hreleased⟩ := hplan.oldest
  have hreleasedContent : plan.releasedContent = oldestUsage q.queue plan.victims.length :=
    hplan.releasedContent.trans hreleased
  by_cases hfits : Fits q.queue budget event plan.victims.length
  · obtain ⟨restTotal, htotal, htotalFits⟩ := hfits.total
    obtain ⟨restContent, hcontent, hcontentFits⟩ := hfits.content
    obtain ⟨rest, hshared, hwithin⟩ := hfits.shared
    obtain ⟨hadd, haddContent⟩ := hfits.checkedAdd h htotal hcontent
    rw [← hreleased] at htotal hshared
    rw [← hreleasedContent] at hcontent
    refine .inl ⟨hfits, ?_⟩
    unfold SinkQueue.admitPass
    simp only [BudgetUsage.checkedSub_eq_some.mpr htotal,
      BudgetUsage.checkedSub_eq_some.mpr hcontent, Option.bind_some, hadd, haddContent]
    rw [if_pos ⟨htotalFits, hcontentFits⟩]
    have hreplaced := tryReplace_spec hshared event.metadata.usage
    generalize budget.tryReplace plan.released event.metadata.usage = result at hreplaced
    cases hreplaced with
    | replaced next _ _ _ =>
      obtain ⟨before, after, evicted, queue', henqueue, hspec⟩ :=
        enqueue_spec hplan next event htotal hcontent
      exact ⟨before, after, evicted, queue', next, henqueue, hspec⟩
    | full _ _ exceeds => exact absurd hwithin exceeds
    | tooLarge unrepresentable =>
      refine absurd ?_ unrepresentable
      have hlimits := budget.representable
      exact ⟨Nat.lt_of_le_of_lt (Nat.le_trans (Nat.le_add_left _ _) hwithin.1) hlimits.1,
        Nat.lt_of_le_of_lt (Nat.le_trans (Nat.le_add_left _ _) hwithin.2) hlimits.2⟩
  · refine .inr ⟨hfits, ?_⟩
    have hagain : ∃ failed, q.queue.planVictim budget event plan =
        q.queue.planVictim budget event { plan with runtimeCapacityFailed := failed } := ⟨_, rfl⟩
    unfold SinkQueue.admitPass
    cases hnextTotal : (q.queue.state.totalUsage.checkedSub plan.released).bind
      (·.checkedAdd event.metadata.usage) with
    | none => exact .inl hagain
    | some nextTotal =>
      cases hnextContent : (q.queue.state.contentUsage.checkedSub plan.releasedContent).bind
        (·.checkedAdd (SinkQueue.incomingContent event)) with
      | none => exact .inl hagain
      | some nextContent =>
        obtain ⟨restTotal, hrest, hsum⟩ := Option.bind_eq_some_iff.mp hnextTotal
        obtain ⟨restContent, hrestContent, hsumContent⟩ := Option.bind_eq_some_iff.mp hnextContent
        rw [BudgetUsage.checkedSub_eq_some] at hrest hrestContent
        rw [BudgetUsage.checkedAdd_eq_some hsum, BudgetUsage.checkedAdd_eq_some hsumContent]
        dsimp only
        split
        · rename_i hlocal
          have hbudget : budget.usage = others + restTotal + plan.released := by
            rw [h.shared, hrest, add_assoc]
          have hreplaced := tryReplace_spec hbudget event.metadata.usage
          generalize budget.tryReplace plan.released event.metadata.usage = result at hreplaced
          cases hreplaced with
          | replaced next _ _ fits =>
            exact absurd ⟨⟨restTotal, hreleased ▸ hrest, hlocal.1⟩,
              ⟨restContent, hreleasedContent ▸ hrestContent, hlocal.2⟩,
              ⟨_, hreleased ▸ hbudget, fits⟩⟩ hfits
          | full _ _ _ => exact .inl ⟨true, rfl⟩
          | tooLarge _ => exact .inr rfl
        · exact .inl hagain

/-- The plan that a pass leaves is again about the queue, and has one more victim. -/
theorem admitPass_looping
    (h : Balanced q budget others limits) (hplan : PlanOk q.queue.state.queued plan)
    (hloop : q.queue.admitPass budget event plan = .looping plan') :
    PlanOk q.queue.state.queued plan' ∧ ¬Fits q.queue budget event plan.victims.length ∧
      plan'.victims.length = plan.victims.length + 1 := by
  have hadvances := (advances_admitPass h event hplan).balanced.conserved
  rw [hloop] at hadvances
  refine ⟨hadvances.plan _ rfl, ?_⟩
  rcases admitPass_cases h hplan with
    ⟨-, _, _, _, _, _, hadmit, -⟩ | ⟨hnot, ⟨failed, hvictim⟩ | hrefuse⟩
  · cases hloop.symm.trans hadmit
  · rcases planVictim_cases q.queue budget event { plan with runtimeCapacityFailed := failed } with
      ⟨victim, plan'', hcase, hvictims⟩ | ⟨_, hcase⟩ | hcase
    · cases hloop.symm.trans (hvictim.trans hcase)
      exact ⟨hnot, by rw [hvictims]; simp⟩
    · cases hloop.symm.trans (hvictim.trans hcase)
    · rw [← hvictim, hloop] at hcase
      cases hcase
  · cases hloop.symm.trans hrefuse

variable {found : List RuntimeBudget}

/-- The loop enqueues the event in the first pass in which it fits. -/
theorem Admits.enqueued (h : Admits queue event plan found outcome queue' budget')
    (hplan : PlanOk queue.state.queued plan) (hshared : ∀ budget ∈ found, Shared queue budget)
    {evicted : List DropDelta} (houtcome : outcome = .enqueued evicted) :
    ∃ before after, Enqueues queue event before after evicted queue' ∧
      (before.filter (·.isContent)).length + 1 = plan.victims.length + found.length ∧
      ∀ n budget, found[n]? = some budget →
        (Fits queue budget event (plan.victims.length + n) ↔ n + 1 = found.length) := by
  induction h with
  | @returns plan budget budget' outcome queue' hpass =>
    obtain ⟨q, others, limits, rfl, hbalanced⟩ := (hshared budget List.mem_cons_self).balanced
    subst houtcome
    rcases admitPass_cases hbalanced hplan with
      ⟨hfits, before, after, evicted', queue'', budget'', hadmit, hspec, hlength⟩ |
        ⟨-, ⟨failed, hvictim⟩ | hrefuse⟩
    · cases hpass.symm.trans hadmit
      refine ⟨before, after, hspec, by rw [hlength]; rfl, fun n budget' hfound => ?_⟩
      cases n with
      | zero =>
        cases hfound
        exact iff_of_true hfits rfl
      | succ n => cases hfound
    · rcases planVictim_cases q.queue budget event
          { plan with runtimeCapacityFailed := failed } with
        ⟨_, _, hcase, -⟩ | ⟨_, hcase⟩ | hcase
      · cases hpass.symm.trans (hvictim.trans hcase)
      · cases hpass.symm.trans (hvictim.trans hcase)
      · rw [← hvictim, hpass] at hcase
        cases hcase
    · cases hpass.symm.trans hrefuse
  | @again plan plan' budget budget' found outcome queue' hpass rest ih =>
    obtain ⟨q, others, limits, rfl, hbalanced⟩ := (hshared budget List.mem_cons_self).balanced
    obtain ⟨hplan', hnot, hvictims⟩ := admitPass_looping hbalanced hplan hpass
    obtain ⟨before, after, hspec, hlength, hfits⟩ := ih hplan'
      (fun budget hmem => hshared budget (List.mem_cons_of_mem _ hmem)) houtcome
    refine ⟨before, after, hspec, by rw [hlength, hvictims, List.length_cons]; omega,
      fun n budget' hfound => ?_⟩
    have hnonempty : found.length ≠ 0 := by
      cases rest <;> simp
    cases n with
    | zero =>
      cases hfound
      refine iff_of_false hnot ?_
      rw [List.length_cons]
      omega
    | succ n =>
      have hnext := hfits n budget' hfound
      rw [hvictims] at hnext
      rw [List.length_cons, Nat.add_right_cancel_iff, ← hnext, Nat.add_assoc, Nat.add_comm 1 n]

/-- A refused event leaves the queue as it was, but for the ledger. -/
theorem planVictim_dropped
    (h : queue.planVictim budget event plan = .returned (.dropped reason delta) queue' budget') :
    queue.refuse budget event reason = .returned (.dropped reason delta) queue' budget' := by
  rcases planVictim_cases queue budget event plan with
    ⟨_, _, hcase, -⟩ | ⟨reason', hcase⟩ | hcase
  · cases h.symm.trans hcase
  · have hrefuse := h.symm.trans hcase
    cases hrefuse
    rfl
  · rw [h] at hcase
    cases hcase

theorem admitPass_dropped
    (h : Balanced q budget others limits) (hplan : PlanOk q.queue.state.queued plan)
    (hpass : q.queue.admitPass budget event plan =
      .returned (.dropped reason delta) queue' budget') :
    q.queue.refuse budget event reason = .returned (.dropped reason delta) queue' budget' := by
  rcases admitPass_cases h hplan with
    ⟨-, _, _, _, _, _, hadmit, -⟩ | ⟨-, ⟨failed, hvictim⟩ | hrefuse⟩
  · cases hpass.symm.trans hadmit
  · exact planVictim_dropped (hvictim.symm.trans hpass)
  · have hsame := hpass.symm.trans hrefuse
    cases hsame
    rfl

theorem Admits.dropped (h : Admits queue event plan found outcome queue' budget')
    (hplan : PlanOk queue.state.queued plan) (hshared : ∀ budget ∈ found, Shared queue budget)
    (houtcome : outcome = .dropped reason delta) :
    ∃ budget, found.getLast? = some budget ∧
      queue.refuse budget event reason = .returned (.dropped reason delta) queue' budget' := by
  induction h with
  | @returns plan budget budget' outcome queue' hpass =>
    obtain ⟨q, others, limits, rfl, hbalanced⟩ := (hshared budget List.mem_cons_self).balanced
    subst houtcome
    exact ⟨budget, rfl, admitPass_dropped hbalanced hplan hpass⟩
  | @again plan plan' budget budget' found outcome queue' hpass rest ih =>
    obtain ⟨q, others, limits, rfl, hbalanced⟩ := (hshared budget List.mem_cons_self).balanced
    obtain ⟨last, hlast, hrefuse⟩ := ih (admitPass_looping hbalanced hplan hpass).1
      (fun budget hmem => hshared budget (List.mem_cons_of_mem _ hmem)) houtcome
    exact ⟨last, by rw [List.getLast?_cons, hlast]; rfl, hrefuse⟩

/-- Before its loop a call refuses its event; or the queue is live, and it goes on or
terminalizes. -/
theorem beginAdmit_cases (queue : SinkQueue T) (budget : RuntimeBudget) (event : QueueEvent T) :
    (∃ reason, queue.beginAdmit budget event = queue.refuse budget event reason ∧
      (queue.state.terminalReason.isSome → reason = .sinkTerminal)) ∨
    (queue.state.terminalReason = none ∧
      (queue.beginAdmit budget event = .looping .start ∨
        Terminated (queue.beginAdmit budget event))) := by
  unfold SinkQueue.beginAdmit
  cases hterminal : queue.state.terminalReason with
  | some reason => exact .inl ⟨_, rfl, fun _ => rfl⟩
  | none =>
    dsimp only [Option.isSome_none]
    rw [if_neg Bool.false_ne_true]
    cases event.metadata.admissionClass with
    | content =>
      dsimp only
      split
      · exact .inr ⟨rfl, .inl rfl⟩
      · exact .inl ⟨_, rfl, nofun⟩
    | structural =>
      dsimp only
      split
      · exact .inr ⟨rfl, .inl rfl⟩
      · exact .inr ⟨rfl, .inr (terminated_terminalizeLocked queue budget event)⟩

theorem beginAdmit_looping (h : queue.beginAdmit budget event = .looping plan) : plan = .start := by
  rcases beginAdmit_cases queue budget event with ⟨_, hcase, -⟩ | ⟨-, hcase | hcase⟩
  · cases h.symm.trans hcase
  · cases h.symm.trans hcase
    rfl
  · rw [h] at hcase
    cases hcase

theorem planOk_start (queued : List (QueueEvent T)) : PlanOk queued .start := ⟨.start, rfl, rfl⟩

theorem TryAdmit.enqueued (h : TryAdmit queue event found outcome queue' budget')
    (hshared : ∀ budget ∈ found, Shared queue budget) {evicted : List DropDelta}
    (houtcome : outcome = .enqueued evicted) :
    ∃ before after, Enqueues queue event before after evicted queue' ∧
      (before.filter (·.isContent)).length + 2 = found.length ∧
      ∀ n budget, found[n + 1]? = some budget →
        (Fits queue budget event n ↔ n = (before.filter (·.isContent)).length) := by
  cases h with
  | @early budget _ _ _ hbegin =>
    subst houtcome
    rcases beginAdmit_cases queue budget event with ⟨_, hcase, -⟩ | ⟨-, hcase | hcase⟩
    · cases hbegin.symm.trans hcase
    · cases hbegin.symm.trans hcase
    · rw [hbegin] at hcase
      cases hcase
  | @loops plan budget _ found _ _ hbegin rest =>
    obtain rfl := beginAdmit_looping hbegin
    obtain ⟨before, after, hspec, hlength, hfits⟩ := rest.enqueued (planOk_start _)
      (fun budget hmem => hshared budget (List.mem_cons_of_mem _ hmem)) houtcome
    have hcount : (before.filter (·.isContent)).length + 1 = found.length :=
      hlength.trans (Nat.zero_add _)
    refine ⟨before, after, hspec, by rw [List.length_cons, ← hcount], fun n budget' hfound => ?_⟩
    have hn : EvictionPlan.start.victims.length + n = n := Nat.zero_add n
    rw [← hn, hfits n budget' hfound, ← hcount, hn]
    exact Nat.add_right_cancel_iff

theorem TryAdmit.dropped (h : TryAdmit queue event found outcome queue' budget')
    (hshared : ∀ budget ∈ found, Shared queue budget)
    (houtcome : outcome = .dropped reason delta) :
    delta = event.metadata.dropDelta ∧ found.getLast? = some budget' ∧
      queue' = { queue with drops := queue.drops.record delta } := by
  have hrefused : ∀ {budget : RuntimeBudget},
      queue.refuse budget event reason = .returned (.dropped reason delta) queue' budget' →
      delta = event.metadata.dropDelta ∧ budget = budget' ∧
        queue' = { queue with drops := queue.drops.record delta } := by
    intro budget hrefuse
    cases hrefuse
    exact ⟨rfl, rfl, rfl⟩
  cases h with
  | @early budget _ _ _ hbegin =>
    subst houtcome
    rcases beginAdmit_cases queue budget event with ⟨reason', hcase, -⟩ | ⟨-, hcase | hcase⟩
    · have hsame := hbegin.symm.trans hcase
      cases hsame
      exact ⟨rfl, rfl, rfl⟩
    · cases hbegin.symm.trans hcase
    · rw [hbegin] at hcase
      cases hcase
  | @loops plan budget _ found _ _ hbegin rest =>
    obtain rfl := beginAdmit_looping hbegin
    obtain ⟨last, hlast, hrefuse⟩ := rest.dropped (planOk_start _)
      (fun budget hmem => hshared budget (List.mem_cons_of_mem _ hmem)) houtcome
    obtain ⟨hdelta, rfl, hqueue⟩ := hrefused hrefuse
    exact ⟨hdelta, by rw [List.getLast?_cons, hlast]; rfl, hqueue⟩

/-- The plan has no more victims than there are content events. -/
theorem PlanOk.victims_le (h : PlanOk queue.state.queued plan) :
    plan.victims.length ≤ (queue.state.queued.filter (·.isContent)).length := by
  have hmetadata := congrArg List.length h.planned.evicted.2
  rw [List.length_map, List.length_map, h.oldest.1, List.length_take] at hmetadata
  omega

/-- The loop returns: each pass that goes on has one more victim. -/
theorem admits_returns (event : QueueEvent T) (hplan : PlanOk queue.state.queued plan)
    (budgets : Nat → RuntimeBudget) (hshared : ∀ n, Shared queue (budgets n)) :
    ∃ n outcome queue' budget',
      Admits queue event plan ((List.range n).map budgets) outcome queue' budget' := by
  induction hk : (queue.state.queued.filter (·.isContent)).length + 1 - plan.victims.length
    generalizing plan budgets with
  | zero =>
    have hvictims := hplan.victims_le
    omega
  | succ k ih =>
    obtain ⟨q, others, limits, rfl, hbalanced⟩ := (hshared 0).balanced
    cases hpass : q.queue.admitPass (budgets 0) event plan with
    | returned outcome queue' budget' => exact ⟨1, outcome, queue', budget', .returns hpass⟩
    | panicked message =>
      exact absurd hpass ((advances_admitPass hbalanced event hplan).returns message)
    | looping plan' =>
      obtain ⟨hplan', -, hvictims⟩ := admitPass_looping hbalanced hplan hpass
      obtain ⟨n, outcome, queue', budget', hrest⟩ :=
        ih hplan' (fun n => budgets (n + 1)) (fun n => hshared (n + 1)) (by omega)
      refine ⟨n + 1, outcome, queue', budget', ?_⟩
      rw [List.range_succ_eq_map, List.map_cons, List.map_map]
      exact .again hpass hrest

/-- `try_admit` returns, whatever the other queues do with the budget. -/
theorem tryAdmit_returns (event : QueueEvent T) (budgets : Nat → RuntimeBudget)
    (hshared : ∀ n, Shared queue (budgets n)) : ∃ n outcome queue' budget',
      TryAdmit queue event ((List.range n).map budgets) outcome queue' budget' := by
  obtain ⟨q, others, limits, rfl, hbalanced⟩ := (hshared 0).balanced
  cases hbegin : q.queue.beginAdmit (budgets 0) event with
  | returned outcome queue' budget' => exact ⟨1, outcome, queue', budget', .early hbegin⟩
  | panicked message =>
    exact absurd hbegin ((advances_beginAdmit hbalanced event).returns message)
  | looping plan =>
    obtain rfl := beginAdmit_looping hbegin
    obtain ⟨n, outcome, queue', budget', hrest⟩ := admits_returns event (planOk_start _)
      (fun n => budgets (n + 1)) fun n => hshared (n + 1)
    refine ⟨n + 1, outcome, queue', budget', ?_⟩
    rw [List.range_succ_eq_map, List.map_cons, List.map_map]
    exact .loops hbegin hrest

end Plans

/-! ## Terminalized queues -/

/-- A terminalized queue is empty, and no admission holds its lock. -/
def Ended (q : TrackedQueue T) : Prop :=
  q.queue.state.terminalReason.isSome → q.queue.state.queued = [] ∧ q.admission = none

section Terminal

variable {q q' : TrackedQueue T} {budget budget' : RuntimeBudget} {event : QueueEvent T}
  {plan : EvictionPlan} {limits : BudgetLimits} {others : BudgetUsage}

/-- The end of a part of an admission on a queue that was live. -/
theorem ended_advance (hlive : q.queue.state.terminalReason = none) {progress : AdmitProgress T}
    (h : (∃ plan', progress = .looping plan') ∨
      (∃ reason, progress = q.queue.refuse budget event reason) ∨
      (∃ before after evicted queue' budget',
        progress = .returned (.enqueued evicted) queue' budget' ∧
          Enqueues q.queue event before after evicted queue') ∨ Terminated progress) :
    Ended (q.advance budget event plan progress).2 := by
  rcases h with ⟨plan', rfl⟩ | ⟨reason, rfl⟩ | ⟨_, _, _, queue', budget', rfl, hspec⟩ | hend
  · intro hterminal
    simp [TrackedQueue.advance, hlive] at hterminal
  · intro hterminal
    simp [TrackedQueue.advance, SinkQueue.refuse, hlive] at hterminal
  · intro hterminal
    simp [TrackedQueue.advance, hspec.terminal, hlive] at hterminal
  · cases hend with
    | terminalized hqueued => exact fun _ => ⟨hqueued, rfl⟩
    | panicked =>
      intro hterminal
      simp [TrackedQueue.advance, hlive] at hterminal

theorem tryBeginCallback_terminalReason {delivery : Option (CallbackDelivery T)}
    {queue queue' : SinkQueue T} (h : queue.tryBeginCallback = (delivery, queue')) :
    queue'.state.terminalReason = queue.state.terminalReason ∧
      (queue.state.queued = [] → delivery = none) := by
  unfold SinkQueue.tryBeginCallback at h
  split at h
  · cases h
    exact ⟨rfl, fun _ => rfl⟩
  · split at h
    · cases h
      exact ⟨rfl, fun _ => rfl⟩
    next hqueued =>
      cases h
      exact ⟨rfl, fun hnil => absurd (hqueued.symm.trans hnil) (List.cons_ne_nil _ _)⟩

theorem tryCompleteCallback_state {answer : Except QueueAccessError Unit} {ticket : Nat}
    {queue queue' : SinkQueue T}
    (h : queue.tryCompleteCallback budget ticket = (answer, queue', budget')) :
    queue'.state.terminalReason = queue.state.terminalReason ∧
      queue'.state.queued = queue.state.queued := by
  unfold SinkQueue.tryCompleteCallback at h
  split at h
  · cases h
    exact ⟨rfl, rfl⟩
  · dsimp only at h
    split at h
    · cases h
      exact ⟨rfl, rfl⟩
    · split at h
      · cases h
        exact ⟨rfl, rfl⟩
      · split at h
        · cases h
          exact ⟨rfl, rfl⟩
        · split at h
          · split at h
            · cases h
              exact ⟨rfl, rfl⟩
            · cases h
              exact ⟨rfl, rfl⟩
          · cases h
            exact ⟨rfl, rfl⟩

theorem ended_step (h : Balanced q budget others limits) (hended : Ended q)
    (hstep : QueueStep budget q budget' q') : Ended q' := by
  cases hstep with
  | contend event => exact hended
  | beginAdmit event unlocked begins =>
    have hq' : q' = (q.advance budget event .start (q.queue.beginAdmit budget event)).2 := by
      rw [begins]
    rw [hq']
    rcases beginAdmit_cases q.queue budget event with ⟨reason, hcase, -⟩ | ⟨hlive, hcase | hcase⟩
    · rw [hcase]
      exact fun hterminal => ⟨(hended hterminal).1, rfl⟩
    · exact ended_advance hlive (.inl ⟨_, hcase⟩)
    · exact ended_advance hlive (.inr (.inr (.inr hcase)))
  | @admitPass _ _ _ event plan locked passes =>
    have hq' : q' = (q.advance budget event plan (q.queue.admitPass budget event plan)).2 := by
      rw [passes]
    rw [hq']
    have hlive : q.queue.state.terminalReason = none := by
      by_contra hterminal
      have hnone := (hended (Option.isSome_iff_ne_none.2 hterminal)).2
      rw [locked] at hnone
      cases hnone
    refine ended_advance hlive ?_
    rcases admitPass_cases h (h.conserved.plan _ locked) with
      ⟨-, before, after, evicted, queue', budget', hcase, hspec, -⟩ | ⟨-, ⟨failed, hcase⟩ | hcase⟩
    · exact .inr (.inr (.inl ⟨before, after, evicted, queue', budget', hcase, hspec⟩))
    · rw [hcase]
      rcases planVictim_cases q.queue budget event
          { plan with runtimeCapacityFailed := failed } with
        ⟨_, plan', hnext, -⟩ | hnext | hnext
      · exact .inl ⟨plan', hnext⟩
      · exact .inr (.inl hnext)
      · exact .inr (.inr (.inr hnext))
    · exact .inr (.inl ⟨_, hcase⟩)
  | beginCallback unlocked begins =>
    obtain ⟨hsame, hnone⟩ := tryBeginCallback_terminalReason begins
    intro hterminal
    rw [hsame] at hterminal
    cases hnone (hended hterminal).1
  | completeCallback ticket unlocked completes =>
    obtain ⟨hsame, hqueued⟩ := tryCompleteCallback_state completes
    intro hterminal
    rw [hsame] at hterminal
    exact ⟨hqueued.trans (hended hterminal).1, unlocked⟩
  | discard unlocked discards =>
    obtain ⟨hsame, hqueued⟩ := discardQueuedLocked_queued discards
    intro hterminal
    rw [hsame] at hterminal
    refine ⟨?_, unlocked⟩
    rcases hqueued with hqueued | rfl
    · exact hqueued
    · exact (hended hterminal).1

theorem ended_run {r r' : SinkRuntime T} (hsolvent : Solvent limits r)
    (h : ∀ q ∈ r.queues, Ended q) (hstep : SinkStep r r') : ∀ q ∈ r'.queues, Ended q := by
  cases hstep with
  | create limits' =>
    intro q hq
    rcases List.mem_append.1 hq with hq | hq
    · exact h q hq
    · rw [List.mem_singleton.1 hq]
      exact nofun
  | @use budget budget' before after q q' step =>
    intro other hother
    rcases List.mem_append.1 hother with hother | hother
    · exact h other (List.mem_append_left _ hother)
    · rcases List.mem_cons.1 hother with rfl | hother
      · exact ended_step hsolvent.balanced (h q (by simp)) step
      · exact h other (List.mem_append_right _ (List.mem_cons_of_mem _ hother))
  | @drop budget before after q unlocked =>
    intro other hother
    rcases List.mem_append.1 hother with hother | hother
    · exact h other (List.mem_append_left _ hother)
    · exact h other (List.mem_append_right _ (List.mem_cons_of_mem _ hother))

/-- A step on the queue, with any budget. -/
def Uses (q q' : TrackedQueue T) : Prop := ∃ budget budget', QueueStep budget q budget' q'

/-- What a terminalized queue keeps: it is empty, and delivers nothing but what was in its
callback. -/
structure Closed (delivered : List (QueueEvent T)) (q : TrackedQueue T) : Prop where
  terminal : q.queue.state.terminalReason.isSome
  queued : q.queue.state.queued = []
  unlocked : q.admission = none
  delivered_eq : q.delivered ++ q.inCallback.toList = delivered

theorem closed_step {delivered : List (QueueEvent T)} (h : Closed delivered q) (hstep : Uses q q') :
    Closed delivered q' := by
  obtain ⟨budget, budget', hstep⟩ := hstep
  cases hstep with
  | contend event => exact ⟨h.terminal, h.queued, h.unlocked, h.delivered_eq⟩
  | beginAdmit event unlocked begins =>
    have hq' : q' = (q.advance budget event .start (q.queue.beginAdmit budget event)).2 := by
      rw [begins]
    rw [hq']
    rcases beginAdmit_cases q.queue budget event with ⟨reason, hcase, -⟩ | ⟨hlive, -⟩
    · rw [hcase]
      exact ⟨h.terminal, h.queued, rfl, h.delivered_eq⟩
    · have hterminal := h.terminal
      rw [hlive] at hterminal
      cases hterminal
  | admitPass locked passes =>
    rw [h.unlocked] at locked
    cases locked
  | beginCallback unlocked begins => cases (tryBeginCallback_terminalReason begins).2 h.queued
  | @completeCallback _ _ _ answer ticket unlocked completes =>
    obtain ⟨hsame, hqueued⟩ := tryCompleteCallback_state completes
    refine ⟨hsame ▸ h.terminal, hqueued.trans h.queued, h.unlocked, ?_⟩
    rw [← h.delivered_eq]
    cases answer.isOk <;> simp
  | discard unlocked discards =>
    obtain ⟨hsame, hqueued⟩ := discardQueuedLocked_queued discards
    refine ⟨hsame ▸ h.terminal, ?_, h.unlocked, h.delivered_eq⟩
    rcases hqueued with hqueued | rfl
    · exact hqueued
    · exact h.queued

end Terminal

/-- **Eviction is minimal, in order, and spares structural events.** In every reachable runtime, for
any queue, any event, and any budgets that the call finds:
`try_admit` returns; when it enqueues the event, it evicts the content events of an initial part of
the queue, the fewest with which the event fits in some pass, and the others stay in order with the
event last; when it drops the event, only the ledger changes; and a terminalized queue drops every
event and delivers nothing but what was in its callback. -/
theorem eviction_minimal {limits : BudgetLimits} {r : SinkRuntime T} {q : TrackedQueue T}
    {representable : BudgetUsage.Representable ⟨limits.maxEvents, limits.maxEncodedBytes⟩}
    (h : ReflTransGen SinkStep ⟨.withLimits limits representable, []⟩ r) (hq : q ∈ r.queues) :
    (∀ event (budgets : Nat → RuntimeBudget), (∀ n, Shared q.queue (budgets n)) →
      ∃ n outcome queue' budget',
        TryAdmit q.queue event ((List.range n).map budgets) outcome queue' budget') ∧
    (∀ event found outcome queue' budget', (∀ budget ∈ found, Shared q.queue budget) →
      TryAdmit q.queue event found outcome queue' budget' →
      (∀ evicted, outcome = .enqueued evicted → ∃ before after,
        Enqueues q.queue event before after evicted queue' ∧
        (before.filter (·.isContent)).length + 2 = found.length ∧
        ∀ n budget, found[n + 1]? = some budget →
          (Fits q.queue budget event n ↔ n = (before.filter (·.isContent)).length)) ∧
      ∀ reason delta, outcome = .dropped reason delta →
        delta = event.metadata.dropDelta ∧ found.getLast? = some budget' ∧
          queue' = { q.queue with drops := q.queue.drops.record delta }) ∧
    (q.queue.state.terminalReason.isSome → ∀ q', ReflTransGen Uses q q' →
      q'.delivered ++ q'.inCallback.toList = q.delivered ++ q.inCallback.toList ∧
      q'.queue.tryBeginCallback.1 = none ∧
      ∀ event found outcome queue' budget', TryAdmit q'.queue event found outcome queue' budget' →
        outcome = .dropped .sinkTerminal event.metadata.dropDelta) := by
  refine ⟨fun event budgets => tryAdmit_returns event budgets,
    fun event found outcome queue' budget' hshared hadmit =>
      ⟨fun evicted => hadmit.enqueued hshared, fun reason delta => hadmit.dropped hshared⟩,
    fun hterminal q' hrun => ?_⟩
  have hsolvent : Solvent limits (⟨.withLimits limits representable, []⟩ : SinkRuntime T) :=
    ⟨by simp, withLimits_usage limits representable, rfl⟩
  have hended : Ended q :=
    run_invariant_under (i := Solvent limits)
      (p := fun r : SinkRuntime T => ∀ q ∈ r.queues, Ended q) (fun _ _ => solvent_step)
      (fun _ _ => ended_run) hsolvent (by simp) h q hq
  obtain ⟨hqueued, hunlocked⟩ := hended hterminal
  have hclosed : Closed (q.delivered ++ q.inCallback.toList) q' :=
    run_invariant (p := Closed (q.delivered ++ q.inCallback.toList)) (fun _ _ => closed_step)
      ⟨hterminal, hqueued, hunlocked, rfl⟩ hrun
  refine ⟨hclosed.delivered_eq, (tryBeginCallback_terminalReason rfl).2 hclosed.queued, ?_⟩
  intro event found outcome queue' budget' hadmit
  cases hadmit with
  | @early budget _ _ _ hbegin =>
    rcases beginAdmit_cases q'.queue budget event with ⟨reason, hcase, hreason⟩ | ⟨hlive, -⟩
    · rw [hreason hclosed.terminal] at hcase
      cases hbegin.symm.trans hcase
      rfl
    · have hstill := hclosed.terminal
      rw [hlive] at hstill
      cases hstill
  | @loops plan budget _ _ _ _ hbegin rest =>
    rcases beginAdmit_cases q'.queue budget event with ⟨reason, hcase, -⟩ | ⟨hlive, -⟩
    · cases hbegin.symm.trans hcase
    · have hstill := hclosed.terminal
      rw [hlive] at hstill
      cases hstill

/-- A queue with room for one content event and one structural one, that holds a content event. -/
def shownQueue : TrackedQueue Unit where
  queue :=
    { limits := ⟨⟨2, 200⟩, ⟨1, 100⟩, ⟨1, 100⟩, by decide⟩
      state := ⟨[gapEvent 60 (by decide)], none, ⟨1, 60⟩, ⟨1, 60⟩, none, 1⟩
      drops := .new }
  admission := none
  inCallback := none
  offered := [gapEvent 60 (by decide)]
  delivered := []
  dropped := []

/-- The budget with that event. -/
def shownBudget : RuntimeBudget :=
  { RuntimeBudget.new with packedUsage := 2 ^ 32 + 60, within := by decide }

/-- A second content event evicts the first one, in the second pass. -/
theorem eviction_minimal_second :
    ReflTransGen SinkStep ⟨.new, []⟩ ⟨shownBudget, [shownQueue]⟩ ∧
      ∃ evicted queue' budget', TryAdmit shownQueue.queue (gapEvent 70 (by decide))
          [shownBudget, shownBudget, shownBudget] (.enqueued evicted) queue' budget' ∧
        ∃ before after,
          Enqueues shownQueue.queue (gapEvent 70 (by decide)) before after evicted queue' ∧
            (before.filter (·.isContent)).length + 2 = 3 := by
  have hcreated : ReflTransGen SinkStep (⟨.new, []⟩ : SinkRuntime Unit) _ :=
    .single (.create shownQueue.queue.limits)
  have hbegun := hcreated.tail (use_only (.beginAdmit (gapEvent 60 (by decide)) rfl rfl))
  have hadmitted : ReflTransGen SinkStep (⟨.new, []⟩ : SinkRuntime Unit)
      ⟨shownBudget, [shownQueue]⟩ := hbegun.tail (use_only (.admitPass rfl rfl))
  have hmem := List.mem_singleton_self shownQueue
  have hshared : ∀ budget ∈ [shownBudget, shownBudget, shownBudget],
      Shared shownQueue.queue budget := by
    intro budget hbudget
    refine ⟨_, by decide, _, hadmitted, ?_, shownQueue, hmem, rfl⟩
    simpa [eq_comm] using hbudget
  have hadmit : ∃ evicted queue' budget', TryAdmit shownQueue.queue (gapEvent 70 (by decide))
      [shownBudget, shownBudget, shownBudget] (.enqueued evicted) queue' budget' :=
    ⟨_, _, _, .loops rfl (.again rfl (.returns rfl))⟩
  obtain ⟨evicted, queue', budget', hadmit⟩ := hadmit
  obtain ⟨before, after, hspec, hlength, -⟩ :=
    ((eviction_minimal hadmitted hmem).2.1 _ _ _ _ _ hshared hadmit).1 evicted rfl
  exact ⟨hadmitted, evicted, queue', budget', hadmit, before, after, hspec, hlength⟩

end Troupe.Sink
