import Troupe.Lib.Keyed
import Troupe.Store.Projector.Through

/-! # The plan read model

`plans.rs`: the latest plan snapshot of each scope. An act that has a plan keeps its scope, which is
a rule the reference validator does not have.

Results: **`candidateForEvent_isOk`** and **`candidateForEvent_summarises`**. -/

namespace Troupe.Store

open Troupe.Lib Troupe.Core

/-- `ProjectedPlan`. -/
structure ProjectedPlan where
  runId : CanonicalUuid
  scope : DiagnosticScope
  sequence : SchemaU64
  elapsedNs : ElapsedNs
  entries : List PlanEntry
  truncated : Bool
  causedBy : List CausalLink
deriving DecidableEq

/-- `ProjectedPlan::from_event`. -/
def ProjectedPlan.fromEvent (event : AgentPlanSnapshot) : ProjectedPlan where
  runId := event.header.runId
  scope := event.header.scope
  sequence := event.header.sequence
  elapsedNs := event.header.elapsedNs
  entries := event.entries
  truncated := event.truncated
  causedBy := event.header.causedBy

/-- `PlanReadModel`. -/
structure PlanReadModel extends Through where
  plans : List ProjectedPlan

/-- `PlanReadModel::empty`. -/
def PlanReadModel.empty (runId : CanonicalUuid) : PlanReadModel := ⟨.empty runId, []⟩

/-- `PlanProjectionError`, less the variant only `PlanProjector` returns. -/
inductive PlanProjectionError where
  | position (error : PositionError)
  | scopeMismatch (actId : RunLocalId) (eventSequence : SchemaU64)
deriving DecidableEq

namespace Plans

/-- `validate_snapshot`. -/
def validateSnapshot (plans : List ProjectedPlan) (event : AgentPlanSnapshot) :
    Except PlanProjectionError Unit :=
  match event.header.scope.actId with
  | none => .ok ()
  | some actId =>
    if plans.any fun plan => plan.scope.actId == some actId && plan.scope != event.header.scope then
      .error (.scopeMismatch actId event.header.sequence)
    else
      .ok ()

/-- `apply_snapshot`. -/
def applySnapshot (plans : List ProjectedPlan) (event : AgentPlanSnapshot) :
    Except PlanProjectionError (List ProjectedPlan) :=
  upsert ProjectedPlan.scope event.header.scope (fun _ => .ok (.fromEvent event))
    (.ok (.fromEvent event)) plans

/-- What `candidate_for_event` does to the plans. -/
def applyPlans (plans : List ProjectedPlan) :
    DiagnosticEvent → Except PlanProjectionError (List ProjectedPlan)
  | .agentPlanSnapshot snapshot => do
    validateSnapshot plans snapshot
    applySnapshot plans snapshot
  | _ => .ok plans

/-- `candidate_for_event`, which `project_validated_event` calls. -/
def candidateForEvent (model : PlanReadModel) (event : DiagnosticEvent) :
    Except PlanProjectionError PlanReadModel := do
  (model.validatePosition event).mapError .position
  let plans ← applyPlans model.plans event
  .ok ⟨model.advance event, plans⟩

/-! ## Two snapshots of one act -/

/-- The scope an event gives a plan for. -/
def planScope? : DiagnosticEvent → Option DiagnosticScope
  | .agentPlanSnapshot snapshot => some snapshot.header.scope
  | _ => none

/-- `later` can follow `earlier`: plans of one act have one scope. -/
def Compatible (earlier later : DiagnosticEvent) : Prop :=
  ∀ scope ∈ planScope? earlier, ∀ other ∈ planScope? later,
    ∀ actId ∈ scope.actId, other.actId = some actId → scope = other

instance (earlier later : DiagnosticEvent) : Decidable (Compatible earlier later) := by
  unfold Compatible
  infer_instance

/-- The read model is that of `history`. -/
structure Summarises (model : PlanReadModel) (runId : CanonicalUuid)
    (history : List DiagnosticEvent) : Prop where
  covers : model.Covers runId history
  indexed : Indexed ProjectedPlan.scope model.plans planScope? history

theorem summarises_empty (runId : CanonicalUuid) : Summarises (.empty runId) runId [] where
  covers := covers_empty
  indexed := indexed_nil

section Project

variable {runId : CanonicalUuid} {history : List DiagnosticEvent} {event : DiagnosticEvent}
  {plans plans' : List ProjectedPlan} {model model' : PlanReadModel}

theorem validateSnapshot_eq_ok {snapshot : AgentPlanSnapshot} :
    validateSnapshot plans snapshot = .ok () ↔
      ∀ plan ∈ plans, ∀ actId ∈ plan.scope.actId, snapshot.header.scope.actId = some actId →
        plan.scope = snapshot.header.scope := by
  unfold validateSnapshot
  cases hact : snapshot.header.scope.actId with
  | none => simp
  | some actId =>
    simp only [ite_error_eq_ok, and_true, List.any_eq_true, Bool.and_eq_true, beq_iff_eq,
      bne_iff_ne, not_exists, not_and, not_not, Option.some.injEq]
    constructor
    · rintro h plan hplan other hother rfl
      exact h plan hplan hother
    · intro h plan hplan hother
      exact h plan hplan actId hother rfl

theorem applySnapshot_isOk (hkeyed : Keyed ProjectedPlan.scope plans)
    (snapshot : AgentPlanSnapshot) : ∃ plans', applySnapshot plans snapshot = .ok plans' :=
  (upsert_isOk hkeyed).mpr ⟨fun _ _ _ => ⟨_, rfl⟩, fun _ => ⟨_, rfl⟩⟩

theorem applyPlans_isOk (hindexed : Indexed ProjectedPlan.scope plans planScope? history) :
    (∃ plans', applyPlans plans event = .ok plans') ↔
      ∀ earlier ∈ history, Compatible earlier event := by
  cases event with
  | agentPlanSnapshot snapshot =>
    have hiff : (∃ plans', applyPlans plans (.agentPlanSnapshot snapshot) = .ok plans') ↔
        validateSnapshot plans snapshot = .ok () := by
      simp only [applyPlans, bind_eq_ok]
      constructor
      · rintro ⟨_, _, hvalid, -⟩
        exact hvalid
      · intro hvalid
        obtain ⟨plans', hplans'⟩ := applySnapshot_isOk hindexed.keyed snapshot
        exact ⟨plans', (), hvalid, hplans'⟩
    rw [hiff, validateSnapshot_eq_ok]
    constructor
    · rintro h earlier hearlier scope hscope _ ⟨⟩ actId hact hsame
      obtain ⟨plan, hplan, rfl⟩ := (hindexed.named scope).mpr ⟨earlier, hearlier, hscope⟩
      exact h plan hplan actId hact hsame
    · intro h plan hplan actId hact hsame
      obtain ⟨earlier, hearlier, hscope⟩ := (hindexed.named plan.scope).mp ⟨plan, hplan, rfl⟩
      exact h earlier hearlier plan.scope hscope _ rfl actId hact hsame
  | _ =>
    constructor
    · rintro _ earlier _ scope _ other ⟨⟩
    · exact fun _ => ⟨plans, rfl⟩

theorem applyPlans_indexed (hindexed : Indexed ProjectedPlan.scope plans planScope? history)
    (h : applyPlans plans event = .ok plans') :
    Indexed ProjectedPlan.scope plans' planScope? (history ++ [event]) := by
  cases event with
  | agentPlanSnapshot snapshot =>
    obtain ⟨_, -, hsnapshot⟩ := bind_eq_ok.mp h
    refine indexed_upsert hindexed rfl ?_ ?_ hsnapshot
    · rintro _ _ _ ⟨⟩
      rfl
    · rintro _ ⟨⟩
      rfl
  | _ =>
    cases h
    exact hindexed.skip rfl

theorem candidateForEvent_eq_ok (h : Summarises model runId history)
    (hnext : Next runId history event) : candidateForEvent model event = .ok model' ↔
      ∃ plans, applyPlans model.plans event = .ok plans ∧
        ⟨model.advance event, plans⟩ = model' := by
  unfold candidateForEvent
  rw [mapError_bind_of_ok (validatePosition_next h.covers hnext), bind_eq_ok]
  simp only [Except.ok.injEq]

/-- **The next event is projected exactly when it is compatible with every earlier one.** -/
theorem candidateForEvent_isOk (h : Summarises model runId history)
    (hnext : Next runId history event) : (∃ model', candidateForEvent model event = .ok model') ↔
      ∀ earlier ∈ history, Compatible earlier event := by
  rw [← applyPlans_isOk h.indexed]
  simp only [candidateForEvent_eq_ok h hnext]
  rw [exists_comm]
  simp

theorem candidateForEvent_summarises (h : Summarises model runId history)
    (hnext : Next runId history event) (hok : candidateForEvent model event = .ok model') :
    Summarises model' runId (history ++ [event]) := by
  obtain ⟨plans, hplans, rfl⟩ := (candidateForEvent_eq_ok h hnext).mp hok
  exact ⟨covers_advance h.covers hnext, applyPlans_indexed h.indexed hplans⟩

end Project

end Plans

end Troupe.Store
