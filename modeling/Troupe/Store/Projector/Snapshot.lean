import Troupe.Store.Projector.Counters
import Troupe.Store.Projector.Messages
import Troupe.Store.Projector.Plans
import Troupe.Store.Projector.Spans
import Troupe.Store.Projector.Usage

/-! # The snapshot projector

`snapshot.rs`: the five read models together, with the observation gaps and the truncations, behind a
reference validator of their own. An event changes the projector only when the validator accepts it
and each of the five projects it.

The hub has checked an accepted event with the same validator, so what can still fail are the rules
the projectors add. `Projectable` states them for a whole stream: terminal usages name their acts,
and any two events are `Compatible`. Result: **`applyAll_iff`**, a stream that the validator accepts
is projected exactly when it is projectable. -/

namespace Troupe.Store

open Troupe.Lib Troupe.Core

/-- `ProjectedTruncation`. -/
inductive ProjectedTruncation where
  | agentMessage (sequence : SchemaU64) (scope : DiagnosticScope) (messageId : RunLocalId)
  | agentPlan (sequence : SchemaU64) (scope : DiagnosticScope)
deriving DecidableEq

/-- `ProjectedTruncation::sequence`. -/
def ProjectedTruncation.sequence : ProjectedTruncation → SchemaU64
  | agentMessage sequence _ _ => sequence
  | agentPlan sequence _ => sequence

/-- `collect_truncations`: those of messages, then those of plans, sorted (stably) by sequence. -/
def collectTruncations (messages : MessageReadModel) (plans : PlanReadModel) :
    List ProjectedTruncation :=
  let ofMessages := messages.messages.filterMap fun message =>
    message.completion.bind fun completion =>
      if completion.truncated then
        some (.agentMessage completion.sequence message.scope message.messageId)
      else
        none
  let ofPlans := (plans.plans.filter (·.truncated)).map fun plan =>
    .agentPlan plan.sequence plan.scope
  (ofMessages ++ ofPlans).mergeSort fun a b => a.sequence ≤ b.sequence

/-- `SnapshotReadModel`. -/
structure SnapshotReadModel extends Through where
  spans : SpanReadModel
  messages : MessageReadModel
  plans : PlanReadModel
  counters : CounterReadModel
  usage : UsageReadModel
  gaps : List ObservationGap
  truncations : List ProjectedTruncation

/-- `SnapshotReadModel::empty`. -/
def SnapshotReadModel.empty (runId : CanonicalUuid) : SnapshotReadModel where
  toThrough := .empty runId
  spans := .empty runId
  messages := .empty runId
  plans := .empty runId
  counters := .empty runId
  usage := .empty runId
  gaps := []
  truncations := []

/-- `SnapshotProjectionError`. -/
inductive SnapshotProjectionError where
  | invalidReference (error : ReferenceValidationError)
  | span (error : SpanProjectionError)
  | message (error : MessageProjectionError)
  | plan (error : PlanProjectionError)
  | counter (error : CounterProjectionError)
  | usage (error : UsageProjectionError)
deriving DecidableEq

/-- `SnapshotProjector`. -/
structure SnapshotProjector where
  references : ReferenceValidator
  model : SnapshotReadModel

namespace Snapshot

/-- The gaps after an event. -/
def addGap (gaps : List ObservationGap) : DiagnosticEvent → List ObservationGap
  | .observationGap gap => gaps ++ [gap]
  | _ => gaps

/-- `candidate_for_event`. -/
def candidateForEvent (model : SnapshotReadModel) (event : DiagnosticEvent) :
    Except (Fault SnapshotProjectionError) SnapshotReadModel := do
  let spans ← (Spans.projectValidatedEvent model.spans event).mapError (.map .span)
  let messages ← (Messages.candidateForEvent model.messages event).mapError (.raised ∘ .message)
  let plans ← (Plans.candidateForEvent model.plans event).mapError (.raised ∘ .plan)
  let counters ← (Counters.candidateForEvent model.counters event).mapError (.raised ∘ .counter)
  let usage ← (Usage.candidateForEvent model.usage event).mapError (.raised ∘ .usage)
  .ok {
    runId := model.runId
    throughSequence := spans.throughSequence
    throughElapsedNs := spans.throughElapsedNs
    spans, messages, plans, counters, usage
    gaps := addGap model.gaps event
    truncations := collectTruncations messages plans }

end Snapshot

namespace SnapshotProjector

/-- `SnapshotProjector::new`. -/
def new (runId : CanonicalUuid) : SnapshotProjector := ⟨.new, .empty runId⟩

/-- `SnapshotProjector::apply`. -/
def apply (projector : SnapshotProjector) (event : DiagnosticEvent) :
    Except (Fault SnapshotProjectionError) SnapshotProjector :=
  match projector.references.validateThen event fun validated =>
    Snapshot.candidateForEvent projector.model validated.event with
  | (.error fault, _) => .error (fault.map .invalidReference)
  | (.ok (.error fault), _) => .error fault
  | (.ok (.ok candidate), references) => .ok ⟨references, candidate⟩

/-- `SnapshotProjector::apply_all`. -/
def applyAll (projector : SnapshotProjector) (events : List DiagnosticEvent) :
    Except (Fault SnapshotProjectionError) SnapshotProjector :=
  events.foldlM apply projector

end SnapshotProjector

/-- `project_snapshot`. -/
def projectSnapshot (runId : CanonicalUuid) (events : List DiagnosticEvent) :
    Except (Fault SnapshotProjectionError) SnapshotReadModel := do
  let projector ← (SnapshotProjector.new runId).applyAll events
  .ok projector.model

/-! ## What the projectors ask of a stream -/

/-- `later` can follow `earlier` in each of the read models. -/
structure Compatible (earlier later : DiagnosticEvent) : Prop where
  message : Messages.Compatible earlier later
  plan : Plans.Compatible earlier later
  counter : Counters.Compatible earlier later
  usage : Usage.Compatible earlier later

theorem compatible_iff {earlier later : DiagnosticEvent} : Compatible earlier later ↔
    Messages.Compatible earlier later ∧ Plans.Compatible earlier later ∧
      Counters.Compatible earlier later ∧ Usage.Compatible earlier later :=
  ⟨fun h => ⟨h.message, h.plan, h.counter, h.usage⟩, fun ⟨hm, hp, hc, hu⟩ => ⟨hm, hp, hc, hu⟩⟩

instance (earlier later : DiagnosticEvent) : Decidable (Compatible earlier later) :=
  decidable_of_iff _ compatible_iff.symm

/-- Terminal usages name their acts, and every event is compatible with those before it. -/
structure Projectable (events : List DiagnosticEvent) : Prop where
  namesAct : ∀ event ∈ events, Usage.NamesAct event
  compatible : events.Pairwise Compatible

theorem projectable_concat {history : List DiagnosticEvent} {event : DiagnosticEvent} :
    Projectable (history ++ [event]) ↔ Projectable history ∧ Usage.NamesAct event ∧
      ∀ earlier ∈ history, Compatible earlier event := by
  constructor
  · rintro ⟨hnames, hcompatible⟩
    obtain ⟨hhistory, -, hlast⟩ := List.pairwise_append.mp hcompatible
    exact ⟨⟨fun earlier hearlier => hnames earlier (List.mem_append_left _ hearlier), hhistory⟩,
      hnames event (by simp), fun earlier hearlier => hlast earlier hearlier event (by simp)⟩
  · rintro ⟨⟨hnames, hhistory⟩, hevent, hlast⟩
    refine ⟨fun other hother => ?_, List.pairwise_append.mpr
      ⟨hhistory, List.pairwise_singleton _ _, fun earlier hearlier other hother => ?_⟩⟩
    · rcases List.mem_append.mp hother with hother | hother
      · exact hnames other hother
      · rw [List.mem_singleton.mp hother]
        exact hevent
    · rw [List.mem_singleton.mp hother]
      exact hlast earlier hearlier

/-! ## The snapshot of a history -/

namespace Snapshot

/-- Each read model is that of `history`. -/
structure Summarises (model : SnapshotReadModel) (runId : CanonicalUuid)
    (history : List DiagnosticEvent) : Prop where
  spans : Spans.Summarises model.spans runId history
  messages : Messages.Summarises model.messages runId history
  plans : Plans.Summarises model.plans runId history
  counters : Counters.Summarises model.counters runId history
  usage : Usage.Summarises model.usage runId history

theorem summarises_empty (runId : CanonicalUuid) : Summarises (.empty runId) runId [] where
  spans := Spans.summarises_empty runId
  messages := Messages.summarises_empty runId
  plans := Plans.summarises_empty runId
  counters := Counters.summarises_empty runId
  usage := Usage.summarises_empty runId

section Project

variable {runId : CanonicalUuid} {history : List DiagnosticEvent} {event : DiagnosticEvent}
  {model model' : SnapshotReadModel}

/-- The parts of a candidate are the candidates of the parts. -/
theorem candidateForEvent_eq_ok : candidateForEvent model event = .ok model' ↔
    ∃ spans messages plans counters usage,
      Spans.projectValidatedEvent model.spans event = .ok spans ∧
      Messages.candidateForEvent model.messages event = .ok messages ∧
      Plans.candidateForEvent model.plans event = .ok plans ∧
      Counters.candidateForEvent model.counters event = .ok counters ∧
      Usage.candidateForEvent model.usage event = .ok usage ∧
      { runId := model.runId
        throughSequence := spans.throughSequence
        throughElapsedNs := spans.throughElapsedNs
        spans, messages, plans, counters, usage
        gaps := addGap model.gaps event
        truncations := collectTruncations messages plans } = model' := by
  unfold candidateForEvent
  simp only [bind_eq_ok, mapError_eq_ok, Except.ok.injEq]
  constructor
  · rintro ⟨spans, hspans, messages, hmessages, plans, hplans, counters, hcounters, usage, husage,
      hmodel⟩
    exact ⟨spans, messages, plans, counters, usage, hspans, hmessages, hplans, hcounters, husage,
      hmodel⟩
  · rintro ⟨spans, messages, plans, counters, usage, hspans, hmessages, hplans, hcounters, husage,
      hmodel⟩
    exact ⟨spans, hspans, messages, hmessages, plans, hplans, counters, hcounters, usage, husage,
      hmodel⟩

theorem candidateForEvent_isOk (h : Summarises model runId history)
    (hnext : Next runId history event)
    (hfinish : ∀ id, event.Finishes id → ∃ start ∈ history, start.Starts ∧ start.sequence = id) :
    (∃ model', candidateForEvent model event = .ok model') ↔
      Usage.NamesAct event ∧ ∀ earlier ∈ history, Compatible earlier event := by
  have hmessages := Messages.candidateForEvent_isOk h.messages hnext
  have hplans := Plans.candidateForEvent_isOk h.plans hnext
  have hcounters := Counters.candidateForEvent_isOk h.counters hnext
  have husage := Usage.candidateForEvent_isOk h.usage hnext
  constructor
  · rintro ⟨model', hok⟩
    obtain ⟨spans, messages, plans, counters, usage, -, hm, hp, hc, hu, -⟩ :=
      candidateForEvent_eq_ok.mp hok
    obtain ⟨hnames, husages⟩ := husage.mp ⟨usage, hu⟩
    exact ⟨hnames, fun earlier hearlier =>
      ⟨hmessages.mp ⟨messages, hm⟩ earlier hearlier, hplans.mp ⟨plans, hp⟩ earlier hearlier,
        hcounters.mp ⟨counters, hc⟩ earlier hearlier, husages earlier hearlier⟩⟩
  · rintro ⟨hnames, hcompatible⟩
    obtain ⟨spans, hs, -⟩ := Spans.projectValidatedEvent_ok h.spans hnext hfinish
    obtain ⟨messages, hm⟩ := hmessages.mpr fun earlier hearlier =>
      (hcompatible earlier hearlier).message
    obtain ⟨plans, hp⟩ := hplans.mpr fun earlier hearlier => (hcompatible earlier hearlier).plan
    obtain ⟨counters, hc⟩ := hcounters.mpr fun earlier hearlier =>
      (hcompatible earlier hearlier).counter
    obtain ⟨usage, hu⟩ := husage.mpr ⟨hnames, fun earlier hearlier =>
      (hcompatible earlier hearlier).usage⟩
    exact ⟨_, candidateForEvent_eq_ok.mpr
      ⟨spans, messages, plans, counters, usage, hs, hm, hp, hc, hu, rfl⟩⟩

theorem candidateForEvent_summarises (h : Summarises model runId history)
    (hnext : Next runId history event)
    (hfinish : ∀ id, event.Finishes id → ∃ start ∈ history, start.Starts ∧ start.sequence = id)
    (hok : candidateForEvent model event = .ok model') :
    Summarises model' runId (history ++ [event]) := by
  obtain ⟨spans, messages, plans, counters, usage, hs, hm, hp, hc, hu, rfl⟩ :=
    candidateForEvent_eq_ok.mp hok
  obtain ⟨spans', hs', hsummary⟩ := Spans.projectValidatedEvent_ok h.spans hnext hfinish
  cases hs.symm.trans hs'
  exact ⟨hsummary, Messages.candidateForEvent_summarises h.messages hnext hm,
    Plans.candidateForEvent_summarises h.plans hnext hp,
    Counters.candidateForEvent_summarises h.counters hnext hc,
    Usage.candidateForEvent_summarises h.usage hnext hu⟩

end Project

end Snapshot

/-! ## Whole streams -/

section Stream

variable {runId : CanonicalUuid} {history : List DiagnosticEvent} {event : DiagnosticEvent}
  {validator validator' : ReferenceValidator} {accepted : ValidatedEvent}
  {projector projector' : SnapshotProjector}

/-- An accepted finish names a span that was started. -/
theorem finishes_started (htracks : Tracks history validator)
    (h : validator.validate event = (.ok accepted, validator')) :
    ∀ id, event.Finishes id → ∃ start ∈ history, start.Starts ∧ start.sequence = id := by
  rintro id ⟨family, hrole⟩
  obtain ⟨-, haccepts, -⟩ := ReferenceValidator.validate_ok h
  cases haccepts with
  | finish _ _ span role _ found =>
    cases hrole.symm.trans role
    obtain ⟨start, hstart, hsequence, hstarts, -⟩ := (htracks.spans id span found).started
    exact ⟨start, hstart, ⟨_, _, _, hstarts⟩, hsequence⟩
  | start _ _ _ role => cases hrole.symm.trans role
  | within _ _ _ role => cases hrole.symm.trans role
  | outside role => cases hrole.symm.trans role

/-- With the references in order, `apply` is up to the read models. -/
theorem apply_eq_ok (h : projector.references.validate event = (.ok accepted, validator')) :
    projector.apply event = .ok projector' ↔
      ∃ model, Snapshot.candidateForEvent projector.model event = .ok model ∧
        ⟨validator', model⟩ = projector' := by
  have hevent := (ReferenceValidator.validate_ok h).2.2
  unfold SnapshotProjector.apply
  rw [ReferenceValidator.validateThen_of_validate h, hevent]
  cases Snapshot.candidateForEvent projector.model event with
  | error fault => simp
  | ok model => simp

theorem applyAll_concat : projector.applyAll (history ++ [event]) = .ok projector' ↔
    ∃ middle, projector.applyAll history = .ok middle ∧ middle.apply event = .ok projector' :=
  foldlM_concat_eq_ok

/-- A projector that has applied exactly `history`. -/
structure Applied (projector : SnapshotProjector) (runId : CanonicalUuid)
    (history : List DiagnosticEvent) (validator : ReferenceValidator) : Prop where
  references : projector.references = validator
  summarises : Snapshot.Summarises projector.model runId history

/-- One event: it is applied exactly when it is compatible with the history. -/
theorem apply_isOk (h : Applied projector runId history validator)
    (htracks : Tracks history validator) (hnext : Next runId history event)
    (hvalidate : validator.validate event = (.ok accepted, validator')) :
    (∃ projector', projector.apply event = .ok projector') ↔
      Usage.NamesAct event ∧ ∀ earlier ∈ history, Compatible earlier event := by
  have hfinish := finishes_started htracks hvalidate
  rw [← h.references] at hvalidate
  rw [← Snapshot.candidateForEvent_isOk h.summarises hnext hfinish]
  simp only [apply_eq_ok hvalidate]
  constructor
  · rintro ⟨_, model, hmodel, -⟩
    exact ⟨model, hmodel⟩
  · rintro ⟨model, hmodel⟩
    exact ⟨_, model, hmodel, rfl⟩

theorem apply_applied (h : Applied projector runId history validator)
    (htracks : Tracks history validator) (hnext : Next runId history event)
    (hvalidate : validator.validate event = (.ok accepted, validator'))
    (happly : projector.apply event = .ok projector') :
    Applied projector' runId (history ++ [event]) validator' := by
  have hfinish := finishes_started htracks hvalidate
  rw [← h.references] at hvalidate
  obtain ⟨model, hmodel, rfl⟩ := (apply_eq_ok hvalidate).mp happly
  exact ⟨rfl, Snapshot.candidateForEvent_summarises h.summarises hnext hfinish hmodel⟩

/-- **A stream that a fresh validator accepts is projected exactly when it is projectable.** -/
theorem applyAll_iff (hdense : Dense runId history)
    (haccepted : ReferenceValidator.new.acceptAll history = .ok validator) :
    ((∃ projector, (SnapshotProjector.new runId).applyAll history = .ok projector) ↔
      Projectable history) ∧
    ∀ projector, (SnapshotProjector.new runId).applyAll history = .ok projector →
      Applied projector runId history validator := by
  induction hdense generalizing validator with
  | nil =>
    cases haccepted
    refine ⟨iff_of_true ⟨_, rfl⟩ ⟨by simp, List.Pairwise.nil⟩, ?_⟩
    rintro projector ⟨⟩
    exact ⟨rfl, Snapshot.summarises_empty runId⟩
  | append dense next ih =>
    obtain ⟨before, accepted, hbefore, hvalidate⟩ := acceptAll_concat.mp haccepted
    obtain ⟨hiff, happlied⟩ := ih hbefore
    have htracks := acceptAll_tracks hbefore
    refine ⟨?_, fun projector hprojector => ?_⟩
    · rw [projectable_concat, ← hiff]
      simp only [applyAll_concat]
      constructor
      · rintro ⟨projector, middle, hmiddle, happly⟩
        have hlast := (apply_isOk (happlied middle hmiddle) htracks next hvalidate).mp
          ⟨projector, happly⟩
        exact ⟨⟨middle, hmiddle⟩, hlast⟩
      · rintro ⟨⟨middle, hmiddle⟩, hlast⟩
        obtain ⟨projector, happly⟩ :=
          (apply_isOk (happlied middle hmiddle) htracks next hvalidate).mpr hlast
        exact ⟨projector, middle, hmiddle, happly⟩
    · obtain ⟨middle, hmiddle, happly⟩ := applyAll_concat.mp hprojector
      exact apply_applied (happlied middle hmiddle) htracks next hvalidate happly

end Stream

end Troupe.Store
