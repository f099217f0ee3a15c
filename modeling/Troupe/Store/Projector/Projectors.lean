import Troupe.Lib.Attempts
import Troupe.Store.Projector.Snapshot

/-! # The projectors in place

`SpanProjector`, `MessageProjector`, `PlanProjector`, `CounterProjector` and `UsageProjector` each hold
one read model behind a reference validator; `SnapshotProjector` holds the five behind a single one.
Their `apply` is here the method on `&mut self`: its answer, and the projector it leaves behind.

* Four of the standalone projectors differ in `candidate_for_event` only, so they are `Projector` with
  that function as a parameter. `SpanProjector` checks the position, then the references, and changes
  its read model in place, where the two `expect`s are.
* `InvalidReference` is a variant of every projection error; the errors of the standalone projectors
  add it here (`ProjectorError`).

Result: **`snapshot_projection`**. A snapshot is projected exactly when the five standalone projections
succeed, from which it is then assembled; its projector is as it was after a failing `apply`; and no
offer of any event makes a projector panic. -/

namespace Troupe.Store

open Troupe.Lib Troupe.Core

/-- The errors of a standalone projector. -/
inductive ProjectorError (ε : Type) where
  | projection (error : ε)
  | invalidReference (error : ReferenceValidationError)
deriving DecidableEq

/-- A read model behind a reference validator of its own. -/
structure Projector (μ : Type) where
  references : ReferenceValidator
  model : μ

namespace Projector

variable {μ ε : Type}

/-- `new`, with the empty read model. -/
def new (empty : μ) : Projector μ := ⟨.new, empty⟩

/-- `apply`, with the projector's `candidate_for_event`. -/
def apply (candidateForEvent : μ → DiagnosticEvent → Except ε μ) (projector : Projector μ)
    (event : DiagnosticEvent) : Except (Fault (ProjectorError ε)) Unit × Projector μ :=
  match candidateForEvent projector.model event with
  | .error error => (.error (.raised (.projection error)), projector)
  | .ok candidate =>
    match projector.references.validate event with
    | (.error fault, references) =>
      (.error (fault.map .invalidReference), { projector with references })
    | (.ok _, references) => (.ok (), ⟨references, candidate⟩)

end Projector

/-- `MessageProjector::apply`. -/
def MessageProjector.apply := Projector.apply Messages.candidateForEvent

/-- `PlanProjector::apply`. -/
def PlanProjector.apply := Projector.apply Plans.candidateForEvent

/-- `CounterProjector::apply`. -/
def CounterProjector.apply := Projector.apply Counters.candidateForEvent

/-- `UsageProjector::apply`. -/
def UsageProjector.apply := Projector.apply Usage.candidateForEvent

/-- `SpanProjector::apply`. -/
def SpanProjector.apply (projector : Projector SpanReadModel) (event : DiagnosticEvent) :
    Except (Fault (ProjectorError SpanProjectionError)) Unit × Projector SpanReadModel :=
  match projector.model.validatePosition event with
  | .error error => (.error (.raised (.projection (.position error))), projector)
  | .ok () =>
    match projector.references.validate event with
    | (.error fault, references) =>
      (.error (fault.map .invalidReference), { projector with references })
    | (.ok _, references) =>
      match Spans.applyValidatedEvent projector.model event with
      | .error fault => (.error (fault.map .projection), { projector with references })
      | .ok model => (.ok (), ⟨references, model⟩)

/-- `SnapshotProjector::apply`. -/
def SnapshotProjector.applyInPlace (projector : SnapshotProjector) (event : DiagnosticEvent) :
    Except (Fault SnapshotProjectionError) Unit × SnapshotProjector :=
  match projector.references.validateThen event fun validated =>
    Snapshot.candidateForEvent projector.model validated.event with
  | (.error fault, references) =>
    (.error (fault.map .invalidReference), { projector with references })
  | (.ok (.error fault), references) => (.error fault, { projector with references })
  | (.ok (.ok candidate), references) => (.ok (), ⟨references, candidate⟩)

section Project

variable (runId : CanonicalUuid) (events : List DiagnosticEvent)

/-- `project_spans`. -/
def projectSpans : Except (Fault (ProjectorError SpanProjectionError)) SpanReadModel :=
  outcome (·.model) (applyAll SpanProjector.apply (.new (.empty runId)) events)

/-- `project_messages`. -/
def projectMessages : Except (Fault (ProjectorError MessageProjectionError)) MessageReadModel :=
  outcome (·.model) (applyAll MessageProjector.apply (.new (.empty runId)) events)

/-- `project_plans`. -/
def projectPlans : Except (Fault (ProjectorError PlanProjectionError)) PlanReadModel :=
  outcome (·.model) (applyAll PlanProjector.apply (.new (.empty runId)) events)

/-- `project_counters`. -/
def projectCounters : Except (Fault (ProjectorError CounterProjectionError)) CounterReadModel :=
  outcome (·.model) (applyAll CounterProjector.apply (.new (.empty runId)) events)

/-- `project_usage`. -/
def projectUsage : Except (Fault (ProjectorError UsageProjectionError)) UsageReadModel :=
  outcome (·.model) (applyAll UsageProjector.apply (.new (.empty runId)) events)

end Project

/-- The snapshot that the five read models of `events` make up. -/
def SnapshotReadModel.assemble (runId : CanonicalUuid) (events : List DiagnosticEvent)
    (spans : SpanReadModel) (messages : MessageReadModel) (plans : PlanReadModel)
    (counters : CounterReadModel) (usage : UsageReadModel) : SnapshotReadModel where
  runId
  throughSequence := spans.throughSequence
  throughElapsedNs := spans.throughElapsedNs
  spans
  messages
  plans
  counters
  usage
  gaps := events.foldl Snapshot.addGap []
  truncations := collectTruncations messages plans

/-! ## What an `apply` does -/

section Apply

variable {μ ε : Type} {event : DiagnosticEvent}

theorem Projector.apply_eq_ok {candidateForEvent : μ → DiagnosticEvent → Except ε μ}
    {projector projector' : Projector μ} :
    projector.apply candidateForEvent event = (.ok (), projector') ↔
      (∃ accepted, projector.references.validate event = (.ok accepted, projector'.references)) ∧
        candidateForEvent projector.model event = .ok projector'.model := by
  unfold Projector.apply
  cases hcandidate : candidateForEvent projector.model event with
  | error error => simp
  | ok candidate =>
    rcases hvalidate : projector.references.validate event with ⟨fault | accepted, references⟩
    · simp
    · cases projector'
      simp

theorem SpanProjector.apply_eq_ok {projector projector' : Projector SpanReadModel} :
    SpanProjector.apply projector event = (.ok (), projector') ↔
      (∃ accepted, projector.references.validate event = (.ok accepted, projector'.references)) ∧
        Spans.projectValidatedEvent projector.model event = .ok projector'.model := by
  unfold SpanProjector.apply Spans.projectValidatedEvent
  cases hposition : projector.model.validatePosition event with
  | error error => simp [Except.mapError, bind, Except.bind]
  | ok =>
    rw [mapError_bind_of_ok rfl]
    rcases hvalidate : projector.references.validate event with ⟨fault | accepted, references⟩
    · simp
    · cases projector'
      cases Spans.applyValidatedEvent projector.model event <;> simp

theorem SnapshotProjector.applyInPlace_eq_ok {projector projector' : SnapshotProjector} :
    projector.applyInPlace event = (.ok (), projector') ↔
      (∃ accepted, projector.references.validate event = (.ok accepted, projector'.references)) ∧
        Snapshot.candidateForEvent projector.model event = .ok projector'.model := by
  unfold SnapshotProjector.applyInPlace
  rcases hvalidate : projector.references.validate event with ⟨fault | accepted, references⟩
  · rw [ReferenceValidator.validateThen_of_error hvalidate]
    simp
  · rw [ReferenceValidator.validateThen_of_validate hvalidate,
      (ReferenceValidator.validate_ok hvalidate).2.2]
    cases projector'
    cases Snapshot.candidateForEvent projector.model event <;> simp

/-- `applyInPlace` is `apply`, with the projector that a failure leaves behind. -/
theorem SnapshotProjector.apply_eq_outcome (projector : SnapshotProjector)
    (event : DiagnosticEvent) : projector.apply event = outcome id (projector.applyInPlace event) := by
  unfold SnapshotProjector.apply SnapshotProjector.applyInPlace
  rcases projector.references.validateThen event _ with ⟨_ | ⟨_ | _⟩, _⟩ <;> rfl

/-- **A failing `apply` leaves the snapshot projector as it was.** -/
theorem SnapshotProjector.applyInPlace_atomic : Atomic SnapshotProjector.applyInPlace := by
  intro projector event fault h
  unfold SnapshotProjector.applyInPlace at h ⊢
  have hsame := projector.references.validateThen_unchanged event fun validated =>
    Snapshot.candidateForEvent projector.model validated.event
  rcases hthen : projector.references.validateThen event fun validated =>
    Snapshot.candidateForEvent projector.model validated.event with ⟨_ | ⟨_ | _⟩, references⟩
  · rw [hthen] at hsame
    rw [show references = projector.references from hsame (by simp)]
  · rw [hthen] at hsame
    rw [show references = projector.references from hsame (by simp)]
  · rw [hthen] at h
    cases h

end Apply

/-! ## The five parts of a snapshot -/

/-- The standalone projections. -/
inductive ProjectedPart where
  | spans
  | messages
  | plans
  | counters
  | usage

namespace ProjectedPart

/-- The read model of a part. -/
abbrev Model : ProjectedPart → Type
  | spans => SpanReadModel
  | messages => MessageReadModel
  | plans => PlanReadModel
  | counters => CounterReadModel
  | usage => UsageReadModel

/-- The projection error of a part. -/
abbrev Error : ProjectedPart → Type
  | spans => SpanProjectionError
  | messages => MessageProjectionError
  | plans => PlanProjectionError
  | counters => CounterProjectionError
  | usage => UsageProjectionError

/-- `apply` of a part's projector. -/
def apply : (part : ProjectedPart) → Projector part.Model → DiagnosticEvent →
    Except (Fault (ProjectorError part.Error)) Unit × Projector part.Model
  | spans => SpanProjector.apply
  | messages => MessageProjector.apply
  | plans => PlanProjector.apply
  | counters => CounterProjector.apply
  | usage => UsageProjector.apply

/-- The read model of a part in a snapshot. -/
def model : (part : ProjectedPart) → SnapshotReadModel → part.Model
  | spans => (·.spans)
  | messages => (·.messages)
  | plans => (·.plans)
  | counters => (·.counters)
  | usage => (·.usage)

/-- The standalone projector that a snapshot projector contains. -/
def view (part : ProjectedPart) (projector : SnapshotProjector) : Projector part.Model :=
  ⟨projector.references, part.model projector.model⟩

/-- What a part's projector does with an event whose references are in order. -/
def candidate : (part : ProjectedPart) → part.Model → DiagnosticEvent → Option part.Model
  | spans => fun model event => (Spans.projectValidatedEvent model event).toOption
  | messages => fun model event => (Messages.candidateForEvent model event).toOption
  | plans => fun model event => (Plans.candidateForEvent model event).toOption
  | counters => fun model event => (Counters.candidateForEvent model event).toOption
  | usage => fun model event => (Usage.candidateForEvent model event).toOption

end ProjectedPart

section Parts

variable {event : DiagnosticEvent}

/-- Every standalone projector checks the references and its own rules. -/
theorem ProjectedPart.apply_eq_ok {part : ProjectedPart} {projector projector' : Projector part.Model} :
    part.apply projector event = (.ok (), projector') ↔
      (∃ accepted, projector.references.validate event = (.ok accepted, projector'.references)) ∧
        part.candidate projector.model event = some projector'.model := by
  cases part with
  | spans => exact SpanProjector.apply_eq_ok.trans (and_congr_right' toOption_eq_some.symm)
  | messages => exact Projector.apply_eq_ok.trans (and_congr_right' toOption_eq_some.symm)
  | plans => exact Projector.apply_eq_ok.trans (and_congr_right' toOption_eq_some.symm)
  | counters => exact Projector.apply_eq_ok.trans (and_congr_right' toOption_eq_some.symm)
  | usage => exact Projector.apply_eq_ok.trans (and_congr_right' toOption_eq_some.symm)

/-- The parts of a candidate snapshot are the candidates of its parts. -/
theorem candidate_parts {model model' : SnapshotReadModel}
    (h : Snapshot.candidateForEvent model event = .ok model') (part : ProjectedPart) :
    part.candidate (part.model model) event = some (part.model model') := by
  obtain ⟨spans, messages, plans, counters, usage, hspans, hmessages, hplans, hcounters, husage, rfl⟩ :=
    Snapshot.candidateForEvent_eq_ok.mp h
  cases part with
  | spans => exact toOption_eq_some.mpr hspans
  | messages => exact toOption_eq_some.mpr hmessages
  | plans => exact toOption_eq_some.mpr hplans
  | counters => exact toOption_eq_some.mpr hcounters
  | usage => exact toOption_eq_some.mpr husage

theorem candidate_of_parts {model : SnapshotReadModel}
    (h : ∀ part : ProjectedPart, ∃ model', part.candidate (part.model model) event = some model') :
    ∃ model', Snapshot.candidateForEvent model event = .ok model' := by
  obtain ⟨spans, hspans⟩ := h .spans
  obtain ⟨messages, hmessages⟩ := h .messages
  obtain ⟨plans, hplans⟩ := h .plans
  obtain ⟨counters, hcounters⟩ := h .counters
  obtain ⟨usage, husage⟩ := h .usage
  exact ⟨_, Snapshot.candidateForEvent_eq_ok.mpr ⟨spans, messages, plans, counters, usage,
    toOption_eq_some.mp hspans, toOption_eq_some.mp hmessages, toOption_eq_some.mp hplans,
    toOption_eq_some.mp hcounters, toOption_eq_some.mp husage, rfl⟩⟩

/-- An event the snapshot projector applies, each standalone projector applies. -/
theorem applyInPlace_parts (projector : SnapshotProjector) (event : DiagnosticEvent)
    (projector' : SnapshotProjector) (h : projector.applyInPlace event = (.ok (), projector'))
    (part : ProjectedPart) : part.apply (part.view projector) event = (.ok (), part.view projector') := by
  obtain ⟨hreferences, hcandidate⟩ := SnapshotProjector.applyInPlace_eq_ok.mp h
  exact ProjectedPart.apply_eq_ok.mpr ⟨hreferences, candidate_parts hcandidate part⟩

/-- An event that each standalone projector applies, the snapshot projector applies. -/
theorem applyInPlace_of_parts (projector : SnapshotProjector) (event : DiagnosticEvent)
    (h : ∀ part : ProjectedPart, ∃ next, part.apply (part.view projector) event = (.ok (), next)) :
    ∃ projector', projector.applyInPlace event = (.ok (), projector') := by
  obtain ⟨spans, hspans⟩ := h .spans
  obtain ⟨hreferences, -⟩ := ProjectedPart.apply_eq_ok.mp hspans
  have hcandidates : ∀ part : ProjectedPart, ∃ model',
      part.candidate (part.model projector.model) event = some model' := fun part => by
    obtain ⟨next, hnext⟩ := h part
    exact ⟨next.model, (ProjectedPart.apply_eq_ok.mp hnext).2⟩
  obtain ⟨model, hmodel⟩ := candidate_of_parts hcandidates
  exact ⟨⟨spans.references, model⟩, SnapshotProjector.applyInPlace_eq_ok.mpr ⟨hreferences, hmodel⟩⟩

end Parts

/-! ## Whole streams -/

section Stream

variable {runId : CanonicalUuid} {events : List DiagnosticEvent}

/-- The snapshot is assembled from its own read models. -/
def Assembled (runId : CanonicalUuid) (seen : List DiagnosticEvent) (projector : SnapshotProjector) :
    Prop :=
  projector.model = .assemble runId seen projector.model.spans projector.model.messages
    projector.model.plans projector.model.counters projector.model.usage

theorem assembled_new (runId : CanonicalUuid) : Assembled runId [] (.new runId) := by
  unfold Assembled SnapshotReadModel.assemble
  simp [SnapshotProjector.new, SnapshotReadModel.empty, SpanReadModel.empty, collectTruncations,
    MessageReadModel.empty, PlanReadModel.empty, Through.empty]

theorem applyInPlace_assembled (seen : List DiagnosticEvent) (projector : SnapshotProjector)
    (event : DiagnosticEvent) (projector' : SnapshotProjector) (h : Assembled runId seen projector)
    (happly : projector.applyInPlace event = (.ok (), projector')) :
    Assembled runId (seen ++ [event]) projector' := by
  obtain ⟨-, hcandidate⟩ := SnapshotProjector.applyInPlace_eq_ok.mp happly
  obtain ⟨spans, messages, plans, counters, usage, -, -, -, -, -, hmodel⟩ :=
    Snapshot.candidateForEvent_eq_ok.mp hcandidate
  have hrun : projector.model.runId = runId := by rw [h]; rfl
  have hgaps : projector.model.gaps = seen.foldl Snapshot.addGap [] := by rw [h]; rfl
  unfold Assembled
  rw [← hmodel, hrun, hgaps]
  simp [SnapshotReadModel.assemble]

theorem applyAll_eq_outcome (projector : SnapshotProjector) (events : List DiagnosticEvent) :
    projector.applyAll events = outcome id (applyAll SnapshotProjector.applyInPlace projector events) := by
  induction events generalizing projector with
  | nil => rfl
  | cons event rest ih =>
    unfold SnapshotProjector.applyAll at ih ⊢
    rw [List.foldlM_cons, SnapshotProjector.apply_eq_outcome, applyAll]
    rcases projector.applyInPlace event with ⟨⟨⟩, next⟩
    · rfl
    · exact ih next

theorem projectSnapshot_eq_ok {snapshot : SnapshotReadModel} :
    projectSnapshot runId events = .ok snapshot ↔
      ∃ projector, applyAll SnapshotProjector.applyInPlace (.new runId) events = (.ok (), projector) ∧
        projector.model = snapshot := by
  unfold projectSnapshot
  rw [applyAll_eq_outcome, bind_eq_ok]
  simp only [outcome_eq_ok, Except.ok.injEq, id]
  constructor
  · rintro ⟨_, ⟨projector, hrun, rfl⟩, hmodel⟩
    exact ⟨projector, hrun, hmodel⟩
  · rintro ⟨projector, hrun, hmodel⟩
    exact ⟨projector, ⟨projector, hrun, rfl⟩, hmodel⟩

/-- An accepted run of the snapshot projector is one of every standalone projector. -/
theorem applyAll_view {projector : SnapshotProjector}
    (hrun : applyAll SnapshotProjector.applyInPlace (.new runId) events = (.ok (), projector))
    (part : ProjectedPart) :
    applyAll part.apply (part.view (.new runId)) events = (.ok (), part.view projector) :=
  applyAll_parts ProjectedPart.apply applyInPlace_parts hrun part

end Stream

/-! ## No panics -/

section Panics

variable {runId : CanonicalUuid} {event : DiagnosticEvent}

/-- The validator and the spans have seen the same events. -/
def Agree (runId : CanonicalUuid) (references : ReferenceValidator) (spans : SpanReadModel) : Prop :=
  ∃ history, Tracks history references ∧ Spans.Summarises spans runId history

/-- A panic is not the answer. -/
def Returns {ε : Type} (answer : Except (Fault ε) Unit) : Prop :=
  ∀ message, answer ≠ .error (.panicked message)

theorem agree_new (runId : CanonicalUuid) : Agree runId .new (.empty runId) :=
  ⟨[], tracks_new, Spans.summarises_empty runId⟩

/-- An event in its place whose references are in order is projected, and both have then seen it. -/
theorem agree_project {references references' : ReferenceValidator} {spans : SpanReadModel}
    {accepted : ValidatedEvent} (h : Agree runId references spans)
    (hposition : spans.validatePosition event = .ok ())
    (hvalidate : references.validate event = (.ok accepted, references')) :
    ∃ spans', Spans.applyValidatedEvent spans event = .ok spans' ∧ Agree runId references' spans' := by
  obtain ⟨history, htracks, hsummary⟩ := h
  have hnext := next_of_validatePosition hsummary.covers hposition
  obtain ⟨spans', hspans, hsummary'⟩ := Spans.projectValidatedEvent_ok hsummary hnext
    (finishes_started htracks hvalidate)
  unfold Spans.projectValidatedEvent at hspans
  rw [mapError_bind_of_ok hposition] at hspans
  obtain ⟨hadmissible, haccepts, -⟩ := ReferenceValidator.validate_ok hvalidate
  exact ⟨spans', hspans, history ++ [event], tracks_append htracks hadmissible haccepts, hsummary'⟩

/-- **The standalone span projector never reaches its `expect`s.** -/
theorem SpanProjector.apply_returns (projector : Projector SpanReadModel) (event : DiagnosticEvent)
    (h : Agree runId projector.references projector.model) :
    Returns (SpanProjector.apply projector event).1 ∧
      Agree runId (SpanProjector.apply projector event).2.references
        (SpanProjector.apply projector event).2.model := by
  unfold SpanProjector.apply
  cases hposition : projector.model.validatePosition event with
  | error error => exact ⟨fun _ hpanic => (nomatch hpanic), h⟩
  | ok =>
    rcases hvalidate : projector.references.validate event with ⟨fault | accepted, references⟩
    · obtain ⟨rfl, error, rfl⟩ := ReferenceValidator.validate_error hvalidate
      exact ⟨fun _ hpanic => (nomatch hpanic), h⟩
    · obtain ⟨spans, hspans, hagree⟩ := agree_project h hposition hvalidate
      rw [hspans]
      exact ⟨fun _ hpanic => (nomatch hpanic), hagree⟩

/-- A conversion of plain errors never panics. -/
theorem raised_bind_panicked {ε ε' α β : Type} {x : Except ε α} {convert : ε → ε'}
    {f : α → Except (Fault ε') β} {message : String}
    (h : (x.mapError (.raised ∘ convert) >>= f) = .error (.panicked message)) :
    ∃ a, f a = .error (.panicked message) := by
  cases x with
  | error error => cases h
  | ok a => exact ⟨a, h⟩

/-- Of the five read models, only the spans' can panic. -/
theorem candidateForEvent_panicked {model : SnapshotReadModel} {message : String}
    (h : Snapshot.candidateForEvent model event = .error (.panicked message)) :
    Spans.projectValidatedEvent model.spans event = .error (.panicked message) := by
  unfold Snapshot.candidateForEvent at h
  cases hspans : Spans.projectValidatedEvent model.spans event with
  | error fault =>
    rw [hspans] at h
    cases fault <;> cases h
    rfl
  | ok spans =>
    rw [mapError_bind_of_ok hspans] at h
    obtain ⟨messages, h⟩ := raised_bind_panicked h
    obtain ⟨plans, h⟩ := raised_bind_panicked h
    obtain ⟨counters, h⟩ := raised_bind_panicked h
    obtain ⟨usage, h⟩ := raised_bind_panicked h
    cases h

/-- **Nor does the snapshot projector.** -/
theorem SnapshotProjector.applyInPlace_returns (projector : SnapshotProjector)
    (event : DiagnosticEvent) (h : Agree runId projector.references projector.model.spans) :
    Returns (projector.applyInPlace event).1 ∧
      Agree runId (projector.applyInPlace event).2.references
        (projector.applyInPlace event).2.model.spans := by
  rcases happly : projector.applyInPlace event with ⟨fault | ⟨⟨⟩⟩, projector'⟩
  · have hsame := applyInPlace_atomic projector event fault (by rw [happly])
    rw [happly] at hsame
    subst hsame
    refine ⟨fun message hpanic => ?_, h⟩
    cases hpanic
    unfold applyInPlace at happly
    rcases hvalidate : projector'.references.validate event with ⟨fault | accepted, references⟩
    · obtain ⟨-, error, rfl⟩ := ReferenceValidator.validate_error hvalidate
      rw [ReferenceValidator.validateThen_of_error hvalidate] at happly
      cases happly
    · rw [ReferenceValidator.validateThen_of_validate hvalidate,
        (ReferenceValidator.validate_ok hvalidate).2.2] at happly
      cases hcandidate : Snapshot.candidateForEvent projector'.model event with
      | ok candidate =>
        rw [hcandidate] at happly
        cases happly
      | error fault =>
        rw [hcandidate] at happly
        cases happly
        have hspans := candidateForEvent_panicked hcandidate
        unfold Spans.projectValidatedEvent at hspans
        cases hposition : projector'.model.spans.validatePosition event with
        | error error =>
          rw [hposition] at hspans
          cases hspans
        | ok =>
          obtain ⟨spans, happlied, -⟩ := agree_project h hposition hvalidate
          rw [mapError_bind_of_ok hposition, happlied] at hspans
          cases hspans
  · refine ⟨fun _ hpanic => (nomatch hpanic), ?_⟩
    obtain ⟨⟨accepted, hvalidate⟩, hcandidate⟩ := applyInPlace_eq_ok.mp happly
    obtain ⟨spans, messages, plans, counters, usage, hspans, -, -, -, -, hmodel⟩ :=
      Snapshot.candidateForEvent_eq_ok.mp hcandidate
    obtain ⟨_, hposition, happlied⟩ := bind_eq_ok.mp hspans
    obtain ⟨spans', hspans', hagree⟩ := agree_project h (mapError_eq_ok.mp hposition) hvalidate
    cases happlied.symm.trans hspans'
    rw [← hmodel]
    exact hagree

end Panics

/-- **A snapshot is its five parts.** It is projected exactly when each of them is, and is then
assembled from them; offering the events one by one, whatever became of those before, gives the
projection of those that were applied, and of all events when all were; a failing `apply` leaves the
projector as it was; and neither projector that completes spans panics on any offers. -/
theorem snapshot_projection (runId : CanonicalUuid) (events : List DiagnosticEvent) :
    ((∃ snapshot, projectSnapshot runId events = .ok snapshot) ↔
      (∃ spans, projectSpans runId events = .ok spans) ∧
      (∃ messages, projectMessages runId events = .ok messages) ∧
      (∃ plans, projectPlans runId events = .ok plans) ∧
      (∃ counters, projectCounters runId events = .ok counters) ∧
      ∃ usage, projectUsage runId events = .ok usage) ∧
    (∀ snapshot, projectSnapshot runId events = .ok snapshot →
      projectSpans runId events = .ok snapshot.spans ∧
      projectMessages runId events = .ok snapshot.messages ∧
      projectPlans runId events = .ok snapshot.plans ∧
      projectCounters runId events = .ok snapshot.counters ∧
      projectUsage runId events = .ok snapshot.usage ∧
      snapshot = .assemble runId events snapshot.spans snapshot.messages snapshot.plans
        snapshot.counters snapshot.usage) ∧
    (∀ snapshot, projectSnapshot runId events = .ok snapshot ↔
      (∀ answer ∈ (attemptAll SnapshotProjector.applyInPlace (.new runId) events).1,
        answer = .ok ()) ∧
      (attemptAll SnapshotProjector.applyInPlace (.new runId) events).2.model = snapshot) ∧
    projectSnapshot runId (succeeded SnapshotProjector.applyInPlace (.new runId) events) =
      .ok (attemptAll SnapshotProjector.applyInPlace (.new runId) events).2.model ∧
    Atomic SnapshotProjector.applyInPlace ∧
    (∀ answer ∈ (attemptAll SpanProjector.apply (.new (.empty runId)) events).1, Returns answer) ∧
    (∀ answer ∈ (attemptAll SnapshotProjector.applyInPlace (.new runId) events).1,
      Returns answer) := by
  refine ⟨⟨?_, ?_⟩, ?_, ?_, ?_, SnapshotProjector.applyInPlace_atomic, ?_, ?_⟩
  · rintro ⟨snapshot, hsnapshot⟩
    obtain ⟨projector, hrun, -⟩ := projectSnapshot_eq_ok.mp hsnapshot
    have hview := applyAll_view hrun
    exact ⟨⟨_, outcome_eq_ok.mpr ⟨_, hview .spans, rfl⟩⟩,
      ⟨_, outcome_eq_ok.mpr ⟨_, hview .messages, rfl⟩⟩,
      ⟨_, outcome_eq_ok.mpr ⟨_, hview .plans, rfl⟩⟩,
      ⟨_, outcome_eq_ok.mpr ⟨_, hview .counters, rfl⟩⟩,
      ⟨_, outcome_eq_ok.mpr ⟨_, hview .usage, rfl⟩⟩⟩
  · rintro ⟨⟨_, hspans⟩, ⟨_, hmessages⟩, ⟨_, hplans⟩, ⟨_, hcounters⟩, ⟨_, husage⟩⟩
    have hruns : ∀ part : ProjectedPart, ∃ last,
        applyAll part.apply (part.view (.new runId)) events = (.ok (), last) := fun part => by
      cases part with
      | spans => exact (outcome_eq_ok.mp hspans).imp fun _ h => h.1
      | messages => exact (outcome_eq_ok.mp hmessages).imp fun _ h => h.1
      | plans => exact (outcome_eq_ok.mp hplans).imp fun _ h => h.1
      | counters => exact (outcome_eq_ok.mp hcounters).imp fun _ h => h.1
      | usage => exact (outcome_eq_ok.mp husage).imp fun _ h => h.1
    obtain ⟨projector, hrun⟩ :=
      applyAll_of_parts ProjectedPart.apply applyInPlace_parts applyInPlace_of_parts hruns
    exact ⟨_, projectSnapshot_eq_ok.mpr ⟨projector, hrun, rfl⟩⟩
  · intro snapshot hsnapshot
    obtain ⟨projector, hrun, rfl⟩ := projectSnapshot_eq_ok.mp hsnapshot
    have hview := applyAll_view hrun
    exact ⟨outcome_eq_ok.mpr ⟨_, hview .spans, rfl⟩, outcome_eq_ok.mpr ⟨_, hview .messages, rfl⟩,
      outcome_eq_ok.mpr ⟨_, hview .plans, rfl⟩, outcome_eq_ok.mpr ⟨_, hview .counters, rfl⟩,
      outcome_eq_ok.mpr ⟨_, hview .usage, rfl⟩,
      applyAll_invariant (Assembled runId) applyInPlace_assembled [] (assembled_new runId) hrun⟩
  · intro snapshot
    rw [projectSnapshot_eq_ok]
    constructor
    · rintro ⟨projector, hrun, rfl⟩
      obtain ⟨hall, hlast⟩ := applyAll_eq_ok_iff_attemptAll.mp hrun
      exact ⟨hall, by rw [hlast]⟩
    · rintro ⟨hall, hlast⟩
      exact ⟨_, applyAll_eq_ok_iff_attemptAll.mpr ⟨hall, rfl⟩, hlast⟩
  · exact projectSnapshot_eq_ok.mpr
      ⟨_, applyAll_succeeded SnapshotProjector.applyInPlace_atomic _ events, rfl⟩
  · exact attemptAll_answers (fun projector => Agree runId projector.references projector.model)
      SpanProjector.apply_returns (agree_new runId)
  · exact attemptAll_answers
      (fun projector => Agree runId projector.references projector.model.spans)
      SnapshotProjector.applyInPlace_returns (agree_new runId)

end Troupe.Store
