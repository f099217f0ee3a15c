import Troupe.Core.Soundness
import Troupe.Lib.Keyed
import Troupe.Store.Projector.Through

/-! # The span read model

`spans.rs`: one `ProjectedSpan` for each span start, completed by the matching finish. The two
`expect`s of `apply_validated_event` are `Fault.panicked`; the reference validator has seen the
event first, so they are not reached (`projectValidatedEvent_ok`). -/

namespace Troupe.Store

open Troupe.Lib Troupe.Core

/-- `ProjectedSpanDefinition`. -/
inductive ProjectedSpanDefinition where
  | builtIn (detail : SpanStartDetail)
  | custom (name : String) (attributes : DiagnosticAttributes)

/-- `SpanCompletion`. -/
structure SpanCompletion where
  finishSequence : SchemaU64
  finishedAtNs : ElapsedNs
  outcome : SpanOutcome
  errorCode : Option String
  causedBy : List CausalLink

/-- `SpanCompletion::built_in`. -/
def SpanCompletion.builtIn (event : SpanFinished) : SpanCompletion where
  finishSequence := event.header.sequence
  finishedAtNs := event.header.elapsedNs
  outcome := event.outcome
  errorCode := event.errorCode
  causedBy := event.header.causedBy

/-- `SpanCompletion::custom`. -/
def SpanCompletion.custom (event : CustomSpanFinished) : SpanCompletion where
  finishSequence := event.header.sequence
  finishedAtNs := event.header.elapsedNs
  outcome := event.outcome
  errorCode := none
  causedBy := event.header.causedBy

/-- `ProjectedSpan`. -/
structure ProjectedSpan where
  runId : CanonicalUuid
  spanId : SchemaU64
  startedAtNs : ElapsedNs
  scope : DiagnosticScope
  parentSpanId : Option SchemaU64
  startedCausedBy : List CausalLink
  definition : ProjectedSpanDefinition
  completion : Option SpanCompletion

/-- `ProjectedSpan::built_in`. -/
def ProjectedSpan.builtIn (event : SpanStarted) : ProjectedSpan where
  runId := event.header.runId
  spanId := event.header.sequence
  startedAtNs := event.header.elapsedNs
  scope := event.header.scope
  parentSpanId := event.parentSpanId
  startedCausedBy := event.header.causedBy
  definition := .builtIn event.detail
  completion := none

/-- `ProjectedSpan::custom`. -/
def ProjectedSpan.custom (event : CustomSpanStarted) : ProjectedSpan where
  runId := event.header.runId
  spanId := event.header.sequence
  startedAtNs := event.header.elapsedNs
  scope := event.header.scope
  parentSpanId := event.parentSpanId
  startedCausedBy := event.header.causedBy
  definition := .custom event.name event.attributes
  completion := none

/-- `SpanReadModel`. -/
structure SpanReadModel extends Through where
  spans : List ProjectedSpan

/-- `SpanReadModel::empty`. -/
def SpanReadModel.empty (runId : CanonicalUuid) : SpanReadModel := ⟨.empty runId, []⟩

/-- `SpanProjectionError`, less the variant only `SpanProjector` returns. -/
inductive SpanProjectionError where
  | position (error : PositionError)
deriving DecidableEq

namespace Spans

/-- The first span under `spanId` gets its completion. -/
def completeSpan (spanId : SchemaU64) (completion : SpanCompletion) (missing : String)
    (spans : List ProjectedSpan) : Except (Fault SpanProjectionError) (List ProjectedSpan) :=
  upsert ProjectedSpan.spanId spanId
    (fun span => .ok { span with completion := some completion })
    (.error (.panicked missing)) spans

/-- What `apply_validated_event` does to the spans. -/
def applySpans (spans : List ProjectedSpan) :
    DiagnosticEvent → Except (Fault SpanProjectionError) (List ProjectedSpan)
  | .spanStarted start => .ok (spans ++ [.builtIn start])
  | .customSpanStarted start => .ok (spans ++ [.custom start])
  | .spanFinished finish =>
    completeSpan finish.spanId (.builtIn finish)
      "validated event references a matching built-in span" spans
  | .customSpanFinished finish =>
    completeSpan finish.spanId (.custom finish)
      "validated event references a matching custom span" spans
  | .instantOccurred _ | .counterSampled _ | .agentMessageDelta _ | .agentMessageCompleted _
  | .agentPlanSnapshot _ | .contextUsageSampled _ | .actTokenUsageFinalized _ | .observationGap _
  | .customInstantOccurred _ | .customCounterSampled _ => .ok spans

/-- `apply_validated_event`. -/
def applyValidatedEvent (model : SpanReadModel) (event : DiagnosticEvent) :
    Except (Fault SpanProjectionError) SpanReadModel := do
  let spans ← applySpans model.spans event
  .ok ⟨model.advance event, spans⟩

/-- `project_validated_event`. -/
def projectValidatedEvent (model : SpanReadModel) (event : DiagnosticEvent) :
    Except (Fault SpanProjectionError) SpanReadModel := do
  (model.validatePosition event).mapError (.raised ∘ .position)
  applyValidatedEvent model event

/-- There is one span for each start of `history`, under its sequence. -/
structure Holds (history : List DiagnosticEvent) (spans : List ProjectedSpan) : Prop where
  keyed : Keyed ProjectedSpan.spanId spans
  started : ∀ id, (∃ span ∈ spans, span.spanId = id) ↔
    ∃ start ∈ history, start.Starts ∧ start.sequence = id

/-- The read model is that of `history`. -/
structure Summarises (model : SpanReadModel) (runId : CanonicalUuid)
    (history : List DiagnosticEvent) : Prop where
  covers : model.Covers runId history
  holds : Holds history model.spans

theorem summarises_empty (runId : CanonicalUuid) : Summarises (.empty runId) runId [] where
  covers := covers_empty
  holds := ⟨List.Pairwise.nil, by simp [SpanReadModel.empty]⟩

section Project

variable {runId : CanonicalUuid} {history : List DiagnosticEvent} {event : DiagnosticEvent}
  {model : SpanReadModel}

theorem holds_start (h : Summarises model runId history) (hnext : Next runId history event)
    {span : ProjectedSpan} (hstarts : event.Starts) (hid : span.spanId = event.sequence) :
    Holds (history ++ [event]) (model.spans ++ [span]) := by
  refine ⟨h.holds.keyed.append_singleton fun other hother heq => ?_, fun id => ?_⟩
  · -- A span already there was started by an earlier event.
    obtain ⟨start, hstart, -, hsequence⟩ := (h.holds.started other.spanId).mp ⟨other, hother, rfl⟩
    have hlt := h.covers.dense.lt_next hnext hstart
    rw [hsequence, heq, hid] at hlt
    exact Nat.lt_irrefl _ hlt
  · simp only [List.mem_append, List.mem_singleton, or_and_right, exists_or, exists_eq_left,
      h.holds.started id, hid, hstarts, true_and]

theorem holds_complete (h : Summarises model runId history) (hstarts : ¬event.Starts)
    {spanId : SchemaU64} (hspan : ∃ start ∈ history, start.Starts ∧ start.sequence = spanId)
    (completion : SpanCompletion) (missing : String) :
    ∃ spans, completeSpan spanId completion missing model.spans = .ok spans ∧
      Holds (history ++ [event]) spans := by
  obtain ⟨span, hmem, hid⟩ := (h.holds.started spanId).mpr hspan
  have hok : ∃ spans, completeSpan spanId completion missing model.spans = .ok spans :=
    (upsert_isOk h.holds.keyed).mpr ⟨fun old _ _ => ⟨_, rfl⟩, fun hnone => absurd hid (hnone span hmem)⟩
  obtain ⟨spans, hspans⟩ := hok
  obtain ⟨hkeyed, item, hitem, -, hresult⟩ := upsert_ok h.holds.keyed
    (by rintro old item hold ⟨⟩; exact hold) (fun _ hmissing => by cases hmissing) hspans
  refine ⟨spans, hspans, hkeyed, fun id => ?_⟩
  have hsame : (∃ span ∈ spans, span.spanId = id) ↔ ∃ span ∈ model.spans, span.spanId = id := by
    constructor
    · rintro ⟨other, hother, rfl⟩
      rcases (hresult other).mp hother with rfl | ⟨hother, -⟩
      · exact ⟨span, hmem, hid.trans hitem.symm⟩
      · exact ⟨other, hother, rfl⟩
    · rintro ⟨other, hother, rfl⟩
      by_cases heq : other.spanId = spanId
      · exact ⟨item, (hresult item).mpr (Or.inl rfl), hitem.trans heq.symm⟩
      · exact ⟨other, (hresult other).mpr (Or.inr ⟨hother, heq⟩), rfl⟩
  rw [hsame, h.holds.started id]
  simp only [List.mem_append, List.mem_singleton, or_and_right, exists_or, exists_eq_left, hstarts,
    false_and, or_false]

theorem holds_keep (h : Summarises model runId history) (hstarts : ¬event.Starts) :
    Holds (history ++ [event]) model.spans := by
  refine ⟨h.holds.keyed, fun id => ?_⟩
  rw [h.holds.started id]
  simp only [List.mem_append, List.mem_singleton, or_and_right, exists_or, exists_eq_left, hstarts,
    false_and, or_false]

/-- An event whose finish names a started span is applied without panicking. -/
theorem applySpans_ok (h : Summarises model runId history) (hnext : Next runId history event)
    (hfinish : ∀ id, event.Finishes id → ∃ start ∈ history, start.Starts ∧ start.sequence = id) :
    ∃ spans, applySpans model.spans event = .ok spans ∧ Holds (history ++ [event]) spans := by
  cases event with
  | spanStarted start => exact ⟨_, rfl, holds_start h hnext ⟨_, _, _, rfl⟩ rfl⟩
  | customSpanStarted start => exact ⟨_, rfl, holds_start h hnext ⟨_, _, _, rfl⟩ rfl⟩
  | spanFinished finish =>
    exact holds_complete h (fun hs => hs.not_finishes ⟨_, rfl⟩) (hfinish _ ⟨_, rfl⟩) _ _
  | customSpanFinished finish =>
    exact holds_complete h (fun hs => hs.not_finishes ⟨_, rfl⟩) (hfinish _ ⟨_, rfl⟩) _ _
  | _ =>
    refine ⟨_, rfl, holds_keep h ?_⟩
    rintro ⟨_, _, _, hrole⟩
    cases hrole

/-- **A validated event in its place is always projected.** -/
theorem projectValidatedEvent_ok (h : Summarises model runId history)
    (hnext : Next runId history event)
    (hfinish : ∀ id, event.Finishes id → ∃ start ∈ history, start.Starts ∧ start.sequence = id) :
    ∃ model', projectValidatedEvent model event = .ok model' ∧
      Summarises model' runId (history ++ [event]) := by
  obtain ⟨spans, hspans, hkeyed, hids⟩ := applySpans_ok h hnext hfinish
  refine ⟨⟨model.advance event, spans⟩, ?_, covers_advance h.covers hnext, hkeyed, hids⟩
  unfold projectValidatedEvent applyValidatedEvent
  rw [mapError_bind_of_ok (validatePosition_next h.covers hnext), hspans]
  rfl

end Project

end Spans

end Troupe.Store
