import Troupe.Core.Event
import Troupe.Lib.Result

/-! # The reference validator

`ReferenceValidator` of `validate.rs`: the state the hub keeps to check that an event's references
(causal links, parent spans, containing spans, the span a finish closes) make sense in the stream so
far. `validate` checks one event against the state (`prepare`) and then records it (`commit`).

* A method that takes `&mut self` returns its result together with the state it leaves behind, so
  that what an error leaves behind can be stated.
* The two `expect`s of `commit` are `Fault.panicked`.

Results: **`validate_ok`** says everything an accepting call can do, and **`validate_error`** that a
rejecting call leaves the state alone and never panics. -/

namespace Troupe.Core

open Std (ExtTreeMap ExtTreeSet)
open Troupe.Lib

/-- `MAX_CAUSAL_LINKS`. -/
def maxCausalLinks : Nat := 16

/-- `ReferenceValidationCode`. -/
inductive ReferenceValidationCode where
  | crossRun
  | forwardLink
  | selfLink
  | finishBeforeStart
  | doubleFinish
  | childOutsideParent
  | kindMismatch
  | tooManyCausalLinks
  | referenceNotFound
  | referenceClosed
  | scopeMismatch
  | invalidScope
  | duplicateSequence
deriving DecidableEq

/-- `ReferenceValidationError`. -/
structure ReferenceValidationError where
  code : ReferenceValidationCode
  runId : CanonicalUuid
  eventSequence : SchemaU64
  referencedSequence : Option SchemaU64
deriving DecidableEq

/-- `error`. -/
def referenceError (event : DiagnosticEvent) (code : ReferenceValidationCode)
    (referencedSequence : Option SchemaU64) : ReferenceValidationError :=
  ⟨code, event.header.runId, event.sequence, referencedSequence⟩

/-- `SpanFamily`. -/
inductive SpanFamily where
  | builtIn
  | custom
deriving DecidableEq

/-- `SpanRecord`. -/
structure SpanRecord where
  family : SpanFamily
  builtInSpanKind : Option SpanKind
  scope : DiagnosticScope
  startedAt : ElapsedNs
  finishedAt : Option ElapsedNs
  latestContainedAt : Option ElapsedNs
  parentSpanId : Option SchemaU64
deriving DecidableEq

/-- `StateChange`. -/
inductive StateChange where
  | recordEvent
  | startSpan (record : SpanRecord)
  | finishSpan (spanId : SchemaU64) (elapsedNs : ElapsedNs)
  | containedInstant (spanId : SchemaU64) (elapsedNs : ElapsedNs)

/-- `ReferenceValidator`. -/
structure ReferenceValidator where
  runId : Option CanonicalUuid
  eventSequences : ExtTreeSet SchemaU64
  spans : ExtTreeMap SchemaU64 SpanRecord

/-- `ValidatedEvent`: the event and the built-in kind its start carries or its finish resolves. -/
structure ValidatedEvent where
  event : DiagnosticEvent
  builtInSpanKind : Option SpanKind

/-! ## Scopes -/

/-- `optional_id_contains`. -/
def optionalIdContains {α : Type} [DecidableEq α] (parent child : Option α) : Bool :=
  parent.isNone || child == parent

/-- `scope_contains`: every field the parent fixes, the child fixes to the same value. -/
def scopeContains (parent child : DiagnosticScope) : Bool :=
  optionalIdContains parent.sceneId child.sceneId &&
    optionalIdContains parent.actorId child.actorId &&
    optionalIdContains parent.cueId child.cueId &&
    optionalIdContains parent.effectId child.effectId &&
    optionalIdContains parent.actId child.actId &&
    optionalIdContains parent.toolCallId child.toolCallId &&
    optionalIdContains parent.sessionGeneration child.sessionGeneration

theorem optionalIdContains_trans {α : Type} [DecidableEq α] {a b c : Option α}
    (hab : optionalIdContains a b = true) (hbc : optionalIdContains b c = true) :
    optionalIdContains a c = true := by
  cases a with
  | none => rfl
  | some a =>
    simp only [optionalIdContains, Option.isNone_some, Bool.false_or, beq_iff_eq] at hab
    subst hab
    simpa [optionalIdContains] using hbc

theorem scopeContains_trans {a b c : DiagnosticScope} (hab : scopeContains a b = true)
    (hbc : scopeContains b c = true) : scopeContains a c = true := by
  simp only [scopeContains, Bool.and_eq_true] at hab hbc ⊢
  obtain ⟨⟨⟨⟨⟨⟨h₁, h₂⟩, h₃⟩, h₄⟩, h₅⟩, h₆⟩, h₇⟩ := hab
  obtain ⟨⟨⟨⟨⟨⟨k₁, k₂⟩, k₃⟩, k₄⟩, k₅⟩, k₆⟩, k₇⟩ := hbc
  exact ⟨⟨⟨⟨⟨⟨optionalIdContains_trans h₁ k₁, optionalIdContains_trans h₂ k₂⟩,
    optionalIdContains_trans h₃ k₃⟩, optionalIdContains_trans h₄ k₄⟩,
    optionalIdContains_trans h₅ k₅⟩, optionalIdContains_trans h₆ k₆⟩,
    optionalIdContains_trans h₇ k₇⟩

/-- `has_unknown_scope_sentinel`. -/
def hasUnknownScopeSentinel (scope : DiagnosticScope) : Bool :=
  scope.sessionGeneration.any (·.get == 0)

/-- `validate_scope`. -/
def validateScope (event : DiagnosticEvent) : Except ReferenceValidationError Unit :=
  let affectedInvalid := match event with
    | .observationGap gap => gap.affectedScope.any hasUnknownScopeSentinel
    | _ => false
  if hasUnknownScopeSentinel event.scope || affectedInvalid then
    .error (referenceError event .invalidScope none)
  else
    .ok ()

/-! ## Checks -/

namespace ReferenceValidator

/-- `ReferenceValidator::new`. -/
def new : ReferenceValidator := ⟨none, ∅, ∅⟩

/-- `missing_span_code`. -/
def missingSpanCode (validator : ReferenceValidator) (spanId : SchemaU64) :
    ReferenceValidationCode :=
  if spanId ∈ validator.eventSequences then .kindMismatch else .referenceNotFound

/-- The check `validate_causal_links` makes on one link. -/
def validateCausalLink (validator : ReferenceValidator) (event : DiagnosticEvent)
    (link : CausalLink) : Except ReferenceValidationError Unit :=
  let source := link.sourceSequence
  if source = event.sequence then
    .error (referenceError event .selfLink (some source))
  else if event.sequence < source then
    .error (referenceError event .forwardLink (some source))
  else if source ∉ validator.eventSequences then
    .error (referenceError event .referenceNotFound (some source))
  else
    .ok ()

/-- `validate_causal_links`. -/
def validateCausalLinks (validator : ReferenceValidator) (event : DiagnosticEvent) :
    Except ReferenceValidationError Unit :=
  if maxCausalLinks < event.header.causedBy.length then
    .error (referenceError event .tooManyCausalLinks none)
  else
    event.header.causedBy.forM (validator.validateCausalLink event)

/-- `validate_open_span_reference`. -/
def validateOpenSpanReference (validator : ReferenceValidator) (event : DiagnosticEvent)
    (spanId : SchemaU64) : Except ReferenceValidationError SpanRecord :=
  if spanId = event.sequence then
    .error (referenceError event .selfLink (some spanId))
  else if event.sequence < spanId then
    .error (referenceError event .forwardLink (some spanId))
  else
    match validator.spans[spanId]? with
    | none => .error (referenceError event (validator.missingSpanCode spanId) (some spanId))
    | some span =>
      if span.finishedAt.isSome then
        .error (referenceError event .referenceClosed (some spanId))
      else
        .ok span

/-- The reference checks of `validate_span_start` and `validate_containing_span`: the span named is
open, its scope contains the event's, and it started no later. -/
def validateEnclosingSpan (validator : ReferenceValidator) (event : DiagnosticEvent)
    (spanId : SchemaU64) : Except ReferenceValidationError Unit := do
  let span ← validator.validateOpenSpanReference event spanId
  if !scopeContains span.scope event.scope then
    .error (referenceError event .scopeMismatch (some spanId))
  else if event.elapsedNs < span.startedAt then
    .error (referenceError event .childOutsideParent (some spanId))
  else
    .ok ()

/-- `validate_span_start`. -/
def validateSpanStart (validator : ReferenceValidator) (event : DiagnosticEvent)
    (family : SpanFamily) (builtInSpanKind : Option SpanKind) (parentSpanId : Option SchemaU64) :
    Except ReferenceValidationError StateChange := do
  match parentSpanId with
  | none => .ok ()
  | some parentSpanId => validator.validateEnclosingSpan event parentSpanId
  .ok (.startSpan ⟨family, builtInSpanKind, event.scope, event.elapsedNs, none, none, parentSpanId⟩)

/-- Some direct child of the span is still open, or finished after `elapsedNs`. -/
def hasOpenChild (validator : ReferenceValidator) (spanId : SchemaU64) (elapsedNs : ElapsedNs) :
    Bool :=
  validator.spans.toList.any fun (_, candidate) =>
    candidate.parentSpanId == some spanId &&
      (candidate.finishedAt.isNone || candidate.finishedAt.any (elapsedNs < ·))

/-- `validate_span_finish`. -/
def validateSpanFinish (validator : ReferenceValidator) (event : DiagnosticEvent)
    (family : SpanFamily) (spanId : SchemaU64) :
    Except ReferenceValidationError (StateChange × Option SpanKind) :=
  if event.sequence ≤ spanId then
    .error (referenceError event .finishBeforeStart (some spanId))
  else
    match validator.spans[spanId]? with
    | none => .error (referenceError event (validator.missingSpanCode spanId) (some spanId))
    | some span =>
      if span.family ≠ family then
        .error (referenceError event .kindMismatch (some spanId))
      else if span.finishedAt.isSome then
        .error (referenceError event .doubleFinish (some spanId))
      else if span.scope ≠ event.scope then
        .error (referenceError event .scopeMismatch (some spanId))
      else if event.elapsedNs < span.startedAt then
        .error (referenceError event .finishBeforeStart (some spanId))
      else if span.latestContainedAt.any (event.elapsedNs < ·) then
        .error (referenceError event .childOutsideParent (some spanId))
      else if validator.hasOpenChild spanId event.elapsedNs then
        .error (referenceError event .childOutsideParent (some spanId))
      else
        .ok (.finishSpan spanId event.elapsedNs, span.builtInSpanKind)

/-- `validate_containing_span`. -/
def validateContainingSpan (validator : ReferenceValidator) (event : DiagnosticEvent)
    (containingSpanId : Option SchemaU64) : Except ReferenceValidationError StateChange := do
  match containingSpanId with
  | none => .ok .recordEvent
  | some containingSpanId =>
    validator.validateEnclosingSpan event containingSpanId
    .ok (.containedInstant containingSpanId event.elapsedNs)

/-- `prepare`. -/
def prepare (validator : ReferenceValidator) (event : DiagnosticEvent) :
    Except ReferenceValidationError (StateChange × Option SpanKind) := do
  if validator.runId.any (· ≠ event.header.runId) then
    .error (referenceError event .crossRun none)
  else if event.sequence ∈ validator.eventSequences then
    .error (referenceError event .duplicateSequence (some event.sequence))
  else
    validateScope event
    validator.validateCausalLinks event
    match event with
    | .spanStarted start => do
      let kind := start.detail.kind
      let change ← validator.validateSpanStart event .builtIn (some kind) start.parentSpanId
      .ok (change, some kind)
    | .customSpanStarted start => do
      let change ← validator.validateSpanStart event .custom none start.parentSpanId
      .ok (change, none)
    | .spanFinished finish => validator.validateSpanFinish event .builtIn finish.spanId
    | .customSpanFinished finish => validator.validateSpanFinish event .custom finish.spanId
    | .instantOccurred instant => do
      let change ← validator.validateContainingSpan event instant.containingSpanId
      .ok (change, none)
    | .customInstantOccurred instant => do
      let change ← validator.validateContainingSpan event instant.containingSpanId
      .ok (change, none)
    | .counterSampled _ | .agentMessageDelta _ | .agentMessageCompleted _ | .agentPlanSnapshot _
    | .contextUsageSampled _ | .actTokenUsageFinalized _ | .observationGap _
    | .customCounterSampled _ => .ok (.recordEvent, none)

/-! ## Recording -/

/-- `commit`. -/
def commit (validator : ReferenceValidator) (event : DiagnosticEvent) (change : StateChange) :
    Except (Fault ReferenceValidationError) ReferenceValidator :=
  let recorded : ReferenceValidator :=
    { validator with
      runId := some event.header.runId
      eventSequences := validator.eventSequences.insert event.sequence }
  match change with
  | .recordEvent => .ok recorded
  | .startSpan record =>
    .ok { recorded with spans := validator.spans.insert event.sequence record }
  | .finishSpan spanId elapsedNs =>
    match validator.spans[spanId]? with
    | none => .error (.panicked "finish reference was checked before commit")
    | some span =>
      .ok { recorded with
        spans := validator.spans.insert spanId { span with finishedAt := some elapsedNs } }
  | .containedInstant spanId elapsedNs =>
    match validator.spans[spanId]? with
    | none => .error (.panicked "containing reference was checked before commit")
    | some span =>
      let latest := match span.latestContainedAt with
        | none => elapsedNs
        | some current => current.max elapsedNs
      .ok { recorded with
        spans := validator.spans.insert spanId { span with latestContainedAt := some latest } }

/-- `validate`: the answer, and the state left behind. -/
def validate (validator : ReferenceValidator) (event : DiagnosticEvent) :
    Except (Fault ReferenceValidationError) ValidatedEvent × ReferenceValidator :=
  match validator.prepare event with
  | .error error => (.error (.raised error), validator)
  | .ok (change, builtInSpanKind) =>
    match validator.commit event change with
    | .error fault => (.error fault, validator)
    | .ok committed => (.ok ⟨event, builtInSpanKind⟩, committed)

/-- `validate_then`: the state changes only when the consumer succeeds. -/
def validateThen {α ε : Type} (validator : ReferenceValidator) (event : DiagnosticEvent)
    (consumer : ValidatedEvent → Except ε α) :
    Except (Fault ReferenceValidationError) (Except ε α) × ReferenceValidator :=
  match validator.prepare event with
  | .error error => (.error (.raised error), validator)
  | .ok (change, builtInSpanKind) =>
    match consumer ⟨event, builtInSpanKind⟩ with
    | .error error => (.ok (.error error), validator)
    | .ok value =>
      match validator.commit event change with
      | .error fault => (.error fault, validator)
      | .ok committed => (.ok (.ok value), committed)

/-! ## What an accepting call does -/

/-- The checks every kind of event passes. -/
structure Admissible (validator : ReferenceValidator) (event : DiagnosticEvent) : Prop where
  sameRun : ∀ run ∈ validator.runId, run = event.header.runId
  fresh : event.sequence ∉ validator.eventSequences
  links_le : event.header.causedBy.length ≤ maxCausalLinks
  links : ∀ link ∈ event.header.causedBy,
    link.sourceSequence < event.sequence ∧ link.sourceSequence ∈ validator.eventSequences

/-- `span` is recorded under `spanId`, open, and may enclose `event`. -/
structure Encloses (validator : ReferenceValidator) (event : DiagnosticEvent) (spanId : SchemaU64)
    (span : SpanRecord) : Prop where
  found : validator.spans[spanId]? = some span
  isOpen : span.finishedAt = none
  earlier : spanId < event.sequence
  scope : scopeContains span.scope event.scope = true
  started : span.startedAt ≤ event.elapsedNs

/-- The state with the event's run and sequence recorded. -/
def record (validator : ReferenceValidator) (event : DiagnosticEvent) : ReferenceValidator :=
  { validator with
    runId := some event.header.runId
    eventSequences := validator.eventSequences.insert event.sequence }

end ReferenceValidator

/-- How an event takes part in the span structure. -/
inductive SpanRole where
  | starts (family : SpanFamily) (kind : Option SpanKind) (parentSpanId : Option SchemaU64)
  | finishes (family : SpanFamily) (spanId : SchemaU64)
  | occurs (containingSpanId : Option SchemaU64)

/-- The role of each kind of event; a kind that names no span occurs outside all of them. -/
def DiagnosticEvent.role : DiagnosticEvent → SpanRole
  | .spanStarted start => .starts .builtIn (some start.detail.kind) start.parentSpanId
  | .customSpanStarted start => .starts .custom none start.parentSpanId
  | .spanFinished finish => .finishes .builtIn finish.spanId
  | .customSpanFinished finish => .finishes .custom finish.spanId
  | .instantOccurred instant => .occurs instant.containingSpanId
  | .customInstantOccurred instant => .occurs instant.containingSpanId
  | _ => .occurs none

namespace ReferenceValidator

variable {validator validator' : ReferenceValidator} {event : DiagnosticEvent}

/-- The checks `prepare` makes for a role. -/
def prepareRole (validator : ReferenceValidator) (event : DiagnosticEvent) :
    SpanRole → Except ReferenceValidationError (StateChange × Option SpanKind)
  | .starts family kind parentSpanId => do
    let change ← validator.validateSpanStart event family kind parentSpanId
    .ok (change, kind)
  | .finishes family spanId => validator.validateSpanFinish event family spanId
  | .occurs containingSpanId => do
    let change ← validator.validateContainingSpan event containingSpanId
    .ok (change, none)

/-- What an accepted event does to the state, one constructor for each kind of change. -/
inductive Accepts (validator : ReferenceValidator) (event : DiagnosticEvent) :
    ReferenceValidator → Prop
  | start (family : SpanFamily) (kind : Option SpanKind) (parentSpanId : Option SchemaU64)
      (role : event.role = .starts family kind parentSpanId)
      (parent : ∀ id ∈ parentSpanId, ∃ span, validator.Encloses event id span) :
      Accepts validator event
        { validator.record event with
          spans := validator.spans.insert event.sequence
            ⟨family, kind, event.scope, event.elapsedNs, none, none, parentSpanId⟩ }
  | finish (family : SpanFamily) (spanId : SchemaU64) (span : SpanRecord)
      (role : event.role = .finishes family spanId)
      (earlier : spanId < event.sequence)
      (found : validator.spans[spanId]? = some span)
      (sameFamily : span.family = family)
      (isOpen : span.finishedAt = none)
      (scope : span.scope = event.scope)
      (started : span.startedAt ≤ event.elapsedNs)
      (contained : ∀ at_ ∈ span.latestContainedAt, at_ ≤ event.elapsedNs)
      (children : ∀ (id : SchemaU64) (child : SpanRecord), validator.spans[id]? = some child →
        child.parentSpanId = some spanId → ∃ at_ ∈ child.finishedAt, at_ ≤ event.elapsedNs) :
      Accepts validator event
        { validator.record event with
          spans := validator.spans.insert spanId
            { span with finishedAt := some event.elapsedNs } }
  | within (spanId : SchemaU64) (span : SpanRecord) (latest : ElapsedNs)
      (role : event.role = .occurs (some spanId))
      (encloses : validator.Encloses event spanId span)
      (covers : event.elapsedNs ≤ latest ∧ ∀ at_ ∈ span.latestContainedAt, at_ ≤ latest) :
      Accepts validator event
        { validator.record event with
          spans := validator.spans.insert spanId { span with latestContainedAt := some latest } }
  | outside (role : event.role = .occurs none) : Accepts validator event (validator.record event)

theorem prepare_eq : validator.prepare event =
    if validator.runId.any (· ≠ event.header.runId) then
      .error (referenceError event .crossRun none)
    else if event.sequence ∈ validator.eventSequences then
      .error (referenceError event .duplicateSequence (some event.sequence))
    else
      (do
        validateScope event
        validator.validateCausalLinks event
        validator.prepareRole event event.role) := by
  cases event <;> rfl

theorem validateCausalLinks_eq_ok (h : validator.validateCausalLinks event = .ok ()) :
    event.header.causedBy.length ≤ maxCausalLinks ∧ ∀ link ∈ event.header.causedBy,
      link.sourceSequence < event.sequence ∧ link.sourceSequence ∈ validator.eventSequences := by
  unfold validateCausalLinks at h
  rw [ite_error_eq_ok, forM_eq_ok] at h
  refine ⟨Nat.le_of_not_lt h.1, fun link hlink => ?_⟩
  have hone := h.2 link hlink
  simp only [validateCausalLink, ite_error_eq_ok, not_not] at hone
  obtain ⟨hself, hforward, hfound, -⟩ := hone
  refine ⟨?_, hfound⟩
  rw [SchemaU64.lt_def] at hforward ⊢
  have hne : link.sourceSequence.get ≠ event.sequence.get := fun heq =>
    hself (SchemaU64.get_injective heq)
  omega

theorem validateEnclosingSpan_eq_ok {spanId : SchemaU64}
    (h : validator.validateEnclosingSpan event spanId = .ok ()) :
    ∃ span, validator.Encloses event spanId span := by
  unfold validateEnclosingSpan at h
  obtain ⟨span, hopen, hrest⟩ := bind_eq_ok.mp h
  simp only [ite_error_eq_ok, Bool.not_eq_true', Bool.not_eq_false] at hrest
  simp only [validateOpenSpanReference, ite_error_eq_ok] at hopen
  obtain ⟨hself, hforward, hfound⟩ := hopen
  split at hfound
  · cases hfound
  · rename_i found hrecord
    rw [ite_error_eq_ok] at hfound
    obtain ⟨hfinished, hspan⟩ := hfound
    cases hspan
    refine ⟨span, hrecord, by simpa using hfinished, ?_, hrest.1, ?_⟩
    · have hne : spanId.get ≠ event.sequence.get := fun heq =>
        hself (SchemaU64.get_injective heq)
      rw [SchemaU64.lt_def] at hforward ⊢
      omega
    · have hstarted := hrest.2.1
      rw [ElapsedNs.lt_def] at hstarted
      rw [ElapsedNs.le_def]
      omega

theorem hasOpenChild_eq_false {spanId : SchemaU64} {elapsedNs : ElapsedNs}
    (h : validator.hasOpenChild spanId elapsedNs = false) (id : SchemaU64) (child : SpanRecord)
    (hchild : validator.spans[id]? = some child) (hparent : child.parentSpanId = some spanId) :
    ∃ at_ ∈ child.finishedAt, at_ ≤ elapsedNs := by
  unfold hasOpenChild at h
  rw [List.any_eq_false] at h
  have hone := h (id, child) (Std.ExtTreeMap.mem_toList_iff_getElem?_eq_some.mpr hchild)
  simp only [hparent, beq_self_eq_true, Bool.true_and] at hone
  cases hfinished : child.finishedAt with
  | none => simp [hfinished] at hone
  | some at_ =>
    refine ⟨at_, rfl, ?_⟩
    simp only [hfinished, Option.isNone_some, Option.any_some, Bool.false_or,
      decide_eq_true_eq] at hone
    rw [ElapsedNs.lt_def] at hone
    rw [ElapsedNs.le_def]
    omega

theorem elapsed_le_max (a b : ElapsedNs) : a ≤ a.max b ∧ b ≤ a.max b := by
  unfold ElapsedNs.max
  split <;> rename_i h <;> rw [ElapsedNs.le_def] at * <;> rw [ElapsedNs.le_def] <;> omega

/-- A prepared change is committed without panicking, and is one of the four `Accepts`. -/
theorem prepareRole_commit {change : StateChange} {kind : Option SpanKind}
    (h : validator.prepareRole event event.role = .ok (change, kind)) :
    ∃ validator', validator.commit event change = .ok validator' ∧
      validator.Accepts event validator' := by
  cases hrole : event.role with
  | starts family startKind parentSpanId =>
    rw [hrole] at h
    obtain ⟨started, hstart, hpair⟩ := bind_eq_ok.mp h
    cases hpair
    cases parentSpanId with
    | none =>
      cases hstart
      exact ⟨_, rfl, .start family kind none hrole (by simp)⟩
    | some parentSpanId =>
      obtain ⟨_, hparent, hchange⟩ := bind_eq_ok.mp hstart
      cases hchange
      refine ⟨_, rfl, .start family kind parentSpanId hrole fun id hid => ?_⟩
      cases hid
      exact validateEnclosingSpan_eq_ok hparent
  | finishes family spanId =>
    rw [hrole] at h
    simp only [prepareRole, validateSpanFinish, ite_error_eq_ok] at h
    obtain ⟨hearlier, hfound⟩ := h
    split at hfound
    · cases hfound
    · rename_i span hspan
      simp only [ite_error_eq_ok, not_not, Except.ok.injEq, Prod.mk.injEq] at hfound
      obtain ⟨hfamily, hopen, hscope, hstarted, hcontained, hchildren, rfl, rfl⟩ := hfound
      have hstart : span.startedAt ≤ event.elapsedNs := by
        rw [ElapsedNs.lt_def] at hstarted
        rw [ElapsedNs.le_def]
        omega
      refine ⟨_, by simp only [commit, hspan]; rfl, .finish family spanId span hrole ?_ hspan hfamily
        (by simpa using hopen) hscope hstart ?_
        (hasOpenChild_eq_false (by simpa using hchildren))⟩
      · rw [SchemaU64.le_def] at hearlier
        rw [SchemaU64.lt_def]
        omega
      · intro at_ hat
        rw [hat] at hcontained
        simp only [Option.any_some, decide_eq_true_eq, ElapsedNs.lt_def] at hcontained
        rw [ElapsedNs.le_def]
        omega
  | occurs containingSpanId =>
    rw [hrole] at h
    obtain ⟨contained, hcontained, hpair⟩ := bind_eq_ok.mp h
    cases hpair
    cases containingSpanId with
    | none =>
      cases hcontained
      exact ⟨_, rfl, .outside hrole⟩
    | some spanId =>
      obtain ⟨_, henclosing, hchange⟩ := bind_eq_ok.mp hcontained
      cases hchange
      obtain ⟨span, hencloses⟩ := validateEnclosingSpan_eq_ok henclosing
      cases hlatest : span.latestContainedAt with
      | none =>
        refine ⟨_, by simp only [commit, hencloses.found, hlatest]; rfl,
          .within spanId span event.elapsedNs hrole hencloses ⟨Nat.le_refl _, ?_⟩⟩
        simp [hlatest]
      | some current =>
        refine ⟨_, by simp only [commit, hencloses.found, hlatest]; rfl,
          .within spanId span (current.max event.elapsedNs) hrole hencloses
            ⟨(elapsed_le_max _ _).2, ?_⟩⟩
        rw [hlatest]
        rintro at_ ⟨⟩
        exact (elapsed_le_max _ _).1

theorem prepare_eq_ok {change : StateChange} {kind : Option SpanKind}
    (h : validator.prepare event = .ok (change, kind)) :
    validator.Admissible event ∧ validator.prepareRole event event.role = .ok (change, kind) := by
  rw [prepare_eq, ite_error_eq_ok, ite_error_eq_ok] at h
  obtain ⟨hrun, hfresh, h⟩ := h
  obtain ⟨-, -, h⟩ := bind_eq_ok.mp h
  obtain ⟨_, hlinks, h⟩ := bind_eq_ok.mp h
  obtain ⟨hle, hlinks⟩ := validateCausalLinks_eq_ok hlinks
  refine ⟨⟨?_, hfresh, hle, hlinks⟩, h⟩
  intro run hrun'
  rw [hrun'] at hrun
  simpa using hrun

/-- **Everything an accepting `validate` can do.** -/
theorem validate_ok {accepted : ValidatedEvent}
    (h : validator.validate event = (.ok accepted, validator')) :
    validator.Admissible event ∧ validator.Accepts event validator' ∧ accepted.event = event := by
  unfold validate at h
  split at h
  · cases h
  · rename_i change kind hprepare
    obtain ⟨hadmissible, hrole⟩ := prepare_eq_ok hprepare
    obtain ⟨committed, hcommit, haccepts⟩ := prepareRole_commit hrole
    rw [hcommit] at h
    cases h
    exact ⟨hadmissible, haccepts, rfl⟩

/-- On an event that `validate` accepts, `validate_then` is up to its consumer. -/
theorem validateThen_of_validate {α ε : Type} {accepted : ValidatedEvent}
    (h : validator.validate event = (.ok accepted, validator'))
    (consumer : ValidatedEvent → Except ε α) :
    validator.validateThen event consumer = match consumer accepted with
      | .error error => (.ok (.error error), validator)
      | .ok value => (.ok (.ok value), validator') := by
  unfold validate at h
  unfold validateThen
  cases hprepare : validator.prepare event with
  | error error =>
    rw [hprepare] at h
    cases h
  | ok prepared =>
    obtain ⟨change, kind⟩ := prepared
    simp only [hprepare] at h ⊢
    cases hcommit : validator.commit event change with
    | error fault =>
      rw [hcommit] at h
      cases h
    | ok committed =>
      rw [hcommit] at h
      cases h
      cases consumer ⟨event, kind⟩ <;> rfl

/-- An event that `validate` rejects is rejected by `validate_then` before its consumer runs. -/
theorem validateThen_of_error {α ε : Type} {fault : Fault ReferenceValidationError}
    (h : validator.validate event = (.error fault, validator'))
    (consumer : ValidatedEvent → Except ε α) :
    validator.validateThen event consumer = (.error fault, validator) := by
  unfold validate at h
  unfold validateThen
  cases hprepare : validator.prepare event with
  | error error =>
    rw [hprepare] at h
    cases h
    rfl
  | ok prepared =>
    obtain ⟨committed, hcommit, -⟩ := prepareRole_commit (prepare_eq_ok hprepare).2
    simp only [hprepare, hcommit] at h
    cases h

/-- `validate_then` changes the state only when the event is accepted and the consumer succeeds. -/
theorem validateThen_unchanged {α ε : Type} (validator : ReferenceValidator)
    (event : DiagnosticEvent) (consumer : ValidatedEvent → Except ε α)
    (h : ∀ value, (validator.validateThen event consumer).1 ≠ .ok (.ok value)) :
    (validator.validateThen event consumer).2 = validator := by
  unfold validateThen at h ⊢
  split
  · rfl
  · rename_i hprepare
    split
    · rfl
    · rename_i hconsumer
      split
      · rfl
      · rename_i hcommit
        rw [hprepare] at h
        simp only [hconsumer, hcommit] at h
        exact absurd rfl (h _)

/-- **A rejecting `validate` leaves the state alone, and returns its error rather than panicking.** -/
theorem validate_error {fault : Fault ReferenceValidationError}
    (h : validator.validate event = (.error fault, validator')) :
    validator' = validator ∧ ∃ error, fault = .raised error := by
  unfold validate at h
  split at h
  · cases h
    exact ⟨rfl, _, rfl⟩
  · rename_i change kind hprepare
    obtain ⟨committed, hcommit, -⟩ := prepareRole_commit (prepare_eq_ok hprepare).2
    rw [hcommit] at h
    cases h

end ReferenceValidator

end Troupe.Core
