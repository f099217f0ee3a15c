import Troupe.Store.Projector.Totals

/-! # The usage read model

`usage.rs`: the latest context sample of each scope, the terminal token usage of each act, and the
totals over acts.

* The read model is checked (`validate`) before each event, totals included. The sets the check
  fills are the records it has seen; a scope is its own key.

An act is finalized once, and only in a scope that names it; the reference validator checks neither.
Results: **`candidateForEvent_isOk`** and **`candidateForEvent_summarises`**. -/

namespace Troupe.Store

open Troupe.Lib Troupe.Core

/-! ## The read model -/

/-- `UsageReadModel`. -/
structure UsageReadModel extends Through where
  contexts : List ContextUsageSampled
  usages : List ProjectedActUsage
  aggregate : UsageAggregate
  scopedAggregates : List ScopedUsageAggregate

/-- `UsageReadModel::empty`. -/
def UsageReadModel.empty (runId : CanonicalUuid) : UsageReadModel :=
  ⟨.empty runId, [], [], .empty, []⟩

namespace Usage

/-- The check `UsageReadModel::validate` makes on one context, after those before it. -/
def validateContext (through : Through) (seen : List ContextUsageSampled)
    (context : ContextUsageSampled) : Except UsageProjectionError Unit :=
  let header := context.header
  if header.runId ≠ through.runId ∨ header.sequence.get = 0 ∨
      through.throughSequence < header.sequence ∨ through.throughElapsedNs < header.elapsedNs ∨
      header.sequence ≤ (seen.map (·.header.sequence)).getLastD 0 ∨
      header.sequence ∈ seen.map (·.header.sequence) ∨ header.scope ∈ seen.map (·.header.scope) then
    .error (.contextRecordMismatch header.sequence)
  else
    .ok ()

/-- The check `UsageReadModel::validate` makes on one usage, after the contexts and the usages
before it. -/
def validateUsage (through : Through) (contexts : List ContextUsageSampled)
    (seen : List ProjectedActUsage) (usage : ProjectedActUsage) :
    Except UsageProjectionError Unit :=
  if usage.runId ≠ through.runId ∨ usage.sequence.get = 0 ∨
      through.throughSequence < usage.sequence ∨ through.throughElapsedNs < usage.elapsedNs ∨
      usage.scope.actId ≠ some usage.actId ∨
      usage.sequence ∈ contexts.map (·.header.sequence) ∨
      usage.sequence ∈ seen.map ProjectedActUsage.sequence then
    .error (.usageRecordMismatch usage.sequence)
  else if usage.sequence ≤ (seen.map ProjectedActUsage.sequence).getLastD 0 then
    .error (.usageRecordMismatch usage.sequence)
  else
    match seen.find? (·.actId = usage.actId) with
    | some first => .error (.duplicateActUsage usage.actId first.sequence usage.sequence)
    | none =>
      if !usage.availabilityIsValid then
        .error (.availabilityMismatch usage.actId usage.sequence)
      else
        .ok ()

/-- `UsageReadModel::validate`. -/
def validate (model : UsageReadModel) : Except UsageProjectionError Unit := do
  forMSeen (validateContext model.toThrough) [] model.contexts
  forMSeen (validateUsage model.toThrough model.contexts) [] model.usages
  let expected ← aggregateRecords model.usages
  let expectedScoped ← aggregateRecordsByScope model.usages
  if model.aggregate ≠ expected ∨ model.scopedAggregates ≠ expectedScoped then
    .error (.aggregateMismatch model.throughSequence)
  else
    .ok ()

/-- What `candidate_for_event` does with a terminal usage. -/
def finalizeUsage (model : UsageReadModel) (event : ActTokenUsageFinalized) :
    Except UsageProjectionError UsageReadModel :=
  match event.header.scope.actId with
  | none => .error (.missingActIdentity event.header.sequence)
  | some actId =>
    match model.usages.find? (·.actId = actId) with
    | some existing =>
      .error (.duplicateActUsage actId existing.sequence event.header.sequence)
    | none => do
      let projected := ProjectedActUsage.fromEvent event actId
      if !projected.availabilityIsValid then
        .error (.availabilityMismatch projected.actId projected.sequence)
      else
        let aggregate ← model.aggregate.record projected
        let scopedAggregates ← recordScopedAggregates model.scopedAggregates projected
        .ok { model with aggregate, scopedAggregates, usages := model.usages ++ [projected] }

/-- What `candidate_for_event` does to the records. -/
def applyUsage (model : UsageReadModel) :
    DiagnosticEvent → Except UsageProjectionError UsageReadModel
  | .contextUsageSampled context =>
    .ok { model with
      contexts := model.contexts.filter (·.header.scope ≠ context.header.scope) ++ [context] }
  | .actTokenUsageFinalized event => finalizeUsage model event
  | _ => .ok model

/-- `candidate_for_event`, which `project_validated_event` calls. -/
def candidateForEvent (model : UsageReadModel) (event : DiagnosticEvent) :
    Except UsageProjectionError UsageReadModel := do
  (model.validateUntiedPosition event).mapError .position
  validate model
  let candidate ← applyUsage model event
  .ok { candidate with toThrough := candidate.advance event }

/-! ## Two terminal usages of one act -/

/-- The act an event finalizes. -/
def finalizedAct? : DiagnosticEvent → Option RunLocalId
  | .actTokenUsageFinalized event => event.header.scope.actId
  | _ => none

/-- A terminal usage names its act. -/
def NamesAct : DiagnosticEvent → Prop
  | .actTokenUsageFinalized event => event.header.scope.actId.isSome
  | _ => True

instance (event : DiagnosticEvent) : Decidable (NamesAct event) := by
  cases event <;> unfold NamesAct <;> infer_instance

/-- `later` can follow `earlier`: they do not finalize one act. -/
def Compatible (earlier later : DiagnosticEvent) : Prop :=
  ∀ actId ∈ finalizedAct? earlier, finalizedAct? later ≠ some actId

instance (earlier later : DiagnosticEvent) : Decidable (Compatible earlier later) := by
  unfold Compatible
  infer_instance

/-- The records are those of `history`, and the totals are theirs. -/
structure Holds (history : List DiagnosticEvent) (model : UsageReadModel) : Prop where
  contexts_increasing : model.contexts.Pairwise (·.header.sequence < ·.header.sequence)
  contexts_keyed : Keyed (·.header.scope) model.contexts
  contexts_mem : ∀ context ∈ model.contexts, .contextUsageSampled context ∈ history
  usages_increasing : model.usages.Pairwise (·.sequence < ·.sequence)
  usages_mem : ∀ usage ∈ model.usages, ∃ event actId, .actTokenUsageFinalized event ∈ history ∧
    event.header.scope.actId = some actId ∧ usage = .fromEvent event actId
  acts : Indexed ProjectedActUsage.actId model.usages finalizedAct? history
  aggregate : aggregateRecords model.usages = .ok model.aggregate
  byScope : aggregateRecordsByScope model.usages = .ok model.scopedAggregates
  length_le : model.usages.length ≤ history.length

/-- The read model is that of `history`. -/
structure Summarises (model : UsageReadModel) (runId : CanonicalUuid)
    (history : List DiagnosticEvent) : Prop where
  covers : model.Covers runId history
  holds : Holds history model

theorem summarises_empty (runId : CanonicalUuid) : Summarises (.empty runId) runId [] where
  covers := covers_empty
  holds :=
    { contexts_increasing := .nil
      contexts_keyed := .nil
      contexts_mem := by simp [UsageReadModel.empty]
      usages_increasing := .nil
      usages_mem := by simp [UsageReadModel.empty]
      acts := indexed_nil
      aggregate := rfl
      byScope := rfl
      length_le := Nat.le_refl 0 }

section Project

variable {runId : CanonicalUuid} {history : List DiagnosticEvent} {event : DiagnosticEvent}
  {model model' : UsageReadModel} {finalized : ActTokenUsageFinalized}

theorem not_le_getLastD {sequences : List SchemaU64} {sequence : SchemaU64}
    (hpos : 0 < sequence.get) (h : ∀ earlier ∈ sequences, earlier < sequence) :
    ¬sequence ≤ sequences.getLastD 0 := by
  rcases sequences.eq_nil_or_concat with rfl | ⟨before, last, rfl⟩
  · exact Nat.not_le_of_lt hpos
  · rw [List.concat_eq_append, List.getLastD_concat]
    exact Nat.not_le_of_lt (h last (by simp))

/-- A sorted list's items before one of them have smaller sequences. -/
theorem map_lt_of_pairwise {α : Type} (sequence : α → SchemaU64) {before after : List α} {item : α}
    (h : (before ++ item :: after).Pairwise (sequence · < sequence ·)) :
    ∀ earlier ∈ before.map sequence, earlier < sequence item := by
  intro earlier hearlier
  obtain ⟨other, hother, rfl⟩ := List.mem_map.mp hearlier
  exact (List.pairwise_append.mp h).2.2 other hother item List.mem_cons_self

theorem validateContexts_ok (h : Summarises model runId history) :
    forMSeen (validateContext model.toThrough) [] model.contexts = .ok () := by
  refine forMSeen_eq_ok [] fun before context after hcontexts => ?_
  rw [List.nil_append]
  have hincreasing := h.holds.contexts_increasing
  have hkeyed := h.holds.contexts_keyed
  have hmem := h.holds.contexts_mem context (by rw [hcontexts]; simp)
  rw [hcontexts] at hincreasing hkeyed
  have hlt := map_lt_of_pairwise (fun context : ContextUsageSampled => context.header.sequence)
    hincreasing
  obtain ⟨hrun, hle⟩ := h.covers.dense.mem _ hmem
  unfold validateContext
  rw [if_neg]
  rintro (hne | hzero | hbeyond | hlate | hprevious | hseen | hscope)
  · exact hne (hrun.trans h.covers.run.symm)
  · exact absurd context.header.sequence_pos (by rw [hzero]; exact Nat.lt_irrefl 0)
  · rw [SchemaU64.lt_def, h.covers.sequence] at hbeyond
    exact Nat.not_lt_of_le hle hbeyond
  · exact Nat.not_lt_of_le (h.covers.elapsed _ hmem) hlate
  · exact not_le_getLastD context.header.sequence_pos hlt hprevious
  · exact Nat.lt_irrefl _ (hlt _ hseen)
  · obtain ⟨other, hother, hsame⟩ := List.mem_map.mp hscope
    exact (List.pairwise_append.mp hkeyed).2.2 other hother context List.mem_cons_self hsame

theorem validateUsages_ok (h : Summarises model runId history) :
    forMSeen (validateUsage model.toThrough model.contexts) [] model.usages = .ok () := by
  refine forMSeen_eq_ok [] fun before usage after husages => ?_
  rw [List.nil_append]
  have hincreasing := h.holds.usages_increasing
  have hkeyed := h.holds.acts.keyed
  obtain ⟨finalized, actId, hmem, hact, rfl⟩ := h.holds.usages_mem usage (by rw [husages]; simp)
  rw [husages] at hincreasing hkeyed
  have hlt := map_lt_of_pairwise ProjectedActUsage.sequence hincreasing
  obtain ⟨hrun, hle⟩ := h.covers.dense.mem _ hmem
  have hpos : 0 < (ProjectedActUsage.fromEvent finalized actId).sequence.get :=
    finalized.header.sequence_pos
  unfold validateUsage
  rw [if_neg, if_neg (not_le_getLastD hpos hlt)]
  · have hfind : before.find? (fun earlier =>
        earlier.actId = (ProjectedActUsage.fromEvent finalized actId).actId) = none := by
      rw [List.find?_eq_none]
      intro other hother hsame
      exact (List.pairwise_append.mp hkeyed).2.2 other hother _ List.mem_cons_self
        (by simpa using hsame)
    rw [hfind]
    exact if_neg (by simp [ProjectedActUsage.availabilityIsValid_fromEvent])
  · rintro (hne | hzero | hbeyond | hlate | hscope | hcontext | hseen)
    · exact hne (hrun.trans h.covers.run.symm)
    · exact absurd hpos (by rw [hzero]; exact Nat.lt_irrefl 0)
    · rw [SchemaU64.lt_def, h.covers.sequence] at hbeyond
      exact Nat.not_lt_of_le hle hbeyond
    · exact Nat.not_lt_of_le (h.covers.elapsed _ hmem) hlate
    · exact hscope hact
    · -- A context and a usage are different events, so they have different sequences.
      obtain ⟨context, hcontext, hsame⟩ := List.mem_map.mp hcontext
      have heq := h.covers.dense.eq_of_sequence _ (h.holds.contexts_mem context hcontext) _ hmem hsame
      cases heq
    · exact Nat.lt_irrefl _ (hlt _ hseen)

/-- The check of the read model never fails on what the projector itself has built. -/
theorem validate_ok (h : Summarises model runId history) : validate model = .ok () := by
  unfold validate
  rw [validateContexts_ok h, ok_bind, validateUsages_ok h, ok_bind, h.holds.aggregate, ok_bind,
    h.holds.byScope, ok_bind]
  exact if_neg (by simp)

/-- What a terminal usage adds: one record, in both totals. -/
theorem finalizeUsage_eq_ok (h : Holds history model) :
    finalizeUsage model finalized = .ok model' ↔ ∃ actId aggregate scopedAggregates,
      finalized.header.scope.actId = some actId ∧ (∀ usage ∈ model.usages, usage.actId ≠ actId) ∧
      aggregateRecords (model.usages ++ [.fromEvent finalized actId]) = .ok aggregate ∧
      aggregateRecordsByScope (model.usages ++ [.fromEvent finalized actId]) =
        .ok scopedAggregates ∧
      { model with
        aggregate, scopedAggregates
        usages := model.usages ++ [.fromEvent finalized actId] } = model' := by
  unfold finalizeUsage
  cases finalized.header.scope.actId with
  | none => simp
  | some actId =>
    have haggregate : aggregateRecords (model.usages ++ [.fromEvent finalized actId]) = _ :=
      foldlM_concat_of_ok h.aggregate
    have hscoped : aggregateRecordsByScope (model.usages ++ [.fromEvent finalized actId]) = _ :=
      foldlM_concat_of_ok h.byScope
    cases hfind : model.usages.find? (fun usage => usage.actId = actId) with
    | some existing =>
      have hsame : existing.actId = actId := by simpa using List.find?_some hfind
      refine iff_of_false (by simp [hfind]) ?_
      rintro ⟨_, _, _, ⟨⟩, hnone, -⟩
      exact hnone existing (List.mem_of_find?_eq_some hfind) hsame
    | none =>
      have hnone : ∀ usage ∈ model.usages, usage.actId ≠ actId := by
        simpa using List.find?_eq_none.mp hfind
      simp only [hfind, ProjectedActUsage.availabilityIsValid_fromEvent, Bool.not_true,
        Bool.false_eq_true, if_false, bind_eq_ok, Except.ok.injEq]
      constructor
      · rintro ⟨aggregate, hrecord, scopedAggregates, hrecords, rfl⟩
        exact ⟨actId, aggregate, scopedAggregates, rfl, hnone, haggregate.trans hrecord,
          hscoped.trans hrecords, rfl⟩
      · rintro ⟨_, aggregate, scopedAggregates, ⟨⟩, -, hrecord, hrecords, rfl⟩
        exact ⟨aggregate, haggregate.symm.trans hrecord, scopedAggregates,
          hscoped.symm.trans hrecords, rfl⟩

theorem finalizeUsage_isOk (h : Summarises model runId history)
    (hnext : Next runId history (.actTokenUsageFinalized finalized)) :
    (∃ model', finalizeUsage model finalized = .ok model') ↔
      ∃ actId, finalized.header.scope.actId = some actId ∧
        ∀ usage ∈ model.usages, usage.actId ≠ actId := by
  simp only [finalizeUsage_eq_ok h.holds]
  constructor
  · rintro ⟨_, actId, _, _, hact, hnone, -⟩
    exact ⟨actId, hact, hnone⟩
  · rintro ⟨actId, hact, hnone⟩
    -- One act more still has totals, because acts are fewer than sequences.
    have hlength :
        (model.usages ++ [ProjectedActUsage.fromEvent finalized actId]).length ≤ u64Max := by
      have hle := (DiagnosticEvent.actTokenUsageFinalized finalized).sequence.le_max
      have hfewer := h.holds.length_le
      rw [hnext.sequence] at hle
      rw [List.length_append, List.length_singleton]
      omega
    obtain ⟨aggregate, haggregate, -⟩ := aggregateRecords_ok hlength
    obtain ⟨scopedAggregates, hscoped, -⟩ := aggregateRecordsByScope_ok hlength
    exact ⟨_, actId, aggregate, scopedAggregates, hact, hnone, haggregate, hscoped, rfl⟩

theorem applyUsage_isOk (h : Summarises model runId history) (hnext : Next runId history event) :
    (∃ model', applyUsage model event = .ok model') ↔
      NamesAct event ∧ ∀ earlier ∈ history, Compatible earlier event := by
  cases event with
  | actTokenUsageFinalized finalized =>
    rw [show applyUsage model (.actTokenUsageFinalized finalized) = finalizeUsage model finalized
      from rfl, finalizeUsage_isOk h hnext]
    constructor
    · rintro ⟨actId, hact, hnone⟩
      refine ⟨Option.isSome_of_mem hact, fun earlier hearlier other hother hsame => ?_⟩
      cases hact.symm.trans hsame
      obtain ⟨usage, husage, hid⟩ := (h.holds.acts.named actId).mpr ⟨earlier, hearlier, hother⟩
      exact hnone usage husage hid
    · rintro ⟨hnames, hcompatible⟩
      obtain ⟨actId, hact⟩ := Option.isSome_iff_exists.mp hnames
      refine ⟨actId, hact, fun usage husage hid => ?_⟩
      obtain ⟨earlier, hearlier, hother⟩ := (h.holds.acts.named actId).mp ⟨usage, husage, hid⟩
      exact hcompatible earlier hearlier actId hother hact
  | _ =>
    refine iff_of_true ⟨_, rfl⟩ ⟨trivial, fun earlier _ actId _ hnone => ?_⟩
    cases hnone

/-- Anything but a terminal usage keeps the usages and their totals. -/
theorem Holds.keep (h : Holds history model) (hnone : finalizedAct? event = none)
    {contexts : List ContextUsageSampled}
    (hincreasing : contexts.Pairwise (·.header.sequence < ·.header.sequence))
    (hkeyed : Keyed (·.header.scope) contexts)
    (hmem : ∀ context ∈ contexts, .contextUsageSampled context ∈ history ++ [event]) :
    Holds (history ++ [event]) { model with contexts } where
  contexts_increasing := hincreasing
  contexts_keyed := hkeyed
  contexts_mem := hmem
  usages_increasing := h.usages_increasing
  usages_mem := by
    intro usage husage
    obtain ⟨finalized, actId, hmem, hrest⟩ := h.usages_mem usage husage
    exact ⟨finalized, actId, List.mem_append_left _ hmem, hrest⟩
  acts := h.acts.skip hnone
  aggregate := h.aggregate
  byScope := h.byScope
  length_le := by
    rw [List.length_append]
    exact Nat.le_add_right_of_le h.length_le

/-- The contexts of other scopes keep their order, and the new one is later than all of them. -/
theorem holds_context (h : Summarises model runId history) {context : ContextUsageSampled}
    (hnext : Next runId history (.contextUsageSampled context)) :
    Holds (history ++ [.contextUsageSampled context]) { model with
      contexts := model.contexts.filter (·.header.scope ≠ context.header.scope) ++ [context] } := by
  have hold : ∀ old ∈ model.contexts.filter (·.header.scope ≠ context.header.scope),
      old ∈ model.contexts ∧ old.header.scope ≠ context.header.scope := fun old hold => by
    simpa using List.mem_filter.mp hold
  refine h.holds.keep rfl ?_ ?_ ?_
  · refine List.pairwise_append.mpr
      ⟨h.holds.contexts_increasing.filter _, List.pairwise_singleton _ _, ?_⟩
    intro old hmem new hnew
    rw [List.mem_singleton.mp hnew]
    exact h.covers.dense.lt_next hnext (h.holds.contexts_mem old (hold old hmem).1)
  · exact Keyed.append_singleton (h.holds.contexts_keyed.filter _) fun old hmem => (hold old hmem).2
  · intro other hother
    rcases List.mem_append.mp hother with hother | hother
    · exact List.mem_append_left _ (h.holds.contexts_mem other (hold other hother).1)
    · rw [List.mem_singleton.mp hother]
      simp

theorem holds_finalize (h : Summarises model runId history)
    (hnext : Next runId history (.actTokenUsageFinalized finalized))
    (hok : finalizeUsage model finalized = .ok model') :
    Holds (history ++ [.actTokenUsageFinalized finalized]) model' := by
  obtain ⟨actId, aggregate, scopedAggregates, hact, hnone, haggregate, hscoped, rfl⟩ :=
    (finalizeUsage_eq_ok h.holds).mp hok
  have hmem : ∀ usage ∈ model.usages ++ [.fromEvent finalized actId],
      ∃ event other, .actTokenUsageFinalized event ∈
        history ++ [.actTokenUsageFinalized finalized] ∧
        event.header.scope.actId = some other ∧ usage = .fromEvent event other := by
    intro usage husage
    rcases List.mem_append.mp husage with husage | husage
    · obtain ⟨event, other, hmem, hrest⟩ := h.holds.usages_mem usage husage
      exact ⟨event, other, List.mem_append_left _ hmem, hrest⟩
    · rw [List.mem_singleton.mp husage]
      exact ⟨finalized, actId, by simp, hact, rfl⟩
  exact
    { contexts_increasing := h.holds.contexts_increasing
      contexts_keyed := h.holds.contexts_keyed
      contexts_mem := fun context hcontext =>
        List.mem_append_left _ (h.holds.contexts_mem context hcontext)
      usages_increasing := by
        refine List.pairwise_append.mpr
          ⟨h.holds.usages_increasing, List.pairwise_singleton _ _, ?_⟩
        intro usage husage new hnew
        obtain ⟨event, other, hevent, -, rfl⟩ := h.holds.usages_mem usage husage
        rw [List.mem_singleton.mp hnew]
        exact h.covers.dense.lt_next hnext hevent
      usages_mem := hmem
      acts := h.holds.acts.append (show finalizedAct? (.actTokenUsageFinalized finalized) = _ from hact)
        rfl hnone
      aggregate := haggregate
      byScope := hscoped
      length_le := by
        rw [List.length_append, List.length_append]
        exact Nat.succ_le_succ h.holds.length_le }

theorem applyUsage_holds (h : Summarises model runId history) (hnext : Next runId history event)
    (hok : applyUsage model event = .ok model') : Holds (history ++ [event]) model' := by
  cases event with
  | contextUsageSampled context =>
    cases hok
    exact holds_context h hnext
  | actTokenUsageFinalized finalized => exact holds_finalize h hnext hok
  | _ =>
    cases hok
    exact h.holds.keep rfl h.holds.contexts_increasing h.holds.contexts_keyed fun context hcontext =>
      List.mem_append_left _ (h.holds.contexts_mem context hcontext)

theorem applyUsage_through (h : Holds history model) (hok : applyUsage model event = .ok model') :
    model'.toThrough = model.toThrough := by
  cases event with
  | actTokenUsageFinalized finalized =>
    obtain ⟨_, _, _, -, -, -, -, rfl⟩ := (finalizeUsage_eq_ok h).mp hok
    rfl
  | _ =>
    cases hok
    rfl

theorem candidateForEvent_eq_ok (h : Summarises model runId history)
    (hnext : Next runId history event) : candidateForEvent model event = .ok model' ↔
      ∃ candidate, applyUsage model event = .ok candidate ∧
        { candidate with toThrough := candidate.advance event } = model' := by
  unfold candidateForEvent
  rw [mapError_bind_of_ok (validateUntiedPosition_next h.covers hnext), validate_ok h, ok_bind,
    bind_eq_ok]
  simp only [Except.ok.injEq]

/-- **The next event is projected exactly when a terminal usage names its act and no earlier one
named the same.** -/
theorem candidateForEvent_isOk (h : Summarises model runId history)
    (hnext : Next runId history event) : (∃ model', candidateForEvent model event = .ok model') ↔
      NamesAct event ∧ ∀ earlier ∈ history, Compatible earlier event := by
  rw [← applyUsage_isOk h hnext]
  simp only [candidateForEvent_eq_ok h hnext]
  constructor
  · rintro ⟨_, candidate, hcandidate, -⟩
    exact ⟨candidate, hcandidate⟩
  · rintro ⟨candidate, hcandidate⟩
    exact ⟨_, candidate, hcandidate, rfl⟩

theorem candidateForEvent_summarises (h : Summarises model runId history)
    (hnext : Next runId history event) (hok : candidateForEvent model event = .ok model') :
    Summarises model' runId (history ++ [event]) := by
  obtain ⟨candidate, hcandidate, rfl⟩ := (candidateForEvent_eq_ok h hnext).mp hok
  refine ⟨?_, ?_⟩
  · rw [applyUsage_through h.holds hcandidate]
    exact covers_advance h.covers hnext
  · obtain ⟨hincreasing, hkeyed, hcontexts, husages, hmem, hacts, haggregate, hscoped, hlength⟩ :=
      applyUsage_holds h hnext hcandidate
    exact ⟨hincreasing, hkeyed, hcontexts, husages, hmem, hacts, haggregate, hscoped, hlength⟩

end Project

end Usage

end Troupe.Store
