import Mathlib.Data.List.Induction
import Troupe.Core.Wire
import Troupe.Lib.Keyed
import Troupe.Store.Projector.Through

/-! # Usage totals

The totals of `usage.rs`: what the acts of a run used, over all acts and by scene and actor. Each act
is recorded once (`UsageAggregate::record`), in the total of the run, of its scene and of its actor.

* Token counts are decimal texts of any size; a sum is computed on the numbers they denote
  (`BigUint`) and written back. A `TokenCount` is canonical, so reading it does not fail.
* The `Option<TokenCount>` fields of a record are the event's `UsageTokens`.

Recording fails only when a count of acts leaves 64 bits. Results: **`aggregateRecords_ok`** and
**`aggregateRecordsByScope_ok`**, for as many acts as there can be sequences. -/

namespace Troupe.Store

open Troupe.Lib Troupe.Core

/-- `UsageProjectionError`, less the variants of `UsageProjector` and of the schema version. -/
inductive UsageProjectionError where
  | position (error : PositionError)
  | missingActIdentity (eventSequence : SchemaU64)
  | duplicateActUsage (actId : RunLocalId) (firstSequence eventSequence : SchemaU64)
  | availabilityMismatch (actId : RunLocalId) (eventSequence : SchemaU64)
  | usageRecordMismatch (eventSequence : SchemaU64)
  | contextRecordMismatch (eventSequence : SchemaU64)
  | aggregateMismatch (eventSequence : SchemaU64)
  | countExhausted (eventSequence : SchemaU64)
  | invalidTokenValue (eventSequence : SchemaU64)
deriving DecidableEq

/-! ## Counts and sums -/

/-- `increment_count`. -/
def incrementCount (value : SchemaU64) (eventSequence : SchemaU64) :
    Except UsageProjectionError SchemaU64 :=
  match value.checkedSucc with
  | some next => .ok next
  | none => .error (.countExhausted eventSequence)

/-- `TokenCount::parse`. -/
def parseTokenCount (text : String) : Except WireValueError TokenCount :=
  match h : validateCanonicalNonnegativeInteger text with
  | .ok () => .ok ⟨text, h⟩
  | .error error => .error error

/-- `sum_token_counts`. -/
def sumTokenCounts (current : Option TokenCount) (incoming : TokenCount)
    (eventSequence : SchemaU64) : Except UsageProjectionError TokenCount :=
  let left := match current with
    | some value => Core.digitsValue value.value.toList
    | none => 0
  let right := Core.digitsValue incoming.value.toList
  (parseTokenCount (left + right).repr).mapError fun _ => .invalidTokenValue eventSequence

/-- `UsageFieldAggregate`. -/
structure UsageFieldAggregate where
  knownSum : Option TokenCount
  reportedActs : SchemaU64
  finalizedActs : SchemaU64
deriving DecidableEq

/-- `UsageFieldAggregate::empty`. -/
def UsageFieldAggregate.empty : UsageFieldAggregate := ⟨none, 0, 0⟩

/-- `UsageFieldAggregate::record`. -/
def UsageFieldAggregate.record (aggregate : UsageFieldAggregate) (value : Option TokenCount)
    (eventSequence : SchemaU64) : Except UsageProjectionError UsageFieldAggregate := do
  let finalizedActs ← incrementCount aggregate.finalizedActs eventSequence
  match value with
  | none => .ok { aggregate with finalizedActs }
  | some value =>
    let reportedActs ← incrementCount aggregate.reportedActs eventSequence
    let knownSum ← sumTokenCounts aggregate.knownSum value eventSequence
    .ok ⟨some knownSum, reportedActs, finalizedActs⟩

/-- `ProjectedActUsage`. -/
structure ProjectedActUsage where
  runId : CanonicalUuid
  actId : RunLocalId
  scope : DiagnosticScope
  sequence : SchemaU64
  elapsedNs : ElapsedNs
  causedBy : List CausalLink
  availability : UsageAvailability
  source : Option UsageSource
  unavailableReason : Option UsageUnavailableReason
  tokens : UsageTokens
deriving DecidableEq

/-- `ProjectedActUsage::from_event`. -/
def ProjectedActUsage.fromEvent (event : ActTokenUsageFinalized) (actId : RunLocalId) :
    ProjectedActUsage where
  runId := event.header.runId
  actId := actId
  scope := event.header.scope
  sequence := event.header.sequence
  elapsedNs := event.header.elapsedNs
  causedBy := event.header.causedBy
  availability := event.availability
  source := event.source
  unavailableReason := event.unavailableReason
  tokens := event.tokens

/-- `ProjectedActUsage::availability_is_valid`: the condition of `ActTokenUsageFinalized::new`. -/
def ProjectedActUsage.availabilityIsValid (usage : ProjectedActUsage) : Bool :=
  usageStateIsValid usage.availability usage.source usage.unavailableReason usage.tokens

/-- An event that its constructor accepted gives a valid record. -/
theorem ProjectedActUsage.availabilityIsValid_fromEvent (event : ActTokenUsageFinalized)
    (actId : RunLocalId) : (fromEvent event actId).availabilityIsValid = true := event.valid

/-- `UsageAggregate`. -/
structure UsageAggregate where
  finalizedActs : SchemaU64
  reportedActs : SchemaU64
  availableActs : SchemaU64
  partialActs : SchemaU64
  unavailableActs : SchemaU64
  providerTotalTokens : UsageFieldAggregate
  inputTokens : UsageFieldAggregate
  outputTokens : UsageFieldAggregate
  thoughtTokens : UsageFieldAggregate
  cachedReadTokens : UsageFieldAggregate
  cachedWriteTokens : UsageFieldAggregate
deriving DecidableEq

namespace UsageAggregate

/-- `UsageAggregate::empty`. -/
def empty : UsageAggregate where
  finalizedActs := 0
  reportedActs := 0
  availableActs := 0
  partialActs := 0
  unavailableActs := 0
  providerTotalTokens := .empty
  inputTokens := .empty
  outputTokens := .empty
  thoughtTokens := .empty
  cachedReadTokens := .empty
  cachedWriteTokens := .empty

/-- The counts by availability, in `UsageAggregate::record`. -/
def recordAvailability (aggregate : UsageAggregate) (usage : ProjectedActUsage) :
    Except UsageProjectionError UsageAggregate :=
  match usage.availability with
  | .available => do
    let reportedActs ← incrementCount aggregate.reportedActs usage.sequence
    let availableActs ← incrementCount aggregate.availableActs usage.sequence
    .ok { aggregate with reportedActs, availableActs }
  | .partial_ => do
    let reportedActs ← incrementCount aggregate.reportedActs usage.sequence
    let partialActs ← incrementCount aggregate.partialActs usage.sequence
    .ok { aggregate with reportedActs, partialActs }
  | .unavailable => do
    let unavailableActs ← incrementCount aggregate.unavailableActs usage.sequence
    .ok { aggregate with unavailableActs }

/-- `UsageAggregate::record`. -/
def record (aggregate : UsageAggregate) (usage : ProjectedActUsage) :
    Except UsageProjectionError UsageAggregate := do
  let finalizedActs ← incrementCount aggregate.finalizedActs usage.sequence
  let aggregate ← recordAvailability { aggregate with finalizedActs } usage
  let providerTotalTokens ←
    aggregate.providerTotalTokens.record usage.tokens.providerTotalTokens usage.sequence
  let inputTokens ← aggregate.inputTokens.record usage.tokens.inputTokens usage.sequence
  let outputTokens ← aggregate.outputTokens.record usage.tokens.outputTokens usage.sequence
  let thoughtTokens ← aggregate.thoughtTokens.record usage.tokens.thoughtTokens usage.sequence
  let cachedReadTokens ←
    aggregate.cachedReadTokens.record usage.tokens.cachedReadTokens usage.sequence
  let cachedWriteTokens ←
    aggregate.cachedWriteTokens.record usage.tokens.cachedWriteTokens usage.sequence
  .ok { aggregate with
    providerTotalTokens, inputTokens, outputTokens, thoughtTokens, cachedReadTokens,
    cachedWriteTokens }

end UsageAggregate

/-- `ScopedUsageAggregate`. -/
structure ScopedUsageAggregate where
  scope : DiagnosticScope
  aggregate : UsageAggregate
deriving DecidableEq

/-- `record_scoped_aggregate`. -/
def recordScopedAggregate (aggregates : List ScopedUsageAggregate) (scope : DiagnosticScope)
    (usage : ProjectedActUsage) : Except UsageProjectionError (List ScopedUsageAggregate) :=
  upsert ScopedUsageAggregate.scope scope
    (fun existing => do
      let aggregate ← existing.aggregate.record usage
      .ok { existing with aggregate })
    (do
      let aggregate ← UsageAggregate.empty.record usage
      .ok ⟨scope, aggregate⟩)
    aggregates

/-- `record_scoped_aggregates`. -/
def recordScopedAggregates (aggregates : List ScopedUsageAggregate) (usage : ProjectedActUsage) :
    Except UsageProjectionError (List ScopedUsageAggregate) :=
  match usage.scope.sceneId with
  | none => .ok aggregates
  | some sceneId => do
    let aggregates ← recordScopedAggregate aggregates
      { DiagnosticScope.run with sceneId := some sceneId } usage
    match usage.scope.actorId with
    | none => .ok aggregates
    | some actorId =>
      recordScopedAggregate aggregates
        { DiagnosticScope.run with sceneId := some sceneId, actorId := some actorId } usage

/-- `aggregate_records`. -/
def aggregateRecords (usages : List ProjectedActUsage) :
    Except UsageProjectionError UsageAggregate :=
  usages.foldlM UsageAggregate.record .empty

/-- `aggregate_records_by_scope`. -/
def aggregateRecordsByScope (usages : List ProjectedActUsage) :
    Except UsageProjectionError (List ScopedUsageAggregate) :=
  usages.foldlM recordScopedAggregates []

/-! ## Totals do not run out

Each count in a total grows by at most one for each act, and there are fewer acts than sequences. -/

section Totals

variable {n : Nat} {usage : ProjectedActUsage} {usages : List ProjectedActUsage}

theorem incrementCount_ok {value : SchemaU64} (h : value.get ≤ n) (hn : n < u64Max)
    (eventSequence : SchemaU64) :
    ∃ next, incrementCount value eventSequence = .ok next ∧ next.get ≤ n + 1 := by
  have hle : value.get + 1 ≤ u64Max := by omega
  refine ⟨⟨value.get + 1, hle⟩, ?_, Nat.succ_le_succ h⟩
  unfold incrementCount SchemaU64.checkedSucc
  rw [dif_pos hle]

theorem parseTokenCount_repr (n : Nat) : ∃ count, parseTokenCount n.repr = .ok count := by
  unfold parseTokenCount
  split
  · exact ⟨_, rfl⟩
  · next error h =>
    rw [validateCanonicalNonnegativeInteger_repr] at h
    cases h

theorem sumTokenCounts_ok (current : Option TokenCount) (incoming : TokenCount)
    (eventSequence : SchemaU64) : ∃ sum, sumTokenCounts current incoming eventSequence = .ok sum := by
  obtain ⟨count, hcount⟩ := parseTokenCount_repr
    ((match current with
      | some value => Core.digitsValue value.value.toList
      | none => 0) + Core.digitsValue incoming.value.toList)
  refine ⟨count, ?_⟩
  unfold sumTokenCounts
  exact mapError_eq_ok.mpr hcount

/-- The counts of a field total are at most `n`. -/
structure UsageFieldAggregate.AtMost (aggregate : UsageFieldAggregate) (n : Nat) : Prop where
  reported : aggregate.reportedActs.get ≤ n
  finalized : aggregate.finalizedActs.get ≤ n

theorem UsageFieldAggregate.AtMost.mono {aggregate : UsageFieldAggregate} {m : Nat}
    (h : aggregate.AtMost n) (hle : n ≤ m) : aggregate.AtMost m where
  reported := Nat.le_trans h.reported hle
  finalized := Nat.le_trans h.finalized hle

theorem UsageFieldAggregate.AtMost.record_ok {aggregate : UsageFieldAggregate} (h : aggregate.AtMost n)
    (hn : n < u64Max) (value : Option TokenCount) (eventSequence : SchemaU64) :
    ∃ result, aggregate.record value eventSequence = .ok result ∧ result.AtMost (n + 1) := by
  obtain ⟨finalized, hfinalized, hle⟩ := incrementCount_ok h.finalized hn eventSequence
  unfold UsageFieldAggregate.record
  rw [hfinalized, ok_bind]
  cases value with
  | none => exact ⟨_, rfl, Nat.le_succ_of_le h.reported, hle⟩
  | some value =>
    obtain ⟨reported, hreported, hle'⟩ := incrementCount_ok h.reported hn eventSequence
    obtain ⟨sum, hsum⟩ := sumTokenCounts_ok aggregate.knownSum value eventSequence
    simp only [hreported, hsum, ok_bind]
    exact ⟨_, rfl, hle', hle⟩

namespace UsageAggregate

variable {aggregate : UsageAggregate}

/-- The counts of a total are at most `n`. -/
structure AtMost (aggregate : UsageAggregate) (n : Nat) : Prop where
  finalized : aggregate.finalizedActs.get ≤ n
  reported : aggregate.reportedActs.get ≤ n
  available : aggregate.availableActs.get ≤ n
  partial_ : aggregate.partialActs.get ≤ n
  unavailable : aggregate.unavailableActs.get ≤ n
  providerTotal : aggregate.providerTotalTokens.AtMost n
  input : aggregate.inputTokens.AtMost n
  output : aggregate.outputTokens.AtMost n
  thought : aggregate.thoughtTokens.AtMost n
  cachedRead : aggregate.cachedReadTokens.AtMost n
  cachedWrite : aggregate.cachedWriteTokens.AtMost n

theorem empty_atMost : empty.AtMost 0 := by
  constructor <;> first | exact Nat.le_refl 0 | exact ⟨Nat.le_refl 0, Nat.le_refl 0⟩

theorem AtMost.mono {m : Nat} (h : aggregate.AtMost n) (hle : n ≤ m) :
    aggregate.AtMost m where
  finalized := Nat.le_trans h.finalized hle
  reported := Nat.le_trans h.reported hle
  available := Nat.le_trans h.available hle
  partial_ := Nat.le_trans h.partial_ hle
  unavailable := Nat.le_trans h.unavailable hle
  providerTotal := h.providerTotal.mono hle
  input := h.input.mono hle
  output := h.output.mono hle
  thought := h.thought.mono hle
  cachedRead := h.cachedRead.mono hle
  cachedWrite := h.cachedWrite.mono hle

/-- Counting the availability changes three counts at most, and no field total. -/
theorem recordAvailability_ok (h : aggregate.AtMost n)
    (hn : n < u64Max) (usage : ProjectedActUsage) {finalizedActs : SchemaU64}
    (hfinalized : finalizedActs.get ≤ n + 1) :
    ∃ result, recordAvailability { aggregate with finalizedActs } usage = .ok result ∧
      result.finalizedActs.get ≤ n + 1 ∧ result.reportedActs.get ≤ n + 1 ∧
      result.availableActs.get ≤ n + 1 ∧ result.partialActs.get ≤ n + 1 ∧
      result.unavailableActs.get ≤ n + 1 ∧
      result.providerTotalTokens = aggregate.providerTotalTokens ∧
      result.inputTokens = aggregate.inputTokens ∧ result.outputTokens = aggregate.outputTokens ∧
      result.thoughtTokens = aggregate.thoughtTokens ∧
      result.cachedReadTokens = aggregate.cachedReadTokens ∧
      result.cachedWriteTokens = aggregate.cachedWriteTokens := by
  obtain ⟨reported, hreported, hreportedLe⟩ := incrementCount_ok h.reported hn usage.sequence
  obtain ⟨available, havailable, havailableLe⟩ := incrementCount_ok h.available hn usage.sequence
  obtain ⟨partial', hpartial, hpartialLe⟩ := incrementCount_ok h.partial_ hn usage.sequence
  obtain ⟨unavailable, hunavailable, hunavailableLe⟩ :=
    incrementCount_ok h.unavailable hn usage.sequence
  have hsucc := h.mono (Nat.le_succ n)
  unfold recordAvailability
  cases usage.availability with
  | available =>
    simp only [hreported, havailable, ok_bind]
    exact ⟨_, rfl, hfinalized, hreportedLe, havailableLe,
      hsucc.partial_, hsucc.unavailable, rfl, rfl, rfl, rfl, rfl, rfl⟩
  | partial_ =>
    simp only [hreported, hpartial, ok_bind]
    exact ⟨_, rfl, hfinalized, hreportedLe, hsucc.available,
      hpartialLe, hsucc.unavailable, rfl, rfl, rfl, rfl, rfl, rfl⟩
  | unavailable =>
    simp only [hunavailable, ok_bind]
    exact ⟨_, rfl, hfinalized, hsucc.reported, hsucc.available,
      hsucc.partial_, hunavailableLe, rfl, rfl, rfl, rfl, rfl, rfl⟩

theorem record_ok (h : aggregate.AtMost n) (hn : n < u64Max)
    (usage : ProjectedActUsage) :
    ∃ result, aggregate.record usage = .ok result ∧ result.AtMost (n + 1) := by
  obtain ⟨finalized, hfinalized, hfinalizedLe⟩ := incrementCount_ok h.finalized hn usage.sequence
  obtain ⟨counted, hcounted, hf, hr, ha, hp, hu, hprovider, hinput, houtput, hthought, hread,
    hwrite⟩ := recordAvailability_ok h hn usage hfinalizedLe
  obtain ⟨provider, hprovider', hproviderLe⟩ :=
    h.providerTotal.record_ok hn usage.tokens.providerTotalTokens usage.sequence
  obtain ⟨input, hinput', hinputLe⟩ :=
    h.input.record_ok hn usage.tokens.inputTokens usage.sequence
  obtain ⟨output, houtput', houtputLe⟩ :=
    h.output.record_ok hn usage.tokens.outputTokens usage.sequence
  obtain ⟨thought, hthought', hthoughtLe⟩ :=
    h.thought.record_ok hn usage.tokens.thoughtTokens usage.sequence
  obtain ⟨read, hread', hreadLe⟩ :=
    h.cachedRead.record_ok hn usage.tokens.cachedReadTokens usage.sequence
  obtain ⟨write, hwrite', hwriteLe⟩ :=
    h.cachedWrite.record_ok hn usage.tokens.cachedWriteTokens usage.sequence
  refine ⟨{ counted with
    providerTotalTokens := provider, inputTokens := input, outputTokens := output,
    thoughtTokens := thought, cachedReadTokens := read, cachedWriteTokens := write }, ?_,
    hf, hr, ha, hp, hu, hproviderLe, hinputLe, houtputLe, hthoughtLe, hreadLe, hwriteLe⟩
  simp only [record, hfinalized, hcounted, hprovider, hinput, houtput, hthought, hread, hwrite,
    hprovider', hinput', houtput', hthought', hread', hwrite', ok_bind]

end UsageAggregate

theorem aggregateRecords_ok (hle : usages.length ≤ u64Max) :
    ∃ aggregate, aggregateRecords usages = .ok aggregate ∧ aggregate.AtMost usages.length := by
  induction usages using List.reverseRecOn with
  | nil => exact ⟨.empty, rfl, UsageAggregate.empty_atMost⟩
  | append_singleton usages usage ih =>
    rw [List.length_append, List.length_singleton] at hle ⊢
    obtain ⟨aggregate, haggregate, hat⟩ := ih (by omega)
    obtain ⟨result, hresult, hat'⟩ := UsageAggregate.record_ok hat (by omega) usage
    exact ⟨result, (foldlM_concat_of_ok haggregate).trans hresult, hat'⟩

/-- The total of one scope grows; the others stay. -/
theorem recordScopedAggregate_ok {aggregates : List ScopedUsageAggregate} (scope : DiagnosticScope)
    (hkeyed : Keyed ScopedUsageAggregate.scope aggregates)
    (hat : ∀ total ∈ aggregates, total.scope = scope → total.aggregate.AtMost n)
    (hn : n < u64Max) (usage : ProjectedActUsage) :
    ∃ result, recordScopedAggregate aggregates scope usage = .ok result ∧
      Keyed ScopedUsageAggregate.scope result ∧
      ∀ total ∈ result, total.scope = scope ∧ total.aggregate.AtMost (n + 1) ∨
        total ∈ aggregates ∧ total.scope ≠ scope := by
  obtain ⟨first, hfirst, hfirstAt⟩ :=
    UsageAggregate.record_ok UsageAggregate.empty_atMost (by decide) usage
  have hok : ∃ result, recordScopedAggregate aggregates scope usage = .ok result := by
    refine (upsert_isOk hkeyed).mpr ⟨fun old hold hscope => ?_, fun _ => ?_⟩
    · obtain ⟨aggregate, haggregate, -⟩ := UsageAggregate.record_ok (hat old hold hscope) hn usage
      exact ⟨_, by rw [haggregate, ok_bind]⟩
    · exact ⟨_, by rw [hfirst, ok_bind]⟩
  obtain ⟨result, hresult⟩ := hok
  obtain ⟨hkeyed', item, hitem, hwritten, hmem⟩ := upsert_ok hkeyed
    (by
      intro old item hold hnew
      obtain ⟨_, -, hitem⟩ := bind_eq_ok.mp hnew
      cases hitem
      exact hold)
    (by
      intro item hnew
      obtain ⟨_, -, hitem⟩ := bind_eq_ok.mp hnew
      cases hitem
      rfl)
    hresult
  refine ⟨result, hresult, hkeyed', fun total htotal => ?_⟩
  rcases (hmem total).mp htotal with rfl | hold
  · refine Or.inl ⟨hitem, ?_⟩
    rcases hwritten with ⟨old, hold, hscope, hupdate⟩ | ⟨-, hinsert⟩
    · obtain ⟨aggregate, haggregate, hat'⟩ :=
        UsageAggregate.record_ok (hat old hold hscope) hn usage
      simp only [haggregate, ok_bind, Except.ok.injEq] at hupdate
      cases hupdate
      exact hat'
    · rw [hfirst, ok_bind] at hinsert
      cases hinsert
      exact hfirstAt.mono (by omega)
  · exact Or.inr hold

/-- The scene's total and the actor's are two, so each grows once. -/
theorem recordScopedAggregates_ok {aggregates : List ScopedUsageAggregate}
    (hkeyed : Keyed ScopedUsageAggregate.scope aggregates)
    (hat : ∀ total ∈ aggregates, total.aggregate.AtMost n) (hn : n < u64Max)
    (usage : ProjectedActUsage) :
    ∃ result, recordScopedAggregates aggregates usage = .ok result ∧
      Keyed ScopedUsageAggregate.scope result ∧
      ∀ total ∈ result, total.aggregate.AtMost (n + 1) := by
  unfold recordScopedAggregates
  cases usage.scope.sceneId with
  | none =>
    exact ⟨aggregates, rfl, hkeyed, fun total htotal => (hat total htotal).mono (by omega)⟩
  | some sceneId =>
    obtain ⟨scenes, hscenes, hkeyed', hscenesAt⟩ := recordScopedAggregate_ok
      { DiagnosticScope.run with sceneId := some sceneId } hkeyed
      (fun total htotal _ => hat total htotal) hn usage
    dsimp only
    rw [hscenes, ok_bind]
    cases usage.scope.actorId with
    | none =>
      refine ⟨scenes, rfl, hkeyed', fun total htotal => ?_⟩
      rcases hscenesAt total htotal with ⟨-, hat'⟩ | ⟨hold, -⟩
      · exact hat'
      · exact (hat total hold).mono (by omega)
    | some actorId =>
      have hactorAt : ∀ total ∈ scenes, total.scope = { DiagnosticScope.run with
          sceneId := some sceneId, actorId := some actorId } → total.aggregate.AtMost n := by
        intro total htotal hscope
        rcases hscenesAt total htotal with ⟨hscene, -⟩ | ⟨hold, -⟩
        · rw [hscope] at hscene
          cases hscene
        · exact hat total hold
      obtain ⟨actors, hactors, hkeyed'', hactorsAt⟩ :=
        recordScopedAggregate_ok _ hkeyed' hactorAt hn usage
      refine ⟨actors, hactors, hkeyed'', fun total htotal => ?_⟩
      rcases hactorsAt total htotal with ⟨-, hat'⟩ | ⟨hscene, -⟩
      · exact hat'
      · rcases hscenesAt total hscene with ⟨-, hat'⟩ | ⟨hold, -⟩
        · exact hat'
        · exact (hat total hold).mono (by omega)

theorem aggregateRecordsByScope_ok (hle : usages.length ≤ u64Max) :
    ∃ aggregates, aggregateRecordsByScope usages = .ok aggregates ∧
      Keyed ScopedUsageAggregate.scope aggregates ∧
      ∀ total ∈ aggregates, total.aggregate.AtMost usages.length := by
  induction usages using List.reverseRecOn with
  | nil => exact ⟨[], rfl, List.Pairwise.nil, by simp⟩
  | append_singleton usages usage ih =>
    rw [List.length_append, List.length_singleton] at hle ⊢
    obtain ⟨aggregates, haggregates, hkeyed, hat⟩ := ih (by omega)
    obtain ⟨result, hresult, hkeyed', hat'⟩ :=
      recordScopedAggregates_ok hkeyed hat (by omega) usage
    exact ⟨result, (foldlM_concat_of_ok haggregates).trans hresult, hkeyed', hat'⟩

end Totals

end Troupe.Store
