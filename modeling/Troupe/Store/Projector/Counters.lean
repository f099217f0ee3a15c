import Troupe.Core.Serialize
import Troupe.Lib.Keyed
import Troupe.Store.Projector.Through

/-! # The counter read model

`counters.rs`: the latest sample of each counter series. A series is known by the JSON text of its
identity, which is injective (`canonicalSeriesKey_injective`), so two series never share a key. A
series keeps the type of its values: a custom counter that was sampled with an integer takes no
decimal afterwards.

* The read model is checked (`validate`) before each event. The sets the check fills are the samples
  it has seen.

Results: **`candidateForEvent_isOk`** and **`candidateForEvent_summarises`**. -/

namespace Troupe.Store

open Troupe.Lib Troupe.Core

/-- `CounterSeriesIdentity`. -/
inductive CounterSeriesIdentity where
  | builtIn (scope : DiagnosticScope) (counterKind : CounterKind)
  | custom (scope : DiagnosticScope) (name : String) (unit : Option String)
      (dimensions : DiagnosticDimensions)
deriving DecidableEq

/-- `ProjectedCounterValue`. -/
inductive ProjectedCounterValue where
  | unsigned (value : SchemaU64)
  | integer (value : CanonicalInteger)
  | decimal (value : DecimalString)
deriving DecidableEq

/-- `CounterValueTag`. -/
inductive CounterValueTag where
  | unsigned
  | integer
  | decimal
deriving DecidableEq

/-- `CounterValueClass`. -/
inductive CounterValueClass where
  | unsigned
  | customNumber
deriving DecidableEq

/-- `ProjectedCounterValue::tag`. -/
def ProjectedCounterValue.tag : ProjectedCounterValue → CounterValueTag
  | .unsigned _ => .unsigned
  | .integer _ => .integer
  | .decimal _ => .decimal

namespace CounterSeriesIdentity

/-- `CounterSeriesIdentity::value_class`. -/
def valueClass : CounterSeriesIdentity → CounterValueClass
  | builtIn _ _ => .unsigned
  | custom _ _ _ _ => .customNumber

/-- `CounterSeriesIdentity::accepts_value`. -/
def acceptsValue : CounterSeriesIdentity → ProjectedCounterValue → Bool
  | builtIn _ _, .unsigned _ => true
  | custom _ _ _ _, .integer _ => true
  | custom _ _ _ _, .decimal _ => true
  | _, _ => false

/-- `Serialize for CounterSeriesIdentity`. -/
def serialize : CounterSeriesIdentity → Json
  | builtIn scope counterKind =>
    .object (.ofList [
      ("family", .string "built_in"),
      ("scope", serializeScope scope),
      ("counter_kind", .string counterKind.asStr)])
  | custom scope name unit dimensions =>
    .object (.ofList [
      ("family", .string "custom"),
      ("scope", serializeScope scope),
      ("name", .string name),
      ("unit", serializeOption .string unit),
      ("dimensions", serializeDimensions dimensions)])

theorem serialize_injective : Function.Injective serialize := by
  intro a b h
  have hunit := serializeOption_injective (fun _ _ h => Json.string.inj h) (fun _ => by simp)
  cases a <;> cases b <;>
    have hfields := JsonFields.ofList_injective (Json.object.inj h) <;>
    simp only [List.cons.injEq, Prod.mk.injEq, Json.string.injEq, true_and, and_true, reduceCtorEq,
      and_false] at hfields
  case builtIn.builtIn =>
    obtain ⟨hscope, hkind⟩ := hfields
    rw [serializeScope_injective hscope, CounterKind.asStr_injective hkind]
  case custom.custom =>
    obtain ⟨hscope, hname, hunits, hdimensions⟩ := hfields
    rw [serializeScope_injective hscope, hname, hunit hunits,
      serializeDimensions_injective hdimensions]

end CounterSeriesIdentity

/-- `canonical_series_key`. -/
def canonicalSeriesKey (identity : CounterSeriesIdentity) : String := identity.serialize.toString

theorem canonicalSeriesKey_injective : Function.Injective canonicalSeriesKey := by
  intro a b h
  exact CounterSeriesIdentity.serialize_injective (Json.toString_injective h)

/-- `ProjectedCounter`. -/
structure ProjectedCounter where
  runId : CanonicalUuid
  seriesKey : String
  identity : CounterSeriesIdentity
  sequence : SchemaU64
  elapsedNs : ElapsedNs
  value : ProjectedCounterValue
  causedBy : List CausalLink
deriving DecidableEq

/-- A sample of the series `identity` with the header's position. -/
def ProjectedCounter.ofHeader (header : DiagnosticEventHeader) (identity : CounterSeriesIdentity)
    (value : ProjectedCounterValue) : ProjectedCounter where
  runId := header.runId
  seriesKey := canonicalSeriesKey identity
  identity := identity
  sequence := header.sequence
  elapsedNs := header.elapsedNs
  value := value
  causedBy := header.causedBy

/-- `ProjectedCounter::built_in`. -/
def ProjectedCounter.builtIn (event : CounterSampled) : ProjectedCounter :=
  .ofHeader event.header (.builtIn event.header.scope event.counterKind) (.unsigned event.value)

/-- `ProjectedCounter::custom`. -/
def ProjectedCounter.custom (event : CustomCounterSampled) : ProjectedCounter :=
  .ofHeader event.header
    (.custom event.header.scope event.name event.unit event.dimensions)
    (match event.value with
      | .integer value => .integer value
      | .decimal value => .decimal value)

/-- `CounterReadModel`. -/
structure CounterReadModel extends Through where
  series : List ProjectedCounter

/-- `CounterReadModel::empty`. -/
def CounterReadModel.empty (runId : CanonicalUuid) : CounterReadModel := ⟨.empty runId, []⟩

/-- `CounterProjectionError`, less the variants of `CounterProjector` and of the schema version. -/
inductive CounterProjectionError where
  | position (error : PositionError)
  | seriesMismatch (seriesKey : String) (eventSequence : SchemaU64)
  | tagMismatch (seriesKey : String) (eventSequence : SchemaU64) (expected : CounterValueClass)
      (actual : CounterValueTag)
deriving DecidableEq

namespace Counters

/-- The check `CounterReadModel::validate` makes on one sample, after those before it. -/
def validateSample (through : Through) (seen : List ProjectedCounter) (sample : ProjectedCounter) :
    Except CounterProjectionError Unit :=
  if sample.runId ≠ through.runId ∨ sample.sequence.get = 0 ∨
      through.throughSequence < sample.sequence ∨
      sample.seriesKey ≠ canonicalSeriesKey sample.identity ∨
      sample.seriesKey ∈ seen.map ProjectedCounter.seriesKey then
    .error (.seriesMismatch sample.seriesKey sample.sequence)
  else if !sample.identity.acceptsValue sample.value then
    .error (.tagMismatch sample.seriesKey sample.sequence sample.identity.valueClass
      sample.value.tag)
  else if sample.sequence ∈ seen.map ProjectedCounter.sequence then
    .error (.position (.sequenceTie sample.sequence))
  else
    .ok ()

/-- `CounterReadModel::validate`. -/
def validate (model : CounterReadModel) : Except CounterProjectionError Unit :=
  forMSeen (validateSample model.toThrough) [] model.series

/-- The sample an event adds. -/
def sample? : DiagnosticEvent → Option ProjectedCounter
  | .counterSampled event => some (.builtIn event)
  | .customCounterSampled event => some (.custom event)
  | .spanStarted _ | .spanFinished _ | .instantOccurred _ | .agentMessageDelta _
  | .agentMessageCompleted _ | .agentPlanSnapshot _ | .contextUsageSampled _
  | .actTokenUsageFinalized _ | .observationGap _ | .customSpanStarted _ | .customSpanFinished _
  | .customInstantOccurred _ => none

/-- What `apply_sample` does to the sample it finds. -/
def replaceSample (sample existing : ProjectedCounter) :
    Except CounterProjectionError ProjectedCounter :=
  if existing.identity ≠ sample.identity then
    .error (.seriesMismatch sample.seriesKey sample.sequence)
  else if existing.value.tag ≠ sample.value.tag then
    .error (.tagMismatch sample.seriesKey sample.sequence
      (match existing.value.tag with
        | .unsigned => .unsigned
        | .integer | .decimal => .customNumber)
      sample.value.tag)
  else
    .ok sample

/-- `apply_sample`. -/
def applySample (series : List ProjectedCounter) (sample : ProjectedCounter) :
    Except CounterProjectionError (List ProjectedCounter) :=
  upsert ProjectedCounter.seriesKey sample.seriesKey (replaceSample sample) (.ok sample) series

/-- What `candidate_for_event` does to the series. -/
def applySeries (series : List ProjectedCounter) (event : DiagnosticEvent) :
    Except CounterProjectionError (List ProjectedCounter) :=
  match sample? event with
  | some sample => applySample series sample
  | none => .ok series

/-- `candidate_for_event`, which `project_validated_event` calls. -/
def candidateForEvent (model : CounterReadModel) (event : DiagnosticEvent) :
    Except CounterProjectionError CounterReadModel := do
  (model.validateUntiedPosition event).mapError .position
  validate model
  let series ← applySeries model.series event
  .ok ⟨model.advance event, series⟩

/-! ## Two samples of one series -/

/-- `later` can follow `earlier`: samples of one series have values of one type. -/
def Compatible (earlier later : DiagnosticEvent) : Prop :=
  ∀ sample ∈ sample? earlier, ∀ other ∈ sample? later,
    sample.identity = other.identity → sample.value.tag = other.value.tag

instance (earlier later : DiagnosticEvent) : Decidable (Compatible earlier later) := by
  unfold Compatible
  infer_instance

/-- The key of the series an event samples. -/
def seriesKey? (event : DiagnosticEvent) : Option String :=
  (sample? event).map ProjectedCounter.seriesKey

/-- There is one sample of each series that `history` samples, and it is one of `history`'s. -/
structure Holds (history : List DiagnosticEvent) (series : List ProjectedCounter) : Prop where
  indexed : Indexed ProjectedCounter.seriesKey series seriesKey? history
  sampled : ∀ sample ∈ series, ∃ event ∈ history, sample? event = some sample
  tagged : ∀ sample ∈ series, ∀ event ∈ history, ∀ other ∈ sample? event,
    other.identity = sample.identity → other.value.tag = sample.value.tag

/-- The read model is that of `history`. -/
structure Summarises (model : CounterReadModel) (runId : CanonicalUuid)
    (history : List DiagnosticEvent) : Prop where
  covers : model.Covers runId history
  holds : Holds history model.series

theorem summarises_empty (runId : CanonicalUuid) : Summarises (.empty runId) runId [] where
  covers := covers_empty
  holds := ⟨indexed_nil, by simp [CounterReadModel.empty], by simp⟩

section Project

variable {runId : CanonicalUuid} {history : List DiagnosticEvent} {event : DiagnosticEvent}
  {series series' : List ProjectedCounter} {sample other : ProjectedCounter}
  {model model' : CounterReadModel}

/-- What a sample takes over from its event. -/
structure SampleOf (event : DiagnosticEvent) (sample : ProjectedCounter) : Prop where
  run : sample.runId = event.header.runId
  sequence : sample.sequence = event.sequence
  key : sample.seriesKey = canonicalSeriesKey sample.identity
  accepts : sample.identity.acceptsValue sample.value = true

theorem sampleOf_sample? (h : sample? event = some sample) : SampleOf event sample := by
  cases event with
  | counterSampled event =>
    cases h
    exact ⟨rfl, rfl, rfl, rfl⟩
  | customCounterSampled event =>
    cases h
    refine ⟨rfl, rfl, rfl, ?_⟩
    unfold ProjectedCounter.custom ProjectedCounter.ofHeader
    cases event.value <;> rfl
  | _ => cases h

/-- Samples of one history that share a sequence are the same. -/
theorem sampled_eq (hdense : Dense runId history) {a b : ProjectedCounter}
    (ha : ∃ event ∈ history, sample? event = some a)
    (hb : ∃ event ∈ history, sample? event = some b) (hab : a.sequence = b.sequence) : a = b := by
  obtain ⟨first, hfirst, hsample⟩ := ha
  obtain ⟨second, hsecond, hother⟩ := hb
  have hsame : first = second := hdense.eq_of_sequence first hfirst second hsecond <| by
    rw [← (sampleOf_sample? hsample).sequence, ← (sampleOf_sample? hother).sequence, hab]
  rw [hsame, hother] at hsample
  exact (Option.some.inj hsample).symm

/-- The check of the read model never fails on what the projector itself has built. -/
theorem validate_ok (h : Summarises model runId history) : validate model = .ok () := by
  refine forMSeen_eq_ok [] fun before sample after hseries => ?_
  rw [List.nil_append]
  have hkeyed := h.holds.indexed.keyed
  have hsampled := h.holds.sampled
  rw [hseries] at hkeyed hsampled
  have hmem : sample ∈ before ++ sample :: after := by simp
  obtain ⟨event, hevent, hsample⟩ := hsampled sample hmem
  have hof := sampleOf_sample? hsample
  obtain ⟨hrun, hle⟩ := h.covers.dense.mem event hevent
  have hbefore : ∀ other ∈ before, other.seriesKey ≠ sample.seriesKey := fun other hother =>
    (List.pairwise_append.mp hkeyed).2.2 other hother sample List.mem_cons_self
  unfold validateSample
  rw [if_neg, if_neg, if_neg]
  · intro htie
    obtain ⟨other, hother, hsequence⟩ := List.mem_map.mp htie
    have hsame := sampled_eq h.covers.dense (hsampled other (List.mem_append_left _ hother))
      ⟨event, hevent, hsample⟩ hsequence
    exact hbefore other hother (congrArg _ hsame)
  · simp [hof.accepts]
  · rintro (hne | hzero | hlt | hne | hseen)
    · exact hne (by rw [hof.run, hrun, h.covers.run])
    · rw [hof.sequence] at hzero
      exact absurd event.header.sequence_pos (by rw [hzero]; exact Nat.lt_irrefl 0)
    · rw [hof.sequence, SchemaU64.lt_def, h.covers.sequence] at hlt
      exact Nat.not_lt_of_le hle hlt
    · exact hne hof.key
    · obtain ⟨other, hother, hkey⟩ := List.mem_map.mp hseen
      exact hbefore other hother hkey

theorem replaceSample_eq_ok {existing result : ProjectedCounter} :
    replaceSample sample existing = .ok result ↔
      (existing.identity = sample.identity ∧ existing.value.tag = sample.value.tag) ∧
        sample = result := by
  unfold replaceSample
  rw [ite_error_eq_ok, ite_error_eq_ok, not_not, not_not, Except.ok.injEq, and_assoc]

/-- Two samples of a history have one key exactly when they have one identity. -/
theorem key_eq_iff {first second : DiagnosticEvent} (hsample : sample? first = some sample)
    (hother : sample? second = some other) :
    sample.seriesKey = other.seriesKey ↔ sample.identity = other.identity := by
  rw [(sampleOf_sample? hsample).key, (sampleOf_sample? hother).key,
    canonicalSeriesKey_injective.eq_iff]

theorem applySeries_isOk (hholds : Holds history series) :
    (∃ series', applySeries series event = .ok series') ↔
      ∀ earlier ∈ history, Compatible earlier event := by
  unfold applySeries
  cases hsample : sample? event with
  | none =>
    refine ⟨fun _ earlier _ other _ sample hnone => ?_, fun _ => ⟨series, rfl⟩⟩
    rw [hsample] at hnone
    cases hnone
  | some sample =>
    dsimp only
    unfold applySample
    rw [upsert_isOk hholds.indexed.keyed]
    simp only [replaceSample_eq_ok, exists_and_left, exists_eq', and_true, Except.ok.injEq,
      implies_true]
    constructor
    · intro h earlier hearlier other hother new hnew hidentity
      cases hsample.symm.trans hnew
      -- The series has a sample, with the identity and the type of the earlier one.
      have hkey : seriesKey? earlier = some sample.seriesKey := by
        unfold seriesKey?
        rw [hother, Option.map_some, (key_eq_iff hother hsample).mpr hidentity]
      obtain ⟨existing, hexisting, hsame⟩ := (hholds.indexed.named _).mpr ⟨earlier, hearlier, hkey⟩
      obtain ⟨hidentity', htag⟩ := h existing hexisting hsame
      rw [← htag]
      exact hholds.tagged existing hexisting earlier hearlier other hother
        (hidentity.trans hidentity'.symm)
    · intro h existing hexisting hkey
      obtain ⟨earlier, hearlier, hother⟩ := hholds.sampled existing hexisting
      have hidentity := (key_eq_iff hother hsample).mp hkey
      exact ⟨hidentity, h earlier hearlier existing hother sample hsample hidentity⟩

theorem applySeries_holds (hholds : Holds history series)
    (h : applySeries series event = .ok series') : Holds (history ++ [event]) series' := by
  have hcompatible := (applySeries_isOk hholds).mp ⟨series', h⟩
  unfold applySeries at h
  cases hsample : sample? event with
  | none =>
    rw [hsample] at h
    cases h
    refine ⟨hholds.indexed.skip (by simp [seriesKey?, hsample]), fun sample hmem => ?_,
      fun sample hmem earlier hearlier other hother => ?_⟩
    · obtain ⟨earlier, hearlier, hof⟩ := hholds.sampled sample hmem
      exact ⟨earlier, List.mem_append_left _ hearlier, hof⟩
    · rcases List.mem_append.mp hearlier with hearlier | hearlier
      · exact hholds.tagged sample hmem earlier hearlier other hother
      · rw [List.mem_singleton.mp hearlier, hsample] at hother
        cases hother
  | some sample =>
    rw [hsample] at h
    have hkept : ∀ old new : ProjectedCounter, old.seriesKey = sample.seriesKey →
        replaceSample sample old = .ok new → new.seriesKey = sample.seriesKey := by
      intro old new _ hnew
      rw [(replaceSample_eq_ok.mp hnew).2]
    have hfirst : ∀ new : ProjectedCounter,
        (.ok sample : Except CounterProjectionError _) = .ok new →
        new.seriesKey = sample.seriesKey := by
      rintro new ⟨⟩
      rfl
    have hkey : seriesKey? event = some sample.seriesKey := by
      rw [seriesKey?, hsample, Option.map_some]
    obtain ⟨-, item, -, hwritten, hmem⟩ := upsert_ok hholds.indexed.keyed hkept hfirst h
    have hitem : item = sample := by
      rcases hwritten with ⟨old, -, -, hreplace⟩ | ⟨-, hinsert⟩
      · exact (replaceSample_eq_ok.mp hreplace).2.symm
      · exact (Except.ok.inj hinsert).symm
    subst hitem
    refine ⟨indexed_upsert hholds.indexed hkey hkept hfirst h, fun new hnew => ?_,
      fun new hnew earlier hearlier other hother hidentity => ?_⟩
    · rcases (hmem new).mp hnew with rfl | ⟨hold, -⟩
      · exact ⟨event, by simp, hsample⟩
      · obtain ⟨earlier, hearlier, hof⟩ := hholds.sampled new hold
        exact ⟨earlier, List.mem_append_left _ hearlier, hof⟩
    · rcases (hmem new).mp hnew with rfl | ⟨hold, hne⟩ <;>
        rcases List.mem_append.mp hearlier with hearlier | hearlier
      · exact hcompatible earlier hearlier other hother new hsample hidentity
      · rw [List.mem_singleton.mp hearlier, hsample] at hother
        cases hother
        rfl
      · exact hholds.tagged new hold earlier hearlier other hother hidentity
      · -- The new sample's series is another one.
        rw [List.mem_singleton.mp hearlier, hsample] at hother
        cases hother
        obtain ⟨source, -, hof⟩ := hholds.sampled new hold
        exact absurd ((key_eq_iff hof hsample).mpr hidentity.symm) hne

theorem candidateForEvent_eq_ok (h : Summarises model runId history)
    (hnext : Next runId history event) : candidateForEvent model event = .ok model' ↔
      ∃ series, applySeries model.series event = .ok series ∧
        ⟨model.advance event, series⟩ = model' := by
  unfold candidateForEvent
  rw [mapError_bind_of_ok (validateUntiedPosition_next h.covers hnext), validate_ok h, ok_bind,
    bind_eq_ok]
  simp only [Except.ok.injEq]

/-- **The next event is projected exactly when it is compatible with every earlier one.** -/
theorem candidateForEvent_isOk (h : Summarises model runId history)
    (hnext : Next runId history event) : (∃ model', candidateForEvent model event = .ok model') ↔
      ∀ earlier ∈ history, Compatible earlier event := by
  rw [← applySeries_isOk h.holds]
  simp only [candidateForEvent_eq_ok h hnext]
  rw [exists_comm]
  simp

theorem candidateForEvent_summarises (h : Summarises model runId history)
    (hnext : Next runId history event) (hok : candidateForEvent model event = .ok model') :
    Summarises model' runId (history ++ [event]) := by
  obtain ⟨series, hseries, rfl⟩ := (candidateForEvent_eq_ok h hnext).mp hok
  exact ⟨covers_advance h.covers hnext, applySeries_holds h.holds hseries⟩

end Project

end Counters

end Troupe.Store
