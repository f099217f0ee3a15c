import Troupe.Core.Wire

/-! # Events on the wire

`Serialize` and `Deserialize` of `DiagnosticEvent` (`event.rs`). An event is one object: its `kind`,
the header's fields and the fields of its kind. Reading goes through a JSON value:
`validate_event_fields` first rejects a field the kind does not have, then the derived reader of
`DiagnosticEventWire` picks the struct of the kind, whose checked constructor runs last.

Headline results:
* `deserialize_serialize` — reading the JSON value of an event gives the event.
* `fromSlice_toVec_iff` — reading its bytes does so exactly when no map of a custom event starts with
  the key `serde_json` keeps for numbers.
* `deserialize_unknown`, `deserialize_missing` — a foreign field and a missing one are rejected. -/

namespace Troupe.Core

open Troupe.Lib

/-! ## Kinds -/

namespace DiagnosticEvent

/-- `DiagnosticEvent::kind`. -/
def kind : DiagnosticEvent → DiagnosticEventKind
  | spanStarted _ => .spanStarted
  | spanFinished _ => .spanFinished
  | instantOccurred _ => .instantOccurred
  | counterSampled _ => .counterSampled
  | agentMessageDelta _ => .agentMessageDelta
  | agentMessageCompleted _ => .agentMessageCompleted
  | agentPlanSnapshot _ => .agentPlanSnapshot
  | contextUsageSampled _ => .contextUsageSampled
  | actTokenUsageFinalized _ => .actTokenUsageFinalized
  | observationGap _ => .observationGap
  | customSpanStarted _ => .customSpanStarted
  | customSpanFinished _ => .customSpanFinished
  | customInstantOccurred _ => .customInstantOccurred
  | customCounterSampled _ => .customCounterSampled

end DiagnosticEvent

/-- `COMMON_FIELDS`. -/
def commonFields : List String :=
  ["schema_version", "run_id", "sequence", "elapsed_ns", "scope", "caused_by", "kind"]

/-- `payload_fields` of `validate_event_fields`. -/
def payloadFields : DiagnosticEventKind → List String
  | .spanStarted => ["span_kind", "parent_span_id", "detail"]
  | .spanFinished => ["span_id", "outcome", "error_code"]
  | .instantOccurred => ["instant_kind", "containing_span_id", "detail"]
  | .counterSampled => ["counter_kind", "value"]
  | .agentMessageDelta => ["message_id", "source_message_id", "text_delta"]
  | .agentMessageCompleted => ["message_id", "utf8_bytes", "unicode_scalar_count", "truncated"]
  | .agentPlanSnapshot => ["entries", "truncated"]
  | .contextUsageSampled =>
    ["context_used_tokens", "context_window_tokens", "cumulative_cost_amount",
     "cumulative_cost_currency", "sample_origin", "observed_elapsed_ns"]
  | .actTokenUsageFinalized =>
    ["availability", "source", "unavailable_reason", "provider_total_tokens", "input_tokens",
     "output_tokens", "thought_tokens", "cached_read_tokens", "cached_write_tokens"]
  | .observationGap =>
    ["producer", "component", "reason", "dropped_count", "affected_elapsed", "affected_kind",
     "affected_scope"]
  | .customSpanStarted => ["name", "parent_span_id", "attributes"]
  | .customSpanFinished => ["span_id", "outcome"]
  | .customInstantOccurred => ["name", "containing_span_id", "severity", "attributes"]
  | .customCounterSampled => ["name", "value", "unit", "dimensions"]

/-- The payload fields that are not an `Option`, and so may not be missing. -/
def requiredPayloadFields : DiagnosticEventKind → List String
  | .spanStarted => ["span_kind", "detail"]
  | .spanFinished => ["span_id", "outcome"]
  | .instantOccurred => ["instant_kind", "detail"]
  | .counterSampled => ["counter_kind", "value"]
  | .agentMessageDelta => ["message_id", "text_delta"]
  | .agentMessageCompleted => ["message_id", "utf8_bytes", "unicode_scalar_count", "truncated"]
  | .agentPlanSnapshot => ["entries", "truncated"]
  | .contextUsageSampled => ["sample_origin"]
  | .actTokenUsageFinalized => ["availability"]
  | .observationGap => ["producer", "reason"]
  | .customSpanStarted => ["name", "attributes"]
  | .customSpanFinished => ["span_id", "outcome"]
  | .customInstantOccurred => ["name", "attributes"]
  | .customCounterSampled => ["name", "value", "dimensions"]

/-- The kind a text names. -/
def kindOf (text : String) : Option DiagnosticEventKind :=
  ClosedStringEnum.all.find? fun kind => DiagnosticEventKind.asStr kind == text

theorem kindOf_asStr (kind : DiagnosticEventKind) : kindOf kind.asStr = some kind := by
  cases kind <;> decide +kernel

/-- `validate_event_fields`. -/
def validateEventFields : Json → Except EventValidationError Unit
  | .object fields =>
    match lookup "kind" fields.toList with
    | some (.string text) =>
      match kindOf text with
      | some kind =>
        if fields.toList.any fun entry =>
            !commonFields.contains entry.1 && !(payloadFields kind).contains entry.1 then
          .error ⟨"diagnostic event contains an unknown field"⟩
        else
          .ok ()
      | none => .error ⟨"unknown diagnostic event kind"⟩
    | _ => .error ⟨"diagnostic event kind must be a string"⟩
  | _ => .error ⟨"diagnostic event must be a JSON object"⟩

/-! ## Constructors that check -/

/-- `TryFrom<DiagnosticEventHeaderWire>`. -/
def DiagnosticEventHeader.tryFrom (schemaVersion : Fin 256) (runId : CanonicalUuid)
    (sequence : SchemaU64) (elapsedNs : ElapsedNs) (scope : DiagnosticScope)
    (causedBy : List CausalLink) : Except EventValidationError DiagnosticEventHeader :=
  if schemaVersion.val ≠ eventSchemaVersion then
    .error ⟨"unsupported diagnostic event schema version"⟩
  else
    DiagnosticEventHeader.new runId sequence elapsedNs scope causedBy

/-- `ContextUsageSampled::new`. -/
def ContextUsageSampled.new (header : DiagnosticEventHeader)
    (contextUsedTokens contextWindowTokens : Option SchemaU64)
    (cumulativeCostAmount : Option DecimalString) (cumulativeCostCurrency : Option CurrencyCode)
    (sampleOrigin : ContextSampleOrigin) (observedElapsedNs : Option ElapsedNs) :
    Except EventValidationError ContextUsageSampled :=
  checked _ (ContextUsageSampled.mk header contextUsedTokens contextWindowTokens
    cumulativeCostAmount cumulativeCostCurrency sampleOrigin observedElapsedNs)

/-- `ActTokenUsageFinalized::new`. -/
def ActTokenUsageFinalized.new (header : DiagnosticEventHeader) (availability : UsageAvailability)
    (source : Option UsageSource) (unavailableReason : Option UsageUnavailableReason)
    (providerTotalTokens inputTokens outputTokens thoughtTokens cachedReadTokens
      cachedWriteTokens : Option TokenCount) :
    Except EventValidationError ActTokenUsageFinalized :=
  let tokens : UsageTokens := ⟨providerTotalTokens, inputTokens, outputTokens, thoughtTokens,
    cachedReadTokens, cachedWriteTokens⟩
  if h : usageStateIsValid availability source unavailableReason tokens = true then
    .ok ⟨header, availability, source, unavailableReason, tokens, h⟩
  else
    .error ⟨"terminal usage availability fields are inconsistent"⟩

/-- `CustomSpanStarted::new`. -/
def CustomSpanStarted.new (header : DiagnosticEventHeader) (name : String)
    (parentSpanId : Option SchemaU64) (attributes : DiagnosticAttributes) :
    Except EventValidationError CustomSpanStarted :=
  (checked _ (CustomSpanStarted.mk header name parentSpanId attributes)).mapError .ofDetail

/-- `CustomInstantOccurred::new`. -/
def CustomInstantOccurred.new (header : DiagnosticEventHeader) (name : String)
    (containingSpanId : Option SchemaU64) (severity : Option CustomSeverity)
    (attributes : DiagnosticAttributes) : Except EventValidationError CustomInstantOccurred :=
  (checked _ (CustomInstantOccurred.mk header name containingSpanId severity attributes)).mapError
    .ofDetail

/-- `CustomCounterSampled::new`. -/
def CustomCounterSampled.new (header : DiagnosticEventHeader) (name : String) (value : CustomNumber)
    (unit : Option String) (dimensions : DiagnosticDimensions) :
    Except EventValidationError CustomCounterSampled :=
  (checked _ (CustomCounterSampled.mk header name value unit dimensions)).mapError .ofDetail

/-! ## Fields of the header and of each kind -/

theorem digitsValue_toDigits (n : Nat) : digitsValue (Nat.toDigits 10 n) = n := by
  rw [← Nat.toList_repr]
  exact digitsValue_repr n

/-- `u8` on the wire: a number. -/
def u8Codec : Codec (Fin 256) where
  write value := .nat value.val
  read
    | .number number =>
      if h : number.text.all Char.isDigit = true ∧ digitsValue number.text < 256 then
        some ⟨digitsValue number.text, h.2⟩
      else
        none
    | _ => none
  Clean _ := True
  levels := 0
  read_write value := by
    have hdigits : (Nat.toDigits 10 value.val).all Char.isDigit = true :=
      List.all_eq_true.mpr toDigits_isDigit
    simp only [Json.nat, JsonNumber.ofNat, digitsValue_toDigits, hdigits, value.isLt, and_self,
      dite_true]
  write_ne_null _ := by simp [Json.nat]
  legible _ _ := trivial

section Crates

variable (crates : Crates)

/-- `DiagnosticScope` on the wire. -/
def DiagnosticScope.codec : Codec DiagnosticScope :=
  .record crates.shapes true
    (Fields.start DiagnosticScope DiagnosticScope.mk
      |>.optional "scene_id" (·.sceneId) RunLocalId.codec
      |>.optional "actor_id" (·.actorId) RunLocalId.codec
      |>.optional "cue_id" (·.cueId) RunLocalId.codec
      |>.optional "effect_id" (·.effectId) RunLocalId.codec
      |>.optional "act_id" (·.actId) RunLocalId.codec
      |>.optional "tool_call_id" (·.toolCallId) RunLocalId.codec
      |>.optional "session_generation" (·.sessionGeneration) SchemaU64.codec)

/-- `CausalLink` on the wire. -/
def CausalLink.codec : Codec CausalLink :=
  .record crates.shapes true
    (Fields.start CausalLink CausalLink.mk
      |>.field "source_sequence" (·.sourceSequence) SchemaU64.codec
      |>.field "relation" (·.relation) (closedEnum crates CausalRelation))

/-- `AffectedElapsedInterval` on the wire. -/
def AffectedElapsedInterval.codec : Codec AffectedElapsedInterval :=
  .record crates.shapes true
    (Fields.start AffectedElapsedInterval AffectedElapsedInterval.mk
      |>.field "start_ns" (·.startNs) ElapsedNs.codec
      |>.field "end_ns" (·.endNs) ElapsedNs.codec)

/-- `DiagnosticEventHeader` on the wire, flattened into its event. -/
def DiagnosticEventHeader.fields : Fields DiagnosticEventHeader DiagnosticEventHeader :=
  Fields.start DiagnosticEventHeader DiagnosticEventHeader.tryFrom
    |>.field "schema_version" (fun _ => ⟨eventSchemaVersion, by decide⟩) u8Codec
    |>.field "run_id" (·.runId) (CanonicalUuid.codec crates)
    |>.field "sequence" (·.sequence) SchemaU64.codec
    |>.field "elapsed_ns" (·.elapsedNs) ElapsedNs.codec
    |>.field "scope" (·.scope) (DiagnosticScope.codec crates)
    |>.field "caused_by" (·.causedBy) (CausalLink.codec crates).list
    |>.check fun header => dif_pos header.sequence_pos

/-- `SpanStarted` on the wire. -/
def SpanStarted.fields : Fields SpanStarted SpanStarted :=
  Fields.start SpanStarted SpanStarted.mk
    |>.flatten (·.header) (DiagnosticEventHeader.fields crates)
    |>.flatten (·.detail) (SpanStartDetail.fields crates)
    |>.optional "parent_span_id" (·.parentSpanId) SchemaU64.codec

/-- `SpanFinished` on the wire. -/
def SpanFinished.fields : Fields SpanFinished SpanFinished :=
  Fields.start SpanFinished SpanFinished.mk
    |>.flatten (·.header) (DiagnosticEventHeader.fields crates)
    |>.field "span_id" (·.spanId) SchemaU64.codec
    |>.field "outcome" (·.outcome) (closedEnum crates SpanOutcome)
    |>.optional "error_code" (·.errorCode) .string

/-- `InstantOccurred` on the wire. -/
def InstantOccurred.fields : Fields InstantOccurred InstantOccurred :=
  Fields.start InstantOccurred InstantOccurred.mk
    |>.flatten (·.header) (DiagnosticEventHeader.fields crates)
    |>.flatten (·.detail) (InstantDetail.fields crates)
    |>.optional "containing_span_id" (·.containingSpanId) SchemaU64.codec

/-- `CounterSampled` on the wire. -/
def CounterSampled.fields : Fields CounterSampled CounterSampled :=
  Fields.start CounterSampled CounterSampled.mk
    |>.flatten (·.header) (DiagnosticEventHeader.fields crates)
    |>.field "counter_kind" (·.counterKind) (closedEnum crates CounterKind)
    |>.field "value" (·.value) SchemaU64.codec

/-- `AgentMessageDelta` on the wire. -/
def AgentMessageDelta.fields : Fields AgentMessageDelta AgentMessageDelta :=
  Fields.start AgentMessageDelta AgentMessageDelta.mk
    |>.flatten (·.header) (DiagnosticEventHeader.fields crates)
    |>.field "message_id" (·.messageId) RunLocalId.codec
    |>.optional "source_message_id" (·.sourceMessageId) .string
    |>.field "text_delta" (·.textDelta) .string

/-- `AgentMessageCompleted` on the wire. -/
def AgentMessageCompleted.fields : Fields AgentMessageCompleted AgentMessageCompleted :=
  Fields.start AgentMessageCompleted AgentMessageCompleted.mk
    |>.flatten (·.header) (DiagnosticEventHeader.fields crates)
    |>.field "message_id" (·.messageId) RunLocalId.codec
    |>.field "utf8_bytes" (·.utf8Bytes) SchemaU64.codec
    |>.field "unicode_scalar_count" (·.unicodeScalarCount) SchemaU64.codec
    |>.field "truncated" (·.truncated) .bool

/-- `AgentPlanSnapshot` on the wire. -/
def AgentPlanSnapshot.fields : Fields AgentPlanSnapshot AgentPlanSnapshot :=
  Fields.start AgentPlanSnapshot AgentPlanSnapshot.mk
    |>.flatten (·.header) (DiagnosticEventHeader.fields crates)
    |>.field "entries" (·.entries) (PlanEntry.codec crates).list
    |>.field "truncated" (·.truncated) .bool

/-- `ContextUsageSampled` on the wire. -/
def ContextUsageSampled.fields : Fields ContextUsageSampled ContextUsageSampled :=
  Fields.start ContextUsageSampled ContextUsageSampled.new
    |>.flatten (·.header) (DiagnosticEventHeader.fields crates)
    |>.optional "context_used_tokens" (·.contextUsedTokens) SchemaU64.codec
    |>.optional "context_window_tokens" (·.contextWindowTokens) SchemaU64.codec
    |>.optional "cumulative_cost_amount" (·.cumulativeCostAmount) DecimalString.codec
    |>.optional "cumulative_cost_currency" (·.cumulativeCostCurrency) CurrencyCode.codec
    |>.field "sample_origin" (·.sampleOrigin) (closedEnum crates ContextSampleOrigin)
    |>.optional "observed_elapsed_ns" (·.observedElapsedNs) ElapsedNs.codec
    |>.check fun event => checked_ok event.valid

/-- `ActTokenUsageFinalized` on the wire. -/
def ActTokenUsageFinalized.fields : Fields ActTokenUsageFinalized ActTokenUsageFinalized :=
  Fields.start ActTokenUsageFinalized ActTokenUsageFinalized.new
    |>.flatten (·.header) (DiagnosticEventHeader.fields crates)
    |>.field "availability" (·.availability) (closedEnum crates UsageAvailability)
    |>.optional "source" (·.source) (closedEnum crates UsageSource)
    |>.optional "unavailable_reason" (·.unavailableReason) (closedEnum crates UsageUnavailableReason)
    |>.optional "provider_total_tokens" (·.tokens.providerTotalTokens) TokenCount.codec
    |>.optional "input_tokens" (·.tokens.inputTokens) TokenCount.codec
    |>.optional "output_tokens" (·.tokens.outputTokens) TokenCount.codec
    |>.optional "thought_tokens" (·.tokens.thoughtTokens) TokenCount.codec
    |>.optional "cached_read_tokens" (·.tokens.cachedReadTokens) TokenCount.codec
    |>.optional "cached_write_tokens" (·.tokens.cachedWriteTokens) TokenCount.codec
    |>.check fun event => dif_pos event.valid

/-- `ObservationGap` on the wire. -/
def ObservationGap.fields : Fields ObservationGap ObservationGap :=
  Fields.start ObservationGap ObservationGap.mk
    |>.flatten (·.header) (DiagnosticEventHeader.fields crates)
    |>.field "producer" (·.producer) .string
    |>.optional "component" (·.component) .string
    |>.field "reason" (·.reason) .string
    |>.optional "dropped_count" (·.droppedCount) SchemaU64.codec
    |>.optional "affected_elapsed" (·.affectedElapsed) (AffectedElapsedInterval.codec crates)
    |>.optional "affected_kind" (·.affectedKind) (closedEnum crates DiagnosticEventKind)
    |>.optional "affected_scope" (·.affectedScope) (DiagnosticScope.codec crates)

/-- `CustomSpanStarted` on the wire. -/
def CustomSpanStarted.fields : Fields CustomSpanStarted CustomSpanStarted :=
  Fields.start CustomSpanStarted CustomSpanStarted.new
    |>.flatten (·.header) (DiagnosticEventHeader.fields crates)
    |>.field "name" (·.name) .string
    |>.optional "parent_span_id" (·.parentSpanId) SchemaU64.codec
    |>.field "attributes" (·.attributes) (DiagnosticAttributeValue.codec crates).map
    |>.check fun event => mapError_eq_ok.mpr (checked_ok event.valid)

/-- `CustomSpanFinished` on the wire. -/
def CustomSpanFinished.fields : Fields CustomSpanFinished CustomSpanFinished :=
  Fields.start CustomSpanFinished CustomSpanFinished.mk
    |>.flatten (·.header) (DiagnosticEventHeader.fields crates)
    |>.field "span_id" (·.spanId) SchemaU64.codec
    |>.field "outcome" (·.outcome) (closedEnum crates SpanOutcome)

/-- `CustomInstantOccurred` on the wire. -/
def CustomInstantOccurred.fields : Fields CustomInstantOccurred CustomInstantOccurred :=
  Fields.start CustomInstantOccurred CustomInstantOccurred.new
    |>.flatten (·.header) (DiagnosticEventHeader.fields crates)
    |>.field "name" (·.name) .string
    |>.optional "containing_span_id" (·.containingSpanId) SchemaU64.codec
    |>.optional "severity" (·.severity) (closedEnum crates CustomSeverity)
    |>.field "attributes" (·.attributes) (DiagnosticAttributeValue.codec crates).map
    |>.check fun event => mapError_eq_ok.mpr (checked_ok event.valid)

/-- `CustomCounterSampled` on the wire. -/
def CustomCounterSampled.fields : Fields CustomCounterSampled CustomCounterSampled :=
  Fields.start CustomCounterSampled CustomCounterSampled.new
    |>.flatten (·.header) (DiagnosticEventHeader.fields crates)
    |>.field "name" (·.name) .string
    |>.field "value" (·.value) (CustomNumber.codec crates)
    |>.optional "unit" (·.unit) .string
    |>.field "dimensions" (·.dimensions) (DiagnosticDimension.codec crates).map
    |>.check fun event => mapError_eq_ok.mpr (checked_ok event.valid)

/-! ## Events -/

/-- A variant of `DiagnosticEventWire`: a struct, its fields and the event it makes. -/
structure EventVariant where
  Payload : Type
  fields : Fields Payload Payload
  make : Payload → DiagnosticEvent

/-- The variants of `DiagnosticEventWire`. -/
def eventVariant : DiagnosticEventKind → EventVariant
  | .spanStarted => ⟨SpanStarted, SpanStarted.fields crates, .spanStarted⟩
  | .spanFinished => ⟨SpanFinished, SpanFinished.fields crates, .spanFinished⟩
  | .instantOccurred => ⟨InstantOccurred, InstantOccurred.fields crates, .instantOccurred⟩
  | .counterSampled => ⟨CounterSampled, CounterSampled.fields crates, .counterSampled⟩
  | .agentMessageDelta => ⟨AgentMessageDelta, AgentMessageDelta.fields crates, .agentMessageDelta⟩
  | .agentMessageCompleted =>
    ⟨AgentMessageCompleted, AgentMessageCompleted.fields crates, .agentMessageCompleted⟩
  | .agentPlanSnapshot => ⟨AgentPlanSnapshot, AgentPlanSnapshot.fields crates, .agentPlanSnapshot⟩
  | .contextUsageSampled =>
    ⟨ContextUsageSampled, ContextUsageSampled.fields crates, .contextUsageSampled⟩
  | .actTokenUsageFinalized =>
    ⟨ActTokenUsageFinalized, ActTokenUsageFinalized.fields crates, .actTokenUsageFinalized⟩
  | .observationGap => ⟨ObservationGap, ObservationGap.fields crates, .observationGap⟩
  | .customSpanStarted => ⟨CustomSpanStarted, CustomSpanStarted.fields crates, .customSpanStarted⟩
  | .customSpanFinished =>
    ⟨CustomSpanFinished, CustomSpanFinished.fields crates, .customSpanFinished⟩
  | .customInstantOccurred =>
    ⟨CustomInstantOccurred, CustomInstantOccurred.fields crates, .customInstantOccurred⟩
  | .customCounterSampled =>
    ⟨CustomCounterSampled, CustomCounterSampled.fields crates, .customCounterSampled⟩

/-- The struct inside an event. -/
def DiagnosticEvent.payload : (event : DiagnosticEvent) → (eventVariant crates event.kind).Payload
  | .spanStarted event => event
  | .spanFinished event => event
  | .instantOccurred event => event
  | .counterSampled event => event
  | .agentMessageDelta event => event
  | .agentMessageCompleted event => event
  | .agentPlanSnapshot event => event
  | .contextUsageSampled event => event
  | .actTokenUsageFinalized event => event
  | .observationGap event => event
  | .customSpanStarted event => event
  | .customSpanFinished event => event
  | .customInstantOccurred event => event
  | .customCounterSampled event => event

/-- The fields of an event, with its `kind`. -/
def DiagnosticEvent.entries (event : DiagnosticEvent) : List (String × Json) :=
  ("kind", .string event.kind.asStr) ::
    (eventVariant crates event.kind).fields.write (event.payload crates)

/-- `Serialize for DiagnosticEvent`. -/
def DiagnosticEvent.serialize (event : DiagnosticEvent) : Json :=
  .object (.ofList (event.entries crates))

/-- `serde_json::from_value::<DiagnosticEventWire>`. -/
def eventFromValue : Json → Option DiagnosticEvent
  | .object fields =>
    match lookup "kind" fields.toList with
    | some (.string text) => do
      let kind ← kindOf text
      let payload ← (eventVariant crates kind).fields.read (lookup · fields.toList)
      some ((eventVariant crates kind).make payload)
    | _ => none
  | _ => none

/-- Why an event is not read. -/
inductive DecodeError where
  /-- `validate_event_fields` refused. -/
  | fields (error : EventValidationError)
  /-- The derived reader refused. -/
  | value
  /-- The bytes are not JSON that `serde_json` reads. -/
  | json
deriving DecidableEq

/-- `Deserialize for DiagnosticEvent`, from a JSON value. -/
def DiagnosticEvent.deserialize (value : Json) : Except DecodeError DiagnosticEvent := do
  (validateEventFields value).mapError .fields
  match eventFromValue crates value with
  | some event => .ok event
  | none => .error .value

/-- `serde_json::to_vec`. -/
def DiagnosticEvent.toVec (event : DiagnosticEvent) : List UInt8 := (event.serialize crates).toVec

/-- `serde_json::from_slice::<DiagnosticEvent>`. -/
def DiagnosticEvent.fromSlice (bytes : List UInt8) : Except DecodeError DiagnosticEvent :=
  match crates.fromSlice bytes with
  | some value => deserialize crates value
  | none => .error .json

/-! ## What holds of every kind -/

theorem make_payload (event : DiagnosticEvent) :
    (eventVariant crates event.kind).make (event.payload crates) = event := by
  cases event <;> rfl

theorem eventVariant_value (kind : DiagnosticEventKind) (payload : (eventVariant crates kind).Payload) :
    (eventVariant crates kind).fields.value payload = payload := by
  cases kind <;> rfl

/-- The header's fields, as written. -/
def headerFields : List String :=
  ["schema_version", "run_id", "sequence", "elapsed_ns", "scope", "caused_by"]

/-- The payload fields of a kind, as written: a flattened detail comes before the rest. -/
def writtenFields : DiagnosticEventKind → List String
  | .spanStarted => ["span_kind", "detail", "parent_span_id"]
  | .instantOccurred => ["instant_kind", "detail", "containing_span_id"]
  | kind => payloadFields kind

theorem eventVariant_names (kind : DiagnosticEventKind) :
    (eventVariant crates kind).fields.names = headerFields ++ writtenFields kind := by
  cases kind <;> rfl

theorem eventVariant_required (kind : DiagnosticEventKind) :
    (eventVariant crates kind).fields.required = headerFields ++ requiredPayloadFields kind := by
  cases kind <;> rfl

/-- The fields of an event are distinct, and `validate_event_fields` knows them. -/
theorem writtenFields_ok (kind : DiagnosticEventKind) :
    ("kind" :: (headerFields ++ writtenFields kind)).Nodup ∧
      ∀ name ∈ headerFields ++ writtenFields kind,
        name ∈ commonFields ∨ name ∈ payloadFields kind := by
  cases kind <;> decide +kernel

theorem eventVariant_levels (kind : DiagnosticEventKind) :
    (eventVariant crates kind).fields.levels ≤ 126 := by
  cases kind <;> exact Nat.le_of_ble_eq_true rfl

theorem entries_names (event : DiagnosticEvent) :
    (event.entries crates).map Prod.fst =
      "kind" :: (headerFields ++ writtenFields event.kind) := by
  rw [DiagnosticEvent.entries, List.map_cons, (eventVariant crates event.kind).fields.keys,
    eventVariant_names]

theorem lookup_entries {event : DiagnosticEvent} {entry : String × Json}
    (h : entry ∈ event.entries crates) :
    lookup entry.1 (event.entries crates) = some entry.2 :=
  lookup_of_mem (by rw [entries_names]; exact (writtenFields_ok event.kind).1) h

theorem lookup_kind (event : DiagnosticEvent) :
    lookup "kind" (event.entries crates) = some (.string event.kind.asStr) :=
  @lookup_entries crates event ("kind", _) List.mem_cons_self

/-! ## Reading back -/

theorem validateEventFields_serialize (event : DiagnosticEvent) :
    validateEventFields (event.serialize crates) = .ok () := by
  have hknown : (event.entries crates).any (fun entry =>
      !commonFields.contains entry.1 && !(payloadFields event.kind).contains entry.1) = false := by
    rw [List.any_eq_false]
    intro entry hentry
    have hname : entry.1 ∈ "kind" :: (headerFields ++ writtenFields event.kind) := by
      rw [← entries_names crates]
      exact List.mem_map_of_mem hentry
    rcases List.mem_cons.mp hname with hkind | hname
    · simp [hkind, commonFields]
    · rcases (writtenFields_ok event.kind).2 _ hname with h | h <;> simp [h]
  unfold DiagnosticEvent.serialize validateEventFields
  simp only [JsonFields.toList_ofList, lookup_kind, kindOf_asStr, hknown, Bool.false_eq_true,
    if_false]

/-- **Reading the JSON value of an event gives the event.** -/
theorem deserialize_serialize (event : DiagnosticEvent) :
    DiagnosticEvent.deserialize crates (event.serialize crates) = .ok event := by
  have hread := (eventVariant crates event.kind).fields.read_write (event.payload crates)
    (lookup · (event.entries crates)) fun entry hentry =>
      lookup_entries crates (List.mem_cons_of_mem _ hentry)
  have hevent : eventFromValue crates (event.serialize crates) = some event := by
    unfold DiagnosticEvent.serialize eventFromValue
    simp only [JsonFields.toList_ofList, lookup_kind, kindOf_asStr, hread, Option.bind_eq_bind,
      Option.bind_some, eventVariant_value, make_payload]
  unfold DiagnosticEvent.deserialize
  rw [validateEventFields_serialize, hevent]
  rfl

/-! ## What is rejected -/

theorem deserialize_invalid {value : Json} {error : EventValidationError}
    (h : validateEventFields value = .error error) :
    DiagnosticEvent.deserialize crates value = .error (.fields error) := by
  unfold DiagnosticEvent.deserialize
  rw [h]
  rfl

/-- **A field that neither every event nor the kind has is rejected.** -/
theorem deserialize_unknown {fields : JsonFields} {text : String} {kind : DiagnosticEventKind}
    (hkind : lookup "kind" fields.toList = some (.string text)) (hknown : kindOf text = some kind)
    {name : String} {value : Json} (hentry : (name, value) ∈ fields.toList)
    (hname : name ∉ commonFields ∧ name ∉ payloadFields kind) :
    DiagnosticEvent.deserialize crates (.object fields) =
      .error (.fields ⟨"diagnostic event contains an unknown field"⟩) := by
  have hany : fields.toList.any (fun entry =>
      !commonFields.contains entry.1 && !(payloadFields kind).contains entry.1) = true := by
    rw [List.any_eq_true]
    exact ⟨(name, value), hentry, by simp [hname]⟩
  apply deserialize_invalid
  unfold validateEventFields
  simp only [hkind, hknown, hany, if_true]

/-- **A missing field that is not an `Option` is rejected.** -/
theorem deserialize_missing {fields : JsonFields} {text : String} {kind : DiagnosticEventKind}
    (hkind : lookup "kind" fields.toList = some (.string text)) (hknown : kindOf text = some kind)
    {name : String} (hname : name ∈ headerFields ∨ name ∈ requiredPayloadFields kind)
    (hmissing : lookup name fields.toList = none) :
    ∃ error, DiagnosticEvent.deserialize crates (.object fields) = .error error := by
  have hread : (eventVariant crates kind).fields.read (lookup · fields.toList) = none := by
    refine (eventVariant crates kind).fields.missing _ name ?_ hmissing
    rw [eventVariant_required]
    exact List.mem_append.mpr hname
  have hevent : eventFromValue crates (.object fields) = none := by
    unfold eventFromValue
    simp only [hkind, hknown, hread, Option.bind_eq_bind, Option.bind_some, Option.bind_none]
  unfold DiagnosticEvent.deserialize
  rw [hevent]
  cases (validateEventFields (.object fields)).mapError DecodeError.fields with
  | error error => exact ⟨error, rfl⟩
  | ok _ => exact ⟨.value, rfl⟩

/-- Without a `kind`, or with one that is no kind's name, nothing is read. -/
theorem deserialize_no_kind {fields : JsonFields}
    (h : ∀ text kind, lookup "kind" fields.toList = some (.string text) → kindOf text ≠ some kind) :
    ∃ error, DiagnosticEvent.deserialize crates (.object fields) = .error error := by
  have hinvalid : ∃ error, validateEventFields (.object fields) = .error error := by
    unfold validateEventFields
    cases hlookup : lookup "kind" fields.toList with
    | none => simp only [hlookup]; exact ⟨_, rfl⟩
    | some value =>
      simp only [hlookup]
      cases value with
      | string text =>
        have hnone : kindOf text = none :=
          Option.eq_none_iff_forall_ne_some.mpr fun kind => h text kind hlookup
        simp only [hnone]
        exact ⟨_, rfl⟩
      | null | bool | number | array | object => exact ⟨_, rfl⟩
  obtain ⟨error, herror⟩ := hinvalid
  exact ⟨_, deserialize_invalid crates herror⟩

/-! ## Bytes -/

/-- The keys of the map a custom event holds, in order. -/
def DiagnosticEvent.customKeys : DiagnosticEvent → List String
  | customSpanStarted event => event.attributes.keys
  | customInstantOccurred event => event.attributes.keys
  | customCounterSampled event => event.dimensions.keys
  | _ => []

theorem clean_header (header : DiagnosticEventHeader) :
    (DiagnosticEventHeader.fields crates).Clean header := by
  simp only [DiagnosticEventHeader.fields, u8Codec, CanonicalUuid.codec, SchemaU64.codec,
    ElapsedNs.codec, DiagnosticScope.codec, RunLocalId.codec, CausalLink.codec, closedEnum,
    Codec.clean_check, Codec.clean_field, Codec.clean_start, and_self, Codec.clean_text,
    Codec.clean_record, Codec.clean_optional, implies_true, Codec.clean_list, Codec.clean_variants]

theorem clean_scope (scope : DiagnosticScope) : (DiagnosticScope.codec crates).Clean scope := by
  simp [DiagnosticScope.codec, SchemaU64.codec, RunLocalId.codec]

theorem clean_entry (entry : PlanEntry) : (PlanEntry.codec crates).Clean entry := by
  simp [PlanEntry.codec, closedEnum]

theorem clean_interval (interval : AffectedElapsedInterval) :
    (AffectedElapsedInterval.codec crates).Clean interval := by
  simp [AffectedElapsedInterval.codec, ElapsedNs.codec]

/-- Only the map of a custom event can start with the key for numbers. -/
theorem clean_iff (event : DiagnosticEvent) :
    (eventVariant crates event.kind).fields.Clean (event.payload crates) ↔
      event.customKeys.head? ≠ some numberToken := by
  have hnone : ([] : List String).head? ≠ some numberToken := nofun
  have hheader := clean_header crates event.header
  cases event with
  | spanStarted event => exact iff_of_true ⟨⟨⟨trivial, hheader⟩, trivial⟩, fun _ _ => trivial⟩ hnone
  | spanFinished event =>
    exact iff_of_true ⟨⟨⟨⟨trivial, hheader⟩, trivial⟩, trivial⟩, fun _ _ => trivial⟩ hnone
  | instantOccurred event =>
    exact iff_of_true ⟨⟨⟨trivial, hheader⟩, trivial⟩, fun _ _ => trivial⟩ hnone
  | counterSampled event => exact iff_of_true ⟨⟨⟨trivial, hheader⟩, trivial⟩, trivial⟩ hnone
  | agentMessageDelta event =>
    exact iff_of_true ⟨⟨⟨⟨trivial, hheader⟩, trivial⟩, fun _ _ => trivial⟩, trivial⟩ hnone
  | agentMessageCompleted event =>
    exact iff_of_true ⟨⟨⟨⟨⟨trivial, hheader⟩, trivial⟩, trivial⟩, trivial⟩, trivial⟩ hnone
  | agentPlanSnapshot event =>
    exact iff_of_true ⟨⟨⟨trivial, hheader⟩, fun entry _ => clean_entry crates entry⟩, trivial⟩ hnone
  | contextUsageSampled event =>
    exact iff_of_true ⟨⟨⟨⟨⟨⟨⟨trivial, hheader⟩, fun _ _ => trivial⟩, fun _ _ => trivial⟩,
      fun _ _ => trivial⟩, fun _ _ => trivial⟩, trivial⟩, fun _ _ => trivial⟩ hnone
  | actTokenUsageFinalized event =>
    exact iff_of_true ⟨⟨⟨⟨⟨⟨⟨⟨⟨⟨trivial, hheader⟩, trivial⟩, fun _ _ => trivial⟩,
      fun _ _ => trivial⟩, fun _ _ => trivial⟩, fun _ _ => trivial⟩, fun _ _ => trivial⟩,
      fun _ _ => trivial⟩, fun _ _ => trivial⟩, fun _ _ => trivial⟩ hnone
  | observationGap event =>
    exact iff_of_true ⟨⟨⟨⟨⟨⟨⟨⟨trivial, hheader⟩, trivial⟩, fun _ _ => trivial⟩, trivial⟩,
      fun _ _ => trivial⟩, fun interval _ => clean_interval crates interval⟩, fun _ _ => trivial⟩,
      fun scope _ => clean_scope crates scope⟩ hnone
  | customSpanStarted event =>
    exact ⟨fun h => h.2.1, fun h =>
      ⟨⟨⟨⟨trivial, hheader⟩, trivial⟩, fun _ _ => trivial⟩, h, fun _ _ => trivial⟩⟩
  | customSpanFinished event =>
    exact iff_of_true ⟨⟨⟨trivial, hheader⟩, trivial⟩, trivial⟩ hnone
  | customInstantOccurred event =>
    exact ⟨fun h => h.2.1, fun h =>
      ⟨⟨⟨⟨⟨trivial, hheader⟩, trivial⟩, fun _ _ => trivial⟩, fun _ _ => trivial⟩, h,
        fun _ _ => trivial⟩⟩
  | customCounterSampled event =>
    exact ⟨fun h => h.2.1, fun h =>
      ⟨⟨⟨⟨⟨trivial, hheader⟩, trivial⟩, trivial⟩, fun _ _ => trivial⟩, h, fun _ _ => trivial⟩⟩

theorem legible_serialize {event : DiagnosticEvent}
    (h : event.customKeys.head? ≠ some numberToken) : (event.serialize crates).Legible 127 := by
  refine Json.legible_object.mpr
    ⟨?_, List.forall_mem_cons.mpr ⟨trivial, fun entry hentry => ?_⟩, ?_⟩
  · rw [entries_names]
    simp [numberToken]
  · exact ((eventVariant crates event.kind).fields.legible _ ((clean_iff crates event).mpr h) entry
      hentry).mono (eventVariant_levels crates event.kind)
  · rw [entries_names]
    exact (writtenFields_ok event.kind).1

/-- The map of a custom event that starts with the key for numbers is misread. -/
theorem misread_serialize (event : DiagnosticEvent)
    (h : event.customKeys.head? = some numberToken) : (event.serialize crates).Misread := by
  refine Json.misread_object.mpr (Or.inr ?_)
  have hvalue : ∀ value text, (DiagnosticAttributeValue.codec crates).write value ≠ .string text :=
    fun _ _ => by simp [DiagnosticAttributeValue.codec, Codec.tagged]
  have hdimension : ∀ value text, (DiagnosticDimension.codec crates).write value ≠ .string text :=
    fun _ _ => by simp [DiagnosticDimension.codec, Codec.tagged]
  cases event with
  | customSpanStarted event =>
    exact ⟨("attributes", _), List.mem_cons_of_mem _ (List.mem_append_right _ List.mem_cons_self),
      Codec.misread_map hvalue h⟩
  | customInstantOccurred event =>
    exact ⟨("attributes", _), List.mem_cons_of_mem _ (List.mem_append_right _ List.mem_cons_self),
      Codec.misread_map hvalue h⟩
  | customCounterSampled event =>
    exact ⟨("dimensions", _), List.mem_cons_of_mem _ (List.mem_append_right _ List.mem_cons_self),
      Codec.misread_map hdimension h⟩
  | spanStarted | spanFinished | instantOccurred | counterSampled | agentMessageDelta
  | agentMessageCompleted | agentPlanSnapshot | contextUsageSampled | actTokenUsageFinalized
  | observationGap | customSpanFinished => cases h

/-- **The bytes of an event read back exactly when its map does not start with the key for
numbers.** -/
theorem fromSlice_toVec_iff (event : DiagnosticEvent) :
    DiagnosticEvent.fromSlice crates (event.toVec crates) = .ok event ↔
      event.customKeys.head? ≠ some numberToken := by
  unfold DiagnosticEvent.fromSlice DiagnosticEvent.toVec
  constructor
  · intro hread hkey
    rw [crates.fromSlice_misread _ (misread_serialize crates event hkey)] at hread
    cases hread
  · intro hkey
    rw [crates.fromSlice_legible _ (legible_serialize crates hkey)]
    exact deserialize_serialize crates event

/-- What an accepted object has: a kind, no foreign field and no missing one. -/
theorem deserialize_accepted {fields : JsonFields} {event : DiagnosticEvent}
    (h : DiagnosticEvent.deserialize crates (.object fields) = .ok event) :
    ∃ text kind, lookup "kind" fields.toList = some (.string text) ∧ kindOf text = some kind ∧
      (∀ entry ∈ fields.toList, entry.1 ∈ commonFields ∨ entry.1 ∈ payloadFields kind) ∧
      ∀ name ∈ headerFields ++ requiredPayloadFields kind, lookup name fields.toList ≠ none := by
  by_cases hkind : ∃ text kind, lookup "kind" fields.toList = some (.string text) ∧
      kindOf text = some kind
  · obtain ⟨text, kind, htext, hknown⟩ := hkind
    refine ⟨text, kind, htext, hknown, fun entry hentry => ?_, fun name hname hmissing => ?_⟩
    · by_contra hforeign
      rw [not_or] at hforeign
      rw [deserialize_unknown crates htext hknown hentry hforeign] at h
      cases h
    · obtain ⟨error, herror⟩ := deserialize_missing crates htext hknown (List.mem_append.mp hname)
        hmissing
      rw [herror] at h
      cases h
  · have hnone : ∀ text kind, lookup "kind" fields.toList = some (.string text) →
        kindOf text ≠ some kind := fun text kind htext hknown => hkind ⟨text, kind, htext, hknown⟩
    obtain ⟨error, herror⟩ := deserialize_no_kind crates hnone
    rw [herror] at h
    cases h

/-- **An event goes over the wire and back.** Its bytes are read as the event, and written again as
the same bytes, exactly when the map of a custom event does not start with the key `serde_json` keeps
for numbers. The same holds of any event that was read. What is accepted has a known kind, no field
that is not the kind's, and every field that is not an `Option`. -/
theorem event_wire_round_trip :
    (∀ event : DiagnosticEvent,
      (DiagnosticEvent.fromSlice crates (event.toVec crates) = .ok event ∧
        ∀ again, DiagnosticEvent.fromSlice crates (event.toVec crates) = .ok again →
          again.toVec crates = event.toVec crates) ↔ event.customKeys.head? ≠ some numberToken) ∧
    (∀ bytes event, DiagnosticEvent.fromSlice crates bytes = .ok event →
      (DiagnosticEvent.fromSlice crates (event.toVec crates) = .ok event ↔
        event.customKeys.head? ≠ some numberToken)) ∧
    ∀ fields event, DiagnosticEvent.deserialize crates (.object fields) = .ok event →
      ∃ text kind, lookup "kind" fields.toList = some (.string text) ∧ kindOf text = some kind ∧
        (∀ entry ∈ fields.toList, entry.1 ∈ commonFields ∨ entry.1 ∈ payloadFields kind) ∧
        ∀ name ∈ headerFields ++ requiredPayloadFields kind, lookup name fields.toList ≠ none := by
  refine ⟨fun event => ⟨fun h => (fromSlice_toVec_iff crates event).mp h.1, fun hkey => ?_⟩,
    fun _ event _ => fromSlice_toVec_iff crates event, fun _ _ h => deserialize_accepted crates h⟩
  have hread := (fromSlice_toVec_iff crates event).mpr hkey
  refine ⟨hread, fun again hagain => ?_⟩
  rw [hread] at hagain
  rw [Except.ok.inj hagain]

end Crates

/-! ## A reader

Crates that behave as documented: the UUID parser reads hyphenated texts and `serde_json` the texts of
its own values. -/

/-- The value of a hexadecimal digit. -/
def hexValue (c : Char) : Nat :=
  if c.toNat < 'a'.toNat then c.toNat - '0'.toNat else c.toNat - 'a'.toNat + 10

theorem hexValue_hexDigit {n : Nat} (h : n < 16) : hexValue (Json.hexDigit n) = n := by
  interval_cases n <;> rfl

/-- The number some hexadecimal digits denote. -/
def hexNumber (digits : List Char) : Nat :=
  digits.foldl (fun total c => 16 * total + hexValue c) 0

/-- The digits of a number, most significant first, denote it. -/
theorem hexNumber_digits (n count : Nat) :
    hexNumber ((List.range count).map fun i => Json.hexDigit (n / 16 ^ (count - 1 - i) % 16)) =
      n % 16 ^ count := by
  induction count generalizing n with
  | zero => simp [hexNumber, Nat.mod_one]
  | succ count ih =>
    have hshift : (List.range count).map (fun i => Json.hexDigit (n / 16 ^ (count + 1 - 1 - i) % 16)) =
        (List.range count).map fun i => Json.hexDigit (n / 16 / 16 ^ (count - 1 - i) % 16) := by
      refine List.map_congr_left fun i hi => ?_
      have hlt : i < count := List.mem_range.mp hi
      rw [Nat.div_div_eq_div_mul, ← Nat.pow_succ', show count + 1 - 1 - i = count - 1 - i + 1 by omega]
    have hih := ih (n / 16)
    unfold hexNumber at hih ⊢
    rw [List.range_succ, List.map_append, hshift, List.foldl_append, hih]
    simp only [List.map_cons, List.map_nil, List.foldl_cons, List.foldl_nil, Nat.add_sub_cancel,
      Nat.sub_self, Nat.pow_zero, Nat.div_one, hexValue_hexDigit (Nat.mod_lt n (by decide : 16 > 0))]
    rw [Nat.pow_succ', Nat.mod_mul, Nat.add_comm]

/-- Read a hyphenated UUID. -/
def parseHyphenated (text : String) : Option (BitVec 128) :=
  some (BitVec.ofNat 128 (hexNumber (text.toList.filter (· != '-'))))

theorem hexDigit_ne_hyphen {n : Nat} (h : n < 16) : (Json.hexDigit n != '-') = true := by
  interval_cases n <;> decide

theorem parseHyphenated_display (uuid : CanonicalUuid) :
    parseHyphenated (displayUuid uuid) = some uuid.bits := by
  generalize hdigits : (List.range 32).map (fun i =>
    Json.hexDigit (uuid.bits.toNat / 16 ^ (31 - i) % 16)) = digits
  have hplain : ∀ c ∈ digits, (c != '-') = true := by
    rw [← hdigits]
    intro c hc
    obtain ⟨i, -, rfl⟩ := List.mem_map.mp hc
    exact hexDigit_ne_hyphen (Nat.mod_lt _ (by decide))
  have hkeep : ∀ part : List Char, part ⊆ digits → part.filter (· != '-') = part := fun part hpart =>
    List.filter_eq_self.mpr fun c hc => hplain c (hpart hc)
  have hfilter : (displayUuid uuid).toList.filter (· != '-') = digits := by
    have hsplit : digits.take 8 ++ ((digits.drop 8).take 4 ++ ((digits.drop 12).take 4 ++
        ((digits.drop 16).take 4 ++ digits.drop 20))) = digits := by
      rw [show digits.drop 20 = (digits.drop 16).drop 4 by rw [List.drop_drop],
        List.take_append_drop, show digits.drop 16 = (digits.drop 12).drop 4 by rw [List.drop_drop],
        List.take_append_drop, show digits.drop 12 = (digits.drop 8).drop 4 by rw [List.drop_drop],
        List.take_append_drop, List.take_append_drop]
    unfold displayUuid
    simp only [hdigits, String.toList_ofList, List.filter_append, List.filter_cons, bne_self_eq_false,
      Bool.false_eq_true, if_false, List.append_assoc]
    rw [hkeep _ (List.take_subset _ _),
      hkeep _ (List.Subset.trans (List.take_subset _ _) (List.drop_subset _ _)),
      hkeep _ (List.Subset.trans (List.take_subset _ _) (List.drop_subset _ _)),
      hkeep _ (List.Subset.trans (List.take_subset _ _) (List.drop_subset _ _)),
      hkeep _ (List.drop_subset _ _)]
    exact hsplit
  unfold parseHyphenated
  rw [hfilter, ← hdigits, hexNumber_digits uuid.bits.toNat 32]
  refine congrArg some (BitVec.eq_of_toNat_eq ?_)
  have hlt := uuid.bits.isLt
  rw [BitVec.toNat_ofNat, show (16 : Nat) ^ 32 = 2 ^ 128 by decide, Nat.mod_mod]
  exact Nat.mod_eq_of_lt hlt

open Classical in
/-- A reader that finds the value a text was written from, unless it is misread. -/
noncomputable def readWritten (bytes : List UInt8) : Option Json :=
  if h : ∃ value : Json, value.toVec = bytes ∧ ¬value.Misread then some h.choose else none

theorem readWritten_legible (value : Json) (h : value.Legible 127) :
    readWritten value.toVec = some value := by
  have hexists : ∃ other : Json, other.toVec = value.toVec ∧ ¬other.Misread :=
    ⟨value, rfl, h.not_misread⟩
  unfold readWritten
  rw [dif_pos hexists, Json.toVec_injective hexists.choose_spec.1]

theorem readWritten_misread (value : Json) (h : value.Misread) :
    readWritten value.toVec = none := by
  unfold readWritten
  rw [dif_neg]
  rintro ⟨other, hbytes, hother⟩
  rw [Json.toVec_injective hbytes] at hother
  exact hother h

/-- Crates that read what they wrote and nothing else. -/
noncomputable def plainCrates : Crates where
  shapes := ⟨fun _ _ => none, fun _ _ => none, fun _ => false⟩
  parseStr := parseHyphenated
  parseStr_display := parseHyphenated_display
  fromSlice := readWritten
  fromSlice_legible := readWritten_legible
  fromSlice_misread := readWritten_misread

/-- One attribute without a value. -/
def nullAttribute (key : String) : DiagnosticAttributes :=
  .ofList [(key, DiagnosticAttributeValue.null)]

/-- A custom instant with one attribute. -/
def customInstant (key : String)
    (h : validateNamedAttributes "app.started" (nullAttribute key) = .ok ()) : DiagnosticEvent :=
  .customInstantOccurred
    { header := .at 1 0 [] SchemaU64.one_pos
      name := "app.started"
      containingSpanId := none
      severity := none
      attributes := nullAttribute key
      valid := h }

/-- An event without such a map comes back from its bytes. -/
theorem event_wire_round_trip_attribute :
    DiagnosticEvent.fromSlice plainCrates
        ((customInstant "port" (by decide +kernel)).toVec plainCrates) =
      .ok (customInstant "port" (by decide +kernel)) :=
  (((event_wire_round_trip plainCrates).1 (customInstant "port" (by decide +kernel))).mpr
    (by decide +kernel)).1

/-- The attribute key `$serde_json::private::Number` passes every check of the constructor, and makes
an event whose bytes are not read. -/
theorem number_key_unreadable :
    DiagnosticEvent.fromSlice plainCrates
        ((customInstant "$serde_json::private::Number" (by decide +kernel)).toVec plainCrates) =
      .error .json := by
  have hmisread := misread_serialize plainCrates
    (customInstant "$serde_json::private::Number" (by decide +kernel)) (by decide +kernel)
  unfold DiagnosticEvent.fromSlice DiagnosticEvent.toVec
  rw [plainCrates.fromSlice_misread _ hmisread]

end Troupe.Core
