import Troupe.Core.Normalize
import Troupe.Core.Serialize
import Troupe.Lib.Codec

/-! # Wire forms of scalars and payloads

`Deserialize` for the value types of `scalar.rs`, `id.rs`, `time.rs`, `kinds.rs` and `detail.rs`, with
the `Serialize` that goes with it. A scalar is a string that its checked parser accepts; a payload
lists its fields once, in the order of the declaration, with `record` for a struct that denies unknown
fields and `tagged` for `#[serde(tag = .., content = ..)]`.

What other crates do is a parameter, `Crates`: `Uuid::parse_str`, the reader of `serde_json`, and the
forms a derived reader accepts besides the one it writes. -/

namespace Troupe.Core

open Troupe.Lib

/-- The code of other crates that reading an event relies on. -/
structure Crates where
  /-- What derived readers accept besides the form they write. -/
  shapes : Shapes
  /-- `Uuid::parse_str`. -/
  parseStr : String → Option (BitVec 128)
  /-- The hyphenated text of a UUID is read as that UUID. -/
  parseStr_display : ∀ uuid : CanonicalUuid, parseStr (displayUuid uuid) = some uuid.bits
  /-- `serde_json::from_slice::<Value>`, built with `arbitrary_precision`. -/
  fromSlice : List UInt8 → Option Json
  /-- The text of a value is read as that value, within the recursion limit. -/
  fromSlice_legible : ∀ value : Json, value.Legible 127 → fromSlice value.toVec = some value
  /-- An object that starts with the key for numbers has to hold a number's text under it. -/
  fromSlice_misread : ∀ value : Json, value.Misread → fromSlice value.toVec = none

/-! ## Scalars -/

/-- `parse_canonical_u64`. -/
def parseCanonicalU64 (value : String) : Except WireValueError {n : Nat // n ≤ u64Max} := do
  validateCanonicalNonnegativeInteger value
  if h : digitsValue value.toList ≤ u64Max then
    .ok ⟨digitsValue value.toList, h⟩
  else
    .error ⟨"schema u64 is out of range"⟩

theorem digitsValue_repr (n : Nat) : digitsValue n.repr.toList = n := by
  have hfold := Nat.ofDigitChars_ten_toDigits (n := n)
  rw [Nat.ofDigitChars_eq_foldl] at hfold
  rw [Nat.toList_repr]
  exact hfold

theorem validateCanonicalNonnegativeInteger_repr (n : Nat) :
    validateCanonicalNonnegativeInteger n.repr = .ok () := by
  have hempty : n.repr.isEmpty = false := by
    rw [String.isEmpty_eq_false_iff, ← String.toList_inj.ne, Nat.toList_repr]
    exact Nat.toDigits_ne_nil
  have hdigits : (Nat.toDigits 10 n).all Char.isDigit = true := List.all_eq_true.mpr toDigits_isDigit
  have hzero :
    (1 < (Nat.toDigits 10 n).length && (Nat.toDigits 10 n).head? == some '0') = false := by
    rcases Nat.eq_zero_or_pos n with rfl | hpos
    · decide
    · simpa using fun _ => head_toDigits_ne_zero hpos
  unfold validateCanonicalNonnegativeInteger
  rw [hempty, Nat.toList_repr, hdigits, hzero]
  rfl

theorem parseCanonicalU64_repr {n : Nat} (h : n ≤ u64Max) :
    parseCanonicalU64 n.repr = .ok ⟨n, h⟩ := by
  unfold parseCanonicalU64
  rw [validateCanonicalNonnegativeInteger_repr, ok_bind]
  simp only [digitsValue_repr, h, dite_true]

/-- `SchemaU64` on the wire. -/
def SchemaU64.codec : Codec SchemaU64 :=
  .text (fun value => value.get.repr)
    (fun text => (parseCanonicalU64 text).toOption.map fun n => ⟨n.1, n.2⟩)
    (fun value => by simp only [parseCanonicalU64_repr value.le_max]; rfl)

/-- `ElapsedNs` on the wire. -/
def ElapsedNs.codec : Codec ElapsedNs :=
  .text (fun value => value.get.repr)
    (fun text => (parseCanonicalU64 text).toOption.map fun n => ⟨n.1, n.2⟩)
    (fun value => by simp only [parseCanonicalU64_repr value.le_max]; rfl)

/-- What is built once a check passed, from the proof that it did. -/
def checked {ε α : Type} (check : Except ε Unit) (build : check = .ok () → α) : Except ε α :=
  match check, build with
  | .ok (), build => .ok (build rfl)
  | .error error, _ => .error error

theorem checked_ok {ε α : Type} {check : Except ε Unit} {build : check = .ok () → α}
    (h : check = .ok ()) : checked check build = .ok (build h) := by
  subst h
  rfl

/-- `TokenCount::parse`. -/
def TokenCount.parse (value : String) : Except WireValueError TokenCount :=
  checked (validateCanonicalNonnegativeInteger value) (TokenCount.mk value)

/-- `TokenCount` on the wire. -/
def TokenCount.codec : Codec TokenCount :=
  .text TokenCount.value (fun text => (TokenCount.parse text).toOption)
    (fun count => by rw [TokenCount.parse, checked_ok count.canonical]; rfl)

/-- `CanonicalInteger::parse`. -/
def CanonicalInteger.parse (value : String) : Except WireValueError CanonicalInteger :=
  checked (validateCanonicalInteger value) (CanonicalInteger.mk value)

/-- `CanonicalInteger` on the wire. -/
def CanonicalInteger.codec : Codec CanonicalInteger :=
  .text CanonicalInteger.value (fun text => (CanonicalInteger.parse text).toOption)
    (fun integer => by rw [CanonicalInteger.parse, checked_ok integer.canonical]; rfl)

/-- `RunLocalId::parse`. -/
def RunLocalId.parse (value : String) : Except WireValueError RunLocalId :=
  checked (validateRunLocalId value) (RunLocalId.mk value)

/-- `RunLocalId` on the wire. -/
def RunLocalId.codec : Codec RunLocalId :=
  .text RunLocalId.value (fun text => (RunLocalId.parse text).toOption)
    (fun id => by rw [RunLocalId.parse, checked_ok id.valid]; rfl)

/-- `CurrencyCode::parse`. -/
def CurrencyCode.parse (value : String) : Except WireValueError CurrencyCode :=
  if h : (value.utf8ByteSize == 3 && value.toList.all Char.isUpper) = true then
    .ok ⟨value, h⟩
  else
    .error ⟨"currency must be three uppercase ASCII letters"⟩

/-- `CurrencyCode` on the wire. -/
def CurrencyCode.codec : Codec CurrencyCode :=
  .text CurrencyCode.value (fun text => (CurrencyCode.parse text).toOption)
    (fun currency => by rw [CurrencyCode.parse, dif_pos currency.canonical]; rfl)

/-- `DecimalString::parse`. -/
def DecimalString.parse (value : String) : Except WireValueError DecimalString :=
  match h : normalizeDecimal value with
  | .ok normalized => .ok ⟨normalized, value, h⟩
  | .error error => .error error

/-- `Deserialize for DecimalString`: only a normal form is read. -/
def DecimalString.fromWire (value : String) : Except WireValueError DecimalString := do
  let normalized ← DecimalString.parse value
  if normalized.value ≠ value then
    .error ⟨"decimal wire value is not canonical"⟩
  else
    .ok normalized

theorem DecimalString.fromWire_value (decimal : DecimalString) :
    DecimalString.fromWire decimal.value = .ok decimal := by
  obtain ⟨value, source, h⟩ := decimal
  have hidem := normalizeDecimal_idem h
  have hparse : DecimalString.parse value = .ok ⟨value, source, h⟩ := by
    unfold DecimalString.parse
    split
    next normalized heq =>
      rw [hidem] at heq
      cases heq
      rfl
    next error heq => rw [hidem] at heq; cases heq
  unfold DecimalString.fromWire
  rw [hparse, ok_bind]
  simp

/-- `DecimalString` on the wire. -/
def DecimalString.codec : Codec DecimalString :=
  .text DecimalString.value (fun text => (DecimalString.fromWire text).toOption)
    (fun decimal => by rw [DecimalString.fromWire_value]; rfl)

/-! ## Variants of tagged values -/

/-- The variants of `DiagnosticScalar`. -/
inductive ScalarKind where
  | null
  | boolean
  | integer
  | decimal
  | string
deriving DecidableEq

instance : ClosedStringEnum ScalarKind where
  asStr
    | .null => "null"
    | .boolean => "boolean"
    | .integer => "integer"
    | .decimal => "decimal"
    | .string => "string"
  all := [.null, .boolean, .integer, .decimal, .string]

/-- The variants of `DiagnosticAttributeValue`. -/
inductive AttributeKind where
  | null
  | boolean
  | integer
  | decimal
  | string
  | list
deriving DecidableEq

instance : ClosedStringEnum AttributeKind where
  asStr
    | .null => "null"
    | .boolean => "boolean"
    | .integer => "integer"
    | .decimal => "decimal"
    | .string => "string"
    | .list => "list"
  all := [.null, .boolean, .integer, .decimal, .string, .list]

/-- The variants of `DiagnosticDimension`. -/
inductive DimensionKind where
  | boolean
  | integer
  | decimal
  | string
deriving DecidableEq

instance : ClosedStringEnum DimensionKind where
  asStr
    | .boolean => "boolean"
    | .integer => "integer"
    | .decimal => "decimal"
    | .string => "string"
  all := [.boolean, .integer, .decimal, .string]

/-- The variants of `CustomNumber`. -/
inductive NumberKind where
  | integer
  | decimal
deriving DecidableEq

instance : ClosedStringEnum NumberKind where
  asStr
    | .integer => "integer"
    | .decimal => "decimal"
  all := [.integer, .decimal]

section Crates

variable (crates : Crates)

/-- `CanonicalUuid::parse`. -/
def CanonicalUuid.parse (value : String) : Except WireValueError CanonicalUuid :=
  match crates.parseStr value with
  | none => .error ⟨"UUID is invalid"⟩
  | some bits =>
    if displayUuid ⟨bits⟩ ≠ value then
      .error ⟨"UUID must use lowercase canonical hyphenated form"⟩
    else
      .ok ⟨bits⟩

/-- `CanonicalUuid` on the wire. -/
def CanonicalUuid.codec : Codec CanonicalUuid :=
  .text displayUuid (fun text => (CanonicalUuid.parse crates text).toOption)
    (fun uuid => by simp [CanonicalUuid.parse, crates.parseStr_display, Except.toOption])

/-- A closed enumeration on the wire. -/
def closedEnum (α : Type) [ClosedStringEnum α] : Codec α :=
  .variants crates.shapes ClosedStringEnum.all ClosedStringEnum.asStr ClosedStringEnum.mem_all
    ClosedStringEnum.nodup

/-! ## Payloads -/

/-- `EmptyDetail` on the wire: an object without fields. -/
def emptyDetail : Codec Unit :=
  .record crates.shapes true (.start Unit ())

/-- `ProductionPathResolutionDetail` on the wire. -/
def ProductionPathResolutionDetail.codec : Codec ProductionPathResolutionDetail :=
  .record crates.shapes true
    (Fields.start ProductionPathResolutionDetail ProductionPathResolutionDetail.mk
      |>.field "production_root" (·.productionRoot) .string
      |>.field "package" (·.package) .string)

/-- `ProductionLoadDetail` on the wire. -/
def ProductionLoadDetail.codec : Codec ProductionLoadDetail :=
  .record crates.shapes true
    (Fields.start ProductionLoadDetail ProductionLoadDetail.mk
      |>.field "package" (·.package) .string)

/-- `ProductionConstructDetail` on the wire. -/
def ProductionConstructDetail.codec : Codec ProductionConstructDetail :=
  .record crates.shapes true
    (Fields.start ProductionConstructDetail ProductionConstructDetail.mk
      |>.field "package" (·.package) .string
      |>.field "class_name" (·.className) .string)

/-- `ActorDetail` on the wire. -/
def ActorDetail.codec : Codec ActorDetail :=
  .record crates.shapes true
    (Fields.start ActorDetail ActorDetail.mk
      |>.field "display_name" (·.displayName) .string
      |>.field "actor_type" (·.actorType) .string)

/-- `EffectDetail` on the wire. -/
def EffectDetail.codec : Codec EffectDetail :=
  .record crates.shapes true
    (Fields.start EffectDetail EffectDetail.mk
      |>.field "effect_type" (·.effectType) .string)

/-- `AgentSessionDetail` on the wire. -/
def AgentSessionDetail.codec : Codec AgentSessionDetail :=
  .record crates.shapes true
    (Fields.start AgentSessionDetail AgentSessionDetail.mk
      |>.field "provider" (·.provider) .string
      |>.optional "effective_model" (·.effectiveModel) .string
      |>.optional "effective_effort" (·.effectiveEffort) .string)

/-- `AgentSessionBrokenDetail` on the wire. -/
def AgentSessionBrokenDetail.codec : Codec AgentSessionBrokenDetail :=
  .record crates.shapes true
    (Fields.start AgentSessionBrokenDetail AgentSessionBrokenDetail.mk
      |>.field "provider" (·.provider) .string
      |>.optional "effective_model" (·.effectiveModel) .string
      |>.optional "effective_effort" (·.effectiveEffort) .string
      |>.field "error_code" (·.errorCode) .string)

/-- `AgentTurnTerminalDetail` on the wire. -/
def AgentTurnTerminalDetail.codec : Codec AgentTurnTerminalDetail :=
  .record crates.shapes true
    (Fields.start AgentTurnTerminalDetail AgentTurnTerminalDetail.mk
      |>.optional "error_code" (·.errorCode) .string)

/-- `ToolCallDetail` on the wire. -/
def ToolCallDetail.codec : Codec ToolCallDetail :=
  .record crates.shapes true
    (Fields.start ToolCallDetail ToolCallDetail.mk
      |>.field "title" (·.title) .string
      |>.field "tool_kind" (·.toolKind) (closedEnum crates ToolKind)
      |>.field "status" (·.status) (closedEnum crates ToolCallStatus)
      |>.optional "error_code" (·.errorCode) .string)

/-- `ResultIssue` on the wire. -/
def ResultIssue.codec : Codec ResultIssue :=
  .record crates.shapes true
    (Fields.start ResultIssue ResultIssue.mk
      |>.field "code" (·.code) .string
      |>.field "path" (·.path) .string)

/-- `ResultTransitionDetail` on the wire. -/
def ResultTransitionDetail.codec : Codec ResultTransitionDetail :=
  .record crates.shapes true
    (Fields.start ResultTransitionDetail ResultTransitionDetail.mk
      |>.optional "issue" (·.issue) (ResultIssue.codec crates)
      |>.optional "error_code" (·.errorCode) .string)

/-- `DiagnosticComponentFailedDetail::new`. -/
def DiagnosticComponentFailedDetail.new (componentId : RunLocalId) (stage : ComponentFailureStage)
    (errorCode : ComponentFailureErrorCode) (relatedEventSequence : Option SchemaU64) :
    Except DetailValidationError DiagnosticComponentFailedDetail :=
  if h : validFailurePair stage errorCode = true then
    .ok ⟨.sink, componentId, stage, errorCode, relatedEventSequence, h⟩
  else
    .error ⟨"component failure stage and error code do not match"⟩

/-- `TryFrom<DiagnosticComponentFailedDetailWire>`. -/
def DiagnosticComponentFailedDetail.tryFrom (component : DiagnosticComponent)
    (componentId : RunLocalId) (stage : ComponentFailureStage)
    (errorCode : ComponentFailureErrorCode) (relatedEventSequence : Option SchemaU64) :
    Except DetailValidationError DiagnosticComponentFailedDetail :=
  if component ≠ .sink then
    .error ⟨"diagnostic component must be sink"⟩
  else
    DiagnosticComponentFailedDetail.new componentId stage errorCode relatedEventSequence

/-- `DiagnosticComponentFailedDetail` on the wire. -/
def DiagnosticComponentFailedDetail.codec : Codec DiagnosticComponentFailedDetail :=
  .record crates.shapes true
    (Fields.start DiagnosticComponentFailedDetail DiagnosticComponentFailedDetail.tryFrom
      |>.field "component" (·.component) (closedEnum crates DiagnosticComponent)
      |>.field "component_id" (·.componentId) RunLocalId.codec
      |>.field "stage" (·.stage) (closedEnum crates ComponentFailureStage)
      |>.field "error_code" (·.errorCode) (closedEnum crates ComponentFailureErrorCode)
      |>.optional "related_event_sequence" (·.relatedEventSequence) SchemaU64.codec
      |>.check fun detail => by
        obtain ⟨⟨⟩, componentId, stage, errorCode, related, hpair⟩ := detail
        exact dif_pos hpair)

/-- `PlanEntry` on the wire. -/
def PlanEntry.codec : Codec PlanEntry :=
  .record crates.shapes true
    (Fields.start PlanEntry PlanEntry.mk
      |>.field "content" (·.content) .string
      |>.field "priority" (·.priority) (closedEnum crates PlanEntryPriority)
      |>.field "status" (·.status) (closedEnum crates PlanEntryStatus))

/-- The `detail` of a `SpanStartDetail`. -/
def SpanStartDetail.payload : SpanStartDetail → Json
  | .runLifecycle => (emptyDetail crates).write ()
  | .productionPathResolution detail => (ProductionPathResolutionDetail.codec crates).write detail
  | .productionLoad detail => (ProductionLoadDetail.codec crates).write detail
  | .productionConstruct detail => (ProductionConstructDetail.codec crates).write detail
  | .productionStart => (emptyDetail crates).write ()
  | .productionStop => (emptyDetail crates).write ()
  | .productionShutdown => (emptyDetail crates).write ()
  | .sceneLifecycle => (emptyDetail crates).write ()
  | .sceneDrain => (emptyDetail crates).write ()
  | .sceneCleanup => (emptyDetail crates).write ()
  | .actorHandleLifetime detail => (ActorDetail.codec crates).write detail
  | .cueMailboxWait => (emptyDetail crates).write ()
  | .cueExecution => (emptyDetail crates).write ()
  | .effectLifecycle detail => (EffectDetail.codec crates).write detail
  | .agentSessionOpening detail => (AgentSessionDetail.codec crates).write detail
  | .agentSessionLifecycle detail => (AgentSessionDetail.codec crates).write detail
  | .agentSessionClosing detail => (AgentSessionDetail.codec crates).write detail
  | .actLifecycle detail => (AgentSessionDetail.codec crates).write detail
  | .actCaller => (emptyDetail crates).write ()
  | .agentTurn detail => (AgentSessionDetail.codec crates).write detail
  | .agentThinking => (emptyDetail crates).write ()
  | .toolCall detail => (ToolCallDetail.codec crates).write detail

/-- The `SpanStartDetail` of a kind, from its `detail`. -/
def SpanStartDetail.readPayload (value : Json) : SpanKind → Option SpanStartDetail
  | .runLifecycle => ((emptyDetail crates).read value).map fun _ => .runLifecycle
  | .productionPathResolution =>
    ((ProductionPathResolutionDetail.codec crates).read value).map .productionPathResolution
  | .productionLoad => ((ProductionLoadDetail.codec crates).read value).map .productionLoad
  | .productionConstruct =>
    ((ProductionConstructDetail.codec crates).read value).map .productionConstruct
  | .productionStart => ((emptyDetail crates).read value).map fun _ => .productionStart
  | .productionStop => ((emptyDetail crates).read value).map fun _ => .productionStop
  | .productionShutdown => ((emptyDetail crates).read value).map fun _ => .productionShutdown
  | .sceneLifecycle => ((emptyDetail crates).read value).map fun _ => .sceneLifecycle
  | .sceneDrain => ((emptyDetail crates).read value).map fun _ => .sceneDrain
  | .sceneCleanup => ((emptyDetail crates).read value).map fun _ => .sceneCleanup
  | .actorHandleLifetime => ((ActorDetail.codec crates).read value).map .actorHandleLifetime
  | .cueMailboxWait => ((emptyDetail crates).read value).map fun _ => .cueMailboxWait
  | .cueExecution => ((emptyDetail crates).read value).map fun _ => .cueExecution
  | .effectLifecycle => ((EffectDetail.codec crates).read value).map .effectLifecycle
  | .agentSessionOpening => ((AgentSessionDetail.codec crates).read value).map .agentSessionOpening
  | .agentSessionLifecycle =>
    ((AgentSessionDetail.codec crates).read value).map .agentSessionLifecycle
  | .agentSessionClosing => ((AgentSessionDetail.codec crates).read value).map .agentSessionClosing
  | .actLifecycle => ((AgentSessionDetail.codec crates).read value).map .actLifecycle
  | .actCaller => ((emptyDetail crates).read value).map fun _ => .actCaller
  | .agentTurn => ((AgentSessionDetail.codec crates).read value).map .agentTurn
  | .agentThinking => ((emptyDetail crates).read value).map fun _ => .agentThinking
  | .toolCall => ((ToolCallDetail.codec crates).read value).map .toolCall

theorem SpanStartDetail.readPayload_payload (detail : SpanStartDetail) :
    readPayload crates (payload crates detail) detail.kind = some detail := by
  cases detail <;> simp [payload, readPayload, kind, Codec.read_write]

theorem SpanStartDetail.legible_payload (detail : SpanStartDetail) :
    (payload crates detail).Legible 1 := by
  cases detail with
  | runLifecycle | productionStart | productionStop | productionShutdown | sceneLifecycle
  | sceneDrain | sceneCleanup | cueMailboxWait | cueExecution | actCaller | agentThinking =>
    exact (emptyDetail crates).legible () trivial
  | productionPathResolution detail =>
    exact (ProductionPathResolutionDetail.codec crates).legible detail
      (by simp [ProductionPathResolutionDetail.codec])
  | productionLoad detail =>
    exact (ProductionLoadDetail.codec crates).legible detail (by simp [ProductionLoadDetail.codec])
  | productionConstruct detail =>
    exact (ProductionConstructDetail.codec crates).legible detail
      (by simp [ProductionConstructDetail.codec])
  | actorHandleLifetime detail =>
    exact (ActorDetail.codec crates).legible detail (by simp [ActorDetail.codec])
  | effectLifecycle detail =>
    exact (EffectDetail.codec crates).legible detail (by simp [EffectDetail.codec])
  | agentSessionOpening detail | agentSessionLifecycle detail | agentSessionClosing detail
  | actLifecycle detail | agentTurn detail =>
    exact (AgentSessionDetail.codec crates).legible detail (by simp [AgentSessionDetail.codec])
  | toolCall detail =>
    exact (ToolCallDetail.codec crates).legible detail (by simp [ToolCallDetail.codec, closedEnum])

/-- `SpanStartDetail` on the wire, flattened into its event. -/
def SpanStartDetail.fields : Fields SpanStartDetail SpanStartDetail :=
  .tagged "span_kind" "detail" (closedEnum crates SpanKind) SpanStartDetail.kind
    (SpanStartDetail.payload crates)
    (fun kind value => SpanStartDetail.readPayload crates value kind) 1
    (SpanStartDetail.readPayload_payload crates) (fun _ => trivial)
    (SpanStartDetail.legible_payload crates)

/-- The `detail` of a `InstantDetail`. -/
def InstantDetail.payload : InstantDetail → Json
  | .actorCast detail => (ActorDetail.codec crates).write detail
  | .cueAdmitted => (emptyDetail crates).write ()
  | .cueEnqueued => (emptyDetail crates).write ()
  | .cueDispatched => (emptyDetail crates).write ()
  | .cueCancelRequested => (emptyDetail crates).write ()
  | .effectCreated detail => (EffectDetail.codec crates).write detail
  | .effectReturned detail => (EffectDetail.codec crates).write detail
  | .effectConsumed detail => (EffectDetail.codec crates).write detail
  | .agentSessionReady detail => (AgentSessionDetail.codec crates).write detail
  | .agentSessionBroken detail => (AgentSessionBrokenDetail.codec crates).write detail
  | .actAdmitted => (emptyDetail crates).write ()
  | .actWaitingReady => (emptyDetail crates).write ()
  | .actPromptSubmitted => (emptyDetail crates).write ()
  | .actCancelRequested => (emptyDetail crates).write ()
  | .actSupervisorHandoff => (emptyDetail crates).write ()
  | .agentTurnActivity => (emptyDetail crates).write ()
  | .agentTurnTerminal detail => (AgentTurnTerminalDetail.codec crates).write detail
  | .agentTurnSettled detail => (AgentTurnTerminalDetail.codec crates).write detail
  | .toolUpdated detail => (ToolCallDetail.codec crates).write detail
  | .resultSubmitted detail => (ResultTransitionDetail.codec crates).write detail
  | .resultRejected detail => (ResultTransitionDetail.codec crates).write detail
  | .resultRepairRequested detail => (ResultTransitionDetail.codec crates).write detail
  | .resultAccepted detail => (ResultTransitionDetail.codec crates).write detail
  | .resultMissing detail => (ResultTransitionDetail.codec crates).write detail
  | .diagnosticComponentFailed detail => (DiagnosticComponentFailedDetail.codec crates).write detail

/-- The `InstantDetail` of a kind, from its `detail`. -/
def InstantDetail.readPayload (value : Json) : InstantKind → Option InstantDetail
  | .actorCast => ((ActorDetail.codec crates).read value).map .actorCast
  | .cueAdmitted => ((emptyDetail crates).read value).map fun _ => .cueAdmitted
  | .cueEnqueued => ((emptyDetail crates).read value).map fun _ => .cueEnqueued
  | .cueDispatched => ((emptyDetail crates).read value).map fun _ => .cueDispatched
  | .cueCancelRequested => ((emptyDetail crates).read value).map fun _ => .cueCancelRequested
  | .effectCreated => ((EffectDetail.codec crates).read value).map .effectCreated
  | .effectReturned => ((EffectDetail.codec crates).read value).map .effectReturned
  | .effectConsumed => ((EffectDetail.codec crates).read value).map .effectConsumed
  | .agentSessionReady => ((AgentSessionDetail.codec crates).read value).map .agentSessionReady
  | .agentSessionBroken =>
    ((AgentSessionBrokenDetail.codec crates).read value).map .agentSessionBroken
  | .actAdmitted => ((emptyDetail crates).read value).map fun _ => .actAdmitted
  | .actWaitingReady => ((emptyDetail crates).read value).map fun _ => .actWaitingReady
  | .actPromptSubmitted => ((emptyDetail crates).read value).map fun _ => .actPromptSubmitted
  | .actCancelRequested => ((emptyDetail crates).read value).map fun _ => .actCancelRequested
  | .actSupervisorHandoff => ((emptyDetail crates).read value).map fun _ => .actSupervisorHandoff
  | .agentTurnActivity => ((emptyDetail crates).read value).map fun _ => .agentTurnActivity
  | .agentTurnTerminal => ((AgentTurnTerminalDetail.codec crates).read value).map .agentTurnTerminal
  | .agentTurnSettled => ((AgentTurnTerminalDetail.codec crates).read value).map .agentTurnSettled
  | .toolUpdated => ((ToolCallDetail.codec crates).read value).map .toolUpdated
  | .resultSubmitted => ((ResultTransitionDetail.codec crates).read value).map .resultSubmitted
  | .resultRejected => ((ResultTransitionDetail.codec crates).read value).map .resultRejected
  | .resultRepairRequested =>
    ((ResultTransitionDetail.codec crates).read value).map .resultRepairRequested
  | .resultAccepted => ((ResultTransitionDetail.codec crates).read value).map .resultAccepted
  | .resultMissing => ((ResultTransitionDetail.codec crates).read value).map .resultMissing
  | .diagnosticComponentFailed =>
    ((DiagnosticComponentFailedDetail.codec crates).read value).map .diagnosticComponentFailed

theorem InstantDetail.readPayload_payload (detail : InstantDetail) :
    readPayload crates (payload crates detail) detail.kind = some detail := by
  cases detail <;> simp [payload, readPayload, kind, Codec.read_write]

theorem InstantDetail.legible_payload (detail : InstantDetail) :
    (payload crates detail).Legible 2 := by
  cases detail with
  | actorCast detail =>
    have h := (ActorDetail.codec crates).legible detail (by simp [ActorDetail.codec])
    exact h.mono (by decide : 1 ≤ 2)
  | cueAdmitted | cueEnqueued | cueDispatched | cueCancelRequested | actAdmitted
  | actWaitingReady | actPromptSubmitted | actCancelRequested | actSupervisorHandoff
  | agentTurnActivity =>
    exact ((emptyDetail crates).legible () trivial).mono (by decide : 1 ≤ 2)
  | effectCreated detail | effectReturned detail | effectConsumed detail =>
    have h := (EffectDetail.codec crates).legible detail (by simp [EffectDetail.codec])
    exact h.mono (by decide : 1 ≤ 2)
  | agentSessionReady detail =>
    have h := (AgentSessionDetail.codec crates).legible detail (by simp [AgentSessionDetail.codec])
    exact h.mono (by decide : 1 ≤ 2)
  | agentSessionBroken detail =>
    have h := (AgentSessionBrokenDetail.codec crates).legible detail
      (by simp [AgentSessionBrokenDetail.codec])
    exact h.mono (by decide : 1 ≤ 2)
  | agentTurnTerminal detail | agentTurnSettled detail =>
    have h := (AgentTurnTerminalDetail.codec crates).legible detail
      (by simp [AgentTurnTerminalDetail.codec])
    exact h.mono (by decide : 1 ≤ 2)
  | toolUpdated detail =>
    have h := (ToolCallDetail.codec crates).legible detail
      (by simp [ToolCallDetail.codec, closedEnum])
    exact h.mono (by decide : 1 ≤ 2)
  | resultSubmitted detail | resultRejected detail | resultRepairRequested detail
  | resultAccepted detail | resultMissing detail =>
    exact (ResultTransitionDetail.codec crates).legible detail
      (by simp [ResultTransitionDetail.codec, ResultIssue.codec])
  | diagnosticComponentFailed detail =>
    have h := (DiagnosticComponentFailedDetail.codec crates).legible detail
      (by
        simp [DiagnosticComponentFailedDetail.codec, closedEnum, RunLocalId.codec, SchemaU64.codec])
    exact h.mono (by decide : 1 ≤ 2)

/-- `InstantDetail` on the wire, flattened into its event. -/
def InstantDetail.fields : Fields InstantDetail InstantDetail :=
  .tagged "instant_kind" "detail" (closedEnum crates InstantKind) InstantDetail.kind
    (InstantDetail.payload crates) (fun kind value => InstantDetail.readPayload crates value kind) 2
    (InstantDetail.readPayload_payload crates) (fun _ => trivial)
    (InstantDetail.legible_payload crates)

/-! ## Tagged values

Each of these enumerations is written as `type` and `value`, with `rename_all = "snake_case"`. -/

/-- The content a variant without payload accepts: none, `null`, or what else serde takes. -/
def unitContent : Option Json → Bool
  | none => true
  | some .null => true
  | some value => crates.shapes.unit value

/-- The variant of a `DiagnosticScalar`. -/
def DiagnosticScalar.kind : DiagnosticScalar → ScalarKind
  | .null => .null
  | .boolean _ => .boolean
  | .integer _ => .integer
  | .decimal _ => .decimal
  | .string _ => .string

/-- The `value` of a `DiagnosticScalar`. -/
def DiagnosticScalar.payload : DiagnosticScalar → Option Json
  | .null => none
  | .boolean value => some (Codec.bool.write value)
  | .integer value => some (CanonicalInteger.codec.write value)
  | .decimal value => some (DecimalString.codec.write value)
  | .string value => some (Codec.string.write value)

/-- The `DiagnosticScalar` of a variant, from its `value`. -/
def DiagnosticScalar.readPayload (content : Option Json) : ScalarKind → Option DiagnosticScalar
  | .null => if unitContent crates content then some .null else none
  | .boolean => (content.bind Codec.bool.read).map .boolean
  | .integer => (content.bind CanonicalInteger.codec.read).map .integer
  | .decimal => (content.bind DecimalString.codec.read).map .decimal
  | .string => (content.bind Codec.string.read).map .string

theorem DiagnosticScalar.readPayload_payload (value : DiagnosticScalar) :
    readPayload crates (payload value) value.kind = some value := by
  cases value <;> simp [payload, readPayload, kind, Codec.read_write, unitContent]

theorem DiagnosticScalar.legible_payload (value : DiagnosticScalar) :
    ∀ content ∈ payload value, content.Legible 0 := by
  cases value with
  | null => simp [payload]
  | boolean value | integer value | decimal value | string value =>
    rintro _ ⟨⟩
    trivial

/-- `DiagnosticScalar` on the wire. -/
def DiagnosticScalar.codec : Codec DiagnosticScalar :=
  .tagged crates.shapes "type" "value" (closedEnum crates ScalarKind) DiagnosticScalar.kind
    DiagnosticScalar.payload (fun kind content => DiagnosticScalar.readPayload crates content kind) 0
    (by decide) (by decide) (DiagnosticScalar.readPayload_payload crates) (fun _ => trivial)
    (Nat.zero_le _) DiagnosticScalar.legible_payload

/-- The variant of a `DiagnosticAttributeValue`. -/
def DiagnosticAttributeValue.kind : DiagnosticAttributeValue → AttributeKind
  | .null => .null
  | .boolean _ => .boolean
  | .integer _ => .integer
  | .decimal _ => .decimal
  | .string _ => .string
  | .list _ => .list

/-- The `value` of a `DiagnosticAttributeValue`. -/
def DiagnosticAttributeValue.payload : DiagnosticAttributeValue → Option Json
  | .null => none
  | .boolean value => some (Codec.bool.write value)
  | .integer value => some (CanonicalInteger.codec.write value)
  | .decimal value => some (DecimalString.codec.write value)
  | .string value => some (Codec.string.write value)
  | .list values => some ((DiagnosticScalar.codec crates).list.write values)

/-- The `DiagnosticAttributeValue` of a variant, from its `value`. -/
def DiagnosticAttributeValue.readPayload (content : Option Json) :
    AttributeKind → Option DiagnosticAttributeValue
  | .null => if unitContent crates content then some .null else none
  | .boolean => (content.bind Codec.bool.read).map .boolean
  | .integer => (content.bind CanonicalInteger.codec.read).map .integer
  | .decimal => (content.bind DecimalString.codec.read).map .decimal
  | .string => (content.bind Codec.string.read).map .string
  | .list => (content.bind (DiagnosticScalar.codec crates).list.read).map .list

theorem DiagnosticAttributeValue.readPayload_payload (value : DiagnosticAttributeValue) :
    readPayload crates (payload crates value) value.kind = some value := by
  cases value <;> simp [payload, readPayload, kind, Codec.read_write, unitContent]

theorem DiagnosticAttributeValue.legible_payload (value : DiagnosticAttributeValue) :
    ∀ content ∈ payload crates value, content.Legible 2 := by
  cases value with
  | null => simp [payload]
  | boolean value | integer value | decimal value | string value =>
    rintro _ ⟨⟩
    trivial
  | list values =>
    rintro _ ⟨⟩
    exact (DiagnosticScalar.codec crates).list.legible values (fun _ _ => trivial)

/-- `DiagnosticAttributeValue` on the wire. -/
def DiagnosticAttributeValue.codec : Codec DiagnosticAttributeValue :=
  .tagged crates.shapes "type" "value" (closedEnum crates AttributeKind)
    DiagnosticAttributeValue.kind (DiagnosticAttributeValue.payload crates)
    (fun kind content => DiagnosticAttributeValue.readPayload crates content kind) 2
    (by decide) (by decide) (DiagnosticAttributeValue.readPayload_payload crates) (fun _ => trivial)
    (Nat.zero_le _) (DiagnosticAttributeValue.legible_payload crates)

/-- The variant of a `DiagnosticDimension`. -/
def DiagnosticDimension.kind : DiagnosticDimension → DimensionKind
  | .boolean _ => .boolean
  | .integer _ => .integer
  | .decimal _ => .decimal
  | .string _ => .string

/-- The `value` of a `DiagnosticDimension`. -/
def DiagnosticDimension.payload : DiagnosticDimension → Option Json
  | .boolean value => some (Codec.bool.write value)
  | .integer value => some (CanonicalInteger.codec.write value)
  | .decimal value => some (DecimalString.codec.write value)
  | .string value => some (Codec.string.write value)

/-- The `DiagnosticDimension` of a variant, from its `value`. -/
def DiagnosticDimension.readPayload (content : Option Json) :
    DimensionKind → Option DiagnosticDimension
  | .boolean => (content.bind Codec.bool.read).map .boolean
  | .integer => (content.bind CanonicalInteger.codec.read).map .integer
  | .decimal => (content.bind DecimalString.codec.read).map .decimal
  | .string => (content.bind Codec.string.read).map .string

theorem DiagnosticDimension.readPayload_payload (value : DiagnosticDimension) :
    readPayload (payload value) value.kind = some value := by
  cases value <;> simp [payload, readPayload, kind, Codec.read_write]

theorem DiagnosticDimension.legible_payload (value : DiagnosticDimension) :
    ∀ content ∈ payload value, content.Legible 0 := by
  cases value with
  | boolean value | integer value | decimal value | string value =>
    rintro _ ⟨⟩
    trivial

/-- `DiagnosticDimension` on the wire. -/
def DiagnosticDimension.codec : Codec DiagnosticDimension :=
  .tagged crates.shapes "type" "value" (closedEnum crates DimensionKind) DiagnosticDimension.kind
    DiagnosticDimension.payload (fun kind content => DiagnosticDimension.readPayload content kind) 0
    (by decide) (by decide) DiagnosticDimension.readPayload_payload (fun _ => trivial)
    (Nat.zero_le _) DiagnosticDimension.legible_payload

/-- The variant of a `CustomNumber`. -/
def CustomNumber.kind : CustomNumber → NumberKind
  | .integer _ => .integer
  | .decimal _ => .decimal

/-- The `value` of a `CustomNumber`. -/
def CustomNumber.payload : CustomNumber → Option Json
  | .integer value => some (CanonicalInteger.codec.write value)
  | .decimal value => some (DecimalString.codec.write value)

/-- The `CustomNumber` of a variant, from its `value`. -/
def CustomNumber.readPayload (content : Option Json) : NumberKind → Option CustomNumber
  | .integer => (content.bind CanonicalInteger.codec.read).map .integer
  | .decimal => (content.bind DecimalString.codec.read).map .decimal

theorem CustomNumber.readPayload_payload (value : CustomNumber) :
    readPayload (payload value) value.kind = some value := by
  cases value <;> simp [payload, readPayload, kind, Codec.read_write]

theorem CustomNumber.legible_payload (value : CustomNumber) :
    ∀ content ∈ payload value, content.Legible 0 := by
  cases value with
  | integer value | decimal value =>
    rintro _ ⟨⟩
    trivial

/-- `CustomNumber` on the wire. -/
def CustomNumber.codec : Codec CustomNumber :=
  .tagged crates.shapes "type" "value" (closedEnum crates NumberKind) CustomNumber.kind
    CustomNumber.payload (fun kind content => CustomNumber.readPayload content kind) 0
    (by decide) (by decide) CustomNumber.readPayload_payload (fun _ => trivial)
    (Nat.zero_le _) CustomNumber.legible_payload

end Crates

end Troupe.Core
