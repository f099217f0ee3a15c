import Mathlib.Data.List.Sort
import Troupe.Agent.Schema.Resources
import Troupe.Lib.Attempts
import Troupe.Lib.JsonSize
import Troupe.Lib.Machine

/-! # Tool payload capture

`diagnostics/payload.rs`: what a provider's tool call reports is kept for the act's sink, as one JSON
snapshot within a depth, a number of nodes and a number of bytes. The typed parts are copied under a
`RetentionBudget` that stops early; the snapshot is then checked as a whole. An act keeps at most
4 MiB of snapshots.

* `serde_json::to_writer` writes the compact text in pieces of its own choice (`JsonWriter`); the
  counter behind it adds up their lengths.
* A `Map` keeps the order of insertion, and its keys are distinct: an insertion here is at the end.
* The enumerations of the protocol are open: `other` is a variant this program does not know.
* `Number::from_f64` is the parameter `fromF64`. -/

namespace Troupe.Agent.Diagnostics

open Troupe.Lib

/-- `TOOL_PAYLOAD_MAX_DEPTH`. -/
def toolPayloadMaxDepth : Nat := 32

/-- `TOOL_PAYLOAD_MAX_NODES`. -/
def toolPayloadMaxNodes : Nat := 65536

/-- `TOOL_PAYLOAD_SNAPSHOT_MAX_BYTES`. -/
def toolPayloadSnapshotMaxBytes : Nat := 256 * 1024

/-- `ACT_TOOL_PAYLOAD_MAX_BYTES`. -/
def actToolPayloadMaxBytes : Nat := 4 * 1024 * 1024

/-- `ToolPayloadOmissionReason`. -/
inductive ToolPayloadOmissionReason where
  | invalidType
  | depthLimit
  | nodeLimit
  | snapshotByteLimit
  | actByteLimit
deriving DecidableEq

/-! ## The provider's types -/

/-- A path as the system has it, which need not be text. -/
structure ProviderPath where
  bytes : ByteArray

/-- `Path::to_str`. -/
def ProviderPath.toStr (path : ProviderPath) : Option String := String.fromUTF8? path.bytes

/-- `Role`. -/
inductive Role where
  | assistant
  | user
  | other

/-- `Annotations`. -/
structure Annotations where
  audience : Option (List Role)
  lastModified : Option String
  priority : Option Float64

/-- `EmbeddedResourceResource`. -/
inductive EmbeddedResourceResource where
  | textResourceContents (mimeType : Option String) (text uri : String)
  | blobResourceContents (blob : String) (mimeType : Option String) (uri : String)
  | other

/-- `ContentBlock`. -/
inductive ContentBlock where
  | text (annotations : Option Annotations) (text : String)
  | image (annotations : Option Annotations) (data mimeType : String) (uri : Option String)
  | audio (annotations : Option Annotations) (data mimeType : String)
  | resourceLink (annotations : Option Annotations) (description mimeType : Option String)
      (name : String) (size : Option Int) (title : Option String) (uri : String)
  | resource (annotations : Option Annotations) (resource : EmbeddedResourceResource)
  | other

/-- `ToolCallContent`. -/
inductive ToolCallContent where
  | content (content : ContentBlock)
  | diff (path : ProviderPath) (newText : String) (oldText : Option String)
  | terminal (terminalId : String)
  | other

/-- `ToolCallLocation`. -/
structure ToolCallLocation where
  path : ProviderPath
  line : Option Nat

/-- `SelectedOutput`. -/
structure SelectedOutput where
  rawOutput : Option Json
  content : Option (List ToolCallContent)
  locations : Option (List ToolCallLocation)

/-! ## Checked resources -/

/-- `CheckedResources`. -/
structure CheckedResources where
  bytes : Nat
  nodes : Nat

/-- The checks `check_json_resources` and `RetentionBudget::node` begin with: a node at `depth`, after
`nodes` others. -/
def countNode (depth nodes : Nat) : Except ToolPayloadOmissionReason Nat :=
  if toolPayloadMaxDepth < depth then
    .error .depthLimit
  else
    match checkedAdd usizeMax nodes 1 with
    | none => .error .nodeLimit
    | some nextNodes =>
      if toolPayloadMaxNodes < nextNodes then .error .nodeLimit else .ok nextNodes

mutual

/-- `check_json_resources`, with the nodes counted so far. -/
def checkJsonResources (value : Json) (depth nodes : Nat) :
    Except ToolPayloadOmissionReason Nat := do
  let nextNodes ← countNode depth nodes
  match value with
  | .array items => checkItemsResources items (depth + 1) nextNodes
  | .object fields => checkFieldsResources fields (depth + 1) nextNodes
  | .null | .bool _ | .number _ | .string _ => .ok nextNodes

/-- The loop over the values of an array. -/
def checkItemsResources (items : JsonItems) (depth nodes : Nat) :
    Except ToolPayloadOmissionReason Nat :=
  match items with
  | .nil => .ok nodes
  | .cons value rest => do
    let nodes ← checkJsonResources value depth nodes
    checkItemsResources rest depth nodes

/-- The loop over the values of an object. -/
def checkFieldsResources (fields : JsonFields) (depth nodes : Nat) :
    Except ToolPayloadOmissionReason Nat :=
  match fields with
  | .nil => .ok nodes
  | .cons _ value rest => do
    let nodes ← checkJsonResources value depth nodes
    checkFieldsResources rest depth nodes

end

/-- `serde_json::to_writer`: the compact text of a value, written piece by piece. -/
structure JsonWriter where
  pieces : Json → List (List UInt8)
  /-- The pieces make up the text. -/
  written : ∀ value, (pieces value).flatten = value.toVec

/-- `CappedByteCounter`. -/
structure CappedByteCounter where
  bytes : Nat
  limit : Nat
  exceeded : Bool

/-- `CappedByteCounter::write`, which takes the whole buffer or fails. -/
def CappedByteCounter.write (counter : CappedByteCounter) (buffer : List UInt8) :
    Except Unit Unit × CappedByteCounter :=
  match checkedAdd usizeMax counter.bytes buffer.length with
  | none => (.error (), { counter with exceeded := true })
  | some total =>
    if counter.limit < total then
      (.error (), { counter with exceeded := true })
    else
      (.ok (), { counter with bytes := total })

section Capture

variable (writer : JsonWriter) (fromF64 : Float64 → Option JsonNumber)

/-- `checked_component_resources`. -/
def checkedComponentResources (value : Json) (depth initialNodes : Nat) :
    Except ToolPayloadOmissionReason CheckedResources := do
  let nodes ← checkJsonResources value depth initialNodes
  match applyAll CappedByteCounter.write ⟨0, toolPayloadSnapshotMaxBytes, false⟩
      (writer.pieces value) with
  | (.ok (), counter) => .ok ⟨counter.bytes, nodes⟩
  | (.error (), counter) =>
    if counter.exceeded then .error .snapshotByteLimit else .error .invalidType

/-- `checked_snapshot_size`. -/
def checkedSnapshotSize (value : Json) : Except ToolPayloadOmissionReason Nat :=
  (checkedComponentResources writer value 1 0).map CheckedResources.bytes

mutual

/-- `canonicalize_json`: objects have their keys in order. -/
def canonicalizeJson : Json → Json
  | .array items => .array (.ofList (canonicalizeItems items))
  | .object fields =>
    .object (.ofList ((canonicalizeFields fields).mergeSort fun a b => decide (a.1 ≤ b.1)))
  | .null => .null
  | .bool value => .bool value
  | .number value => .number value
  | .string value => .string value

def canonicalizeItems : JsonItems → List Json
  | .nil => []
  | .cons value rest => canonicalizeJson value :: canonicalizeItems rest

def canonicalizeFields : JsonFields → List (String × Json)
  | .nil => []
  | .cons key value rest => (key, canonicalizeJson value) :: canonicalizeFields rest

end

/-! ## Retention -/

/-- `RetentionBudget`. -/
structure RetentionBudget where
  bytes : Nat
  nodes : Nat

/-- A function that takes `&mut RetentionBudget`. -/
abbrev Retention (α : Type) := StateT RetentionBudget (Except ToolPayloadOmissionReason) α

namespace Retention

/-- `RetentionBudget::node`. -/
def node (depth : Nat) : Retention Unit := fun budget => do
  let nodes ← countNode depth budget.nodes
  .ok ((), { budget with nodes })

/-- `RetentionBudget::string`. -/
def string (value : String) (depth : Nat) : Retention String := do
  node depth
  fun budget =>
    match checkedAdd usizeMax budget.bytes value.utf8ByteSize with
    | none => .error .snapshotByteLimit
    | some total =>
      if toolPayloadSnapshotMaxBytes < total then .error .snapshotByteLimit
      else .ok (value, { budget with bytes := total })

/-- `RetentionBudget::literal`. -/
def literal (value : String) (depth : Nat) : Retention String := do
  node depth
  pure value

/-- An early return of an error. -/
def fail {α : Type} (reason : ToolPayloadOmissionReason) : Retention α := fun _ => .error reason

end Retention

/-- The entries of a `Map` under construction. -/
abbrev Entries := List (String × Json)

/-- `value.insert(key, Value::String(retention.string(text, depth)?))`. -/
def insertString (key text : String) (depth : Nat) (target : Entries) : Retention Entries := do
  let text ← Retention.string text depth
  pure (target ++ [(key, .string text)])

/-- `value.insert(key, Value::String(retention.literal(text, depth)?))`. -/
def insertLiteral (key text : String) (depth : Nat) (target : Entries) : Retention Entries := do
  let text ← Retention.literal text depth
  pure (target ++ [(key, .string text)])

/-- `insert_optional_string`. -/
def insertOptionalString (key : String) (value : Option String) (depth : Nat) (target : Entries) :
    Retention Entries :=
  match value with
  | some value => insertString key value depth target
  | none => pure target

/-- `value.insert(key, build(retention)?)`. -/
def insertValue (key : String) (build : Retention Json) (target : Entries) : Retention Entries := do
  let value ← build
  pure (target ++ [(key, value)])

/-- The text of a role. -/
def Role.text? : Role → Option String
  | .assistant => some "assistant"
  | .user => some "user"
  | .other => none

/-- The loop over the audience. -/
def normalizeRoles : List Role → Retention (List Json)
  | [] => pure []
  | role :: roles =>
    match role.text? with
    | none => Retention.fail .invalidType
    | some text => do
      let text ← Retention.literal text 7
      let normalized ← normalizeRoles roles
      pure (.string text :: normalized)

/-- The `audience` of `insert_annotations`. -/
def insertAudience (audience : Option (List Role)) (target : Entries) : Retention Entries :=
  match audience with
  | none => pure target
  | some audience => insertValue "audience" (do
      Retention.node 6
      let normalized ← normalizeRoles audience
      pure (.array (.ofList normalized))) target

/-- The `priority` of `insert_annotations`. -/
def insertPriority (priority : Option Float64) (target : Entries) : Retention Entries :=
  match priority with
  | none => pure target
  | some priority =>
    match fromF64 priority with
    | none => Retention.fail .invalidType
    | some priority => insertValue "priority" (do
        Retention.node 6
        pure (.number priority)) target

/-- `insert_annotations`. -/
def insertAnnotations (annotations : Option Annotations) (target : Entries) : Retention Entries :=
  match annotations with
  | none => pure target
  | some annotations => insertValue "annotations" (do
      Retention.node 5
      let value ← insertAudience annotations.audience []
      let value ← insertOptionalString "lastModified" annotations.lastModified 6 value
      let value ← insertPriority fromF64 annotations.priority value
      pure (.object (.ofList value))) target

/-- `embedded_resource_json`. -/
def embeddedResourceJson (resource : EmbeddedResourceResource) : Retention Json := do
  Retention.node 5
  match resource with
  | .textResourceContents mimeType text uri => do
    let value ← insertOptionalString "mimeType" mimeType 6 []
    let value ← insertString "text" text 6 value
    let value ← insertString "uri" uri 6 value
    pure (.object (.ofList value))
  | .blobResourceContents blob mimeType uri => do
    let value ← insertString "blob" blob 6 []
    let value ← insertOptionalString "mimeType" mimeType 6 value
    let value ← insertString "uri" uri 6 value
    pure (.object (.ofList value))
  | .other => Retention.fail .invalidType

/-- The `size` of a resource link. -/
def insertSize (size : Option Int) (target : Entries) : Retention Entries :=
  match size with
  | none => pure target
  | some size => insertValue "size" (do
      Retention.node 5
      pure (.number (.ofInt size))) target

/-- `content_block_json`. -/
def contentBlockJson (content : ContentBlock) : Retention Json := do
  Retention.node 4
  match content with
  | .text annotations text => do
    let value ← insertAnnotations fromF64 annotations []
    let value ← insertString "text" text 5 value
    let value ← insertLiteral "type" "text" 5 value
    pure (.object (.ofList value))
  | .image annotations data mimeType uri => do
    let value ← insertAnnotations fromF64 annotations []
    let value ← insertString "data" data 5 value
    let value ← insertString "mimeType" mimeType 5 value
    let value ← insertOptionalString "uri" uri 5 value
    let value ← insertLiteral "type" "image" 5 value
    pure (.object (.ofList value))
  | .audio annotations data mimeType => do
    let value ← insertAnnotations fromF64 annotations []
    let value ← insertString "data" data 5 value
    let value ← insertString "mimeType" mimeType 5 value
    let value ← insertLiteral "type" "audio" 5 value
    pure (.object (.ofList value))
  | .resourceLink annotations description mimeType name size title uri => do
    let value ← insertAnnotations fromF64 annotations []
    let value ← insertOptionalString "description" description 5 value
    let value ← insertOptionalString "mimeType" mimeType 5 value
    let value ← insertString "name" name 5 value
    let value ← insertSize size value
    let value ← insertOptionalString "title" title 5 value
    let value ← insertString "uri" uri 5 value
    let value ← insertLiteral "type" "resource_link" 5 value
    pure (.object (.ofList value))
  | .resource annotations resource => do
    let value ← insertAnnotations fromF64 annotations []
    let value ← insertValue "resource" (embeddedResourceJson resource) value
    let value ← insertLiteral "type" "resource" 5 value
    pure (.object (.ofList value))
  | .other => Retention.fail .invalidType

/-- `tool_content_json`. -/
def toolContentJson (content : ToolCallContent) : Retention Json := do
  Retention.node 3
  match content with
  | .content content => do
    let value ← insertValue "content" (contentBlockJson fromF64 content) []
    let value ← insertLiteral "type" "content" 4 value
    pure (.object (.ofList value))
  | .diff path newText oldText =>
    match path.toStr with
    | none => Retention.fail .invalidType
    | some path => do
      let value ← insertString "newText" newText 4 []
      let value ← insertOptionalString "oldText" oldText 4 value
      let value ← insertString "path" path 4 value
      let value ← insertLiteral "type" "diff" 4 value
      pure (.object (.ofList value))
  | .terminal terminalId => do
    let value ← insertString "terminalId" terminalId 4 []
    let value ← insertLiteral "type" "terminal" 4 value
    pure (.object (.ofList value))
  | .other => Retention.fail .invalidType

/-- The loop of `normalize_content`. -/
def normalizeItems : List ToolCallContent → Retention (List Json)
  | [] => pure []
  | item :: content => do
    let value ← toolContentJson fromF64 item
    let normalized ← normalizeItems content
    pure (value :: normalized)

/-- `normalize_content`. -/
def normalizeContent (content : List ToolCallContent) : Retention (List Json) := do
  Retention.node 2
  normalizeItems fromF64 content

/-- `SinkOnlyToolLocation`. -/
structure SinkOnlyToolLocation where
  path : String
  line : Option Nat
deriving DecidableEq

/-- The node of a line. -/
def lineNode (line : Option Nat) : Retention Unit :=
  if line.isSome then Retention.node 4 else pure ()

/-- The loop of `normalize_locations`. -/
def normalizeLocationItems : List ToolCallLocation → Retention (List SinkOnlyToolLocation)
  | [] => pure []
  | location :: locations =>
    match location.path.toStr with
    | none => Retention.fail .invalidType
    | some path => do
      Retention.node 3
      let path ← Retention.string path 4
      lineNode location.line
      let normalized ← normalizeLocationItems locations
      pure (⟨path, location.line⟩ :: normalized)

/-- `normalize_locations`. -/
def normalizeLocations (locations : List ToolCallLocation) :
    Retention (List SinkOnlyToolLocation) := do
  Retention.node 2
  normalizeLocationItems locations

/-- `location_json`. -/
def locationJson (location : SinkOnlyToolLocation) : Json :=
  .object (.ofList (location.line.toList.map (fun line => ("line", .nat line)) ++
    [("path", .string location.path)]))

/-! ## Capture -/

/-- `SinkOnlyToolInput`. -/
structure SinkOnlyToolInput where
  rawInput : Option Json
  canonicalBytes : Nat
  omissionReason : Option ToolPayloadOmissionReason

/-- `SinkOnlyToolInput::omitted`. -/
def SinkOnlyToolInput.omitted (reason : ToolPayloadOmissionReason) : SinkOnlyToolInput :=
  ⟨none, 0, some reason⟩

/-- `SinkOnlyToolOutput`. -/
structure SinkOnlyToolOutput where
  rawOutput : Option Json
  content : List Json
  locations : List SinkOnlyToolLocation
  canonicalBytes : Nat
  omissionReason : Option ToolPayloadOmissionReason

/-- `SinkOnlyToolOutput::omitted`. -/
def SinkOnlyToolOutput.omitted (reason : ToolPayloadOmissionReason) : SinkOnlyToolOutput :=
  ⟨none, [], [], 0, some reason⟩

/-- `capture_input`. -/
def captureInput (value : Json) : SinkOnlyToolInput :=
  match checkedSnapshotSize writer value with
  | .ok canonicalBytes => ⟨some (canonicalizeJson value), canonicalBytes, none⟩
  | .error reason => .omitted reason

/-- The raw output as `capture_output` keeps it, with its resources. -/
def captureRawOutput (rawOutput : Option Json) :
    Except ToolPayloadOmissionReason (Option Json × CheckedResources) :=
  match rawOutput with
  | none => .ok (none, ⟨0, 1⟩)
  | some rawOutput => do
    let resources ← checkedComponentResources writer rawOutput 2 1
    .ok (some (canonicalizeJson rawOutput), resources)

/-- The content as `capture_output` keeps it. -/
def captureContent : Option (List ToolCallContent) → Retention (List Json)
  | some content => normalizeContent fromF64 content
  | none => pure []

/-- The locations as `capture_output` keeps them. -/
def captureLocations : Option (List ToolCallLocation) → Retention (List SinkOnlyToolLocation)
  | some locations => normalizeLocations locations
  | none => pure []

/-- The typed parts, one after the other. -/
def captureParts (selected : SelectedOutput) :
    Retention (List Json × List SinkOnlyToolLocation) := do
  let content ← captureContent fromF64 selected.content
  let locations ← captureLocations selected.locations
  pure (content, locations)

/-- The entries of the snapshot. -/
def snapshotEntries (selected : SelectedOutput) (rawOutput : Option Json) (content : List Json)
    (locations : List SinkOnlyToolLocation) : Entries :=
  (if selected.content.isSome then [("content", .array (.ofList content))] else []) ++
    (if selected.locations.isSome then
      [("locations", .array (.ofList (locations.map locationJson)))] else []) ++
    rawOutput.toList.map fun rawOutput => ("raw_output", rawOutput)

/-- The body of `capture_output`, whose early returns are its errors. -/
def tryCaptureOutput (selected : SelectedOutput) :
    Except ToolPayloadOmissionReason SinkOnlyToolOutput := do
  let (rawOutput, resources) ← captureRawOutput writer selected.rawOutput
  let ((content, locations), _) ←
    (captureParts fromF64 selected).run ⟨resources.bytes, resources.nodes⟩
  let canonicalBytes ← checkedSnapshotSize writer
    (.object (.ofList (snapshotEntries selected rawOutput content locations)))
  .ok ⟨rawOutput, content, locations, canonicalBytes, none⟩

/-- `capture_output`. -/
def captureOutput (selected : SelectedOutput) : SinkOnlyToolOutput :=
  match tryCaptureOutput writer fromF64 selected with
  | .ok output => output
  | .error reason => .omitted reason

end Capture

/-! ## The act's budget -/

/-- `SinkOnlyToolPayload`, less its identity. -/
structure SinkOnlyToolPayload where
  input : Option SinkOnlyToolInput
  output : Option SinkOnlyToolOutput
  actBudgetApplied : Bool

/-- `AgentToolPayloadActBudget`. -/
structure AgentToolPayloadActBudget where
  acceptedBytes : Nat
  truncated : Bool

namespace AgentToolPayloadActBudget

/-- `AgentToolPayloadActBudget::new`. -/
def new : AgentToolPayloadActBudget := ⟨0, false⟩

/-- `remaining_bytes`; `none` where the subtraction overflows. -/
def remainingBytes (budget : AgentToolPayloadActBudget) : Option Nat :=
  checkedSub actToolPayloadMaxBytes budget.acceptedBytes

/-- `admit`; `none` where an operation overflows. -/
def admitBytes (budget : AgentToolPayloadActBudget) (bytes : Nat) :
    Option (Bool × AgentToolPayloadActBudget) := do
  let remaining ← budget.remainingBytes
  if bytes ≤ remaining then
    let acceptedBytes ← checkedAdd usizeMax budget.acceptedBytes bytes
    some (true, { budget with acceptedBytes })
  else
    some (false, { budget with truncated := true })

/-- `note_omission`. -/
def noteOmission (budget : AgentToolPayloadActBudget) (_ : ToolPayloadOmissionReason) :
    AgentToolPayloadActBudget := { budget with truncated := true }

/-- One direction of `apply_act_budget`: a kept part is admitted or omitted. -/
def applyPart {α : Type} (omissionReason : α → Option ToolPayloadOmissionReason)
    (canonicalBytes : α → Nat) (omitted : ToolPayloadOmissionReason → α)
    (budget : AgentToolPayloadActBudget) (part : α) : Option (α × AgentToolPayloadActBudget) :=
  match omissionReason part with
  | some reason => some (part, budget.noteOmission reason)
  | none => do
    let (admitted, budget) ← budget.admitBytes (canonicalBytes part)
    some (if admitted then part else omitted .actByteLimit, budget)

end AgentToolPayloadActBudget

/-- `if let Some(part) = self.part.as_mut()`. -/
def applyOptional {α : Type}
    (apply : AgentToolPayloadActBudget → α → Option (α × AgentToolPayloadActBudget))
    (budget : AgentToolPayloadActBudget) (part : Option α) :
    Option (Option α × AgentToolPayloadActBudget) :=
  match part with
  | none => some (none, budget)
  | some part => do
    let (part, budget) ← apply budget part
    some (some part, budget)

/-- `apply_act_budget`; `none` where an operation overflows. -/
def SinkOnlyToolPayload.applyActBudget (payload : SinkOnlyToolPayload)
    (budget : AgentToolPayloadActBudget) :
    Option (SinkOnlyToolPayload × AgentToolPayloadActBudget) :=
  if payload.actBudgetApplied then
    some (payload, budget)
  else do
    let (input, budget) ← applyOptional (AgentToolPayloadActBudget.applyPart
      (·.omissionReason) (·.canonicalBytes) SinkOnlyToolInput.omitted) budget payload.input
    let (output, budget) ← applyOptional (AgentToolPayloadActBudget.applyPart
      (·.omissionReason) (·.canonicalBytes) SinkOnlyToolOutput.omitted) budget payload.output
    some (⟨input, output, true⟩, budget)

/-- A sequence of payloads under one budget. -/
def applyPayloads (budget : AgentToolPayloadActBudget) :
    List SinkOnlyToolPayload → Option (List SinkOnlyToolPayload × AgentToolPayloadActBudget)
  | [] => some ([], budget)
  | payload :: payloads => do
    let (applied, budget) ← payload.applyActBudget budget
    let (rest, budget) ← applyPayloads budget payloads
    some (applied :: rest, budget)

end Troupe.Agent.Diagnostics
