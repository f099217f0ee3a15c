import Mathlib.Algebra.Order.BigOperators.Group.List
import Troupe.Agent.Diagnostics.Payload

/-! # What tool payload capture keeps

The snapshot of an output, as it is without any limit (`completeSnapshot?`), against what the capture
does under its budget. The budget counts every node and at most the bytes of the text, so it stops
only where the check of the whole snapshot would (`Retains`).

Results: `captureOutput_exact` and `applyAll_budget`, together **`payload_capture`**. -/

namespace Troupe.Agent.Diagnostics

open Troupe.Lib Troupe.Agent

/-! ## The complete snapshot -/

/-- Entries from several parts, each of which may be impossible. -/
def joinEntries : List (Option Entries) → Option Entries
  | [] => some []
  | part :: parts => do
    let entries ← part
    let rest ← joinEntries parts
    some (entries ++ rest)

/-- An object from several parts. -/
def objectOf (parts : List (Option Entries)) : Option Json :=
  (joinEntries parts).map fun entries => .object (.ofList entries)

/-- A string entry. -/
def stringEntry (key text : String) : Option Entries := some [(key, .string text)]

/-- An entry for a string that may be absent. -/
def optionalEntry (key : String) (text : Option String) : Option Entries :=
  some (text.toList.map fun text => (key, .string text))

/-- An entry for a value that may be impossible. -/
def valueEntry (key : String) (value : Option Json) : Option Entries :=
  value.map fun value => [(key, value)]

section Complete

variable (fromF64 : Float64 → Option JsonNumber)

/-- The audience of an annotation. -/
def audienceEntry : Option (List Role) → Option Entries
  | none => some []
  | some roles => valueEntry "audience" ((roles.mapM Role.text?).map fun texts =>
      .array (.ofList (texts.map .string)))

/-- The priority of an annotation, which has to be finite. -/
def priorityEntry : Option Float64 → Option Entries
  | none => some []
  | some priority => valueEntry "priority" ((fromF64 priority).map .number)

/-- The annotations of a block. -/
def annotationsEntry : Option Annotations → Option Entries
  | none => some []
  | some annotations => valueEntry "annotations" (objectOf [
      audienceEntry annotations.audience,
      optionalEntry "lastModified" annotations.lastModified,
      priorityEntry fromF64 annotations.priority])

/-- A resource as JSON. -/
def EmbeddedResourceResource.json? : EmbeddedResourceResource → Option Json
  | .textResourceContents mimeType text uri => objectOf [
      optionalEntry "mimeType" mimeType, stringEntry "text" text, stringEntry "uri" uri]
  | .blobResourceContents blob mimeType uri => objectOf [
      stringEntry "blob" blob, optionalEntry "mimeType" mimeType, stringEntry "uri" uri]
  | .other => none

/-- The size of a resource link. -/
def sizeEntry (size : Option Int) : Option Entries :=
  some (size.toList.map fun size => ("size", .number (.ofInt size)))

/-- A content block as JSON. -/
def ContentBlock.json? : ContentBlock → Option Json
  | .text annotations body => objectOf [
      annotationsEntry fromF64 annotations, stringEntry "text" body, stringEntry "type" "text"]
  | .image annotations data mimeType uri => objectOf [
      annotationsEntry fromF64 annotations, stringEntry "data" data,
      stringEntry "mimeType" mimeType, optionalEntry "uri" uri, stringEntry "type" "image"]
  | .audio annotations data mimeType => objectOf [
      annotationsEntry fromF64 annotations, stringEntry "data" data,
      stringEntry "mimeType" mimeType, stringEntry "type" "audio"]
  | .resourceLink annotations description mimeType name size title uri => objectOf [
      annotationsEntry fromF64 annotations, optionalEntry "description" description,
      optionalEntry "mimeType" mimeType, stringEntry "name" name, sizeEntry size,
      optionalEntry "title" title, stringEntry "uri" uri, stringEntry "type" "resource_link"]
  | .resource annotations embedded => objectOf [
      annotationsEntry fromF64 annotations, valueEntry "resource" embedded.json?,
      stringEntry "type" "resource"]
  | .other => none

/-- A typed content item as JSON. -/
def ToolCallContent.json? : ToolCallContent → Option Json
  | .content block => objectOf [
      valueEntry "content" (block.json? fromF64), stringEntry "type" "content"]
  | .diff path newText oldText => path.toStr.bind fun path => objectOf [
      stringEntry "newText" newText, optionalEntry "oldText" oldText, stringEntry "path" path,
      stringEntry "type" "diff"]
  | .terminal terminalId => objectOf [
      stringEntry "terminalId" terminalId, stringEntry "type" "terminal"]
  | .other => none

/-- A location, whose path has to be text. -/
def ToolCallLocation.sink? (location : ToolCallLocation) : Option SinkOnlyToolLocation :=
  location.path.toStr.map fun path => ⟨path, location.line⟩

/-- The content of an output. -/
def plainContent : Option (List ToolCallContent) → Option (List Json)
  | some content => content.mapM (ToolCallContent.json? fromF64)
  | none => some []

/-- The locations of an output. -/
def plainLocations : Option (List ToolCallLocation) → Option (List SinkOnlyToolLocation)
  | some locations => locations.mapM ToolCallLocation.sink?
  | none => some []

/-- The typed parts of an output. -/
def plainParts (selected : SelectedOutput) : Option (List Json × List SinkOnlyToolLocation) := do
  let content ← plainContent fromF64 selected.content
  let locations ← plainLocations selected.locations
  pure (content, locations)

/-- The snapshot of an output; `none` where a part has no valid type. -/
def completeSnapshot? (selected : SelectedOutput) : Option Json :=
  (plainParts fromF64 selected).map fun (content, locations) =>
    .object (.ofList (snapshotEntries selected (selected.rawOutput.map canonicalizeJson) content
      locations))

end Complete

/-- The resource check of a snapshot: its depth, its nodes and the bytes of its canonical text. -/
structure WithinPayloadLimits (snapshot : Json) : Prop where
  nesting_le : nesting snapshot ≤ toolPayloadMaxDepth
  nodeCount_le : nodeCount snapshot ≤ toolPayloadMaxNodes
  bytes_le : (canonicalizeJson snapshot).toVec.length ≤ toolPayloadSnapshotMaxBytes

/-! ## Measures -/

theorem nesting_le_array {items : List Json} {n : Nat} :
    nesting (.array (.ofList items)) ≤ n + 1 ↔ ∀ item ∈ items, nesting item ≤ n := by
  have hitems : ∀ items : List Json,
      itemsNesting (.ofList items) ≤ n ↔ ∀ item ∈ items, nesting item ≤ n := by
    intro items
    induction items with
    | nil => simp [JsonItems.ofList, itemsNesting]
    | cons item items ih =>
      rw [JsonItems.ofList, itemsNesting, Nat.max_le, ih, List.forall_mem_cons]
  rw [← hitems, nesting]
  omega

theorem nesting_le_object {fields : Entries} {n : Nat} :
    nesting (.object (.ofList fields)) ≤ n + 1 ↔ ∀ field ∈ fields, nesting field.2 ≤ n := by
  have hfields : ∀ fields : Entries,
      fieldsNesting (.ofList fields) ≤ n ↔ ∀ field ∈ fields, nesting field.2 ≤ n := by
    intro fields
    induction fields with
    | nil => simp [JsonFields.ofList, fieldsNesting]
    | cons field fields ih =>
      rw [JsonFields.ofList, fieldsNesting, Nat.max_le, ih, List.forall_mem_cons]
  rw [← hfields, nesting]
  omega

theorem nodeCount_array (items : List Json) :
    nodeCount (.array (.ofList items)) = 1 + (items.map nodeCount).sum := by
  have hitems : ∀ items : List Json,
      itemsNodeCount (.ofList items) = (items.map nodeCount).sum := by
    intro items
    induction items with
    | nil => rfl
    | cons item items ih => rw [JsonItems.ofList, itemsNodeCount, ih, List.map_cons, List.sum_cons]
  rw [nodeCount, hitems]

theorem nodeCount_object (fields : Entries) :
    nodeCount (.object (.ofList fields)) = 1 + (fields.map fun field => nodeCount field.2).sum := by
  have hfields : ∀ fields : Entries,
      fieldsNodeCount (.ofList fields) = (fields.map fun field => nodeCount field.2).sum := by
    intro fields
    induction fields with
    | nil => rfl
    | cons field fields ih =>
      rw [JsonFields.ofList, fieldsNodeCount, ih, List.map_cons, List.sum_cons]
  rw [nodeCount, hfields]

/-- Two values of the same depth, nodes and size. -/
structure SameResources (a b : Json) : Prop where
  nesting : nesting a = nesting b
  nodeCount : nodeCount a = nodeCount b
  size : a.size = b.size

theorem SameResources.refl (value : Json) : SameResources value value := ⟨rfl, rfl, rfl⟩

theorem JsonItems.ofList_toList (items : JsonItems) : .ofList items.toList = items := by
  match items with
  | .nil => rfl
  | .cons value rest => rw [JsonItems.toList, JsonItems.ofList, ofList_toList rest]

theorem JsonFields.ofList_toList (fields : JsonFields) : .ofList fields.toList = fields := by
  match fields with
  | .nil => rfl
  | .cons key value rest => rw [JsonFields.toList, JsonFields.ofList, ofList_toList rest]

theorem sum_eq_of_forall₂ {α : Type} {R : α → α → Prop} {f : α → Nat}
    (h : ∀ a b, R a b → f a = f b) {xs ys : List α} (hsame : List.Forall₂ R xs ys) :
    (xs.map f).sum = (ys.map f).sum := by
  induction hsame with
  | nil => rfl
  | cons hhead _ ih => rw [List.map_cons, List.map_cons, List.sum_cons, List.sum_cons, h _ _ hhead, ih]

theorem forall_of_forall₂ {α : Type} {R : α → α → Prop} {p : α → Prop}
    (h : ∀ a b, R a b → (p a ↔ p b)) {xs ys : List α} (hsame : List.Forall₂ R xs ys) :
    (∀ x ∈ xs, p x) ↔ ∀ y ∈ ys, p y := by
  induction hsame with
  | nil => simp
  | cons hhead _ ih => rw [List.forall_mem_cons, List.forall_mem_cons, h _ _ hhead, ih]

theorem eq_of_le_iff {a b : Nat} (ha : 1 ≤ a) (hb : 1 ≤ b)
    (h : ∀ n, a ≤ n + 1 ↔ b ≤ n + 1) : a = b := by
  have h₁ := (h (a - 1)).mp (by omega)
  have h₂ := (h (b - 1)).mpr (by omega)
  omega

/-- Arrays of items with the same resources have the same resources. -/
theorem SameResources.array {xs ys : List Json} (h : List.Forall₂ SameResources xs ys) :
    SameResources (.array (.ofList xs)) (.array (.ofList ys)) where
  nesting := eq_of_le_iff (nesting_pos _) (nesting_pos _) fun n => by
    rw [nesting_le_array, nesting_le_array]
    exact forall_of_forall₂ (fun a b hab => by rw [hab.nesting]) h
  nodeCount := by
    rw [nodeCount_array, nodeCount_array, sum_eq_of_forall₂ (fun a b hab => hab.nodeCount) h]
  size := by
    rw [Json.size_array, Json.size_array, sum_eq_of_forall₂ (fun a b hab => hab.size) h,
      h.length_eq]

/-- So do objects, whatever the order of their fields. -/
theorem SameResources.object {xs ys zs : Entries} (h : List.Forall₂ (fun a b : String × Json =>
    a.1 = b.1 ∧ SameResources a.2 b.2) ys zs) (hperm : xs.Perm ys) :
    SameResources (.object (.ofList xs)) (.object (.ofList zs)) where
  nesting := eq_of_le_iff (nesting_pos _) (nesting_pos _) fun n => by
    rw [nesting_le_object, nesting_le_object,
      ← forall_of_forall₂ (fun a b hab => by rw [hab.2.nesting]) h]
    exact ⟨fun hxs field hfield => hxs field (hperm.mem_iff.mpr hfield),
      fun hys field hfield => hys field (hperm.mem_iff.mp hfield)⟩
  nodeCount := by
    rw [nodeCount_object, nodeCount_object, (hperm.map _).sum_eq,
      sum_eq_of_forall₂ (fun a b hab => hab.2.nodeCount) h]
  size := by
    rw [Json.size_object_perm hperm, Json.size_object, Json.size_object,
      sum_eq_of_forall₂ (fun a b hab => by rw [Json.fieldSize, Json.fieldSize, hab.1, hab.2.size]) h,
      h.length_eq]

mutual

/-- **Canonical order changes no resource.** -/
theorem canonicalizeJson_same (value : Json) : SameResources (canonicalizeJson value) value := by
  cases value with
  | array items =>
    rw [canonicalizeJson]
    conv_rhs => rw [← JsonItems.ofList_toList items]
    exact .array (canonicalizeItems_same items)
  | object fields =>
    rw [canonicalizeJson]
    conv_rhs => rw [← JsonFields.ofList_toList fields]
    exact .object (canonicalizeFields_same fields) (List.mergeSort_perm _ _)
  | null => exact .refl _
  | bool value => exact .refl _
  | number value => exact .refl _
  | string value => exact .refl _

theorem canonicalizeItems_same (items : JsonItems) :
    List.Forall₂ SameResources (canonicalizeItems items) items.toList := by
  cases items with
  | nil => exact .nil
  | cons value rest => exact .cons (canonicalizeJson_same value) (canonicalizeItems_same rest)

theorem canonicalizeFields_same (fields : JsonFields) :
    List.Forall₂ (fun a b : String × Json => a.1 = b.1 ∧ SameResources a.2 b.2)
      (canonicalizeFields fields) fields.toList := by
  cases fields with
  | nil => exact .nil
  | cons key value rest =>
    exact .cons ⟨rfl, canonicalizeJson_same value⟩ (canonicalizeFields_same rest)

end

/-! ## The check of a value -/

theorem countNode_eq_ok {depth nodes counted : Nat} :
    countNode depth nodes = .ok counted ↔
      depth ≤ toolPayloadMaxDepth ∧ nodes + 1 ≤ toolPayloadMaxNodes ∧ counted = nodes + 1 := by
  have hmax : toolPayloadMaxNodes ≤ usizeMax := by decide
  rw [countNode, ite_error_eq_ok, Nat.not_lt]
  refine and_congr_right fun _ => ?_
  rcases hadd : checkedAdd usizeMax nodes 1 with _ | next
  · have hlarge := checkedAdd_eq_none.mp hadd
    constructor
    · rintro ⟨⟩
    · rintro ⟨hfits, -⟩
      omega
  · obtain ⟨-, rfl⟩ := checkedAdd_eq_some.mp hadd
    dsimp only
    rw [ite_error_eq_ok, Nat.not_lt, Except.ok.injEq, @eq_comm _ (nodes + 1)]

mutual

theorem checkJsonResources_eq_ok (value : Json) (depth nodes counted : Nat) :
    checkJsonResources value depth nodes = .ok counted ↔
      depth + nesting value ≤ toolPayloadMaxDepth + 1 ∧
        nodes + nodeCount value ≤ toolPayloadMaxNodes ∧ counted = nodes + nodeCount value := by
  rw [checkJsonResources, bind_eq_ok]
  simp only [countNode_eq_ok]
  cases value with
  | array items =>
    have hnesting : nesting (.array items) = 1 + itemsNesting items := by rw [nesting]
    have hcount : nodeCount (.array items) = 1 + itemsNodeCount items := by rw [nodeCount]
    constructor
    · rintro ⟨_, ⟨hdepth, hnodes, rfl⟩, hitems⟩
      rw [checkItemsResources_eq_ok items _ _ _ (by omega) hnodes] at hitems
      omega
    · rintro ⟨hdepth, hnodes, hcounted⟩
      refine ⟨_, ⟨by omega, by omega, rfl⟩, ?_⟩
      rw [checkItemsResources_eq_ok items _ _ _ (by omega) (by omega)]
      omega
  | object fields =>
    have hnesting : nesting (.object fields) = 1 + fieldsNesting fields := by rw [nesting]
    have hcount : nodeCount (.object fields) = 1 + fieldsNodeCount fields := by rw [nodeCount]
    constructor
    · rintro ⟨_, ⟨hdepth, hnodes, rfl⟩, hfields⟩
      rw [checkFieldsResources_eq_ok fields _ _ _ (by omega) hnodes] at hfields
      omega
    · rintro ⟨hdepth, hnodes, hcounted⟩
      refine ⟨_, ⟨by omega, by omega, rfl⟩, ?_⟩
      rw [checkFieldsResources_eq_ok fields _ _ _ (by omega) (by omega)]
      omega
  | null | bool | number | string =>
    simp only [nesting, nodeCount, Except.ok.injEq]
    constructor
    · rintro ⟨_, ⟨hdepth, hnodes, rfl⟩, rfl⟩
      omega
    · rintro ⟨hdepth, hnodes, rfl⟩
      exact ⟨_, ⟨by omega, hnodes, rfl⟩, rfl⟩

theorem checkItemsResources_eq_ok (items : JsonItems) (depth nodes counted : Nat)
    (hdepth : depth ≤ toolPayloadMaxDepth + 1) (hnodes : nodes ≤ toolPayloadMaxNodes) :
    checkItemsResources items depth nodes = .ok counted ↔
      depth + itemsNesting items ≤ toolPayloadMaxDepth + 1 ∧
        nodes + itemsNodeCount items ≤ toolPayloadMaxNodes ∧
        counted = nodes + itemsNodeCount items := by
  cases items with
  | nil =>
    simp only [checkItemsResources, itemsNesting, itemsNodeCount, Except.ok.injEq]
    omega
  | cons value rest =>
    rw [checkItemsResources, bind_eq_ok, itemsNesting, itemsNodeCount]
    constructor
    · rintro ⟨middle, hvalue, hrest⟩
      obtain ⟨hfits, hmiddle, rfl⟩ := (checkJsonResources_eq_ok value _ _ _).mp hvalue
      rw [checkItemsResources_eq_ok rest _ _ _ hdepth hmiddle] at hrest
      omega
    · rintro ⟨hfits, hcount, hcounted⟩
      refine ⟨_, (checkJsonResources_eq_ok value _ _ _).mpr ⟨by omega, by omega, rfl⟩, ?_⟩
      rw [checkItemsResources_eq_ok rest _ _ _ hdepth (by omega)]
      omega

theorem checkFieldsResources_eq_ok (fields : JsonFields) (depth nodes counted : Nat)
    (hdepth : depth ≤ toolPayloadMaxDepth + 1) (hnodes : nodes ≤ toolPayloadMaxNodes) :
    checkFieldsResources fields depth nodes = .ok counted ↔
      depth + fieldsNesting fields ≤ toolPayloadMaxDepth + 1 ∧
        nodes + fieldsNodeCount fields ≤ toolPayloadMaxNodes ∧
        counted = nodes + fieldsNodeCount fields := by
  cases fields with
  | nil =>
    simp only [checkFieldsResources, fieldsNesting, fieldsNodeCount, Except.ok.injEq]
    omega
  | cons key value rest =>
    rw [checkFieldsResources, bind_eq_ok, fieldsNesting, fieldsNodeCount]
    constructor
    · rintro ⟨middle, hvalue, hrest⟩
      obtain ⟨hfits, hmiddle, rfl⟩ := (checkJsonResources_eq_ok value _ _ _).mp hvalue
      rw [checkFieldsResources_eq_ok rest _ _ _ hdepth hmiddle] at hrest
      omega
    · rintro ⟨hfits, hcount, hcounted⟩
      refine ⟨_, (checkJsonResources_eq_ok value _ _ _).mpr ⟨by omega, by omega, rfl⟩, ?_⟩
      rw [checkFieldsResources_eq_ok rest _ _ _ hdepth (by omega)]
      omega

end

/-- The counter takes everything within its limit, and fails beyond it, however the text is cut. -/
theorem applyAll_write (pieces : List (List UInt8)) (counter : CappedByteCounter)
    (hlimit : counter.limit ≤ usizeMax) (hbytes : counter.bytes ≤ counter.limit) :
    (counter.bytes + pieces.flatten.length ≤ counter.limit ∧
      applyAll CappedByteCounter.write counter pieces =
        (.ok (), { counter with bytes := counter.bytes + pieces.flatten.length })) ∨
    (counter.limit < counter.bytes + pieces.flatten.length ∧
      ∃ last, applyAll CappedByteCounter.write counter pieces = (.error (), last) ∧
        last.exceeded = true) := by
  induction pieces generalizing counter with
  | nil => exact .inl ⟨hbytes, rfl⟩
  | cons piece pieces ih =>
    rw [List.flatten_cons, List.length_append, applyAll]
    by_cases hfits : counter.bytes + piece.length ≤ counter.limit
    · have hwrite : counter.write piece =
          (.ok (), { counter with bytes := counter.bytes + piece.length }) := by
        rw [CappedByteCounter.write, checkedAdd_of_le (Nat.le_trans hfits hlimit)]
        exact if_neg (Nat.not_lt.mpr hfits)
      rw [hwrite]
      dsimp only
      rcases ih { counter with bytes := counter.bytes + piece.length } hlimit hfits with
        ⟨hrest, happly⟩ | ⟨hrest, happly⟩
      · refine .inl ⟨by dsimp only at hrest; omega, ?_⟩
        rw [happly, Nat.add_assoc]
      · exact .inr ⟨by dsimp only at hrest; omega, happly⟩
    · refine .inr ⟨by omega, ?_⟩
      rw [CappedByteCounter.write]
      rcases hadd : checkedAdd usizeMax counter.bytes piece.length with _ | total
      · exact ⟨_, rfl, rfl⟩
      · obtain ⟨-, rfl⟩ := checkedAdd_eq_some.mp hadd
        simp only [if_pos (Nat.lt_of_not_le hfits)]
        exact ⟨_, rfl, rfl⟩

section Capture

variable {writer : JsonWriter} {fromF64 : Float64 → Option JsonNumber}

theorem checkedComponentResources_eq_ok {value : Json} {depth initialNodes : Nat}
    {resources : CheckedResources} :
    checkedComponentResources writer value depth initialNodes = .ok resources ↔
      depth + nesting value ≤ toolPayloadMaxDepth + 1 ∧
        initialNodes + nodeCount value ≤ toolPayloadMaxNodes ∧
        value.size ≤ toolPayloadSnapshotMaxBytes ∧
        resources = ⟨value.size, initialNodes + nodeCount value⟩ := by
  rw [checkedComponentResources, bind_eq_ok]
  simp only [checkJsonResources_eq_ok]
  have hsize : (writer.pieces value).flatten.length = value.size := by
    rw [writer.written, Json.length_toVec]
  rcases applyAll_write (writer.pieces value) ⟨0, toolPayloadSnapshotMaxBytes, false⟩ (by decide)
      (Nat.zero_le _) with ⟨hfits, happly⟩ | ⟨hexceeds, last, happly, hlast⟩
  · rw [happly]
    dsimp only at hfits ⊢
    rw [hsize, Nat.zero_add] at hfits ⊢
    simp only [Except.ok.injEq, hfits, true_and]
    constructor
    · rintro ⟨nodes, ⟨hdepth, hnodes, rfl⟩, rfl⟩
      exact ⟨hdepth, hnodes, rfl⟩
    · rintro ⟨hdepth, hnodes, rfl⟩
      exact ⟨_, ⟨hdepth, hnodes, rfl⟩, rfl⟩
  · rw [happly]
    dsimp only at hexceeds ⊢
    rw [hsize, Nat.zero_add] at hexceeds
    rw [hlast, if_pos rfl]
    constructor
    · rintro ⟨nodes, -, ⟨⟩⟩
    · rintro ⟨-, -, hfits, -⟩
      exact absurd hfits (Nat.not_le.mpr hexceeds)

theorem checkedSnapshotSize_eq_ok {value : Json} {bytes : Nat} :
    checkedSnapshotSize writer value = .ok bytes ↔
      WithinPayloadLimits value ∧ bytes = (canonicalizeJson value).toVec.length := by
  have hsame := canonicalizeJson_same value
  have hmap : checkedSnapshotSize writer value =
      CheckedResources.bytes <$> checkedComponentResources writer value 1 0 := rfl
  rw [hmap, map_eq_ok, Json.length_toVec, hsame.size]
  simp only [checkedComponentResources_eq_ok, Nat.zero_add]
  have hlimits : WithinPayloadLimits value ↔ 1 + nesting value ≤ toolPayloadMaxDepth + 1 ∧
      nodeCount value ≤ toolPayloadMaxNodes ∧ value.size ≤ toolPayloadSnapshotMaxBytes := by
    rw [Nat.add_comm 1, Nat.add_le_add_iff_right]
    constructor
    · rintro ⟨hdepth, hnodes, hbytes⟩
      rw [Json.length_toVec, hsame.size] at hbytes
      exact ⟨hdepth, hnodes, hbytes⟩
    · rintro ⟨hdepth, hnodes, hbytes⟩
      exact ⟨hdepth, hnodes, by rwa [Json.length_toVec, hsame.size]⟩
  rw [hlimits]
  constructor
  · rintro ⟨resources, ⟨hdepth, hnodes, hbytes, rfl⟩, rfl⟩
    exact ⟨⟨hdepth, hnodes, hbytes⟩, rfl⟩
  · rintro ⟨⟨hdepth, hnodes, hbytes⟩, rfl⟩
    exact ⟨_, ⟨hdepth, hnodes, hbytes, rfl⟩, rfl⟩

end Capture

/-! ## Retention -/

/-- A budget has room for values at a depth. -/
structure Room (budget : RetentionBudget) (depth : Nat) (values : List Json) : Prop where
  depth_le : ∀ value ∈ values, depth + nesting value ≤ toolPayloadMaxDepth + 1
  nodes_le : budget.nodes + (values.map nodeCount).sum ≤ toolPayloadMaxNodes
  bytes_le : budget.bytes + (values.map Json.size).sum ≤ toolPayloadSnapshotMaxBytes

/-- The budget after values: every node is counted, and at most the bytes of the text. -/
structure Spent (budget budget' : RetentionBudget) (values : List Json) : Prop where
  nodes : budget'.nodes = budget.nodes + (values.map nodeCount).sum
  bytes : budget'.bytes ≤ budget.bytes + (values.map Json.size).sum

/-- A function under the budget gives what it gives without one, and fails only when there is no room
for it. -/
structure Retains {α : Type} (retention : Retention α) (plain : Option α) (values : α → List Json)
    (depth : Nat) : Prop where
  sound : ∀ {budget a budget'}, retention budget = .ok (a, budget') → plain = some a
  complete : ∀ {budget a}, plain = some a → Room budget depth (values a) →
    ∃ budget', retention budget = .ok (a, budget') ∧ Spent budget budget' (values a)

/-- An insertion under the budget. -/
structure Adds (insertion : Entries → Retention Entries) (plain : Option Entries) (depth : Nat) :
    Prop where
  sound : ∀ {target budget entries budget'}, insertion target budget = .ok (entries, budget') →
    ∃ added, plain = some added ∧ entries = target ++ added
  complete : ∀ {target budget added}, plain = some added →
    Room budget depth (added.map Prod.snd) →
    ∃ budget', insertion target budget = .ok (target ++ added, budget') ∧
      Spent budget budget' (added.map Prod.snd)

/-- The rest of an object, when some entries are there. -/
structure Finishes (rest : Entries → Retention Json) (parts : List (Option Entries)) (depth : Nat) :
    Prop where
  sound : ∀ {target budget value budget'}, rest target budget = .ok (value, budget') →
    ∃ added, joinEntries parts = some added ∧ value = .object (.ofList (target ++ added))
  complete : ∀ {target budget added}, joinEntries parts = some added →
    Room budget depth (added.map Prod.snd) →
    ∃ budget', rest target budget = .ok (.object (.ofList (target ++ added)), budget') ∧
      Spent budget budget' (added.map Prod.snd)

section Rules

variable {budget budget' budget'' : RetentionBudget} {depth : Nat} {xs ys : List Json} {α : Type}

theorem Spent.nil : Spent budget budget [] := ⟨rfl, Nat.le_refl _⟩

theorem Spent.append (h : Spent budget budget' xs) (h' : Spent budget' budget'' ys) :
    Spent budget budget'' (xs ++ ys) := by
  obtain ⟨hnodes, hbytes⟩ := h
  obtain ⟨hnodes', hbytes'⟩ := h'
  constructor <;> rw [List.map_append, List.sum_append] <;> omega

theorem Room.left (h : Room budget depth (xs ++ ys)) : Room budget depth xs := by
  obtain ⟨hdepth, hnodes, hbytes⟩ := h
  rw [List.map_append, List.sum_append] at hnodes hbytes
  exact ⟨fun value hvalue => hdepth value (List.mem_append_left _ hvalue), by omega, by omega⟩

theorem Room.right (h : Room budget depth (xs ++ ys)) (hspent : Spent budget budget' xs) :
    Room budget' depth ys := by
  obtain ⟨hdepth, hnodes, hbytes⟩ := h
  obtain ⟨hnodes', hbytes'⟩ := hspent
  rw [List.map_append, List.sum_append] at hnodes hbytes
  exact ⟨fun value hvalue => hdepth value (List.mem_append_right _ hvalue), by omega, by omega⟩

theorem bind_retention_eq_ok {α β : Type} {m : Retention α} {f : α → Retention β}
    {result : β × RetentionBudget} :
    (m >>= f) budget = .ok result ↔ ∃ a middle, m budget = .ok (a, middle) ∧
      f a middle = .ok result := by
  have hbind : (m >>= f) budget = m budget >>= fun answer => f answer.1 answer.2 := rfl
  rw [hbind, bind_eq_ok]
  constructor
  · rintro ⟨⟨a, middle⟩, hm, hf⟩
    exact ⟨a, middle, hm, hf⟩
  · rintro ⟨a, middle, hm, hf⟩
    exact ⟨(a, middle), hm, hf⟩

theorem node_eq_ok {answer : Unit × RetentionBudget} :
    Retention.node depth budget = .ok answer ↔ depth ≤ toolPayloadMaxDepth ∧
      budget.nodes + 1 ≤ toolPayloadMaxNodes ∧
      answer = ((), { budget with nodes := budget.nodes + 1 }) := by
  rw [Retention.node, bind_eq_ok]
  simp only [countNode_eq_ok, Except.ok.injEq]
  constructor
  · rintro ⟨_, ⟨hdepth, hnodes, rfl⟩, rfl⟩
    exact ⟨hdepth, hnodes, rfl⟩
  · rintro ⟨hdepth, hnodes, rfl⟩
    exact ⟨_, ⟨hdepth, hnodes, rfl⟩, rfl⟩

theorem string_eq_ok {text : String} {answer : String × RetentionBudget} :
    Retention.string text depth budget = .ok answer ↔ depth ≤ toolPayloadMaxDepth ∧
      budget.nodes + 1 ≤ toolPayloadMaxNodes ∧
      budget.bytes + text.utf8ByteSize ≤ toolPayloadSnapshotMaxBytes ∧
      answer = (text, ⟨budget.bytes + text.utf8ByteSize, budget.nodes + 1⟩) := by
  have hmax : toolPayloadSnapshotMaxBytes ≤ usizeMax := by decide
  rw [Retention.string, bind_retention_eq_ok]
  simp only [node_eq_ok]
  constructor
  · rintro ⟨_, middle, ⟨hdepth, hnodes, hmiddle⟩, hstring⟩
    cases hmiddle
    rcases hadd : checkedAdd usizeMax budget.bytes text.utf8ByteSize with _ | total
    · simp only [hadd] at hstring
      cases hstring
    · obtain ⟨-, rfl⟩ := checkedAdd_eq_some.mp hadd
      simp only [hadd] at hstring
      rw [ite_error_eq_ok, Nat.not_lt] at hstring
      exact ⟨hdepth, hnodes, hstring.1, (Except.ok.inj hstring.2).symm⟩
  · rintro ⟨hdepth, hnodes, hfits, rfl⟩
    refine ⟨(), _, ⟨hdepth, hnodes, rfl⟩, ?_⟩
    have hadd : checkedAdd usizeMax budget.bytes text.utf8ByteSize =
        some (budget.bytes + text.utf8ByteSize) :=
      checkedAdd_eq_some.mpr ⟨Nat.le_trans hfits hmax, rfl⟩
    simp only [hadd]
    rw [ite_error_eq_ok, Nat.not_lt]
    exact ⟨hfits, rfl⟩

/-- A value and what is in it, one level down. -/
structure Contains (value : Json) (values : List Json) : Prop where
  nesting : ∀ n, nesting value ≤ n + 1 → ∀ inner ∈ values, Troupe.Agent.nesting inner ≤ n
  nodeCount : nodeCount value = 1 + (values.map Troupe.Agent.nodeCount).sum
  size : (values.map Json.size).sum ≤ value.size

theorem contains_array (items : List Json) : Contains (.array (.ofList items)) items where
  nesting n h := nesting_le_array.mp h
  nodeCount := nodeCount_array items
  size := by
    rw [Json.size_array]
    omega

theorem contains_object (fields : Entries) :
    Contains (.object (.ofList fields)) (fields.map Prod.snd) where
  nesting n h inner hinner := by
    obtain ⟨field, hfield, rfl⟩ := List.mem_map.mp hinner
    exact nesting_le_object.mp h field hfield
  nodeCount := by
    rw [nodeCount_object, List.map_map]
    rfl
  size := by
    have hfields : ((fields.map Prod.snd).map Json.size).sum ≤ (fields.map Json.fieldSize).sum := by
      rw [List.map_map]
      refine List.sum_le_sum fun field _ => ?_
      rw [Function.comp, Json.fieldSize]
      omega
    rw [Json.size_object]
    omega

theorem contains_number (number : JsonNumber) : Contains (.number number) [] where
  nesting _ _ := List.forall_mem_nil _
  nodeCount := by simp [Troupe.Agent.nodeCount]
  size := Nat.zero_le _

theorem Room.node {value : Json} (h : Room budget depth [value]) (hcontains : Contains value xs) :
    depth ≤ toolPayloadMaxDepth ∧ budget.nodes + 1 ≤ toolPayloadMaxNodes ∧
      Room { budget with nodes := budget.nodes + 1 } (depth + 1) xs := by
  obtain ⟨hdepth, hnodes, hbytes⟩ := h
  have hdepth := hdepth value (List.mem_singleton_self _)
  have hpos := nesting_pos value
  have hcount := hcontains.nodeCount
  have hsize := hcontains.size
  rw [List.map_singleton, List.sum_singleton] at hnodes hbytes
  refine ⟨by omega, by omega, fun inner hinner => ?_, ?_, ?_⟩
  · have hinner := hcontains.nesting (toolPayloadMaxDepth - depth) (by omega) inner hinner
    omega
  · dsimp only
    omega
  · dsimp only
    omega

theorem Spent.node {value : Json} (hcontains : Contains value xs)
    (h : Spent { budget with nodes := budget.nodes + 1 } budget' xs) :
    Spent budget budget' [value] := by
  obtain ⟨hnodes, hbytes⟩ := h
  have hcount := hcontains.nodeCount
  have hsize := hcontains.size
  dsimp only at hnodes hbytes
  constructor
  · rw [List.map_singleton, List.sum_singleton]
    omega
  · rw [List.map_singleton, List.sum_singleton]
    omega

/-- A node over something one level down. -/
theorem Retains.under {retention : Retention α} {plain : Option α}
    {values : α → List Json} (wrap : α → Json) (h : Retains retention plain values (depth + 1))
    (hcontains : ∀ a, Contains (wrap a) (values a)) :
    Retains (do Retention.node depth; retention) plain (fun a => [wrap a]) depth where
  sound := by
    intro budget a budget' hok
    obtain ⟨_, middle, -, hretention⟩ := bind_retention_eq_ok.mp hok
    exact h.sound hretention
  complete := by
    intro budget a hplain hroom
    obtain ⟨hdepth, hnodes, hinner⟩ := hroom.node (hcontains a)
    obtain ⟨budget', hretention, hspent⟩ := h.complete hplain hinner
    refine ⟨budget', ?_, hspent.node (hcontains a)⟩
    exact bind_retention_eq_ok.mpr ⟨(), _, node_eq_ok.mpr ⟨hdepth, hnodes, rfl⟩, hretention⟩

/-- The value that a result stands for. -/
theorem Retains.wrapped {retention : Retention α} {plain : Option α} (wrap : α → Json)
    (h : Retains retention plain (fun a => [wrap a]) depth) :
    Retains (do let a ← retention; pure (wrap a)) (plain.map wrap) (fun value => [value]) depth where
  sound := by
    intro budget value budget' hok
    obtain ⟨a, middle, hretention, hok⟩ := bind_retention_eq_ok.mp hok
    cases hok
    rw [h.sound hretention]
    rfl
  complete := by
    intro budget value hplain hroom
    obtain ⟨a, hsome, rfl⟩ := Option.map_eq_some_iff.mp hplain
    obtain ⟨budget', hretention, hspent⟩ := h.complete hsome hroom
    exact ⟨budget', bind_retention_eq_ok.mpr ⟨a, budget', hretention, rfl⟩, hspent⟩

/-- A node, whose value is made of what is one level down. -/
theorem Retains.node {retention : Retention α} {plain : Option α}
    {values : α → List Json} (wrap : α → Json) (h : Retains retention plain values (depth + 1))
    (hcontains : ∀ a, Contains (wrap a) (values a)) :
    Retains (do Retention.node depth; let a ← retention; pure (wrap a)) (plain.map wrap)
      (fun value => [value]) depth := by
  have hwrapped := (h.under wrap hcontains).wrapped wrap
  rwa [bind_assoc] at hwrapped

/-- Two results, one after the other, and what is made of them. -/
theorem Retains.both {α β γ : Type} {first : Retention α} {second : Retention β}
    {plain : Option α} {plain' : Option β} {values : α → List Json} {values' : β → List Json}
    (h : Retains first plain values depth) (h' : Retains second plain' values' depth)
    (f : α → β → γ) (all : γ → List Json) (hall : ∀ a b, all (f a b) = values a ++ values' b) :
    Retains (do let a ← first; let b ← second; pure (f a b))
      (do let a ← plain; let b ← plain'; pure (f a b)) all depth where
  sound := by
    intro budget answer budget' hok
    obtain ⟨a, middle, hfirst, hok⟩ := bind_retention_eq_ok.mp hok
    obtain ⟨b, last, hsecond, hok⟩ := bind_retention_eq_ok.mp hok
    cases hok
    rw [h.sound hfirst, h'.sound hsecond]
    rfl
  complete := by
    intro budget answer hplain hroom
    obtain ⟨a, hfirst, hplain⟩ := Option.bind_eq_some_iff.mp hplain
    obtain ⟨b, hsecond, hplain⟩ := Option.bind_eq_some_iff.mp hplain
    cases hplain
    rw [hall] at hroom ⊢
    obtain ⟨middle, hfirst, hspent⟩ := h.complete hfirst hroom.left
    obtain ⟨last, hsecond, hspent'⟩ := h'.complete hsecond (hroom.right hspent)
    exact ⟨last, bind_retention_eq_ok.mpr ⟨a, middle, hfirst,
      bind_retention_eq_ok.mpr ⟨b, last, hsecond, rfl⟩⟩, hspent.append hspent'⟩

/-- One more item of a list. -/
theorem Retains.cons {α β : Type} {first : Retention α} {rest : Retention (List β)}
    {plainFirst : Option α} {plainRest : Option (List β)} {json : β → Json} (wrap : α → β)
    (h : Retains first plainFirst (fun a => [json (wrap a)]) depth)
    (h' : Retains rest plainRest (List.map json) depth) :
    Retains (do let a ← first; let as ← rest; pure (wrap a :: as))
      (do let a ← plainFirst; let as ← plainRest; pure (wrap a :: as)) (List.map json) depth :=
  h.both h' (fun a as => wrap a :: as) _ fun _ _ => rfl

theorem retains_pure (a : α) {values : α → List Json} (hnone : values a = []) :
    Retains (pure a) (some a) values depth where
  sound := by
    rintro budget b budget' ⟨⟩
    rfl
  complete := by
    rintro budget b ⟨⟩ -
    exact ⟨budget, rfl, hnone ▸ .nil⟩

theorem retains_fail (reason : ToolPayloadOmissionReason) {values : α → List Json} :
    Retains (Retention.fail reason) none values depth where
  sound := by
    rintro budget b budget' ⟨⟩
  complete := by
    rintro budget b ⟨⟩

theorem retains_node_fail (reason : ToolPayloadOmissionReason)
    {values : α → List Json} :
    Retains (do Retention.node depth; Retention.fail reason) none values depth where
  sound := by
    intro budget b budget' hok
    obtain ⟨_, middle, -, hok⟩ := bind_retention_eq_ok.mp hok
    cases hok
  complete := by
    rintro budget b ⟨⟩

theorem retains_string (text : String) :
    Retains (Retention.string text depth) (some text) (fun text => [.string text]) depth where
  sound := by
    intro budget a budget' hok
    obtain ⟨-, -, -, hanswer⟩ := string_eq_ok.mp hok
    cases hanswer
    rfl
  complete := by
    rintro budget a ⟨⟩ ⟨hdepth, hnodes, hbytes⟩
    have hdepth := hdepth _ (List.mem_singleton_self _)
    have hsize := Json.size_string text
    rw [← utf8ByteSize_eq] at hsize
    simp only [List.map_singleton, List.sum_singleton, nodeCount, nesting] at hdepth hnodes hbytes
    refine ⟨_, string_eq_ok.mpr ⟨by omega, hnodes, by omega, rfl⟩, ?_, ?_⟩
    · simp only [List.map_singleton, List.sum_singleton, nodeCount]
    · simp only [List.map_singleton, List.sum_singleton]
      omega

theorem retains_literal (text : String) :
    Retains (Retention.literal text depth) (some text) (fun text => [.string text]) depth where
  sound := by
    intro budget a budget' hok
    obtain ⟨_, _, -, hok⟩ := bind_retention_eq_ok.mp hok
    cases hok
    rfl
  complete := by
    rintro budget a ⟨⟩ ⟨hdepth, hnodes, hbytes⟩
    have hdepth := hdepth _ (List.mem_singleton_self _)
    simp only [List.map_singleton, List.sum_singleton, nodeCount, nesting] at hdepth hnodes
    refine ⟨_, bind_retention_eq_ok.mpr ⟨(), _, node_eq_ok.mpr ⟨by omega, hnodes, rfl⟩, rfl⟩, ?_, ?_⟩
    · simp only [List.map_singleton, List.sum_singleton, nodeCount]
    · simp only [List.map_singleton, List.sum_singleton]
      omega

/-- An entry of a value made under the budget. -/
theorem Retains.adds {retention : Retention α} {plain : Option α} {json : α → Json}
    (key : String) (h : Retains retention plain (fun a => [json a]) depth) :
    Adds (fun target => do let a ← retention; pure (target ++ [(key, json a)]))
      (plain.map fun a => [(key, json a)]) depth where
  sound := by
    intro target budget entries budget' hok
    obtain ⟨a, middle, hretention, hok⟩ := bind_retention_eq_ok.mp hok
    cases hok
    exact ⟨_, by rw [h.sound hretention]; rfl, rfl⟩
  complete := by
    intro target budget added hplain hroom
    obtain ⟨a, hsome, rfl⟩ := Option.map_eq_some_iff.mp hplain
    obtain ⟨budget', hretention, hspent⟩ := h.complete hsome hroom
    exact ⟨budget', bind_retention_eq_ok.mpr ⟨a, budget', hretention, rfl⟩, hspent⟩

theorem adds_nothing : Adds (fun target => pure target) (some []) depth where
  sound := by
    rintro target budget entries budget' ⟨⟩
    exact ⟨[], rfl, (List.append_nil _).symm⟩
  complete := by
    rintro target budget added ⟨⟩ -
    rw [List.append_nil]
    exact ⟨budget, rfl, .nil⟩

theorem adds_fail (reason : ToolPayloadOmissionReason) :
    Adds (fun _ => Retention.fail reason) none depth where
  sound := by
    rintro target budget entries budget' ⟨⟩
  complete := by
    rintro target budget added ⟨⟩

theorem adds_string (key text : String) :
    Adds (insertString key text depth) (stringEntry key text) depth :=
  (retains_string text).adds key

theorem adds_literal (key text : String) :
    Adds (insertLiteral key text depth) (stringEntry key text) depth :=
  (retains_literal text).adds key

theorem adds_optional (key : String) (text : Option String) :
    Adds (insertOptionalString key text depth) (optionalEntry key text) depth := by
  cases text with
  | none => exact adds_nothing
  | some text => exact adds_string key text

theorem adds_value (key : String) {build : Retention Json} {plain : Option Json}
    (h : Retains build plain (fun value => [value]) depth) :
    Adds (insertValue key build) (valueEntry key plain) depth := h.adds key

theorem finishes_done : Finishes (fun value => pure (.object (.ofList value))) [] depth where
  sound := by
    rintro target budget value budget' ⟨⟩
    exact ⟨[], rfl, by rw [List.append_nil]⟩
  complete := by
    rintro target budget added ⟨⟩ -
    rw [List.append_nil]
    exact ⟨budget, rfl, .nil⟩

/-- One more part of an object. -/
theorem Adds.then {insertion : Entries → Retention Entries} {plain : Option Entries}
    {rest : Entries → Retention Json} {parts : List (Option Entries)}
    (h : Adds insertion plain depth) (h' : Finishes rest parts depth) :
    Finishes (fun target => insertion target >>= rest) (plain :: parts) depth where
  sound := by
    intro target budget value budget' hok
    obtain ⟨entries, middle, hinsertion, hok⟩ := bind_retention_eq_ok.mp hok
    obtain ⟨added, hplain, rfl⟩ := h.sound hinsertion
    obtain ⟨others, hparts, rfl⟩ := h'.sound hok
    refine ⟨added ++ others, ?_, by rw [List.append_assoc]⟩
    rw [joinEntries, hplain, hparts]
    rfl
  complete := by
    intro target budget added hjoin hroom
    obtain ⟨entries, hplain, hjoin⟩ := Option.bind_eq_some_iff.mp hjoin
    obtain ⟨others, hparts, hjoin⟩ := Option.bind_eq_some_iff.mp hjoin
    cases hjoin
    rw [List.map_append] at hroom ⊢
    obtain ⟨middle, hinsertion, hspent⟩ := h.complete hplain hroom.left
    obtain ⟨last, hrest, hspent'⟩ := h'.complete hparts (hroom.right hspent)
    refine ⟨last, ?_, hspent.append hspent'⟩
    rw [← List.append_assoc]
    exact bind_retention_eq_ok.mpr ⟨_, middle, hinsertion, hrest⟩

/-- An object of parts. -/
theorem Finishes.object {build : Entries → Retention Json} {parts : List (Option Entries)}
    (h : Finishes build parts (depth + 1)) :
    Retains (do Retention.node depth; build []) (objectOf parts) (fun value => [value]) depth where
  sound := by
    intro budget value budget' hok
    obtain ⟨_, middle, -, hok⟩ := bind_retention_eq_ok.mp hok
    obtain ⟨added, hjoin, rfl⟩ := h.sound hok
    rw [objectOf, hjoin]
    rfl
  complete := by
    intro budget value hplain hroom
    obtain ⟨added, hjoin, rfl⟩ := Option.map_eq_some_iff.mp hplain
    obtain ⟨hdepth, hnodes, hinner⟩ := hroom.node (contains_object added)
    obtain ⟨budget', hbuild, hspent⟩ := h.complete hjoin hinner
    refine ⟨budget', ?_, hspent.node (contains_object added)⟩
    exact bind_retention_eq_ok.mpr ⟨(), _, node_eq_ok.mpr ⟨hdepth, hnodes, rfl⟩, hbuild⟩

end Rules

/-! ## The typed parts -/

section Parts

theorem retains_roles (roles : List Role) :
    Retains (normalizeRoles roles) ((roles.mapM Role.text?).map (List.map Json.string))
      (List.map id) 7 := by
  induction roles with
  | nil => exact retains_pure [] rfl
  | cons role roles ih =>
    rw [normalizeRoles, List.mapM_cons]
    rcases role.text? with _ | text
    · exact retains_fail _
    · have hcons := @Retains.cons 7 _ _ _ _ _ _ id Json.string (retains_literal text) ih
      have hplain : (do let a ← some text; let as ← (roles.mapM Role.text?).map (List.map Json.string)
                        pure (Json.string a :: as)) =
          (do let a ← some text; let as ← roles.mapM Role.text?
              pure (a :: as)).map (List.map Json.string) := by
        cases roles.mapM Role.text? <;> rfl
      rw [hplain] at hcons
      exact hcons

theorem adds_audience (audience : Option (List Role)) :
    Adds (insertAudience audience) (audienceEntry audience) 6 := by
  rcases audience with _ | audience
  · exact adds_nothing
  · have hnode := Retains.node (fun values => .array (.ofList values)) (retains_roles audience)
      (fun values => by rw [List.map_id]; exact contains_array values)
    rw [Option.map_map] at hnode
    exact adds_value "audience" hnode

variable (fromF64 : Float64 → Option JsonNumber)

theorem adds_priority (priority : Option Float64) :
    Adds (insertPriority fromF64 priority) (priorityEntry fromF64 priority) 6 := by
  rcases priority with _ | priority
  · exact adds_nothing
  · unfold insertPriority priorityEntry
    dsimp only
    rcases fromF64 priority with _ | number
    · exact adds_fail _
    · have hnumber : Retains (pure number) (some number) (fun _ => []) 7 := retains_pure number rfl
      exact adds_value "priority" (hnumber.node Json.number contains_number)

theorem adds_annotations (annotations : Option Annotations) :
    Adds (insertAnnotations fromF64 annotations) (annotationsEntry fromF64 annotations) 5 := by
  rcases annotations with _ | annotations
  · exact adds_nothing
  · have hobject := ((adds_audience annotations.audience).then
      ((adds_optional "lastModified" annotations.lastModified).then
        ((adds_priority fromF64 annotations.priority).then finishes_done))).object
    exact adds_value "annotations" hobject

theorem retains_resource (resource : EmbeddedResourceResource) :
    Retains (embeddedResourceJson resource) resource.json? (fun value => [value]) 5 := by
  cases resource with
  | textResourceContents mimeType text uri =>
    exact ((adds_optional "mimeType" mimeType).then ((adds_string "text" text).then
      ((adds_string "uri" uri).then finishes_done))).object
  | blobResourceContents blob mimeType uri =>
    exact ((adds_string "blob" blob).then ((adds_optional "mimeType" mimeType).then
      ((adds_string "uri" uri).then finishes_done))).object
  | other => exact retains_node_fail _

theorem adds_size (size : Option Int) : Adds (insertSize size) (sizeEntry size) 5 := by
  rcases size with _ | size
  · exact adds_nothing
  · have hnumber : Retains (pure (JsonNumber.ofInt size)) (some (.ofInt size)) (fun _ => []) 6 :=
      retains_pure _ rfl
    exact adds_value "size" (hnumber.node Json.number contains_number)

theorem retains_block (block : ContentBlock) :
    Retains (contentBlockJson fromF64 block) (block.json? fromF64) (fun value => [value]) 4 := by
  cases block with
  | text annotations text =>
    exact ((adds_annotations fromF64 annotations).then ((adds_string "text" text).then
      ((adds_literal "type" "text").then finishes_done))).object
  | image annotations data mimeType uri =>
    exact ((adds_annotations fromF64 annotations).then ((adds_string "data" data).then
      ((adds_string "mimeType" mimeType).then ((adds_optional "uri" uri).then
        ((adds_literal "type" "image").then finishes_done))))).object
  | audio annotations data mimeType =>
    exact ((adds_annotations fromF64 annotations).then ((adds_string "data" data).then
      ((adds_string "mimeType" mimeType).then
        ((adds_literal "type" "audio").then finishes_done)))).object
  | resourceLink annotations description mimeType name size title uri =>
    exact ((adds_annotations fromF64 annotations).then
      ((adds_optional "description" description).then ((adds_optional "mimeType" mimeType).then
        ((adds_string "name" name).then ((adds_size size).then ((adds_optional "title" title).then
          ((adds_string "uri" uri).then
            ((adds_literal "type" "resource_link").then finishes_done)))))))).object
  | resource annotations resource =>
    exact ((adds_annotations fromF64 annotations).then
      ((adds_value "resource" (retains_resource resource)).then
        ((adds_literal "type" "resource").then finishes_done))).object
  | other => exact retains_node_fail _

theorem retains_content (content : ToolCallContent) :
    Retains (toolContentJson fromF64 content) (content.json? fromF64) (fun value => [value]) 3 := by
  cases content with
  | content block =>
    exact ((adds_value "content" (retains_block fromF64 block)).then
      ((adds_literal "type" "content").then finishes_done)).object
  | diff path newText oldText =>
    simp only [toolContentJson, ToolCallContent.json?]
    rcases path.toStr with _ | path
    · exact retains_node_fail _
    · exact ((adds_string "newText" newText).then ((adds_optional "oldText" oldText).then
        ((adds_string "path" path).then ((adds_literal "type" "diff").then finishes_done)))).object
  | terminal terminalId =>
    exact ((adds_string "terminalId" terminalId).then
      ((adds_literal "type" "terminal").then finishes_done)).object
  | other => exact retains_node_fail _

theorem retains_items (content : List ToolCallContent) :
    Retains (normalizeItems fromF64 content) (content.mapM (ToolCallContent.json? fromF64))
      (List.map id) 3 := by
  induction content with
  | nil => exact retains_pure [] rfl
  | cons item content ih =>
    rw [normalizeItems, List.mapM_cons]
    exact Retains.cons id (retains_content fromF64 item) ih

theorem retains_normalizeContent (content : List ToolCallContent) :
    Retains (normalizeContent fromF64 content) (content.mapM (ToolCallContent.json? fromF64))
      (fun values => [.array (.ofList values)]) 2 :=
  (retains_items fromF64 content).under (fun values => .array (.ofList values))
    fun values => by rw [List.map_id]; exact contains_array values

theorem retains_line (line : Option Nat) :
    Retains (lineNode line) (some ()) (fun _ => line.toList.map Json.nat) 4 := by
  rcases line with _ | line
  · exact retains_pure () rfl
  · refine ⟨fun _ => rfl, ?_⟩
    rintro budget a ⟨⟩ hroom
    have hnumber : Contains (Json.nat line) [] := contains_number _
    obtain ⟨hdepth, hnodes, -⟩ := hroom.node hnumber
    exact ⟨_, node_eq_ok.mpr ⟨hdepth, hnodes, rfl⟩, Spent.nil.node hnumber⟩

theorem Contains.perm {value : Json} {xs ys : List Json} (h : Contains value xs)
    (hperm : xs.Perm ys) : Contains value ys where
  nesting n hn inner hinner := h.nesting n hn inner (hperm.mem_iff.mpr hinner)
  nodeCount := by rw [h.nodeCount, (hperm.map _).sum_eq]
  size := by
    rw [← (hperm.map _).sum_eq]
    exact h.size

/-- A location is retained path first; its JSON has the line first. -/
theorem retains_location (path : String) (line : Option Nat) :
    Retains (do
        Retention.node 3
        let path ← Retention.string path 4
        lineNode line
        pure (⟨path, line⟩ : SinkOnlyToolLocation))
      (some ⟨path, line⟩) (fun location => [locationJson location]) 3 := by
  have hfields := (retains_string path).both (retains_line line)
    (fun path _ => (⟨path, line⟩ : SinkOnlyToolLocation))
    (fun location => .string location.path :: location.line.toList.map Json.nat) fun _ _ => rfl
  refine hfields.under locationJson fun location => (contains_object _).perm ?_
  rw [List.map_append, List.map_map]
  exact List.perm_append_singleton _ _

theorem retains_locationItems (locations : List ToolCallLocation) :
    Retains (normalizeLocationItems locations) (locations.mapM ToolCallLocation.sink?)
      (List.map locationJson) 3 := by
  induction locations with
  | nil => exact retains_pure [] rfl
  | cons location locations ih =>
    rw [normalizeLocationItems, List.mapM_cons, ToolCallLocation.sink?]
    rcases location.path.toStr with _ | path
    · exact retains_fail _
    · have hcons := Retains.cons id (retains_location path location.line) ih
      simp only [bind_assoc, pure_bind] at hcons
      exact hcons

theorem retains_normalizeLocations (locations : List ToolCallLocation) :
    Retains (normalizeLocations locations) (locations.mapM ToolCallLocation.sink?)
      (fun locations => [.array (.ofList (locations.map locationJson))]) 2 :=
  (retains_locationItems locations).under _ fun _ => contains_array _

/-! ## Outputs -/

/-- The typed parts in a snapshot. -/
def partValues (selected : SelectedOutput) (parts : List Json × List SinkOnlyToolLocation) :
    List Json :=
  (if selected.content.isSome then [.array (.ofList parts.1)] else []) ++
    if selected.locations.isSome then [.array (.ofList (parts.2.map locationJson))] else []

theorem retains_parts (selected : SelectedOutput) :
    Retains (captureParts fromF64 selected) (plainParts fromF64 selected) (partValues selected) 2 := by
  have hcontent : Retains (captureContent fromF64 selected.content)
      (plainContent fromF64 selected.content)
      (fun values => if selected.content.isSome then [.array (.ofList values)] else []) 2 := by
    rcases selected.content with _ | content
    · exact retains_pure [] rfl
    · exact retains_normalizeContent fromF64 content
  have hlocations : Retains (captureLocations selected.locations)
      (plainLocations selected.locations)
      (fun values => if selected.locations.isSome then
        [.array (.ofList (values.map locationJson))] else []) 2 := by
    rcases selected.locations with _ | locations
    · exact retains_pure [] rfl
    · exact retains_normalizeLocations locations
  exact hcontent.both hlocations Prod.mk (partValues selected) fun _ _ => rfl

variable {fromF64} {writer : JsonWriter}

theorem captureRawOutput_eq_ok {rawOutput kept : Option Json} {resources : CheckedResources} :
    captureRawOutput writer rawOutput = .ok (kept, resources) ↔
      kept = rawOutput.map canonicalizeJson ∧
      (∀ value ∈ rawOutput, 2 + nesting value ≤ toolPayloadMaxDepth + 1) ∧
      1 + (rawOutput.toList.map nodeCount).sum ≤ toolPayloadMaxNodes ∧
      (rawOutput.toList.map Json.size).sum ≤ toolPayloadSnapshotMaxBytes ∧
      resources = ⟨(rawOutput.toList.map Json.size).sum,
        1 + (rawOutput.toList.map nodeCount).sum⟩ := by
  rcases rawOutput with _ | value
  · have hone : 1 ≤ toolPayloadMaxNodes := by decide
    simp [captureRawOutput, hone, eq_comm]
  · rw [captureRawOutput, bind_eq_ok]
    simp only [checkedComponentResources_eq_ok, Except.ok.injEq, Prod.mk.injEq, Option.toList_some,
      List.map_singleton, List.sum_singleton, Option.map_some, Option.mem_some_iff, forall_eq']
    constructor
    · rintro ⟨_, ⟨hdepth, hnodes, hbytes, rfl⟩, rfl, rfl⟩
      exact ⟨rfl, hdepth, hnodes, hbytes, rfl⟩
    · rintro ⟨rfl, hdepth, hnodes, hbytes, rfl⟩
      exact ⟨_, ⟨hdepth, hnodes, hbytes, rfl⟩, rfl, rfl⟩

/-- The output that is captured when nothing is left out. -/
def SinkOnlyToolOutput.Holds (output : SinkOnlyToolOutput) (selected : SelectedOutput)
    (snapshot : Json) : Prop :=
  output.omissionReason = none ∧
    output.rawOutput = selected.rawOutput.map canonicalizeJson ∧
    snapshot = .object (.ofList (snapshotEntries selected output.rawOutput output.content
      output.locations)) ∧
    output.canonicalBytes = (canonicalizeJson snapshot).toVec.length

theorem tryCaptureOutput_sound {selected : SelectedOutput} {output : SinkOnlyToolOutput}
    (h : tryCaptureOutput writer fromF64 selected = .ok output) :
    ∃ snapshot, completeSnapshot? fromF64 selected = some snapshot ∧
      WithinPayloadLimits snapshot ∧ output.Holds selected snapshot := by
  obtain ⟨⟨rawOutput, resources⟩, hraw, h⟩ := bind_eq_ok.mp h
  obtain ⟨⟨⟨content, locations⟩, budget⟩, hparts, h⟩ := bind_eq_ok.mp h
  obtain ⟨canonicalBytes, hsize, h⟩ := bind_eq_ok.mp h
  cases h
  obtain ⟨rfl, -⟩ := captureRawOutput_eq_ok.mp hraw
  obtain ⟨hlimits, hbytes⟩ := checkedSnapshotSize_eq_ok.mp hsize
  refine ⟨_, ?_, hlimits, rfl, rfl, rfl, hbytes⟩
  rw [completeSnapshot?, (retains_parts fromF64 selected).sound hparts]
  rfl

/-- What is in a snapshot: the raw output and the typed parts. -/
theorem contains_snapshot (selected : SelectedOutput) (rawOutput : Option Json)
    (parts : List Json × List SinkOnlyToolLocation) :
    Contains (.object (.ofList (snapshotEntries selected rawOutput parts.1 parts.2)))
      (rawOutput.toList ++ partValues selected parts) := by
  refine (contains_object _).perm ?_
  have hvalues : (snapshotEntries selected rawOutput parts.1 parts.2).map Prod.snd =
      partValues selected parts ++ rawOutput.toList := by
    unfold snapshotEntries partValues
    cases selected.content <;> cases selected.locations <;> cases rawOutput <;> rfl
  rw [hvalues]
  exact List.perm_append_comm

theorem tryCaptureOutput_complete {selected : SelectedOutput} {snapshot : Json}
    (hcomplete : completeSnapshot? fromF64 selected = some snapshot)
    (hlimits : WithinPayloadLimits snapshot) :
    ∃ output, tryCaptureOutput writer fromF64 selected = .ok output := by
  obtain ⟨⟨content, locations⟩, hparts, rfl⟩ := Option.map_eq_some_iff.mp hcomplete
  have hcontains := contains_snapshot selected (selected.rawOutput.map canonicalizeJson)
    (content, locations)
  obtain ⟨hdepth, hnodes, hbytes⟩ := hlimits
  rw [Json.length_toVec, (canonicalizeJson_same _).size] at hbytes
  have hroom : Room ⟨0, 0⟩ 1 [.object (.ofList (snapshotEntries selected
      (selected.rawOutput.map canonicalizeJson) content locations))] := by
    refine ⟨List.forall_mem_singleton.mpr ?_, ?_, ?_⟩
    · dsimp only at hdepth
      omega
    · rw [List.map_singleton, List.sum_singleton, Nat.zero_add]
      exact hnodes
    · rw [List.map_singleton, List.sum_singleton, Nat.zero_add]
      exact hbytes
  obtain ⟨-, -, hinner⟩ := hroom.node hcontains
  -- The raw output has room first, and leaves the rest of it to the typed parts.
  have hcounts : ((selected.rawOutput.map canonicalizeJson).toList.map nodeCount).sum =
      (selected.rawOutput.toList.map nodeCount).sum := by
    cases selected.rawOutput with
    | none => rfl
    | some value => exact congrArg (· + 0) (canonicalizeJson_same value).nodeCount
  have hsizes : ((selected.rawOutput.map canonicalizeJson).toList.map Json.size).sum =
      (selected.rawOutput.toList.map Json.size).sum := by
    cases selected.rawOutput with
    | none => rfl
    | some value => exact congrArg (· + 0) (canonicalizeJson_same value).size
  have hleft := hinner.left
  have hraw : captureRawOutput writer selected.rawOutput = .ok
      (selected.rawOutput.map canonicalizeJson,
        ⟨(selected.rawOutput.toList.map Json.size).sum,
          1 + (selected.rawOutput.toList.map nodeCount).sum⟩) := by
    refine captureRawOutput_eq_ok.mpr ⟨rfl, fun value hvalue => ?_, ?_, ?_, rfl⟩
    · rw [← (canonicalizeJson_same value).nesting]
      refine hleft.depth_le _ ?_
      rw [hvalue]
      exact List.mem_singleton_self _
    · rw [← hcounts]
      exact hleft.nodes_le
    · rw [← hsizes]
      exact Nat.le_trans (Nat.le_add_left _ _) hleft.bytes_le
  have hspent : Spent ⟨0, 1⟩ ⟨(selected.rawOutput.toList.map Json.size).sum,
      1 + (selected.rawOutput.toList.map nodeCount).sum⟩
      (selected.rawOutput.map canonicalizeJson).toList := by
    constructor
    · rw [hcounts]
    · rw [hsizes]
      exact Nat.le_add_left _ _
  obtain ⟨budget, hcaptured, -⟩ :=
    (retains_parts fromF64 selected).complete hparts (hinner.right hspent)
  have hsize := (@checkedSnapshotSize_eq_ok writer _ _).mpr
    ⟨⟨hdepth, hnodes, by rwa [Json.length_toVec, (canonicalizeJson_same _).size]⟩, rfl⟩
  exact ⟨_, bind_eq_ok.mpr ⟨_, hraw, bind_eq_ok.mpr ⟨_, hcaptured,
    bind_eq_ok.mpr ⟨_, hsize, rfl⟩⟩⟩⟩

/-- **An output is captured exactly when its complete snapshot passes the plain resource check.** -/
theorem captureOutput_exact (selected : SelectedOutput) :
    ((captureOutput writer fromF64 selected).omissionReason = none ↔
      ∃ snapshot, completeSnapshot? fromF64 selected = some snapshot ∧
        WithinPayloadLimits snapshot) ∧
    ∀ snapshot, (captureOutput writer fromF64 selected).omissionReason = none →
      completeSnapshot? fromF64 selected = some snapshot →
      (captureOutput writer fromF64 selected).Holds selected snapshot := by
  rcases htry : tryCaptureOutput writer fromF64 selected with reason | output
  · have houtput : captureOutput writer fromF64 selected = .omitted reason := by
      rw [captureOutput, htry]
    rw [houtput]
    refine ⟨⟨(fun hnone => nomatch hnone), ?_⟩, fun snapshot hnone => nomatch hnone⟩
    rintro ⟨snapshot, hcomplete, hlimits⟩
    obtain ⟨output, hok⟩ := @tryCaptureOutput_complete fromF64 writer _ _ hcomplete hlimits
    rw [htry] at hok
    cases hok
  · have houtput : captureOutput writer fromF64 selected = output := by
      rw [captureOutput, htry]
    rw [houtput]
    obtain ⟨snapshot, hcomplete, hlimits, hholds⟩ := tryCaptureOutput_sound htry
    refine ⟨⟨fun _ => ⟨snapshot, hcomplete, hlimits⟩, fun _ => hholds.1⟩, ?_⟩
    intro other _ hother
    rw [hcomplete] at hother
    cases hother
    exact hholds

end Parts

/-! ## The act's budget -/

/-- The bytes of a part that is kept. -/
def keptBytes (omissionReason : Option ToolPayloadOmissionReason) (canonicalBytes : Nat) : Nat :=
  if omissionReason.isSome then 0 else canonicalBytes

/-- The bytes of what a payload keeps. -/
def SinkOnlyToolPayload.retainedBytes (payload : SinkOnlyToolPayload) : Nat :=
  (payload.input.toList.map fun part => keptBytes part.omissionReason part.canonicalBytes).sum +
    (payload.output.toList.map fun part => keptBytes part.omissionReason part.canonicalBytes).sum

/-- What a payload takes from a budget it is offered to. -/
def SinkOnlyToolPayload.takenBytes (payload applied : SinkOnlyToolPayload) : Nat :=
  if payload.actBudgetApplied then 0 else applied.retainedBytes

section Budget

variable {budget : AgentToolPayloadActBudget}

/-- An optional part under the budget: what it keeps is what the budget accepts. -/
theorem applyOptional_spec {α : Type} {omissionReason : α → Option ToolPayloadOmissionReason}
    {canonicalBytes : α → Nat} {omitted : ToolPayloadOmissionReason → α}
    (homitted : ∀ reason, omissionReason (omitted reason) = some reason)
    (hbudget : budget.acceptedBytes ≤ actToolPayloadMaxBytes) (part : Option α) :
    ∃ part' budget', applyOptional (AgentToolPayloadActBudget.applyPart omissionReason
        canonicalBytes omitted) budget part = some (part', budget') ∧
      budget'.acceptedBytes ≤ actToolPayloadMaxBytes ∧
      budget'.acceptedBytes = budget.acceptedBytes +
        (part'.toList.map fun part => keptBytes (omissionReason part) (canonicalBytes part)).sum := by
  have hmax : actToolPayloadMaxBytes ≤ usizeMax := by decide
  rcases part with _ | part
  · exact ⟨none, budget, rfl, hbudget, rfl⟩
  · rcases hreason : omissionReason part with _ | reason
    · have hremaining : budget.remainingBytes =
          some (actToolPayloadMaxBytes - budget.acceptedBytes) := if_pos hbudget
      by_cases hfits : canonicalBytes part ≤ actToolPayloadMaxBytes - budget.acceptedBytes
      · refine ⟨some part, { budget with
          acceptedBytes := budget.acceptedBytes + canonicalBytes part }, ?_, ?_, ?_⟩
        · simp only [applyOptional, AgentToolPayloadActBudget.applyPart, hreason,
            AgentToolPayloadActBudget.admitBytes, hremaining, Option.bind_eq_bind,
            Option.bind_some, if_pos hfits,
            checkedAdd_of_le (show budget.acceptedBytes + canonicalBytes part ≤ usizeMax by omega),
            if_true]
        · dsimp only
          omega
        · simp [keptBytes, hreason]
      · refine ⟨some (omitted .actByteLimit), { budget with truncated := true }, ?_, hbudget, ?_⟩
        · simp only [applyOptional, AgentToolPayloadActBudget.applyPart, hreason,
            AgentToolPayloadActBudget.admitBytes, hremaining, Option.bind_eq_bind,
            Option.bind_some, if_neg hfits, Bool.false_eq_true, if_false]
        · simp [keptBytes, homitted]
    · refine ⟨some part, budget.noteOmission reason, ?_, hbudget, ?_⟩
      · simp only [applyOptional, AgentToolPayloadActBudget.applyPart, hreason,
          Option.bind_eq_bind, Option.bind_some]
      · simp [keptBytes, hreason, AgentToolPayloadActBudget.noteOmission]

/-- **One payload under the budget**: no operation overflows, and the budget accepts what it keeps. -/
theorem applyActBudget_spec (hbudget : budget.acceptedBytes ≤ actToolPayloadMaxBytes)
    (payload : SinkOnlyToolPayload) :
    ∃ applied budget', payload.applyActBudget budget = some (applied, budget') ∧
      budget'.acceptedBytes ≤ actToolPayloadMaxBytes ∧
      budget'.acceptedBytes = budget.acceptedBytes + payload.takenBytes applied ∧
      applied.actBudgetApplied = true := by
  by_cases happlied : payload.actBudgetApplied = true
  · refine ⟨payload, budget, by rw [SinkOnlyToolPayload.applyActBudget, if_pos happlied], hbudget,
      ?_, happlied⟩
    rw [SinkOnlyToolPayload.takenBytes, if_pos happlied, Nat.add_zero]
  · obtain ⟨input, middle, hinput, hmiddle, hmiddleBytes⟩ := @applyOptional_spec budget _
      (·.omissionReason) (·.canonicalBytes) SinkOnlyToolInput.omitted (fun _ => rfl) hbudget
      payload.input
    obtain ⟨output, last, houtput, hlast, hlastBytes⟩ := @applyOptional_spec middle _
      (·.omissionReason) (·.canonicalBytes) SinkOnlyToolOutput.omitted (fun _ => rfl) hmiddle
      payload.output
    refine ⟨⟨input, output, true⟩, last, ?_, hlast, ?_, rfl⟩
    · rw [SinkOnlyToolPayload.applyActBudget, if_neg happlied]
      simp only [hinput, houtput, Option.bind_eq_bind, Option.bind_some]
    · rw [SinkOnlyToolPayload.takenBytes, if_neg happlied, hlastBytes, hmiddleBytes,
        SinkOnlyToolPayload.retainedBytes, Nat.add_assoc]

/-- A second application changes neither the payload nor the budget. -/
theorem applyActBudget_applied {payload : SinkOnlyToolPayload}
    (h : payload.actBudgetApplied = true) (budget : AgentToolPayloadActBudget) :
    payload.applyActBudget budget = some (payload, budget) := by
  rw [SinkOnlyToolPayload.applyActBudget, if_pos h]

/-- **A sequence of payloads under one budget.** -/
theorem applyPayloads_spec (payloads : List SinkOnlyToolPayload) :
    ∀ {budget : AgentToolPayloadActBudget}, budget.acceptedBytes ≤ actToolPayloadMaxBytes →
    ∃ applied budget', applyPayloads budget payloads = some (applied, budget') ∧
      budget'.acceptedBytes ≤ actToolPayloadMaxBytes ∧
      budget'.acceptedBytes = budget.acceptedBytes +
        (List.zipWith SinkOnlyToolPayload.takenBytes payloads applied).sum ∧
      applied.length = payloads.length ∧ ∀ payload ∈ applied, payload.actBudgetApplied = true := by
  induction payloads with
  | nil => exact fun {budget} h => ⟨[], budget, rfl, h, rfl, rfl, List.forall_mem_nil _⟩
  | cons payload payloads ih =>
    intro budget hbudget
    obtain ⟨first, middle, hfirst, hmiddle, hmiddleBytes, happlied⟩ :=
      applyActBudget_spec hbudget payload
    obtain ⟨rest, last, hrest, hlast, hlastBytes, hlength, hall⟩ := ih hmiddle
    refine ⟨first :: rest, last, ?_, hlast, ?_, congrArg (· + 1) hlength,
      List.forall_mem_cons.mpr ⟨happlied, hall⟩⟩
    · simp only [applyPayloads, hfirst, hrest, Option.bind_eq_bind, Option.bind_some]
    · rw [hlastBytes, hmiddleBytes, List.zipWith_cons_cons, List.sum_cons, Nat.add_assoc]

end Budget

/-- **Tool payload capture is the plain resource check.** For every output, whatever pieces the JSON
writer cuts its text into: it is captured exactly when every part has a valid type and the complete
snapshot is within depth, nodes and canonical bytes, and what is kept is then that snapshot, with the
length of its canonical text. Over any sequence of payloads the act's budget has no overflow and
accepts exactly the bytes that the payloads keep, at most 4 MiB; a payload it was applied to is left
as it is by any further application, as is the budget. -/
theorem payload_capture (writer : JsonWriter) (fromF64 : Float64 → Option JsonNumber) :
    (∀ selected, ((captureOutput writer fromF64 selected).omissionReason = none ↔
        ∃ snapshot, completeSnapshot? fromF64 selected = some snapshot ∧
          WithinPayloadLimits snapshot) ∧
      ∀ snapshot, (captureOutput writer fromF64 selected).omissionReason = none →
        completeSnapshot? fromF64 selected = some snapshot →
        (captureOutput writer fromF64 selected).Holds selected snapshot) ∧
    ∀ payloads, ∃ applied budget, applyPayloads .new payloads = some (applied, budget) ∧
      budget.acceptedBytes ≤ actToolPayloadMaxBytes ∧
      budget.acceptedBytes =
        (List.zipWith SinkOnlyToolPayload.takenBytes payloads applied).sum ∧
      applied.length = payloads.length ∧
      ∀ payload ∈ applied, ∀ budget, payload.applyActBudget budget = some (payload, budget) := by
  refine ⟨captureOutput_exact, fun payloads => ?_⟩
  obtain ⟨applied, budget, happly, hle, hbytes, hlength, hall⟩ :=
    @applyPayloads_spec payloads .new (Nat.zero_le _)
  exact ⟨applied, budget, happly, hle, hbytes.trans (Nat.zero_add _), hlength,
    fun payload hpayload budget => applyActBudget_applied (hall payload hpayload) budget⟩

/-- A text in one piece. -/
def JsonWriter.whole : JsonWriter := ⟨fun value => [value.toVec], fun _ => List.append_nil _⟩

/-- Raw JSON and a text. -/
def shownOutput : SelectedOutput :=
  ⟨some (.array (.cons (.bool true) (.cons .null .nil))), some [.content (.text none "done")], none⟩

/-- It is captured, with the bytes of its snapshot. -/
theorem payload_capture_shown :
    (captureOutput .whole (fun _ => none) shownOutput).omissionReason = none ∧
      (captureOutput .whole (fun _ => none) shownOutput).canonicalBytes = 97 := by
  have hsnapshot := (rfl : completeSnapshot? (fun _ => none) shownOutput = some _)
  obtain ⟨hcaptured, hholds⟩ := (payload_capture .whole fun _ => none).1 shownOutput
  have hkept := hcaptured.mpr ⟨_, hsnapshot, by decide, by decide, by
    rw [Json.length_toVec, (canonicalizeJson_same _).size]
    decide⟩
  refine ⟨hkept, (hholds _ hkept hsnapshot).2.2.2.trans ?_⟩
  rw [Json.length_toVec, (canonicalizeJson_same _).size]
  decide

end Troupe.Agent.Diagnostics
