import Troupe.Agent.Schema.Contract

/-! # The resource limits of a result

`check_result_resources`: one walk over a result that stops at the first part beyond a limit.
`WithinResultLimits` says what the limits are, without the walk, and `checkResultResources_eq_none`
that the walk finds nothing exactly within them. -/

namespace Troupe.Agent

open Troupe.Lib

/-! ## The walk -/

/-- `resource_issue`. -/
def resourceIssue (path message : String) : ValidationIssue :=
  { path, code := "resource_limit", message }

/-- `string_resource_issue`. -/
def stringResourceIssue (value path subject : String) : Option ValidationIssue :=
  let scalars := value.length
  let bytes := value.utf8ByteSize
  if scalars ≤ resultStringMaxScalars ∧ bytes ≤ resultStringMaxBytes then none
  else
    some (resourceIssue path
      (s!"expected {subject} with at most {resultStringMaxScalars} scalars and " ++
        s!"{resultStringMaxBytes} UTF-8 bytes, got {subject} with {scalars} scalars and " ++
        s!"{bytes} UTF-8 bytes"))

mutual

/-- `check_result_resources`: the first issue, and the nodes counted so far. -/
def checkResultResources (value : Json) (path : String) (depth counted : Nat) :
    Option ValidationIssue × Nat :=
  let nodes := counted + 1
  if depth > resultMaxDepth then
    (some (resourceIssue path
      (s!"expected result depth at most {resultMaxDepth}, got " ++ actualKind value ++
        " beyond the depth limit")), nodes)
  else if nodes > resultMaxNodes then
    (some (resourceIssue path
      (s!"expected at most {resultMaxNodes} result nodes, got " ++ actualKind value ++
        " beyond the node limit")), nodes)
  else
    match value with
    | .string text => (stringResourceIssue text path "string", nodes)
    | .array items =>
      let length := items.toList.length
      if length > resultListMaxItems then
        (some (resourceIssue path
          (s!"expected array with at most {resultListMaxItems} items, got array with " ++
            s!"{length} items")), nodes)
      else checkItemResources items path 0 (depth + 1) nodes
    | .object fields => checkFieldResources fields path (depth + 1) nodes
    | _ => (none, nodes)

/-- The loop over the items of an array. -/
def checkItemResources (items : JsonItems) (path : String) (index depth nodes : Nat) :
    Option ValidationIssue × Nat :=
  match items with
  | .nil => (none, nodes)
  | .cons value rest =>
    match checkResultResources value s!"{path}/{index}" depth nodes with
    | (some issue, nodes) => (some issue, nodes)
    | (none, nodes) => checkItemResources rest path (index + 1) depth nodes

/-- The loop over the fields of an object. -/
def checkFieldResources (fields : JsonFields) (path : String) (depth nodes : Nat) :
    Option ValidationIssue × Nat :=
  match fields with
  | .nil => (none, nodes)
  | .cons name value rest =>
    match stringResourceIssue name path "object key" with
    | some issue => (some issue, nodes)
    | none =>
      match checkResultResources value (joinPath path name) depth nodes with
      | (some issue, nodes) => (some issue, nodes)
      | (none, nodes) => checkFieldResources rest path depth nodes

end

/-! ## The limits -/

/-- A string a result may hold, as a value or as a name. -/
def StringFits (value : String) : Prop :=
  value.length ≤ resultStringMaxScalars ∧ value.utf8ByteSize ≤ resultStringMaxBytes

mutual

/-- How deep a value nests; a scalar is one level. -/
def nesting : Json → Nat
  | .array items => 1 + itemsNesting items
  | .object fields => 1 + fieldsNesting fields
  | _ => 1

def itemsNesting : JsonItems → Nat
  | .nil => 0
  | .cons value rest => max (nesting value) (itemsNesting rest)

def fieldsNesting : JsonFields → Nat
  | .nil => 0
  | .cons _ value rest => max (nesting value) (fieldsNesting rest)

end

mutual

/-- How many values a value consists of. -/
def nodeCount : Json → Nat
  | .array items => 1 + itemsNodeCount items
  | .object fields => 1 + fieldsNodeCount fields
  | _ => 1

def itemsNodeCount : JsonItems → Nat
  | .nil => 0
  | .cons value rest => nodeCount value + itemsNodeCount rest

def fieldsNodeCount : JsonFields → Nat
  | .nil => 0
  | .cons _ value rest => nodeCount value + fieldsNodeCount rest

end

mutual

/-- Every string, name and array in a value is within its own limit. -/
def SizesFit : Json → Prop
  | .string text => StringFits text
  | .array items => items.toList.length ≤ resultListMaxItems ∧ ItemsFit items
  | .object fields => FieldsFit fields
  | _ => True

def ItemsFit : JsonItems → Prop
  | .nil => True
  | .cons value rest => SizesFit value ∧ ItemsFit rest

def FieldsFit : JsonFields → Prop
  | .nil => True
  | .cons name value rest => StringFits name ∧ SizesFit value ∧ FieldsFit rest

end

/-- The resource limits of a result. -/
structure WithinResultLimits (value : Json) : Prop where
  nesting_le : nesting value ≤ resultMaxDepth
  nodeCount_le : nodeCount value ≤ resultMaxNodes
  sizes : SizesFit value

/-! ## The walk decides the limits -/

theorem stringResourceIssue_eq_none (value path subject : String) :
    stringResourceIssue value path subject = none ↔ StringFits value := by
  unfold stringResourceIssue
  by_cases h : StringFits value
  · exact ⟨fun _ => h, fun _ => if_pos h⟩
  · refine ⟨fun hnone => ?_, fun hfits => absurd hfits h⟩
    rw [StringFits] at h
    simp only [if_neg h, reduceCtorEq] at hnone

theorem nesting_pos (value : Json) : 1 ≤ nesting value := by
  cases value <;> simp [nesting]

theorem nodeCount_pos (value : Json) : 1 ≤ nodeCount value := by
  cases value <;> simp [nodeCount]

mutual

/-- A walk that finds nothing counts every node. -/
theorem checkResultResources_counted (value : Json) (path : String) (depth nodes : Nat)
    (h : (checkResultResources value path depth nodes).1 = none) :
    (checkResultResources value path depth nodes).2 = nodes + nodeCount value := by
  unfold checkResultResources at h ⊢
  by_cases hdepth : depth > resultMaxDepth
  · rw [if_pos hdepth] at h
    cases h
  rw [if_neg hdepth] at h ⊢
  by_cases hnodes : nodes + 1 > resultMaxNodes
  · rw [if_pos hnodes] at h
    cases h
  rw [if_neg hnodes] at h ⊢
  cases value with
  | null | bool | number | string => rfl
  | array items =>
    by_cases hlength : items.toList.length > resultListMaxItems
    · simp only [if_pos hlength, reduceCtorEq] at h
    · simp only [if_neg hlength] at h ⊢
      rw [checkItemResources_counted items path 0 _ _ h, nodeCount]
      omega
  | object fields =>
    rw [checkFieldResources_counted fields path _ _ h, nodeCount]
    omega

theorem checkItemResources_counted (items : JsonItems) (path : String) (index depth nodes : Nat)
    (h : (checkItemResources items path index depth nodes).1 = none) :
    (checkItemResources items path index depth nodes).2 = nodes + itemsNodeCount items := by
  cases items with
  | nil => rfl
  | cons value rest =>
    have hvalue := checkResultResources_counted value s!"{path}/{index}" depth nodes
    unfold checkItemResources at h ⊢
    generalize checkResultResources value s!"{path}/{index}" depth nodes = result at h hvalue ⊢
    obtain ⟨issue, after⟩ := result
    cases issue with
    | some issue => cases h
    | none =>
      rw [checkItemResources_counted rest path (index + 1) depth after h, itemsNodeCount,
        show after = _ from hvalue rfl]
      omega

theorem checkFieldResources_counted (fields : JsonFields) (path : String) (depth nodes : Nat)
    (h : (checkFieldResources fields path depth nodes).1 = none) :
    (checkFieldResources fields path depth nodes).2 = nodes + fieldsNodeCount fields := by
  cases fields with
  | nil => rfl
  | cons name value rest =>
    have hvalue := checkResultResources_counted value (joinPath path name) depth nodes
    unfold checkFieldResources at h ⊢
    cases hname : stringResourceIssue name path "object key" with
    | some issue => simp only [hname, reduceCtorEq] at h
    | none =>
      simp only [hname] at h ⊢
      generalize checkResultResources value (joinPath path name) depth nodes = result
        at h hvalue ⊢
      obtain ⟨issue, after⟩ := result
      cases issue with
      | some issue => cases h
      | none =>
        rw [checkFieldResources_counted rest path depth after h, fieldsNodeCount,
          show after = _ from hvalue rfl]
        omega

end

mutual

/-- The walk finds nothing exactly when the value fits in what is left of the limits. -/
theorem checkResultResources_fits (value : Json) (path : String) (depth nodes : Nat) :
    (checkResultResources value path depth nodes).1 = none ↔
      depth + nesting value ≤ resultMaxDepth + 1 ∧
        nodes + nodeCount value ≤ resultMaxNodes ∧ SizesFit value := by
  have hnesting := nesting_pos value
  have hcount := nodeCount_pos value
  unfold checkResultResources
  by_cases hdepth : depth > resultMaxDepth
  · rw [if_pos hdepth]
    simp only [reduceCtorEq, false_iff]
    omega
  rw [if_neg hdepth]
  by_cases hnodes : nodes + 1 > resultMaxNodes
  · rw [if_pos hnodes]
    simp only [reduceCtorEq, false_iff]
    omega
  rw [if_neg hnodes]
  cases value with
  | null | bool | number =>
    simp only [nesting, nodeCount, SizesFit, and_true, true_iff]
    omega
  | string text =>
    simp only [nesting, nodeCount, SizesFit, stringResourceIssue_eq_none]
    exact ⟨fun h => ⟨by omega, by omega, h⟩, fun h => h.2.2⟩
  | array items =>
    have hitems := checkItemResources_fits items path 0 (depth + 1) (nodes + 1) (by omega)
      (by omega)
    simp only [nesting, nodeCount, SizesFit]
    by_cases hlength : items.toList.length > resultListMaxItems
    · rw [if_pos hlength]
      simp only [reduceCtorEq, false_iff]
      omega
    · rw [if_neg hlength, hitems]
      exact ⟨fun h => ⟨by omega, by omega, by omega, h.2.2⟩,
        fun h => ⟨by omega, by omega, h.2.2.2⟩⟩
  | object fields =>
    have hfields := checkFieldResources_fits fields path (depth + 1) (nodes + 1) (by omega)
      (by omega)
    simp only [nesting, nodeCount, SizesFit, hfields]
    exact ⟨fun h => ⟨by omega, by omega, h.2.2⟩, fun h => ⟨by omega, by omega, h.2.2⟩⟩

theorem checkItemResources_fits (items : JsonItems) (path : String) (index depth nodes : Nat)
    (hdepth : depth ≤ resultMaxDepth + 1) (hnodes : nodes ≤ resultMaxNodes) :
    (checkItemResources items path index depth nodes).1 = none ↔
      depth + itemsNesting items ≤ resultMaxDepth + 1 ∧
        nodes + itemsNodeCount items ≤ resultMaxNodes ∧ ItemsFit items := by
  cases items with
  | nil =>
    simp only [checkItemResources, itemsNesting, itemsNodeCount, ItemsFit, and_true, true_iff]
    omega
  | cons value rest =>
    have hvalue := checkResultResources_fits value s!"{path}/{index}" depth nodes
    have hcounted := checkResultResources_counted value s!"{path}/{index}" depth nodes
    unfold checkItemResources
    simp only [itemsNesting, itemsNodeCount, ItemsFit]
    generalize checkResultResources value s!"{path}/{index}" depth nodes = result
      at hvalue hcounted ⊢
    obtain ⟨issue, after⟩ := result
    cases issue with
    | some issue =>
      simp only [reduceCtorEq, false_iff] at hvalue ⊢
      exact fun h => hvalue ⟨by omega, by omega, h.2.2.1⟩
    | none =>
      obtain ⟨hdepth', hnodes', hsizes⟩ := hvalue.mp rfl
      have hafter : after = nodes + nodeCount value := hcounted rfl
      rw [checkItemResources_fits rest path (index + 1) depth after hdepth (by omega)]
      simp only [hsizes, true_and]
      exact ⟨fun h => ⟨by omega, by omega, h.2.2⟩, fun h => ⟨by omega, by omega, h.2.2⟩⟩

theorem checkFieldResources_fits (fields : JsonFields) (path : String) (depth nodes : Nat)
    (hdepth : depth ≤ resultMaxDepth + 1) (hnodes : nodes ≤ resultMaxNodes) :
    (checkFieldResources fields path depth nodes).1 = none ↔
      depth + fieldsNesting fields ≤ resultMaxDepth + 1 ∧
        nodes + fieldsNodeCount fields ≤ resultMaxNodes ∧ FieldsFit fields := by
  cases fields with
  | nil =>
    simp only [checkFieldResources, fieldsNesting, fieldsNodeCount, FieldsFit, and_true, true_iff]
    omega
  | cons name value rest =>
    have hname := stringResourceIssue_eq_none name path "object key"
    have hvalue := checkResultResources_fits value (joinPath path name) depth nodes
    have hcounted := checkResultResources_counted value (joinPath path name) depth nodes
    unfold checkFieldResources
    simp only [fieldsNesting, fieldsNodeCount, FieldsFit]
    cases hissue : stringResourceIssue name path "object key" with
    | some issue =>
      rw [hissue] at hname
      simp only [reduceCtorEq, false_iff] at hname ⊢
      exact fun h => hname h.2.2.1
    | none =>
      simp only [hname.mp hissue, true_and]
      generalize checkResultResources value (joinPath path name) depth nodes = result
        at hvalue hcounted ⊢
      obtain ⟨issue, after⟩ := result
      cases issue with
      | some issue =>
        simp only [reduceCtorEq, false_iff] at hvalue ⊢
        exact fun h => hvalue ⟨by omega, by omega, h.2.2.1⟩
      | none =>
        obtain ⟨hdepth', hnodes', hsizes⟩ := hvalue.mp rfl
        have hafter : after = nodes + nodeCount value := hcounted rfl
        rw [checkFieldResources_fits rest path depth after hdepth (by omega)]
        simp only [hsizes, true_and]
        exact ⟨fun h => ⟨by omega, by omega, h.2.2⟩, fun h => ⟨by omega, by omega, h.2.2⟩⟩

end

/-- **The walk over a whole result decides the limits.** -/
theorem checkResultResources_eq_none (value : Json) :
    (checkResultResources value "" 1 0).1 = none ↔ WithinResultLimits value := by
  rw [checkResultResources_fits]
  constructor
  · rintro ⟨hdepth, hnodes, hsizes⟩
    exact ⟨by omega, by omega, hsizes⟩
  · intro h
    exact ⟨by have := h.nesting_le; omega, by have := h.nodeCount_le; omega, h.sizes⟩

end Troupe.Agent
