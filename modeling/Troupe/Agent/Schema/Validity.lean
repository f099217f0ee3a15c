import Troupe.Agent.Schema.Snapshot

/-! # Validation decides the meaning of a schema

`validate_meaning`: for a schema that compiles, `CompiledActSchema::validate` answers `Valid`
exactly for the values within the resource limits that conform, the value it yields holds exactly
the data, the jobs are those of the custom nodes, and an `Invalid` answer has the first issues and
tells whether there are more.

A custom node that asks for an array or an object also asks that every number in it is an integer
or fits a finite float; `unheld_number_rejected` is a value for which that makes a difference. -/

namespace Troupe.Agent

open Troupe.Lib

/-- A Python dictionary: no two of its keys are the same string. -/
structure SchemaDict where
  entries : List (PyObject × PyObject)
  distinct : DistinctNames entries

/-- The contract of the root, as the contract of a value. -/
def CompiledActSchema.contract (schema : CompiledActSchema) : ValueContract :=
  .object "" schema.root

/-- All issues of a result: the first part beyond a resource limit, or every violation. -/
def CompiledActSchema.allIssues [FloatText] (schema : CompiledActSchema) (value : Json) :
    List ValidationIssue :=
  match (checkResultResources value "" 1 0).1 with
  | some issue => [issue]
  | none => issuesOf schema.contract value []

/-- What the job of a custom node refers to. -/
theorem job_refers {compiled : CompiledActSchema}
    (hwf : WellFormed compiled.customValidators.length compiled.contract)
    {value : Json} {jobs : List CustomValidationJob}
    (h : List.Forall₂ JobOf (customNodes compiled.contract value []) jobs) :
    ∀ job ∈ jobs, job.validatorId < compiled.customValidators.length ∧
      ∃ kind node, Pointer.resolve value job.path = some node ∧
        CarriesKind kind node job.value := by
  have hat := customNodes_at _ hwf (show Pointer.follow value [] = some value from rfl)
  intro job hjob
  obtain ⟨node, hnode, hid, hpath, hcarries⟩ := forall₂_exists_left h hjob
  obtain ⟨hrange, hfollow⟩ := hat node hnode
  exact ⟨hid ▸ hrange, node.kind, node.value, by rw [hpath, Pointer.resolve_text, hfollow],
    hcarries⟩

section Validate

variable [FloatText] {heap : Heap} {schema : SchemaDict} {compiled : CompiledActSchema}

/-- The contract of a compiled root is well formed. -/
theorem contract_wellFormed (h : compileActSchema heap (.dict schema.entries) = .ok compiled) :
    WellFormed compiled.customValidators.length compiled.contract := by
  obtain ⟨entries, sources, hentries, hsources, hmade⟩ := compileActSchema_sound h
  cases hentries
  refine ⟨?_, hmade.wellFormed⟩
  rw [hmade.snapshot.names]
  exact names_nodup hsources schema.distinct

/-- `Valid` is answered exactly within the limits and without an issue. -/
theorem validate?_eq_valid (value : Json) (validated : ValidatedActValue)
    (jobs : List CustomValidationJob) :
    compiled.validate? value = some (.valid validated jobs) ↔
      WithinResultLimits value ∧ issuesOf compiled.contract value [] = [] ∧
        dataOf compiled.contract value = some validated ∧
          jobs = (customNodes compiled.contract value []).filterMap CustomNode.job? := by
  by_cases hlimits : WithinResultLimits value
  · rw [validate?_within compiled hlimits, ← CompiledActSchema.contract]
    by_cases hissues : issuesOf compiled.contract value [] = []
    · simp [hlimits, hissues, eq_comm]
    · simp [hissues]
  · obtain ⟨issue, hissue⟩ := validate?_beyond compiled hlimits
    simp [hissue, hlimits]

/-- `Invalid` is answered with the first issues. -/
theorem validate?_eq_invalid {value : Json} {issues : List ValidationIssue} {truncated : Bool}
    (h : compiled.validate? value = some (.invalid issues truncated)) :
    compiled.allIssues value ≠ [] ∧ issues = (compiled.allIssues value).take maxValidationIssues ∧
      truncated = decide (maxValidationIssues < (compiled.allIssues value).length) := by
  unfold CompiledActSchema.allIssues
  cases hcheck : (checkResultResources value "" 1 0).1 with
  | some issue =>
    rw [CompiledActSchema.validate?, hcheck] at h
    cases h
    exact ⟨List.cons_ne_nil _ _, rfl, rfl⟩
  | none =>
    have hlimits := (checkResultResources_eq_none value).mp hcheck
    rw [validate?_within compiled hlimits, ← CompiledActSchema.contract] at h
    by_cases hissues : issuesOf compiled.contract value [] = []
    · simp only [hissues, if_true, Option.map_eq_some_iff, reduceCtorEq, and_false,
        exists_false] at h
    · simp only [if_neg hissues, Option.some.injEq, NativeValidationOutcome.invalid.injEq] at h
      exact ⟨hissues, h.1.symm, h.2.symm⟩

/-- Validation always answers: the root of a value without issues is there. -/
theorem exists_validate? (hwf : WellFormed compiled.customValidators.length compiled.contract)
    (value : Json) : ∃ outcome, compiled.validate? value = some outcome := by
  by_cases hlimits : WithinResultLimits value
  · rw [validate?_within compiled hlimits, ← CompiledActSchema.contract]
    by_cases hissues : issuesOf compiled.contract value [] = []
    · obtain ⟨validated, hdata, -⟩ := exists_carries _ hwf hissues
      simp only [if_pos hissues, hdata, Option.map_some]
      exact ⟨_, rfl⟩
    · simp only [if_neg hissues]
      exact ⟨_, rfl⟩
  · obtain ⟨issue, hissue⟩ := validate?_beyond compiled hlimits
    exact ⟨_, hissue⟩

end Validate

/-- **Validation decides the meaning of a compiled schema.** -/
theorem validate_meaning [FloatText] (heap : Heap) (schema : SchemaDict)
    (compiled : CompiledActSchema)
    (h : compileActSchema heap (.dict schema.entries) = .ok compiled) (value : Json) :
    (∃ outcome, compiled.validate? value = some outcome) ∧
      ((∃ validated jobs, compiled.validate? value = some (.valid validated jobs)) ↔
        WithinResultLimits value ∧ Conforms Carriable compiled.contract value) ∧
      (∀ validated jobs, compiled.validate? value = some (.valid validated jobs) →
        Carries compiled.contract value validated ∧
          List.Forall₂ JobOf (customNodes compiled.contract value []) jobs ∧
          ∀ job ∈ jobs, job.validatorId < compiled.customValidators.length ∧
            ∃ kind node, Pointer.resolve value job.path = some node ∧
              CarriesKind kind node job.value) ∧
      ∀ issues truncated, compiled.validate? value = some (.invalid issues truncated) →
        issues ≠ [] ∧ issues.length ≤ maxValidationIssues ∧
          issues <+: compiled.allIssues value ∧
          (truncated = true ↔ issues.length < (compiled.allIssues value).length) := by
  have hwf := contract_wellFormed h
  refine ⟨exists_validate? hwf value, ?_, fun validated jobs hvalid => ?_,
    fun issues truncated hinvalid => ?_⟩
  · simp only [validate?_eq_valid, issuesOf_eq_nil _ hwf]
    constructor
    · rintro ⟨validated, jobs, hlimits, hconforms, -⟩
      exact ⟨hlimits, hconforms⟩
    · rintro ⟨hlimits, hconforms⟩
      obtain ⟨validated, hdata, -⟩ :=
        exists_carries _ hwf ((issuesOf_eq_nil _ hwf value []).mpr hconforms)
      exact ⟨validated, _, hlimits, hconforms, hdata, rfl⟩
  · obtain ⟨-, hissues, hdata, rfl⟩ := (validate?_eq_valid value validated jobs).mp hvalid
    obtain ⟨found, hfound, hcarries⟩ := exists_carries _ hwf hissues
    obtain rfl : found = validated := Option.some.inj (hfound.symm.trans hdata)
    have hjobs := jobs_of_nodes [] ((issuesOf_eq_nil _ hwf value []).mp hissues)
    exact ⟨hcarries, hjobs, job_refers hwf hjobs⟩
  · obtain ⟨hall, rfl, rfl⟩ := validate?_eq_invalid hinvalid
    refine ⟨?_, ?_, List.take_prefix _ _, ?_⟩
    · rw [ne_eq, List.take_eq_nil_iff, not_or]
      exact ⟨by decide, hall⟩
    · exact List.length_take_le _ _
    · rw [decide_eq_true_iff, List.length_take]
      omega

/-! ## A schema with a custom node -/

/-- A schema with one field, a custom array. -/
def tagsSchema : SchemaDict where
  entries := [(.str (.text "tags"), .ref 0)]
  distinct := List.pairwise_singleton _ _

def tagsHeap : Heap := fun identity =>
  if identity = 0 then
    .custom { description := some (.str (.text "tags")), jsonKind := some (.str (.text "array")) }
      (.ok (.str (.text "a list of tags")))
  else .other

def tagsCompiled : CompiledActSchema where
  root := .cons "tags" true (.custom "tags" .array "a list of tags" 0) .nil
  validationMode := .hybrid
  customValidators := [0]

/-- No float is written in what follows. -/
abbrev noFloatText : FloatText where
  display := fun _ => ""
  json := fun _ => ""

theorem tags_compiles :
    @compileActSchema noFloatText tagsHeap (.dict tagsSchema.entries) = .ok tagsCompiled := rfl

/-- A result whose tags are one number. -/
def tagsResult (number : JsonNumber) : Json :=
  .object (.cons "tags" (.array (.cons (.number number) .nil)) .nil)

/-- `1e400`. -/
def hugeNumber : JsonNumber := { text := ['1', 'e', '4', '0', '0'], valid := by decide }

theorem validate_meaning_tags :
    ∃ validated jobs, @CompiledActSchema.validate? noFloatText tagsCompiled
      (tagsResult (.ofNat 7)) = some (.valid validated jobs) := by
  refine (@validate_meaning noFloatText tagsHeap tagsSchema tagsCompiled tags_compiles
    (tagsResult (.ofNat 7))).2.1.mpr ⟨⟨by decide, by decide, ?_⟩, ?_⟩
  · exact ⟨by unfold StringFits; decide, ⟨by decide, trivial, trivial⟩, trivial⟩
  · refine ⟨_, rfl, by decide, fun value hvalue => ?_, fun _ => by decide, trivial⟩
    cases hvalue
    exact ⟨⟨_, rfl⟩, Or.inl (by decide), trivial⟩

/-- The array is of the right JSON kind and within every limit, but its number is neither an integer
nor a finite float, and the result is not valid. -/
theorem unheld_number_rejected :
    WithinResultLimits (tagsResult hugeNumber) ∧
      Conforms HasKind tagsCompiled.contract (tagsResult hugeNumber) ∧
      ∀ validated jobs, @CompiledActSchema.validate? noFloatText tagsCompiled
        (tagsResult hugeNumber) ≠ some (.valid validated jobs) := by
  refine ⟨⟨by decide, by decide, ?_⟩, ?_, fun validated jobs hvalid => ?_⟩
  · exact ⟨by unfold StringFits; decide, ⟨by decide, trivial, trivial⟩, trivial⟩
  · refine ⟨_, rfl, by decide, fun value hvalue => ?_, fun _ => by decide, trivial⟩
    cases hvalue
    exact ⟨_, rfl⟩
  · obtain ⟨-, hissues, -⟩ := (@validate?_eq_valid noFloatText _ _ _ _).mp hvalid
    have hwf := @contract_wellFormed noFloatText tagsHeap tagsSchema tagsCompiled tags_compiles
    obtain ⟨fields, hfields, -, hvalue, -⟩ := (@issuesOf_eq_nil noFloatText _ _ hwf _ _).mp hissues
    cases hfields
    have hrepresentable := (hvalue (.array (.cons (.number hugeNumber) .nil)) rfl).2.1
    rcases hrepresentable with hinteger | ⟨value, hvalue⟩
    · exact absurd hinteger (by decide)
    · have hnone : hugeNumber.asF64 = none := by decide +kernel
      rw [hnone] at hvalue
      cases hvalue

end Troupe.Agent
