import Troupe.Agent.Schema.Validate

/-! # What a validation finds

The issues a validator would report if it kept all of them, the value it yields and the custom nodes
it meets, each as a function of the contract and the value. `validateValue_yields` says that the
validator pushes exactly these, whatever was pushed before, and `validate?_eq` reads off what
`CompiledActSchema::validate` answers.

The place of a node is a list of reference tokens; the validator's path is its pointer. -/

namespace Troupe.Agent

open Troupe.Lib

/-! ## All issues -/

def issueAt (tokens : List String) (finding : Finding) : ValidationIssue :=
  { path := Pointer.text tokens, code := finding.1, message := finding.2 }

def outcomeIssues (tokens : List String) : Except Finding ValidatedActValue → List ValidationIssue
  | .ok _ => []
  | .error finding => [issueAt tokens finding]

def outcomeValue : Except Finding ValidatedActValue → Option ValidatedActValue
  | .ok value => some value
  | .error _ => none

/-- What is found at each item of a list, one after the other. -/
def eachItem {α : Type} (find : Json → List String → List α) (tokens : List String) :
    Nat → List Json → List α
  | _, [] => []
  | index, value :: rest =>
    find value (tokens ++ [toString index]) ++ eachItem find tokens (index + 1) rest

def objectIssues (contract : ObjectContract)
    (fields : List (String × Json) → List String → List ValidationIssue) (value : Json)
    (tokens : List String) : List ValidationIssue :=
  match value with
  | .object entries =>
    fields entries.toList tokens ++
      (extraNames contract entries.toList).map fun name => issueAt (tokens ++ [name]) extraField
  | value => [issueAt tokens (notAnObject value)]

mutual

/-- Every issue of a value, in traversal order. -/
def issuesOf [FloatText] : ValueContract → Json → List String → List ValidationIssue
  | .string _ minLength maxLength choices, value, tokens =>
    outcomeIssues tokens (validateString minLength maxLength choices value)
  | .int64 _ min max choices, value, tokens =>
    outcomeIssues tokens (validateInt64 min max choices value)
  | .float64 _ min max choices, value, tokens =>
    outcomeIssues tokens (validateFloat64 min max choices value)
  | .bool _ choices, value, tokens => outcomeIssues tokens (validateBool choices value)
  | .list _ item minItems maxItems, value, tokens =>
    match value with
    | .array items =>
      ((itemLimit minItems maxItems items.toList.length).map (issueAt tokens)).toList ++
        eachItem (issuesOf item) tokens 0 items.toList
    | value => [issueAt tokens (notAnArray minItems maxItems value)]
  | .object _ contract, value, tokens =>
    objectIssues contract (fieldIssuesOf contract) value tokens
  | .nullable inner, value, tokens =>
    match value with
    | .null => []
    | value => issuesOf inner value tokens
  | .custom _ kind _ _, value, tokens => outcomeIssues tokens (validateCustom kind value)

/-- Every issue of the declared fields. -/
def fieldIssuesOf [FloatText] : ObjectContract → List (String × Json) → List String →
    List ValidationIssue
  | .nil, _, _ => []
  | .cons name required contract rest, entries, tokens =>
    (match lookup name entries with
    | some value => issuesOf contract value (tokens ++ [name])
    | none => if required then [issueAt (tokens ++ [name]) missingField] else []) ++
      fieldIssuesOf rest entries tokens

end

/-! ## The value -/

def objectData (fields : List (String × Json) → List (String × ValidatedActValue))
    (value : Json) : Option ValidatedActValue :=
  match value with
  | .object entries => some (.object (fields entries.toList))
  | _ => none

mutual

/-- The value yielded; a part with an issue may be missing from it. -/
def dataOf [FloatText] : ValueContract → Json → Option ValidatedActValue
  | .string _ minLength maxLength choices, value =>
    outcomeValue (validateString minLength maxLength choices value)
  | .int64 _ min max choices, value => outcomeValue (validateInt64 min max choices value)
  | .float64 _ min max choices, value => outcomeValue (validateFloat64 min max choices value)
  | .bool _ choices, value => outcomeValue (validateBool choices value)
  | .list _ item _ _, value =>
    match value with
    | .array items => some (.list (items.toList.filterMap (dataOf item)))
    | _ => none
  | .object _ contract, value => objectData (fieldDataOf contract) value
  | .nullable inner, value =>
    match value with
    | .null => some .null
    | value => dataOf inner value
  | .custom _ kind _ _, value => outcomeValue (validateCustom kind value)

def fieldDataOf [FloatText] : ObjectContract → List (String × Json) →
    List (String × ValidatedActValue)
  | .nil, _ => []
  | .cons name _ contract rest, entries =>
    (((lookup name entries).bind (dataOf contract)).map fun value => (name, value)).toList ++
      fieldDataOf rest entries

end

/-! ## Custom nodes -/

/-- A custom node of a contract, met in a value. -/
structure CustomNode where
  tokens : List String
  kind : JsonKind
  validatorId : Nat
  value : Json

/-- The job of a node; there is none for a node of the wrong kind. -/
def CustomNode.job? (node : CustomNode) : Option CustomValidationJob :=
  (validateCustomKind node.kind node.value).map fun value =>
    { validatorId := node.validatorId, path := Pointer.text node.tokens, value }

def objectNodes (fields : List (String × Json) → List String → List CustomNode) (value : Json)
    (tokens : List String) : List CustomNode :=
  match value with
  | .object entries => fields entries.toList tokens
  | _ => []

mutual

/-- The custom nodes met in a value, in traversal order. -/
def customNodes : ValueContract → Json → List String → List CustomNode
  | .string .., _, _ => []
  | .int64 .., _, _ => []
  | .float64 .., _, _ => []
  | .bool .., _, _ => []
  | .list _ item _ _, value, tokens =>
    match value with
    | .array items => eachItem (customNodes item) tokens 0 items.toList
    | _ => []
  | .object _ contract, value, tokens => objectNodes (fieldNodes contract) value tokens
  | .nullable inner, value, tokens =>
    match value with
    | .null => []
    | value => customNodes inner value tokens
  | .custom _ kind _ validatorId, value, tokens => [{ tokens, kind, validatorId, value }]

def fieldNodes : ObjectContract → List (String × Json) → List String → List CustomNode
  | .nil, _, _ => []
  | .cons name _ contract rest, entries, tokens =>
    (match lookup name entries with
    | some value => customNodes contract value (tokens ++ [name])
    | none => []) ++ fieldNodes rest entries tokens

end

/-! ## The validator pushes what is found -/

def Collected.add (c : Collected) (issues : List ValidationIssue)
    (jobs : List CustomValidationJob) : Collected :=
  { issues := Collector.pushAll maxValidationIssues c.issues issues
    customJobs := c.customJobs ++ jobs }

/-- The validation yields `output` and pushes these issues and jobs, whatever was pushed before. -/
def Yields {α : Type} (validation : StateM Collected α) (output : α)
    (issues : List ValidationIssue) (jobs : List CustomValidationJob) : Prop :=
  ∀ c, validation.run c = (output, c.add issues jobs)

section Yields

variable {α β : Type} {validation : StateM Collected α}

theorem Yields.pure (output : α) : Yields (Pure.pure output) output [] [] := by
  intro c
  rw [Collected.add, List.append_nil]
  rfl

theorem Yields.bind {next : α → StateM Collected β} {a : α}
    {b : β} {issues moreIssues : List ValidationIssue} {jobs moreJobs : List CustomValidationJob}
    (h : Yields validation a issues jobs) (hnext : Yields (next a) b moreIssues moreJobs) :
    Yields (validation >>= next) b (issues ++ moreIssues) (jobs ++ moreJobs) := by
  intro c
  rw [StateT.run_bind, h c]
  show (next a).run _ = _
  rw [hnext]
  simp only [Collected.add, Collector.pushAll_append, List.append_assoc]

theorem Yields.map {a : α} {issues : List ValidationIssue}
    {jobs : List CustomValidationJob} (h : Yields validation a issues jobs) (f : α → β) :
    Yields (validation >>= fun x => Pure.pure (f x)) (f a) issues jobs := by
  intro c
  rw [StateT.run_bind, h c]
  rfl

theorem Yields.of_eq {output output' : α}
    {issues issues' : List ValidationIssue} {jobs jobs' : List CustomValidationJob}
    (h : Yields validation output issues jobs) (houtput : output = output')
    (hissues : issues = issues') (hjobs : jobs = jobs') :
    Yields validation output' issues' jobs' := by
  subst houtput hissues hjobs
  exact h

theorem pushIssue_yields (tokens : List String) (finding : Finding) :
    Yields (pushIssue (Pointer.text tokens) finding) () [issueAt tokens finding] [] := by
  intro c
  simp only [Collected.add, List.append_nil]
  rfl

theorem pushFound_yields (tokens : List String) (found : Option Finding) :
    Yields (pushFound (Pointer.text tokens) found) () (found.map (issueAt tokens)).toList [] := by
  cases found with
  | none => exact Yields.pure _
  | some finding => exact pushIssue_yields tokens finding

theorem pushJob_yields (validatorId : Nat) (path : String) (validated : Option ValidatedActValue) :
    Yields (pushJob validatorId path validated) () []
      (validated.map fun value => { validatorId, path, value : CustomValidationJob }).toList := by
  cases validated with
  | none => exact Yields.pure _
  | some value => exact fun c => rfl

theorem report_yields (tokens : List String) (outcome : Except Finding ValidatedActValue) :
    Yields (report (Pointer.text tokens) outcome) (outcomeValue outcome)
      (outcomeIssues tokens outcome) [] := by
  cases outcome with
  | ok value => exact Yields.pure _
  | error finding => exact (pushIssue_yields tokens finding).map fun _ => none

theorem reportExtras_yields (tokens names : List String) :
    Yields (reportExtras (Pointer.text tokens) names) ()
      (names.map fun name => issueAt (tokens ++ [name]) extraField) [] := by
  induction names with
  | nil => exact Yields.pure _
  | cons name names ih =>
    rw [reportExtras, joinPath_text]
    exact (pushIssue_yields (tokens ++ [name]) extraField).bind ih

theorem validateItems_yields
    {validate : Json → String → StateM Collected (Option ValidatedActValue)}
    {data : Json → Option ValidatedActValue}
    {issues : Json → List String → List ValidationIssue}
    {nodes : Json → List String → List CustomNode}
    (h : ∀ value tokens, Yields (validate value (Pointer.text tokens)) (data value)
      (issues value tokens) ((nodes value tokens).filterMap CustomNode.job?))
    (tokens : List String) (index : Nat) (values : List Json) :
    Yields (validateItems validate (Pointer.text tokens) index values) (values.filterMap data)
      (eachItem issues tokens index values)
      ((eachItem nodes tokens index values).filterMap CustomNode.job?) := by
  induction values generalizing index with
  | nil => exact Yields.pure _
  | cons value values ih =>
    have hvalue := h value (tokens ++ [toString index])
    rw [← indexPath_text] at hvalue
    have hrest := ih (index + 1)
    unfold validateItems
    refine (hvalue.bind (hrest.map _)).of_eq ?_ ?_ ?_
    · cases hdata : data value <;> simp [hdata]
    · rw [eachItem]
    · rw [eachItem, List.filterMap_append]

theorem validateObjectWith_yields (contract : ObjectContract)
    {loop : List (String × Json) → String →
      StateM Collected (List (String × ValidatedActValue))}
    {data : List (String × Json) → List (String × ValidatedActValue)}
    {issues : List (String × Json) → List String → List ValidationIssue}
    {nodes : List (String × Json) → List String → List CustomNode}
    (h : ∀ entries tokens, Yields (loop entries (Pointer.text tokens)) (data entries)
      (issues entries tokens) ((nodes entries tokens).filterMap CustomNode.job?))
    (value : Json) (tokens : List String) :
    Yields (validateObjectWith contract loop value (Pointer.text tokens)) (objectData data value)
      (objectIssues contract issues value tokens)
      ((objectNodes nodes value tokens).filterMap CustomNode.job?) := by
  cases value with
  | object fields =>
    refine ((h fields.toList tokens).bind ((reportExtras_yields tokens _).map _)).of_eq rfl rfl ?_
    rw [List.append_nil, objectNodes]
  | null | bool | number | string | array => exact report_yields tokens (.error _)

mutual

/-- **The validator of a value pushes every issue and every job.** -/
theorem validateValue_yields [FloatText] : ∀ (contract : ValueContract) (value : Json)
    (tokens : List String),
    Yields (validateValue contract value (Pointer.text tokens)) (dataOf contract value)
      (issuesOf contract value tokens)
      ((customNodes contract value tokens).filterMap CustomNode.job?)
  | .string .., value, tokens => report_yields tokens _
  | .int64 .., value, tokens => report_yields tokens _
  | .float64 .., value, tokens => report_yields tokens _
  | .bool .., value, tokens => report_yields tokens _
  | .list _ item minItems maxItems, value, tokens => by
    cases value with
    | array items =>
      have hitems := validateItems_yields (validateValue_yields item) tokens 0 items.toList
      rw [validateValue]
      exact (pushFound_yields tokens _).bind (hitems.map _)
    | null | bool | number | string | object => exact report_yields tokens (.error _)
  | .object _ contract, value, tokens =>
    validateObjectWith_yields contract (validateFields_yields contract) value tokens
  | .nullable inner, value, tokens => by
    cases value with
    | null => exact Yields.pure _
    | bool | number | string | array | object => exact validateValue_yields inner _ tokens
  | .custom _ kind _ validatorId, value, tokens => by
    have hreport := report_yields tokens (validateCustom kind value)
    have hjob := pushJob_yields validatorId (Pointer.text tokens)
      (outcomeValue (validateCustom kind value))
    rw [validateValue]
    refine (hreport.bind (hjob.map _)).of_eq rfl ?_ ?_
    · rw [List.append_nil, issuesOf]
    · rw [customNodes, List.nil_append, List.filterMap_cons, CustomNode.job?, validateCustom]
      cases validateCustomKind kind value <;> rfl

theorem validateFields_yields [FloatText] : ∀ (contract : ObjectContract)
    (entries : List (String × Json)) (tokens : List String),
    Yields (validateFields contract entries (Pointer.text tokens)) (fieldDataOf contract entries)
      (fieldIssuesOf contract entries tokens)
      ((fieldNodes contract entries tokens).filterMap CustomNode.job?)
  | .nil, _, _ => Yields.pure _
  | .cons name required contract rest, entries, tokens => by
    have hrest := validateFields_yields rest entries tokens
    rw [validateFields, fieldDataOf, fieldIssuesOf, fieldNodes, joinPath_text,
      List.filterMap_append]
    cases lookup name entries with
    | some value =>
      exact (validateValue_yields contract value (tokens ++ [name])).bind (hrest.map _)
    | none =>
      refine ((pushFound_yields (tokens ++ [name]) _).bind hrest).of_eq rfl ?_ rfl
      cases required <;> rfl

end

end Yields

/-! ## The answer -/

/-- What `CompiledActSchema::validate` answers for a value within the resource limits. -/
theorem validate?_within [FloatText] (schema : CompiledActSchema) {value : Json}
    (h : WithinResultLimits value) :
    schema.validate? value =
      let issues := issuesOf (.object "" schema.root) value []
      if issues = [] then
        (dataOf (.object "" schema.root) value).map fun validated =>
          .valid validated
            ((customNodes (.object "" schema.root) value []).filterMap CustomNode.job?)
      else some (.invalid (issues.take maxValidationIssues)
        (decide (maxValidationIssues < issues.length))) := by
  have hrun : (validateObject schema.root value "").run Collected.empty = _ :=
    validateValue_yields (.object "" schema.root) value [] Collected.empty
  rw [CompiledActSchema.validate?, (checkResultResources_eq_none value).mpr h, hrun]
  simp only [Collected.add, Collected.empty, Collector.items_collect, List.nil_append,
    Collector.truncated_collect, List.isEmpty_iff, List.take_eq_nil_iff]
  by_cases hissues : issuesOf (.object "" schema.root) value [] = []
  · rw [if_pos hissues, if_pos (Or.inr hissues)]
  · rw [if_neg hissues, if_neg (not_or.mpr ⟨by decide, hissues⟩)]

/-- What it answers for one that is not. -/
theorem validate?_beyond [FloatText] (schema : CompiledActSchema) {value : Json}
    (h : ¬ WithinResultLimits value) :
    ∃ issue, schema.validate? value = some (.invalid [issue] false) := by
  cases hcheck : (checkResultResources value "" 1 0).1 with
  | none => exact absurd ((checkResultResources_eq_none value).mp hcheck) h
  | some issue => exact ⟨issue, by rw [CompiledActSchema.validate?, hcheck]⟩

end Troupe.Agent
