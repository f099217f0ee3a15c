import Troupe.Agent.Schema.Resources

/-! # Validating a result

`validate_object`, `validate_value`, `validate_custom_kind`, `validated_json_value` and
`CompiledActSchema::validate`.

* The two `&mut` arguments, the issues and the custom jobs, are the state `Collected`.
* An arm of `validate_value` for a scalar either yields a value or pushes one issue and yields
  nothing; such an arm is a function to `Except Finding`, and `report` does the rest.
* A `serde_json` map keeps each name once, and `lookup` finds it. The names are sorted before the
  extra ones are reported, so the order of the map is used by `validated_json_value` only. -/

namespace Troupe.Agent

open Troupe.Lib

/-! ## Custom nodes -/

mutual

/-- `validated_json_value`. -/
def validatedJsonValue : Json → Option ValidatedActValue
  | .null => some .null
  | .bool value => some (.bool value)
  | .number number =>
    (number.asI64.map .int64).or <|
      (number.asU64.map .uint64).or <|
        (if number.isInteger then some (.bigInt (String.ofList number.text)) else none).or
          (number.asF64.map .float64)
  | .string value => some (.string value)
  | .array items => (validatedJsonItems items).map .list
  | .object fields => (validatedJsonFields fields).map .object

def validatedJsonItems : JsonItems → Option (List ValidatedActValue)
  | .nil => some []
  | .cons value rest => do
    let value ← validatedJsonValue value
    let rest ← validatedJsonItems rest
    pure (value :: rest)

def validatedJsonFields : JsonFields → Option (List (String × ValidatedActValue))
  | .nil => some []
  | .cons name value rest => do
    let value ← validatedJsonValue value
    let rest ← validatedJsonFields rest
    pure ((name, value) :: rest)

end

/-- `validate_custom_kind`. -/
def validateCustomKind (kind : JsonKind) (value : Json) : Option ValidatedActValue :=
  match kind, value with
  | .string, .string value => some (.string value)
  | .int64, .number number => number.asI64.map .int64
  | .float64, .number number => number.asF64.map .float64
  | .bool, .bool value => some (.bool value)
  | .array, .array items => validatedJsonValue (.array items)
  | .object, .object fields => validatedJsonValue (.object fields)
  | _, _ => none

/-! ## Scalars -/

/-- The code and the message of an issue. -/
abbrev Finding := String × String

/-- The string arm of `validate_value`. -/
def validateString (minLength : Option Nat) (maxLength : Nat) (choices : Option (List String))
    (value : Json) : Except Finding ValidatedActValue :=
  match value with
  | .string text =>
    let length := text.length
    if minLength.any (length < ·) ∨ length > maxLength then
      .error ("length_limit", "expected " ++ stringConstraint minLength maxLength choices ++
        s!", got string with {length} scalars")
    else if choices.any fun choices => !choices.contains text then
      .error ("not_in_choices", "expected string one of " ++ stringChoicesText (choices.getD []) ++
        ", got string outside the allowed choices")
    else .ok (.string text)
  | value =>
    .error ("type_mismatch", "expected " ++ stringConstraint minLength maxLength choices ++
      ", got " ++ actualKind value)

/-- `Value::as_i64`. -/
def jsonAsI64 : Json → Option Int
  | .number number => number.asI64
  | _ => none

/-- The int64 arm of `validate_value`. -/
def validateInt64 (min max : Option Int) (choices : Option (List Int)) (value : Json) :
    Except Finding ValidatedActValue :=
  match jsonAsI64 value with
  | some number =>
    if min.any (number < ·) ∨ max.any (number > ·) then
      .error ("out_of_range", "expected " ++ int64Constraint min max choices ++
        ", got int64 outside the accepted range")
    else if choices.any fun choices => !choices.contains number then
      .error ("not_in_choices", "expected int64 one of " ++
        jsonList ((choices.getD []).map toString) ++ ", got int64 outside the allowed choices")
    else .ok (.int64 number)
  | none =>
    .error ("type_mismatch", "expected " ++ int64Constraint min max choices ++ ", got " ++
      actualKind value)

/-- `Value::as_f64`, finite. -/
def jsonAsF64 : Json → Option Float64
  | .number number => number.asF64.filter Float.Model.isFinite
  | _ => none

/-- The float64 arm of `validate_value`. -/
def validateFloat64 [FloatText] (min max : Option Float64) (choices : Option (List Float64))
    (value : Json) : Except Finding ValidatedActValue :=
  match jsonAsF64 value with
  | some number =>
    if min.any (number < ·) ∨ max.any (number > ·) then
      .error ("out_of_range", "expected " ++ float64Constraint min max choices ++
        ", got number outside the accepted range")
    else if choices.any fun choices => !choices.contains number then
      .error ("not_in_choices", "expected float64 one of " ++
        jsonList ((choices.getD []).map FloatText.json) ++
        ", got number outside the allowed choices")
    else .ok (.float64 number)
  | none =>
    .error ("type_mismatch", "expected " ++ float64Constraint min max choices ++ ", got " ++
      actualKind value)

/-- The bool arm of `validate_value`. -/
def validateBool (choices : Option (List Bool)) (value : Json) :
    Except Finding ValidatedActValue :=
  match value with
  | .bool flag =>
    if choices.any fun choices => !choices.contains flag then
      .error ("not_in_choices", "expected boolean one of " ++
        jsonList ((choices.getD []).map toString) ++ ", got boolean outside the allowed choices")
    else .ok (.bool flag)
  | value =>
    .error ("type_mismatch", "expected " ++ boolConstraint choices ++ ", got " ++
      actualKind value)

/-- The custom arm of `validate_value`, without its job. -/
def validateCustom (kind : JsonKind) (value : Json) : Except Finding ValidatedActValue :=
  match validateCustomKind kind value with
  | some validated => .ok validated
  | none =>
    .error ("type_mismatch", "expected custom " ++ kind.name ++ " value, got " ++
      actualKind value)

/-! ## Values and objects -/

/-- The issues and the custom jobs of one validation. -/
structure Collected where
  issues : IssueCollector
  customJobs : List CustomValidationJob

def Collected.empty : Collected := { issues := .empty, customJobs := [] }

/-- `issues.push`. -/
def pushIssue (path : String) (finding : Finding) : StateM Collected Unit :=
  modify fun c => { c with issues := c.issues.push path finding.1 finding.2 }

/-- `issues.push`, when there is something to push. -/
def pushFound (path : String) : Option Finding → StateM Collected Unit
  | some finding => pushIssue path finding
  | none => pure ()

/-- `custom_jobs.push`, when the node was of its kind. -/
def pushJob (validatorId : Nat) (path : String) : Option ValidatedActValue → StateM Collected Unit
  | some value =>
    modify fun c => { c with customJobs := c.customJobs ++ [{ validatorId, path, value }] }
  | none => pure ()

/-- Yield the value, or push the issue and yield nothing. -/
def report (path : String) (outcome : Except Finding ValidatedActValue) :
    StateM Collected (Option ValidatedActValue) :=
  match outcome with
  | .ok value => pure (some value)
  | .error finding => do
    pushIssue path finding
    pure none

/-- The loop over the items of a list, with the validation of one. -/
def validateItems (validate : Json → String → StateM Collected (Option ValidatedActValue))
    (path : String) : Nat → List Json → StateM Collected (List ValidatedActValue)
  | _, [] => pure []
  | index, value :: rest => do
    let output ← validate value s!"{path}/{index}"
    let outputs ← validateItems validate path (index + 1) rest
    pure (output.toList ++ outputs)

/-- "item_limit". -/
def itemLimit (minItems : Option Nat) (maxItems length : Nat) : Option Finding :=
  if minItems.any (length < ·) ∨ length > maxItems then
    some ("item_limit", "expected " ++ arrayConstraint minItems maxItems ++
      s!", got array with {length} items")
  else none

/-- "type_mismatch" where an array was expected. -/
def notAnArray (minItems : Option Nat) (maxItems : Nat) (value : Json) : Finding :=
  ("type_mismatch", "expected " ++ arrayConstraint minItems maxItems ++ ", got " ++
    actualKind value)

/-- "type_mismatch" where an object was expected. -/
def notAnObject (value : Json) : Finding :=
  ("type_mismatch", "expected object, got " ++ actualKind value)

/-- "missing_field". -/
def missingField : Finding :=
  ("missing_field", "expected required field, got missing field")

/-- "extra_field". -/
def extraField : Finding :=
  ("extra_field", "expected a declared field, got extra field")

/-- The names of an object that are not declared, sorted. -/
def extraNames (contract : ObjectContract) (entries : List (String × Json)) : List String :=
  let extras := (entries.map Prod.fst).filter fun name => !contract.names.contains name
  extras.mergeSort fun a b => decide (a ≤ b)

/-- The loop over the extra names. -/
def reportExtras (path : String) : List String → StateM Collected Unit
  | [] => pure ()
  | name :: rest => do
    pushIssue (joinPath path name) extraField
    reportExtras path rest

/-- `validate_object`, with its loop over the declared fields. -/
def validateObjectWith (contract : ObjectContract)
    (loop : List (String × Json) → String → StateM Collected (List (String × ValidatedActValue)))
    (value : Json) (path : String) : StateM Collected (Option ValidatedActValue) :=
  match value with
  | .object fields => do
    let output ← loop fields.toList path
    reportExtras path (extraNames contract fields.toList)
    pure (some (.object output))
  | value => report path (.error (notAnObject value))

mutual

/-- `validate_value`. -/
def validateValue [FloatText] :
    ValueContract → Json → String → StateM Collected (Option ValidatedActValue)
  | .string _ minLength maxLength choices, value, path =>
    report path (validateString minLength maxLength choices value)
  | .int64 _ min max choices, value, path => report path (validateInt64 min max choices value)
  | .float64 _ min max choices, value, path =>
    report path (validateFloat64 min max choices value)
  | .bool _ choices, value, path => report path (validateBool choices value)
  | .list _ item minItems maxItems, value, path =>
    match value with
    | .array items => do
      pushFound path (itemLimit minItems maxItems items.toList.length)
      let output ← validateItems (validateValue item) path 0 items.toList
      pure (some (.list output))
    | value => report path (.error (notAnArray minItems maxItems value))
  | .object _ contract, value, path =>
    validateObjectWith contract (validateFields contract) value path
  | .nullable inner, value, path =>
    match value with
    | .null => pure (some .null)
    | value => validateValue inner value path
  | .custom _ kind _ validatorId, value, path => do
    let validated ← report path (validateCustom kind value)
    pushJob validatorId path validated
    pure validated

/-- The loop of `validate_object` over the declared fields. -/
def validateFields [FloatText] : ObjectContract → List (String × Json) → String →
    StateM Collected (List (String × ValidatedActValue))
  | .nil, _, _ => pure []
  | .cons name required contract rest, entries, path =>
    let fieldPath := joinPath path name
    match lookup name entries with
    | some value => do
      let output ← validateValue contract value fieldPath
      let outputs ← validateFields rest entries path
      pure ((output.map fun value => (name, value)).toList ++ outputs)
    | none => do
      pushFound fieldPath (if required then some missingField else none)
      validateFields rest entries path

end

/-- `validate_object`. -/
def validateObject [FloatText] (contract : ObjectContract) (value : Json) (path : String) :
    StateM Collected (Option ValidatedActValue) :=
  validateObjectWith contract (validateFields contract) value path

/-- `CompiledActSchema::validate`. `none` is the panic "valid root object materializes a value". -/
def CompiledActSchema.validate? [FloatText] (schema : CompiledActSchema) (value : Json) :
    Option NativeValidationOutcome :=
  match (checkResultResources value "" 1 0).1 with
  | some issue => some (.invalid [issue] false)
  | none =>
    let (validated, collected) := (validateObject schema.root value "").run Collected.empty
    if collected.issues.items.isEmpty then
      validated.map fun validated => .valid validated collected.customJobs
    else some (.invalid collected.issues.items collected.issues.truncated)

end Troupe.Agent
