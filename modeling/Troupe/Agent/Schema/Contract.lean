import Troupe.Lib.Collector
import Troupe.Lib.Pointer

/-! # The contract of an act result

`schema/mod.rs`: a compiled schema, the value a validated result becomes, and the texts of the
issues a validator reports.

* `usize` bounds and lengths are `Nat`, `i64` bounds are `Int`; what the compiler keeps in range is
  in range by its own checks. An `f64` is a `Float64`.
* How a float is written in a message is left to `FloatText`: the shortest text that reads back, by
  Rust's `Display` and by `serde_json`.
* A Python object is named by its identity. -/

namespace Troupe.Agent

open Troupe.Lib

/-! ## Limits -/

/-- `SCHEMA_MAX_DEPTH`. -/
def schemaMaxDepth : Nat := 32
/-- `SCHEMA_MAX_NODES`. -/
def schemaMaxNodes : Nat := 1024
/-- `SCHEMA_MAX_FIELDS`. -/
def schemaMaxFields : Nat := 512
/-- `SCHEMA_MAX_CHOICES`. -/
def schemaMaxChoices : Nat := 4096
/-- `SCHEMA_MAX_CHOICE_BYTES`. -/
def schemaMaxChoiceBytes : Nat := 256 * 1024
/-- `RESULT_MAX_DEPTH`. -/
def resultMaxDepth : Nat := 32
/-- `RESULT_MAX_NODES`. -/
def resultMaxNodes : Nat := 65536
/-- `RESULT_STRING_MAX_SCALARS`. -/
def resultStringMaxScalars : Nat := 1048576
/-- `RESULT_STRING_MAX_BYTES`. -/
def resultStringMaxBytes : Nat := 4 * 1024 * 1024
/-- `RESULT_LIST_MAX_ITEMS`. -/
def resultListMaxItems : Nat := 10000
/-- `MAX_VALIDATION_ISSUES`. -/
def maxValidationIssues : Nat := 16
/-- `CUSTOM_PROMPT_MAX_BYTES`. -/
def customPromptMaxBytes : Nat := 16 * 1024
/-- `DESCRIPTION_MAX_SCALARS`. -/
def descriptionMaxScalars : Nat := 1024
/-- `DESCRIPTION_MAX_BYTES`. -/
def descriptionMaxBytes : Nat := 4 * 1024
/-- `SCALAR_CHOICES_MAX_ITEMS`. -/
def scalarChoicesMaxItems : Nat := 256

/-! ## Contracts -/

/-- `SchemaValidationMode`. -/
inductive SchemaValidationMode where
  | nativeOnly
  | hybrid
  deriving DecidableEq

/-- `JsonKind`. -/
inductive JsonKind where
  | string
  | int64
  | float64
  | bool
  | array
  | object
  deriving DecidableEq

def JsonKind.name : JsonKind → String
  | .string => "string"
  | .int64 => "int64"
  | .float64 => "float64"
  | .bool => "bool"
  | .array => "array"
  | .object => "object"

def JsonKind.parse (value : String) : Option JsonKind :=
  if value = "string" then some .string
  else if value = "int64" then some .int64
  else if value = "float64" then some .float64
  else if value = "bool" then some .bool
  else if value = "array" then some .array
  else if value = "object" then some .object
  else none

theorem JsonKind.parse_name (kind : JsonKind) : JsonKind.parse kind.name = some kind := by
  cases kind <;> decide +kernel

mutual

/-- `ValueContract`. -/
inductive ValueContract where
  | string (description : String) (minLength : Option Nat) (maxLength : Nat)
      (choices : Option (List String))
  | int64 (description : String) (min max : Option Int) (choices : Option (List Int))
  | float64 (description : String) (min max : Option Float64) (choices : Option (List Float64))
  | bool (description : String) (choices : Option (List Bool))
  | list (description : String) (item : ValueContract) (minItems : Option Nat) (maxItems : Nat)
  | object (description : String) (contract : ObjectContract)
  | nullable (inner : ValueContract)
  | custom (description : String) (jsonKind : JsonKind) (promptFragment : String)
      (validatorId : Nat)

/-- `ObjectContract`: its fields in declaration order, each a `FieldContract`. -/
inductive ObjectContract where
  | nil
  | cons (name : String) (required : Bool) (value : ValueContract) (rest : ObjectContract)

end

def ValueContract.description : ValueContract → String
  | .string description .. => description
  | .int64 description .. => description
  | .float64 description .. => description
  | .bool description _ => description
  | .list description .. => description
  | .object description _ => description
  | .custom description .. => description
  | .nullable inner => inner.description

def ValueContract.jsonKind : ValueContract → JsonKind
  | .string .. => .string
  | .int64 .. => .int64
  | .float64 .. => .float64
  | .bool .. => .bool
  | .list .. => .array
  | .object .. => .object
  | .nullable inner => inner.jsonKind
  | .custom _ kind _ _ => kind

/-- The declared names, in order. -/
def ObjectContract.names : ObjectContract → List String
  | .nil => []
  | .cons name _ _ rest => name :: rest.names

/-- `CompiledActSchema`. -/
structure CompiledActSchema where
  root : ObjectContract
  validationMode : SchemaValidationMode
  /-- The identities of the custom validators, by validator id. -/
  customValidators : List Nat

/-! ## Validated values and issues -/

/-- `ValidatedActValue`. -/
inductive ValidatedActValue where
  | string (value : String)
  | int64 (value : Int)
  | uint64 (value : Nat)
  | bigInt (encoded : String)
  | float64 (value : Float64)
  | bool (value : Bool)
  | null
  | list (values : List ValidatedActValue)
  | object (fields : List (String × ValidatedActValue))

/-- `CustomValidationJob`. -/
structure CustomValidationJob where
  validatorId : Nat
  path : String
  value : ValidatedActValue

/-- `ValidationIssue`. -/
structure ValidationIssue where
  path : String
  code : String
  message : String
  deriving DecidableEq

/-- `NativeValidationOutcome`. -/
inductive NativeValidationOutcome where
  | valid (value : ValidatedActValue) (customJobs : List CustomValidationJob)
  | invalid (issues : List ValidationIssue) (truncated : Bool)

/-- `IssueCollector`. -/
abbrev IssueCollector := Collector ValidationIssue

/-- `IssueCollector::push`. -/
def IssueCollector.push (issues : IssueCollector) (path code message : String) : IssueCollector :=
  Collector.push maxValidationIssues issues { path, code, message }

/-! ## Texts -/

/-- How floats are written. -/
class FloatText where
  /-- `Display`. -/
  display : Float64 → String
  /-- `serde_json::to_string`. -/
  json : Float64 → String

/-- `str::replace` of one character. -/
def replaceChar (c : Char) (replacement text : List Char) : List Char :=
  text.flatMap fun d => if d = c then replacement else [d]

/-- `join_path`. -/
def joinPath (parent name : String) : String :=
  let escaped := replaceChar '/' ['~', '1'] (replaceChar '~' ['~', '0'] name.toList)
  parent ++ "/" ++ String.ofList escaped

/-- `actual_kind`. -/
def actualKind : Json → String
  | .null => "null"
  | .bool _ => "boolean"
  | .number number =>
    if number.asI64.isSome then "int64"
    else if number.asU64.isSome then "integer outside int64"
    else if number.isInteger then "integer outside int64"
    else "number"
  | .string _ => "string"
  | .array _ => "array"
  | .object _ => "object"

/-- `serde_json::to_string` of a list, from the texts of its items. -/
def jsonList (items : List String) : String := "[" ++ ",".intercalate items ++ "]"

def stringChoicesText (choices : List String) : String :=
  jsonList (choices.map fun choice => Json.toString (.string choice))

/-- `string_constraint`. -/
def stringConstraint (minLength : Option Nat) (maxLength : Nat) (choices : Option (List String)) :
    String :=
  let constraint := match minLength with
    | some minimum => s!"string with scalar length in inclusive range [{minimum}, {maxLength}]"
    | none => s!"string with at most {maxLength} scalars"
  match choices with
  | some choices => constraint ++ " and value one of " ++ stringChoicesText choices
  | none => constraint

/-- `int64_constraint`. -/
def int64Constraint (min max : Option Int) (choices : Option (List Int)) : String :=
  let constraint := match min, max with
    | some minimum, some maximum => s!"int64 in inclusive range [{minimum}, {maximum}]"
    | some minimum, none => s!"int64 greater than or equal to {minimum}"
    | none, some maximum => s!"int64 less than or equal to {maximum}"
    | none, none => "int64"
  match choices with
  | some choices => constraint ++ " and one of " ++ jsonList (choices.map toString)
  | none => constraint

/-- `float64_constraint`. -/
def float64Constraint [FloatText] (min max : Option Float64) (choices : Option (List Float64)) :
    String :=
  let constraint := match min.map FloatText.display, max.map FloatText.display with
    | some minimum, some maximum => s!"finite float64 in inclusive range [{minimum}, {maximum}]"
    | some minimum, none => s!"finite float64 greater than or equal to {minimum}"
    | none, some maximum => s!"finite float64 less than or equal to {maximum}"
    | none, none => "finite float64"
  match choices with
  | some choices => constraint ++ " and one of " ++ jsonList (choices.map FloatText.json)
  | none => constraint

/-- `bool_constraint`. -/
def boolConstraint (choices : Option (List Bool)) : String :=
  match choices with
  | some choices => "boolean one of " ++ jsonList (choices.map toString)
  | none => "boolean"

/-- `array_constraint`. -/
def arrayConstraint (minItems : Option Nat) (maxItems : Nat) : String :=
  match minItems with
  | some minimum => s!"array with item count in inclusive range [{minimum}, {maxItems}]"
  | none => s!"array with at most {maxItems} items"

/-! ## Paths are pointers -/

theorem replaceChar_replaceChar (name : List Char) :
    replaceChar '/' ['~', '1'] (replaceChar '~' ['~', '0'] name) = Pointer.escape name := by
  induction name with
  | nil => rfl
  | cons c name ih =>
    unfold replaceChar Pointer.escape at ih ⊢
    rw [List.flatMap_cons, List.flatMap_append, ih, List.flatMap_cons]
    congr 1
    by_cases htilde : c = '~'
    · subst htilde
      rfl
    · simp [htilde]

/-- `join_path` adds a reference token. -/
theorem joinPath_text (tokens : List String) (name : String) :
    joinPath (Pointer.text tokens) name = Pointer.text (tokens ++ [name]) := by
  rw [joinPath, replaceChar_replaceChar, Pointer.text_snoc]

/-- An index needs no escape. -/
theorem indexPath_text (tokens : List String) (index : Nat) :
    s!"{Pointer.text tokens}/{index}" = Pointer.text (tokens ++ [toString index]) := by
  have hdigits : Pointer.escape (toString index).toList = (toString index).toList := by
    unfold Pointer.escape
    rw [show (toString index).toList = Nat.toDigits 10 index from String.toList_ofList]
    refine (List.flatMap_congr fun c hc => ?_).trans (List.flatMap_singleton' _)
    have hdigit : c.isDigit = true := toDigits_isDigit c hc
    have htilde : c ≠ '~' := by rintro rfl; revert hdigit; decide
    have hslash : c ≠ '/' := by rintro rfl; revert hdigit; decide
    rw [if_neg htilde, if_neg hslash]
  rw [Pointer.text_snoc, hdigits, String.ofList_toList]
  rfl

end Troupe.Agent
