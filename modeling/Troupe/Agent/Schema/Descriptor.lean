import Troupe.Agent.Schema.Contract

/-! # Schema descriptors as Python objects

What the compiler reads of Python: the exact type of an object, its slots, and the Unicode scalar
values of a string. `PyObject` is a value or a reference, `Heap` gives the instance behind each
reference, and the `extract_*` functions of `schema/mod.rs` turn slots into Rust values.

* An object of any other type than those listed is a reference to `PyInstance.other`.
* A slot that was never assigned is `none`; reading it raises.
* `render_prompt` of a custom value is code of the user; `rendered` is what it returns or raises. -/

namespace Troupe.Agent

open Troupe.Lib

/-! ## Objects -/

/-- A `str`: a Unicode text, or the code points of one with a surrogate among them. -/
inductive PyStr where
  | text (value : String)
  | surrogates (codes : List Nat)
  deriving DecidableEq

/-- An object, by its exact type. -/
inductive PyObject where
  | none
  | bool (value : Bool)
  | int (value : Int)
  | float (value : Float64)
  | str (value : PyStr)
  | tuple (items : List PyObject)
  | list (items : List PyObject)
  | dict (entries : List (PyObject × PyObject))
  | ref (identity : Nat)

/-- An exception. -/
inductive PyErr where
  | typeError (message : String)
  | valueError (message : String)
  | attributeError
  | overflowError
  | unicodeEncodeError
  | recursionError
  | valueRejected (message : String)
  | schemaCallbackError (phase path : String) (cause : PyErr)
  | raised (identity : Nat)

/-- The slots of `SchemaValue`. -/
structure Metadata where
  description : Option PyObject
  jsonKind : Option PyObject

/-- What a reference leads to. -/
inductive PyInstance where
  | strValue (metadata : Metadata) (minLength maxLength choices : Option PyObject)
  | int64Value (metadata : Metadata) (min max choices : Option PyObject)
  | float64Value (metadata : Metadata) (min max choices : Option PyObject)
  | boolValue (metadata : Metadata) (choices : Option PyObject)
  | listValue (metadata : Metadata) (item minItems maxItems : Option PyObject)
  | objectValue (metadata : Metadata) (fields : Option PyObject)
  | nullableValue (metadata : Metadata) (inner : Option PyObject)
  | field (inner required : Option PyObject)
  | fieldSubclass
  | builtinSubclass
  | custom (metadata : Metadata) (rendered : Except PyErr PyObject)
  | other

abbrev Heap := Nat → PyInstance

/-- `getattr` of a slot. -/
def getattr (slot : Option PyObject) : Except PyErr PyObject :=
  match slot with
  | some value => .ok value
  | .none => .error .attributeError

/-! ## Extracting values -/

/-- `str::to_str` of a Python string. -/
def PyStr.toStr (error : PyErr) : PyStr → Except PyErr String
  | .text value => .ok value
  | .surrogates _ => .error error

/-- `extract_exact_string`. -/
def extractExactString (value : PyObject) (message : String) : Except PyErr String :=
  match value with
  | .str value =>
    value.toStr (.valueError "schema string must contain only Unicode scalar values")
  | _ => .error (.typeError message)

/-- `char::is_whitespace`, the Unicode property White_Space. -/
def isWhitespace (c : Char) : Bool :=
  (9 ≤ c.toNat && c.toNat ≤ 13) || c.toNat == 0x20 || c.toNat == 0x85 || c.toNat == 0xa0 ||
    c.toNat == 0x1680 || (0x2000 ≤ c.toNat && c.toNat ≤ 0x200a) || c.toNat == 0x2028 ||
    c.toNat == 0x2029 || c.toNat == 0x202f || c.toNat == 0x205f || c.toNat == 0x3000

/-- `extract_custom_description`. -/
def extractCustomDescription (value : PyObject) : Except PyErr String := do
  let description ← extractExactString value "description must be an exact str"
  if description.isEmpty || description.toList.all isWhitespace then
    throw (.valueError "description must contain a non-whitespace character")
  if description.length > descriptionMaxScalars ∨
      description.utf8ByteSize > descriptionMaxBytes then
    throw (.valueError "description exceeds ResourceLimitsV1")
  pure description

/-- `extract_builtin_description`. -/
def extractBuiltinDescription (metadata : Metadata) : Except PyErr String := do
  extractCustomDescription (← getattr metadata.description)

/-- `extract_builtin_json_kind`. -/
def extractBuiltinJsonKind (metadata : Metadata) : Except PyErr JsonKind := do
  let kind ← extractExactString (← getattr metadata.jsonKind)
    "built-in json_kind snapshot must be an exact str"
  match JsonKind.parse kind with
  | some kind => pure kind
  | none => throw (.valueError "built-in json_kind snapshot is invalid")

/-- `extract_builtin_metadata`. -/
def extractBuiltinMetadata (metadata : Metadata) (expected : JsonKind) :
    Except PyErr String := do
  let description ← extractBuiltinDescription metadata
  let kind ← extractBuiltinJsonKind metadata
  if kind ≠ expected then
    throw (.valueError "built-in json_kind snapshot does not match its descriptor type")
  pure description

/-- `custom_base_metadata`. -/
def customBaseMetadata (metadata : Metadata) : Except PyErr (String × JsonKind) := do
  let baseSlot := fun (slot : Option PyObject) =>
    match slot with
    | some value => Except.ok value
    | none => .error (.typeError "custom SchemaValue must call SchemaValue.__init__()")
  let description ← extractCustomDescription (← baseSlot metadata.description)
  let kind ← extractExactString (← baseSlot metadata.jsonKind)
    "custom json_kind must be an exact str"
  match JsonKind.parse kind with
  | some kind => pure (description, kind)
  | none => throw (.valueError "custom json_kind is invalid")

/-- `extract_exact_optional_usize`. A `usize` has 64 bits. -/
def extractExactOptionalUsize (value : PyObject) (name : String) (maximum : Nat) :
    Except PyErr (Option Nat) :=
  match value with
  | .none => .ok none
  | .int value =>
    if value < 0 ∨ 2 ^ 64 ≤ value then .error .overflowError
    else if value.toNat > maximum then
      .error (.valueError (name ++ " snapshot exceeds ResourceLimitsV1"))
    else .ok (some value.toNat)
  | _ => .error (.typeError (name ++ " snapshot must be an exact int or None"))

/-- `extract::<i64>`. -/
def extractI64 (value : Int) : Except PyErr Int :=
  if -2 ^ 63 ≤ value ∧ value < 2 ^ 63 then .ok value else .error .overflowError

/-- `extract_exact_optional_i64`. -/
def extractExactOptionalI64 (value : PyObject) (name : String) : Except PyErr (Option Int) :=
  match value with
  | .none => .ok none
  | .int value => (extractI64 value).map some
  | _ => .error (.typeError (name ++ " snapshot must be an exact int or None"))

/-- `extract_exact_optional_f64`. -/
def extractExactOptionalF64 (value : PyObject) (name : String) :
    Except PyErr (Option Float64) :=
  match value with
  | .none => .ok none
  | .float value =>
    if value.isFinite then .ok (some value)
    else .error (.valueError (name ++ " snapshot must be finite"))
  | _ => .error (.typeError (name ++ " snapshot must be an exact float or None"))

/-- `extract_exact_bool`. -/
def extractExactBool (value : PyObject) (name : String) : Except PyErr Bool :=
  match value with
  | .bool value => .ok value
  | _ => .error (.typeError (name ++ " snapshot must be an exact bool"))

/-! ## Choices -/

/-- `extract_choice_tuple`. -/
def extractChoiceTuple (value : PyObject) : Except PyErr (Option (List PyObject)) :=
  match value with
  | .none => .ok none
  | .tuple choices =>
    if choices.isEmpty then .error (.valueError "choices snapshot must not be empty")
    else if choices.length > scalarChoicesMaxItems then
      .error (.valueError "choices snapshot exceeds ResourceLimitsV1")
    else .ok (some choices)
  | _ => .error (.typeError "choices snapshot must be an exact tuple or None")

/-- The loop over a choice tuple: each choice is converted and must be new. -/
def convertChoices {α : Type} [BEq α] (convert : PyObject → Except PyErr α) :
    List PyObject → List α → Except PyErr (List α)
  | [], output => .ok output
  | choice :: rest, output => do
    let choice ← convert choice
    if output.contains choice then
      throw (.valueError "choices snapshot must not contain duplicates")
    convertChoices convert rest (output ++ [choice])

/-- The choices of a descriptor, if it has any. -/
def extractChoices {α : Type} [BEq α] (convert : PyObject → Except PyErr α) (value : PyObject) :
    Except PyErr (Option (List α)) := do
  match ← extractChoiceTuple value with
  | none => pure none
  | some choices => some <$> convertChoices convert choices []

/-- `extract_string_choices`. -/
def extractStringChoices (value : PyObject) (minimum : Option Nat) (maximum : Nat) :
    Except PyErr (Option (List String)) :=
  extractChoices (fun choice => do
    let choice ← extractExactString choice "string choice snapshot must be an exact str"
    if choice.length > resultStringMaxScalars ∨ choice.utf8ByteSize > resultStringMaxBytes then
      throw (.valueError "string choice snapshot exceeds ResourceLimitsV1")
    if minimum.any (choice.length < ·) ∨ choice.length > maximum then
      throw (.valueError "string choice snapshot violates length bounds")
    pure choice) value

/-- `extract_int64_choices`. -/
def extractInt64Choices (value : PyObject) (minimum maximum : Option Int) :
    Except PyErr (Option (List Int)) :=
  extractChoices (fun choice => do
    let choice ← match choice with
      | .int choice => extractI64 choice
      | _ => throw (.typeError "integer choice snapshot must be an exact int")
    if minimum.any (choice < ·) ∨ maximum.any (choice > ·) then
      throw (.valueError "integer choice snapshot violates bounds")
    pure choice) value

/-- `extract_float64_choices`. -/
def extractFloat64Choices (value : PyObject) (minimum maximum : Option Float64) :
    Except PyErr (Option (List Float64)) :=
  extractChoices (fun choice => do
    let choice ← match choice with
      | .float choice => pure choice
      | _ => throw (.typeError "float choice snapshot must be an exact float")
    if !choice.isFinite then
      throw (.valueError "float choice snapshot must be finite")
    if minimum.any (choice < ·) ∨ maximum.any (choice > ·) then
      throw (.valueError "float choice snapshot violates bounds")
    pure choice) value

/-- `extract_bool_choices`. -/
def extractBoolChoices (value : PyObject) : Except PyErr (Option (List Bool)) :=
  extractChoices (fun choice => extractExactBool choice "boolean choice") value

end Troupe.Agent
