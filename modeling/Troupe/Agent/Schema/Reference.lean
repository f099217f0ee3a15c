import Troupe.Agent.Schema.Validity

/-! # The validators of the Python descriptors

The embedded module `troupe.act_schema`: the built-in descriptors as their constructors leave them,
`validate()` of each, and a JSON value as a Python object. A built-in `validate()` returns `None` or
raises; it is a function to `Except PyErr Unit`.

* `Descriptor` has typed slots. `Descriptor.behind` is the same object as the compiler sees it.
* A descriptor that refers to itself through others validates one value without end, so the
  recursion is bounded by a depth; `RecursionError` is raised at the bound.
* `float()` rounds an integer to the nearest float, as parsing the integer's digits does. -/

namespace Troupe.Agent

open Troupe.Lib

/-! ## Descriptors -/

/-- A built-in descriptor, or a `Field`. The parts of a descriptor are named by identity. -/
inductive Descriptor where
  | strValue (description : PyStr) (minLength maxLength : Option Int)
      (choices : Option (List PyStr))
  | int64Value (description : PyStr) (min max : Option Int) (choices : Option (List Int))
  | float64Value (description : PyStr) (min max : Option Float64)
      (choices : Option (List Float64))
  | boolValue (description : PyStr) (choices : Option (List Bool))
  | listValue (description : PyStr) (item : Nat) (minItems maxItems : Option Int)
  | objectValue (description : PyStr) (fields : List (PyStr × Nat × Bool))
  | nullableValue (description jsonKind : PyStr) (inner : Nat)
  | field (inner : Nat) (required : Bool)

/-- The descriptors of a schema, by identity. -/
abbrev Descriptors := Nat → Option Descriptor

/-- A slot that holds an object or `None`. -/
def optionalSlot {α : Type} (object : α → PyObject) : Option α → Option PyObject
  | some value => some (object value)
  | none => some .none

/-- The choices slot. -/
def choicesSlot {α : Type} (object : α → PyObject) (choices : Option (List α)) :
    Option PyObject :=
  optionalSlot (fun choices => .tuple (choices.map object)) choices

def builtinMetadata (description : PyStr) (jsonKind : String) : Metadata where
  description := some (.str description)
  jsonKind := some (.str (.text jsonKind))

/-- A field of an object snapshot. -/
def fieldTuple (field : PyStr × Nat × Bool) : PyObject :=
  .tuple [.str field.1, .ref field.2.1, .bool field.2.2]

/-- The instance behind a reference to a descriptor. -/
def Descriptor.behind : Descriptor → PyInstance
  | .strValue description minLength maxLength choices =>
    .strValue (builtinMetadata description "string") (optionalSlot .int minLength)
      (optionalSlot .int maxLength) (choicesSlot .str choices)
  | .int64Value description min max choices =>
    .int64Value (builtinMetadata description "int64") (optionalSlot .int min)
      (optionalSlot .int max) (choicesSlot .int choices)
  | .float64Value description min max choices =>
    .float64Value (builtinMetadata description "float64") (optionalSlot .float min)
      (optionalSlot .float max) (choicesSlot .float choices)
  | .boolValue description choices =>
    .boolValue (builtinMetadata description "bool") (choicesSlot .bool choices)
  | .listValue description item minItems maxItems =>
    .listValue (builtinMetadata description "array") (some (.ref item))
      (optionalSlot .int minItems) (optionalSlot .int maxItems)
  | .objectValue description fields =>
    .objectValue (builtinMetadata description "object") (some (.tuple (fields.map fieldTuple)))
  | .nullableValue description jsonKind inner =>
    .nullableValue { description := some (.str description), jsonKind := some (.str jsonKind) }
      (some (.ref inner))
  | .field inner required => .field (some (.ref inner)) (some (.bool required))

/-- The schema graph the compiler sees. -/
def Descriptors.heap (objects : Descriptors) : Heap := fun identity =>
  match objects identity with
  | some descriptor => descriptor.behind
  | none => .other

/-! ## Scalars -/

/-- `_STRING_MAX_SCALARS`. -/
def pyStringMaxScalars : Nat := 1048576
/-- `_STRING_MAX_BYTES`. -/
def pyStringMaxBytes : Nat := 4 * 1024 * 1024
/-- `_LIST_MAX_ITEMS`. -/
def pyListMaxItems : Nat := 10000
/-- `_INT64_MIN`. -/
def pyInt64Min : Int := -2 ^ 63
/-- `_INT64_MAX`. -/
def pyInt64Max : Int := 2 ^ 63 - 1

def rejected {α : Type} (message : String) : Except PyErr α := .error (.valueRejected message)

/-- `StrValue.validate`. -/
def pyValidateStr (minLength maxLength : Option Int) (choices : Option (List PyStr))
    (value : PyObject) : Except PyErr Unit :=
  match value with
  | .str (.text text) =>
    if text.length > pyStringMaxScalars ∨ text.utf8ByteSize > pyStringMaxBytes then
      rejected "value exceeds the string resource limit"
    else if minLength.any ((text.length : Int) < ·) then
      rejected "value is shorter than min_length"
    else if maxLength.any ((text.length : Int) > ·) then
      rejected "value is longer than max_length"
    else if choices.any fun choices => !choices.contains (.text text) then
      rejected "value is not in choices"
    else .ok ()
  | .str (.surrogates _) => rejected "value must contain only Unicode scalar values"
  | _ => rejected "value must be a string"

/-- `Int64Value.validate`. -/
def pyValidateInt64 (min max : Option Int) (choices : Option (List Int)) (value : PyObject) :
    Except PyErr Unit :=
  match value with
  | .int number =>
    if ¬ (pyInt64Min ≤ number ∧ number ≤ pyInt64Max) then
      rejected "value must be a signed 64-bit integer"
    else if min.any (number < ·) then rejected "value is below min"
    else if max.any (number > ·) then rejected "value is above max"
    else if choices.any fun choices => !choices.contains number then
      rejected "value is not in choices"
    else .ok ()
  | _ => rejected "value must be a signed 64-bit integer"

/-- `float()` of an integer. -/
def pyFloatOfInt (number : Int) : Float64 :=
  if number < 0 then -.ofScientific number.natAbs 0 else .ofScientific number.natAbs 0

/-- `_float64`, where every exception becomes the same rejection. -/
def pyFloat64 (value : PyObject) : Option Float64 :=
  match value with
  | .int number => some (pyFloatOfInt number) |>.filter Float.Model.isFinite
  | .float number => some number |>.filter Float.Model.isFinite
  | _ => none

/-- `Float64Value.validate`. -/
def pyValidateFloat64 (min max : Option Float64) (choices : Option (List Float64))
    (value : PyObject) : Except PyErr Unit :=
  match pyFloat64 value with
  | some number =>
    if min.any (number < ·) then rejected "value is below min"
    else if max.any (number > ·) then rejected "value is above max"
    else if choices.any fun choices => !choices.contains number then
      rejected "value is not in choices"
    else .ok ()
  | none => rejected "value must be a finite float64 number"

/-- `BoolValue.validate`. -/
def pyValidateBool (choices : Option (List Bool)) (value : PyObject) : Except PyErr Unit :=
  match value with
  | .bool flag =>
    if choices.any fun choices => !choices.contains flag then rejected "value is not in choices"
    else .ok ()
  | _ => rejected "value must be a boolean"

/-! ## Lists, objects and nullable values -/

/-- `_validate_children`. -/
def pyValidateChildren (validate : Nat → PyObject → Except PyErr Unit) :
    List (Nat × PyObject) → Except PyErr Unit
  | [] => .ok ()
  | (schema, value) :: rest => do
    validate schema value
    pyValidateChildren validate rest

/-- `ListValue.validate`. -/
def pyValidateList (validate : Nat → PyObject → Except PyErr Unit) (item : Nat)
    (minItems maxItems : Option Int) (value : PyObject) : Except PyErr Unit :=
  match value with
  | .list items =>
    if items.length > pyListMaxItems then rejected "value exceeds the array resource limit"
    else if minItems.any ((items.length : Int) < ·) then
      rejected "value has fewer than min_items"
    else if maxItems.any ((items.length : Int) > ·) then
      rejected "value has more than max_items"
    else pyValidateChildren validate (items.map fun value => (item, value))
  | _ => rejected "value must be an array"

/-- The item of a dictionary; the last one of its key. -/
def pyGetItem (name : PyStr) : List (PyObject × PyObject) → Option PyObject
  | [] => none
  | (.str key, value) :: rest =>
    (pyGetItem name rest).or (if key = name then some value else none)
  | _ :: rest => pyGetItem name rest

/-- The key of an item, if it is a string. -/
def pyKeyName : PyObject × PyObject → Option PyStr
  | (.str name, _) => some name
  | _ => none

/-- `ObjectValue.validate`. -/
def pyValidateObject (validate : Nat → PyObject → Except PyErr Unit)
    (fields : List (PyStr × Nat × Bool)) (value : PyObject) : Except PyErr Unit :=
  match value with
  | .dict entries =>
    let expected := fields.map Prod.fst
    if entries.any fun entry => (pyKeyName entry).isNone then
      rejected "object keys must be strings"
    else if (entries.filterMap pyKeyName).any fun name => !expected.contains name then
      rejected "object contains extra fields"
    else if fields.any fun field => (pyGetItem field.1 entries).isNone && field.2.2 then
      rejected "object is missing a required field"
    else
      pyValidateChildren validate (fields.filterMap fun field =>
        (pyGetItem field.1 entries).map fun value => (field.2.1, value))
  | _ => rejected "value must be an object"

/-- `NullableValue.validate`. -/
def pyValidateNullable (validate : Nat → PyObject → Except PyErr Unit) (inner : Nat)
    (value : PyObject) : Except PyErr Unit :=
  match value with
  | .none => .ok ()
  | value => validate inner value

/-- `validate` of a descriptor. A `Field` has no such method. -/
def pyValidate (objects : Descriptors) : Nat → Nat → PyObject → Except PyErr Unit
  | 0, _, _ => .error .recursionError
  | depth + 1, schema, value =>
    match objects schema with
    | some (.strValue _ minLength maxLength choices) =>
      pyValidateStr minLength maxLength choices value
    | some (.int64Value _ min max choices) => pyValidateInt64 min max choices value
    | some (.float64Value _ min max choices) => pyValidateFloat64 min max choices value
    | some (.boolValue _ choices) => pyValidateBool choices value
    | some (.listValue _ item minItems maxItems) =>
      pyValidateList (pyValidate objects depth) item minItems maxItems value
    | some (.objectValue _ fields) => pyValidateObject (pyValidate objects depth) fields value
    | some (.nullableValue _ _ inner) => pyValidateNullable (pyValidate objects depth) inner value
    | some (.field ..) => .error .attributeError
    | none => .error .attributeError

/-- `_field_snapshot`, one item. -/
def pyFieldSnapshot (objects : Descriptors) (item : PyObject × PyObject) :
    Except PyErr (PyStr × Nat × Bool) :=
  match item with
  | (.str name, .ref spec) => do
    let _ ← name.toStr (.valueError "field name must contain only Unicode scalar values")
    match objects spec with
    | some (.field inner required) => .ok (name, inner, required)
    | some _ => .ok (name, spec, true)
    | none => .error (.typeError "field values must be SchemaValue or Field")
  | (.str name, _) => do
    let _ ← name.toStr (.valueError "field name must contain only Unicode scalar values")
    .error (.typeError "field values must be SchemaValue or Field")
  | _ => .error (.typeError "field names must be str")

/-- `ObjectValue(fields=schema).validate(value)`. -/
def pyValidateRoot (objects : Descriptors) (depth : Nat) (schema : SchemaDict)
    (value : PyObject) : Except PyErr Unit := do
  let fields ← schema.entries.mapM (pyFieldSnapshot objects)
  pyValidateObject (pyValidate objects depth) fields value

/-! ## JSON values as Python objects -/

mutual

/-- `json.loads`: an integer is an `int`, any other number the nearest `float`. -/
def jsonToPy : Json → PyObject
  | .null => .none
  | .bool value => .bool value
  | .number number =>
    match parseInt? number.text with
    | some value => .int value
    | none => .float (parseFloat number.text)
  | .string value => .str (.text value)
  | .array items => .list (jsonToPyItems items)
  | .object fields => .dict (jsonToPyFields fields)

def jsonToPyItems : JsonItems → List PyObject
  | .nil => []
  | .cons value rest => jsonToPy value :: jsonToPyItems rest

def jsonToPyFields : JsonFields → List (PyObject × PyObject)
  | .nil => []
  | .cons name value rest => (.str (.text name), jsonToPy value) :: jsonToPyFields rest

end

end Troupe.Agent
