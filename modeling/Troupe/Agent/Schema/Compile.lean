import Troupe.Agent.Schema.Descriptor

/-! # Compiling a schema

`compile_act_schema` and the methods of `Compiler`. `depth` is counted down: `levels` is how many
levels may still be opened, `SCHEMA_MAX_DEPTH + 1 - depth`, so the depth check is the base case of
the recursion. The method that compiles one value is passed to the methods that compile the parts of
it.

* The object graph does not change while it is compiled; the callback `render_prompt` of one custom
  value is called once, and its outcome is part of the graph.
* `active` and `custom_memo` are keyed by identity. An object that is not a reference has no parts
  and is never compiled, so it is not recorded. -/

namespace Troupe.Agent

open Troupe.Lib

/-! ## The compiler's state -/

/-- `CompileStats`. -/
structure CompileStats where
  nodes : Nat
  fields : Nat
  choices : Nat
  choiceBytes : Nat

/-- `CustomBinding`. -/
structure CustomBinding where
  validatorId : Nat
  description : String
  jsonKind : JsonKind
  promptFragment : String

/-- `Compiler`, without the types. -/
structure Compiler where
  stats : CompileStats
  active : List Nat
  customMemo : List (Nat × CustomBinding)
  customValidators : List Nat

abbrev CompileM := StateT Compiler (Except PyErr)

/-- The `?` on a call that does not touch the compiler. -/
def attempt {α : Type} (result : Except PyErr α) : CompileM α := fun c =>
  result.map fun value => (value, c)

def updateStats (f : CompileStats → CompileStats) : CompileM Unit :=
  modify fun c => { c with stats := f c.stats }

/-! ## Scalars -/

/-- The choices of a scalar exceed the limits so far. -/
def CompileStats.choicesExceeded (stats : CompileStats) : Prop :=
  stats.choices > schemaMaxChoices ∨ stats.choiceBytes > schemaMaxChoiceBytes

instance (stats : CompileStats) : Decidable stats.choicesExceeded :=
  inferInstanceAs (Decidable (_ ∨ _))

/-- `record_choices`, with the encoded length of each choice. -/
def recordChoices (lengths : Option (List Nat)) : CompileM Unit :=
  match lengths with
  | none => pure ()
  | some lengths => do
    updateStats fun stats =>
      { stats with
        choices := stats.choices + lengths.length
        choiceBytes := stats.choiceBytes + lengths.sum }
    if (← get).stats.choicesExceeded then
      throw (.valueError "compiled schema choices exceed ResourceLimitsV1")

/-- The bounds of a snapshot are in order. -/
def outOfOrder {α : Type} [LT α] [DecidableLT α] : Option α → Option α → Bool
  | some minimum, some maximum => decide (minimum > maximum)
  | _, _ => false

/-- The `StrValue` part of `compile_value_inner`, before the choices are recorded. -/
def snapshotString (metadata : Metadata) (minLength maxLength choices : Option PyObject) :
    Except PyErr (ValueContract × Option (List Nat)) := do
  let description ← extractBuiltinMetadata metadata .string
  let minLength ← extractExactOptionalUsize (← getattr minLength) "min_length"
    resultStringMaxScalars
  let maxLength ← extractExactOptionalUsize (← getattr maxLength) "max_length"
    resultStringMaxScalars
  let maxLength := maxLength.getD resultStringMaxScalars
  if minLength.any (· > maxLength) then
    throw (.valueError "min_length snapshot must not exceed max_length")
  let choices ← extractStringChoices (← getattr choices) minLength maxLength
  pure (.string description minLength maxLength choices,
    choices.map (·.map fun choice => (Json.toString (.string choice)).utf8ByteSize))

/-- The `Int64Value` part. -/
def snapshotInt64 (metadata : Metadata) (min max choices : Option PyObject) :
    Except PyErr (ValueContract × Option (List Nat)) := do
  let description ← extractBuiltinMetadata metadata .int64
  let minimum ← extractExactOptionalI64 (← getattr min) "min"
  let maximum ← extractExactOptionalI64 (← getattr max) "max"
  if outOfOrder minimum maximum then
    throw (.valueError "min snapshot must not exceed max")
  let choices ← extractInt64Choices (← getattr choices) minimum maximum
  pure (.int64 description minimum maximum choices,
    choices.map (·.map fun choice => (toString choice).utf8ByteSize))

/-- The `Float64Value` part. -/
def snapshotFloat64 [FloatText] (metadata : Metadata) (min max choices : Option PyObject) :
    Except PyErr (ValueContract × Option (List Nat)) := do
  let description ← extractBuiltinMetadata metadata .float64
  let minimum ← extractExactOptionalF64 (← getattr min) "min"
  let maximum ← extractExactOptionalF64 (← getattr max) "max"
  if outOfOrder minimum maximum then
    throw (.valueError "min snapshot must not exceed max")
  let choices ← extractFloat64Choices (← getattr choices) minimum maximum
  pure (.float64 description minimum maximum choices,
    choices.map (·.map fun choice => (FloatText.json choice).utf8ByteSize))

/-- The `BoolValue` part. -/
def snapshotBool (metadata : Metadata) (choices : Option PyObject) :
    Except PyErr (ValueContract × Option (List Nat)) := do
  let description ← extractBuiltinMetadata metadata .bool
  let choices ← extractBoolChoices (← getattr choices)
  pure (.bool description choices, choices.map (·.map fun choice => (!choice).toNat + 4))

/-- A scalar: its snapshot, then its choices. -/
def compileScalar (snapshot : Except PyErr (ValueContract × Option (List Nat))) :
    CompileM ValueContract := do
  let (contract, lengths) ← attempt snapshot
  recordChoices lengths
  pure contract

/-! ## Lists, objects and nullable values -/

section Parts

variable (heap : Heap) (compile : PyObject → String → CompileM ValueContract)

/-- The bounds of a `ListValue`. -/
def snapshotItemBounds (minItems maxItems : Option PyObject) :
    Except PyErr (Option Nat × Nat) := do
  let minItems ← extractExactOptionalUsize (← getattr minItems) "min_items" resultListMaxItems
  let maxItems ← extractExactOptionalUsize (← getattr maxItems) "max_items" resultListMaxItems
  let maxItems := maxItems.getD resultListMaxItems
  if minItems.any (· > maxItems) then
    throw (.valueError "min_items snapshot must not exceed max_items")
  pure (minItems, maxItems)

/-- The `ListValue` part of `compile_value_inner`. -/
def compileList (metadata : Metadata) (item minItems maxItems : Option PyObject) (path : String) :
    CompileM ValueContract := do
  let description ← attempt (extractBuiltinMetadata metadata .array)
  let (minItems, maxItems) ← attempt (snapshotItemBounds minItems maxItems)
  let item ← attempt (getattr item)
  let item ← compile item (path ++ "/*")
  pure (.list description item minItems maxItems)

/-- One field of an object snapshot: its name, value and required flag. -/
def fieldTriple (field : PyObject) : Except PyErr (PyObject × PyObject × PyObject) :=
  match field with
  | .tuple [name, value, required] => .ok (name, value, required)
  | .tuple _ =>
    .error (.valueError "object field snapshot must contain name, value, and required")
  | _ => .error (.typeError "object field snapshot must be an exact tuple")

/-- The fields of an object snapshot. -/
def fieldTriples (fields : PyObject) : Except PyErr (List (PyObject × PyObject × PyObject)) :=
  match fields with
  | .tuple fields => fields.mapM fieldTriple
  | _ => .error (.typeError "object fields snapshot must be an exact tuple")

/-- The loop over the fields of an `ObjectValue`; `names` are those met before. -/
def compileEntries (path : String) : List String → List (PyObject × PyObject × PyObject) →
    CompileM ObjectContract
  | _, [] => pure .nil
  | names, (name, value, required) :: rest => do
    let name ← attempt (extractExactString name "object field name must be an exact str")
    if names.contains name then
      throw (.valueError "object fields snapshot must not contain duplicate names")
    updateStats fun stats => { stats with fields := stats.fields + 1 }
    let required ← attempt (extractExactBool required "required")
    let value ← compile value (joinPath path name)
    let others ← compileEntries path (names ++ [name]) rest
    pure (.cons name required value others)

/-- The `ObjectValue` part of `compile_value_inner`. -/
def compileObject (metadata : Metadata) (fields : Option PyObject) (path : String) :
    CompileM ValueContract := do
  let description ← attempt (extractBuiltinMetadata metadata .object)
  let fields ← attempt (getattr fields)
  let entries ← attempt (fieldTriples fields)
  let contract ← compileEntries compile path [] entries
  pure (.object description contract)

/-- The `NullableValue` part of `compile_value_inner`. -/
def compileNullable (metadata : Metadata) (inner : Option PyObject) (path : String) :
    CompileM ValueContract := do
  let description ← attempt (extractBuiltinDescription metadata)
  let kind ← attempt (extractBuiltinJsonKind metadata)
  let inner ← attempt (getattr inner)
  let inner ← compile inner path
  if description ≠ inner.description ∨ kind ≠ inner.jsonKind then
    throw (.valueError "NullableValue metadata snapshot must match its inner value")
  pure (.nullable inner)

/-- The prompt of a custom value. -/
def customPrompt (rendered : Except PyErr PyObject) (path : String) : Except PyErr String := do
  let callbackError := PyErr.schemaCallbackError "render_prompt" path
  let rendered ← match rendered with
    | .ok (.str rendered) => rendered.toStr (callbackError .unicodeEncodeError)
    | .ok _ => throw (callbackError (.typeError "custom render_prompt() must return an exact str"))
    | .error cause => throw (callbackError cause)
  if rendered.isEmpty || rendered.toList.all isWhitespace then
    throw (callbackError (.valueError "custom render_prompt() must return a non-blank fragment"))
  if rendered.utf8ByteSize > customPromptMaxBytes then
    throw (callbackError (.valueError "custom render_prompt() exceeds ResourceLimitsV1"))
  pure rendered

/-- The binding of a custom value: the one made before, or a new one. -/
def bindCustom (identity : Nat) (metadata : Metadata) (rendered : Except PyErr PyObject)
    (path : String) : CompileM CustomBinding := do
  match (← get).customMemo.lookup identity with
  | some binding => pure binding
  | none =>
    let (description, jsonKind) ← attempt (customBaseMetadata metadata)
    let promptFragment ← attempt (customPrompt rendered path)
    let validatorId := (← get).customValidators.length
    let binding := { validatorId, description, jsonKind, promptFragment }
    modify fun c =>
      { c with
        customValidators := c.customValidators ++ [identity]
        customMemo := (identity, binding) :: c.customMemo }
    pure binding

/-- The custom part of `compile_value_inner`. -/
def compileCustom (identity : Nat) (metadata : Metadata) (rendered : Except PyErr PyObject)
    (path : String) : CompileM ValueContract := do
  let binding ← bindCustom identity metadata rendered path
  pure (.custom binding.description binding.jsonKind binding.promptFragment binding.validatorId)

/-- "schema field must be a SchemaValue or Field". -/
def notASchemaValue (path : String) : PyErr :=
  .typeError ("schema field " ++ path ++ " must be a SchemaValue or Field")

/-- `compile_value_inner`. -/
def compileValueInner [FloatText] (value : PyObject) (path : String) : CompileM ValueContract :=
  match value with
  | .ref identity =>
    match heap identity with
    | .strValue metadata minLength maxLength choices =>
      compileScalar (snapshotString metadata minLength maxLength choices)
    | .int64Value metadata min max choices =>
      compileScalar (snapshotInt64 metadata min max choices)
    | .float64Value metadata min max choices =>
      compileScalar (snapshotFloat64 metadata min max choices)
    | .boolValue metadata choices => compileScalar (snapshotBool metadata choices)
    | .listValue metadata item minItems maxItems =>
      compileList compile metadata item minItems maxItems path
    | .objectValue metadata fields => compileObject compile metadata fields path
    | .nullableValue metadata inner => compileNullable compile metadata inner path
    | .builtinSubclass =>
      throw (.typeError "concrete built-in SchemaValue subclasses are not supported")
    | .custom metadata rendered => compileCustom identity metadata rendered path
    | .field .. => throw (notASchemaValue path)
    | .fieldSubclass => throw (notASchemaValue path)
    | .other => throw (notASchemaValue path)
  | _ => throw (notASchemaValue path)

/-- `self.active.insert`, or the cycle error. -/
def enter (value : PyObject) (path : String) : CompileM Unit := do
  match value with
  | .ref identity =>
    if (← get).active.contains identity then
      throw (.valueError ("schema graph contains a cycle at " ++ path))
    modify fun c => { c with active := identity :: c.active }
  | _ => pure ()

/-- `self.active.remove`. -/
def leave (value : PyObject) : CompileM Unit :=
  match value with
  | .ref identity => modify fun c => { c with active := c.active.erase identity }
  | _ => pure ()

end Parts

/-! ## Values and the root -/

/-- `compile_value`, with so many levels left. -/
def compileValue [FloatText] (heap : Heap) : Nat → PyObject → String → CompileM ValueContract
  | 0, _, _ => throw (.valueError "compiled schema exceeds the depth limit")
  | levels + 1, value, path => do
    updateStats fun stats => { stats with nodes := stats.nodes + 1 }
    if (← get).stats.nodes > schemaMaxNodes then
      throw (.valueError "compiled schema exceeds the node limit")
    enter value path
    let contract ← compileValueInner heap (compileValue heap levels) value path
    leave value
    pure contract

/-- The value and the required flag of a field specification. -/
def fieldSpec (heap : Heap) (spec : PyObject) : Except PyErr (PyObject × Bool) :=
  match spec with
  | .ref identity =>
    match heap identity with
    | .field inner required => do
      let inner ← getattr inner
      let required ← extractExactBool (← getattr required) "required"
      pure (inner, required)
    | .fieldSubclass => .error (.typeError "Field subclasses are not supported")
    | _ => .ok (spec, true)
  | _ => .ok (spec, true)

/-- The name of a field of the root. -/
def rootFieldName (name : PyObject) : Except PyErr String :=
  match name with
  | .str name =>
    name.toStr (.valueError "schema field names must contain only Unicode scalar values")
  | _ => .error (.typeError "schema field names must be exact str")

/-- `compile_object_fields`, with the method that compiles a value one level down. -/
def compileObjectFields (heap : Heap) (compile : PyObject → String → CompileM ValueContract)
    (path : String) : List (PyObject × PyObject) → CompileM ObjectContract
  | [] => pure .nil
  | (name, spec) :: rest => do
    let name ← attempt (rootFieldName name)
    let (value, required) ← attempt (fieldSpec heap spec)
    updateStats fun stats => { stats with fields := stats.fields + 1 }
    let value ← compile value (joinPath path name)
    let others ← compileObjectFields heap compile path rest
    pure (.cons name required value others)

/-- The compiler before anything is compiled; the root is one node. -/
def Compiler.start : Compiler where
  stats := { nodes := 1, fields := 0, choices := 0, choiceBytes := 0 }
  active := []
  customMemo := []
  customValidators := []

/-- The items of an exact `dict`. -/
def exactDict (schema : PyObject) : Except PyErr (List (PyObject × PyObject)) :=
  match schema with
  | .dict entries => .ok entries
  | _ => .error (.typeError "output_schema must be an exact dict")

/-- `compile_act_schema`. The root is at depth 1, its fields at depth 2. -/
def compileActSchema [FloatText] (heap : Heap) (schema : PyObject) :
    Except PyErr CompiledActSchema := do
  let entries ← exactDict schema
  let (root, compiler) ← (compileObjectFields heap
    (compileValue heap (schemaMaxDepth + 1 - 2)) "" entries).run Compiler.start
  if compiler.stats.nodes > schemaMaxNodes then
    throw (.valueError "compiled schema exceeds the node limit")
  if compiler.stats.fields > schemaMaxFields then
    throw (.valueError "compiled schema exceeds the field limit")
  if compiler.stats.choicesExceeded then
    throw (.valueError "compiled schema choices exceed ResourceLimitsV1")
  pure
    { root
      validationMode := if compiler.customValidators.isEmpty then .nativeOnly else .hybrid
      customValidators := compiler.customValidators }

end Troupe.Agent
