import Troupe.Agent.Schema.Validity
import Troupe.Lib.ReadsBack

/-! # The prompt of an act

`CompiledActSchema::render_prompt` and the functions under it: the text in which an agent reads the
script and the contract of its result.

* A text that the source pushes onto `output` is a list of characters here.
* `serde_json::to_string` of a string is `Json.quote`, of a list `bracketed`; a float is written by
  `FloatText`. -/

namespace Troupe.Agent

open Troupe.Lib Json

/-- `SCRIPT_MAX_BYTES`. -/
def scriptMaxBytes : Nat := 256 * 1024
/-- `PROMPT_MAX_BYTES`. -/
def promptMaxBytes : Nat := 1024 * 1024

/-- `RESULT_CHANNEL_DESCRIPTION`. -/
def resultChannelDescription : String :=
  "Return the current Actor's structured result to the calling Troupe Production. " ++
    "This built-in server runs in the local Troupe process, listens only on " ++
    "127.0.0.1, and authenticates each Actor route. It validates the value and " ++
    "stores one accepted result for the caller; it does not itself publish to " ++
    "GitHub, upload to remote storage, or send the value to a third-party service. " ++
    "Submit only the result authorized by the current task, never credentials or " ++
    "unrelated private files. Correct schema errors in this turn; after acceptance " ++
    "do not resubmit. A provider denial is not a schema error: do not bypass it."

/-- `push_str` of a fixed text. -/
@[irreducible] def pushStr (text : String) : List Char := text.toList

theorem pushStr_eq (text : String) : pushStr text = text.toList := by rw [pushStr]

/-- A number as `Display` writes it. -/
def integerText : Int → List Char
  | .ofNat value => Nat.toDigits 10 value
  | .negSucc value => '-' :: Nat.toDigits 10 (value + 1)

/-- A boolean in JSON. -/
def boolText (value : Bool) : List Char := if value then "true".toList else "false".toList

/-- `" ".repeat`. -/
def spaces (count : Nat) : List Char := List.replicate count ' '

/-- `render_prompt_text`. -/
def renderPromptText (label value : String) : List Char :=
  label.toList ++ '=' :: quote value

/-- A bound of a range, or the name of its type's end. -/
def boundText {α : Type} (text : α → List Char) (limit : String) : Option α → List Char
  | none => limit.toList
  | some value => text value

/-- The range of a number, when it has a bound. -/
def rangeText {α : Type} (text : α → List Char) (least greatest : String)
    (range : Option α × Option α) : List Char :=
  if range.1.isSome ∨ range.2.isSome then
    "; inclusive range ".toList ++ boundText text least range.1 ++ "..".toList ++
      boundText text greatest range.2
  else []

/-- The choices of a scalar, when it has any. -/
def choicesText {α : Type} (text : α → List Char) (choices : Option (List α)) : List Char :=
  optionText (fun choices => "; one of ".toList ++ bracketed text choices) choices

/-- A bound of a length, when there is one. -/
def minimumText (label : String) (minimum : Option Nat) : List Char :=
  optionText (fun minimum => label.toList ++ Nat.toDigits 10 minimum) minimum

/-- An object around its fields. -/
def renderBraces (fields : List Char) (indent : Nat) : List Char :=
  pushStr "\x7b\n" ++ fields ++ spaces indent ++ pushStr "\x7d"

section Render

variable [FloatText]

mutual

/-- `render_value`. -/
def renderValue : ValueContract → Nat → List Char
  | .string description minLength maxLength choices, _ =>
    pushStr "<string; " ++ renderPromptText "description" description ++
      minimumText "; minimum length " minLength ++
      pushStr "; maximum length " ++ Nat.toDigits 10 maxLength ++
      choicesText quote choices ++ pushStr ">"
  | .int64 description min max choices, _ =>
    pushStr "<int64; " ++ renderPromptText "description" description ++
      rangeText integerText "int64-min" "int64-max" (min, max) ++
      choicesText integerText choices ++ pushStr ">"
  | .float64 description min max choices, _ =>
    pushStr "<float64; " ++ renderPromptText "description" description ++
      rangeText (fun value => (FloatText.display value).toList) "float64-min" "float64-max"
        (min, max) ++
      choicesText (fun value => (FloatText.json value).toList) choices ++ pushStr ">"
  | .bool description choices, _ =>
    pushStr "<bool; " ++ renderPromptText "description" description ++
      choicesText boolText choices ++ pushStr ">"
  | .list description item minItems maxItems, indent =>
    pushStr "<array; " ++ renderPromptText "description" description ++
      minimumText "; minimum items " minItems ++
      pushStr "; maximum items " ++ Nat.toDigits 10 maxItems ++ pushStr "; items " ++
      renderValue item indent ++ pushStr ">"
  | .object description contract, indent =>
    pushStr "<object; " ++ renderPromptText "description" description ++ pushStr "> " ++
      renderBraces (renderFields contract indent) indent
  | .nullable inner, indent => renderValue inner indent ++ pushStr " or null"
  | .custom description jsonKind promptFragment _, _ =>
    pushStr "<" ++ pushStr jsonKind.name ++ pushStr "; " ++
      renderPromptText "description" description ++ pushStr "; " ++
      renderPromptText "custom_constraint" promptFragment ++ pushStr ">"

/-- The loop of `render_object`. -/
def renderFields : ObjectContract → Nat → List Char
  | .nil, _ => []
  | .cons name required value rest, indent =>
    spaces (indent + 2) ++ quote name ++ (if required then [] else pushStr "?") ++ pushStr ": " ++
      renderValue value (indent + 2) ++
      (match rest with
        | .nil => []
        | .cons .. => pushStr ",") ++
      pushStr "\n" ++ renderFields rest indent

end

/-- `render_object`. -/
def renderObject (contract : ObjectContract) (indent : Nat) : List Char :=
  renderBraces (renderFields contract indent) indent

/-- What `render_prompt` writes behind the contract. -/
def submitInstructions : String :=
  "\nSubmit exactly one accepted result through troupe_submit_result.\n" ++
    "Pass value as a JSON object, not a JSON-encoded string.\n" ++
    "Extra fields are forbidden. Correct validation errors within this same turn.\n" ++
    "Assistant text is not a result channel."

/-- The text that `render_prompt` formats. -/
def CompiledActSchema.promptText (schema : CompiledActSchema) (script : String) : List Char :=
  pushStr "TROUPE_ACT_V1\nRESULT_CHANNEL\n" ++ pushStr resultChannelDescription ++
    pushStr "\nSCRIPT_JSON\n" ++ quote script ++ pushStr "\nRESULT_CONTRACT\n" ++
    renderObject schema.root 0 ++
    pushStr submitInstructions

/-- `CompiledActSchema::render_prompt`. -/
def CompiledActSchema.renderPrompt (schema : CompiledActSchema) (script : String) :
    Except PyErr String :=
  if script.utf8ByteSize > scriptMaxBytes then
    .error (.valueError "script exceeds ResourceLimitsV1")
  else
    let prompt := String.ofList (schema.promptText script)
    if prompt.utf8ByteSize > promptMaxBytes then
      .error (.valueError "rendered prompt exceeds ResourceLimitsV1")
    else .ok prompt

end Render

mutual

/-- A contract without the identities of its validators. -/
def ValueContract.eraseValidators : ValueContract → ValueContract
  | .list description item minItems maxItems =>
    .list description item.eraseValidators minItems maxItems
  | .object description contract => .object description contract.eraseValidators
  | .nullable inner => .nullable inner.eraseValidators
  | .custom description jsonKind promptFragment _ => .custom description jsonKind promptFragment 0
  | .string description minLength maxLength choices =>
    .string description minLength maxLength choices
  | .int64 description min max choices => .int64 description min max choices
  | .float64 description min max choices => .float64 description min max choices
  | .bool description choices => .bool description choices

def ObjectContract.eraseValidators : ObjectContract → ObjectContract
  | .nil => .nil
  | .cons name required value rest =>
    .cons name required value.eraseValidators rest.eraseValidators

end

end Troupe.Agent
