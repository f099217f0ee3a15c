import Mathlib.Data.List.Basic
import Troupe.Core.Event
import Troupe.Lib.Json

/-! # Serialized values

`Serialize` for the values that modelled code writes as JSON: counters and run identifiers in control
frames, scopes and dimensions in the keys of counter series. Those in keys are injective, so a text
stands for one value. -/

namespace Troupe.Core

open Troupe.Lib

/-- `Serialize for SchemaU64`: a decimal string. -/
def serializeU64 (value : SchemaU64) : Json := .string value.get.repr

theorem serializeU64_injective : Function.Injective serializeU64 := by
  intro a b h
  have hrepr : a.get.repr = b.get.repr := Json.string.inj h
  exact SchemaU64.get_injective (Nat.repr_injective hrepr)

/-- `Display for CanonicalUuid`: lower-case hexadecimal in groups of 8, 4, 4, 4 and 12. -/
def displayUuid (uuid : CanonicalUuid) : String :=
  let digits := (List.range 32).map fun i =>
    Json.hexDigit (uuid.bits.toNat / 16 ^ (31 - i) % 16)
  String.ofList (digits.take 8 ++ '-' :: (digits.drop 8).take 4 ++ '-' :: (digits.drop 12).take 4 ++
    '-' :: (digits.drop 16).take 4 ++ '-' :: digits.drop 20)

example : displayUuid ⟨0x0123456789abcdef0123456789abcdef⟩ =
    "01234567-89ab-cdef-0123-456789abcdef" := by decide

/-- `Serialize for RunLocalId`. -/
def serializeRunLocalId (id : RunLocalId) : Json := .string id.value

theorem serializeRunLocalId_injective : Function.Injective serializeRunLocalId := by
  intro a b h
  exact RunLocalId.value_injective (Json.string.inj h)

/-- `Serialize for Option`: `null` when absent. -/
def serializeOption {α : Type} (serialize : α → Json) : Option α → Json
  | none => .null
  | some value => serialize value

theorem serializeOption_injective {α : Type} {serialize : α → Json}
    (hinjective : Function.Injective serialize) (hnull : ∀ value, serialize value ≠ .null) :
    Function.Injective (serializeOption serialize) := by
  intro a b h
  cases a with
  | none =>
    cases b with
    | none => rfl
    | some b => exact absurd h.symm (hnull b)
  | some a =>
    cases b with
    | none => exact absurd h (hnull a)
    | some b => rw [hinjective h]

/-- `Serialize for DiagnosticScope`. -/
def serializeScope (scope : DiagnosticScope) : Json :=
  .object (.ofList [
    ("scene_id", serializeOption serializeRunLocalId scope.sceneId),
    ("actor_id", serializeOption serializeRunLocalId scope.actorId),
    ("cue_id", serializeOption serializeRunLocalId scope.cueId),
    ("effect_id", serializeOption serializeRunLocalId scope.effectId),
    ("act_id", serializeOption serializeRunLocalId scope.actId),
    ("tool_call_id", serializeOption serializeRunLocalId scope.toolCallId),
    ("session_generation", serializeOption serializeU64 scope.sessionGeneration)])

theorem serializeScope_injective : Function.Injective serializeScope := by
  intro a b h
  have hid := serializeOption_injective serializeRunLocalId_injective
    (fun _ => by simp [serializeRunLocalId])
  have hgeneration := serializeOption_injective serializeU64_injective
    (fun _ => by simp [serializeU64])
  have hfields := JsonFields.ofList_injective (Json.object.inj h)
  simp only [List.cons.injEq, Prod.mk.injEq, true_and, and_true] at hfields
  obtain ⟨hscene, hactor, hcue, heffect, hact, htool, hsession⟩ := hfields
  cases a
  cases b
  simp only [DiagnosticScope.mk.injEq]
  exact ⟨hid hscene, hid hactor, hid hcue, hid heffect, hid hact, hid htool, hgeneration hsession⟩

/-- `Serialize for DiagnosticDimension`: tagged with its type. -/
def serializeDimension : DiagnosticDimension → Json
  | .boolean value => .object (.ofList [("type", .string "boolean"), ("value", .bool value)])
  | .integer value => .object (.ofList [("type", .string "integer"), ("value", .string value.value)])
  | .decimal value => .object (.ofList [("type", .string "decimal"), ("value", .string value.value)])
  | .string value => .object (.ofList [("type", .string "string"), ("value", .string value)])

theorem serializeDimension_injective : Function.Injective serializeDimension := by
  intro a b h
  have htype : ∀ {s t : String} {v w : Json},
      Json.object (.ofList [("type", .string s), ("value", v)]) =
        .object (.ofList [("type", .string t), ("value", w)]) → s = t ∧ v = w := by
    intro s t v w h
    simpa using JsonFields.ofList_injective (Json.object.inj h)
  cases a <;> cases b <;> obtain ⟨htag, hvalue⟩ := htype h <;>
    first | exact absurd htag (by decide) | skip
  case boolean.boolean => rw [Json.bool.inj hvalue]
  case integer.integer a b =>
    obtain ⟨a, ha⟩ := a
    obtain ⟨b, hb⟩ := b
    cases Json.string.inj hvalue
    rfl
  case decimal.decimal a b =>
    obtain ⟨a, ha⟩ := a
    obtain ⟨b, hb⟩ := b
    cases Json.string.inj hvalue
    rfl
  case string.string => rw [Json.string.inj hvalue]

/-- `Serialize for DiagnosticDimensions`: the keys in order. -/
def serializeDimensions (dimensions : DiagnosticDimensions) : Json :=
  .object (.ofList (dimensions.toList.map fun (key, value) => (key, serializeDimension value)))

theorem serializeDimensions_injective : Function.Injective serializeDimensions := by
  intro a b h
  have hlist := JsonFields.ofList_injective (Json.object.inj h)
  have hentry : Function.Injective
      (fun entry : String × DiagnosticDimension => (entry.1, serializeDimension entry.2)) := by
    rintro ⟨key, value⟩ ⟨key', value'⟩ hpair
    obtain ⟨hkey, hvalue⟩ := Prod.mk.inj hpair
    exact Prod.ext hkey (serializeDimension_injective hvalue)
  exact Std.ExtTreeMap.toList_inj.mp (List.map_injective_iff.mpr hentry hlist)

end Troupe.Core
