import Troupe.Agent.Schema.Findings
import Troupe.Lib.Related

/-! # What a contract means

`Conforms` says which JSON values a contract admits and `Carries` which validated value holds the
data of a JSON value, both by recursion on the contract and without a validator.

* A custom node asks for a JSON kind. What else it asks for is the parameter `hasKind`: the schema's
  own words are `HasKind`, and the validator wants `Carriable`, that is, numbers that a validated
  value can hold as well.
* A contract the compiler made is `WellFormed`: the bounds of a float are finite, no object declares
  a name twice, and validator ids are in range.

`issuesOf_eq_nil` says that there is no issue exactly when the value conforms, and
`exists_carries` that the data is then complete. -/

namespace Troupe.Agent

open Troupe.Lib

/-! ## The meaning -/

/-- A value of the JSON kind a custom node asks for. -/
def HasKind : JsonKind → Json → Prop
  | .string, value => ∃ text, value = .string text
  | .int64, value => ∃ number, jsonAsI64 value = some number
  | .float64, value => ∃ number, jsonAsF64 value = some number
  | .bool, value => ∃ flag, value = .bool flag
  | .array, value => ∃ items, value = .array items
  | .object, value => ∃ fields, value = .object fields

mutual

/-- Every number in a value is an integer or fits a finite float. -/
def Representable : Json → Prop
  | .number number => number.isInteger = true ∨ ∃ value, number.asF64 = some value
  | .array items => ItemsRepresentable items
  | .object fields => FieldsRepresentable fields
  | _ => True

def ItemsRepresentable : JsonItems → Prop
  | .nil => True
  | .cons value rest => Representable value ∧ ItemsRepresentable rest

def FieldsRepresentable : JsonFields → Prop
  | .nil => True
  | .cons _ value rest => Representable value ∧ FieldsRepresentable rest

end

/-- A value of the JSON kind a custom node asks for, whose numbers can be held. -/
def Carriable (kind : JsonKind) (value : Json) : Prop := HasKind kind value ∧ Representable value

section Conforms

variable (hasKind : JsonKind → Json → Prop)

mutual

/-- The values a contract admits. -/
def Conforms : ValueContract → Json → Prop
  | .string _ minLength maxLength choices, value => ∃ text, value = .string text ∧
    (∀ minimum ∈ minLength, minimum ≤ text.length) ∧ text.length ≤ maxLength ∧
      ∀ allowed ∈ choices, text ∈ allowed
  | .int64 _ min max choices, value => ∃ number, jsonAsI64 value = some number ∧
    (∀ minimum ∈ min, minimum ≤ number) ∧ (∀ maximum ∈ max, number ≤ maximum) ∧
      ∀ allowed ∈ choices, number ∈ allowed
  | .float64 _ min max choices, value => ∃ number, jsonAsF64 value = some number ∧
    (∀ minimum ∈ min, minimum ≤ number) ∧ (∀ maximum ∈ max, number ≤ maximum) ∧
      ∀ allowed ∈ choices, ∃ choice ∈ allowed, (number == choice) = true
  | .bool _ choices, value => ∃ flag, value = .bool flag ∧ ∀ allowed ∈ choices, flag ∈ allowed
  | .list _ item minItems maxItems, value => ∃ items, value = .array items ∧
    (∀ minimum ∈ minItems, minimum ≤ items.toList.length) ∧ items.toList.length ≤ maxItems ∧
      ∀ part ∈ items.toList, Conforms item part
  | .object _ contract, value => ∃ fields, value = .object fields ∧
    (∀ name ∈ fields.toList.map Prod.fst, name ∈ contract.names) ∧
      FieldsConform contract fields.toList
  | .nullable inner, value => value = .null ∨ Conforms inner value
  | .custom _ kind _ _, value => hasKind kind value

/-- Every declared field conforms if it is there, and is there if it is required. -/
def FieldsConform : ObjectContract → List (String × Json) → Prop
  | .nil, _ => True
  | .cons name required contract rest, entries =>
    (∀ value ∈ lookup name entries, Conforms contract value) ∧
      (required = true → name ∈ entries.map Prod.fst) ∧ FieldsConform rest entries

end

end Conforms

mutual

/-- A validated value holds the data of a JSON value as it is. -/
def SameData : Json → ValidatedActValue → Prop
  | .null, validated => validated = .null
  | .bool value, validated => validated = .bool value
  | .number number, validated =>
    (∃ value, number.asI64 = some value ∧ validated = .int64 value) ∨
      (number.asI64 = none ∧ ∃ value, number.asU64 = some value ∧ validated = .uint64 value) ∨
        (number.asI64 = none ∧ number.asU64 = none ∧ number.isInteger = true ∧
          validated = .bigInt (String.ofList number.text)) ∨
          (number.isInteger = false ∧
            ∃ value, number.asF64 = some value ∧ validated = .float64 value)
  | .string value, validated => validated = .string value
  | .array items, validated => ∃ values, validated = .list values ∧ SameItems items values
  | .object fields, validated => ∃ values, validated = .object values ∧ SameFields fields values

def SameItems : JsonItems → List ValidatedActValue → Prop
  | .nil, values => values = []
  | .cons value rest, values =>
    ∃ first others, values = first :: others ∧ SameData value first ∧ SameItems rest others

def SameFields : JsonFields → List (String × ValidatedActValue) → Prop
  | .nil, values => values = []
  | .cons name value rest, values =>
    ∃ first others, values = (name, first) :: others ∧ SameData value first ∧
      SameFields rest others

end

/-- The data of a custom node; a float64 node holds an integer as a float. -/
def CarriesKind (kind : JsonKind) (value : Json) (validated : ValidatedActValue) : Prop :=
  match kind with
  | .float64 => ∃ number, jsonAsF64 value = some number ∧ validated = .float64 number
  | _ => SameData value validated

mutual

/-- A validated value holds exactly the data of a JSON value that conforms to the contract. -/
def Carries : ValueContract → Json → ValidatedActValue → Prop
  | .string .., value, validated => ∃ text, value = .string text ∧ validated = .string text
  | .int64 .., value, validated =>
    ∃ number, jsonAsI64 value = some number ∧ validated = .int64 number
  | .float64 .., value, validated =>
    ∃ number, jsonAsF64 value = some number ∧ validated = .float64 number
  | .bool .., value, validated => ∃ flag, value = .bool flag ∧ validated = .bool flag
  | .list _ item _ _, value, validated => ∃ items values, value = .array items ∧
    validated = .list values ∧ List.Forall₂ (Carries item) items.toList values
  | .object _ contract, value, validated => ∃ fields values, value = .object fields ∧
    validated = .object values ∧ (values.map Prod.fst).Nodup ∧
      CarriesFields contract fields.toList values
  | .nullable inner, value, validated =>
    value = .null ∧ validated = .null ∨ value ≠ .null ∧ Carries inner value validated
  | .custom _ kind _ _, value, validated => CarriesKind kind value validated

/-- The declared fields that are there, in declaration order. -/
def CarriesFields : ObjectContract → List (String × Json) →
    List (String × ValidatedActValue) → Prop
  | .nil, _, values => values = []
  | .cons name _ contract rest, entries, values =>
    match lookup name entries with
    | some value => ∃ first others, values = (name, first) :: others ∧
      Carries contract value first ∧ CarriesFields rest entries others
    | none => CarriesFields rest entries values

end

mutual

/-- What the compiler keeps to, for a schema with so many custom validators. -/
def WellFormed (validators : Nat) : ValueContract → Prop
  | .float64 _ min max _ =>
    (∀ minimum ∈ min, minimum.isFinite = true) ∧ ∀ maximum ∈ max, maximum.isFinite = true
  | .list _ item _ _ => WellFormed validators item
  | .object _ contract => contract.names.Nodup ∧ FieldsWellFormed validators contract
  | .nullable inner => WellFormed validators inner
  | .custom _ _ _ validatorId => validatorId < validators
  | .string .. => True
  | .int64 .. => True
  | .bool .. => True

def FieldsWellFormed (validators : Nat) : ObjectContract → Prop
  | .nil => True
  | .cons _ _ contract rest => WellFormed validators contract ∧ FieldsWellFormed validators rest

end

/-! ## Scalars -/

theorem outcomeIssues_eq_nil {tokens : List String} {outcome : Except Finding ValidatedActValue} :
    outcomeIssues tokens outcome = [] ↔ ∃ validated, outcome = .ok validated := by
  cases outcome with
  | ok validated => exact ⟨fun _ => ⟨validated, rfl⟩, fun _ => rfl⟩
  | error finding => exact ⟨nofun, nofun⟩

/-- The two checks of a scalar, in the order they are made. -/
theorem checked_ok {p q : Prop} [Decidable p] [Decidable q] {first second : Finding}
    {value validated : ValidatedActValue} :
    (if p then Except.error first else if q then .error second else .ok value) = .ok validated ↔
      ¬ p ∧ ¬ q ∧ validated = value := by
  by_cases hp : p
  · simp [hp]
  by_cases hq : q
  · simp [hp, hq]
  · simp [hp, hq, eq_comm]

theorem checkedOnce_ok {p : Prop} [Decidable p] {finding : Finding}
    {value validated : ValidatedActValue} :
    (if p then Except.error finding else .ok value) = .ok validated ↔ ¬ p ∧ validated = value := by
  by_cases hp : p
  · simp [hp]
  · simp [hp, eq_comm]

theorem not_below {α : Type} [LT α] [DecidableLT α] {bound : Option α} {x : α} :
    ¬ bound.any (x < ·) = true ↔ ∀ minimum ∈ bound, ¬ x < minimum := by
  cases bound <;> simp

theorem not_above {α : Type} [LT α] [DecidableLT α] {bound : Option α} {x : α} :
    ¬ bound.any (x > ·) = true ↔ ∀ maximum ∈ bound, ¬ maximum < x := by
  cases bound <;> simp

theorem not_outside {α : Type} [BEq α] {choices : Option (List α)} {x : α} :
    ¬ (choices.any fun allowed => !allowed.contains x) = true ↔
      ∀ allowed ∈ choices, allowed.contains x = true := by
  cases choices <;> simp

theorem validateString_ok {minLength : Option Nat} {maxLength : Nat}
    {choices : Option (List String)} {value : Json} {validated : ValidatedActValue} :
    validateString minLength maxLength choices value = .ok validated ↔
      ∃ text, value = .string text ∧ validated = .string text ∧
        (∀ minimum ∈ minLength, minimum ≤ text.length) ∧ text.length ≤ maxLength ∧
          ∀ allowed ∈ choices, text ∈ allowed := by
  cases value with
  | string text =>
    simp only [validateString, checked_ok, not_or, not_below, not_outside, not_lt,
      Json.string.injEq, exists_eq_left', List.contains_iff_mem]
    tauto
  | null | bool | number | array | object => simp [validateString]

theorem validateInt64_ok {min max : Option Int} {choices : Option (List Int)} {value : Json}
    {validated : ValidatedActValue} :
    validateInt64 min max choices value = .ok validated ↔
      ∃ number, jsonAsI64 value = some number ∧ validated = .int64 number ∧
        (∀ minimum ∈ min, minimum ≤ number) ∧ (∀ maximum ∈ max, number ≤ maximum) ∧
          ∀ allowed ∈ choices, number ∈ allowed := by
  unfold validateInt64
  cases jsonAsI64 value with
  | none => simp
  | some number =>
    simp only [checked_ok, not_or, not_below, not_above, not_outside, not_lt, Option.some.injEq,
      exists_eq_left', List.contains_iff_mem]
    tauto

theorem validateFloat64_ok [FloatText] {min max : Option Float64}
    {choices : Option (List Float64)} {value : Json} {validated : ValidatedActValue}
    (hmin : ∀ minimum ∈ min, minimum.isFinite = true)
    (hmax : ∀ maximum ∈ max, maximum.isFinite = true) :
    validateFloat64 min max choices value = .ok validated ↔
      ∃ number, jsonAsF64 value = some number ∧ validated = .float64 number ∧
        (∀ minimum ∈ min, minimum ≤ number) ∧ (∀ maximum ∈ max, number ≤ maximum) ∧
          ∀ allowed ∈ choices, ∃ choice ∈ allowed, (number == choice) = true := by
  unfold validateFloat64
  cases hnumber : jsonAsF64 value with
  | none => simp
  | some number =>
    have hfinite : number.isFinite = true := by
      cases value with
      | number text => exact (Option.filter_eq_some_iff.mp hnumber).2
      | null | bool | string | array | object => cases hnumber
    have hbelow : (∀ minimum ∈ min, ¬ number < minimum) ↔ ∀ minimum ∈ min, minimum ≤ number :=
      forall₂_congr fun minimum hminimum => Float64.not_lt_iff hfinite (hmin minimum hminimum)
    have habove : (∀ maximum ∈ max, ¬ maximum < number) ↔ ∀ maximum ∈ max, number ≤ maximum :=
      forall₂_congr fun maximum hmaximum => Float64.not_lt_iff (hmax maximum hmaximum) hfinite
    simp only [checked_ok, not_or, not_below, not_above, not_outside, hbelow, habove,
      Option.some.injEq, exists_eq_left', List.contains_iff_exists_mem_beq]
    tauto

theorem validateBool_ok {choices : Option (List Bool)} {value : Json}
    {validated : ValidatedActValue} :
    validateBool choices value = .ok validated ↔
      ∃ flag, value = .bool flag ∧ validated = .bool flag ∧
        ∀ allowed ∈ choices, flag ∈ allowed := by
  cases value with
  | bool flag =>
    simp only [validateBool, checkedOnce_ok, not_outside, Json.bool.injEq, exists_eq_left',
      List.contains_iff_mem]
    tauto
  | null | string | number | array | object => simp [validateBool]

/-! ## Custom nodes -/

mutual

theorem validatedJsonValue_same : ∀ (value : Json) {validated : ValidatedActValue},
    validatedJsonValue value = some validated → SameData value validated ∧ Representable value
  | .null, _, h => ⟨(Option.some.inj h).symm, trivial⟩
  | .bool _, _, h => ⟨(Option.some.inj h).symm, trivial⟩
  | .string _, _, h => ⟨(Option.some.inj h).symm, trivial⟩
  | .number number, validated, h => by
    unfold validatedJsonValue at h
    unfold SameData Representable
    cases hi64 : number.asI64 with
    | some value =>
      rw [hi64] at h
      exact ⟨Or.inl ⟨value, rfl, (Option.some.inj h).symm⟩,
        Or.inl (JsonNumber.isInteger_of_asI64 hi64)⟩
    | none =>
      rw [hi64] at h
      cases hu64 : number.asU64 with
      | some value =>
        rw [hu64] at h
        exact ⟨Or.inr (Or.inl ⟨rfl, value, rfl, (Option.some.inj h).symm⟩),
          Or.inl (JsonNumber.isInteger_of_asU64 hu64)⟩
      | none =>
        rw [hu64] at h
        cases hinteger : number.isInteger with
        | true =>
          rw [hinteger] at h
          exact ⟨Or.inr (Or.inr (Or.inl ⟨rfl, rfl, rfl, (Option.some.inj h).symm⟩)), Or.inl rfl⟩
        | false =>
          rw [hinteger] at h
          cases hf64 : number.asF64 with
          | none =>
            rw [hf64] at h
            cases h
          | some value =>
            rw [hf64] at h
            exact ⟨Or.inr (Or.inr (Or.inr ⟨rfl, value, rfl, (Option.some.inj h).symm⟩)),
              Or.inr ⟨value, rfl⟩⟩
  | .array items, _, h => by
    obtain ⟨values, hvalues, rfl⟩ := Option.map_eq_some_iff.mp h
    obtain ⟨hsame, hfit⟩ := validatedJsonItems_same items hvalues
    exact ⟨⟨values, rfl, hsame⟩, hfit⟩
  | .object fields, _, h => by
    obtain ⟨values, hvalues, rfl⟩ := Option.map_eq_some_iff.mp h
    obtain ⟨hsame, hfit⟩ := validatedJsonFields_same fields hvalues
    exact ⟨⟨values, rfl, hsame⟩, hfit⟩

theorem validatedJsonItems_same : ∀ (items : JsonItems) {values : List ValidatedActValue},
    validatedJsonItems items = some values → SameItems items values ∧ ItemsRepresentable items
  | .nil, _, h => ⟨(Option.some.inj h).symm, trivial⟩
  | .cons value rest, _, h => by
    obtain ⟨first, hfirst, h⟩ := Option.bind_eq_some_iff.mp h
    obtain ⟨others, hothers, h⟩ := Option.bind_eq_some_iff.mp h
    obtain ⟨hsame, hfit⟩ := validatedJsonValue_same value hfirst
    obtain ⟨hrest, hfitRest⟩ := validatedJsonItems_same rest hothers
    exact ⟨⟨first, others, (Option.some.inj h).symm, hsame, hrest⟩, hfit, hfitRest⟩

theorem validatedJsonFields_same : ∀ (fields : JsonFields)
    {values : List (String × ValidatedActValue)},
    validatedJsonFields fields = some values → SameFields fields values ∧ FieldsRepresentable fields
  | .nil, _, h => ⟨(Option.some.inj h).symm, trivial⟩
  | .cons name value rest, _, h => by
    obtain ⟨first, hfirst, h⟩ := Option.bind_eq_some_iff.mp h
    obtain ⟨others, hothers, h⟩ := Option.bind_eq_some_iff.mp h
    obtain ⟨hsame, hfit⟩ := validatedJsonValue_same value hfirst
    obtain ⟨hrest, hfitRest⟩ := validatedJsonFields_same rest hothers
    exact ⟨⟨first, others, (Option.some.inj h).symm, hsame, hrest⟩, hfit, hfitRest⟩

end

mutual

theorem exists_validatedJsonValue : ∀ value : Json, Representable value →
    ∃ validated, validatedJsonValue value = some validated
  | .null, _ => ⟨_, rfl⟩
  | .bool _, _ => ⟨_, rfl⟩
  | .string _, _ => ⟨_, rfl⟩
  | .number number, h => by
    unfold validatedJsonValue
    cases number.asI64 with
    | some value => exact ⟨_, rfl⟩
    | none =>
      cases number.asU64 with
      | some value => exact ⟨_, rfl⟩
      | none =>
        rcases h with h | ⟨value, hvalue⟩
        · rw [h]
          exact ⟨_, rfl⟩
        · rw [hvalue]
          cases number.isInteger <;> exact ⟨_, rfl⟩
  | .array items, h => by
    obtain ⟨values, hvalues⟩ := exists_validatedJsonItems items h
    exact ⟨.list values, by rw [validatedJsonValue, hvalues]; rfl⟩
  | .object fields, h => by
    obtain ⟨values, hvalues⟩ := exists_validatedJsonFields fields h
    exact ⟨.object values, by rw [validatedJsonValue, hvalues]; rfl⟩

theorem exists_validatedJsonItems : ∀ items : JsonItems, ItemsRepresentable items →
    ∃ values, validatedJsonItems items = some values
  | .nil, _ => ⟨_, rfl⟩
  | .cons value rest, h => by
    obtain ⟨first, hfirst⟩ := exists_validatedJsonValue value h.1
    obtain ⟨others, hothers⟩ := exists_validatedJsonItems rest h.2
    exact ⟨first :: others, by rw [validatedJsonItems, hfirst, hothers]; rfl⟩

theorem exists_validatedJsonFields : ∀ fields : JsonFields, FieldsRepresentable fields →
    ∃ values, validatedJsonFields fields = some values
  | .nil, _ => ⟨_, rfl⟩
  | .cons name value rest, h => by
    obtain ⟨first, hfirst⟩ := exists_validatedJsonValue value h.1
    obtain ⟨others, hothers⟩ := exists_validatedJsonFields rest h.2
    exact ⟨(name, first) :: others, by rw [validatedJsonFields, hfirst, hothers]; rfl⟩

end

/-- A custom node yields a value exactly when it has the kind and its numbers can be held. -/
theorem validateCustomKind_isSome {kind : JsonKind} {value : Json} :
    (∃ validated, validateCustomKind kind value = some validated) ↔ Carriable kind value := by
  cases kind with
  | string =>
    cases value <;> simp [validateCustomKind, Carriable, HasKind, Representable]
  | bool =>
    cases value <;> simp [validateCustomKind, Carriable, HasKind, Representable]
  | int64 =>
    cases value with
    | number number =>
      simp only [validateCustomKind, Carriable, HasKind, Representable, jsonAsI64,
        Option.map_eq_some_iff]
      constructor
      · rintro ⟨_, value, hvalue, rfl⟩
        exact ⟨⟨value, hvalue⟩, Or.inl (JsonNumber.isInteger_of_asI64 hvalue)⟩
      · rintro ⟨⟨value, hvalue⟩, -⟩
        exact ⟨_, value, hvalue, rfl⟩
    | null | bool | string | array | object =>
      simp [validateCustomKind, Carriable, HasKind, jsonAsI64]
  | float64 =>
    cases value with
    | number number =>
      simp only [validateCustomKind, Carriable, HasKind, Representable, jsonAsF64,
        JsonNumber.asF64, Option.filter_filter, Bool.and_self, Option.map_eq_some_iff]
      constructor
      · rintro ⟨_, value, hvalue, rfl⟩
        exact ⟨⟨value, hvalue⟩, Or.inr ⟨value, hvalue⟩⟩
      · rintro ⟨⟨value, hvalue⟩, -⟩
        exact ⟨_, value, hvalue, rfl⟩
    | null | bool | string | array | object =>
      simp [validateCustomKind, Carriable, HasKind, jsonAsF64]
  | array =>
    cases value with
    | array items =>
      refine ⟨fun ⟨_, h⟩ => ⟨⟨items, rfl⟩, (validatedJsonValue_same _ h).2⟩, fun h => ?_⟩
      exact exists_validatedJsonValue (.array items) h.2
    | null | bool | string | number | object => simp [validateCustomKind, Carriable, HasKind]
  | object =>
    cases value with
    | object fields =>
      refine ⟨fun ⟨_, h⟩ => ⟨⟨fields, rfl⟩, (validatedJsonValue_same _ h).2⟩, fun h => ?_⟩
      exact exists_validatedJsonValue (.object fields) h.2
    | null | bool | string | number | array => simp [validateCustomKind, Carriable, HasKind]

/-- The value a custom node yields is the node's. -/
theorem validateCustomKind_carries {kind : JsonKind} {value : Json}
    {validated : ValidatedActValue} (h : validateCustomKind kind value = some validated) :
    CarriesKind kind value validated := by
  cases kind with
  | string | bool =>
    cases value <;> simp_all [validateCustomKind, CarriesKind, SameData, eq_comm]
  | int64 =>
    cases value with
    | number number =>
      obtain ⟨value, hvalue, rfl⟩ := Option.map_eq_some_iff.mp h
      exact Or.inl ⟨value, hvalue, rfl⟩
    | null | bool | string | array | object => cases h
  | float64 =>
    cases value with
    | number number =>
      obtain ⟨value, hvalue, rfl⟩ := Option.map_eq_some_iff.mp h
      refine ⟨value, ?_, rfl⟩
      rw [jsonAsF64, hvalue, Option.filter_some, (Option.filter_eq_some_iff.mp hvalue).2]
      rfl
    | null | bool | string | array | object => cases h
  | array =>
    cases value with
    | array items => exact (validatedJsonValue_same _ h).1
    | null | bool | string | number | object => cases h
  | object =>
    cases value with
    | object fields => exact (validatedJsonValue_same _ h).1
    | null | bool | string | number | array => cases h

theorem validateCustom_ok {kind : JsonKind} {value : Json} {validated : ValidatedActValue} :
    validateCustom kind value = .ok validated ↔ validateCustomKind kind value = some validated := by
  unfold validateCustom
  cases validateCustomKind kind value <;> simp

/-! ## No issue exactly when the value conforms -/

theorem eachItem_eq_nil {α : Type} {find : Json → List String → List α} {tokens : List String}
    {index : Nat} {values : List Json} {p : Json → Prop}
    (h : ∀ value tokens, find value tokens = [] ↔ p value) :
    eachItem find tokens index values = [] ↔ ∀ value ∈ values, p value := by
  induction values generalizing index with
  | nil => simp [eachItem]
  | cons value values ih => rw [eachItem, List.append_eq_nil_iff, h, ih, List.forall_mem_cons]

theorem itemLimit_eq_none {minItems : Option Nat} {maxItems length : Nat} :
    itemLimit minItems maxItems length = none ↔
      (∀ minimum ∈ minItems, minimum ≤ length) ∧ length ≤ maxItems := by
  unfold itemLimit
  split
  next h =>
    simp only [reduceCtorEq, false_iff, not_and]
    intro hmin hmax
    rcases h with h | h
    · exact not_below.mpr (fun minimum hm => not_lt.mpr (hmin minimum hm)) h
    · omega
  next h =>
    simp only [not_or, not_below, not_lt] at h
    exact ⟨fun _ => ⟨h.1, by omega⟩, fun _ => rfl⟩

theorem extraNames_eq_nil {contract : ObjectContract} {entries : List (String × Json)} :
    extraNames contract entries = [] ↔
      ∀ name ∈ entries.map Prod.fst, name ∈ contract.names := by
  unfold extraNames
  rw [← List.length_eq_zero_iff, List.length_mergeSort, List.length_eq_zero_iff,
    List.filter_eq_nil_iff]
  simp

theorem fieldIssue_eq_nil (tokens : List String) (name : String) (required : Bool)
    (entries : List (String × Json)) {issues : Json → List ValidationIssue} {p : Json → Prop}
    (h : ∀ value, issues value = [] ↔ p value) :
    (match lookup name entries with
      | some value => issues value
      | none => if required then [issueAt (tokens ++ [name]) missingField] else []) = [] ↔
      (∀ value ∈ lookup name entries, p value) ∧
        (required = true → name ∈ entries.map Prod.fst) := by
  cases hlookup : lookup name entries with
  | some value =>
    have hmem : name ∈ entries.map Prod.fst := by
      by_contra hnot
      rw [lookup_eq_none.mpr hnot] at hlookup
      cases hlookup
    simp only [h, Option.mem_def, Option.some.injEq, forall_eq', hmem, implies_true, and_true]
  | none =>
    have hnot := lookup_eq_none.mp hlookup
    cases required <;> simp [hnot]

mutual

/-- **There is no issue exactly when the value conforms.** -/
theorem issuesOf_eq_nil [FloatText] {validators : Nat} : ∀ (contract : ValueContract),
    WellFormed validators contract → ∀ (value : Json) (tokens : List String),
      issuesOf contract value tokens = [] ↔ Conforms Carriable contract value
  | .string .., _, value, tokens => by
    rw [issuesOf, outcomeIssues_eq_nil, Conforms]
    simp only [validateString_ok]
    exact ⟨fun ⟨_, text, hvalue, _, h⟩ => ⟨text, hvalue, h⟩,
      fun ⟨text, hvalue, h⟩ => ⟨_, text, hvalue, rfl, h⟩⟩
  | .int64 .., _, value, tokens => by
    rw [issuesOf, outcomeIssues_eq_nil, Conforms]
    simp only [validateInt64_ok]
    exact ⟨fun ⟨_, number, hvalue, _, h⟩ => ⟨number, hvalue, h⟩,
      fun ⟨number, hvalue, h⟩ => ⟨_, number, hvalue, rfl, h⟩⟩
  | .float64 .., hwf, value, tokens => by
    rw [issuesOf, outcomeIssues_eq_nil, Conforms]
    simp only [validateFloat64_ok hwf.1 hwf.2]
    exact ⟨fun ⟨_, number, hvalue, _, h⟩ => ⟨number, hvalue, h⟩,
      fun ⟨number, hvalue, h⟩ => ⟨_, number, hvalue, rfl, h⟩⟩
  | .bool .., _, value, tokens => by
    rw [issuesOf, outcomeIssues_eq_nil, Conforms]
    simp only [validateBool_ok]
    exact ⟨fun ⟨_, flag, hvalue, _, h⟩ => ⟨flag, hvalue, h⟩,
      fun ⟨flag, hvalue, h⟩ => ⟨_, flag, hvalue, rfl, h⟩⟩
  | .list _ item minItems maxItems, hwf, value, tokens => by
    rw [Conforms]
    cases value with
    | array items =>
      rw [issuesOf, List.append_eq_nil_iff, eachItem_eq_nil (issuesOf_eq_nil item hwf),
        Option.toList_eq_nil_iff, Option.map_eq_none_iff, itemLimit_eq_none]
      simp only [Json.array.injEq, exists_eq_left', and_assoc]
    | null | bool | number | string | object => simp [issuesOf]
  | .object _ contract, hwf, value, tokens => by
    rw [Conforms, issuesOf]
    cases value with
    | object fields =>
      rw [objectIssues, List.append_eq_nil_iff, fieldIssuesOf_eq_nil _ hwf.2, List.map_eq_nil_iff,
        extraNames_eq_nil]
      simp only [Json.object.injEq, exists_eq_left']
      exact and_comm
    | null | bool | number | string | array => simp [objectIssues]
  | .nullable inner, hwf, value, tokens => by
    rw [Conforms]
    cases value with
    | null => simp [issuesOf]
    | bool | number | string | array | object =>
      simpa [issuesOf] using issuesOf_eq_nil inner hwf _ tokens
  | .custom .., _, value, tokens => by
    rw [issuesOf, outcomeIssues_eq_nil, Conforms]
    simp only [validateCustom_ok]
    exact validateCustomKind_isSome

theorem fieldIssuesOf_eq_nil [FloatText] {validators : Nat} : ∀ (contract : ObjectContract),
    FieldsWellFormed validators contract → ∀ (entries : List (String × Json))
      (tokens : List String),
      fieldIssuesOf contract entries tokens = [] ↔ FieldsConform Carriable contract entries
  | .nil, _, _, _ => by simp [fieldIssuesOf, FieldsConform]
  | .cons name required contract rest, hwf, entries, tokens => by
    have hfield := fieldIssue_eq_nil tokens name required entries fun value =>
      issuesOf_eq_nil contract hwf.1 value (tokens ++ [name])
    rw [fieldIssuesOf, List.append_eq_nil_iff, fieldIssuesOf_eq_nil _ hwf.2, FieldsConform,
      ← and_assoc]
    exact and_congr hfield Iff.rfl

end

/-! ## Without an issue the value is complete -/

theorem outcome_carries {outcome : Except Finding ValidatedActValue} {tokens : List String}
    {p : ValidatedActValue → Prop} (hissues : outcomeIssues tokens outcome = [])
    (h : ∀ validated, outcome = .ok validated → p validated) :
    ∃ validated, outcomeValue outcome = some validated ∧ p validated := by
  obtain ⟨validated, rfl⟩ := outcomeIssues_eq_nil.mp hissues
  exact ⟨validated, rfl, h validated rfl⟩

theorem fieldDataOf_names [FloatText] : ∀ (contract : ObjectContract)
    (entries : List (String × Json)),
    ((fieldDataOf contract entries).map Prod.fst).Sublist contract.names
  | .nil, _ => List.Sublist.refl _
  | .cons name _ contract rest, entries => by
    rw [fieldDataOf, ObjectContract.names]
    cases (lookup name entries).bind (dataOf contract) with
    | none => exact (fieldDataOf_names rest entries).cons name
    | some value => exact (fieldDataOf_names rest entries).cons_cons name

mutual

/-- **Without an issue the validated value is there and holds exactly the data.** -/
theorem exists_carries [FloatText] {validators : Nat} : ∀ (contract : ValueContract),
    WellFormed validators contract → ∀ {value : Json} {tokens : List String},
      issuesOf contract value tokens = [] →
        ∃ validated, dataOf contract value = some validated ∧ Carries contract value validated
  | .string .., _, value, tokens, h => by
    rw [issuesOf] at h
    refine outcome_carries h fun validated hok => ?_
    obtain ⟨text, hvalue, hvalidated, -⟩ := validateString_ok.mp hok
    exact ⟨text, hvalue, hvalidated⟩
  | .int64 .., _, value, tokens, h => by
    rw [issuesOf] at h
    refine outcome_carries h fun validated hok => ?_
    obtain ⟨number, hvalue, hvalidated, -⟩ := validateInt64_ok.mp hok
    exact ⟨number, hvalue, hvalidated⟩
  | .float64 .., hwf, value, tokens, h => by
    rw [issuesOf] at h
    refine outcome_carries h fun validated hok => ?_
    obtain ⟨number, hvalue, hvalidated, -⟩ := (validateFloat64_ok hwf.1 hwf.2).mp hok
    exact ⟨number, hvalue, hvalidated⟩
  | .bool .., _, value, tokens, h => by
    rw [issuesOf] at h
    refine outcome_carries h fun validated hok => ?_
    obtain ⟨flag, hvalue, hvalidated, -⟩ := validateBool_ok.mp hok
    exact ⟨flag, hvalue, hvalidated⟩
  | .list _ item minItems maxItems, hwf, value, tokens, h => by
    cases value with
    | array items =>
      rw [issuesOf, List.append_eq_nil_iff, eachItem_eq_nil (issuesOf_eq_nil item hwf)] at h
      refine ⟨_, rfl, items, _, rfl, rfl, forall₂_filterMap fun part hpart => ?_⟩
      exact exists_carries item hwf
        ((issuesOf_eq_nil item hwf part []).mpr (h.2 part hpart))
    | null | bool | number | string | object => simp [issuesOf] at h
  | .object _ contract, hwf, value, tokens, h => by
    rw [issuesOf] at h
    cases value with
    | object fields =>
      rw [objectIssues, List.append_eq_nil_iff] at h
      refine ⟨_, rfl, fields, _, rfl, rfl, ?_, fieldsCarry contract hwf.2 h.1⟩
      exact (fieldDataOf_names contract fields.toList).nodup hwf.1
    | null | bool | number | string | array => simp [objectIssues] at h
  | .nullable inner, hwf, value, tokens, h => by
    cases value with
    | null => exact ⟨.null, rfl, Or.inl ⟨rfl, rfl⟩⟩
    | bool | number | string | array | object =>
      obtain ⟨validated, hdata, hcarries⟩ := exists_carries inner hwf h
      exact ⟨validated, hdata, Or.inr ⟨by simp, hcarries⟩⟩
  | .custom .., _, value, tokens, h => by
    rw [issuesOf] at h
    exact outcome_carries h fun validated hok =>
      validateCustomKind_carries (validateCustom_ok.mp hok)

theorem fieldsCarry [FloatText] {validators : Nat} : ∀ (contract : ObjectContract),
    FieldsWellFormed validators contract → ∀ {entries : List (String × Json)}
      {tokens : List String}, fieldIssuesOf contract entries tokens = [] →
        CarriesFields contract entries (fieldDataOf contract entries)
  | .nil, _, _, _, _ => rfl
  | .cons name required contract rest, hwf, entries, tokens, h => by
    rw [fieldIssuesOf, List.append_eq_nil_iff] at h
    rw [CarriesFields, fieldDataOf]
    have hrest := fieldsCarry rest hwf.2 h.2
    cases hlookup : lookup name entries with
    | none => exact hrest
    | some value =>
      rw [hlookup] at h
      obtain ⟨validated, hdata, hcarries⟩ := exists_carries contract hwf.1 h.1
      rw [Option.bind_some, hdata]
      exact ⟨validated, _, rfl, hcarries, hrest⟩

end

/-! ## Custom nodes and their jobs -/

theorem mem_eachItem {α : Type} {find : Json → List String → List α} {tokens : List String}
    {index : Nat} {values : List Json} {x : α} (h : x ∈ eachItem find tokens index values) :
    ∃ i value, values[i]? = some value ∧ x ∈ find value (tokens ++ [toString (index + i)]) := by
  induction values generalizing index with
  | nil => cases h
  | cons value values ih =>
    rw [eachItem] at h
    rcases List.mem_append.mp h with h | h
    · exact ⟨0, value, rfl, h⟩
    · obtain ⟨i, found, hfound, hx⟩ := ih h
      exact ⟨i + 1, found, hfound, by rwa [show index + (i + 1) = index + 1 + i by omega]⟩

/-- What is true of every custom node met: its validator exists, and its tokens lead to it. -/
def NodeAt (validators : Nat) (root : Json) (node : CustomNode) : Prop :=
  node.validatorId < validators ∧ Pointer.follow root node.tokens = some node.value

mutual

theorem customNodes_at {validators : Nat} {root : Json} : ∀ (contract : ValueContract),
    WellFormed validators contract → ∀ {value : Json} {tokens : List String},
      Pointer.follow root tokens = some value →
        ∀ node ∈ customNodes contract value tokens, NodeAt validators root node
  | .string .., _, _, _, _, _, h => absurd h List.not_mem_nil
  | .int64 .., _, _, _, _, _, h => absurd h List.not_mem_nil
  | .float64 .., _, _, _, _, _, h => absurd h List.not_mem_nil
  | .bool .., _, _, _, _, _, h => absurd h List.not_mem_nil
  | .list _ item _ _, hwf, value, tokens, hroot, node, h => by
    cases value with
    | array items =>
      obtain ⟨i, part, hpart, hnode⟩ := mem_eachItem h
      rw [Nat.zero_add] at hnode
      refine customNodes_at item hwf ?_ node hnode
      rw [Pointer.follow_snoc, hroot, Option.bind_some, Pointer.child,
        Pointer.arrayIndex_toString, Option.bind_some]
      exact hpart
    | null | bool | number | string | object => exact absurd h List.not_mem_nil
  | .object _ contract, hwf, value, tokens, hroot, node, h => by
    cases value with
    | object fields => exact fieldNodes_at _ hwf.2 hroot node h
    | null | bool | number | string | array => exact absurd h List.not_mem_nil
  | .nullable inner, hwf, value, tokens, hroot, node, h => by
    cases value with
    | null => exact absurd h List.not_mem_nil
    | bool | number | string | array | object =>
      exact customNodes_at inner hwf hroot node h
  | .custom _ kind _ validatorId, hwf, value, tokens, hroot, node, h => by
    obtain rfl := List.mem_singleton.mp h
    exact ⟨hwf, hroot⟩

theorem fieldNodes_at {validators : Nat} {root : Json} : ∀ (contract : ObjectContract),
    FieldsWellFormed validators contract → ∀ {fields : JsonFields} {tokens : List String},
      Pointer.follow root tokens = some (.object fields) →
        ∀ node ∈ fieldNodes contract fields.toList tokens, NodeAt validators root node
  | .nil, _, _, _, _, _, h => absurd h List.not_mem_nil
  | .cons name _ contract rest, hwf, fields, tokens, hroot, node, h => by
    rw [fieldNodes] at h
    rcases List.mem_append.mp h with h | h
    · cases hlookup : lookup name fields.toList with
      | none =>
        rw [hlookup] at h
        exact absurd h List.not_mem_nil
      | some value =>
        rw [hlookup] at h
        refine customNodes_at contract hwf.1 ?_ node h
        rw [Pointer.follow_snoc, hroot]
        exact hlookup
    · exact fieldNodes_at _ hwf.2 hroot node h

end

theorem mem_eachItem_of {α : Type} {find : Json → List String → List α} {p : Json → Prop}
    {q : α → Prop} (h : ∀ value tokens, p value → ∀ x ∈ find value tokens, q x)
    {tokens : List String} {index : Nat} {values : List Json} (hall : ∀ value ∈ values, p value) :
    ∀ x ∈ eachItem find tokens index values, q x := by
  intro x hx
  obtain ⟨i, value, hvalue, hx⟩ := mem_eachItem hx
  exact h value _ (hall value (List.mem_of_getElem? hvalue)) x hx

mutual

/-- In a value that conforms every custom node met is of its kind. -/
theorem customNodes_hasKind {hasKind : JsonKind → Json → Prop} : ∀ (contract : ValueContract)
    {value : Json} {tokens : List String}, Conforms hasKind contract value →
      ∀ node ∈ customNodes contract value tokens, hasKind node.kind node.value
  | .string .., _, _, _, _, h => absurd h List.not_mem_nil
  | .int64 .., _, _, _, _, h => absurd h List.not_mem_nil
  | .float64 .., _, _, _, _, h => absurd h List.not_mem_nil
  | .bool .., _, _, _, _, h => absurd h List.not_mem_nil
  | .list _ item _ _, value, tokens, ⟨items, hvalue, _, _, hitems⟩, node, h => by
    subst hvalue
    rw [customNodes] at h
    exact mem_eachItem_of (p := Conforms hasKind item) (fun _ _ hpart =>
      customNodes_hasKind item hpart) hitems node h
  | .object _ contract, value, tokens, ⟨fields, hvalue, _, hfields⟩, node, h => by
    subst hvalue
    exact fieldNodes_hasKind contract hfields node h
  | .nullable inner, value, tokens, hvalue, node, h => by
    cases value with
    | null => exact absurd h List.not_mem_nil
    | bool | number | string | array | object =>
      exact customNodes_hasKind inner (hvalue.resolve_left (by simp)) node h
  | .custom _ kind _ validatorId, value, tokens, hvalue, node, h => by
    obtain rfl := List.mem_singleton.mp h
    exact hvalue

theorem fieldNodes_hasKind {hasKind : JsonKind → Json → Prop} : ∀ (contract : ObjectContract)
    {entries : List (String × Json)} {tokens : List String},
      FieldsConform hasKind contract entries →
        ∀ node ∈ fieldNodes contract entries tokens, hasKind node.kind node.value
  | .nil, _, _, _, _, h => absurd h List.not_mem_nil
  | .cons name _ contract rest, entries, tokens, ⟨hvalue, _, hrest⟩, node, h => by
    rw [fieldNodes] at h
    rcases List.mem_append.mp h with h | h
    · cases hlookup : lookup name entries with
      | none =>
        rw [hlookup] at h
        exact absurd h List.not_mem_nil
      | some value =>
        rw [hlookup] at h
        exact customNodes_hasKind contract (hvalue value hlookup) node h
    · exact fieldNodes_hasKind rest hrest node h

end

/-- A job does what a custom node asks for: its validator, its pointer and its data. -/
def JobOf (node : CustomNode) (job : CustomValidationJob) : Prop :=
  job.validatorId = node.validatorId ∧ job.path = Pointer.text node.tokens ∧
    CarriesKind node.kind node.value job.value

/-- In a value that conforms there is one job for each custom node, in order. -/
theorem jobs_of_nodes {contract : ValueContract} {value : Json} (tokens : List String)
    (h : Conforms Carriable contract value) :
    List.Forall₂ JobOf (customNodes contract value tokens)
      ((customNodes contract value tokens).filterMap CustomNode.job?) := by
  refine forall₂_filterMap fun node hnode => ?_
  obtain ⟨validated, hvalidated⟩ :=
    validateCustomKind_isSome.mpr (customNodes_hasKind contract h node hnode)
  exact ⟨_, by rw [CustomNode.job?, hvalidated]; rfl, rfl, rfl,
    validateCustomKind_carries hvalidated⟩

end Troupe.Agent
