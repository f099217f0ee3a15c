import Troupe.Agent.Schema.Scalars

/-! # The two validators agree

A schema of built-in descriptors that compiles has one meaning: the compiled validator answers
`Valid` exactly when the validators of the descriptors raise nothing. Both come down to `Conforms`.
The Python side is proved along the derivation that `compileActSchema_sound` leaves, which also
bounds how deep the validators call each other. -/

namespace Troupe.Agent

open Troupe.Lib

/-! ## JSON values as Python objects -/

/-- An entry of a JSON object as an item of a dictionary. -/
def pyItem (entry : String × Json) : PyObject × PyObject := (.str (.text entry.1), jsonToPy entry.2)

theorem jsonToPyItems_eq : ∀ items : JsonItems, jsonToPyItems items = items.toList.map jsonToPy
  | .nil => rfl
  | .cons value rest => by
    rw [jsonToPyItems, jsonToPyItems_eq rest]
    rfl

theorem jsonToPyFields_eq : ∀ fields : JsonFields, jsonToPyFields fields = fields.toList.map pyItem
  | .nil => rfl
  | .cons name value rest => by
    rw [jsonToPyFields, jsonToPyFields_eq rest]
    rfl

theorem pyGetItem_map (name : String) (entries : List (String × Json)) :
    pyGetItem (.text name) (entries.map pyItem) = (lookup name entries).map jsonToPy := by
  induction entries with
  | nil => rfl
  | cons entry entries ih =>
    obtain ⟨key, value⟩ := entry
    rw [List.map_cons, pyItem, pyGetItem, ih, lookup]
    by_cases hkey : key = name
    · cases lookup name entries <;> simp [hkey]
    · cases lookup name entries <;> simp [hkey]

theorem jsonToPy_eq_none {value : Json} : jsonToPy value = .none ↔ value = .null := by
  cases value with
  | number number =>
    rw [jsonToPy]
    cases parseInt? number.text <;> simp
  | null | bool | string | array | object => simp [jsonToPy]

theorem itemsFit {items : JsonItems} (h : ItemsFit items) :
    ∀ value ∈ items.toList, SizesFit value := by
  match items with
  | .nil => exact fun _ hmem => absurd hmem List.not_mem_nil
  | .cons value rest =>
    intro found hmem
    rcases List.mem_cons.mp hmem with rfl | hmem
    · exact h.1
    · exact itemsFit h.2 found hmem

theorem fieldsFit {fields : JsonFields} (h : FieldsFit fields) :
    ∀ entry ∈ fields.toList, SizesFit entry.2 := by
  match fields with
  | .nil => exact fun _ hmem => absurd hmem List.not_mem_nil
  | .cons name value rest =>
    intro found hmem
    rcases List.mem_cons.mp hmem with rfl | hmem
    · exact h.2.1
    · exact fieldsFit h.2.2 found hmem

theorem lookup_mem_entries {name : String} {entries : List (String × Json)} {value : Json}
    (h : lookup name entries = some value) : (name, value) ∈ entries := by
  induction entries with
  | nil => cases h
  | cons entry entries ih =>
    obtain ⟨key, found⟩ := entry
    rw [lookup] at h
    rcases Option.or_eq_some_iff.mp h with h | ⟨-, h⟩
    · exact List.mem_cons_of_mem _ (ih h)
    · by_cases hkey : key = name
      · rw [if_pos hkey] at h
        cases h
        rw [hkey]
        exact List.mem_cons_self
      · rw [if_neg hkey] at h
        cases h

/-! ## The validators of compound descriptors -/

section Validators

variable {validate : Nat → PyObject → Except PyErr Unit}

theorem pyValidateChildren_ok {pairs : List (Nat × PyObject)} :
    pyValidateChildren validate pairs = .ok () ↔
      ∀ pair ∈ pairs, validate pair.1 pair.2 = .ok () := by
  induction pairs with
  | nil => simp [pyValidateChildren]
  | cons pair pairs ih =>
    obtain ⟨schema, value⟩ := pair
    rw [pyValidateChildren, bind_eq_ok, List.forall_mem_cons, ← ih]
    exact ⟨fun ⟨_, hfirst, hrest⟩ => ⟨hfirst, hrest⟩, fun ⟨hfirst, hrest⟩ => ⟨(), hfirst, hrest⟩⟩

theorem list_agrees {item : Nat} {minimum maximum : Option Nat} {description : String}
    {contract : ValueContract} {value : Json} (hfit : SizesFit value)
    (hitem : ∀ value, SizesFit value →
      (validate item (jsonToPy value) = .ok () ↔ Conforms Carriable contract value)) :
    pyValidateList validate item (minimum.map Nat.cast) (maximum.map Nat.cast)
        (jsonToPy value) = .ok () ↔
      Conforms Carriable
        (.list description contract minimum (maximum.getD resultListMaxItems)) value := by
  rw [Conforms]
  cases value with
  | array items =>
    have hlimit : ¬ items.toList.length > pyListMaxItems := not_lt.mpr hfit.1
    have hbelow : (∀ size ∈ minimum.map (Nat.cast : Nat → Int),
        ¬ (items.toList.length : Int) < size) ↔ ∀ size ∈ minimum, size ≤ items.toList.length := by
      cases minimum <;> simp
    have habove : (∀ size ∈ maximum.map (Nat.cast : Nat → Int),
        ¬ size < (items.toList.length : Int)) ↔
          items.toList.length ≤ maximum.getD resultListMaxItems := by
      cases maximum with
      | none => simpa using hfit.1
      | some size => simp
    have hparts : (∀ part ∈ items.toList, validate item (jsonToPy part) = .ok ()) ↔
        ∀ part ∈ items.toList, Conforms Carriable contract part :=
      forall₂_congr fun part hpart => hitem part (itemsFit hfit.2 part hpart)
    simp only [jsonToPy, jsonToPyItems_eq, pyValidateList, unless_rejected, not_below, not_above,
      List.length_map, hlimit, hbelow, habove, pyValidateChildren_ok, List.forall_mem_map, hparts,
      not_false_eq_true, true_and, Json.array.injEq, exists_eq_left']
  | number number =>
    rw [jsonToPy]
    cases parseInt? number.text <;> simp [pyValidateList, rejected]
  | null | bool | string | object => simp [jsonToPy, pyValidateList, rejected]

theorem nullable_agrees {inner : Nat} {contract : ValueContract} {value : Json}
    (hinner : validate inner (jsonToPy value) = .ok () ↔ Conforms Carriable contract value) :
    pyValidateNullable validate inner (jsonToPy value) = .ok () ↔
      Conforms Carriable (.nullable contract) value := by
  rw [Conforms]
  by_cases hnull : value = .null
  · simp [hnull, jsonToPy, pyValidateNullable]
  · have hnone : jsonToPy value ≠ .none := fun h => hnull (jsonToPy_eq_none.mp h)
    have hvalidate : pyValidateNullable validate inner (jsonToPy value) =
        validate inner (jsonToPy value) := by
      unfold pyValidateNullable
      split
      · next heq => exact absurd heq hnone
      · rfl
    rw [hvalidate, hinner, or_iff_right hnull]

/-- What `ObjectValue.validate` asks of one declared field. -/
def FieldHolds (validate : Nat → PyObject → Except PyErr Unit)
    (entries : List (PyObject × PyObject)) (field : PyStr × Nat × Bool) : Prop :=
  (∀ value ∈ pyGetItem field.1 entries, validate field.2.1 value = .ok ()) ∧
    (field.2.2 = true → pyGetItem field.1 entries ≠ none)

theorem pyValidateObject_ok {fields : List (PyStr × Nat × Bool)} {entries : List (String × Json)} :
    pyValidateObject validate fields (.dict (entries.map pyItem)) = .ok () ↔
      (∀ name ∈ entries.map Prod.fst, PyStr.text name ∈ fields.map Prod.fst) ∧
        ∀ field ∈ fields, FieldHolds validate (entries.map pyItem) field := by
  have hkeys : ¬ ((entries.map pyItem).any fun entry => (pyKeyName entry).isNone) = true := by
    simp [pyItem, pyKeyName]
  have hnames : (entries.map pyItem).filterMap pyKeyName =
      entries.map fun entry => PyStr.text entry.1 := by
    rw [List.filterMap_map]
    exact congrFun List.filterMap_eq_map entries
  have hextra : ¬ (((entries.map pyItem).filterMap pyKeyName).any fun name =>
      !(fields.map Prod.fst).contains name) = true ↔
        ∀ name ∈ entries.map Prod.fst, PyStr.text name ∈ fields.map Prod.fst := by
    rw [hnames, List.any_eq_true, not_exists]
    simp only [List.mem_map, Bool.not_eq_true', not_and, Bool.not_eq_false,
      List.contains_iff_mem, forall_exists_index, and_imp, forall_apply_eq_imp_iff₂]
  have hmissing : ¬ (fields.any fun field =>
      (pyGetItem field.1 (entries.map pyItem)).isNone && field.2.2) = true ↔
        ∀ field ∈ fields, field.2.2 = true → pyGetItem field.1 (entries.map pyItem) ≠ none := by
    simp only [List.any_eq_true, Bool.and_eq_true, Option.isNone_iff_eq_none, not_exists, not_and]
    exact forall₂_congr fun field _ => imp_not_comm
  have hchildren : (∀ pair ∈ fields.filterMap fun field =>
      (pyGetItem field.1 (entries.map pyItem)).map fun value => (field.2.1, value),
        validate pair.1 pair.2 = .ok ()) ↔
          ∀ field ∈ fields, ∀ value ∈ pyGetItem field.1 (entries.map pyItem),
            validate field.2.1 value = .ok () := by
    simp only [List.mem_filterMap, Option.map_eq_some_iff]
    constructor
    · intro h field hfield value hvalue
      exact h (field.2.1, value) ⟨field, hfield, value, hvalue, rfl⟩
    · rintro h pair ⟨field, hfield, value, hvalue, rfl⟩
      exact h field hfield value hvalue
  unfold pyValidateObject
  rw [unless_rejected, unless_rejected, unless_rejected, hextra, hmissing, pyValidateChildren_ok,
    hchildren]
  constructor
  · rintro ⟨-, hall, hrequired, hvalues⟩
    exact ⟨hall, fun field hfield => ⟨hvalues field hfield, hrequired field hfield⟩⟩
  · rintro ⟨hall, hholds⟩
    exact ⟨hkeys, hall, fun field hfield => (hholds field hfield).2, fun field hfield =>
      (hholds field hfield).1⟩

end Validators

/-! ## Descriptors and contracts -/

/-- The field of a descriptor that a field of the contract was read from. -/
structure FieldOf (field : PyStr × Nat × Bool) (source : FieldSource) : Prop where
  name : field.1 = .text source.name
  value : source.value = .ref field.2.1
  required : source.required = field.2.2

/-- A field as the compiler reads it. -/
def tripleOf (field : PyStr × Nat × Bool) : PyObject × PyObject × PyObject :=
  (.str field.1, .ref field.2.1, .bool field.2.2)

theorem fieldOf_readsTriple {field : PyStr × Nat × Bool} {source : FieldSource}
    (h : ReadsTriple (tripleOf field) source) : FieldOf field source := by
  obtain ⟨⟨message, hname⟩, hvalue, name, hrequired⟩ := h
  obtain ⟨fieldName, identity, required⟩ := field
  cases fieldName with
  | text text =>
    cases hname
    cases hrequired
    exact ⟨rfl, hvalue.symm, rfl⟩
  | surrogates => cases hname

theorem fieldTriples_map (fields : List (PyStr × Nat × Bool)) :
    (fields.map fieldTuple).mapM fieldTriple = .ok (fields.map tripleOf) := by
  induction fields with
  | nil => rfl
  | cons field fields ih =>
    rw [List.map_cons, List.mapM_cons, ih]
    rfl

section Fields

variable {validate : Nat → PyObject → Except PyErr Unit} {entries : List (String × Json)}

theorem fieldHolds_iff {field : PyStr × Nat × Bool} {source : FieldSource}
    (hfield : FieldOf field source) {contract : ValueContract}
    (hfit : ∀ entry ∈ entries, SizesFit entry.2)
    (hvalue : ∀ value, SizesFit value →
      (validate field.2.1 (jsonToPy value) = .ok () ↔ Conforms Carriable contract value)) :
    FieldHolds validate (entries.map pyItem) field ↔
      (∀ value ∈ lookup source.name entries, Conforms Carriable contract value) ∧
        (source.required = true → source.name ∈ entries.map Prod.fst) := by
  have hitems : (∀ value ∈ pyGetItem field.1 (entries.map pyItem),
      validate field.2.1 value = .ok ()) ↔
        ∀ value ∈ lookup source.name entries, Conforms Carriable contract value := by
    rw [hfield.name, pyGetItem_map]
    cases hlookup : lookup source.name entries with
    | none => simp
    | some value => simpa using hvalue value (hfit _ (lookup_mem_entries hlookup))
  have hpresent : pyGetItem field.1 (entries.map pyItem) ≠ none ↔
      source.name ∈ entries.map Prod.fst := by
    rw [hfield.name, pyGetItem_map, ne_eq, Option.map_eq_none_iff, lookup_eq_none, not_not]
  rw [FieldHolds, hitems, hpresent, hfield.required]

theorem object_agrees {fields : List (PyStr × Nat × Bool)} {sources : List FieldSource}
    (hsources : List.Forall₂ FieldOf fields sources) {contract : ObjectContract}
    (hnames : contract.names = sources.map FieldSource.name) {description : String} {value : Json}
    (hfields : ∀ found : JsonFields, value = .object found →
      ((∀ field ∈ fields, FieldHolds validate (found.toList.map pyItem) field) ↔
        FieldsConform Carriable contract found.toList)) :
    pyValidateObject validate fields (jsonToPy value) = .ok () ↔
      Conforms Carriable (.object description contract) value := by
  have hexpected : fields.map Prod.fst = contract.names.map PyStr.text := by
    rw [hnames, List.map_map]
    clear hnames hfields
    induction hsources with
    | nil => rfl
    | cons hfirst _ ih =>
      rw [List.map_cons, List.map_cons, ih, hfirst.name]
      rfl
  rw [Conforms]
  cases value with
  | object found =>
    rw [jsonToPy, jsonToPyFields_eq, pyValidateObject_ok, hexpected, hfields found rfl]
    simp only [List.mem_map, PyStr.text.injEq, exists_eq_right, Json.object.injEq,
      exists_eq_left']
  | number number =>
    rw [jsonToPy]
    cases parseInt? number.text <;> simp [pyValidateObject, rejected]
  | null | bool | string | array => simp [jsonToPy, pyValidateObject, rejected]

end Fields

section Agree

variable {objects : Descriptors} {metadata : Metadata}

theorem heap_list {identity : Nat} {item : PyObject}
    {minItems maxItems : Option PyObject}
    (h : objects.heap identity = .listValue metadata (some item) minItems maxItems) :
    ∃ description inner minimum maximum,
      objects identity = some (.listValue description inner minimum maximum) ∧
        item = .ref inner ∧ minItems = optionalSlot .int minimum ∧
          maxItems = optionalSlot .int maximum := by
  unfold Descriptors.heap at h
  split at h
  · next descriptor hobject =>
    cases descriptor with
    | listValue description inner minimum maximum =>
      cases h
      exact ⟨description, inner, minimum, maximum, hobject, rfl, rfl, rfl⟩
    | strValue | int64Value | float64Value | boolValue | objectValue | nullableValue | field =>
      cases h
  · cases h

theorem heap_object {identity : Nat} {fields : PyObject}
    (h : objects.heap identity = .objectValue metadata (some fields)) :
    ∃ description inner, objects identity = some (.objectValue description inner) ∧
      fields = .tuple (inner.map fieldTuple) := by
  unfold Descriptors.heap at h
  split at h
  · next descriptor hobject =>
    cases descriptor with
    | objectValue description inner =>
      cases h
      exact ⟨description, inner, hobject, rfl⟩
    | strValue | int64Value | float64Value | boolValue | listValue | nullableValue | field =>
      cases h
  · cases h

theorem heap_nullable {identity : Nat} {inner : PyObject}
    (h : objects.heap identity = .nullableValue metadata (some inner)) :
    ∃ description kind schema,
      objects identity = some (.nullableValue description kind schema) ∧ inner = .ref schema := by
  unfold Descriptors.heap at h
  split at h
  · next descriptor hobject =>
    cases descriptor with
    | nullableValue description kind schema =>
      cases h
      exact ⟨description, kind, schema, hobject, rfl⟩
    | strValue | int64Value | float64Value | boolValue | listValue | objectValue | field => cases h
  · cases h

theorem heap_not_custom {identity : Nat}
    {rendered : Except PyErr PyObject} :
    objects.heap identity ≠ .custom metadata rendered := by
  intro h
  unfold Descriptors.heap at h
  split at h
  · next descriptor _ => cases descriptor <;> cases h
  · cases h

theorem itemBounds_slots {minimum maximum : Option Int} {lower : Option Nat} {upper : Nat}
    (h : snapshotItemBounds (optionalSlot .int minimum) (optionalSlot .int maximum) =
      .ok (lower, upper)) :
    ∃ bound : Option Nat, minimum = lower.map Nat.cast ∧ maximum = bound.map Nat.cast ∧
      upper = bound.getD resultListMaxItems := by
  simp only [snapshotItemBounds, bind_eq_ok, ite_throw_eq_ok] at h
  obtain ⟨minObject, hmin, found, hfound, maxObject, hmax, bound, hbound, -, h⟩ := h
  cases h
  obtain ⟨rfl, -⟩ := optionalUsize_slot (extracts_of_bind hmin hfound)
  obtain ⟨rfl, -⟩ := optionalUsize_slot (extracts_of_bind hmax hbound)
  exact ⟨bound, rfl, rfl, rfl⟩

variable [FloatText]

mutual

/-- **A descriptor and the contract compiled from it admit the same values**, by induction on how
the contract was made. -/
theorem value_agrees : ∀ {object : PyObject} {contract : ValueContract},
    Snapshot objects.heap object contract → ∀ {identity : Nat}, object = .ref identity →
      ∀ {depth : Nat}, contractDepth contract ≤ depth → ∀ value, SizesFit value →
        (pyValidate objects depth identity (jsonToPy value) = .ok () ↔
          Conforms Carriable contract value)
  | _, _, .scalar h, identity, hobject, depth, hdepth, value, hfit => by
    cases hobject
    rw [scalarSnapshot_depth h] at hdepth
    obtain ⟨levels, rfl⟩ := Nat.exists_eq_add_of_le' hdepth
    exact scalar_agrees h hfit levels
  | _, _, .list hheap hbounds hitem, identity, hobject, depth, hdepth, value, hfit => by
    cases hobject
    obtain ⟨description, inner, minimum, maximum, hfound, rfl, rfl, rfl⟩ := heap_list hheap
    obtain ⟨bound, rfl, rfl, rfl⟩ := itemBounds_slots hbounds
    obtain ⟨levels, rfl⟩ := Nat.exists_eq_add_of_le' (Nat.le_of_add_left_le hdepth)
    rw [pyValidate, hfound]
    exact list_agrees hfit fun part hpart =>
      value_agrees hitem rfl (Nat.le_of_add_le_add_right hdepth) part hpart
  | _, _, .object hheap htriples hsources _ hfields, identity, hobject, depth, hdepth, value,
      hfit => by
    cases hobject
    obtain ⟨description, inner, hfound, rfl⟩ := heap_object hheap
    obtain ⟨levels, rfl⟩ := Nat.exists_eq_add_of_le' (Nat.le_of_add_left_le hdepth)
    cases (fieldTriples_map inner).symm.trans htriples
    rw [List.forall₂_map_left_iff] at hsources
    rw [pyValidate, hfound]
    have hread := hsources.imp fun _ _ => fieldOf_readsTriple
    refine object_agrees hread hfields.names fun found hvalue => ?_
    subst hvalue
    exact fields_agree hfields hread (Nat.le_of_add_le_add_right hdepth) found.toList
      (fieldsFit hfit)
  | _, _, .nullable hheap hinner, identity, hobject, depth, hdepth, value, hfit => by
    cases hobject
    obtain ⟨description, kind, schema, hfound, rfl⟩ := heap_nullable hheap
    obtain ⟨levels, rfl⟩ := Nat.exists_eq_add_of_le' (Nat.le_of_add_left_le hdepth)
    rw [pyValidate, hfound]
    exact nullable_agrees (value_agrees hinner rfl (Nat.le_of_add_le_add_right hdepth) value hfit)
  | _, _, .custom hheap, _, _, _, _, _, _ => absurd hheap heap_not_custom

theorem fields_agree : ∀ {sources : List FieldSource} {contract : ObjectContract},
    FieldsSnapshot objects.heap sources contract → ∀ {fields : List (PyStr × Nat × Bool)},
      List.Forall₂ FieldOf fields sources → ∀ {depth : Nat}, fieldsDepth contract ≤ depth →
        ∀ entries : List (String × Json), (∀ entry ∈ entries, SizesFit entry.2) →
          ((∀ field ∈ fields, FieldHolds (pyValidate objects depth) (entries.map pyItem) field) ↔
            FieldsConform Carriable contract entries)
  | _, _, .nil, _, .nil, _, _, _, _ => by simp [FieldsConform]
  | _, _, .cons hvalue hrest, _, .cons hfirst hothers, depth, hdepth, entries, hfit => by
    have hdepths := Nat.max_le.mp hdepth
    rw [List.forall_mem_cons, FieldsConform, ← and_assoc,
      fields_agree hrest hothers hdepths.2 entries hfit]
    exact and_congr_left' (fieldHolds_iff hfirst hfit (value_agrees hvalue hfirst.value hdepths.1))

end

/-! ## The root -/

theorem snapshot_ref {object : PyObject} {contract : ValueContract}
    (h : Snapshot objects.heap object contract) :
    ∃ identity descriptor, object = .ref identity ∧ objects identity = some descriptor := by
  have hknown : ∀ identity behind, objects.heap identity = behind → behind ≠ .other →
      ∃ descriptor, objects identity = some descriptor := by
    rintro identity behind rfl hother
    refine Option.ne_none_iff_exists'.mp fun hnone => hother ?_
    rw [Descriptors.heap, hnone]
  cases h with
  | @scalar identity _ _ h =>
    obtain ⟨descriptor, hobject⟩ := hknown identity _ rfl fun hother => by
      rw [hother] at h
      cases h
    exact ⟨identity, descriptor, rfl, hobject⟩
  | list hheap | object hheap | nullable hheap =>
    obtain ⟨descriptor, hobject⟩ := hknown _ _ hheap nofun
    exact ⟨_, descriptor, rfl, hobject⟩
  | custom hheap => exact absurd hheap heap_not_custom

/-- An item of the root is the same field for both. -/
theorem root_field {item : PyObject × PyObject} {source : FieldSource}
    {contract : ValueContract} (hitem : ReadsItem objects.heap item source)
    (hvalue : Snapshot objects.heap source.value contract) :
    ∃ field, pyFieldSnapshot objects item = .ok field ∧ FieldOf field source := by
  obtain ⟨nameObject, spec⟩ := item
  obtain ⟨name, value, required⟩ := source
  obtain ⟨hname, hspec⟩ := hitem
  cases rootFieldName_ok hname
  obtain ⟨inner, descriptor, rfl, hinner⟩ := snapshot_ref hvalue
  cases spec with
  | ref identity =>
    have hread : ∀ found, objects identity = found →
        ∃ field, pyFieldSnapshot objects (.str (.text name), .ref identity) = .ok field ∧
          FieldOf field { name, value := .ref inner, required } := by
      rintro found hfound
      unfold fieldSpec Descriptors.heap at hspec
      unfold pyFieldSnapshot
      dsimp only at hspec ⊢
      rw [hfound] at hspec ⊢
      cases found with
      | none =>
        cases hspec
        rw [hfound] at hinner
        cases hinner
      | some descriptor => cases descriptor <;> cases hspec <;> exact ⟨_, rfl, rfl, rfl, rfl⟩
    exact hread _ rfl
  | none | bool | int | float | str | tuple | list | dict => cases hspec

theorem root_fields {items : List (PyObject × PyObject)} {sources : List FieldSource}
    (hitems : List.Forall₂ (ReadsItem objects.heap) items sources) {contract : ObjectContract}
    (hfields : FieldsSnapshot objects.heap sources contract) :
    ∃ fields, items.mapM (pyFieldSnapshot objects) = .ok fields ∧
      List.Forall₂ FieldOf fields sources := by
  induction hitems generalizing contract with
  | nil => exact ⟨[], rfl, .nil⟩
  | cons hfirst _ ih =>
    cases hfields with
    | cons hvalue hrest =>
      obtain ⟨field, hfield, hof⟩ := root_field hfirst hvalue
      obtain ⟨fields, hothers, hofs⟩ := ih hrest
      refine ⟨field :: fields, ?_, .cons hof hofs⟩
      rw [List.mapM_cons, hfield, hothers]
      rfl

end Agree

/-- **The compiled validator and the validators of the descriptors agree.** -/
theorem validators_agree [FloatText] (objects : Descriptors) (schema : SchemaDict)
    (compiled : CompiledActSchema)
    (h : compileActSchema objects.heap (.dict schema.entries) = .ok compiled) (value : Json)
    (hlimits : WithinResultLimits value) (depth : Nat) (hdepth : schemaMaxDepth ≤ depth) :
    (∃ validated jobs, compiled.validate? value = some (.valid validated jobs)) ↔
      pyValidateRoot objects depth schema (jsonToPy value) = .ok () := by
  have hwf := contract_wellFormed h
  have hvalid : (∃ validated jobs, compiled.validate? value = some (.valid validated jobs)) ↔
      Conforms Carriable compiled.contract value := by
    simp only [validate?_eq_valid, issuesOf_eq_nil _ hwf]
    constructor
    · rintro ⟨validated, jobs, -, hconforms, -⟩
      exact hconforms
    · intro hconforms
      obtain ⟨validated, hdata, -⟩ :=
        exists_carries _ hwf ((issuesOf_eq_nil _ hwf value []).mpr hconforms)
      exact ⟨validated, _, hlimits, hconforms, hdata, rfl⟩
  obtain ⟨entries, sources, hentries, hsources, hmade⟩ := compileActSchema_sound h
  cases hentries
  obtain ⟨fields, hfields, hread⟩ := root_fields hsources hmade.snapshot
  rw [hvalid, pyValidateRoot, hfields]
  refine (object_agrees hread hmade.snapshot.names fun found hvalue => ?_).symm
  subst hvalue
  have hlevels : fieldsDepth compiled.root ≤ depth := by
    have := hmade.depth
    omega
  exact fields_agree hmade.snapshot hread hlevels found.toList (fieldsFit hlimits.sizes)

/-! ## A schema with an optional list -/

/-- A score, and notes that may be left out. -/
def reviewObjects : Descriptors
  | 0 => some (.int64Value (.text "score") (some 0) (some 100) none)
  | 1 => some (.field 2 false)
  | 2 => some (.listValue (.text "notes") 3 none (some 2))
  | 3 => some (.strValue (.text "note") none none none)
  | _ => none

def reviewSchema : SchemaDict where
  entries := [(.str (.text "score"), .ref 0), (.str (.text "notes"), .ref 1)]
  distinct := by simp [DistinctNames]

def reviewCompiled : CompiledActSchema where
  root := .cons "score" true (.int64 "score" (some 0) (some 100) none)
    (.cons "notes" false
      (.list "notes" (.string "note" none resultStringMaxScalars none) none 2) .nil)
  validationMode := .nativeOnly
  customValidators := []

theorem review_compiles :
    @compileActSchema noFloatText reviewObjects.heap (.dict reviewSchema.entries) =
      .ok reviewCompiled := rfl

/-- A review of seven points. -/
def reviewResult : Json := .object (.cons "score" (.number (.ofNat 7)) .nil)

theorem validators_agree_review :
    (∃ validated jobs, @CompiledActSchema.validate? noFloatText reviewCompiled reviewResult =
      some (.valid validated jobs)) ↔
        pyValidateRoot reviewObjects schemaMaxDepth reviewSchema (jsonToPy reviewResult) =
          .ok () :=
  @validators_agree noFloatText reviewObjects reviewSchema reviewCompiled review_compiles
    reviewResult ⟨by decide, by decide, by unfold StringFits; decide, trivial, trivial⟩
    schemaMaxDepth le_rfl

end Troupe.Agent
