import Mathlib.Data.List.Nodup
import Std.Data.ExtTreeMap
import Troupe.Lib.Json

/-! # Types with a JSON form

A `Codec` is what `#[derive(Serialize, Deserialize)]` gives a type: how a value is written as JSON
and how one is read back, with the proof that what was written reads back. `Fields` is the same for
the fields of a record, so that a record is listed once, field by field, and a record flattened into
another contributes its fields.

* An object keeps its fields in the order they are written. A reader looks them up by name, and the
  last of two fields of one name wins, as when the object is read into a map first.
* A reader accepts more than its own type writes: a record from an array, a variant from an object
  of one field. What exactly is left to `Shapes`; no result depends on it.
* Which of several errors a reader reports depends on the order it meets them in, so a reader
  answers `none` for every one of them.
* `Legible` values are those whose text the JSON library reads back: not nested too deeply, with
  distinct keys, and without an object that starts with `numberToken`. -/

namespace Troupe.Lib

open Std (ExtTreeMap)

/-! ## Looking up fields -/

/-- The value of a field; the last one of its name wins. -/
def lookup (key : String) : List (String × Json) → Option Json
  | [] => none
  | (name, value) :: rest => (lookup key rest).or (if name = key then some value else none)

theorem lookup_eq_none {key : String} {entries : List (String × Json)} :
    lookup key entries = none ↔ key ∉ entries.map Prod.fst := by
  induction entries with
  | nil => simp [lookup]
  | cons entry rest ih =>
    obtain ⟨name, value⟩ := entry
    rw [lookup, Option.or_eq_none_iff, ih, List.map_cons, List.mem_cons, not_or]
    by_cases hname : name = key
    · simp [hname]
    · simp [hname, Ne.symm hname]

/-- With distinct names every field is found. -/
theorem lookup_of_mem {entries : List (String × Json)} (hnodup : (entries.map Prod.fst).Nodup)
    {entry : String × Json} (h : entry ∈ entries) : lookup entry.1 entries = some entry.2 := by
  induction entries with
  | nil => cases h
  | cons first rest ih =>
    obtain ⟨name, value⟩ := first
    rw [List.map_cons, List.nodup_cons] at hnodup
    rcases List.mem_cons.mp h with rfl | hrest
    · rw [lookup, lookup_eq_none.mpr hnodup.1]
      simp
    · rw [lookup, ih hnodup.2 hrest]
      rfl

/-! ## Values that read back from their text -/

/-- The key under which `serde_json` passes a number of arbitrary precision through its data model.
An object that starts with it is read as a number. (Its `raw_value` feature keeps another such key,
`$serde_json::private::RawValue`; no crate here asks for it.) -/
def numberToken : String := "$serde_json::private::Number"

mutual

/-- At most `levels` arrays and objects inside one another, and no object repeats a key or starts
with the one that stands for a number. -/
def Json.Legible (levels : Nat) : Json → Prop
  | .null => True
  | .bool _ => True
  | .number _ => True
  | .string _ => True
  | .array items => 0 < levels ∧ items.Legible (levels - 1)
  | .object .nil => 0 < levels
  | .object (.cons key value rest) =>
    0 < levels ∧ key ≠ numberToken ∧ value.Legible (levels - 1) ∧ rest.Legible (levels - 1) ∧
      (key :: rest.toList.map Prod.fst).Nodup

/-- Every item is legible. -/
def JsonItems.Legible (levels : Nat) : JsonItems → Prop
  | .nil => True
  | .cons value rest => value.Legible levels ∧ rest.Legible levels

/-- Every field's value is legible. -/
def JsonFields.Legible (levels : Nat) : JsonFields → Prop
  | .nil => True
  | .cons _ value rest => value.Legible levels ∧ rest.Legible levels

end

theorem JsonItems.legible_ofList {levels : Nat} {items : List Json} :
    (ofList items).Legible levels ↔ ∀ item ∈ items, item.Legible levels := by
  induction items with
  | nil => simp [ofList, JsonItems.Legible]
  | cons item rest ih => simp [ofList, JsonItems.Legible, ih]

theorem JsonFields.legible_ofList {levels : Nat} {fields : List (String × Json)} :
    (ofList fields).Legible levels ↔ ∀ field ∈ fields, field.2.Legible levels := by
  induction fields with
  | nil => simp [ofList, JsonFields.Legible]
  | cons field rest ih => simp [ofList, JsonFields.Legible, ih]

theorem Json.legible_array {levels : Nat} {items : List Json} :
    (Json.array (.ofList items)).Legible (levels + 1) ↔ ∀ item ∈ items, item.Legible levels := by
  simp [Json.Legible, JsonItems.legible_ofList]

theorem Json.legible_object {levels : Nat} {fields : List (String × Json)} :
    (Json.object (.ofList fields)).Legible (levels + 1) ↔
      (fields.map Prod.fst).head? ≠ some numberToken ∧ (∀ field ∈ fields, field.2.Legible levels) ∧
        (fields.map Prod.fst).Nodup := by
  cases fields with
  | nil => simp [JsonFields.ofList, Json.Legible]
  | cons field rest =>
    simp [JsonFields.ofList, Json.Legible, JsonFields.legible_ofList, JsonFields.toList_ofList,
      and_assoc]

mutual

theorem Json.Legible.mono {a b : Nat} (hle : a ≤ b) : ∀ {value : Json}, value.Legible a →
    value.Legible b
  | .null, _ => trivial
  | .bool _, _ => trivial
  | .number _, _ => trivial
  | .string _, _ => trivial
  | .array _, h => ⟨by have := h.1; omega, h.2.mono (by omega)⟩
  | .object .nil, h => Nat.lt_of_lt_of_le h hle
  | .object (.cons _ _ _), h =>
    ⟨by have := h.1; omega, h.2.1, h.2.2.1.mono (by omega), h.2.2.2.1.mono (by omega), h.2.2.2.2⟩

theorem JsonItems.Legible.mono {a b : Nat} (hle : a ≤ b) : ∀ {items : JsonItems}, items.Legible a →
    items.Legible b
  | .nil, _ => trivial
  | .cons _ _, h => ⟨h.1.mono hle, h.2.mono hle⟩

theorem JsonFields.Legible.mono {a b : Nat} (hle : a ≤ b) : ∀ {fields : JsonFields},
    fields.Legible a → fields.Legible b
  | .nil, _ => trivial
  | .cons _ _ _, h => ⟨h.1.mono hle, h.2.mono hle⟩

end

mutual

/-- Some object starts with the key that stands for a number, and holds no string under it. -/
def Json.Misread : Json → Prop
  | .null => False
  | .bool _ => False
  | .number _ => False
  | .string _ => False
  | .array items => items.Misread
  | .object .nil => False
  | .object (.cons key value rest) =>
    (key = numberToken ∧ ∀ text, value ≠ .string text) ∨ value.Misread ∨ rest.Misread

/-- Some item is. -/
def JsonItems.Misread : JsonItems → Prop
  | .nil => False
  | .cons value rest => value.Misread ∨ rest.Misread

/-- Some field's value is. -/
def JsonFields.Misread : JsonFields → Prop
  | .nil => False
  | .cons _ value rest => value.Misread ∨ rest.Misread

end

theorem JsonFields.misread_ofList {fields : List (String × Json)} :
    (ofList fields).Misread ↔ ∃ field ∈ fields, field.2.Misread := by
  induction fields with
  | nil => simp [ofList, JsonFields.Misread]
  | cons field rest ih => simp [ofList, JsonFields.Misread, ih]

theorem Json.misread_object {fields : List (String × Json)} :
    (Json.object (.ofList fields)).Misread ↔
      (∃ field, fields.head? = some field ∧ field.1 = numberToken ∧
        ∀ text, field.2 ≠ .string text) ∨ ∃ field ∈ fields, field.2.Misread := by
  cases fields with
  | nil => simp [JsonFields.ofList, Json.Misread]
  | cons field rest =>
    simp only [JsonFields.ofList, Json.Misread, JsonFields.misread_ofList, List.head?_cons,
      Option.some.injEq, exists_eq_left', List.exists_mem_cons_iff]

mutual

/-- A legible value is not misread. -/
theorem Json.Legible.not_misread {levels : Nat} : ∀ {value : Json}, value.Legible levels →
    ¬value.Misread
  | .null, _, h => h
  | .bool _, _, h => h
  | .number _, _, h => h
  | .string _, _, h => h
  | .array _, hlegible, h => hlegible.2.not_misread h
  | .object .nil, _, h => h
  | .object (.cons _ _ _), hlegible, h => by
    rcases h with ⟨hkey, -⟩ | h | h
    · exact hlegible.2.1 hkey
    · exact hlegible.2.2.1.not_misread h
    · exact hlegible.2.2.2.1.not_misread h

theorem JsonItems.Legible.not_misread {levels : Nat} : ∀ {items : JsonItems}, items.Legible levels →
    ¬items.Misread
  | .nil, _, h => h
  | .cons _ _, hlegible, h => h.elim hlegible.1.not_misread hlegible.2.not_misread

theorem JsonFields.Legible.not_misread {levels : Nat} : ∀ {fields : JsonFields},
    fields.Legible levels → ¬fields.Misread
  | .nil, _, h => h
  | .cons _ _ _, hlegible, h => h.elim hlegible.1.not_misread hlegible.2.not_misread

end

/-! ## Codecs -/

/-- What a reader makes of a value that has not the form its type writes. -/
structure Shapes where
  /-- The variant an enumeration with these names takes a value that is not a string for. -/
  variant : List String → Json → Option String
  /-- The fields a record with these names takes a value that is not an object for. -/
  fields : List String → Json → Option (List (String × Json))
  /-- Whether a variant without content takes a content other than `null`. -/
  unit : Json → Bool

/-- A type with a JSON form. -/
structure Codec (α : Type) where
  write : α → Json
  read : Json → Option α
  /-- The value holds no map that starts with the key that stands for a number. -/
  Clean : α → Prop
  /-- A bound on how deep the JSON form is. -/
  levels : Nat
  read_write : ∀ a, read (write a) = some a
  write_ne_null : ∀ a, write a ≠ .null
  legible : ∀ a, Clean a → (write a).Legible levels

namespace Codec

variable {α β : Type}

/-- A type written as a string. -/
def text (write : α → String) (parse : String → Option α) (h : ∀ a, parse (write a) = some a) :
    Codec α where
  write a := .string (write a)
  read
    | .string value => parse value
    | _ => none
  Clean _ := True
  levels := 0
  read_write := h
  write_ne_null _ := by simp
  legible _ _ := trivial

/-- `String`. -/
def string : Codec String := text id some fun _ => rfl

/-- `bool`. -/
def bool : Codec Bool where
  write := .bool
  read
    | .bool value => some value
    | _ => none
  Clean _ := True
  levels := 0
  read_write _ := rfl
  write_ne_null _ := by simp
  legible _ _ := trivial

/-- An enumeration without payloads, written as the name of the variant. -/
def variants (shapes : Shapes) (all : List α) (name : α → String) (hall : ∀ a, a ∈ all)
    (hname : (all.map name).Nodup) : Codec α where
  write a := .string (name a)
  read value := do
    let variant ← match value with
      | .string variant => some variant
      | value => shapes.variant (all.map name) value
    all.find? fun a => name a == variant
  Clean _ := True
  levels := 0
  read_write a := by
    show all.find? (fun b => name b == name a) = some a
    have hsome : (all.find? fun b => name b == name a).isSome :=
      List.find?_isSome.mpr ⟨a, hall a, by simp⟩
    obtain ⟨b, hb⟩ := Option.isSome_iff_exists.mp hsome
    have hsame : name b = name a := by simpa using List.find?_some hb
    rw [hb, List.inj_on_of_nodup_map hname (hall b) (hall a) hsame]
  write_ne_null _ := by simp
  legible _ _ := trivial

/-- Read every item. -/
def readAll (read : Json → Option α) : List Json → Option (List α)
  | [] => some []
  | item :: rest => do
    let a ← read item
    let others ← readAll read rest
    some (a :: others)

theorem readAll_map {read : Json → Option α} {write : α → Json}
    (h : ∀ a, read (write a) = some a) (items : List α) :
    readAll read (items.map write) = some items := by
  induction items with
  | nil => rfl
  | cons a rest ih => simp [readAll, h, ih]

/-- `Vec`. -/
def list (codec : Codec α) : Codec (List α) where
  write items := .array (.ofList (items.map codec.write))
  read
    | .array items => readAll codec.read items.toList
    | _ => none
  Clean items := ∀ a ∈ items, codec.Clean a
  levels := codec.levels + 1
  read_write items := by
    simp only [JsonItems.toList_ofList]
    exact readAll_map codec.read_write items
  write_ne_null _ := by simp
  legible items h := by
    refine Json.legible_array.mpr fun item hitem => ?_
    obtain ⟨a, ha, rfl⟩ := List.mem_map.mp hitem
    exact codec.legible a (h a ha)

/-- Read every field's value under its name. -/
def readEntries (read : Json → Option α) : List (String × Json) → Option (List (String × α))
  | [] => some []
  | (key, value) :: rest => do
    let a ← read value
    let others ← readEntries read rest
    some ((key, a) :: others)

theorem readEntries_map {read : Json → Option α} {write : α → Json}
    (h : ∀ a, read (write a) = some a) (entries : List (String × α)) :
    readEntries read (entries.map fun (key, a) => (key, write a)) = some entries := by
  induction entries with
  | nil => rfl
  | cons entry rest ih => simp [readEntries, h, ih]

/-- A map is made of its entries. -/
theorem ofList_toList (entries : ExtTreeMap String α) :
    ExtTreeMap.ofList entries.toList = entries := by
  apply ExtTreeMap.ext_getElem?
  intro key
  cases hkey : entries[key]? with
  | none =>
    refine ExtTreeMap.getElem?_ofList_of_contains_eq_false ?_
    rw [ExtTreeMap.map_fst_toList_eq_keys, ExtTreeMap.contains_keys]
    simpa [← ExtTreeMap.contains_iff_mem] using hkey
  | some a =>
    exact ExtTreeMap.getElem?_ofList_of_mem Std.ReflCmp.compare_self ExtTreeMap.distinct_keys_toList
      (ExtTreeMap.mem_toList_iff_getElem?_eq_some.mpr hkey)

/-- `BTreeMap` with keys that are strings: an object, its keys in order. -/
def map (codec : Codec α) : Codec (ExtTreeMap String α) where
  write entries := .object (.ofList (entries.toList.map fun (key, a) => (key, codec.write a)))
  read
    | .object fields => do
      let entries ← readEntries codec.read fields.toList
      some (ExtTreeMap.ofList entries)
    | _ => none
  Clean entries := entries.keys.head? ≠ some numberToken ∧
    ∀ entry ∈ entries.toList, codec.Clean entry.2
  levels := codec.levels + 1
  read_write entries := by
    simp only [JsonFields.toList_ofList, readEntries_map codec.read_write]
    exact congrArg some (ofList_toList entries)
  write_ne_null _ := by simp
  legible entries h := by
    have hkeys : (entries.toList.map fun entry => (entry.1, codec.write entry.2)).map Prod.fst =
        entries.keys := by
      rw [List.map_map]
      exact ExtTreeMap.map_fst_toList_eq_keys
    refine Json.legible_object.mpr ⟨hkeys ▸ h.1, fun field hfield => ?_, hkeys ▸ ?_⟩
    · obtain ⟨entry, hentry, rfl⟩ := List.mem_map.mp hfield
      exact codec.legible entry.2 (h.2 entry hentry)
    · exact ExtTreeMap.distinct_keys.imp fun hne heq => hne (Std.compare_eq_iff_eq.mpr heq)

/-- A map that starts with the key that stands for a number is misread. -/
theorem misread_map {codec : Codec α} (hcodec : ∀ a text, codec.write a ≠ .string text)
    {entries : ExtTreeMap String α} (h : entries.keys.head? = some numberToken) :
    (codec.map.write entries).Misread := by
  refine Json.misread_object.mpr (Or.inl ?_)
  rw [← ExtTreeMap.map_fst_toList_eq_keys, List.head?_map] at h
  obtain ⟨entry, hhead, hkey⟩ := Option.map_eq_some_iff.mp h
  exact ⟨(entry.1, codec.write entry.2), by rw [List.head?_map, hhead]; rfl, hkey, hcodec entry.2⟩

end Codec

/-! ## Fields of a record -/

/-- Some fields of a record `σ`, from which an `α` is read. -/
structure Fields (σ α : Type) where
  names : List String
  /-- The fields that may not be missing. -/
  required : List String
  write : σ → List (String × Json)
  read : (String → Option Json) → Option α
  /-- What is read back from a record. -/
  value : σ → α
  /-- No map in the fields starts with the key that stands for a number. -/
  Clean : σ → Prop
  levels : Nat
  keys : ∀ s, (write s).map Prod.fst = names
  read_write : ∀ s get, (∀ entry ∈ write s, get entry.1 = some entry.2) → read get = some (value s)
  legible : ∀ s, Clean s → ∀ entry ∈ write s, entry.2.Legible levels
  missing : ∀ get, ∀ name ∈ required, get name = none → read get = none

namespace Fields

variable {σ α β ε : Type}

/-- No field yet. -/
def start (σ : Type) (a : α) : Fields σ α where
  names := []
  required := []
  write _ := []
  read _ := some a
  value _ := a
  Clean _ := True
  levels := 0
  keys _ := rfl
  read_write _ _ _ := rfl
  legible _ _ := by simp
  missing _ := by simp

/-- A field that must be there. -/
def field (fields : Fields σ (β → α)) (name : String) (project : σ → β) (codec : Codec β) :
    Fields σ α where
  names := fields.names ++ [name]
  required := fields.required ++ [name]
  write s := fields.write s ++ [(name, codec.write (project s))]
  read get := do
    let build ← fields.read get
    let value ← get name
    let b ← codec.read value
    some (build b)
  value s := fields.value s (project s)
  Clean s := fields.Clean s ∧ codec.Clean (project s)
  levels := fields.levels + codec.levels
  keys s := by rw [List.map_append, fields.keys]; rfl
  read_write s get h := by
    rw [List.forall_mem_append] at h
    have hvalue : get name = some (codec.write (project s)) := by simpa using h.2
    simp only [fields.read_write s get h.1, hvalue, Option.bind_eq_bind, Option.bind_some,
      codec.read_write]
  legible s h := by
    refine List.forall_mem_append.mpr ⟨fun entry hentry => ?_, ?_⟩
    · exact (fields.legible s h.1 entry hentry).mono (Nat.le_add_right _ _)
    · simpa using (codec.legible _ h.2).mono (Nat.le_add_left codec.levels fields.levels)
  missing get other h hnone := by
    rcases List.mem_append.mp h with h | h
    · simp [fields.missing get other h hnone]
    · rw [List.mem_singleton.mp h] at hnone
      cases fields.read get <;> simp [hnone]

/-- An `Option` field: written as `null` when absent, read as absent when missing. -/
def optional (fields : Fields σ (Option β → α)) (name : String) (project : σ → Option β)
    (codec : Codec β) : Fields σ α where
  names := fields.names ++ [name]
  required := fields.required
  write s := fields.write s ++ [(name, match project s with
    | none => .null
    | some b => codec.write b)]
  read get := do
    let build ← fields.read get
    match get name with
    | none => some (build none)
    | some .null => some (build none)
    | some value => do
      let b ← codec.read value
      some (build (some b))
  value s := fields.value s (project s)
  Clean s := fields.Clean s ∧ ∀ b, project s = some b → codec.Clean b
  levels := fields.levels + codec.levels
  keys s := by rw [List.map_append, fields.keys]; rfl
  read_write s get h := by
    rw [List.forall_mem_append] at h
    rw [fields.read_write s get h.1]
    have hvalue := h.2 _ List.mem_cons_self
    cases hproject : project s with
    | none =>
      simp only [hproject] at hvalue
      simp [hvalue]
    | some b =>
      simp only [hproject] at hvalue
      have hnull := codec.write_ne_null b
      have hread := codec.read_write b
      generalize codec.write b = written at hvalue hnull hread
      simp only [hvalue, Option.bind_eq_bind, Option.bind_some, hread]
  legible s h := by
    refine List.forall_mem_append.mpr ⟨fun entry hentry => ?_, fun entry hentry => ?_⟩
    · exact (fields.legible s h.1 entry hentry).mono (Nat.le_add_right _ _)
    · rw [List.mem_singleton.mp hentry]
      cases hproject : project s with
      | none => trivial
      | some b => exact (codec.legible b (h.2 b hproject)).mono (Nat.le_add_left _ _)
  missing get other h hnone := by simp [fields.missing get other h hnone]

/-- A record flattened into this one. -/
def flatten (fields : Fields σ (β → α)) (project : σ → β) (inner : Fields β β)
    (hinner : ∀ b, inner.value b = b := by intro b; exact (show _ = b from rfl)) : Fields σ α where
  names := fields.names ++ inner.names
  required := fields.required ++ inner.required
  write s := fields.write s ++ inner.write (project s)
  read get := do
    let build ← fields.read get
    let b ← inner.read get
    some (build b)
  value s := fields.value s (project s)
  Clean s := fields.Clean s ∧ inner.Clean (project s)
  levels := fields.levels + inner.levels
  keys s := by rw [List.map_append, fields.keys, inner.keys]
  read_write s get h := by
    rw [List.forall_mem_append] at h
    simp only [fields.read_write s get h.1, inner.read_write _ get h.2, hinner,
      Option.bind_eq_bind, Option.bind_some]
  legible s h := by
    refine List.forall_mem_append.mpr ⟨fun entry hentry => ?_, fun entry hentry => ?_⟩
    · exact (fields.legible s h.1 entry hentry).mono (Nat.le_add_right _ _)
    · exact (inner.legible _ h.2 entry hentry).mono (Nat.le_add_left _ _)
  missing get other h hnone := by
    rcases List.mem_append.mp h with h | h
    · simp [fields.missing get other h hnone]
    · cases fields.read get <;> simp [inner.missing get other h hnone]

/-- A constructor that may refuse what was read. -/
def check (fields : Fields σ (Except ε σ)) (h : ∀ s, fields.value s = .ok s) : Fields σ σ where
  names := fields.names
  required := fields.required
  write := fields.write
  read get := do
    let built ← fields.read get
    built.toOption
  value s := s
  Clean := fields.Clean
  levels := fields.levels
  keys := fields.keys
  read_write s get hget := by rw [fields.read_write s get hget, h s]; rfl
  legible := fields.legible
  missing get name hname hnone := by simp [fields.missing get name hname hnone]

/-- An enumeration whose payload stands beside its tag. -/
def tagged {κ : Type} (tag content : String) (kinds : Codec κ) (kind : α → κ)
    (payload : α → Json) (readPayload : κ → Json → Option α) (levels : Nat)
    (hread : ∀ a, readPayload (kind a) (payload a) = some a)
    (hkinds : ∀ k, kinds.Clean k) (hlegible : ∀ a, (payload a).Legible levels) : Fields α α where
  names := [tag, content]
  required := [tag, content]
  write a := [(tag, kinds.write (kind a)), (content, payload a)]
  read get := do
    let k ← (get tag).bind kinds.read
    let value ← get content
    readPayload k value
  value a := a
  Clean _ := True
  levels := kinds.levels + levels
  keys _ := rfl
  read_write a get h := by
    have htag := h (tag, _) List.mem_cons_self
    have hcontent := h (content, _) (List.mem_cons_of_mem _ List.mem_cons_self)
    simp only [htag, hcontent, Option.bind_some, kinds.read_write, Option.bind_eq_bind, hread]
  legible a _ := by
    refine List.forall_mem_cons.mpr ⟨(kinds.legible _ (hkinds _)).mono (Nat.le_add_right _ _), ?_⟩
    simpa using (hlegible a).mono (Nat.le_add_left levels kinds.levels)
  missing get name h hnone := by
    rcases List.mem_cons.mp h with rfl | h
    · simp [hnone]
    · rw [List.mem_singleton.mp h] at hnone
      cases (get tag).bind kinds.read <;> simp [hnone]

section Names

variable {κ : Type}

@[simp] theorem names_start {a : α} : (start σ a).names = [] := rfl

@[simp] theorem names_field {fields : Fields σ (β → α)} {name : String} {project : σ → β}
    {codec : Codec β} : (fields.field name project codec).names = fields.names ++ [name] := rfl

@[simp] theorem names_optional {fields : Fields σ (Option β → α)} {name : String}
    {project : σ → Option β} {codec : Codec β} :
    (fields.optional name project codec).names = fields.names ++ [name] := rfl

@[simp] theorem names_flatten {fields : Fields σ (β → α)} {project : σ → β} {inner : Fields β β}
    {hinner} : (fields.flatten project inner hinner).names = fields.names ++ inner.names := rfl

@[simp] theorem names_check {fields : Fields σ (Except ε σ)} {h} :
    (fields.check h).names = fields.names := rfl

@[simp] theorem names_tagged {tag content : String} {kinds : Codec κ} {kind : α → κ}
    {payload readPayload levels hread hkinds hlegible} :
    (tagged tag content kinds kind payload readPayload levels hread hkinds hlegible).names =
      [tag, content] := rfl

end Names

end Fields

namespace Codec

variable {α β κ : Type}

/-- The fields a reader takes from a value. -/
def entries (shapes : Shapes) (names : List String) : Json → Option (List (String × Json))
  | .object fields => some fields.toList
  | value => shapes.fields names value

/-- A record as an object of its own; with `#[serde(deny_unknown_fields)]` no other field is
allowed in it. -/
def record (shapes : Shapes) (deny : Bool) (fields : Fields α α)
    (hvalue : ∀ a, fields.value a = a := by intro a; exact (show _ = a from rfl))
    (hnames : fields.names.Nodup ∧ numberToken ∉ fields.names := by simp [numberToken]) :
    Codec α where
  write a := .object (.ofList (fields.write a))
  read value := do
    let found ← entries shapes fields.names value
    if deny && found.any (fun entry => !fields.names.contains entry.1) then
      none
    else
      fields.read (lookup · found)
  Clean := fields.Clean
  levels := fields.levels + 1
  read_write a := by
    have hnamed : ∀ entry ∈ fields.write a, entry.1 ∈ fields.names := by
      intro entry hentry
      rw [← fields.keys a]
      exact List.mem_map_of_mem hentry
    have hknown : (fields.write a).any (fun entry => !fields.names.contains entry.1) = false := by
      simpa using fun x y hentry => hnamed (x, y) hentry
    have hread := fields.read_write a (lookup · (fields.write a)) fun entry hentry =>
      lookup_of_mem (by rw [fields.keys]; exact hnames.1) hentry
    simp only [entries, JsonFields.toList_ofList, Option.bind_eq_bind, Option.bind_some, hknown,
      Bool.and_false, Bool.false_eq_true, if_false, hread, hvalue]
  write_ne_null _ := by simp
  legible a h := by
    refine Json.legible_object.mpr ⟨?_, fields.legible a h, ?_⟩ <;> rw [fields.keys]
    · exact fun hhead => hnames.2 (List.mem_of_head? hhead)
    · exact hnames.1

/-- An enumeration as an object of its tag and its payload, which a variant without content leaves
out. -/
def tagged (shapes : Shapes) (tag content : String) (kinds : Codec κ) (kind : α → κ)
    (payload : α → Option Json) (readPayload : κ → Option Json → Option α) (levels : Nat)
    (hnames : tag ≠ content) (htoken : tag ≠ numberToken)
    (hread : ∀ a, readPayload (kind a) (payload a) = some a) (hkinds : ∀ k, kinds.Clean k)
    (hlevels : kinds.levels ≤ levels) (hlegible : ∀ a, ∀ p ∈ payload a, p.Legible levels) :
    Codec α where
  write a := .object (.ofList ((tag, kinds.write (kind a)) ::
    ((payload a).map fun value => (content, value)).toList))
  read value := do
    let found ← entries shapes [tag, content] value
    let k ← (lookup tag found).bind kinds.read
    readPayload k (lookup content found)
  Clean _ := True
  levels := levels + 1
  read_write a := by
    have hrest := hread a
    cases hpayload : payload a with
    | none =>
      rw [hpayload] at hrest
      simp [entries, lookup, hnames, kinds.read_write, hrest]
    | some value =>
      rw [hpayload] at hrest
      simp [entries, lookup, hnames, hnames.symm, kinds.read_write, hrest]
  write_ne_null _ := by simp
  legible a _ := by
    refine Json.legible_object.mpr ⟨by simpa using htoken, List.forall_mem_cons.mpr ⟨?_, ?_⟩, ?_⟩
    · exact (kinds.legible _ (hkinds _)).mono hlevels
    · cases hpayload : payload a with
      | none => simp
      | some value => simpa using hlegible a value hpayload
    · cases payload a <;> simp [hnames]

/-! ## Clean values

Most types hold no map at all; these lemmas unfold what a type says about its maps. -/

section Clean

variable {σ ε : Type} {shapes : Shapes}

@[simp] theorem clean_text {write : α → String} {parse h} {a : α} : (text write parse h).Clean a :=
  trivial

@[simp] theorem clean_string {a : String} : string.Clean a := trivial

@[simp] theorem clean_variants {all : List α} {name hall hname} {a : α} :
    (variants shapes all name hall hname).Clean a := trivial

@[simp] theorem clean_list {codec : Codec α} {items : List α} :
    codec.list.Clean items ↔ ∀ a ∈ items, codec.Clean a := Iff.rfl

@[simp] theorem clean_record {deny : Bool} {fields : Fields α α} {hvalue hnames} {a : α} :
    (record shapes deny fields hvalue hnames).Clean a ↔ fields.Clean a := Iff.rfl

@[simp] theorem clean_start {a : α} {s : σ} : (Fields.start σ a).Clean s := trivial

@[simp] theorem clean_field {fields : Fields σ (β → α)} {name : String} {project : σ → β}
    {codec : Codec β} {s : σ} :
    (fields.field name project codec).Clean s ↔ fields.Clean s ∧ codec.Clean (project s) := Iff.rfl

@[simp] theorem clean_optional {fields : Fields σ (Option β → α)} {name : String}
    {project : σ → Option β} {codec : Codec β} {s : σ} :
    (fields.optional name project codec).Clean s ↔
      fields.Clean s ∧ ∀ b, project s = some b → codec.Clean b := Iff.rfl

@[simp] theorem clean_check {fields : Fields σ (Except ε σ)} {h} {s : σ} :
    (fields.check h).Clean s ↔ fields.Clean s := Iff.rfl

end Clean

end Codec

end Troupe.Lib
