import Troupe.Agent.Schema.Compile
import Troupe.Agent.Schema.Meaning
import Troupe.Lib.Result

/-! # What a compiled contract was made from

`Snapshot` relates an object of the schema graph to the contract the compiler makes of it: the slots
were of the right types and in order, and so on down to the leaves. It is a derivation, so a
compiled graph unfolds to a finite tree whatever references it holds.

`compileValue_ensures` says that a compilation that succeeds leaves such a derivation and a contract
that is well formed; `compileActSchema_sound` is the same for a whole schema. -/

namespace Troupe.Agent

open Troupe.Lib

/-! ## Snapshots -/

/-- The contract of a scalar, from its slots. -/
def scalarSnapshot [FloatText] :
    PyInstance → Option (Except PyErr (ValueContract × Option (List Nat)))
  | .strValue metadata minLength maxLength choices =>
    some (snapshotString metadata minLength maxLength choices)
  | .int64Value metadata min max choices => some (snapshotInt64 metadata min max choices)
  | .float64Value metadata min max choices => some (snapshotFloat64 metadata min max choices)
  | .boolValue metadata choices => some (snapshotBool metadata choices)
  | _ => none

/-- A field: its declared name, the object behind it, and whether it is required. -/
structure FieldSource where
  name : String
  value : PyObject
  required : Bool

/-- The field a triple of an object snapshot stands for. -/
def ReadsTriple (triple : PyObject × PyObject × PyObject) (source : FieldSource) : Prop :=
  (∃ message, extractExactString triple.1 message = .ok source.name) ∧
    triple.2.1 = source.value ∧ ∃ name, extractExactBool triple.2.2 name = .ok source.required

/-- The field an item of the root stands for. -/
def ReadsItem (heap : Heap) (item : PyObject × PyObject) (source : FieldSource) : Prop :=
  rootFieldName item.1 = .ok source.name ∧
    fieldSpec heap item.2 = .ok (source.value, source.required)

section Snapshot

variable [FloatText] (heap : Heap)

mutual

/-- The contract the compiler makes of an object. -/
inductive Snapshot : PyObject → ValueContract → Prop where
  | scalar {identity : Nat} {contract : ValueContract} {lengths : Option (List Nat)}
      (h : scalarSnapshot (heap identity) = some (.ok (contract, lengths))) :
      Snapshot (.ref identity) contract
  | list {identity : Nat} {metadata : Metadata} {description : String} {item : PyObject}
      {minItems maxItems : Option PyObject} {minimum : Option Nat} {maximum : Nat}
      {contract : ValueContract}
      (hheap : heap identity = .listValue metadata (some item) minItems maxItems)
      (hbounds : snapshotItemBounds minItems maxItems = .ok (minimum, maximum))
      (hitem : Snapshot item contract) :
      Snapshot (.ref identity) (.list description contract minimum maximum)
  | object {identity : Nat} {metadata : Metadata} {description : String} {fields : PyObject}
      {triples : List (PyObject × PyObject × PyObject)} {sources : List FieldSource}
      {contract : ObjectContract}
      (hheap : heap identity = .objectValue metadata (some fields))
      (htriples : fieldTriples fields = .ok triples)
      (hsources : List.Forall₂ ReadsTriple triples sources)
      (hnodup : contract.names.Nodup) (hfields : FieldsSnapshot sources contract) :
      Snapshot (.ref identity) (.object description contract)
  | nullable {identity : Nat} {metadata : Metadata} {inner : PyObject} {contract : ValueContract}
      (hheap : heap identity = .nullableValue metadata (some inner))
      (hinner : Snapshot inner contract) : Snapshot (.ref identity) (.nullable contract)
  | custom {identity : Nat} {metadata : Metadata} {rendered : Except PyErr PyObject}
      {description promptFragment : String} {jsonKind : JsonKind} {validatorId : Nat}
      (hheap : heap identity = .custom metadata rendered) :
      Snapshot (.ref identity) (.custom description jsonKind promptFragment validatorId)

/-- The contract the compiler makes of the fields of an object. -/
inductive FieldsSnapshot : List FieldSource → ObjectContract → Prop where
  | nil : FieldsSnapshot [] .nil
  | cons {source : FieldSource} {sources : List FieldSource} {contract : ValueContract}
      {rest : ObjectContract} (hvalue : Snapshot source.value contract)
      (hrest : FieldsSnapshot sources rest) :
      FieldsSnapshot (source :: sources) (.cons source.name source.required contract rest)

end

end Snapshot

theorem FieldsSnapshot.names [FloatText] {heap : Heap} {sources : List FieldSource}
    {contract : ObjectContract} (h : FieldsSnapshot heap sources contract) :
    contract.names = sources.map FieldSource.name := by
  induction sources generalizing contract with
  | nil =>
    cases h
    rfl
  | cons source sources ih =>
    cases h with
    | cons hvalue hrest => rw [ObjectContract.names, ih hrest, List.map_cons]

/-! ## What a compilation ensures -/

/-- Every binding made so far is of a validator that is registered. -/
def Compiler.Bound (c : Compiler) : Prop :=
  ∀ entry ∈ c.customMemo, entry.2.validatorId < c.customValidators.length

/-- A compilation that succeeds keeps the bindings, unregisters no validator, and its answer is
related to how many validators are registered then. -/
def Ensures {α : Type} (compilation : CompileM α) (post : Nat → α → Prop) : Prop :=
  ∀ c value after, c.Bound → compilation.run c = .ok (value, after) →
    after.Bound ∧ c.customValidators.length ≤ after.customValidators.length ∧
      post after.customValidators.length value

section Ensures

variable {α β : Type}

theorem Ensures.pure {value : α} {post : Nat → α → Prop} (h : ∀ n, post n value) :
    Ensures (Pure.pure value) post := by
  intro c value' after hbound hrun
  cases hrun
  exact ⟨hbound, le_refl _, h _⟩

theorem Ensures.throw {error : PyErr} {post : Nat → α → Prop} :
    Ensures (MonadExcept.throw error) post :=
  fun _ _ _ _ hrun => nomatch hrun

/-- What the first part ensures still holds when the second is done. -/
theorem Ensures.bind {first : CompileM α} {next : α → CompileM β} {post : Nat → α → Prop}
    {post' : Nat → β → Prop} (h : Ensures first post)
    (hmono : ∀ value n m, n ≤ m → post n value → post m value)
    (hnext : ∀ value, Ensures (next value) fun n result => post n value → post' n result) :
    Ensures (first >>= next) post' := by
  intro c result after hbound hrun
  rw [StateT.run_bind] at hrun
  obtain ⟨⟨value, middle⟩, hfirst, hrest⟩ := bind_eq_ok.mp hrun
  obtain ⟨hmiddle, hle, hpost⟩ := h c value middle hbound hfirst
  obtain ⟨hafter, hle', hpost'⟩ := hnext value middle result after hmiddle hrest
  exact ⟨hafter, le_trans hle hle', hpost' (hmono _ _ _ hle' hpost)⟩

/-- A first part whose answer does not depend on the validators. -/
theorem Ensures.after {first : CompileM α} {next : α → CompileM β} {p : α → Prop}
    {post : Nat → β → Prop} (h : Ensures first fun _ value => p value)
    (hnext : ∀ value, p value → Ensures (next value) post) : Ensures (first >>= next) post := by
  intro c result after hbound hrun
  rw [StateT.run_bind] at hrun
  obtain ⟨⟨value, middle⟩, hfirst, hrest⟩ := bind_eq_ok.mp hrun
  obtain ⟨hmiddle, hle, hp⟩ := h c value middle hbound hfirst
  obtain ⟨hafter, hle', hpost⟩ := hnext value hp middle result after hmiddle hrest
  exact ⟨hafter, le_trans hle hle', hpost⟩

theorem Ensures.attempt (result : Except PyErr α) :
    Ensures (attempt result) fun _ value => result = .ok value := by
  intro c value after hbound hrun
  obtain ⟨found, hfound, hpair⟩ := map_eq_ok.mp hrun
  cases hpair
  exact ⟨hbound, le_refl _, hfound⟩

theorem Ensures.updateStats (f : CompileStats → CompileStats) :
    Ensures (updateStats f) fun _ _ => True := by
  intro c value after hbound hrun
  cases hrun
  exact ⟨hbound, le_refl _, trivial⟩

theorem Ensures.get {next : Compiler → CompileM β} {post : Nat → β → Prop}
    (h : ∀ c, Ensures (next c) post) : Ensures (MonadState.get >>= next) post :=
  fun c result after hbound hrun => h c c result after hbound hrun

/-- A check that throws. -/
theorem Ensures.check {p : Prop} [Decidable p] {error : PyErr} {next : PUnit → CompileM β}
    {post : Nat → β → Prop} (h : ¬ p → Ensures (next ⟨⟩) post) :
    Ensures (if p then MonadExcept.throw error >>= next else next ⟨⟩) post := by
  by_cases hp : p
  · rw [if_pos hp]
    exact fun _ _ _ _ hrun => nomatch hrun
  · rw [if_neg hp]
    exact h hp

theorem Ensures.mono {compilation : CompileM α} {post post' : Nat → α → Prop}
    (h : Ensures compilation post) (himp : ∀ n value, post n value → post' n value) :
    Ensures compilation post' := by
  intro c value after hbound hrun
  obtain ⟨hafter, hle, hpost⟩ := h c value after hbound hrun
  exact ⟨hafter, hle, himp _ _ hpost⟩

end Ensures

theorem recordChoices_ensures (lengths : Option (List Nat)) :
    Ensures (recordChoices lengths) fun _ _ => True := by
  cases lengths with
  | none => exact Ensures.pure fun _ => trivial
  | some lengths =>
    unfold recordChoices
    refine (Ensures.updateStats _).after fun _ _ => Ensures.get fun c => ?_
    split
    · exact Ensures.throw
    · exact Ensures.pure fun _ => trivial

theorem compileScalar_ensures (snapshot : Except PyErr (ValueContract × Option (List Nat))) :
    Ensures (compileScalar snapshot) fun _ contract =>
      ∃ lengths, snapshot = .ok (contract, lengths) := by
  refine (Ensures.attempt snapshot).after fun pair hpair => ?_
  obtain ⟨contract, lengths⟩ := pair
  exact (recordChoices_ensures lengths).after fun _ _ => Ensures.pure fun _ => ⟨lengths, hpair⟩

/-! ## Float bounds -/

theorem extractExactOptionalF64_finite {value : PyObject} {name : String} {bound : Option Float64}
    (h : extractExactOptionalF64 value name = .ok bound) :
    ∀ number ∈ bound, number.isFinite = true := by
  unfold extractExactOptionalF64 at h
  split at h
  · cases h
    simp
  · split at h
    next hfinite =>
      cases h
      simpa using hfinite
    next => cases h
  · cases h

/-! ## The slots of a scalar -/

/-- A slot is read and extracted. -/
def Extracts {α : Type} (slot : Option PyObject) (extract : PyObject → Except PyErr α)
    (value : α) : Prop :=
  ∃ object, slot = some object ∧ extract object = .ok value

theorem extracts_of_bind {α : Type} {slot : Option PyObject} {object : PyObject}
    {extract : PyObject → Except PyErr α} {value : α} (hslot : getattr slot = .ok object)
    (h : extract object = .ok value) : Extracts slot extract value := by
  cases slot with
  | none => cases hslot
  | some found =>
    cases hslot
    exact ⟨object, rfl, h⟩

variable {metadata : Metadata} {choices : Option PyObject} {contract : ValueContract}
  {lengths : Option (List Nat)}

theorem snapshotString_ok {minLength maxLength : Option PyObject}
    (h : snapshotString metadata minLength maxLength choices = .ok (contract, lengths)) :
    ∃ description minimum maximum allowed,
      contract = .string description minimum (maximum.getD resultStringMaxScalars) allowed ∧
        Extracts minLength (extractExactOptionalUsize · "min_length" resultStringMaxScalars)
          minimum ∧
        Extracts maxLength (extractExactOptionalUsize · "max_length" resultStringMaxScalars)
          maximum ∧
        Extracts choices (extractStringChoices · minimum (maximum.getD resultStringMaxScalars))
          allowed := by
  simp only [snapshotString, bind_eq_ok, ite_throw_eq_ok] at h
  obtain ⟨description, -, minObject, hmin, minimum, hminimum, maxObject, hmax, maximum, hmaximum,
    -, choicesObject, hchoices, allowed, hallowed, h⟩ := h
  cases h
  exact ⟨description, minimum, maximum, allowed, rfl, extracts_of_bind hmin hminimum,
    extracts_of_bind hmax hmaximum, extracts_of_bind hchoices hallowed⟩

theorem snapshotInt64_ok {min max : Option PyObject}
    (h : snapshotInt64 metadata min max choices = .ok (contract, lengths)) :
    ∃ description minimum maximum allowed,
      contract = .int64 description minimum maximum allowed ∧
        Extracts min (extractExactOptionalI64 · "min") minimum ∧
        Extracts max (extractExactOptionalI64 · "max") maximum ∧
        Extracts choices (extractInt64Choices · minimum maximum) allowed := by
  simp only [snapshotInt64, bind_eq_ok, ite_throw_eq_ok] at h
  obtain ⟨description, -, minObject, hmin, minimum, hminimum, maxObject, hmax, maximum, hmaximum,
    -, choicesObject, hchoices, allowed, hallowed, h⟩ := h
  cases h
  exact ⟨description, minimum, maximum, allowed, rfl, extracts_of_bind hmin hminimum,
    extracts_of_bind hmax hmaximum, extracts_of_bind hchoices hallowed⟩

theorem snapshotFloat64_ok [FloatText] {min max : Option PyObject}
    (h : snapshotFloat64 metadata min max choices = .ok (contract, lengths)) :
    ∃ description minimum maximum allowed,
      contract = .float64 description minimum maximum allowed ∧
        Extracts min (extractExactOptionalF64 · "min") minimum ∧
        Extracts max (extractExactOptionalF64 · "max") maximum ∧
        Extracts choices (extractFloat64Choices · minimum maximum) allowed := by
  simp only [snapshotFloat64, bind_eq_ok, ite_throw_eq_ok] at h
  obtain ⟨description, -, minObject, hmin, minimum, hminimum, maxObject, hmax, maximum, hmaximum,
    -, choicesObject, hchoices, allowed, hallowed, h⟩ := h
  cases h
  exact ⟨description, minimum, maximum, allowed, rfl, extracts_of_bind hmin hminimum,
    extracts_of_bind hmax hmaximum, extracts_of_bind hchoices hallowed⟩

theorem snapshotBool_ok (h : snapshotBool metadata choices = .ok (contract, lengths)) :
    ∃ description allowed, contract = .bool description allowed ∧
      Extracts choices extractBoolChoices allowed := by
  simp only [snapshotBool, bind_eq_ok] at h
  obtain ⟨description, -, choicesObject, hchoices, allowed, hallowed, h⟩ := h
  cases h
  exact ⟨description, allowed, rfl, extracts_of_bind hchoices hallowed⟩

/-- The contract of a scalar is well formed. -/
theorem scalarSnapshot_wellFormed [FloatText] {behind : PyInstance} {contract : ValueContract}
    {lengths : Option (List Nat)} (h : scalarSnapshot behind = some (.ok (contract, lengths)))
    (validators : Nat) : WellFormed validators contract := by
  cases behind with
  | strValue metadata minLength maxLength choices =>
    obtain ⟨description, minimum, maximum, allowed, rfl, -⟩ :=
      snapshotString_ok (Option.some.inj h)
    trivial
  | int64Value metadata min max choices =>
    obtain ⟨description, minimum, maximum, allowed, rfl, -⟩ := snapshotInt64_ok (Option.some.inj h)
    trivial
  | float64Value metadata min max choices =>
    obtain ⟨description, minimum, maximum, allowed, rfl, ⟨_, -, hmin⟩, ⟨_, -, hmax⟩, -⟩ :=
      snapshotFloat64_ok (Option.some.inj h)
    exact ⟨extractExactOptionalF64_finite hmin, extractExactOptionalF64_finite hmax⟩
  | boolValue metadata choices =>
    obtain ⟨description, allowed, rfl, -⟩ := snapshotBool_ok (Option.some.inj h)
    trivial
  | listValue | objectValue | nullableValue | field | fieldSubclass | builtinSubclass | custom
  | other => cases h

/-! ## What compiling a value ensures -/

mutual

/-- How deep a contract nests; a scalar is one level. -/
def contractDepth : ValueContract → Nat
  | .list _ item _ _ => contractDepth item + 1
  | .object _ contract => fieldsDepth contract + 1
  | .nullable inner => contractDepth inner + 1
  | .string .. => 1
  | .int64 .. => 1
  | .float64 .. => 1
  | .bool .. => 1
  | .custom .. => 1

def fieldsDepth : ObjectContract → Nat
  | .nil => 0
  | .cons _ _ contract rest => max (contractDepth contract) (fieldsDepth rest)

end

/-- A scalar is one level. -/
theorem scalarSnapshot_depth [FloatText] {behind : PyInstance} {contract : ValueContract}
    {lengths : Option (List Nat)} (h : scalarSnapshot behind = some (.ok (contract, lengths))) :
    contractDepth contract = 1 := by
  cases behind with
  | strValue metadata minLength maxLength choices =>
    obtain ⟨_, _, _, _, rfl, -⟩ := snapshotString_ok (Option.some.inj h)
    rfl
  | int64Value metadata min max choices =>
    obtain ⟨_, _, _, _, rfl, -⟩ := snapshotInt64_ok (Option.some.inj h)
    rfl
  | float64Value metadata min max choices =>
    obtain ⟨_, _, _, _, rfl, -⟩ := snapshotFloat64_ok (Option.some.inj h)
    rfl
  | boolValue metadata choices =>
    obtain ⟨_, _, rfl, -⟩ := snapshotBool_ok (Option.some.inj h)
    rfl
  | listValue | objectValue | nullableValue | field | fieldSubclass | builtinSubclass | custom
  | other => cases h

mutual

/-- More validators keep a contract well formed. -/
theorem WellFormed.mono {n m : Nat} (hle : n ≤ m) : ∀ (contract : ValueContract),
    WellFormed n contract → WellFormed m contract
  | .string .., _ => trivial
  | .int64 .., _ => trivial
  | .float64 .., h => h
  | .bool .., _ => trivial
  | .list _ item _ _, h => WellFormed.mono hle item h
  | .object _ contract, h => ⟨h.1, FieldsWellFormed.mono hle contract h.2⟩
  | .nullable inner, h => WellFormed.mono hle inner h
  | .custom .., h => Nat.lt_of_lt_of_le h hle

theorem FieldsWellFormed.mono {n m : Nat} (hle : n ≤ m) : ∀ (contract : ObjectContract),
    FieldsWellFormed n contract → FieldsWellFormed m contract
  | .nil, _ => trivial
  | .cons _ _ contract rest, h =>
    ⟨WellFormed.mono hle contract h.1, FieldsWellFormed.mono hle rest h.2⟩

end

theorem getattr_ok {slot : Option PyObject} {value : PyObject} (h : getattr slot = .ok value) :
    slot = some value := by
  cases slot with
  | none => cases h
  | some found =>
    cases h
    rfl

theorem lookup_mem {α : Type} {key : Nat} {entries : List (Nat × α)} {value : α}
    (h : entries.lookup key = some value) : (key, value) ∈ entries := by
  induction entries with
  | nil => cases h
  | cons entry entries ih =>
    obtain ⟨name, found⟩ := entry
    rw [List.lookup_cons] at h
    split at h
    next heq =>
      obtain rfl := beq_iff_eq.mp heq
      obtain rfl := Option.some.inj h
      exact List.mem_cons_self
    next => exact List.mem_cons_of_mem _ (ih h)

/-- A binding is of a validator that is registered. -/
theorem bindCustom_ensures (identity : Nat) (metadata : Metadata)
    (rendered : Except PyErr PyObject) (path : String) :
    Ensures (bindCustom identity metadata rendered path) fun n binding =>
      binding.validatorId < n := by
  intro c binding after hbound hrun
  cases hmemo : c.customMemo.lookup identity with
  | some found =>
    have hsame : binding = found ∧ after = c := by
      unfold bindCustom at hrun
      rw [StateT.run_bind] at hrun
      simp only [StateT.run_get, pure_bind, hmemo] at hrun
      cases hrun
      exact ⟨rfl, rfl⟩
    obtain ⟨rfl, rfl⟩ := hsame
    exact ⟨hbound, le_refl _, hbound _ (lookup_mem hmemo)⟩
  | none =>
    unfold bindCustom at hrun
    rw [StateT.run_bind] at hrun
    simp only [StateT.run_get, pure_bind, hmemo] at hrun
    rw [StateT.run_bind] at hrun
    obtain ⟨⟨pair, c1⟩, hmetadata, hrun⟩ := bind_eq_ok.mp hrun
    obtain ⟨_, -, hpair⟩ := map_eq_ok.mp hmetadata
    cases hpair
    rw [StateT.run_bind] at hrun
    obtain ⟨⟨prompt, c2⟩, hprompt, hrun⟩ := bind_eq_ok.mp hrun
    obtain ⟨_, -, hpair⟩ := map_eq_ok.mp hprompt
    cases hpair
    cases hrun
    refine ⟨fun entry hentry => ?_, by simp, by simp⟩
    rcases List.mem_cons.mp hentry with rfl | hentry
    · simp
    · have hentry := hbound entry hentry
      simp only [List.length_append, List.length_singleton]
      omega

theorem enter_ensures (value : PyObject) (path : String) :
    Ensures (enter value path) fun _ _ => True := by
  unfold enter
  split
  · refine Ensures.get fun c => Ensures.check fun _ => ?_
    intro c value after hbound hrun
    cases hrun
    exact ⟨hbound, le_refl _, trivial⟩
  · exact Ensures.pure fun _ => trivial

theorem leave_ensures (value : PyObject) : Ensures (leave value) fun _ _ => True := by
  unfold leave
  split
  · intro c value after hbound hrun
    cases hrun
    exact ⟨hbound, le_refl _, trivial⟩
  · exact Ensures.pure fun _ => trivial

theorem rootFieldName_ok {object : PyObject} {name : String}
    (h : rootFieldName object = .ok name) : object = .str (.text name) := by
  unfold rootFieldName at h
  split at h
  next value =>
    cases value with
    | text value =>
      cases h
      rfl
    | surrogates => cases h
  next => cases h

/-- The keys of a dictionary are distinct, at least those that are strings. -/
def DistinctNames (entries : List (PyObject × PyObject)) : Prop :=
  entries.Pairwise fun a b => ∀ name, a.1 = .str name → b.1 ≠ .str name

/-- The fields of a dictionary have distinct names. -/
theorem names_nodup {heap : Heap} {entries : List (PyObject × PyObject)}
    {sources : List FieldSource}
    (hsources : List.Forall₂ (ReadsItem heap) entries sources) (h : DistinctNames entries) :
    (sources.map FieldSource.name).Nodup := by
  induction hsources with
  | nil => exact List.nodup_nil
  | @cons entry source entries sources hentry hrest ih =>
    obtain ⟨hfirst, hothers⟩ := List.pairwise_cons.mp h
    refine List.nodup_cons.mpr ⟨fun hmem => ?_, ih hothers⟩
    obtain ⟨other, hother, hname⟩ := List.mem_map.mp hmem
    obtain ⟨entry', hentry', hreads⟩ := forall₂_exists_left hrest hother
    refine hfirst entry' hentry' (.text source.name) (rootFieldName_ok hentry.1) ?_
    rw [rootFieldName_ok hreads.1, hname]

section Compile

variable [FloatText] (heap : Heap) {metadata : Metadata} {identity : Nat}

/-- The contract comes from the object, is well formed and has at most so many levels. -/
structure Made (levels : Nat) (value : PyObject) (validators : Nat) (contract : ValueContract) :
    Prop where
  snapshot : Snapshot heap value contract
  wellFormed : WellFormed validators contract
  depth : contractDepth contract ≤ levels

/-- The contract comes from the fields, is well formed and has at most so many levels. -/
structure FieldsMade (levels : Nat) (sources : List FieldSource) (validators : Nat)
    (contract : ObjectContract) : Prop where
  snapshot : FieldsSnapshot heap sources contract
  wellFormed : FieldsWellFormed validators contract
  depth : fieldsDepth contract ≤ levels

/-- A method that compiles one value of at most so many levels. -/
def CompilesValue (levels : Nat) (compile : PyObject → String → CompileM ValueContract) : Prop :=
  ∀ value path, Ensures (compile value path) (Made heap levels value)

variable {heap} {levels : Nat} {compile : PyObject → String → CompileM ValueContract}

theorem Made.mono {value : PyObject} {contract : ValueContract} :
    ∀ n m, n ≤ m → Made heap levels value n contract → Made heap levels value m contract :=
  fun _ _ hle h => ⟨h.snapshot, WellFormed.mono hle contract h.wellFormed, h.depth⟩

theorem FieldsMade.mono {sources : List FieldSource} {contract : ObjectContract} {n m : Nat}
    (hle : n ≤ m) (h : FieldsMade heap levels sources n contract) :
    FieldsMade heap levels sources m contract :=
  ⟨h.snapshot, FieldsWellFormed.mono hle contract h.wellFormed, h.depth⟩

theorem compileList_ensures (hcompile : CompilesValue heap levels compile)
    {item minItems maxItems : Option PyObject}
    (hheap : heap identity = .listValue metadata item minItems maxItems) (path : String) :
    Ensures (compileList compile metadata item minItems maxItems path)
      (Made heap (levels + 1) (.ref identity)) := by
  unfold compileList
  refine (Ensures.attempt _).after fun description _ => ?_
  refine (Ensures.attempt _).after fun bounds hbounds => ?_
  obtain ⟨minimum, maximum⟩ := bounds
  refine (Ensures.attempt _).after fun item' hitem => ?_
  obtain rfl := getattr_ok hitem
  refine (hcompile item' _).bind (fun _ => Made.mono) fun contract => ?_
  exact Ensures.pure fun n hmade =>
    ⟨.list hheap hbounds hmade.snapshot, hmade.wellFormed, Nat.add_le_add_right hmade.depth 1⟩

theorem compileNullable_ensures (hcompile : CompilesValue heap levels compile)
    {inner : Option PyObject}
    (hheap : heap identity = .nullableValue metadata inner) (path : String) :
    Ensures (compileNullable compile metadata inner path)
      (Made heap (levels + 1) (.ref identity)) := by
  unfold compileNullable
  refine (Ensures.attempt _).after fun description _ => ?_
  refine (Ensures.attempt _).after fun kind _ => ?_
  refine (Ensures.attempt _).after fun inner' hinner => ?_
  obtain rfl := getattr_ok hinner
  refine (hcompile inner' _).bind (fun _ => Made.mono) fun contract => Ensures.check fun _ => ?_
  exact Ensures.pure fun n hmade =>
    ⟨.nullable hheap hmade.snapshot, hmade.wellFormed, Nat.add_le_add_right hmade.depth 1⟩

/-- The loop over the fields of an object makes the contract of the fields it reads, whose names are
new and distinct. -/
theorem compileEntries_ensures (hcompile : CompilesValue heap levels compile) (path : String)
    (names : List String) (triples : List (PyObject × PyObject × PyObject)) :
    Ensures (compileEntries compile path names triples) fun n contract =>
      ∃ sources, List.Forall₂ ReadsTriple triples sources ∧
        FieldsMade heap levels sources n contract ∧ contract.names.Nodup ∧
          ∀ name ∈ contract.names, name ∉ names := by
  induction triples generalizing names with
  | nil =>
    exact Ensures.pure fun n =>
      ⟨[], .nil, ⟨.nil, trivial, Nat.zero_le _⟩, List.nodup_nil,
        fun _ h => absurd h List.not_mem_nil⟩
  | cons triple triples ih =>
    obtain ⟨nameObject, valueObject, requiredObject⟩ := triple
    unfold compileEntries
    refine (Ensures.attempt _).after fun name hname => Ensures.check fun hnew => ?_
    refine (Ensures.updateStats _).after fun _ _ => ?_
    refine (Ensures.attempt _).after fun required hrequired => ?_
    refine (hcompile valueObject _).bind (fun _ => Made.mono) fun contract => ?_
    refine (ih (names ++ [name])).bind (fun rest n m hle h => ?_) fun rest => ?_
    · obtain ⟨sources, hsources, hmade, hnames⟩ := h
      exact ⟨sources, hsources, hmade.mono hle, hnames⟩
    · refine Ensures.pure fun n hrest hvalue => ?_
      obtain ⟨sources, hsources, hmade, hnodup, hfresh⟩ := hrest
      refine ⟨{ name, value := valueObject, required } :: sources,
        .cons ⟨⟨_, hname⟩, rfl, ⟨_, hrequired⟩⟩ hsources,
        ⟨.cons hvalue.snapshot hmade.snapshot, ⟨hvalue.wellFormed, hmade.wellFormed⟩,
          Nat.max_le.mpr ⟨hvalue.depth, hmade.depth⟩⟩, ?_, ?_⟩
      · refine List.nodup_cons.mpr ⟨fun hmem => hfresh name hmem ?_, hnodup⟩
        exact List.mem_append_right _ List.mem_cons_self
      · intro found hfound
        rcases List.mem_cons.mp hfound with rfl | hfound
        · simpa using hnew
        · exact fun hmem => hfresh found hfound (List.mem_append_left _ hmem)

theorem compileObject_ensures (hcompile : CompilesValue heap levels compile)
    {fields : Option PyObject}
    (hheap : heap identity = .objectValue metadata fields) (path : String) :
    Ensures (compileObject compile metadata fields path)
      (Made heap (levels + 1) (.ref identity)) := by
  unfold compileObject
  refine (Ensures.attempt _).after fun description _ => ?_
  refine (Ensures.attempt _).after fun fields' hfields => ?_
  obtain rfl := getattr_ok hfields
  refine (Ensures.attempt _).after fun triples htriples => ?_
  refine (compileEntries_ensures hcompile path [] triples).bind (fun contract n m hle h => ?_)
    fun contract => ?_
  · obtain ⟨sources, hsources, hmade, hnames⟩ := h
    exact ⟨sources, hsources, hmade.mono hle, hnames⟩
  · refine Ensures.pure fun n h => ?_
    obtain ⟨sources, hsources, hmade, hnodup, -⟩ := h
    exact ⟨.object hheap htriples hsources hnodup hmade.snapshot, ⟨hnodup, hmade.wellFormed⟩,
      Nat.add_le_add_right hmade.depth 1⟩

theorem compileCustom_ensures
    {rendered : Except PyErr PyObject} (hheap : heap identity = .custom metadata rendered)
    (path : String) :
    Ensures (compileCustom identity metadata rendered path)
      (Made heap (levels + 1) (.ref identity)) := by
  refine (bindCustom_ensures identity metadata rendered path).bind
    (fun binding n m hle h => Nat.lt_of_lt_of_le h hle) fun binding => ?_
  exact Ensures.pure fun n hregistered => ⟨.custom hheap, hregistered, Nat.le_add_left 1 levels⟩

theorem compileScalar_made
    {snapshot : Except PyErr (ValueContract × Option (List Nat))}
    (h : scalarSnapshot (heap identity) = some snapshot) :
    Ensures (compileScalar snapshot) (Made heap (levels + 1) (.ref identity)) := by
  refine (compileScalar_ensures snapshot).mono fun n contract hok => ?_
  obtain ⟨lengths, rfl⟩ := hok
  exact ⟨.scalar h, scalarSnapshot_wellFormed h n,
    scalarSnapshot_depth h ▸ Nat.le_add_left 1 levels⟩

theorem compileValueInner_ensures (hcompile : CompilesValue heap levels compile) (value : PyObject)
    (path : String) :
    Ensures (compileValueInner heap compile value path) (Made heap (levels + 1) value) := by
  unfold compileValueInner
  cases value with
  | ref identity =>
    dsimp only
    cases hheap : heap identity with
    | strValue => exact compileScalar_made (by rw [hheap]; rfl)
    | int64Value => exact compileScalar_made (by rw [hheap]; rfl)
    | float64Value => exact compileScalar_made (by rw [hheap]; rfl)
    | boolValue => exact compileScalar_made (by rw [hheap]; rfl)
    | listValue => exact compileList_ensures hcompile hheap path
    | objectValue => exact compileObject_ensures hcompile hheap path
    | nullableValue => exact compileNullable_ensures hcompile hheap path
    | custom => exact compileCustom_ensures hheap path
    | field | fieldSubclass | builtinSubclass | other => exact Ensures.throw
  | none | bool | int | float | str | tuple | list | dict => exact Ensures.throw

/-- **A value that compiles leaves a derivation of its contract**, by induction on the levels. -/
theorem compileValue_ensures (levels : Nat) :
    CompilesValue heap levels (compileValue heap levels) := by
  induction levels with
  | zero => exact fun _ _ => Ensures.throw
  | succ levels ih =>
    intro value path
    unfold compileValue
    refine (Ensures.updateStats _).after fun _ _ => Ensures.get fun c => Ensures.check fun _ => ?_
    refine (enter_ensures value path).after fun _ _ => ?_
    refine (compileValueInner_ensures ih value path).bind (fun _ => Made.mono) fun contract => ?_
    refine (leave_ensures value).after fun _ _ => ?_
    exact Ensures.pure fun _ hmade => hmade

theorem compileObjectFields_ensures (hcompile : CompilesValue heap levels compile) (path : String)
    (items : List (PyObject × PyObject)) :
    Ensures (compileObjectFields heap compile path items) fun n contract =>
      ∃ sources, List.Forall₂ (ReadsItem heap) items sources ∧
        FieldsMade heap levels sources n contract := by
  induction items with
  | nil => exact Ensures.pure fun n => ⟨[], .nil, .nil, trivial, Nat.zero_le _⟩
  | cons item items ih =>
    obtain ⟨nameObject, spec⟩ := item
    unfold compileObjectFields
    refine (Ensures.attempt _).after fun name hname => ?_
    refine (Ensures.attempt _).after fun pair hspec => ?_
    obtain ⟨valueObject, required⟩ := pair
    refine (Ensures.updateStats _).after fun _ _ => ?_
    refine (hcompile valueObject _).bind (fun _ => Made.mono) fun contract => ?_
    refine ih.bind (fun rest n m hle h => ?_) fun rest => ?_
    · obtain ⟨sources, hsources, hmade⟩ := h
      exact ⟨sources, hsources, hmade.mono hle⟩
    · refine Ensures.pure fun n hrest hvalue => ?_
      obtain ⟨sources, hsources, hmade⟩ := hrest
      exact ⟨{ name, value := valueObject, required } :: sources,
        .cons ⟨hname, hspec⟩ hsources, .cons hvalue.snapshot hmade.snapshot,
        ⟨hvalue.wellFormed, hmade.wellFormed⟩, Nat.max_le.mpr ⟨hvalue.depth, hmade.depth⟩⟩

/-- **What a schema that compiles was made from.** Its root is a dictionary whose fields are read
one by one, and its contract is well formed for the validators it registers. -/
theorem compileActSchema_sound {schema : PyObject} {compiled : CompiledActSchema}
    (h : compileActSchema heap schema = .ok compiled) :
    ∃ entries sources, schema = .dict entries ∧ List.Forall₂ (ReadsItem heap) entries sources ∧
      FieldsMade heap (schemaMaxDepth + 1 - 2) sources compiled.customValidators.length
        compiled.root := by
  obtain ⟨entries, hentries, h⟩ := bind_eq_ok.mp h
  obtain ⟨⟨root, compiler⟩, hrun, h⟩ := bind_eq_ok.mp h
  simp only [ite_throw_eq_ok] at h
  obtain ⟨-, -, -, h⟩ := h
  cases h
  have hschema : schema = .dict entries := by
    cases schema with
    | dict =>
      cases hentries
      rfl
    | none | bool | int | float | str | tuple | list | ref => cases hentries
  obtain ⟨-, -, sources, hsources, hmade⟩ :=
    compileObjectFields_ensures (compileValue_ensures _) "" entries Compiler.start root compiler
      (fun entry hentry => absurd hentry List.not_mem_nil) hrun
  exact ⟨entries, sources, hschema, hsources, hmade⟩

end Compile

end Troupe.Agent
