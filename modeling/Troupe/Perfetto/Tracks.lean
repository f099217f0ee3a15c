import Troupe.Core.Validate
import Troupe.Lib.Lanes
import Troupe.Lib.Number

/-! # Tracks of a trace

`identity.rs` and `tracks.rs` of the Perfetto exporter, with the errors and the structural budget of
`collect.rs`. A track is named by a canonical identity, a path whose variable parts carry their
length. The exporter numbers the identities of a trace densely, in their order.

* `definitions` is a `BTreeMap`; it is kept in the order of insertion, and sorted where the code
  iterates over it.
* A method that takes the budget by `&mut` returns it. -/

namespace Troupe.Perfetto

open Troupe.Lib Troupe.Core

/-! ## Errors -/

/-- `StructuralIndexDimension`. -/
inductive StructuralIndexDimension where
  | entries
  | ownedPayloadBytes
deriving DecidableEq

/-- `IdentitySpace`. -/
inductive IdentitySpace where
  | track
  | flow
deriving DecidableEq

/-- `ProjectionError`. A fault of the validator that is a panic is kept as one. -/
inductive ProjectionError where
  | invalidReference (fault : Fault ReferenceValidationError)
  | sequenceMismatch (expected actual : Nat)
  | runMismatch
  | watermarkMismatch (captured exported observed : Nat)
  | timestampOutOfRange (sequence elapsedNs : Nat)
  | identityExhausted (space : IdentitySpace) (required maximum : Nat)
  | structuralIndexLimitExceeded (dimension : StructuralIndexDimension) (limit required : Nat)
  | unknownIdentity (identity : String)
  | conflictingTrack (identity : String)
  | missingSpan (sequence : Nat)
  | duplicateActUsage (identity : String)
  | projectionIncomplete (expected projected : Nat)
  | protobufEncode
deriving DecidableEq

/-! ## The structural budget -/

/-- `StructuralIndexLimits`. -/
structure StructuralIndexLimits where
  entries : Nat
  ownedPayloadBytes : Nat
deriving DecidableEq

/-- `StructuralIndexLimits::FIXED`. -/
def StructuralIndexLimits.fixed : StructuralIndexLimits := ⟨1000000, 64 * 1024 * 1024⟩

/-- `StructuralIndexUsage`. -/
structure StructuralIndexUsage where
  entries : Nat
  ownedPayloadBytes : Nat
deriving DecidableEq

/-- `StructuralIndexBudget`. -/
structure StructuralIndexBudget where
  limits : StructuralIndexLimits
  usage : StructuralIndexUsage
deriving DecidableEq

namespace StructuralIndexBudget

/-- `StructuralIndexBudget::new`. -/
def new (limits : StructuralIndexLimits) : StructuralIndexBudget := ⟨limits, ⟨0, 0⟩⟩

/-- The check `reserve` makes on one dimension. -/
def required (dimension : StructuralIndexDimension) (limit used more : Nat) :
    Except ProjectionError Nat :=
  match checkedAdd u64Max used more with
  | none => .error (.structuralIndexLimitExceeded dimension limit u64Max)
  | some required =>
    if limit < required then .error (.structuralIndexLimitExceeded dimension limit required)
    else .ok required

/-- `reserve`. -/
def reserve (budget : StructuralIndexBudget) (entries ownedPayloadBytes : Nat) :
    Except ProjectionError StructuralIndexBudget := do
  let entries ← required .entries budget.limits.entries budget.usage.entries entries
  let payload ← required .ownedPayloadBytes budget.limits.ownedPayloadBytes
    budget.usage.ownedPayloadBytes ownedPayloadBytes
  .ok { budget with usage := ⟨entries, payload⟩ }

/-- `reserve_owned`. A list of texts in memory has fewer than `2 ^ 64` bytes, so the additions of
their lengths do not overflow. -/
def reserveOwned (budget : StructuralIndexBudget) (entries : Nat) (values : List String) :
    Except ProjectionError StructuralIndexBudget :=
  budget.reserve entries (values.map String.utf8ByteSize).sum

end StructuralIndexBudget

/-! ## Identities -/

/-- `component`. -/
def component (value : String) : String := toString value.utf8ByteSize ++ ":" ++ value

/-- `DenseIdentityMap`: the identities in their order, numbered from one. -/
structure DenseIdentityMap where
  identities : List String

namespace DenseIdentityMap

/-- `DenseIdentityMap::assign`, of a set given without repetitions. -/
def assign (identities : List String) (space : IdentitySpace) (maximum : Nat) :
    Except ProjectionError DenseIdentityMap :=
  if maximum < identities.length then
    .error (.identityExhausted space identities.length maximum)
  else
    .ok ⟨identities.mergeSort fun a b => decide (a ≤ b)⟩

/-- `DenseIdentityMap::id`. -/
def id (map : DenseIdentityMap) (identity : String) : Except ProjectionError Nat :=
  if identity ∈ map.identities then .ok (map.identities.idxOf identity + 1)
  else .error (.unknownIdentity identity)

end DenseIdentityMap

/-! ## Counter values -/

/-- `str::parse` of an `i64`, on canonical numbers. -/
def parseI64 (value : String) : Option Int :=
  (parseInt? value.toList).filter fun number => decide (-(2 : Int) ^ 63 ≤ number ∧ number < 2 ^ 63)

/-- The factors of two of a number, and what is left. -/
def stripTwos (value : Nat) : Nat × Nat :=
  if h : value % 2 = 0 ∧ value ≠ 0 then
    have : value / 2 < value := Nat.div_lt_self (Nat.pos_of_ne_zero h.2) (by decide)
    let (odd, factors) := stripTwos (value / 2)
    (odd, factors + 1)
  else (value, 0)
termination_by value

/-- Divide by five so many times, exactly. -/
def divideByFives : Nat → Nat → Option Nat
  | 0, value => some value
  | times + 1, value => if value % 5 = 0 then divideByFives times (value / 5) else none

/-- `exact_finite_double`, on canonical numbers. The coefficient is a number instead of digits. -/
def exactFiniteDouble (value : String) : Option Float64 :=
  let parsed := parseFloat value.toList
  let unsigned := match value.toList with
    | '-' :: rest => rest
    | text => text
  let integer := unsigned.takeWhile (· ≠ '.')
  let fraction := (unsigned.dropWhile (· ≠ '.')).drop 1
  let coefficient := (integer ++ fraction).dropWhile (· == '0')
  let zero : Float64 := .ofScientific 0 0
  if !parsed.isFinite then none
  else if coefficient.isEmpty then if parsed == zero then some parsed else none
  else if 2048 < coefficient.length || parsed == zero then none
  else do
    let value ← divideByFives fraction.length (Lib.digitsValue coefficient)
    let (odd, factorsOfTwo) := stripTwos value
    let binaryExponent : Int := factorsOfTwo - fraction.length
    if 2 ^ 53 ≤ odd then none
    else if binaryExponent < -1074 ∨ 1023 < binaryExponent + Nat.log2 odd then none
    else some parsed

/-- `ExactCounterValue`. -/
inductive ExactCounterValue where
  | integer (value : Int)
  | double (value : Float64)

/-- `exact_counter_value`. -/
def exactCounterValue (value : String) : Option ExactCounterValue :=
  match parseI64 value with
  | some integer => some (.integer integer)
  | none => (exactFiniteDouble value).map .double

/-! ## The catalog -/

/-- `TrackKind`. -/
inductive TrackKind where
  | timeline
  | counter
deriving DecidableEq

/-- `TrackDefinition`. -/
structure TrackDefinition where
  canonicalIdentity : String
  parentIdentity : Option String
  name : String
  depth : Nat
  kind : TrackKind
deriving DecidableEq

/-- `TrackCatalogBuilder`. -/
structure TrackCatalogBuilder where
  definitions : List TrackDefinition

/-- `ROOT_TRACK_IDENTITY`. -/
def rootTrackIdentity : String := "production"

/-- `scope_segments`. -/
def scopeSegments (scope : DiagnosticScope) : List (String × String × String) :=
  (scope.sceneId.toList.map fun id => ("scene", id.value, "Scene")) ++
    (scope.actorId.toList.map fun id => ("actor", id.value, "Actor")) ++
    (scope.cueId.toList.map fun id => ("cue", id.value, "Cue")) ++
    (scope.effectId.toList.map fun id => ("effect", id.value, "Effect")) ++
    (scope.actId.toList.map fun id => ("act", id.value, "Act")) ++
    (scope.toolCallId.toList.map fun id => ("tool", id.value, "Tool")) ++
    (scope.sessionGeneration.toList.map fun generation =>
      ("session", toString generation.get, "Session generation"))

/-- The identity of the segment with this tag and value. -/
def segmentIdentity (parent tag value : String) : String :=
  parent ++ "/" ++ tag ++ ":" ++ component value

/-- `scope_track_identity`. -/
def scopeTrackIdentity (scope : DiagnosticScope) : String :=
  (scopeSegments scope).foldl (fun parent (tag, value, _) => segmentIdentity parent tag value)
    rootTrackIdentity

/-- `counter_track_identity`. -/
def counterTrackIdentity (parent seriesIdentity : String) : String :=
  segmentIdentity parent "counter" seriesIdentity

namespace TrackCatalogBuilder

/-- `definitions.get`. -/
def get? (builder : TrackCatalogBuilder) (identity : String) : Option TrackDefinition :=
  builder.definitions.find? fun definition => definition.canonicalIdentity = identity

/-- The depth `register` gives a track. -/
def depthUnder (builder : TrackCatalogBuilder) : Option String → Except ProjectionError Nat
  | none => .ok 0
  | some parent =>
    match builder.get? parent with
    | none => .error (.unknownIdentity parent)
    | some definition => .ok (definition.depth + 1)

/-- `register`. -/
def register (builder : TrackCatalogBuilder) (canonicalIdentity : String)
    (parentIdentity : Option String) (name : String) (kind : TrackKind)
    (budget : StructuralIndexBudget) :
    Except ProjectionError (TrackCatalogBuilder × StructuralIndexBudget) := do
  let depth ← builder.depthUnder parentIdentity
  match builder.get? canonicalIdentity with
  | some existing =>
    if existing.parentIdentity ≠ parentIdentity ∨ existing.name ≠ name ∨ existing.depth ≠ depth ∨
        existing.kind ≠ kind then
      .error (.conflictingTrack canonicalIdentity)
    else .ok (builder, budget)
  | none => do
    let budget ← budget.reserveOwned 1
      ([canonicalIdentity, canonicalIdentity] ++ parentIdentity.toList ++ [name])
    .ok (⟨builder.definitions ++ [⟨canonicalIdentity, parentIdentity, name, depth, kind⟩]⟩, budget)

/-- `TrackCatalogBuilder::new`. -/
def new (rootName : String) (budget : StructuralIndexBudget) :
    Except ProjectionError (TrackCatalogBuilder × StructuralIndexBudget) :=
  register ⟨[]⟩ rootTrackIdentity none rootName .timeline budget

/-- `register_metadata`. -/
def registerMetadata (builder : TrackCatalogBuilder) (name : String)
    (budget : StructuralIndexBudget) :
    Except ProjectionError (TrackCatalogBuilder × StructuralIndexBudget) :=
  builder.register (rootTrackIdentity ++ "/metadata") (some rootTrackIdentity) name .timeline budget

/-- The loop of `register_scope`. -/
def registerSegments : List (String × String × String) → String → TrackCatalogBuilder →
    StructuralIndexBudget →
    Except ProjectionError (String × TrackCatalogBuilder × StructuralIndexBudget)
  | [], parent, builder, budget => .ok (parent, builder, budget)
  | (tag, value, label) :: rest, parent, builder, budget => do
    let identity := segmentIdentity parent tag value
    let (builder, budget) ← builder.register identity (some parent) (label ++ " " ++ value)
      .timeline budget
    registerSegments rest identity builder budget

/-- `register_scope`. -/
def registerScope (builder : TrackCatalogBuilder) (scope : DiagnosticScope)
    (budget : StructuralIndexBudget) :
    Except ProjectionError (String × TrackCatalogBuilder × StructuralIndexBudget) :=
  registerSegments (scopeSegments scope) rootTrackIdentity builder budget

/-- `register_counter`. -/
def registerCounter (builder : TrackCatalogBuilder) (parent seriesIdentity name : String)
    (budget : StructuralIndexBudget) :
    Except ProjectionError (TrackCatalogBuilder × StructuralIndexBudget) :=
  builder.register (counterTrackIdentity parent seriesIdentity) (some parent) name .counter budget

end TrackCatalogBuilder

/-- `TrackCatalog`. -/
structure TrackCatalog where
  definitions : List TrackDefinition
  ids : DenseIdentityMap
  descriptorOrder : List TrackDefinition

/-- The order of the descriptors: by depth, then by identity. -/
def descriptorLe (left right : TrackDefinition) : Bool :=
  decide (left.depth < right.depth) ||
    left.depth == right.depth && decide (left.canonicalIdentity ≤ right.canonicalIdentity)

/-- `TrackCatalogBuilder::finish`. -/
def TrackCatalogBuilder.finish (builder : TrackCatalogBuilder) (maximumIds : Nat)
    (budget : StructuralIndexBudget) :
    Except ProjectionError (TrackCatalog × StructuralIndexBudget) := do
  let identities := builder.definitions.map (·.canonicalIdentity)
  let sorted := identities.mergeSort fun a b => decide (a ≤ b)
  let budget ← sorted.foldlM (fun budget identity => do
    let budget ← budget.reserveOwned 1 [identity]
    budget.reserveOwned 1 [identity]) budget
  let ids ← DenseIdentityMap.assign identities .track maximumIds
  .ok (⟨builder.definitions, ids, builder.definitions.mergeSort descriptorLe⟩, budget)

/-- `TrackDescriptorInfo`. -/
structure TrackDescriptorInfo where
  uuid : Nat
  parentUuid : Option Nat
  name : String
  isCounter : Bool
deriving DecidableEq

/-- The descriptor of one track; an identity the catalog has not numbered is a panic. -/
def TrackCatalog.descriptor (catalog : TrackCatalog) (definition : TrackDefinition) :
    Option TrackDescriptorInfo := do
  let uuid ← (catalog.ids.id definition.canonicalIdentity).toOption
  let parentUuid ← match definition.parentIdentity with
    | none => some none
    | some parent => ((catalog.ids.id parent).toOption).map some
  some ⟨uuid, parentUuid, definition.name, definition.kind == .counter⟩

/-- `TrackCatalog::descriptors`; `none` when one of its `expect`s fails. -/
def TrackCatalog.descriptors (catalog : TrackCatalog) : Option (List TrackDescriptorInfo) :=
  catalog.descriptorOrder.mapM catalog.descriptor

/-! ## Lanes of spans -/

/-- `SpanInterval`. -/
structure SpanInterval where
  startSequence : SchemaU64
  finishSequence : Option SchemaU64
  parentTrackIdentity : String
  role : String
  displayName : String
deriving DecidableEq

/-- The order in which `allocate_span_lanes` goes through the intervals. -/
def spanIntervalLe (left right : SpanInterval) : Bool :=
  decide (left.parentTrackIdentity < right.parentTrackIdentity) ||
    left.parentTrackIdentity == right.parentTrackIdentity &&
      (decide (left.role < right.role) ||
        left.role == right.role && decide (left.startSequence ≤ right.startSequence))

/-- The interval of sequences of a span. -/
def SpanInterval.sequences (interval : SpanInterval) : Lib.Interval Nat :=
  ⟨interval.startSequence.get, interval.finishSequence.map SchemaU64.get⟩

/-- A number in twenty digits. -/
def laneText (lane : Nat) : String :=
  let digits := Nat.toDigits 10 lane
  String.ofList (List.replicate (20 - digits.length) '0' ++ digits)

/-- The identity of a lane. -/
def laneIdentity (parent role : String) (lane : Nat) : String :=
  parent ++ "/span:" ++ component role ++ "/lane:" ++ laneText lane

/-- The name of a lane. -/
def laneName (displayName : String) (lane : Nat) : String :=
  if lane ≠ 0 then displayName ++ " [lane " ++ toString (lane + 1) ++ "]" else displayName

/-- `allocate_span_lanes`, for the intervals of one group with their lanes. -/
def registerLanes : List (SpanInterval × Nat) → TrackCatalogBuilder → StructuralIndexBudget →
    Except ProjectionError
      (List (SchemaU64 × String) × TrackCatalogBuilder × StructuralIndexBudget)
  | [], builder, budget => .ok ([], builder, budget)
  | (interval, lane) :: rest, builder, budget => do
    let identity := laneIdentity interval.parentTrackIdentity interval.role lane
    let (builder, budget) ← builder.register identity (some interval.parentTrackIdentity)
      (laneName interval.displayName lane) .timeline budget
    let budget ← budget.reserveOwned 1 [identity]
    let (assignments, builder, budget) ← registerLanes rest builder budget
    .ok ((interval.startSequence, identity) :: assignments, builder, budget)

/-- Whether two intervals are of one group. -/
def sameGroup (left right : SpanInterval) : Bool :=
  right.parentTrackIdentity == left.parentTrackIdentity && right.role == left.role

/-- The lanes of the intervals of one group. -/
def groupLanes (group : List SpanInterval) : List (SpanInterval × Nat) :=
  group.zip (allocateLanes [] (group.map SpanInterval.sequences))

/-- `allocate_span_lanes`: the track of each span, by the sequence it starts at. -/
def allocateSpanLanes (builder : TrackCatalogBuilder) (intervals : List SpanInterval)
    (budget : StructuralIndexBudget) :
    Except ProjectionError
      (List (SchemaU64 × String) × TrackCatalogBuilder × StructuralIndexBudget) :=
  let groups := (intervals.mergeSort spanIntervalLe).splitBy sameGroup
  registerLanes (groups.flatMap groupLanes) builder budget

end Troupe.Perfetto
