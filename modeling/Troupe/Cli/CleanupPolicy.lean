import Mathlib.Data.Prod.Lex
import Mathlib.Order.WithBot
import Troupe.Cli.Timestamp
import Troupe.Core.Serialize
import Troupe.Lib.Result

/-! # What a cleanup selects

`select_preview` of `cleanup_policy.rs`: from the inventory of a production's archives and one policy,
the runs whose archives a cleanup deletes.

* Paths are any linearly ordered type. The times of a run are those `UtcTimestamp::parse` accepted.
* `Listed` is what the constructors of an inventory entry make (`completed_listed` and the others),
  and `CleanupInventory` a list of such entries of different paths.
* The age of `OlderThan` is in seconds, as `ArchiveAge` is.
* A panic is kept as one: each `expect` and each subtraction. The sums of sizes fit into 128 bits. -/

namespace Troupe.Cli

open Troupe.Lib Troupe.Core

/-! ## The entries of an inventory -/

/-- `CleanupPolicyErrorCode`, of the errors of the modelled functions. -/
inductive CleanupPolicyErrorCode where
  | targetNotFound
  | clockFailed
deriving DecidableEq

/-- `CleanupPolicyError`. -/
structure CleanupPolicyError where
  code : CleanupPolicyErrorCode
  detail : String
deriving DecidableEq

/-- `CleanupSelectionReason`. -/
inductive CleanupSelectionReason where
  | exactRun
  | endedBeforeCutoff
  | outsideKeepCount
  | totalBytesOverBudget
deriving DecidableEq

/-- `CleanupProtectionReason`. -/
inductive CleanupProtectionReason where
  | active
  | leased
  | ambiguousOwner
  | invalidArchive
  | incompatibleArchive
  | missingArchive
  | metadataInvalid
  | unsafeArchiveEntry
deriving DecidableEq

/-- `CleanupSkipReason`. -/
inductive CleanupSkipReason where
  | incompleteArchive
  | newerThanCutoff
  | withinKeepCount
  | withinTotalByteBudget
deriving DecidableEq

/-- `CleanupOperationFailure`. -/
inductive CleanupOperationFailure where
  | protectedBytesUnknown
  | protectedBytesExceedBudget
deriving DecidableEq

/-- `CleanupArchiveState`. -/
inductive CleanupArchiveState where
  | completed
  | incomplete
  | unknown
deriving DecidableEq

/-- `UtcTimestamp`. -/
structure UtcTimestamp where
  instant : UtcInstant
  encoded : String
  /-- Built by `UtcTimestamp::parse`. -/
  parsed : parseUtcTimestamp encoded.toUTF8.data.toList = some instant
deriving DecidableEq

/-- `parse_inventory_timestamp`. -/
def parseInventoryTimestamp (value : String) : Except CleanupPolicyError UtcTimestamp :=
  match h : parseUtcTimestamp value.toUTF8.data.toList with
  | some instant => .ok ⟨instant, value, h⟩
  | none => .error ⟨.clockFailed, "timestamp is not canonical UTC RFC3339: " ++ value⟩

/-- `CleanupInventoryRun`. -/
structure CleanupInventoryRun (Path : Type) where
  runId : Option CanonicalUuid
  path : Path
  state : CleanupArchiveState
  bytes : Option UInt64
  startedAt : Option UtcTimestamp
  endedAt : Option UtcTimestamp
  protectionReason : Option CleanupProtectionReason
  selected : Bool
  selectionReason : Option CleanupSelectionReason
  skippedReason : Option CleanupSkipReason
deriving DecidableEq

namespace CleanupInventoryRun

variable {Path : Type} {run : CleanupInventoryRun Path}

/-- `completed`. -/
def completed (runId : CanonicalUuid) (path : Path) (bytes : UInt64) (startedAt endedAt : String) :
    Except CleanupPolicyError (CleanupInventoryRun Path) := do
  let startedAt ← parseInventoryTimestamp startedAt
  let endedAt ← parseInventoryTimestamp endedAt
  return {
    runId, path, state := .completed, bytes, startedAt, endedAt
    protectionReason := none
    selected := false
    selectionReason := none
    skippedReason := none }

/-- `incomplete`. -/
def incomplete (runId : CanonicalUuid) (path : Path) (bytes : UInt64) (startedAt : String) :
    Except CleanupPolicyError (CleanupInventoryRun Path) := do
  let startedAt ← parseInventoryTimestamp startedAt
  return {
    runId, path, state := .incomplete, bytes, startedAt
    endedAt := none
    protectionReason := none
    selected := false
    selectionReason := none
    skippedReason := none }

/-- `protected`. -/
def «protected» (runId : Option CanonicalUuid) (path : Path) (bytes : Option UInt64)
    (reason : CleanupProtectionReason) : CleanupInventoryRun Path where
  runId := runId
  path := path
  state := .unknown
  bytes := bytes
  startedAt := none
  endedAt := none
  protectionReason := reason
  selected := false
  selectionReason := none
  skippedReason := none

/-- `with_protection`. -/
def withProtection (run : CleanupInventoryRun Path) (reason : CleanupProtectionReason) :
    CleanupInventoryRun Path :=
  { run with protectionReason := some reason }

/-- The entry `inspect_candidate` makes of an archive whose metadata it has read. -/
def inspected (runId : CanonicalUuid) (path : Path) (bytes : UInt64) (startedAt : UtcTimestamp)
    (endedAt : Option UtcTimestamp) (cleanShutdown : Bool)
    (protectionReason : Option CleanupProtectionReason) : CleanupInventoryRun Path where
  runId := runId
  path := path
  state := if cleanShutdown && endedAt.isSome then .completed else .incomplete
  bytes := bytes
  startedAt := startedAt
  endedAt := endedAt
  protectionReason := protectionReason
  selected := false
  selectionReason := none
  skippedReason := none

/-- `is_eligible_completed`. -/
def isEligibleCompleted (run : CleanupInventoryRun Path) : Bool :=
  run.protectionReason.isNone && run.state == .completed

/-- What an entry of an inventory is before a policy is applied. -/
structure Listed (run : CleanupInventoryRun Path) : Prop where
  bytes : run.protectionReason = none → run.bytes.isSome = true
  known : run.protectionReason = none → run.state ≠ .unknown
  ended : run.state = .completed → run.endedAt.isSome = true
  unselected : run.selected = false
  noSelection : run.selectionReason = none
  noSkip : run.skippedReason = none

theorem completed_listed {runId : CanonicalUuid} {path : Path} {bytes : UInt64}
    {startedAt endedAt : String}
    (h : completed runId path bytes startedAt endedAt = .ok run) : run.Listed := by
  obtain ⟨started, -, h⟩ := bind_eq_ok.mp h
  obtain ⟨ended, -, h⟩ := bind_eq_ok.mp h
  cases h
  exact ⟨fun _ => rfl, fun _ => by simp, fun _ => rfl, rfl, rfl, rfl⟩

theorem incomplete_listed {runId : CanonicalUuid} {path : Path} {bytes : UInt64} {startedAt : String}
    (h : incomplete runId path bytes startedAt = .ok run) :
    run.Listed := by
  obtain ⟨started, -, h⟩ := bind_eq_ok.mp h
  cases h
  exact ⟨fun _ => rfl, fun _ => by simp, fun h => (nomatch h), rfl, rfl, rfl⟩

theorem protected_listed (runId : Option CanonicalUuid) (path : Path) (bytes : Option UInt64)
    (reason : CleanupProtectionReason) :
    («protected» runId path bytes reason).Listed :=
  ⟨fun h => (nomatch h), fun h => (nomatch h), fun h => (nomatch h), rfl, rfl, rfl⟩

theorem Listed.withProtection (h : run.Listed)
    (reason : CleanupProtectionReason) : (run.withProtection reason).Listed :=
  ⟨fun h => (nomatch h), fun h => (nomatch h), h.ended, h.unselected, h.noSelection, h.noSkip⟩

theorem inspected_listed (runId : CanonicalUuid) (path : Path) (bytes : UInt64)
    (startedAt : UtcTimestamp) (endedAt : Option UtcTimestamp) (cleanShutdown : Bool)
    (protectionReason : Option CleanupProtectionReason) :
    (inspected runId path bytes startedAt endedAt cleanShutdown protectionReason).Listed := by
  refine ⟨fun _ => rfl, fun _ => ?_, fun h => ?_, rfl, rfl, rfl⟩
  · unfold inspected
    dsimp only
    split <;> simp
  · unfold inspected at h ⊢
    dsimp only at h ⊢
    split at h
    · rename_i hended
      exact (Bool.and_eq_true_iff.mp hended).2
    · cases h

end CleanupInventoryRun

/-- The archives of a production, each in a directory of its own. -/
structure CleanupInventory (Path : Type) where
  runs : List (CleanupInventoryRun Path)
  listed : ∀ run ∈ runs, run.Listed
  distinct : (runs.map CleanupInventoryRun.path).Nodup

/-! ## The order -/

/-- `compare_optional_timestamp` and `compare_optional_run_id`: what is absent is last. -/
def compareOptional {α : Type} (compare : α → α → Ordering) : Option α → Option α → Ordering
  | some left, some right => compare left right
  | some _, none => .lt
  | none, some _ => .gt
  | none, none => .eq

/-- `compare_optional_timestamp`. -/
def compareOptionalTimestamp : Option UtcTimestamp → Option UtcTimestamp → Ordering :=
  compareOptional fun left right => left.instant.compare right.instant

/-- `compare_optional_run_id`. -/
def compareOptionalRunId : Option CanonicalUuid → Option CanonicalUuid → Ordering :=
  compareOptional fun left right => compare (displayUuid left) (displayUuid right)

section Policy

variable {Path : Type} [LinearOrder Path]

/-- `cleanup_order`. -/
def cleanupOrder (left right : CleanupInventoryRun Path) : Ordering :=
  (((compareOptionalTimestamp left.endedAt right.endedAt).then
    (compareOptionalTimestamp left.startedAt right.startedAt)).then
    (compareOptionalRunId left.runId right.runId)).then
    (compare left.path right.path)

/-! ## The policies -/

/-- `CleanupPolicySpec`. -/
inductive CleanupPolicySpec where
  | run (runId : CanonicalUuid)
  | olderThan (age : UInt64)
  | keepRuns (keep : UInt64)
  | maxTotalBytes (budget : UInt64)
deriving DecidableEq

/-- `CleanupPreview`. -/
structure CleanupPreview (Path : Type) where
  production : Path
  policy : CleanupPolicySpec
  satisfied : Bool
  operationFailure : Option CleanupOperationFailure
  totalBytes : Option Nat
  selectedBytes : Nat
  remainingBytes : Option Nat
  runs : List (CleanupInventoryRun Path)

/-- A value of an `Option` that is expected, or a panic. -/
def orPanic {α ε : Type} (message : String) : Option α → Except (Fault ε) α
  | some value => .ok value
  | none => .error (.panicked message)

/-- `sum_all_bytes`. -/
def sumAllBytes (runs : List (CleanupInventoryRun Path)) : Option Nat :=
  runs.foldlM (fun total run => run.bytes.map fun bytes => total + bytes.toNat) 0

/-- A selected run. -/
def CleanupInventoryRun.select (run : CleanupInventoryRun Path) (reason : CleanupSelectionReason) :
    CleanupInventoryRun Path :=
  { run with selected := true, selectionReason := some reason }

/-- A skipped run. -/
def CleanupInventoryRun.skip (run : CleanupInventoryRun Path) (reason : CleanupSkipReason) :
    CleanupInventoryRun Path :=
  { run with skippedReason := some reason }

/-- `mark_incomplete_batch_runs`. -/
def markIncompleteBatchRuns (runs : List (CleanupInventoryRun Path)) :
    List (CleanupInventoryRun Path) :=
  runs.map fun run =>
    if run.protectionReason = none ∧ run.state = .incomplete then run.skip .incompleteArchive
    else run

/-- The body of the loop of `Run`. -/
def selectExact (run : CleanupInventoryRun Path) : CleanupInventoryRun Path :=
  if run.protectionReason = none then run.select .exactRun else run

/-- The body of the loop of `OlderThan`. -/
def selectOlder (cutoff : UtcInstant) (run : CleanupInventoryRun Path) : CleanupInventoryRun Path :=
  if run.protectionReason ≠ none then run
  else if run.state = .incomplete then run.skip .incompleteArchive
  else if run.endedAt.any fun endedAt => endedAt.instant.compare cutoff == .lt then
    run.select .endedBeforeCutoff
  else run.skip .newerThanCutoff

/-- The loop of `KeepRuns`, which goes through the completed runs by their position among them. -/
def selectOutside (selectCount : Nat) :
    Nat → List (CleanupInventoryRun Path) → List (CleanupInventoryRun Path)
  | _, [] => []
  | position, run :: rest =>
    if run.state = .completed then
      (if run.protectionReason ≠ none then run
        else if position < selectCount then run.select .outsideKeepCount
        else run.skip .withinKeepCount) :: selectOutside selectCount (position + 1) rest
    else run :: selectOutside selectCount position rest

/-- The loop of `MaxTotalBytes`. -/
def selectOverBudget (budget : Nat) : Nat → List (CleanupInventoryRun Path) →
    Except (Fault CleanupPolicyError) (List (CleanupInventoryRun Path))
  | _, [] => .ok []
  | remaining, run :: rest =>
    if run.isEligibleCompleted then
      if remaining ≤ budget then do
        let rest ← selectOverBudget budget remaining rest
        return run.skip .withinTotalByteBudget :: rest
      else do
        let bytes ← orPanic "eligible archives have known bytes" run.bytes
        let remaining ← orPanic "attempt to subtract with overflow" (checkedSub remaining bytes.toNat)
        let rest ← selectOverBudget budget remaining rest
        return run.select .totalBytesOverBudget :: rest
    else do
      let rest ← selectOverBudget budget remaining rest
      return run :: rest

/-- The match of `select_preview` on the policy, of the sorted runs. -/
def applyPolicy (policy : CleanupPolicySpec) (now : UtcInstant)
    (runs : List (CleanupInventoryRun Path)) :
    Except (Fault CleanupPolicyError) (List (CleanupInventoryRun Path)) :=
  match policy with
  | .run runId =>
    let runs := runs.filter fun run => run.runId = some runId
    if runs.isEmpty then
      .error (.raised ⟨.targetNotFound,
        "Run " ++ displayUuid runId ++ " is not present in the cleanup inventory"⟩)
    else .ok (runs.map selectExact)
  | .olderThan age => .ok (runs.map (selectOlder (now.subtract age.toNat)))
  | .keepRuns keep =>
    let runs := markIncompleteBatchRuns runs
    let completed := runs.filter fun run => run.state = .completed
    .ok (selectOutside (completed.length - min keep.toNat usizeMax) 0 runs)
  | .maxTotalBytes budget =>
    let runs := markIncompleteBatchRuns runs
    match sumAllBytes runs with
    | some total => selectOverBudget budget.toNat total runs
    | none => .ok runs

/-- The sum of the sizes of the selected runs. -/
def sumSelectedBytes (runs : List (CleanupInventoryRun Path)) :
    Except (Fault CleanupPolicyError) Nat :=
  (runs.filter CleanupInventoryRun.selected).foldlM
    (fun total run => do
      let bytes ← orPanic "selected archives have known bytes" run.bytes
      return total + bytes.toNat) 0

/-- The total less the selected. -/
def subtractSelected (totalBytes : Option Nat) (selectedBytes : Nat) :
    Except (Fault CleanupPolicyError) (Option Nat) :=
  match totalBytes with
  | none => .ok none
  | some total =>
    (orPanic "attempt to subtract with overflow" (checkedSub total selectedBytes)).map some

/-- The failure of a cleanup that keeps to its policy. -/
def operationFailure (policy : CleanupPolicySpec) (remainingBytes : Option Nat) :
    Option CleanupOperationFailure :=
  match policy with
  | .maxTotalBytes budget =>
    match remainingBytes with
    | none => some .protectedBytesUnknown
    | some remaining => if budget.toNat < remaining then some .protectedBytesExceedBudget else none
  | _ => none

/-- `select_preview`. -/
def selectPreview (production : Path) (policy : CleanupPolicySpec) (now : UtcInstant)
    (runs : List (CleanupInventoryRun Path)) :
    Except (Fault CleanupPolicyError) (CleanupPreview Path) := do
  let sorted := runs.mergeSort fun left right => (cleanupOrder left right).isLE
  let runs ← applyPolicy policy now sorted
  let totalBytes := sumAllBytes runs
  let selectedBytes ← sumSelectedBytes runs
  let remainingBytes ← subtractSelected totalBytes selectedBytes
  let failure := operationFailure policy remainingBytes
  return {
    production, policy, satisfied := failure.isNone, operationFailure := failure, totalBytes
    selectedBytes, remainingBytes, runs }

/-- `preview_from_inventory`, at a system time. -/
def previewFromInventory (production : Path) (policy : CleanupPolicySpec) (now : Int)
    (runs : List (CleanupInventoryRun Path)) :
    Except (Fault CleanupPolicyError) (CleanupPreview Path) :=
  selectPreview production policy (.fromSystemTime now) runs

end Policy

end Troupe.Cli
