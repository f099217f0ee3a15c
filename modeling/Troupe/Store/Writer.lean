import Troupe.Store.Batch
import Troupe.Store.Transaction

/-! # The transactional writer

`TransactionalWriter` of `writer.rs`: a batch is projected on a clone of the projector, encoded,
written in one transaction, and only then does the writer take over the clone and the watermark.

* `commitBatch` is `commit_batch_with_hook`. It returns the answer together with the writer left
  behind, so that a failed commit is a value to reason about. The hook only answers: it writes
  nothing of its own into the transaction.
* `prepareBatch`, `transact` and `refreshMetadataAfterCommit` are its three parts: before, inside and
  after the transaction.
* The observer is the list of the notifications it was given.

Results:
* `commitBatch_spec`: what one call can do. It fails and leaves the writer as it was, or it fails
  after the transaction and leaves everything but the database, or it takes all of the batch over.
* `Committed`: the writer as a function of the events committed so far; `commits_committed` keeps it
  along any sequence of commits and failed attempts.
* **`commits_partition_independent`**: how a stream is cut into batches does not show, and a failed
  commit leaves no trace.
* **`durable_iff_projectable`**: the writer can commit an accepted stream exactly when it is
  projectable. The hub does not check that: `mixed_samples_refused` is a stream it accepts. -/

namespace Troupe.Store

open Troupe.Lib Troupe.Core

/-! ## The store -/

/-- `PersistedStoreMetadata`, the columns the writer reads. -/
structure PersistedStoreMetadata where
  runId : CanonicalUuid
  committedWatermark : Nat
  readModelWatermark : Nat
  cleanShutdown : Bool
deriving DecidableEq

/-- `StoreOpenError`, as `refresh_metadata_after_commit` returns it. -/
inductive StoreOpenError where
  | watermarkMismatch (detail : Option String)
  /-- What the file system or SQLite reported. -/
  | outside
deriving DecidableEq

/-- `DiagnosticStore`: the metadata last read, and the database behind the connection. -/
structure DiagnosticStore where
  metadata : PersistedStoreMetadata
  stored : StoredState
deriving DecidableEq

namespace DiagnosticStore

/-- A store that was just created. -/
def create (runId : CanonicalUuid) : DiagnosticStore := ⟨⟨runId, 0, 0, false⟩, .empty⟩

/-- `refresh_metadata_after_commit`. -/
def refreshMetadataAfterCommit (store : DiagnosticStore) (outcomes : Outcomes)
    (expectedWatermark : Nat) : Except StoreOpenError DiagnosticStore :=
  if expectedWatermark < store.metadata.committedWatermark then
    .error (.watermarkMismatch (some "committed watermark regressed"))
  else if !outcomes.refreshes then
    .error .outside
  else if store.stored.committedSequence ≠ store.stored.readModelSequence then
    .error (.watermarkMismatch none)
  else if store.stored.committedSequence ≠ expectedWatermark then
    .error (.watermarkMismatch (some (s!"expected committed watermark {expectedWatermark}, found "
      ++ toString store.stored.committedSequence)))
  else
    .ok { store with
      metadata := {
        runId := store.metadata.runId
        committedWatermark := store.stored.committedSequence
        readModelWatermark := store.stored.readModelSequence
        cleanShutdown := store.stored.cleanShutdown } }

end DiagnosticStore

/-! ## The writer -/

/-- `WriterError`, less the errors of `finalize_run`. -/
inductive WriterError where
  | nonFreshStore (committed readModel : Nat) (cleanShutdown : Bool)
  | watermark (error : WatermarkError)
  | projection (error : SnapshotProjectionError)
  | serialization
  | beginTransaction
  | statement (ordinal : Nat) (statement : WriteStatement)
  | beforeCommit
  | commit
  | postCommitValidation (error : StoreOpenError)
deriving DecidableEq

/-- `TransactionalWriter`. -/
structure TransactionalWriter where
  store : DiagnosticStore
  projector : SnapshotProjector
  watermark : CommittedWatermark
  observed : List CommitNotification

/-- What is computed before the transaction is opened. -/
structure PreparedBatch where
  notification : CommitNotification
  candidate : SnapshotProjector
  materialized : EncodedMaterializedState

/-- The transaction of `commit_batch_with_hook`: the answer, and the database left behind. -/
def transact (outcomes : Outcomes) (events : List AcceptedDiagnosticEvent)
    (prepared : PreparedBatch) (stored : StoredState) : Except WriterError Unit × StoredState :=
  if !outcomes.begins then
    (.error .beginTransaction, stored)
  else
    match executeStatements outcomes 1
      (commitStatements events prepared.materialized prepared.notification.committed) stored with
    | .error (ordinal, statement) => (.error (.statement ordinal statement), stored)
    | .ok written =>
      if !outcomes.beforeCommit then
        (.error .beforeCommit, stored)
      else
        match outcomes.commit with
        | .committed => (.ok (), written)
        | .rolledBack => (.error .commit, stored)
        | .applied => (.error .commit, written)

namespace TransactionalWriter

/-- `TransactionalWriter::new`. -/
def new (store : DiagnosticStore) : Except WriterError TransactionalWriter :=
  if store.metadata.committedWatermark ≠ 0 ∨ store.metadata.readModelWatermark ≠ 0 ∨
      store.metadata.cleanShutdown then
    .error (.nonFreshStore store.metadata.committedWatermark store.metadata.readModelWatermark
      store.metadata.cleanShutdown)
  else
    .ok ⟨store, .new store.metadata.runId, .fresh store.metadata.runId, []⟩

/-- The writer of a new store. -/
def fresh (runId : CanonicalUuid) : TransactionalWriter :=
  ⟨.create runId, .new runId, .fresh runId, []⟩

theorem new_create (runId : CanonicalUuid) : new (.create runId) = .ok (.fresh runId) := rfl

/-- `commit_batch_with_hook` up to the transaction. -/
def prepareBatch (encoders : Encoders) (writer : TransactionalWriter) (batch : EventBatch) :
    Except (Fault WriterError) PreparedBatch := do
  let notification ← (writer.watermark.candidate batch).mapError (.raised ∘ .watermark)
  let candidate ← (writer.projector.applyAll (batch.events.map (·.event))).mapError
    (.map .projection)
  match EncodedMaterializedState.encode encoders candidate.model with
  | none => .error (.raised .serialization)
  | some materialized => .ok ⟨notification, candidate, materialized⟩

/-- `commit_batch_with_hook`: the answer, and the writer left behind. -/
def commitBatch (encoders : Encoders) (outcomes : Outcomes) (writer : TransactionalWriter)
    (batch : EventBatch) : Except (Fault WriterError) CommitNotification × TransactionalWriter :=
  match writer.prepareBatch encoders batch with
  | .error fault => (.error fault, writer)
  | .ok prepared =>
    match transact outcomes batch.events prepared writer.store.stored with
    | (.error error, stored) =>
      (.error (.raised error), { writer with store := { writer.store with stored } })
    | (.ok (), stored) =>
      let store := { writer.store with stored }
      match store.refreshMetadataAfterCommit outcomes prepared.notification.committed with
      | .error error => (.error (.raised (.postCommitValidation error)), { writer with store })
      | .ok store =>
        match writer.watermark.advance prepared.notification with
        | .error _ =>
          (.error (.panicked "a committed watermark candidate must still match its writer"),
            { writer with store, projector := prepared.candidate })
        | .ok watermark =>
          (.ok prepared.notification,
            ⟨store, prepared.candidate, watermark, writer.observed ++ [prepared.notification]⟩)

end TransactionalWriter

/-! ## One commit -/

/-- The failure came before the storage transaction committed. A commit that reports an error is
one of these when SQLite rolled it back. -/
def FailsBeforeCommit (outcomes : Outcomes) : Fault WriterError → Prop
  | .raised (.postCommitValidation _) => False
  | .raised .commit => outcomes.commit = .rolledBack
  | _ => True

/-- The errors that only the storage raises. -/
def WriterError.isStorage : WriterError → Bool
  | nonFreshStore .. | watermark _ | projection _ | serialization => false
  | beginTransaction | statement .. | beforeCommit | commit | postCommitValidation _ => true

section Commit

variable {encoders : Encoders} {outcomes : Outcomes} {writer writer' : TransactionalWriter}
  {batch : EventBatch} {prepared : PreparedBatch}

theorem candidate_eq_ok {watermark : CommittedWatermark} {notification : CommitNotification}
    (h : watermark.candidate batch = .ok notification) :
    batch.runId = watermark.runId ∧ batch.first.sequence = watermark.value + 1 ∧
      notification = ⟨watermark.runId, watermark.value, batch.last.sequence, batch.eventCount,
        batch.canonicalBytes⟩ := by
  unfold CommittedWatermark.candidate at h
  obtain ⟨hrun, h⟩ := ite_error_eq_ok.mp h
  rw [Decidable.not_not] at hrun
  cases hadd : checkedAdd u64Max watermark.value 1 with
  | none =>
    rw [hadd] at h
    cases h
  | some expected =>
    rw [hadd] at h
    obtain ⟨hfirst, h⟩ := ite_error_eq_ok.mp h
    rw [Decidable.not_not, (checkedAdd_eq_some.mp hadd).2] at hfirst
    cases h
    exact ⟨hrun, hfirst, rfl⟩

theorem prepareBatch_eq_ok : writer.prepareBatch encoders batch = .ok prepared ↔
    writer.watermark.candidate batch = .ok prepared.notification ∧
      writer.projector.applyAll (batch.events.map (·.event)) = .ok prepared.candidate ∧
      EncodedMaterializedState.encode encoders prepared.candidate.model =
        some prepared.materialized := by
  unfold TransactionalWriter.prepareBatch
  simp only [bind_eq_ok, mapError_eq_ok]
  constructor
  · rintro ⟨notification, hnotification, candidate, hcandidate, h⟩
    cases hencode : EncodedMaterializedState.encode encoders candidate.model with
    | none =>
      rw [hencode] at h
      cases h
    | some materialized =>
      rw [hencode] at h
      cases h
      exact ⟨hnotification, hcandidate, hencode⟩
  · rintro ⟨hnotification, hcandidate, hencode⟩
    exact ⟨_, hnotification, _, hcandidate, by rw [hencode]⟩

/-- The database is written as a whole or not at all; an error leaves it written only when the
commit took effect and still failed. -/
theorem transact_spec (outcomes : Outcomes) (events : List AcceptedDiagnosticEvent)
    (prepared : PreparedBatch) (stored : StoredState) :
    (∃ error, error.isStorage ∧ FailsBeforeCommit outcomes (.raised error) ∧
      transact outcomes events prepared stored = (.error error, stored)) ∨
    (∃ answer : Except WriterError Unit,
      (answer = .ok () ∨ answer = .error .commit ∧ outcomes.commit = .applied) ∧
      transact outcomes events prepared stored = (answer,
        stored.written events prepared.materialized prepared.notification.committed)) := by
  unfold transact
  by_cases hbegins : outcomes.begins = true
  · rw [hbegins, if_neg (by simp)]
    cases hexecute : executeStatements outcomes 1
      (commitStatements events prepared.materialized prepared.notification.committed) stored with
    | error failure => exact .inl ⟨.statement failure.1 failure.2, rfl, trivial, rfl⟩
    | ok written =>
      rw [transaction_ok hexecute]
      by_cases hbefore : outcomes.beforeCommit = true
      · rw [hbefore]
        cases hcommit : outcomes.commit with
        | committed => exact .inr ⟨_, .inl rfl, rfl⟩
        | rolledBack => exact .inl ⟨.commit, rfl, hcommit, rfl⟩
        | applied => exact .inr ⟨_, .inr ⟨rfl, rfl⟩, rfl⟩
      · rw [Bool.not_eq_true] at hbefore
        rw [hbefore]
        exact .inl ⟨.beforeCommit, rfl, trivial, rfl⟩
  · rw [Bool.not_eq_true] at hbegins
    rw [hbegins]
    exact .inl ⟨.beginTransaction, rfl, trivial, rfl⟩

/-- A refresh only reads: the metadata it keeps are the expected watermarks. -/
theorem refresh_eq_ok {store store' : DiagnosticStore} {expected : Nat}
    (h : store.refreshMetadataAfterCommit outcomes expected = .ok store') :
    store' = ⟨⟨store.metadata.runId, expected, expected, store.stored.cleanShutdown⟩,
      store.stored⟩ := by
  unfold DiagnosticStore.refreshMetadataAfterCommit at h
  obtain ⟨-, h⟩ := ite_error_eq_ok.mp h
  obtain ⟨-, h⟩ := ite_error_eq_ok.mp h
  obtain ⟨hsame, h⟩ := ite_error_eq_ok.mp h
  obtain ⟨hexpected, h⟩ := ite_error_eq_ok.mp h
  rw [Decidable.not_not] at hsame hexpected
  cases h
  rw [← hsame, hexpected]

/-- The database once the batch is written. -/
def PreparedBatch.writes (prepared : PreparedBatch) (batch : EventBatch) (stored : StoredState) :
    StoredState :=
  stored.written batch.events prepared.materialized prepared.notification.committed

/-- The writer once it has taken over the batch. -/
def PreparedBatch.takenOver (prepared : PreparedBatch) (batch : EventBatch)
    (writer : TransactionalWriter) : TransactionalWriter where
  store :=
    { metadata := {
        runId := writer.store.metadata.runId
        committedWatermark := prepared.notification.committed
        readModelWatermark := prepared.notification.committed
        cleanShutdown := writer.store.stored.cleanShutdown }
      stored := prepared.writes batch writer.store.stored }
  projector := prepared.candidate
  watermark := ⟨writer.watermark.runId, prepared.notification.committed⟩
  observed := writer.observed ++ [prepared.notification]

/-- What one call of `commit_batch` can do. -/
inductive CommitResult (encoders : Encoders) (outcomes : Outcomes) (writer : TransactionalWriter)
    (batch : EventBatch) : Except (Fault WriterError) CommitNotification → TransactionalWriter →
    Prop where
  /-- It fails before the transaction and leaves the writer as it was. -/
  | refused (fault : Fault WriterError) (prepares : writer.prepareBatch encoders batch = .error fault) :
      CommitResult encoders outcomes writer batch (.error fault) writer
  /-- The transaction fails and leaves the writer as it was. -/
  | rolledBack (prepared : PreparedBatch) (error : WriterError)
      (prepares : writer.prepareBatch encoders batch = .ok prepared) (storage : error.isStorage)
      (before : FailsBeforeCommit outcomes (.raised error)) :
      CommitResult encoders outcomes writer batch (.error (.raised error)) writer
  /-- It fails after the transaction: the database has the batch, the writer does not know. -/
  | unacknowledged (prepared : PreparedBatch) (error : WriterError)
      (prepares : writer.prepareBatch encoders batch = .ok prepared) (storage : error.isStorage)
      (after : ¬FailsBeforeCommit outcomes (.raised error)) :
      CommitResult encoders outcomes writer batch (.error (.raised error))
        { writer with
          store := { writer.store with stored := prepared.writes batch writer.store.stored } }
  /-- It takes all of the batch over. -/
  | committed (prepared : PreparedBatch)
      (prepares : writer.prepareBatch encoders batch = .ok prepared) :
      CommitResult encoders outcomes writer batch (.ok prepared.notification)
        (prepared.takenOver batch writer)

/-- **Every call is one of these**: no batch is half committed, and the writer never panics over
its own watermark. -/
theorem commitBatch_spec (encoders : Encoders) (outcomes : Outcomes) (writer : TransactionalWriter)
    (batch : EventBatch) :
    CommitResult encoders outcomes writer batch
      (writer.commitBatch encoders outcomes batch).1
      (writer.commitBatch encoders outcomes batch).2 := by
  unfold TransactionalWriter.commitBatch
  cases hprepare : writer.prepareBatch encoders batch with
  | error fault => exact .refused fault hprepare
  | ok prepared =>
    obtain ⟨error, hstorage, hbefore, htransact⟩ | ⟨answer, hanswer, htransact⟩ :=
      transact_spec outcomes batch.events prepared writer.store.stored
    · simp only [htransact]
      exact .rolledBack prepared error hprepare hstorage hbefore
    · obtain rfl | ⟨rfl, happlied⟩ := hanswer
      · simp only [htransact]
        cases hrefresh : DiagnosticStore.refreshMetadataAfterCommit
          ⟨writer.store.metadata, prepared.writes batch writer.store.stored⟩ outcomes
          prepared.notification.committed with
        | error error =>
          rw [PreparedBatch.writes] at hrefresh
          simp only [hrefresh]
          exact .unacknowledged prepared _ hprepare rfl (fun hbefore => hbefore)
        | ok store =>
          have hnotification := (candidate_eq_ok (prepareBatch_eq_ok.mp hprepare).1).2.2
          have hadvance : writer.watermark.advance prepared.notification =
              .ok ⟨writer.watermark.runId, prepared.notification.committed⟩ := by
            simp [CommittedWatermark.advance, hnotification]
          have hstore := refresh_eq_ok hrefresh
          rw [PreparedBatch.writes] at hrefresh
          simp only [hrefresh, hadvance, hstore]
          exact .committed prepared hprepare
      · simp only [htransact]
        exact .unacknowledged prepared _ hprepare rfl (by simp [FailsBeforeCommit, happlied])

end Commit

/-! ## Whole sequences of commits -/

/-- The writer commits these batches in this order, with any number of failed attempts, of any
batches, in between. -/
inductive Commits (encoders : Encoders) :
    TransactionalWriter → List EventBatch → TransactionalWriter → Prop where
  | done {writer : TransactionalWriter} : Commits encoders writer [] writer
  | commit {writer last : TransactionalWriter} {batch : EventBatch} {rest : List EventBatch}
      (outcomes : Outcomes) (notification : CommitNotification)
      (accepted : (writer.commitBatch encoders outcomes batch).1 = .ok notification)
      (next : Commits encoders (writer.commitBatch encoders outcomes batch).2 rest last) :
      Commits encoders writer (batch :: rest) last
  | failed {writer last : TransactionalWriter} {batches : List EventBatch} (outcomes : Outcomes)
      (batch : EventBatch) (fault : Fault WriterError)
      (refused : (writer.commitBatch encoders outcomes batch).1 = .error fault)
      (before : FailsBeforeCommit outcomes fault)
      (next : Commits encoders (writer.commitBatch encoders outcomes batch).2 batches last) :
      Commits encoders writer batches last

/-- The sequence of the last event, zero before the first. -/
def lastSequence (events : List AcceptedDiagnosticEvent) : Nat :=
  (events.getLast?.map (·.sequence)).getD 0

/-- The writer of run `runId` when exactly `events` are committed. -/
structure Committed (encoders : Encoders) (runId : CanonicalUuid) (writer : TransactionalWriter)
    (events : List AcceptedDiagnosticEvent) : Prop where
  projector : (SnapshotProjector.new runId).applyAll (events.map (·.event)) = .ok writer.projector
  watermark : writer.watermark = ⟨runId, lastSequence events⟩
  metadata : writer.store.metadata = ⟨runId, lastSequence events, lastSequence events, false⟩
  rows : writer.store.stored.events = events.map .ofAccepted
  tables : if events = [] then writer.store.stored.materialized = .empty else
    EncodedMaterializedState.encode encoders writer.projector.model =
      some writer.store.stored.materialized
  committedSequence : writer.store.stored.committedSequence = lastSequence events
  readModelSequence : writer.store.stored.readModelSequence = lastSequence events
  cleanShutdown : writer.store.stored.cleanShutdown = false

section Commits

variable {encoders : Encoders} {runId : CanonicalUuid} {outcomes : Outcomes}
  {writer writer' : TransactionalWriter} {batch : EventBatch} {batches : List EventBatch}
  {events : List AcceptedDiagnosticEvent}

theorem committed_new (h : TransactionalWriter.new (.create runId) = .ok writer) :
    Committed encoders runId writer [] := by
  cases h
  exact ⟨rfl, rfl, rfl, rfl, rfl, rfl, rfl, rfl⟩

theorem lastSequence_append (events : List AcceptedDiagnosticEvent) (batch : EventBatch) :
    lastSequence (events ++ batch.events) = batch.last.sequence := by
  unfold lastSequence EventBatch.last
  rw [List.getLast?_append, List.getLast?_eq_some_getLast batch.nonempty]
  rfl

/-- A failure before the commit leaves the writer as it was. -/
theorem commitBatch_failed {fault : Fault WriterError}
    (h : (writer.commitBatch encoders outcomes batch).1 = .error fault)
    (hbefore : FailsBeforeCommit outcomes fault) :
    (writer.commitBatch encoders outcomes batch).2 = writer := by
  have hspec := commitBatch_spec encoders outcomes writer batch
  generalize (writer.commitBatch encoders outcomes batch).2 = writer' at hspec
  rw [h] at hspec
  cases hspec with
  | refused _ _ => rfl
  | rolledBack _ _ _ _ _ => rfl
  | unacknowledged _ _ _ _ hafter => exact absurd hbefore hafter

/-- A success takes over the batch that was prepared. -/
theorem commitBatch_committed {notification : CommitNotification}
    (h : (writer.commitBatch encoders outcomes batch).1 = .ok notification) :
    ∃ prepared, writer.prepareBatch encoders batch = .ok prepared ∧
      (writer.commitBatch encoders outcomes batch).2 = prepared.takenOver batch writer := by
  have hspec := commitBatch_spec encoders outcomes writer batch
  generalize (writer.commitBatch encoders outcomes batch).2 = writer' at hspec ⊢
  rw [h] at hspec
  generalize hanswer : (.ok notification : Except (Fault WriterError) CommitNotification) = answer
    at hspec
  cases hspec with
  | refused _ _ => cases hanswer
  | rolledBack _ _ _ _ _ => cases hanswer
  | unacknowledged _ _ _ _ _ => cases hanswer
  | committed prepared hprepare => exact ⟨prepared, hprepare, rfl⟩

theorem applyAll_append {projector projector' : SnapshotProjector}
    {first second : List DiagnosticEvent} (h : projector.applyAll first = .ok projector') :
    projector.applyAll (first ++ second) = projector'.applyAll second := by
  unfold SnapshotProjector.applyAll at h ⊢
  rw [List.foldlM_append, h, ok_bind]

/-- What is prepared on top of `events` is what the whole stream projects to. -/
theorem Committed.takenOver (h : Committed encoders runId writer events)
    {prepared : PreparedBatch} (hprepare : writer.prepareBatch encoders batch = .ok prepared) :
    Committed encoders runId (prepared.takenOver batch writer) (events ++ batch.events) := by
  obtain ⟨hcandidate, happly, hencode⟩ := prepareBatch_eq_ok.mp hprepare
  obtain ⟨-, -, hnotification⟩ := candidate_eq_ok hcandidate
  have hlast : prepared.notification.committed = lastSequence (events ++ batch.events) := by
    rw [hnotification, lastSequence_append]
  have hnonempty : events ++ batch.events ≠ [] := by simp [batch.nonempty]
  exact {
    projector := by
      rw [List.map_append, applyAll_append h.projector]
      exact happly
    watermark := by rw [PreparedBatch.takenOver, hlast, h.watermark]
    metadata := by
      rw [PreparedBatch.takenOver, hlast, h.cleanShutdown, h.metadata]
    rows := by
      rw [List.map_append, ← h.rows]
      rfl
    tables := by
      rw [if_neg hnonempty]
      exact hencode
    committedSequence := hlast
    readModelSequence := hlast
    cleanShutdown := h.cleanShutdown }

/-- The run lemma: commits append their batches, failed attempts nothing. -/
theorem commits_committed (h : Commits encoders writer batches writer')
    (hwriter : Committed encoders runId writer events) :
    Committed encoders runId writer' (events ++ batches.flatMap (·.events)) := by
  induction h generalizing events with
  | done =>
    rw [List.flatMap_nil, List.append_nil]
    exact hwriter
  | commit outcomes notification accepted next ih =>
    obtain ⟨prepared, hprepare, htaken⟩ := commitBatch_committed accepted
    rw [List.flatMap_cons, ← List.append_assoc]
    apply ih
    rw [htaken]
    exact hwriter.takenOver hprepare
  | failed outcomes batch fault refused before next ih =>
    apply ih
    rw [commitBatch_failed refused before]
    exact hwriter

/-- The committed events determine the projector, the store and the watermark. -/
theorem Committed.unique (h : Committed encoders runId writer events)
    (h' : Committed encoders runId writer' events) :
    writer.projector = writer'.projector ∧ writer.store = writer'.store ∧
      writer.watermark = writer'.watermark := by
  have hprojector : writer.projector = writer'.projector :=
    Except.ok.inj (h.projector.symm.trans h'.projector)
  have htables : writer.store.stored.materialized = writer'.store.stored.materialized := by
    have htables := h.tables
    have htables' := h'.tables
    by_cases hempty : events = []
    · rw [if_pos hempty] at htables htables'
      rw [htables, htables']
    · rw [if_neg hempty] at htables htables'
      rw [hprojector, htables'] at htables
      exact (Option.some.inj htables).symm
  have hstored : writer.store.stored = writer'.store.stored := by
    have heta : ∀ stored : StoredState, stored = ⟨stored.events, stored.materialized,
      stored.committedSequence, stored.readModelSequence, stored.cleanShutdown⟩ := fun _ => rfl
    rw [heta writer.store.stored, heta writer'.store.stored, htables, h.rows, h'.rows,
      h.committedSequence, h'.committedSequence, h.readModelSequence, h'.readModelSequence,
      h.cleanShutdown, h'.cleanShutdown]
  have hstore : writer.store = writer'.store := by
    have heta : ∀ store : DiagnosticStore, store = ⟨store.metadata, store.stored⟩ := fun _ => rfl
    rw [heta writer.store, heta writer'.store, hstored, h.metadata, h'.metadata]
  exact ⟨hprojector, hstore, h.watermark.trans h'.watermark.symm⟩

end Commits

/-- **How a stream is cut into batches does not show, and a failed commit leaves no trace.** Two
sequences of commits from a new store, of batches that concatenate to the same events, end with one
projector, one database and one watermark; a commit that fails before its transaction commits leaves
the writer as it was, so that a retry is the first attempt. -/
theorem commits_partition_independent (encoders : Encoders) :
    (∀ (runId : CanonicalUuid) (start last last' : TransactionalWriter)
        (batches batches' : List EventBatch),
      TransactionalWriter.new (.create runId) = .ok start →
      Commits encoders start batches last → Commits encoders start batches' last' →
      batches.flatMap (·.events) = batches'.flatMap (·.events) →
      last.projector = last'.projector ∧ last.store = last'.store ∧
        last.watermark = last'.watermark) ∧
    ∀ (outcomes : Outcomes) (writer writer' : TransactionalWriter) (batch : EventBatch)
        (fault : Fault WriterError),
      writer.commitBatch encoders outcomes batch = (.error fault, writer') →
      FailsBeforeCommit outcomes fault →
      writer' = writer ∧ ∀ retried, writer'.commitBatch encoders retried batch =
        writer.commitBatch encoders retried batch := by
  constructor
  · intro runId start last last' batches batches' hnew hcommits hcommits' hsame
    have hlast := commits_committed hcommits (committed_new hnew)
    have hlast' := commits_committed hcommits' (committed_new hnew)
    rw [← hsame] at hlast'
    exact hlast.unique hlast'
  · intro outcomes writer writer' batch fault hcommit hbefore
    have hunchanged : writer' = writer := by
      have hfailed := commitBatch_failed (congrArg Prod.fst hcommit) hbefore
      rw [hcommit] at hfailed
      exact hfailed
    rw [hunchanged]
    exact ⟨rfl, fun _ => rfl⟩

/-- The start and the finish of a run's own span, in one batch. -/
def runBatch : EventBatch :=
  ⟨[⟨.spanStarted ⟨.at 1 10 [] SchemaU64.one_pos, .runLifecycle, none⟩, [0], some .runLifecycle, false⟩,
    ⟨.spanFinished ⟨.at 2 11 [] SchemaU64.two_pos, 1, .completed, none⟩, [0], none, false⟩], 2,
    List.cons_ne_nil _ _⟩

/-- The same two events, one in each batch. -/
def runBatches : List EventBatch :=
  [⟨[runBatch.first], 1, List.cons_ne_nil _ _⟩, ⟨[runBatch.last], 1, List.cons_ne_nil _ _⟩]

/-- One byte for every value. -/
def Encoders.oneByte : Encoders :=
  ⟨fun _ => some [0], fun _ => some [0], fun _ => some [0], fun _ => some [0], fun _ => some [0],
    fun _ => some [0]⟩

/-- Storage that does what it is asked. -/
def Outcomes.allSucceed : Outcomes := ⟨true, fun _ => true, true, .committed, true⟩

/-- Storage that fails the third statement. -/
def Outcomes.thirdFails : Outcomes := ⟨true, fun ordinal => ordinal != 3, true, .committed, true⟩

/-- Both events in one batch after an attempt that failed, or one event in each batch. -/
theorem commits_partition_independent_run : ∃ last last',
    Commits .oneByte (.fresh ⟨1⟩) [runBatch] last ∧ Commits .oneByte (.fresh ⟨1⟩) runBatches last' ∧
      last.store.stored.events.length = 2 ∧ last.store = last'.store ∧
      ((TransactionalWriter.fresh ⟨1⟩).commitBatch .oneByte .thirdFails runBatch).2 = .fresh ⟨1⟩ := by
  obtain ⟨hpartition, hfailed⟩ := commits_partition_independent .oneByte
  have hrefused : ((TransactionalWriter.fresh ⟨1⟩).commitBatch .oneByte .thirdFails runBatch).1 =
      .error (.raised (.statement 3 (.clearMaterialized .spans))) := by decide +kernel
  have hwhole : Commits .oneByte (.fresh ⟨1⟩) [runBatch] _ :=
    .failed .thirdFails runBatch _ hrefused trivial
      (.commit .allSucceed ⟨⟨1⟩, 0, 2, 2, 2⟩ (by decide +kernel) .done)
  have hparts : Commits .oneByte (.fresh ⟨1⟩) runBatches _ :=
    .commit .allSucceed ⟨⟨1⟩, 0, 1, 1, 1⟩ (by decide +kernel)
      (.commit .allSucceed ⟨⟨1⟩, 1, 2, 1, 1⟩ (by decide +kernel) .done)
  obtain ⟨-, hstore, -⟩ := hpartition ⟨1⟩ _ _ _ _ _ (TransactionalWriter.new_create ⟨1⟩)
    hwhole hparts rfl
  exact ⟨_, _, hwhole, hparts, by decide +kernel, hstore,
    (hfailed _ _ _ _ _ (Prod.ext hrefused rfl) trivial).1⟩

/-! ## Accepted streams -/

/-- An accepted stream reaches the database: it can be projected, and however it is cut into batches,
no commit is refused by the projector. -/
structure Durable (encoders : Encoders) (runId : CanonicalUuid)
    (events : List AcceptedDiagnosticEvent) : Prop where
  projects : ∃ projector, (SnapshotProjector.new runId).applyAll (events.map (·.event)) =
    .ok projector
  commits : ∀ (batches : List EventBatch) (batch : EventBatch) (start last : TransactionalWriter)
    (outcomes : Outcomes) (error : SnapshotProjectionError),
    batches.flatMap (·.events) ++ batch.events <+: events →
    TransactionalWriter.new (.create runId) = .ok start → Commits encoders start batches last →
    (last.commitBatch encoders outcomes batch).1 ≠ .error (.raised (.projection error))

section Accepted

variable {encoders : Encoders} {runId : CanonicalUuid} {outcomes : Outcomes}
  {writer : TransactionalWriter} {batch : EventBatch}

/-- A batch that the projector applies is not refused by it. -/
theorem commitBatch_ne_projection {candidate : SnapshotProjector}
    (h : writer.projector.applyAll (batch.events.map (·.event)) = .ok candidate)
    (error : SnapshotProjectionError) :
    (writer.commitBatch encoders outcomes batch).1 ≠ .error (.raised (.projection error)) := by
  have hspec := commitBatch_spec encoders outcomes writer batch
  intro hcommit
  generalize (writer.commitBatch encoders outcomes batch).2 = writer' at hspec
  rw [hcommit] at hspec
  cases hspec with
  | refused _ hprepare =>
    unfold TransactionalWriter.prepareBatch at hprepare
    rw [h] at hprepare
    cases hcandidate : writer.watermark.candidate batch with
    | error failure =>
      rw [hcandidate] at hprepare
      cases hprepare
    | ok notification =>
      simp only [hcandidate, Except.mapError, ok_bind] at hprepare
      cases hencode : EncodedMaterializedState.encode encoders candidate.model with
      | none =>
        rw [hencode] at hprepare
        cases hprepare
      | some materialized =>
        rw [hencode] at hprepare
        cases hprepare
  | rolledBack _ _ _ hstorage _ => cases hstorage
  | unacknowledged _ _ _ hstorage _ => cases hstorage

/-- **An accepted stream is durable exactly when it is projectable.** -/
theorem durable_iff_projectable (encoders : Encoders) {events : List AcceptedDiagnosticEvent}
    {validator : ReferenceValidator} (hdense : Dense runId (events.map (·.event)))
    (haccepted : ReferenceValidator.new.acceptAll (events.map (·.event)) = .ok validator) :
    Durable encoders runId events ↔ Projectable (events.map (·.event)) := by
  have hiff := (applyAll_iff hdense haccepted).1
  constructor
  · exact fun hdurable => hiff.mp hdurable.projects
  · intro hprojectable
    obtain ⟨projector, hprojector⟩ := hiff.mpr hprojectable
    refine ⟨⟨projector, hprojector⟩, ?_⟩
    rintro batches batch start last outcomes error ⟨rest, rfl⟩ hnew hcommits
    have hlast := (commits_committed hcommits (committed_new hnew)).projector
    rw [List.nil_append] at hlast
    -- The projector of the last commit goes on through the batch to the rest of the stream.
    rw [List.map_append, List.map_append, List.append_assoc, applyAll_append hlast] at hprojector
    unfold SnapshotProjector.applyAll at hprojector
    rw [List.foldlM_append] at hprojector
    obtain ⟨candidate, hcandidate, -⟩ := bind_eq_ok.mp hprojector
    exact commitBatch_ne_projection hcandidate error

end Accepted

theorem dense_pair {runId : CanonicalUuid} {first second : DiagnosticEvent}
    (hfirst : Next runId [] first) (hsecond : Next runId [first] second) :
    Dense runId [first, second] :=
  .append (.append .nil hfirst) hsecond

/-- A sample of the custom counter `example.pending`, in items. -/
def pendingSample (header : DiagnosticEventHeader) (value : CustomNumber) :
    AcceptedDiagnosticEvent :=
  ⟨.customCounterSampled ⟨header, "example.pending", value, some "items", ∅, by decide +kernel⟩,
    [0], none, false⟩

/-- The counter is sampled as an integer and then again. -/
def pendingSamples (value : CustomNumber) : List AcceptedDiagnosticEvent :=
  [pendingSample (.at 1 10 [] SchemaU64.one_pos) (.integer ⟨"1", by decide +kernel⟩),
   pendingSample (.at 2 20 [] SchemaU64.two_pos) value]

theorem durable_iff_projectable_run :
    Projectable ((pendingSamples (.integer ⟨"2", by decide +kernel⟩)).map (·.event)) ∧
      Durable .oneByte ⟨1⟩ (pendingSamples (.integer ⟨"2", by decide +kernel⟩)) := by
  have hdense : Dense ⟨1⟩ ((pendingSamples (.integer ⟨"2", by decide +kernel⟩)).map (·.event)) :=
    dense_pair ⟨rfl, rfl⟩ ⟨rfl, rfl⟩
  have hprojectable : Projectable
      ((pendingSamples (.integer ⟨"2", by decide +kernel⟩)).map (·.event)) :=
    ⟨by decide +kernel, by decide +kernel⟩
  exact ⟨hprojectable, (durable_iff_projectable .oneByte hdense rfl).mpr hprojectable⟩

/-- The second time, as a decimal. -/
def mixedSamples : List AcceptedDiagnosticEvent :=
  pendingSamples (.decimal ⟨"1.5", "1.5", by decide +kernel⟩)

/-- The validator takes both samples; the projector refuses the second, and the commit with it. -/
theorem mixed_samples_refused :
    Dense ⟨1⟩ (mixedSamples.map (·.event)) ∧
      (ReferenceValidator.new.acceptAll (mixedSamples.map (·.event))).isOk ∧
      ¬Durable .oneByte ⟨1⟩ mixedSamples := by
  refine ⟨dense_pair ⟨rfl, rfl⟩ ⟨rfl, rfl⟩, by decide +kernel, fun hdurable => ?_⟩
  refine hdurable.commits [] ⟨mixedSamples, 2, List.cons_ne_nil _ _⟩ (.fresh ⟨1⟩) (.fresh ⟨1⟩)
    .allSucceed (.counter (.tagMismatch (canonicalSeriesKey
      (.custom .run "example.pending" (some "items") ∅)) 2 .customNumber .decimal))
    List.prefix_rfl (TransactionalWriter.new_create ⟨1⟩) .done ?_
  decide +kernel

end Troupe.Store
