import Troupe.Core.Accepted
import Troupe.Store.Projector.Snapshot

/-! # The storage transaction

What `writer.rs` does inside one SQLite transaction: the rows of the batch, the materialized tables
replaced as a whole, and both watermarks.

* `StoredState` is the contents of the database. A table is its rows in the order of insertion, with
  its primary key; inserting a second row under a key is refused.
* A statement is its `WriteStatement` and its effect on the contents. Whether SQLite and the hook
  let it through is an answer from outside (`Outcomes`), for every statement on its own.
* Of SQLite only atomicity is used: a transaction leaves all of its effects or none. A commit that
  reports an error may have left either.
* `serde_json` is the parameter `Encoders`, one function for each type that is written. Columns with
  a constant value (schema versions) are left out.

Result: **`transaction_ok`**, a transaction that ran to its end holds exactly the new rows, the new
tables and the new watermarks. -/

namespace Troupe.Store

open Troupe.Lib Troupe.Core

/-! ## Rows -/

/-- A row of `events`. -/
structure EventRow where
  sequence : Nat
  runId : CanonicalUuid
  elapsedNs : ElapsedNs
  kind : DiagnosticEventKind
  scope : DiagnosticScope
  canonicalJson : List UInt8
deriving DecidableEq

/-- `DiagnosticEvent::kind`. -/
def eventKind : DiagnosticEvent → DiagnosticEventKind
  | .spanStarted _ => .spanStarted
  | .spanFinished _ => .spanFinished
  | .instantOccurred _ => .instantOccurred
  | .counterSampled _ => .counterSampled
  | .agentMessageDelta _ => .agentMessageDelta
  | .agentMessageCompleted _ => .agentMessageCompleted
  | .agentPlanSnapshot _ => .agentPlanSnapshot
  | .contextUsageSampled _ => .contextUsageSampled
  | .actTokenUsageFinalized _ => .actTokenUsageFinalized
  | .observationGap _ => .observationGap
  | .customSpanStarted _ => .customSpanStarted
  | .customSpanFinished _ => .customSpanFinished
  | .customInstantOccurred _ => .customInstantOccurred
  | .customCounterSampled _ => .customCounterSampled

/-- The row `append_event` inserts. -/
def EventRow.ofAccepted (accepted : AcceptedDiagnosticEvent) : EventRow where
  sequence := accepted.sequence
  runId := accepted.runId
  elapsedNs := accepted.event.elapsedNs
  kind := eventKind accepted.event
  scope := accepted.event.scope
  canonicalJson := accepted.canonicalBytes

/-- A row of a materialized table: `EncodedSpan`, `EncodedMessage`, `EncodedPlan`, `EncodedCounter`
and, with one key, `EncodedSingleton`. -/
structure EncodedRow (κ : Type) where
  key : κ
  latest : Nat
  payload : List UInt8
deriving DecidableEq

/-- `EncodedMaterializedState`, and the materialized tables of the database. -/
structure EncodedMaterializedState where
  spans : List (EncodedRow Nat)
  messages : List (EncodedRow String)
  plans : List (EncodedRow String)
  counters : List (EncodedRow String)
  usage : List (EncodedRow Unit)
  snapshot : List (EncodedRow Unit)
deriving DecidableEq

/-- The tables of a new database. -/
def EncodedMaterializedState.empty : EncodedMaterializedState := ⟨[], [], [], [], [], []⟩

/-- The contents of the database. -/
structure StoredState where
  events : List EventRow
  materialized : EncodedMaterializedState
  committedSequence : Nat
  readModelSequence : Nat
  cleanShutdown : Bool
deriving DecidableEq

/-- A new database. -/
def StoredState.empty : StoredState := ⟨[], .empty, 0, 0, false⟩

/-- The database after a batch: the new rows, the new tables and both watermarks. -/
def StoredState.written (stored : StoredState) (events : List AcceptedDiagnosticEvent)
    (materialized : EncodedMaterializedState) (watermark : Nat) : StoredState :=
  { stored with
    events := stored.events ++ events.map .ofAccepted
    materialized
    committedSequence := watermark
    readModelSequence := watermark }

/-! ## Encoding -/

/-- `serde_json::to_vec` of the types that are written, `none` when it fails. -/
structure Encoders where
  span : ProjectedSpan → Option (List UInt8)
  message : ProjectedMessage → Option (List UInt8)
  plan : ProjectedPlan → Option (List UInt8)
  counter : ProjectedCounter → Option (List UInt8)
  usage : UsageReadModel → Option (List UInt8)
  snapshot : SnapshotReadModel → Option (List UInt8)

/-- `ProjectedSpan::latest_sequence`. -/
def ProjectedSpan.latestSequence (span : ProjectedSpan) : SchemaU64 :=
  match span.completion with
  | none => span.spanId
  | some completion => completion.finishSequence

/-- `EncodedMaterializedState::encode`. -/
def EncodedMaterializedState.encode (encoders : Encoders) (model : SnapshotReadModel) :
    Option EncodedMaterializedState := do
  let spans ← model.spans.spans.mapM fun span =>
    (encoders.span span).map (⟨span.spanId.get, span.latestSequence.get, ·⟩)
  let messages ← model.messages.messages.mapM fun message =>
    (encoders.message message).map (⟨message.messageId.value, message.latestSequence.get, ·⟩)
  let plans ← model.plans.plans.mapM fun plan =>
    (encoders.plan plan).map (⟨(serializeScope plan.scope).toString, plan.sequence.get, ·⟩)
  let counters ← model.counters.series.mapM fun counter =>
    (encoders.counter counter).map (⟨counter.seriesKey, counter.sequence.get, ·⟩)
  let usage ← encoders.usage model.usage
  let snapshot ← encoders.snapshot model
  some ⟨spans, messages, plans, counters, [⟨(), model.usage.throughSequence.get, usage⟩],
    [⟨(), model.throughSequence.get, snapshot⟩]⟩

/-! ## Statements -/

/-- `MaterializedTable`. -/
inductive MaterializedTable where
  | spans
  | messages
  | plans
  | counters
  | usage
  | snapshot
deriving DecidableEq

/-- `WriteStatement`, less the statement of `finalize_run`. -/
inductive WriteStatement where
  | appendEvent (sequence : Nat)
  | clearMaterialized (table : MaterializedTable)
  | insertMaterialized (table : MaterializedTable)
  | advanceWatermarks
deriving DecidableEq

/-- A statement of the transaction: its name and its effect, `none` when a constraint refuses it. -/
structure Statement where
  name : WriteStatement
  effect : StoredState → Option StoredState

/-- `append_event`: `sequence_key` is the primary key. -/
def appendEvent (accepted : AcceptedDiagnosticEvent) : Statement where
  name := .appendEvent accepted.sequence
  effect stored :=
    if accepted.sequence ∈ stored.events.map EventRow.sequence then
      none
    else
      some { stored with events := stored.events ++ [.ofAccepted accepted] }

/-- A materialized table of the database: how to read and how to write it. -/
structure TableLens (κ : Type) where
  table : MaterializedTable
  get : EncodedMaterializedState → List (EncodedRow κ)
  set : List (EncodedRow κ) → EncodedMaterializedState → EncodedMaterializedState

/-- `clear_table`. -/
def clearTable {κ : Type} (lens : TableLens κ) : Statement where
  name := .clearMaterialized lens.table
  effect stored := some { stored with materialized := lens.set [] stored.materialized }

/-- The `INSERT` of one materialized row. -/
def insertRow {κ : Type} [DecidableEq κ] (lens : TableLens κ) (row : EncodedRow κ) : Statement where
  name := .insertMaterialized lens.table
  effect stored :=
    if row.key ∈ (lens.get stored.materialized).map EncodedRow.key then
      none
    else
      some { stored with
        materialized := lens.set (lens.get stored.materialized ++ [row]) stored.materialized }

/-- One table cleared and filled again. -/
def replaceTable {κ : Type} [DecidableEq κ] (lens : TableLens κ) (rows : List (EncodedRow κ)) :
    List Statement :=
  clearTable lens :: rows.map (insertRow lens)

/-- `materialized_spans`. -/
def spansTable : TableLens Nat := ⟨.spans, (·.spans), fun spans state => { state with spans }⟩
/-- `materialized_messages`. -/
def messagesTable : TableLens String :=
  ⟨.messages, (·.messages), fun messages state => { state with messages }⟩
/-- `materialized_plans`. -/
def plansTable : TableLens String := ⟨.plans, (·.plans), fun plans state => { state with plans }⟩
/-- `materialized_counters`. -/
def countersTable : TableLens String :=
  ⟨.counters, (·.counters), fun counters state => { state with counters }⟩
/-- `materialized_usage`. -/
def usageTable : TableLens Unit := ⟨.usage, (·.usage), fun usage state => { state with usage }⟩
/-- `materialized_snapshot`. -/
def snapshotTable : TableLens Unit :=
  ⟨.snapshot, (·.snapshot), fun snapshot state => { state with snapshot }⟩

/-- `EncodedMaterializedState::replace_all`. -/
def EncodedMaterializedState.replaceAll (materialized : EncodedMaterializedState) :
    List Statement :=
  replaceTable spansTable materialized.spans ++
    replaceTable messagesTable materialized.messages ++
    replaceTable plansTable materialized.plans ++
    replaceTable countersTable materialized.counters ++
    replaceTable usageTable materialized.usage ++
    replaceTable snapshotTable materialized.snapshot

/-- `advance_persisted_watermarks`. -/
def advancePersistedWatermarks (watermark : Nat) : Statement where
  name := .advanceWatermarks
  effect stored :=
    some { stored with committedSequence := watermark, readModelSequence := watermark }

/-- The statements of `commit_batch_with_hook`. -/
def commitStatements (events : List AcceptedDiagnosticEvent)
    (materialized : EncodedMaterializedState) (watermark : Nat) : List Statement :=
  events.map appendEvent ++ materialized.replaceAll ++ [advancePersistedWatermarks watermark]

/-! ## Running a transaction -/

/-- How `transaction.commit()` ends. -/
inductive CommitOutcome where
  | committed
  /-- The error is reported and nothing is stored. -/
  | rolledBack
  /-- The error is reported and everything is stored. -/
  | applied
deriving DecidableEq

/-- What SQLite, the hook and the file system answer during one commit. -/
structure Outcomes where
  begins : Bool
  /-- The statement of this ordinal is executed and the hook lets it pass. -/
  executes : Nat → Bool
  beforeCommit : Bool
  commit : CommitOutcome
  /-- The files are secured and the metadata row is read back. -/
  refreshes : Bool

/-- `execute_statement`, for each statement in turn; the error is the ordinal and the statement. -/
def executeStatements (outcomes : Outcomes) :
    Nat → List Statement → StoredState → Except (Nat × WriteStatement) StoredState
  | _, [], stored => .ok stored
  | ordinal, statement :: rest, stored =>
    match if outcomes.executes ordinal then statement.effect stored else none with
    | none => .error (ordinal, statement.name)
    | some stored => executeStatements outcomes (ordinal + 1) rest stored

section Transaction

variable {outcomes : Outcomes} {ordinal : Nat} {stored stored' : StoredState}

theorem executeStatements_cons {statement : Statement} {rest : List Statement} :
    executeStatements outcomes ordinal (statement :: rest) stored = .ok stored' ↔
      ∃ middle, outcomes.executes ordinal = true ∧ statement.effect stored = some middle ∧
        executeStatements outcomes (ordinal + 1) rest middle = .ok stored' := by
  rw [executeStatements]
  by_cases hexecutes : outcomes.executes ordinal = true
  · rw [if_pos hexecutes]
    cases statement.effect stored <;> simp [hexecutes]
  · simp [hexecutes]

theorem executeStatements_append {first second : List Statement} :
    executeStatements outcomes ordinal (first ++ second) stored = .ok stored' ↔
      ∃ middle, executeStatements outcomes ordinal first stored = .ok middle ∧
        executeStatements outcomes (ordinal + first.length) second middle = .ok stored' := by
  induction first generalizing ordinal stored with
  | nil => simp [executeStatements]
  | cons statement rest ih =>
    rw [List.cons_append, executeStatements_cons]
    simp only [ih, executeStatements_cons, List.length_cons]
    constructor
    · rintro ⟨middle, hexecutes, heffect, last, hrest, hsecond⟩
      exact ⟨last, ⟨middle, hexecutes, heffect, hrest⟩, by
        rwa [Nat.add_assoc, Nat.add_comm 1] at hsecond⟩
    · rintro ⟨last, ⟨middle, hexecutes, heffect, hrest⟩, hsecond⟩
      exact ⟨middle, hexecutes, heffect, last, hrest, by
        rwa [Nat.add_assoc, Nat.add_comm 1]⟩

/-- The rows of a batch are appended in order. -/
theorem appendEvents_ok {events : List AcceptedDiagnosticEvent}
    (h : executeStatements outcomes ordinal (events.map appendEvent) stored = .ok stored') :
    stored' = { stored with events := stored.events ++ events.map .ofAccepted } := by
  induction events generalizing ordinal stored with
  | nil =>
    cases h
    simp
  | cons event rest ih =>
    obtain ⟨middle, -, heffect, hrest⟩ := executeStatements_cons.mp h
    unfold appendEvent at heffect
    rw [Option.ite_none_left_eq_some] at heffect
    obtain ⟨-, hmiddle⟩ := heffect
    cases hmiddle
    rw [ih hrest]
    simp

/-- The lens reads what it wrote, and the last write counts. -/
structure TableLens.Lawful {κ : Type} (lens : TableLens κ) : Prop where
  get_set : ∀ rows state, lens.get (lens.set rows state) = rows
  set_set : ∀ rows other state, lens.set rows (lens.set other state) = lens.set rows state

theorem insertRows_ok {κ : Type} [DecidableEq κ] {lens : TableLens κ} (hlens : lens.Lawful)
    {rows before : List (EncodedRow κ)} {state : EncodedMaterializedState}
    (h : executeStatements outcomes ordinal (rows.map (insertRow lens))
      { stored with materialized := lens.set before state } = .ok stored') :
    stored' = { stored with materialized := lens.set (before ++ rows) state } := by
  induction rows generalizing ordinal before with
  | nil =>
    cases h
    simp
  | cons row rest ih =>
    obtain ⟨middle, -, heffect, hrest⟩ := executeStatements_cons.mp h
    unfold insertRow at heffect
    rw [Option.ite_none_left_eq_some] at heffect
    obtain ⟨-, hmiddle⟩ := heffect
    cases hmiddle
    simp only [hlens.get_set, hlens.set_set] at hrest
    rw [ih hrest, List.append_assoc, List.singleton_append]

theorem replaceTable_ok {κ : Type} [DecidableEq κ] {lens : TableLens κ} (hlens : lens.Lawful)
    {rows : List (EncodedRow κ)}
    (h : executeStatements outcomes ordinal (replaceTable lens rows) stored = .ok stored') :
    stored' = { stored with materialized := lens.set rows stored.materialized } := by
  obtain ⟨middle, -, hclear, hrest⟩ := executeStatements_cons.mp h
  cases hclear
  exact insertRows_ok hlens hrest

/-- Every table ends with the rows it is given. -/
theorem replaceAll_ok {materialized : EncodedMaterializedState}
    (h : executeStatements outcomes ordinal materialized.replaceAll stored = .ok stored') :
    stored' = { stored with materialized } := by
  unfold EncodedMaterializedState.replaceAll at h
  obtain ⟨_, h, hsnapshot⟩ := executeStatements_append.mp h
  obtain ⟨_, h, husage⟩ := executeStatements_append.mp h
  obtain ⟨_, h, hcounters⟩ := executeStatements_append.mp h
  obtain ⟨_, h, hplans⟩ := executeStatements_append.mp h
  obtain ⟨_, hspans, hmessages⟩ := executeStatements_append.mp h
  rw [replaceTable_ok ⟨fun _ _ => rfl, fun _ _ _ => rfl⟩ hsnapshot,
    replaceTable_ok ⟨fun _ _ => rfl, fun _ _ _ => rfl⟩ husage,
    replaceTable_ok ⟨fun _ _ => rfl, fun _ _ _ => rfl⟩ hcounters,
    replaceTable_ok ⟨fun _ _ => rfl, fun _ _ _ => rfl⟩ hplans,
    replaceTable_ok ⟨fun _ _ => rfl, fun _ _ _ => rfl⟩ hmessages,
    replaceTable_ok ⟨fun _ _ => rfl, fun _ _ _ => rfl⟩ hspans]
  rfl

/-- **A transaction that ran to its end appended the rows, replaced the tables and set both
watermarks.** -/
theorem transaction_ok {events : List AcceptedDiagnosticEvent}
    {materialized : EncodedMaterializedState} {watermark : Nat}
    (h : executeStatements outcomes ordinal (commitStatements events materialized watermark) stored =
      .ok stored') :
    stored' = stored.written events materialized watermark := by
  unfold commitStatements at h
  obtain ⟨_, h, hwatermarks⟩ := executeStatements_append.mp h
  obtain ⟨_, hevents, htables⟩ := executeStatements_append.mp h
  obtain ⟨_, -, heffect, hnil⟩ := executeStatements_cons.mp hwatermarks
  cases hnil
  cases heffect
  rw [replaceAll_ok htables, appendEvents_ok hevents]
  rfl

end Transaction

end Troupe.Store
