import Mathlib.Data.List.Sort
import Troupe.Core.WireEvent
import Troupe.Lib.Iterator

/-! # Reading captured events

`query/reader.rs`: what a reader gets from one read transaction on a diagnostic store. The
transaction answers two statements, a page of rows in key order and one row by its key; every row
read is decoded, and refused unless it is the canonical encoding of an event of this run within the
captured watermark.

The SQL engine is a `Connection`: it may answer anything. `Connection.ofRows` answers as the two
statements do over a table. -/

namespace Troupe.Query

open Troupe.Core Troupe.Lib

/-- `CAPTURED_EVENT_PAGE_SIZE`. -/
def capturedEventPageSize : Nat := 512

/-- `ReaderProfile`. -/
inductive ReaderProfile where
  | active
  | archive
deriving DecidableEq

/-- `ReaderFailureClass`. -/
inductive ReaderFailureClass where
  | coreFatal
  | archiveOperation
deriving DecidableEq

/-- `ReaderErrorCode`, for the functions modelled here. -/
inductive ReaderErrorCode where
  | eventRead
  | eventDecode
  | eventInvariant
deriving DecidableEq

/-- `failure_class`. -/
def failureClass : ReaderProfile → ReaderFailureClass
  | .active => .coreFatal
  | .archive => .archiveOperation

/-- `ReaderFailureSource`, with `ε` for `rusqlite::Error`. -/
inductive ReaderFailureSource (ε : Type) where
  | sqlite (error : ε)
  | decode (error : DecodeError)
  | detail (text : String)

/-- `ReaderFailure`. -/
structure ReaderFailure (ε : Type) where
  failureClass : ReaderFailureClass
  profile : ReaderProfile
  code : ReaderErrorCode
  path : String
  source : ReaderFailureSource ε

/-- The two statements of a read transaction. -/
structure Connection (ε : Type) where
  /-- `SELECT canonical_json FROM events WHERE sequence_key > ?1 AND sequence_key <= ?2
  ORDER BY sequence_key LIMIT ?3`. -/
  selectPage : Nat → Nat → Nat → Except ε (List (Except ε (List UInt8)))
  /-- `SELECT canonical_json FROM events WHERE sequence_key = ?1`. -/
  selectEvent : Nat → Except ε (Option (List UInt8))

/-- A row of the table `events`: its primary key and the event's text. -/
structure EventRow where
  sequenceKey : Nat
  canonicalJson : List UInt8

/-- `ORDER BY sequence_key`. -/
def EventRow.before (row other : EventRow) : Bool := row.sequenceKey ≤ other.sequenceKey

/-- What the statements answer over a table, whatever the order its rows are stored in. -/
def Connection.ofRows {ε : Type} (rows : List EventRow) : Connection ε where
  selectPage after through limit :=
    let selected := rows.filter fun row => after < row.sequenceKey && row.sequenceKey ≤ through
    .ok (((selected.mergeSort EventRow.before).take limit).map fun row => .ok row.canonicalJson)
  selectEvent key := .ok ((rows.find? fun row => row.sequenceKey == key).map EventRow.canonicalJson)

/-- `CapturedEvent`. -/
structure CapturedEvent where
  event : DiagnosticEvent
  canonicalBytes : List UInt8

/-- `CapturedEvent::sequence`. -/
def CapturedEvent.sequence (captured : CapturedEvent) : SchemaU64 := captured.event.header.sequence

/-- `CapturedEventPage`. -/
structure CapturedEventPage where
  events : List CapturedEvent
  nextAfter : Option SchemaU64

/-- `CapturedEventSource`. -/
structure CapturedEventSource (ε : Type) where
  connection : Connection ε
  runId : CanonicalUuid
  capturedWatermark : SchemaU64
  profile : ReaderProfile
  databasePath : String

namespace CapturedEventSource

variable {ε : Type} (crates : Crates) (source : CapturedEventSource ε)

/-- `ReaderFailure::detail` and `ReaderFailure::sqlite`, of this source. -/
def failure (code : ReaderErrorCode) (cause : ReaderFailureSource ε) : ReaderFailure ε :=
  ⟨failureClass source.profile, source.profile, code, source.databasePath, cause⟩

/-- `CapturedEventSource::decode_event`. -/
def decodeEvent (canonicalBytes : List UInt8) : Except (ReaderFailure ε) CapturedEvent :=
  match DiagnosticEvent.fromSlice crates canonicalBytes with
  | .error error => .error (source.failure .eventDecode (.decode error))
  | .ok event =>
    if event.header.runId ≠ source.runId ∨ event.header.sequence.get = 0 ∨
        source.capturedWatermark.get < event.header.sequence.get ∨
        event.toVec crates ≠ canonicalBytes then
      .error (source.failure .eventInvariant
        (.detail "captured event identity or canonical encoding is inconsistent"))
    else
      .ok ⟨event, canonicalBytes⟩

/-- One row of a page: its bytes, then the event in them. -/
def readRow (row : Except ε (List UInt8)) : Except (ReaderFailure ε) CapturedEvent := do
  let canonicalBytes ← row.mapError fun error => source.failure .eventRead (.sqlite error)
  source.decodeEvent crates canonicalBytes

/-- `CapturedEventSource::read_event_page`. -/
def readEventPage (afterExclusive : Nat) : Except (ReaderFailure ε) CapturedEventPage :=
  let watermark := source.capturedWatermark.get
  if watermark ≤ afterExclusive then
    .ok ⟨[], none⟩
  else do
    let rows ← (source.connection.selectPage afterExclusive watermark capturedEventPageSize).mapError
      fun error => source.failure .eventRead (.sqlite error)
    let events ← rows.mapM (source.readRow crates)
    .ok ⟨events, events.getLast?.bind fun event =>
      if event.sequence.get < watermark then some event.sequence else none⟩

/-- `CapturedEventSource::read_event`. -/
def readEvent (sequence : Nat) : Except (ReaderFailure ε) CapturedEvent := do
  let found ← (source.connection.selectEvent sequence).mapError
    fun error => source.failure .eventRead (.sqlite error)
  match found with
  | none =>
    .error (source.failure .eventInvariant
      (.detail ("captured dense prefix is missing sequence " ++ toString sequence)))
  | some canonicalBytes =>
    let event ← source.decodeEvent crates canonicalBytes
    if event.sequence.get ≠ sequence then
      .error (source.failure .eventInvariant
        (.detail ("captured event sequence " ++ toString event.sequence.get ++
          " differs from requested " ++ toString sequence)))
    else
      .ok event

variable {crates source} in
/-- A page whose rows are all read. -/
theorem readEventPage_eq {after : Nat} {rows : List (Except ε (List UInt8))}
    {events : List CapturedEvent} (hafter : after < source.capturedWatermark.get)
    (hselect : source.connection.selectPage after source.capturedWatermark.get
      capturedEventPageSize = .ok rows)
    (hread : rows.mapM (source.readRow crates) = .ok events) :
    source.readEventPage crates after = .ok ⟨events, events.getLast?.bind fun event =>
      if event.sequence.get < source.capturedWatermark.get then some event.sequence else none⟩ := by
  unfold readEventPage
  rw [if_neg (Nat.not_le.mpr hafter), hselect]
  simp only [Except.mapError, ok_bind, hread]

/-! ## The iterator over the whole prefix -/

/-- `CapturedEventSource::events`: the first `next_sequence` of a `CapturedEventIter`. -/
def events : Option Nat := if source.capturedWatermark.get = 0 then none else some 1

/-- `CapturedEventIter::next`, over its `next_sequence`. -/
def capturedNext (nextSequence : Option Nat) :
    Except Empty (Option (Except (ReaderFailure ε) CapturedEvent) × Option Nat) :=
  match nextSequence with
  | none => .ok (none, none)
  | some sequence =>
    .ok (some (source.readEvent crates sequence),
      if sequence = source.capturedWatermark.get then none else checkedAdd u64Max sequence 1)

/-! ## Dense prefixes -/

/-- The table holds the events `1..W` of this run, each as its canonical bytes, which read back.
Rows beyond the captured watermark may be there too. -/
structure DensePrefix (rows : List EventRow) (stored : List DiagnosticEvent) : Prop where
  connection : source.connection = .ofRows rows
  /-- `sequence_key` is the primary key, and keys start at one. -/
  keys : (rows.map EventRow.sequenceKey).Nodup
  pos : ∀ row ∈ rows, 0 < row.sequenceKey
  length : stored.length = source.capturedWatermark.get
  row : ∀ event ∈ stored, ⟨event.header.sequence.get, event.toVec crates⟩ ∈ rows
  sequence : stored.map (·.header.sequence.get) = List.range' 1 stored.length
  runId : ∀ event ∈ stored, event.header.runId = source.runId
  reads : ∀ event ∈ stored, DiagnosticEvent.fromSlice crates (event.toVec crates) = .ok event

/-- What a reader has of a stored event. -/
def capture (stored : List DiagnosticEvent) : List CapturedEvent :=
  stored.map fun event => ⟨event, event.toVec crates⟩

theorem length_capture (stored : List DiagnosticEvent) :
    (capture crates stored).length = stored.length := List.length_map _

variable {crates source} {rows : List EventRow} {stored : List DiagnosticEvent}

namespace DensePrefix

variable (h : source.DensePrefix crates rows stored)
include h

theorem sequence_getElem {i : Nat} (hi : i < stored.length) :
    (stored[i]).header.sequence.get = i + 1 := by
  have hseq := congrArg (·[i]?) h.sequence
  simp only [List.getElem?_map, List.getElem?_eq_getElem hi, Option.map_some,
    List.getElem?_range' hi, Option.some.injEq] at hseq
  omega

theorem decodeEvent_ok {event : DiagnosticEvent} (hevent : event ∈ stored) :
    source.decodeEvent crates (event.toVec crates) = .ok ⟨event, event.toVec crates⟩ := by
  obtain ⟨i, hi, rfl⟩ := List.getElem_of_mem hevent
  have hsequence := h.sequence_getElem hi
  have hlength := h.length
  simp only [decodeEvent, h.reads _ hevent]
  rw [if_neg]
  rintro (hrun | hzero | hbeyond | hbytes)
  · exact hrun (h.runId _ hevent)
  · omega
  · omega
  · exact hbytes rfl

theorem row_eq {row other : EventRow} (hrow : row ∈ rows) (hother : other ∈ rows)
    (hkey : row.sequenceKey = other.sequenceKey) : row = other :=
  List.inj_on_of_nodup_map h.keys hrow hother hkey

theorem getElem_row {i : Nat} (hi : i < stored.length) :
    ⟨i + 1, (stored[i]).toVec crates⟩ ∈ rows := by
  have hrow := h.row _ (List.getElem_mem hi)
  rwa [h.sequence_getElem hi] at hrow

/-- A row within the watermark is the row of a stored event. -/
theorem exists_event {row : EventRow} (hrow : row ∈ rows)
    (hle : row.sequenceKey ≤ source.capturedWatermark.get) :
    ∃ (i : Nat) (hi : i < stored.length), row = ⟨i + 1, (stored[i]).toVec crates⟩ := by
  have hpos := h.pos row hrow
  have hlength := h.length
  refine ⟨row.sequenceKey - 1, by omega, ?_⟩
  refine h.row_eq hrow (h.getElem_row (by omega)) ?_
  dsimp only
  omega

/-- The rows of the stored events from the `after`-th on. -/
theorem sorted_rows (after : Nat) :
    ((stored.drop after).map fun event =>
      (⟨event.header.sequence.get, event.toVec crates⟩ : EventRow)).Pairwise
        fun row other => row.sequenceKey < other.sequenceKey := by
  have hsequences : ((stored.drop after).map (·.header.sequence.get)) =
      List.range' (1 + after) (stored.length - after) := by
    rw [List.map_drop, h.sequence, List.drop_range']
    simp
  have hlt : (stored.drop after).Pairwise
      fun event other => event.header.sequence.get < other.header.sequence.get := by
    rw [← List.pairwise_map (f := fun event : DiagnosticEvent => event.header.sequence.get)
      (R := fun a b => a < b), hsequences]
    exact List.pairwise_lt_range'
  exact List.pairwise_map.mpr hlt

theorem mem_selected_iff (after : Nat) (row : EventRow) :
    row ∈ (rows.filter fun row => after < row.sequenceKey &&
        row.sequenceKey ≤ source.capturedWatermark.get) ↔
      row ∈ (stored.drop after).map fun event =>
        (⟨event.header.sequence.get, event.toVec crates⟩ : EventRow) := by
  have hlength := h.length
  simp only [List.mem_filter, Bool.and_eq_true, decide_eq_true_eq, List.mem_map]
  constructor
  · rintro ⟨hrow, hafter, hle⟩
    obtain ⟨i, hi, rfl⟩ := h.exists_event hrow hle
    dsimp only at hafter
    refine ⟨stored[i], ?_, ?_⟩
    · rw [List.mem_drop_iff_getElem]
      refine ⟨i - after, by omega, ?_⟩
      congr 1
      omega
    · rw [h.sequence_getElem hi]
  · rintro ⟨event, hevent, rfl⟩
    obtain ⟨i, hi, rfl⟩ := List.mem_drop_iff_getElem.mp hevent
    refine ⟨h.row _ (List.getElem_mem _), ?_⟩
    dsimp only
    rw [h.sequence_getElem (by omega)]
    omega

/-- The rows after `after`, in key order, are those of the stored events after it. -/
theorem selected (after : Nat) :
    ((rows.filter fun row => after < row.sequenceKey &&
        row.sequenceKey ≤ source.capturedWatermark.get).mergeSort EventRow.before) =
      (stored.drop after).map fun event => ⟨event.header.sequence.get, event.toVec crates⟩ := by
  have hsorted := h.sorted_rows after
  refine @List.Perm.eq_of_pairwise _ (fun row other => row.before other = true) _ _ ?_ ?_ ?_ ?_
  · intro row other hrow hother hle hge
    have hmem := List.mem_filter.mp (List.mem_mergeSort.mp hrow)
    have hmem' := List.mem_filter.mp ((h.mem_selected_iff after other).mpr hother)
    simp only [EventRow.before, decide_eq_true_eq] at hle hge
    exact h.row_eq hmem.1 hmem'.1 (by omega)
  · refine List.pairwise_mergeSort ?_ ?_ _
    · intro a b c hab hbc
      simp only [EventRow.before, decide_eq_true_eq] at hab hbc ⊢
      omega
    · intro a b
      simp only [EventRow.before, Bool.or_eq_true, decide_eq_true_eq]
      omega
  · exact hsorted.imp fun hlt => by simpa [EventRow.before] using Nat.le_of_lt hlt
  · refine (List.mergeSort_perm _ _).trans ?_
    refine (List.perm_ext_iff_of_nodup ?_ ?_).mpr (h.mem_selected_iff after)
    · exact (List.Nodup.of_map _ h.keys).filter _
    · exact hsorted.imp fun hlt heq => by rw [heq] at hlt; omega

theorem mapM_readRow (events : List DiagnosticEvent) (hevents : ∀ event ∈ events, event ∈ stored) :
    (events.map fun event => .ok (event.toVec crates)).mapM (source.readRow crates) =
      .ok (capture crates events) := by
  induction events with
  | nil => rfl
  | cons event events ih =>
    have hrow : source.readRow crates (.ok (event.toVec crates)) =
        .ok ⟨event, event.toVec crates⟩ := by
      simpa [readRow, Except.mapError, bind, Except.bind] using
        h.decodeEvent_ok (hevents event (by simp))
    have hrest := ih fun event hevent => hevents event (by simp [hevent])
    rw [List.map_cons, List.mapM_cons, hrow, ok_bind, hrest, ok_bind]
    rfl

/-- A page of a dense prefix is the next events of it, 512 at most. -/
theorem readEventPage_ok {after : Nat} (hafter : after < stored.length) :
    ∃ page, source.readEventPage crates after = .ok page ∧
      page.events = (capture crates (stored.drop after)).take capturedEventPageSize := by
  have hlength := h.length
  have hrows := h.mapM_readRow ((stored.drop after).take capturedEventPageSize)
    fun event hevent => List.mem_of_mem_drop (List.mem_of_mem_take hevent)
  have hmap : ((((stored.drop after).map fun event =>
      (⟨event.header.sequence.get, event.toVec crates⟩ : EventRow)).take capturedEventPageSize).map
        fun row => (.ok row.canonicalJson : Except ε (List UInt8))) =
      ((stored.drop after).take capturedEventPageSize).map fun event => .ok (event.toVec crates) := by
    rw [← List.map_take, List.map_map]
    rfl
  refine ⟨_, readEventPage_eq (by omega) ?_ hrows, ?_⟩
  · simp only [h.connection, Connection.ofRows, h.selected after, hmap]
  · simp [capture, List.map_take]

/-- One event of a dense prefix by its sequence. -/
theorem readEvent_ok {i : Nat} (hi : i < stored.length) :
    source.readEvent crates (i + 1) = .ok ⟨stored[i], (stored[i]).toVec crates⟩ := by
  have hfind : (rows.find? fun row => row.sequenceKey == i + 1) =
      some ⟨i + 1, (stored[i]).toVec crates⟩ := by
    have hrow := h.getElem_row hi
    have hsome : (rows.find? fun row => row.sequenceKey == i + 1).isSome := by
      rw [List.find?_isSome]
      exact ⟨_, hrow, by simp⟩
    obtain ⟨row, hfound⟩ := Option.isSome_iff_exists.mp hsome
    rw [hfound, Option.some.injEq]
    exact h.row_eq (List.mem_of_find?_eq_some hfound) hrow (by simpa using List.find?_some hfound)
  unfold readEvent
  simp only [h.connection, Connection.ofRows, hfind, Except.mapError, ok_bind, Option.map_some,
    h.decodeEvent_ok (List.getElem_mem hi)]
  rw [if_neg]
  simpa [CapturedEvent.sequence] using h.sequence_getElem hi

/-- The iterator over the whole prefix gives every event once, in order. -/
theorem capturedNext_yields :
    Yields (source.capturedNext crates) source.events ((capture crates stored).map .ok) := by
  have hlength := h.length
  have hrun : ∀ n i, i + n = stored.length → 0 < n →
      Yields (source.capturedNext crates) (some (i + 1))
        ((capture crates (stored.drop i)).map .ok) := by
    intro n
    induction n with
    | zero => intro i _ hn; omega
    | succ n ih =>
      intro i hi _
      have hlt : i < stored.length := by omega
      rw [List.drop_eq_getElem_cons hlt]
      have hnext : source.capturedNext crates (some (i + 1)) =
          .ok (some (.ok ⟨stored[i], (stored[i]).toVec crates⟩),
            if i + 1 = source.capturedWatermark.get then none
            else checkedAdd u64Max (i + 1) 1) := by
        simp only [capturedNext, h.readEvent_ok hlt]
      refine .item hnext ?_
      by_cases hlast : i + 1 = stored.length
      · rw [if_pos (by omega), List.drop_eq_nil_of_le (by omega)]
        exact .done rfl
      · have hmax := source.capturedWatermark.le_max
        rw [if_neg (by omega), checkedAdd_of_le (by omega)]
        exact ih (i + 1) (by omega) (by omega)
  unfold events
  by_cases hzero : source.capturedWatermark.get = 0
  · rw [if_pos hzero, List.eq_nil_of_length_eq_zero (hlength.trans hzero)]
    exact .done rfl
  · rw [if_neg hzero]
    exact hrun stored.length 0 (by omega) (by omega)

end DensePrefix

end CapturedEventSource

end Troupe.Query
