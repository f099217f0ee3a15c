import Mathlib.Data.List.TakeWhile
import Troupe.Agent.Schema.Resources

/-! # The ACP frame reader

`AcpFrameLimitedReader` of `session/mod.rs`: a reader that passes on the newline-terminated frames of
an inner reader, each only when it is complete, small and shallow enough, and JSON-RPC.

* The inner reader is the list of what its polls answer: pending, an I/O error, or some bytes; after
  the last it is at its end. A chunk is of any length but zero.
* `serde_json::from_slice` and `TransportFrame::parse_json` are parameters (`FrameParsers`); of a
  transport frame only what the reader asks is kept.
* `exceeded` and `protocol_violation` are the flags they are stored to. `ReadBuf` is the room left in
  it; `poll_read` answers with the bytes it puts there.
* The stack of `parsed_frame_within_depth` has its top in front.

Beside the code, `frames` splits a whole stream at its newlines, `frameFailure?` finds what is wrong
with one frame, **`frameFailure?_eq_none`**, and `forwarded` takes the leading acceptable frames. -/

namespace Troupe.Agent

open Troupe.Lib

/-- `ACP_FRAME_MAX_BYTES`. -/
def acpFrameMaxBytes : Nat := 16 * 1024 * 1024

/-- `ACP_JSON_MAX_DEPTH`. -/
def acpJsonMaxDepth : Nat := 64

/-- `AcpFrameFailure`. -/
inductive AcpFrameFailure where
  | resourceLimit
  | protocolViolation
deriving DecidableEq

/-- `TransportBatchEntry`: whether it is `Malformed`. -/
inductive TransportBatchEntry where
  | wellFormed
  | malformed
deriving DecidableEq

/-- `TransportFrame`. -/
inductive TransportFrame where
  | single
  | malformed
  | batch (entries : List TransportBatchEntry)
deriving DecidableEq

/-- The parsers the reader calls. -/
structure FrameParsers where
  /-- `serde_json::from_slice::<Value>`. -/
  fromSlice : List UInt8 → Option Json
  /-- `TransportFrame::parse_json`. -/
  parseJson : String → TransportFrame

/-- `std::str::from_utf8`. -/
def fromUtf8 (bytes : List UInt8) : Option String := String.fromUTF8? ⟨bytes.toArray⟩

/-! ## Depth -/

/-- What `json_byte_within_limit` keeps. -/
structure JsonScan where
  jsonDepth : Nat
  inJsonString : Bool
  escapedJsonByte : Bool
deriving DecidableEq

/-- The state at the start of a frame. -/
def JsonScan.start : JsonScan := ⟨0, false, false⟩

/-- `json_byte_within_limit`. -/
def JsonScan.byteWithinLimit (scan : JsonScan) (byte : UInt8) : Bool × JsonScan :=
  if scan.inJsonString then
    if scan.escapedJsonByte then (true, { scan with escapedJsonByte := false })
    else if byte = '\\'.toUInt8 then (true, { scan with escapedJsonByte := true })
    else if byte = '"'.toUInt8 then (true, { scan with inJsonString := false })
    else (true, scan)
  else if byte = '"'.toUInt8 then (true, { scan with inJsonString := true })
  else if byte = '\x7b'.toUInt8 ∨ byte = '['.toUInt8 then
    (decide (scan.jsonDepth + 1 ≤ acpJsonMaxDepth), { scan with jsonDepth := scan.jsonDepth + 1 })
  else if byte = '\x7d'.toUInt8 ∨ byte = ']'.toUInt8 then
    (true, { scan with jsonDepth := scan.jsonDepth - 1 })
  else
    (true, scan)

theorem itemsNodeCount_eq : ∀ items : JsonItems,
    itemsNodeCount items = (items.toList.map nodeCount).sum
  | .nil => rfl
  | .cons value rest => by
    rw [itemsNodeCount, itemsNodeCount_eq rest]
    rfl

theorem fieldsNodeCount_eq : ∀ fields : JsonFields,
    fieldsNodeCount fields = (fields.toList.map (nodeCount ·.2)).sum
  | .nil => rfl
  | .cons key value rest => by
    rw [fieldsNodeCount, fieldsNodeCount_eq rest]
    rfl

/-- The loop of `parsed_frame_within_depth`, over its stack. -/
def withinDepth : List (Json × Nat) → Bool
  | [] => true
  | (value, depth) :: pending =>
    if acpJsonMaxDepth < depth then false
    else
      match value with
      | .array items => withinDepth ((items.toList.map (·, depth + 1)).reverse ++ pending)
      | .object fields =>
        withinDepth ((fields.toList.map fun field => (field.2, depth + 1)).reverse ++ pending)
      | .null | .bool _ | .number _ | .string _ => withinDepth pending
termination_by pending => (pending.map fun entry => nodeCount entry.1).sum
decreasing_by
  all_goals simp [nodeCount, itemsNodeCount_eq, fieldsNodeCount_eq, Function.comp_def]

/-! ## The reader -/

/-- `AcpFrameLimitedReader`, beside its inner reader. -/
structure AcpFrameLimitedReader extends JsonScan where
  frameBytes : Nat
  frame : List UInt8
  pending : List UInt8
  pendingOffset : Nat
  terminalFailure : Option AcpFrameFailure
  innerEof : Bool
  exceeded : Bool
  protocolViolation : Bool

/-- A poll of the inner reader: what it answers before its end. -/
inductive InnerPoll where
  | pending
  | failed
  | data (first : UInt8) (rest : List UInt8)

/-- What a `poll_read` answers. -/
inductive ReadAnswer where
  | ready (bytes : List UInt8)
  | error (failure : AcpFrameFailure)
  | innerError
  | pending
deriving DecidableEq

/-- `b'\n'`. -/
def newlineByte : UInt8 := 10

namespace AcpFrameLimitedReader

/-- `AcpFrameLimitedReader::new`. -/
def new : AcpFrameLimitedReader where
  toJsonScan := .start
  frameBytes := 0
  frame := []
  pending := []
  pendingOffset := 0
  terminalFailure := none
  innerEof := false
  exceeded := false
  protocolViolation := false

/-- `reset_frame`. -/
def resetFrame (reader : AcpFrameLimitedReader) : AcpFrameLimitedReader :=
  { reader with frameBytes := 0, toJsonScan := .start }

/-- `parsed_frame_within_depth`. -/
def parsedFrameWithinDepth (parsers : FrameParsers) (frame : List UInt8) :
    Except AcpFrameFailure Bool :=
  match parsers.fromSlice frame with
  | none => .error .protocolViolation
  | some value =>
    if !withinDepth [(value, 1)] then .ok false
    else
      match fromUtf8 frame with
      | none => .error .protocolViolation
      | some wire =>
        match parsers.parseJson wire with
        | .single => .ok true
        | .malformed => .error .protocolViolation
        | .batch entries =>
          if entries.any (· = .malformed) then .error .protocolViolation else .ok true

/-- `finish_frame`. -/
def finishFrame (parsers : FrameParsers) (reader : AcpFrameLimitedReader) (newline : Bool) :
    Except AcpFrameFailure AcpFrameLimitedReader := do
  let within ← parsedFrameWithinDepth parsers reader.frame
  if !within then
    .error .resourceLimit
  else
    .ok (resetFrame { reader with
      pending := reader.pending ++ reader.frame ++ if newline then [newlineByte] else []
      frame := [] })

/-- `copy_pending`: the bytes put into the room left. -/
def copyPending (reader : AcpFrameLimitedReader) (room : Nat) :
    List UInt8 × AcpFrameLimitedReader :=
  if reader.pendingOffset = reader.pending.length then
    ([], { reader with pending := [], pendingOffset := 0 })
  else
    let count := min room (reader.pending.length - reader.pendingOffset)
    let bytes := (reader.pending.drop reader.pendingOffset).take count
    if reader.pendingOffset + count = reader.pending.length then
      (bytes, { reader with pending := [], pendingOffset := 0 })
    else
      (bytes, { reader with pendingOffset := reader.pendingOffset + count })

/-- `record_failure`. -/
def recordFailure (reader : AcpFrameLimitedReader) (failure : AcpFrameFailure) :
    AcpFrameLimitedReader :=
  match failure with
  | .resourceLimit => { reader with terminalFailure := some failure, exceeded := true }
  | .protocolViolation => { reader with terminalFailure := some failure, protocolViolation := true }

/-- The loop over the bytes of one chunk, up to a `break`. -/
def readBytes (parsers : FrameParsers) (reader : AcpFrameLimitedReader) :
    List UInt8 → AcpFrameLimitedReader
  | [] => reader
  | byte :: rest =>
    if byte = newlineByte then
      match reader.finishFrame parsers true with
      | .error failure => reader.recordFailure failure
      | .ok reader => readBytes parsers reader rest
    else if reader.frameBytes = acpFrameMaxBytes then
      reader.recordFailure .resourceLimit
    else
      let (within, scan) := reader.toJsonScan.byteWithinLimit byte
      if !within then
        recordFailure { reader with toJsonScan := scan } .resourceLimit
      else
        readBytes parsers
          { reader with
            toJsonScan := scan
            frameBytes := reader.frameBytes + 1
            frame := reader.frame ++ [byte] } rest

/-- The inner reader is at its end: what is left is a frame without a newline. -/
def readEnd (parsers : FrameParsers) (reader : AcpFrameLimitedReader) : AcpFrameLimitedReader :=
  let reader := { reader with innerEof := true }
  if reader.frame = [] then reader
  else
    match reader.finishFrame parsers false with
    | .error failure => reader.recordFailure failure
    | .ok reader => reader

/-- The `loop` of `poll_read`. -/
def pollInner (parsers : FrameParsers) (reader : AcpFrameLimitedReader) (room : Nat) :
    List InnerPoll → ReadAnswer × AcpFrameLimitedReader × List InnerPoll
  | [] =>
    match (reader.readEnd parsers).copyPending room with
    | (byte :: bytes, reader) => (.ready (byte :: bytes), reader, [])
    | ([], reader) =>
      match reader.terminalFailure with
      | some failure => (.error failure, reader, [])
      | none => (.ready [], reader, [])
  | .pending :: inner => (.pending, reader, inner)
  | .failed :: inner => (.innerError, reader, inner)
  | .data first rest :: inner =>
    match (reader.readBytes parsers (first :: rest)).copyPending room with
    | (byte :: bytes, reader) => (.ready (byte :: bytes), reader, inner)
    | ([], reader) =>
      match reader.terminalFailure with
      | some failure => (.error failure, reader, inner)
      | none => pollInner parsers reader room inner

/-- `poll_read`. -/
def pollRead (parsers : FrameParsers) (reader : AcpFrameLimitedReader) (inner : List InnerPoll)
    (room : Nat) : ReadAnswer × AcpFrameLimitedReader × List InnerPoll :=
  if room = 0 then (.ready [], reader, inner)
  else
    match reader.copyPending room with
    | (byte :: bytes, reader) => (.ready (byte :: bytes), reader, inner)
    | ([], reader) =>
      match reader.terminalFailure with
      | some failure => (.error failure, reader, inner)
      | none =>
        if reader.innerEof then (.ready [], reader, inner)
        else pollInner parsers reader room inner

/-- One `poll_read` for each room: the rooms with their answers, and the reader after them. -/
def readAll (parsers : FrameParsers) (reader : AcpFrameLimitedReader) (inner : List InnerPoll) :
    List Nat → List (Nat × ReadAnswer) × AcpFrameLimitedReader
  | [] => ([], reader)
  | room :: rooms =>
    let (answer, reader, inner) := reader.pollRead parsers inner room
    let (answers, reader) := readAll parsers reader inner rooms
    ((room, answer) :: answers, reader)

end AcpFrameLimitedReader

/-! ## What should come out -/

/-- The bytes of an answer. -/
def ReadAnswer.bytes : ReadAnswer → List UInt8
  | .ready bytes => bytes
  | .error _ | .innerError | .pending => []

/-- The bytes of a run of reads. -/
def delivered (answers : List (Nat × ReadAnswer)) : List UInt8 :=
  answers.flatMap (·.2.bytes)

/-- The answer to a read into `room`, once everything is delivered. -/
def lastAnswer (failure? : Option AcpFrameFailure) (room : Nat) : ReadAnswer :=
  if room = 0 then .ready []
  else
    match failure? with
    | some failure => .error failure
    | none => .ready []

theorem lastAnswer_zero (failure? : Option AcpFrameFailure) :
    lastAnswer failure? 0 = .ready [] := rfl

theorem lastAnswer_some {failure : AcpFrameFailure} {room : Nat} (hroom : 0 < room) :
    lastAnswer (some failure) room = .error failure := if_neg hroom.ne'

theorem lastAnswer_none (room : Nat) : lastAnswer none room = .ready [] := ite_self _

/-- The bytes of a poll. -/
def InnerPoll.bytes : InnerPoll → List UInt8
  | .pending | .failed => []
  | .data first rest => first :: rest

/-- A frame of a stream, and whether a newline ends it. -/
structure AcpFrame where
  content : List UInt8
  newline : Bool
deriving DecidableEq

/-- The bytes of a frame in its stream. -/
def AcpFrame.wire (frame : AcpFrame) : List UInt8 :=
  frame.content ++ if frame.newline then [newlineByte] else []

/-- The frames of a stream of which `content` is read, since the last newline. -/
def framesFrom (content : List UInt8) : List UInt8 → List AcpFrame
  | [] => if content = [] then [] else [⟨content, false⟩]
  | byte :: rest =>
    if byte = newlineByte then ⟨content, true⟩ :: framesFrom [] rest
    else framesFrom (content ++ [byte]) rest

/-- The frames of a stream; bytes after its last newline are one more. -/
def frames (stream : List UInt8) : List AcpFrame := framesFrom [] stream

/-- The scan over the bytes of a frame; `none` when its brackets nest too deep. -/
def scanFrame (content : List UInt8) : Option JsonScan :=
  content.foldlM (fun scan byte =>
    match scan.byteWithinLimit byte with
    | (true, scan) => some scan
    | (false, _) => none) .start

/-- What is wrong with a frame. -/
def frameFailure? (parsers : FrameParsers) (content : List UInt8) : Option AcpFrameFailure :=
  if acpFrameMaxBytes < content.length ∨ scanFrame content = none then some .resourceLimit
  else
    match AcpFrameLimitedReader.parsedFrameWithinDepth parsers content with
    | .error failure => some failure
    | .ok false => some .resourceLimit
    | .ok true => none

/-- The frame is within the limits and JSON-RPC. -/
structure AcpFrame.Acceptable (parsers : FrameParsers) (content : List UInt8) : Prop where
  bytes_le : content.length ≤ acpFrameMaxBytes
  brackets : scanFrame content ≠ none
  parsed : ∃ value wire, parsers.fromSlice content = some value ∧ nesting value ≤ acpJsonMaxDepth ∧
    fromUtf8 content = some wire ∧ (parsers.parseJson wire = .single ∨
      ∃ entries, parsers.parseJson wire = .batch entries ∧ .malformed ∉ entries)

/-- The leading acceptable frames, as they stand in the stream. -/
def forwarded (parsers : FrameParsers) (frames : List AcpFrame) : List UInt8 :=
  (frames.takeWhile fun frame => frameFailure? parsers frame.content = none).flatMap AcpFrame.wire

/-- What is wrong with the first frame that is not acceptable. -/
def failureOf (parsers : FrameParsers) (frames : List AcpFrame) : Option AcpFrameFailure :=
  frames.findSome? fun frame => frameFailure? parsers frame.content

/-! ## Depth and frames -/

section Depth

theorem itemsNesting_le (limit depth : Nat) : ∀ items : JsonItems,
    depth + itemsNesting items ≤ limit ↔
      depth ≤ limit ∧ ∀ value ∈ items.toList, depth + nesting value ≤ limit
  | .nil => by simp [itemsNesting, JsonItems.toList]
  | .cons value rest => by
    have hrest := itemsNesting_le limit depth rest
    rw [itemsNesting, JsonItems.toList, List.forall_mem_cons, ← Nat.add_max_add_left, Nat.max_le,
      hrest]
    tauto

theorem fieldsNesting_le (limit depth : Nat) : ∀ fields : JsonFields,
    depth + fieldsNesting fields ≤ limit ↔
      depth ≤ limit ∧ ∀ field ∈ fields.toList, depth + nesting field.2 ≤ limit
  | .nil => by simp [fieldsNesting, JsonFields.toList]
  | .cons key value rest => by
    have hrest := fieldsNesting_le limit depth rest
    rw [fieldsNesting, JsonFields.toList, List.forall_mem_cons, ← Nat.add_max_add_left, Nat.max_le,
      hrest]
    tauto

/-- The loop finds out whether every value on its stack ends in time. -/
theorem withinDepth_iff (pending : List (Json × Nat)) : withinDepth pending = true ↔
    ∀ entry ∈ pending, entry.2 + nesting entry.1 ≤ acpJsonMaxDepth + 1 := by
  induction pending using withinDepth.induct with
  | case1 => simp [withinDepth]
  | case2 value depth pending hdeep =>
    have hpos := nesting_pos value
    rw [withinDepth.eq_def]
    simp only [if_pos hdeep, Bool.false_eq_true, List.forall_mem_cons, false_iff, not_and]
    intro hle
    omega
  | case3 depth pending hdeep items ih =>
    rw [withinDepth, if_neg hdeep, ih, List.forall_mem_append, List.forall_mem_cons]
    refine and_congr_left' ?_
    have hitems := itemsNesting_le (acpJsonMaxDepth + 1) (depth + 1) items
    simp only [List.mem_reverse, List.mem_map, forall_exists_index, and_imp,
      forall_apply_eq_imp_iff₂, nesting]
    rw [← Nat.add_assoc, hitems]
    exact (and_iff_right (by omega)).symm
  | case4 depth pending hdeep fields ih =>
    rw [withinDepth, if_neg hdeep, ih, List.forall_mem_append, List.forall_mem_cons]
    refine and_congr_left' ?_
    have hfields := fieldsNesting_le (acpJsonMaxDepth + 1) (depth + 1) fields
    simp only [List.mem_reverse, List.mem_map, forall_exists_index, and_imp,
      forall_apply_eq_imp_iff₂, nesting]
    rw [← Nat.add_assoc, hfields]
    exact (and_iff_right (by omega)).symm
  | case5 depth pending hdeep ih | case6 depth pending hdeep _ ih
  | case7 depth pending hdeep _ ih | case8 depth pending hdeep _ ih =>
    rw [withinDepth, if_neg hdeep, ih, List.forall_mem_cons]
    simp only [nesting]
    exact (and_iff_right (by omega)).symm

end Depth

section Frames

variable {parsers : FrameParsers} {content : List UInt8}

theorem parsedFrameWithinDepth_eq_true (parsers : FrameParsers) (content : List UInt8) :
    AcpFrameLimitedReader.parsedFrameWithinDepth parsers content = .ok true ↔
      ∃ value wire, parsers.fromSlice content = some value ∧ nesting value ≤ acpJsonMaxDepth ∧
        fromUtf8 content = some wire ∧ (parsers.parseJson wire = .single ∨
          ∃ entries, parsers.parseJson wire = .batch entries ∧ .malformed ∉ entries) := by
  unfold AcpFrameLimitedReader.parsedFrameWithinDepth
  rcases parsers.fromSlice content with _ | value
  · simp
  have hdepth : withinDepth [(value, 1)] = true ↔ nesting value ≤ acpJsonMaxDepth := by
    rw [withinDepth_iff, List.forall_mem_singleton, Nat.add_comm, Nat.add_le_add_iff_right]
  by_cases hdeep : nesting value ≤ acpJsonMaxDepth
  · rcases fromUtf8 content with _ | wire
    · simp [hdepth.2 hdeep]
    rcases hframe : parsers.parseJson wire with _ | _ | entries
    · simp [hdepth.2 hdeep, hdeep, hframe]
    · simp [hdepth.2 hdeep, hframe]
    · by_cases hmem : TransportBatchEntry.malformed ∈ entries <;>
        simp [hdepth.2 hdeep, hdeep, hframe, hmem]
  · have hfalse := Bool.eq_false_iff.2 fun htrue => hdeep (hdepth.1 htrue)
    simp [hfalse, hdeep]

/-- What the claim of a good frame says is what the reader asks of it. -/
theorem frameFailure?_eq_none :
    frameFailure? parsers content = none ↔ AcpFrame.Acceptable parsers content := by
  unfold frameFailure?
  by_cases hsize : acpFrameMaxBytes < content.length ∨ scanFrame content = none
  · rw [if_pos hsize]
    refine iff_of_false (Option.some_ne_none _) fun hfine => ?_
    exact hsize.elim hfine.bytes_le.not_gt hfine.brackets
  rw [if_neg hsize]
  rw [not_or, Nat.not_lt] at hsize
  have hparsed := parsedFrameWithinDepth_eq_true parsers content
  rcases hresult : AcpFrameLimitedReader.parsedFrameWithinDepth parsers content with _ | _ | _
  · refine iff_of_false (Option.some_ne_none _) fun hfine => ?_
    cases hresult.symm.trans (hparsed.2 hfine.parsed)
  · refine iff_of_false (Option.some_ne_none _) fun hfine => ?_
    cases hresult.symm.trans (hparsed.2 hfine.parsed)
  · exact iff_of_true rfl ⟨hsize.1, hsize.2, hparsed.1 hresult⟩

/-- A frame that is already too long or too deep. -/
def Spoiled (content : List UInt8) : Prop :=
  acpFrameMaxBytes < content.length ∨ scanFrame content = none

theorem scanFrame_concat (content : List UInt8) (byte : UInt8) : scanFrame (content ++ [byte]) =
    (scanFrame content).bind fun scan =>
      match scan.byteWithinLimit byte with
      | (true, scan) => some scan
      | (false, _) => none := by
  simp only [scanFrame, List.foldlM_append, List.foldlM_cons, List.foldlM_nil]
  rcases List.foldlM _ _ _ with _ | scan
  · rfl
  rcases h : scan.byteWithinLimit byte with ⟨_ | _, _⟩ <;> simp [h]

theorem Spoiled.concat (hspoiled : Spoiled content) (byte : UInt8) :
    Spoiled (content ++ [byte]) := by
  rcases hspoiled with hlong | hdeep
  · exact .inl (by rw [List.length_append]; omega)
  · exact .inr (by rw [scanFrame_concat, hdeep]; rfl)

theorem Spoiled.failure (hspoiled : Spoiled content) :
    frameFailure? parsers content = some .resourceLimit := if_pos hspoiled

theorem Spoiled.ne_nil (hspoiled : Spoiled content) : content ≠ [] := by
  rintro rfl
  rcases hspoiled with hlong | hdeep
  · exact absurd hlong (by decide)
  · cases hdeep

theorem forwarded_cons_of_failure (frame : AcpFrame) {failure : AcpFrameFailure}
    (hfailure : frameFailure? parsers frame.content = some failure) (rest : List AcpFrame) :
    forwarded parsers (frame :: rest) = [] ∧
      failureOf parsers (frame :: rest) = some failure := by
  simp [forwarded, failureOf, hfailure]

theorem forwarded_cons_of_none (frame : AcpFrame)
    (hfine : frameFailure? parsers frame.content = none) (rest : List AcpFrame) :
    forwarded parsers (frame :: rest) = frame.wire ++ forwarded parsers rest ∧
      failureOf parsers (frame :: rest) = failureOf parsers rest := by
  simp [forwarded, failureOf, hfine]

/-- Whatever follows, a spoiled frame is where the stream stops. -/
theorem Spoiled.forwarded (hspoiled : Spoiled content) (stream : List UInt8) :
    forwarded parsers (framesFrom content stream) = [] ∧
      failureOf parsers (framesFrom content stream) = some .resourceLimit := by
  induction stream generalizing content with
  | nil =>
    rw [framesFrom, if_neg hspoiled.ne_nil]
    exact forwarded_cons_of_failure ⟨content, false⟩ hspoiled.failure []
  | cons byte rest ih =>
    by_cases hnewline : byte = newlineByte
    · rw [framesFrom, if_pos hnewline]
      exact forwarded_cons_of_failure ⟨content, true⟩ hspoiled.failure _
    · rw [framesFrom, if_neg hnewline]
      exact ih (hspoiled.concat byte)

/-- Splitting a stream loses no byte. -/
theorem framesFrom_wire (stream : List UInt8) :
    (framesFrom content stream).flatMap AcpFrame.wire = content ++ stream := by
  induction stream generalizing content with
  | nil =>
    by_cases hempty : content = [] <;> simp [framesFrom, hempty, AcpFrame.wire]
  | cons byte rest ih =>
    by_cases hnewline : byte = newlineByte
    · rw [framesFrom, if_pos hnewline, List.flatMap_cons, ih, hnewline]
      simp [AcpFrame.wire]
    · rw [framesFrom, if_neg hnewline, ih]
      simp

theorem forwarded_eq_of_failureOf {stream : List UInt8}
    (hfine : failureOf parsers (frames stream) = none) :
    Troupe.Agent.forwarded parsers (frames stream) = stream := by
  have hall : ∀ frame ∈ frames stream, frameFailure? parsers frame.content = none :=
    List.findSome?_eq_none_iff.1 hfine
  rw [Troupe.Agent.forwarded, List.takeWhile_eq_self_iff.2 fun frame hmem =>
    decide_eq_true (hall frame hmem)]
  exact framesFrom_wire stream

end Frames

end Troupe.Agent
