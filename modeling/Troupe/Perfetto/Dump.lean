import Troupe.Lib.Effect
import Troupe.Perfetto.Body

/-! # The streaming export

`dump.rs` of the Perfetto exporter: the export of a stored prefix to a writer. A first pass over the
prefix fixes the plan, and only then packets are written: the descriptors, then those of the
events, which a second pass reads again.

* A source is asked for the events after a sequence and answers with a page of them; the two passes
  may be served in different pages.
* A writer takes as many of the bytes it is offered as it says. What it took is `output`.
* A loop over pages ends when a page is empty or `through` is reached. A source that serves the same
  page again and again keeps it going; the loops have fuel, and `unfinished` is a loop that ran out
  of it.
* A count of open spans is at most the number of events, which fits in 64 bits. -/

namespace Troupe.Perfetto

open Troupe.Lib Troupe.Core

/-! ## Errors -/

/-- The kinds of the errors of a writer that the exporter makes itself, and all others. -/
inductive IoErrorKind where
  | writeZero
  | invalidData
  | other
deriving DecidableEq

/-- `io::Error`. -/
structure IoError where
  kind : IoErrorKind
  message : String
deriving DecidableEq

/-- `DumpError`, with the failures of the source. -/
inductive DumpError (ρ : Type) where
  | source (error : ρ)
  | projection (error : ProjectionError)
  | writer (error : IoError)
  | resourceOverflow (metric : String)

/-- How an export can stop: with an error, by a panic, or not at all. -/
inductive Halt (ρ : Type) where
  | failed (error : DumpError ρ)
  | panicked (message : String)
  | unfinished

/-- A fault of the projection. -/
def Halt.ofFault {ρ : Type} : Fault ProjectionError → Halt ρ
  | .raised error => .failed (.projection error)
  | .panicked message => .panicked message

/-! ## Metrics -/

/-- `DumpMetrics`. -/
structure DumpMetrics where
  sourcePageReads : Nat
  peakPageEvents : Nat
  descriptorCount : Nat
  packetCount : Nat
  bytesWritten : Nat
  peakPacketBytes : Nat
deriving DecidableEq

/-- `DumpMetrics::default`. -/
def DumpMetrics.zero : DumpMetrics := ⟨0, 0, 0, 0, 0, 0⟩

/-- What an export has to do with: the writer, what it took, and the metrics. -/
structure Dumping (σ : Type) where
  writer : σ
  output : List UInt8
  metrics : DumpMetrics

/-- An export. -/
abbrev Dump (ρ σ : Type) := ExceptT (Halt ρ) (StateM (Dumping σ))

/-- A number of 64 bits with more added. -/
def checkedMetric {ρ : Type} (value more : Nat) (metric : String) : Except (Halt ρ) Nat :=
  match checkedAdd u64Max value more with
  | none => .error (.failed (.resourceOverflow metric))
  | some value => .ok value

/-- The metrics with one of them changed. -/
def updateMetrics {ρ σ : Type} (update : DumpMetrics → Except (Halt ρ) DumpMetrics) :
    Dump ρ σ Unit :=
  ExceptT.mk fun state =>
    match update state.metrics with
    | .error halt => (.error halt, state)
    | .ok metrics => (.ok (), { state with metrics := metrics })

/-- `observe_page`. -/
def observePage {ρ σ : Type} (eventCount : Nat) : Dump ρ σ Unit :=
  updateMetrics fun metrics => do
    let reads ← checkedMetric metrics.sourcePageReads 1 "source_page_reads"
    .ok { metrics with
      sourcePageReads := reads
      peakPageEvents := max metrics.peakPageEvents eventCount }

/-- `observe_packet`. -/
def observePacket {ρ σ : Type} (encodedBytes : Nat) : Dump ρ σ Unit :=
  updateMetrics fun metrics => do
    let count ← checkedMetric metrics.packetCount 1 "packet_count"
    .ok { metrics with
      packetCount := count
      peakPacketBytes := max metrics.peakPacketBytes encodedBytes }

/-- The descriptor count goes up. -/
def observeDescriptor {ρ σ : Type} : Dump ρ σ Unit :=
  updateMetrics fun metrics => do
    let count ← checkedMetric metrics.descriptorCount 1 "descriptor_count"
    .ok { metrics with descriptorCount := count }

/-! ## The capture boundary -/

/-- `TimestampBounds`. -/
structure TimestampBounds where
  minimum : Option Nat
  maximum : Option Nat
  openSpans : Nat
deriving DecidableEq

/-- `CaptureBoundaryPosition`. -/
inductive CaptureBoundaryPosition where
  | beforeEvents
  | afterEvents
deriving DecidableEq

/-- `CaptureBoundary`. -/
structure CaptureBoundary where
  timestamp : Nat
  position : CaptureBoundaryPosition
deriving DecidableEq

namespace TimestampBounds

/-- `TimestampBounds::default`. -/
def empty : TimestampBounds := ⟨none, none, 0⟩

/-- `observe`. -/
def observe (bounds : TimestampBounds) (elapsedNs : Nat) : TimestampBounds :=
  { bounds with
    minimum := some ((bounds.minimum.map fun value => min value elapsedNs).getD elapsedNs)
    maximum := some ((bounds.maximum.map fun value => max value elapsedNs).getD elapsedNs) }

/-- `observe_event`. -/
def observeEvent {ρ : Type} (bounds : TimestampBounds) (event : DiagnosticEvent) :
    Except (Halt ρ) TimestampBounds :=
  let bounds := bounds.observe event.elapsedNs.get
  match event with
  | .spanStarted _ | .customSpanStarted _ => .ok { bounds with openSpans := bounds.openSpans + 1 }
  | .spanFinished _ | .customSpanFinished _ =>
    if bounds.openSpans = 0 then .error (.panicked "projection validated the finished span")
    else .ok { bounds with openSpans := bounds.openSpans - 1 }
  | _ => .ok bounds

/-- `capture_boundary`. -/
def captureBoundary (bounds : TimestampBounds) : Option CaptureBoundary :=
  if bounds.openSpans = 0 then none
  else
    (bounds.minimum.filter fun minimum => decide (some minimum = bounds.maximum)).map
      fun timestamp =>
        if timestamp < i64Max then ⟨timestamp + 1, .afterEvents⟩
        else ⟨timestamp - 1, .beforeEvents⟩

end TimestampBounds

/-! ## The source -/

/-- `ScanPass`. -/
inductive ScanPass where
  | preflight
  | emit
deriving DecidableEq

/-- A page of a stored prefix: its events, with the sequences they are stored under. -/
abbrev PrefixPage := List (SchemaU64 × DiagnosticEvent)

/-- `PrefixSource`: what `read_event_page` answers. -/
abbrev PrefixSource (ρ : Type) := SchemaU64 → ScanPass → Except ρ PrefixPage

section Scan

variable {ρ σ τ : Type}

/-- The loop of `scan_prefix` over one page: whether `through` is reached, and how far it came. -/
def scanPage (through : SchemaU64) (observe : τ → DiagnosticEvent → Dump ρ σ τ) :
    PrefixPage → SchemaU64 → τ → Dump ρ σ (Bool × SchemaU64 × τ)
  | [], after, t => pure (false, after, t)
  | (sequence, event) :: rest, after, t =>
    if through < sequence then pure (true, after, t)
    else do
      let t ← observe t event
      if sequence = through then pure (true, sequence, t)
      else scanPage through observe rest sequence t

/-- `scan_prefix`, and the loop of the second pass. -/
def scanPrefix (source : PrefixSource ρ) (through : SchemaU64) (pass : ScanPass)
    (observe : τ → DiagnosticEvent → Dump ρ σ τ) : Nat → SchemaU64 → τ → Dump ρ σ τ
  | fuel, after, t =>
    if through ≤ after then pure t
    else
      match fuel with
      | 0 => throw .unfinished
      | fuel + 1 => do
        let page ← lift ((source after pass).mapError fun error => .failed (.source error))
        observePage page.length
        let (reachedThrough, after, t) ← scanPage through observe page after t
        if reachedThrough || page.isEmpty then pure t
        else scanPrefix source through pass observe fuel after t

end Scan

/-! ## The writer -/

/-- `poll_write`, until the writer is ready. -/
abbrev AsyncWrite (σ : Type) := σ → List UInt8 → Except IoError Nat × σ

section Write

variable {ρ σ : Type} (writer : AsyncWrite σ)

/-- One offer to the writer. -/
def pollWrite (bytes : List UInt8) : Dump ρ σ Nat :=
  ExceptT.mk fun state =>
    match writer state.writer bytes with
    | (.error error, next) => (.error (.failed (.writer error)), { state with writer := next })
    | (.ok written, next) =>
      (.ok written, { state with writer := next, output := state.output ++ bytes.take written })

/-- `write_all_without_error_retry`. -/
def writeAllWithoutErrorRetry (bytes : List UInt8) : Dump ρ σ Unit :=
  if bytes = [] then pure ()
  else do
    let written ← pollWrite writer bytes
    if _hzero : written = 0 then
      throw (.failed (.writer ⟨.writeZero,
        "writer accepted zero bytes for a non-empty Perfetto packet"⟩))
    else if bytes.length < written then
      throw (.failed (.writer ⟨.invalidData, "writer reported more bytes than were offered"⟩))
    else
      updateMetrics fun metrics => do
        let total ← checkedMetric metrics.bytesWritten written "bytes_written"
        .ok { metrics with bytesWritten := total }
      writeAllWithoutErrorRetry (bytes.drop written)
termination_by bytes.length
decreasing_by
  have := List.length_pos_iff.mpr ‹¬bytes = []›
  rw [List.length_drop]
  omega

/-- `write_packet`. -/
def writePacket (packet : TracePacket) : Dump ρ σ Unit := do
  let buffer := encodeTracePacketFragment packet
  observePacket buffer.length
  writeAllWithoutErrorRetry writer buffer

end Write

/-! ## The export -/

/-- `DumpSummary`. -/
structure DumpSummary where
  capturedWatermark : SchemaU64
  exportedThrough : SchemaU64
  eventCount : Nat
  descriptorCount : Nat
  packetCount : Nat
  bytesWritten : Nat
  sourcePageReads : Nat
  peakPageEvents : Nat
  peakPacketBytes : Nat
  structuralIndexUsage : StructuralIndexUsage

section Export

variable {ρ σ : Type}

/-- What the first pass does with an event. -/
def preflightEvent (seen : ProjectionCollector × TimestampBounds) (event : DiagnosticEvent) :
    Dump ρ σ (ProjectionCollector × TimestampBounds) := do
  let collector ← lift ((seen.1.observe event).mapError fun error => .failed (.projection error))
  let bounds ← lift (seen.2.observeEvent event)
  pure (collector, bounds)

/-- The packet of a capture boundary, with its position. -/
def boundaryPacket (plan : ProjectionPlan) :
    Option CaptureBoundary → Except ProjectionError (Option (CaptureBoundaryPosition × TracePacket))
  | none => .ok none
  | some boundary => do
    let packet ← plan.captureBoundaryPacket boundary.timestamp
    .ok (some (boundary.position, packet))

/-- The part of `dump_captured_prefix_core` before anything is written. -/
def preflight (source : PrefixSource ρ) (through : SchemaU64) (metadata : ProjectionMetadata)
    (structuralLimits : StructuralIndexLimits) (fuel : Nat) :
    Dump ρ σ (ProjectionPlan × Option (CaptureBoundaryPosition × TracePacket)) := do
  let collector ← lift ((ProjectionCollector.newWithStructuralLimits metadata .unlimited
    structuralLimits).mapError fun error => .failed (.projection error))
  let (collector, bounds) ← scanPrefix source through .preflight preflightEvent fuel 0
    (collector, .empty)
  let plan ← lift (collector.finish.mapError fun error => .failed (.projection error))
  let boundary ← lift ((boundaryPacket plan bounds.captureBoundary).mapError
    fun error => .failed (.projection error))
  pure (plan, boundary)

/-- The boundary packet, when it stands there. -/
def boundaryAt (position : CaptureBoundaryPosition) :
    Option (CaptureBoundaryPosition × TracePacket) → List TracePacket
  | none => []
  | some (found, packet) => if found = position then [packet] else []

variable (writer : AsyncWrite σ)

/-- Write packets in their order. -/
def writePackets (packets : List TracePacket) : Dump ρ σ Unit := packets.forM (writePacket writer)

/-- Write the packet of a descriptor. -/
def writeDescriptor (packet : TracePacket) : Dump ρ σ Unit := do
  writePacket writer packet
  observeDescriptor

/-- What the second pass does with an event. -/
def emitEvent (plan : ProjectionPlan) (projector : PacketProjector) (event : DiagnosticEvent) :
    Dump ρ σ PacketProjector := do
  let (packets, projector) ← lift ((projector.projectEvent plan event).mapError .ofFault)
  writePackets writer packets
  pure projector

/-- The part of `dump_captured_prefix_core` that writes. -/
def emit (source : PrefixSource ρ) (through : SchemaU64) (plan : ProjectionPlan)
    (boundary : Option (CaptureBoundaryPosition × TracePacket)) (fuel : Nat) : Dump ρ σ Unit := do
  match plan.descriptorPackets with
  | none => throw (.panicked "finished catalog assigns every descriptor")
  | some descriptors => descriptors.forM (writeDescriptor writer)
  writePackets writer (boundaryAt .beforeEvents boundary)
  let projector ← scanPrefix source through .emit (emitEvent writer plan) fuel 0 .new
  lift ((projector.finish plan).mapError fun error => .failed (.projection error))
  writePackets writer (boundaryAt .afterEvents boundary)

/-- `dump_captured_prefix_core`. -/
def dumpCapturedPrefixCore (source : PrefixSource ρ) (capturedWatermark exportedThrough : SchemaU64)
    (metadata : ProjectionMetadata) (structuralLimits : StructuralIndexLimits) (fuel : Nat) :
    Dump ρ σ DumpSummary := do
  let (plan, boundary) ← preflight source exportedThrough metadata structuralLimits fuel
  emit writer source exportedThrough plan boundary fuel
  let state ← get
  pure ⟨capturedWatermark, exportedThrough, exportedThrough.get, state.metrics.descriptorCount,
    state.metrics.packetCount, state.metrics.bytesWritten, state.metrics.sourcePageReads,
    state.metrics.peakPageEvents, state.metrics.peakPacketBytes, plan.structuralIndexUsage⟩

/-- An export with nothing written yet. -/
def Dumping.start (writer : σ) : Dumping σ := ⟨writer, [], .zero⟩

end Export

end Troupe.Perfetto
