import Troupe.Lib.Text
import Troupe.Perfetto.Preflight

/-! # What the export writes

The export writes the packets of the projected trace, with one packet more where a capture boundary
is needed, whatever the pages of the source and however little the writer takes at a time. A first
pass that fails writes nothing, and the body is one that the client accepts unless a packet is too
long: **`dump_streams`**. -/

namespace Troupe.Perfetto

open Troupe.Lib Troupe.Core

/-! ## The packets of a trace are framed -/

theorem startsWithMetadata_iff (name : String) : startsWithMetadata name = true ↔ Marked name := by
  unfold startsWithMetadata
  rw [List.isPrefixOf_iff_prefix]
  constructor
  · rintro ⟨rest, hrest⟩
    refine ⟨String.ofList rest, String.toList_inj.mp ?_⟩
    rw [String.toList_append, String.toList_ofList, hrest]
  · rintro ⟨rest, rfl⟩
    rw [String.toList_append]
    exact List.prefix_append _ _

theorem filter_eq_singleton {α : Type} [DecidableEq α] {items : List α} {item : α} {p : α → Bool}
    (hnodup : items.Nodup) (hmem : item ∈ items) (hp : ∀ other ∈ items, p other = true ↔ other = item) :
    items.filter p = [item] := by
  rw [List.filter_congr (q := fun other => other == item) fun other hother => by
    rw [Bool.eq_iff_iff, hp other hother, beq_iff_eq], List.filter_beq,
    List.count_eq_one_of_mem hnodup hmem]
  rfl

section Trace

variable {metadata : ProjectionMetadata} {events : List DiagnosticEvent}
  {builder : TrackCatalogBuilder} {plan : ProjectionPlan} {groups : List (List TracePacket)}
  {trace : ProjectedTrace}

theorem TraceOf.framed (h : TraceOf plan events groups trace) :
    ∀ packet ∈ trace.packets, Framed packet := by
  intro packet hmem
  rcases List.mem_append.mp hmem with hmem | hmem
  · rw [h.declares] at hmem
    obtain ⟨descriptor, -, rfl⟩ := List.mem_map.mp hmem
    exact .descriptor _
  · rw [h.emits] at hmem
    obtain ⟨group, hgroup, hmem⟩ := List.mem_flatten.mp hmem
    obtain ⟨event, -, hown⟩ := forall₂_exists_left h.owned hgroup
    obtain ⟨_, _, trackEvent, hown⟩ := hown.all hmem
    have hpacket : packet =
        ⟨some event.elapsedNs.get, some 1, some (.trackEvent trackEvent), some traceFileClock⟩ := by
      rw [← hown.timestamp, ← hown.data, ← hown.clock]
      exact congrArg (fun trusted => ({ packet with trustedPacketSequenceId := trusted } :
        TracePacket)) hown.trusted
    rw [hpacket]
    exact .event _ _

/-- The track of the metadata. -/
def isMetadataTrack (definition : TrackDefinition) : Bool := startsWithMetadata definition.name

theorem Marked.append {a x : String} (h : Marked a) : Marked (a ++ x) := by
  obtain ⟨rest, rfl⟩ := h
  exact ⟨rest ++ x, String.append_assoc⟩

theorem metadataTrackName_marked (metadata : ProjectionMetadata) :
    Marked metadata.metadataTrackName := by
  unfold ProjectionMetadata.metadataTrackName
  repeat apply Marked.append
  exact ⟨"", String.append_empty.symm⟩

/-- One packet of the trace describes the metadata. -/
theorem TraceOf.metadataNames (h : TraceOf plan events groups trace)
    (hplan : Planned metadata events builder plan) :
    trace.packets.filterMap metadataName? = [metadata.metadataTrackName] := by
  have hevents : trace.events.filterMap metadataName? = [] := by
    rw [h.emits]
    refine List.filterMap_eq_nil_iff.mpr fun packet hmem => ?_
    obtain ⟨group, hgroup, hmem⟩ := List.mem_flatten.mp hmem
    obtain ⟨event, -, hown⟩ := forall₂_exists_left h.owned hgroup
    obtain ⟨_, _, trackEvent, hown⟩ := hown.all hmem
    unfold metadataName?
    rw [hown.data]
  have hmetadata : definitionOf metadata.rootTrackName [metadataStep metadata.metadataTrackName] ∈
      plan.tracks.descriptorOrder := hplan.tracks.mem_order.mpr hplan.described
  have hnodup : plan.tracks.descriptorOrder.Nodup := by
    rw [hplan.tracks.order]
    refine (List.mergeSort_perm _ _).nodup_iff.mpr ?_
    exact hplan.tracks.catalogued.distinct.imp fun hne heq => hne (congrArg _ heq)
  have hone : plan.tracks.descriptorOrder.filter isMetadataTrack =
        [definitionOf metadata.rootTrackName [metadataStep metadata.metadataTrackName]] := by
    refine filter_eq_singleton hnodup hmetadata fun definition hmem => ?_
    unfold isMetadataTrack
    rw [startsWithMetadata_iff]
    constructor
    · exact hplan.tracks.catalogued.marked definition (hplan.tracks.mem_order.mp hmem)
    · rintro rfl
      exact metadataTrackName_marked metadata
  have hnames (order : List TrackDefinition) :
      ((order.map (descriptorOf plan.tracks)).map descriptorPacket).filterMap metadataName? =
        (order.filter isMetadataTrack).map TrackDefinition.name := by
    induction order with
    | nil => rfl
    | cons definition rest ih =>
      rw [List.map_cons, List.map_cons, List.filterMap_cons, ih]
      by_cases hstarts : isMetadataTrack definition = true
      · have hname : metadataName? (descriptorPacket (descriptorOf plan.tracks definition)) =
            some definition.name := if_pos hstarts
        rw [hname, List.filter_cons_of_pos hstarts]
        rfl
      · have hname : metadataName? (descriptorPacket (descriptorOf plan.tracks definition)) =
            none := if_neg hstarts
        rw [hname, List.filter_cons_of_neg hstarts]
  unfold ProjectedTrace.packets
  rw [List.filterMap_append, hevents, List.append_nil, h.declares, hnames, hone]
  rfl

end Trace

/-! ## Writing -/

/-- The writer takes some of what it is offered, each time. -/
def Cooperative {σ : Type} (writer : AsyncWrite σ) : Prop :=
  ∀ state bytes, bytes ≠ [] → ∃ written next, writer state bytes = (.ok written, next) ∧
    0 < written ∧ written ≤ bytes.length

/-- The numbers of an export fit in 64 bits. -/
def Fits (packets : List TracePacket) (through : SchemaU64) : Prop :=
  (encodeTrace packets).length ≤ u64Max ∧ 2 * through.get ≤ u64Max

/-- An export that stopped while it wrote. -/
structure Interrupted {ρ σ : Type} (writer : AsyncWrite σ) (packets : List TracePacket)
    (through : SchemaU64) (_halt : Halt ρ) (state : Dumping σ) : Prop where
  started : state.output <+: encodeTrace packets
  reason : ¬(Cooperative writer ∧ Fits packets through)

/-- So many packets were written. -/
structure Written {σ : Type} (done : List TracePacket) (state : Dumping σ) : Prop where
  output : state.output = encodeTrace done
  bytes : state.metrics.bytesWritten = (encodeTrace done).length
  count : state.metrics.packetCount = done.length
  room : (encodeTrace done).length ≤ u64Max

theorem encodeTrace_append (packets more : List TracePacket) :
    encodeTrace (packets ++ more) = encodeTrace packets ++ encodeTrace more := List.flatMap_append

theorem encodeTrace_singleton (packet : TracePacket) :
    encodeTrace [packet] = encodeTracePacketFragment packet := List.flatMap_singleton _ _

section Writing

variable {ρ σ : Type} {writer : AsyncWrite σ} {packets : List TracePacket} {through : SchemaU64}

/-- **All bytes are written, in whatever portions.** -/
theorem meets_writeAll (bytes : List UInt8) (state : Dumping σ)
    (hbytes : state.metrics.bytesWritten = state.output.length)
    (hroom : state.output.length ≤ u64Max)
    (hwithin : state.output ++ bytes <+: encodeTrace packets) :
    Meets (writeAllWithoutErrorRetry writer bytes : Dump ρ σ Unit) state
      (fun _ state' => state'.output = state.output ++ bytes ∧
        state'.metrics = { state.metrics with bytesWritten := state'.output.length } ∧
        state'.output.length ≤ u64Max)
      (Interrupted writer packets through) := by
  induction hlength : bytes.length using Nat.strong_induction_on generalizing bytes state with
  | _ length ih =>
  subst hlength
  unfold writeAllWithoutErrorRetry
  by_cases hempty : bytes = []
  · rw [if_pos hempty, hempty]
    refine Meets.pure ⟨(List.append_nil _).symm, ?_, hroom⟩
    rw [← hbytes]
  · rw [if_neg hempty]
    have hstarted : state.output <+: encodeTrace packets :=
      (List.prefix_append _ _).trans hwithin
    have hpoll : Meets (pollWrite writer bytes : Dump ρ σ Nat) state
        (fun written state' => state'.output = state.output ++ bytes.take written ∧
          state'.metrics = state.metrics ∧
          (Cooperative writer → 0 < written ∧ written ≤ bytes.length))
        (Interrupted writer packets through) := by
      unfold Meets pollWrite
      rw [ExceptT.run_mk]
      dsimp only
      cases hwrite : writer state.writer bytes with
      | mk answer next =>
        cases answer with
        | error error =>
          refine ⟨hstarted, fun hfine => ?_⟩
          obtain ⟨written, next', hok, -⟩ := hfine.1 state.writer bytes hempty
          rw [hwrite] at hok
          cases hok
        | ok written =>
          refine ⟨rfl, rfl, fun hcooperative => ?_⟩
          obtain ⟨written', next', hok, hpos, hle⟩ := hcooperative state.writer bytes hempty
          rw [hwrite] at hok
          cases hok
          exact ⟨hpos, hle⟩
    refine hpoll.bind fun written state' hpolled => ?_
    obtain ⟨houtput, hmetrics, hcooperative⟩ := hpolled
    have hbefore : state'.output <+: encodeTrace packets := by
      rw [houtput]
      exact ((List.prefix_append_right_inj _).mpr (List.take_prefix _ _)).trans hwithin
    by_cases hzero : written = 0
    · rw [dif_pos hzero]
      exact Meets.throw ⟨hbefore, fun hfine => absurd (hcooperative hfine.1).1 (by omega)⟩
    · rw [dif_neg hzero]
      by_cases hmany : bytes.length < written
      · rw [if_pos hmany]
        exact Meets.throw ⟨hbefore, fun hfine => absurd (hcooperative hfine.1).2 (by omega)⟩
      · rw [if_neg hmany]
        have hlength : state'.output.length = state.output.length + written := by
          rw [houtput, List.length_append, List.length_take, Nat.min_eq_left (Nat.not_lt.mp hmany)]
        have hupdate : Meets (updateMetrics (fun metrics => do
              let total ← checkedMetric metrics.bytesWritten written "bytes_written"
              .ok { metrics with bytesWritten := total }) : Dump ρ σ Unit) state'
            (fun _ state'' => state''.output = state'.output ∧
              state''.metrics = { state.metrics with bytesWritten := state'.output.length } ∧
              state'.output.length ≤ u64Max)
            (Interrupted writer packets through) := by
          refine meets_checkedMetric (fun hfits => ⟨rfl, ?_, ?_⟩)
            fun hover => ⟨hbefore, fun hfine => ?_⟩
          · rw [hmetrics, hbytes, hlength]
          · rw [hmetrics, hbytes, ← hlength] at hfits
            exact hfits
          · rw [hmetrics, hbytes, ← hlength] at hover
            exact absurd (hbefore.length_le.trans hfine.2.1) (Nat.not_le.mpr hover)
        refine hupdate.bind fun _ state'' hupdated => ?_
        obtain ⟨houtput', hmetrics', hroom'⟩ := hupdated
        have hrest : state''.output ++ bytes.drop written = state.output ++ bytes := by
          rw [houtput', houtput, List.append_assoc, List.take_append_drop]
        have hpos := List.length_pos_iff.mpr hempty
        refine (ih (bytes.drop written).length (by rw [List.length_drop]; omega) _ state'' ?_ ?_
          ?_ rfl).imp (fun _ final hfinal => ?_) fun _ _ hfails => hfails
        · rw [hmetrics', houtput']
        · rw [houtput']
          exact hroom'
        · rw [hrest]
          exact hwithin
        · rw [hrest] at hfinal
          refine ⟨hfinal.1, ?_, hfinal.2.2⟩
          rw [hfinal.2.1, hmetrics']

/-- **One packet is written.** -/
theorem meets_writePacket {done todo : List TracePacket} {packet : TracePacket}
    (hpackets : packets = done ++ packet :: todo) {state : Dumping σ} (h : Written done state) :
    Meets (writePacket writer packet : Dump ρ σ Unit) state
      (fun _ state' => Written (done ++ [packet]) state' ∧
        state'.metrics.descriptorCount = state.metrics.descriptorCount ∧
        state'.metrics.sourcePageReads = state.metrics.sourcePageReads)
      (Interrupted writer packets through) := by
  have hsplit : encodeTrace packets =
      encodeTrace done ++ encodeTracePacketFragment packet ++ encodeTrace todo := by
    rw [hpackets, List.append_cons, encodeTrace_append, encodeTrace_append, encodeTrace_singleton]
  have hwithin : state.output ++ encodeTracePacketFragment packet <+: encodeTrace packets := by
    rw [h.output, hsplit]
    exact List.prefix_append _ _
  unfold writePacket
  dsimp only
  have hobserve : Meets (observePacket (encodeTracePacketFragment packet).length : Dump ρ σ Unit)
      state (fun _ state' => state'.output = state.output ∧
        state'.metrics.bytesWritten = state.metrics.bytesWritten ∧
        state'.metrics.packetCount = done.length + 1 ∧
        state'.metrics.descriptorCount = state.metrics.descriptorCount ∧
        state'.metrics.sourcePageReads = state.metrics.sourcePageReads)
      (Interrupted writer packets through) := by
    refine meets_checkedMetric (fun _ => ⟨rfl, rfl, congrArg (· + 1) h.count, rfl, rfl⟩)
      fun hover => ⟨(List.prefix_append _ _).trans hwithin, fun hfine => ?_⟩
    have hle := (length_le_encodeTrace packets).trans hfine.2.1
    rw [hpackets, List.length_append, List.length_cons] at hle
    rw [h.count] at hover
    omega
  refine hobserve.bind fun _ state' hobserved => ?_
  obtain ⟨houtput, hbytes, hcount, hdescriptors, hreads⟩ := hobserved
  refine (meets_writeAll _ state' ?_ ?_ ?_).imp (fun _ final hfinal => ?_) fun _ _ hfails => hfails
  · rw [hbytes, h.bytes, houtput, h.output]
  · rw [houtput, h.output]
    exact h.room
  · rw [houtput]
    exact hwithin
  · obtain ⟨hfinal, hmetrics, hroom⟩ := hfinal
    have hall : final.output = encodeTrace (done ++ [packet]) := by
      rw [hfinal, houtput, h.output, encodeTrace_append, encodeTrace_singleton]
    refine ⟨⟨hall, ?_, ?_, hall ▸ hroom⟩, ?_, ?_⟩
    · rw [hmetrics, ← hall]
    · rw [hmetrics, List.length_append]
      exact hcount
    · rw [hmetrics]
      exact hdescriptors
    · rw [hmetrics]
      exact hreads

/-- **Packets are written in their order.** -/
theorem meets_writePackets {done todo : List TracePacket} (items : List TracePacket)
    (hpackets : packets = done ++ items ++ todo) {state : Dumping σ} (h : Written done state) :
    Meets (writePackets writer items : Dump ρ σ Unit) state
      (fun _ state' => Written (done ++ items) state' ∧
        state'.metrics.descriptorCount = state.metrics.descriptorCount ∧
        state'.metrics.sourcePageReads = state.metrics.sourcePageReads)
      (Interrupted writer packets through) := by
  refine Meets.forM (fun seen state' => Written (done ++ seen) state' ∧
    state'.metrics.descriptorCount = state.metrics.descriptorCount ∧
    state'.metrics.sourcePageReads = state.metrics.sourcePageReads) ?_ ?_
  · rw [List.append_nil]
    exact ⟨h, rfl, rfl⟩
  · rintro seen packet rest state' rfl ⟨hwritten, hdescriptors, hreads⟩
    have hsplit : packets = (done ++ seen) ++ packet :: (rest ++ todo) := by
      rw [hpackets]
      simp only [List.append_assoc, List.cons_append]
    refine (meets_writePacket hsplit hwritten).imp (fun _ final hfinal => ?_)
      fun _ _ hfails => hfails
    · rw [List.append_assoc] at hfinal
      exact ⟨hfinal.1, hfinal.2.1.trans hdescriptors, hfinal.2.2.trans hreads⟩

/-- The descriptors are written, and counted. -/
theorem meets_writeDescriptors (descriptors : List TracePacket) {todo : List TracePacket}
    (hpackets : packets = descriptors ++ todo) {state : Dumping σ} (h : Written [] state)
    (hzero : state.metrics.descriptorCount = 0) :
    Meets (descriptors.forM (writeDescriptor writer) : Dump ρ σ PUnit) state
      (fun _ state' => Written descriptors state' ∧
        state'.metrics.descriptorCount = descriptors.length ∧
        state'.metrics.sourcePageReads = state.metrics.sourcePageReads)
      (Interrupted writer packets through) := by
  refine Meets.forM (fun seen state' => Written seen state' ∧
    state'.metrics.descriptorCount = seen.length ∧
    state'.metrics.sourcePageReads = state.metrics.sourcePageReads) ⟨h, hzero, rfl⟩ ?_
  rintro seen packet rest state' rfl ⟨hwritten, hdescriptors, hreads⟩
  have hsplit : packets = seen ++ packet :: (rest ++ todo) := by
    rw [hpackets, List.append_assoc, List.cons_append]
  unfold writeDescriptor
  refine (meets_writePacket hsplit hwritten).bind fun _ final hfinal => ?_
  obtain ⟨hfinal, hdescriptors', hreads'⟩ := hfinal
  refine meets_checkedMetric (fun _ => ⟨⟨hfinal.output, hfinal.bytes, hfinal.count, hfinal.room⟩, ?_, ?_⟩)
    fun hover => ⟨?_, fun hfine => ?_⟩
  · rw [List.length_append, List.length_singleton]
    exact congrArg (· + 1) (hdescriptors'.trans hdescriptors)
  · exact hreads'.trans hreads
  · rw [hfinal.output, hsplit.trans (List.append_cons _ _ _), encodeTrace_append (seen ++ [packet])]
    exact List.prefix_append _ _
  · have hle := (length_le_encodeTrace packets).trans hfine.2.1
    rw [hsplit, List.length_append, List.length_cons] at hle
    rw [hdescriptors', hdescriptors] at hover
    omega

end Writing

/-! ## The second pass -/

section Emit

variable {ρ σ : Type} {writer : AsyncWrite σ} {source : PrefixSource ρ}
  {events : List DiagnosticEvent} {through : SchemaU64} {metadata : ProjectionMetadata}
  {plan : ProjectionPlan} {trace : ProjectedTrace}
  {boundary : Option (CaptureBoundaryPosition × TracePacket)}

theorem projectEvents_cons {event : DiagnosticEvent} {rest : List DiagnosticEvent}
    {projector final : PacketProjector} {packets : List TracePacket} :
    projector.projectEvents plan (event :: rest) = .ok (packets, final) ↔
      ∃ own next more, projector.projectEvent plan event = .ok (own, next) ∧
        next.projectEvents plan rest = .ok (more, final) ∧ packets = own ++ more := by
  show (projector.projectEvent plan event >>= fun result =>
    result.2.projectEvents plan rest >>= fun more => .ok (result.1 ++ more.1, more.2)) = _ ↔ _
  rw [bind_eq_ok]
  constructor
  · rintro ⟨⟨own, next⟩, hown, hrest⟩
    obtain ⟨⟨more, last⟩, hmore, heq⟩ := bind_eq_ok.mp hrest
    cases heq
    exact ⟨own, next, more, hown, hmore, rfl⟩
  · rintro ⟨own, next, more, hown, hmore, rfl⟩
    exact ⟨(own, next), hown, bind_eq_ok.mpr ⟨(more, final), hmore, rfl⟩⟩

theorem projectEvents_append {first rest : List DiagnosticEvent} {projector final : PacketProjector}
    {packets : List TracePacket} :
    projector.projectEvents plan (first ++ rest) = .ok (packets, final) ↔
      ∃ before middle after, projector.projectEvents plan first = .ok (before, middle) ∧
        middle.projectEvents plan rest = .ok (after, final) ∧ packets = before ++ after := by
  induction first generalizing projector packets with
  | nil =>
    constructor
    · exact fun h => ⟨[], projector, packets, rfl, h, rfl⟩
    · rintro ⟨_, _, after, hfirst, hrest, rfl⟩
      cases hfirst
      exact hrest
  | cons event first ih =>
    rw [List.cons_append, projectEvents_cons]
    constructor
    · rintro ⟨own, next, more, hown, hmore, rfl⟩
      obtain ⟨before, middle, after, hbefore, hafter, rfl⟩ := ih.mp hmore
      exact ⟨own ++ before, middle, after,
        projectEvents_cons.mpr ⟨own, next, before, hown, hbefore, rfl⟩, hafter,
        (List.append_assoc _ _ _).symm⟩
    · rintro ⟨before, middle, after, hfirst, hafter, rfl⟩
      obtain ⟨own, next, more, hown, hmore, rfl⟩ := projectEvents_cons.mp hfirst
      exact ⟨own, next, more ++ after, hown, ih.mpr ⟨more, middle, after, hmore, hafter, rfl⟩,
        List.append_assoc _ _ _⟩

/-- What is kept while the second pass goes on. -/
structure Emitting (plan : ProjectionPlan) (events : List DiagnosticEvent)
    (before all : List TracePacket) (descriptors : Nat) (i : Nat) (projector : PacketProjector)
    (state : Dumping σ) : Prop where
  emitted : ∃ packets, PacketProjector.new.projectEvents plan (events.take i) =
    .ok (packets, projector) ∧ Written (before ++ packets) state
  started : state.output <+: encodeTrace all
  descriptors : state.metrics.descriptorCount = descriptors

/-- What is written of the events. -/
theorem emits_events {before todo : List TracePacket} (descriptors : Nat) {final : PacketProjector}
    {emittedEvents packets : List TracePacket}
    (hproject : PacketProjector.new.projectEvents plan (events.take through.get) =
      .ok (emittedEvents, final))
    (hpackets : packets = before ++ emittedEvents ++ todo) :
    Observes events through (emitEvent writer plan : _ → _ → Dump ρ σ _)
      (Emitting plan events before packets descriptors) (Interrupted writer packets through) := by
  intro i event projector state hget hlt hemitting
  obtain ⟨⟨emitted, hemitted, hwritten⟩, -, hdescriptors⟩ := hemitting
  obtain ⟨htake, rest, hsplit⟩ := take_split hget hlt
  rw [hsplit] at hproject
  obtain ⟨before', projector', after, hbefore, hafter, rfl⟩ := projectEvents_append.mp hproject
  rw [hemitted] at hbefore
  obtain ⟨rfl, rfl⟩ := Prod.mk.inj (Except.ok.inj hbefore)
  obtain ⟨own, next, more, hown, -, rfl⟩ := projectEvents_cons.mp hafter
  have hsplit' : packets = (before ++ emitted) ++ own ++ (more ++ todo) := by
    rw [hpackets]
    simp only [List.append_assoc]
  unfold emitEvent
  rw [hown]
  show Meets (lift (.ok (own, next)) >>= _) _ _ _
  rw [lift_ok_bind]
  refine (meets_writePackets own hsplit' hwritten).bind fun _ state' hown' => ?_
  obtain ⟨hown', hdescriptors', hreads⟩ := hown'
  refine Meets.pure ⟨⟨⟨emitted ++ own, ?_, ?_⟩, ?_, hdescriptors'.trans hdescriptors⟩, hreads⟩
  · rw [htake]
    refine projectEvents_append.mpr ⟨emitted, projector, own, hemitted, ?_, rfl⟩
    exact projectEvents_cons.mpr ⟨own, next, [], hown, rfl, (List.append_nil _).symm⟩
  · rw [← List.append_assoc]
    exact hown'
  · rw [hown'.output, hsplit', encodeTrace_append (before ++ emitted ++ own)]
    exact List.prefix_append _ _

/-- The packets of an export. -/
def exportPackets (trace : ProjectedTrace)
    (boundary : Option (CaptureBoundaryPosition × TracePacket)) : List TracePacket :=
  trace.descriptors ++ boundaryAt .beforeEvents boundary ++ trace.events ++
    boundaryAt .afterEvents boundary

/-- What a trace is made of. -/
theorem fromPlan_eq_ok (h : ProjectedTrace.fromPlan plan events = .ok trace) :
    plan.descriptorPackets = some trace.descriptors ∧ ∃ projector,
      PacketProjector.new.projectEvents plan events = .ok (trace.events, projector) ∧
        projector.finish plan = .ok () := by
  unfold ProjectedTrace.fromPlan at h
  cases hdescriptors : plan.descriptorPackets with
  | none =>
    rw [hdescriptors] at h
    cases h
  | some descriptors =>
    rw [hdescriptors] at h
    dsimp only at h
    rw [ok_bind] at h
    obtain ⟨⟨packets, projector⟩, hproject, h⟩ := bind_eq_ok.mp h
    obtain ⟨_, hfinish, h⟩ := bind_eq_ok.mp h
    cases h
    exact ⟨rfl, projector, hproject, mapError_eq_ok.mp hfinish⟩

/-- **The packets of an export are written.** -/
theorem meets_emit (hserves : Serves source events) (hdense : Dense events)
    (hthrough : through.get ≤ events.length)
    (htrace : ProjectedTrace.fromPlan plan (events.take through.get) = .ok trace)
    {fuel : Nat} (hfuel : through.get ≤ fuel) {start : σ} {state : Dumping σ}
    (hidle : Idle start state) (hreads : state.metrics.sourcePageReads ≤ through.get) :
    Meets (emit writer source through plan boundary fuel) state
      (fun _ state' => Written (exportPackets trace boundary) state' ∧
        state'.metrics.descriptorCount = trace.descriptors.length)
      (Interrupted writer (exportPackets trace boundary) through) := by
  obtain ⟨hdescriptors, projector, hproject, hfinish⟩ := fromPlan_eq_ok htrace
  have hstart : Written [] state := ⟨hidle.output, hidle.bytes, hidle.packets, Nat.zero_le _⟩
  have hfirst : exportPackets trace boundary = trace.descriptors ++
      (boundaryAt .beforeEvents boundary ++ (trace.events ++ boundaryAt .afterEvents boundary)) := by
    simp only [exportPackets, List.append_assoc]
  have hsecond : exportPackets trace boundary = trace.descriptors ++
      boundaryAt .beforeEvents boundary ++ (trace.events ++ boundaryAt .afterEvents boundary) := by
    simp only [exportPackets, List.append_assoc]
  have hlast : exportPackets trace boundary = trace.descriptors ++
      boundaryAt .beforeEvents boundary ++ trace.events ++ boundaryAt .afterEvents boundary ++ [] :=
    (List.append_nil _).symm
  unfold emit
  rw [hdescriptors]
  refine (meets_writeDescriptors trace.descriptors hfirst hstart hidle.descriptors).bind
    fun _ state₁ h₁ => ?_
  obtain ⟨hwritten₁, hcount₁, hreads₁⟩ := h₁
  refine (meets_writePackets _ hsecond hwritten₁).bind fun _ state₂ h₂ => ?_
  obtain ⟨hwritten₂, hcount₂, hreads₂⟩ := h₂
  have hobserves : Observes events through (emitEvent writer plan : _ → _ → Dump ρ σ _)
      (Emitting plan events (trace.descriptors ++ boundaryAt .beforeEvents boundary)
        (exportPackets trace boundary) trace.descriptors.length)
      (Interrupted writer (exportPackets trace boundary) through) :=
    emits_events trace.descriptors.length hproject rfl
  refine (meets_scanPrefix hserves hdense hthrough .emit hobserves
    (fun i found state n hemitting => ?_) through.get
    (fun i found state hemitting hover => ⟨hemitting.started, fun hfine => ?_⟩) fuel
    (Nat.zero_le _) ?_ (show Emitting plan events
      (trace.descriptors ++ boundaryAt .beforeEvents boundary) (exportPackets trace boundary)
      trace.descriptors.length (0 : SchemaU64).get .new state₂ from
        ⟨⟨[], rfl, ?_⟩, ?_, hcount₂.trans hcount₁⟩) ?_).bind fun found state₃ h₃ => ?_
  · obtain ⟨⟨emitted, hemitted, hwritten⟩, hstarted, hdescriptors⟩ := hemitting
    exact ⟨⟨emitted, hemitted, hwritten.output, hwritten.bytes, hwritten.count, hwritten.room⟩,
      hstarted, hdescriptors⟩
  · have := hfine.2.2
    omega
  · rw [show SchemaU64.get 0 = 0 from rfl, Nat.zero_add]
    exact hfuel
  · rw [List.append_nil]
    exact hwritten₂
  · rw [hwritten₂.output, hsecond, encodeTrace_append (trace.descriptors ++ _)]
    exact List.prefix_append _ _
  · rw [hreads₂, hreads₁]
    exact hreads
  · obtain ⟨⟨⟨emitted, hemitted, hwritten₃⟩, -, hcount₃⟩, -⟩ := h₃
    rw [hproject] at hemitted
    obtain ⟨rfl, rfl⟩ := Prod.mk.inj (Except.ok.inj hemitted)
    rw [hfinish]
    show Meets (lift (.ok ()) >>= _) _ _ _
    rw [lift_ok_bind]
    refine (meets_writePackets _ hlast hwritten₃).imp (fun _ final hfinal => ?_)
      fun _ _ hfails => hfails
    exact ⟨hfinal.1, hfinal.2.1.trans hcount₃⟩

end Emit

/-! ## The export -/

/-- The packet of a capture boundary: an instant on the track of the run. -/
structure IsCaptureBoundary (metadata : ProjectionMetadata) (trace : ProjectedTrace)
    (packet : TracePacket) : Prop where
  clock : packet.timestampClockId = some traceFileClock
  event : ∃ trackEvent, packet.event? = some trackEvent ∧
    trackEvent.name = some "troupe.capture_boundary" ∧ trackEvent.type = some .instant ∧
      ∃ root ∈ trace.packets.filterMap TracePacket.descriptor?, root.parentUuid = none ∧
        root.name = some metadata.rootTrackName ∧ root.uuid.isSome = true ∧
          root.uuid = trackEvent.trackUuid

/-- All events are at one time. -/
def AllAt (events : List DiagnosticEvent) (elapsedNs : Nat) : Prop :=
  ∀ event ∈ events, event.elapsedNs.get = elapsedNs

/-- **The packets an export consists of**: those of the trace and, when a span is open and all
events are at one time, the packet of a capture boundary. It is a nanosecond after the events and
stands at the end; at the latest time there is, it is a nanosecond before and stands after the
descriptors. -/
structure ExportOf (metadata : ProjectionMetadata) (events : List DiagnosticEvent)
    (trace : ProjectedTrace) (packets : List TracePacket) : Prop where
  plain : (¬∃ elapsedNs, SomeOpen events ∧ AllAt events elapsedNs) → packets = trace.packets
  bounded : ∀ elapsedNs, SomeOpen events → AllAt events elapsedNs →
    ∃ packet, IsCaptureBoundary metadata trace packet ∧
      (elapsedNs < i64Max → packet.timestamp = some (elapsedNs + 1) ∧
        packets = trace.packets ++ [packet]) ∧
      (i64Max ≤ elapsedNs → packet.timestamp = some (elapsedNs - 1) ∧
        packets = trace.descriptors ++ packet :: trace.events)

/-- The numbers an export reports. -/
structure Reports (metadata : ProjectionMetadata) (trace : ProjectedTrace)
    (packets : List TracePacket) (summary : DumpSummary) : Prop where
  captured : summary.capturedWatermark = metadata.capturedWatermark
  exported : summary.exportedThrough = metadata.exportedThrough
  events : summary.eventCount = metadata.exportedThrough.get
  descriptors : summary.descriptorCount = trace.descriptors.length
  counted : summary.packetCount = packets.length
  bytes : summary.bytesWritten = (encodeTrace packets).length

/-- The client that knows the metadata accepts the body in any portions, unless a packet is too
long. -/
def Accepts (metadata : ProjectionMetadata) (packets : List TracePacket) : Prop :=
  ∀ decode : List UInt8 → Except String TracePacket,
    (∀ packet ∈ packets, decode (encodeTracePacket packet) = .ok packet) →
      ∀ chunks : List (List UInt8), chunks.flatten = encodeTrace packets →
        (validateBody decode metadata chunks = .ok () ↔ ∀ packet ∈ packets, WithinLimit packet)

/-- What an export of the events comes to. -/
structure Dumped {ρ σ : Type} (metadata : ProjectionMetadata) (writer : AsyncWrite σ)
    (events : List DiagnosticEvent) (run : Except (Halt ρ) DumpSummary × Dumping σ) : Prop where
  /-- What cannot be projected is not written. -/
  failing : ∀ fault, projectPrefix metadata events = .error fault →
    (∃ halt, run.1 = .error halt) ∧ run.2.output = []
  /-- What can be is written, and nothing else. -/
  streaming : ∀ trace, projectPrefix metadata events = .ok trace →
    ∃ packets, ExportOf metadata events trace packets ∧ run.2.output <+: encodeTrace packets ∧
      (∀ summary, run.1 = .ok summary → run.2.output = encodeTrace packets ∧
        Reports metadata trace packets summary ∧ Accepts metadata packets) ∧
      (Cooperative writer → Fits packets metadata.exportedThrough →
        ∃ summary, run.1 = .ok summary)

section Dump

variable {ρ σ : Type} {writer : AsyncWrite σ} {source : PrefixSource ρ}
  {events : List DiagnosticEvent} {metadata : ProjectionMetadata} {plan : ProjectionPlan}
  {trace : ProjectedTrace} {boundary : Option (CaptureBoundaryPosition × TracePacket)}

theorem captureBoundaryPacket_spec {builder : TrackCatalogBuilder}
    {groups : List (List TracePacket)} (h : Planned metadata events builder plan)
    (htrace : TraceOf plan events groups trace) {timestamp : Nat} {packet : TracePacket}
    (hpacket : plan.captureBoundaryPacket timestamp = .ok packet) :
    IsCaptureBoundary metadata trace packet ∧ Framed packet ∧ metadataName? packet = none ∧
      packet.timestamp = some timestamp := by
  unfold ProjectionPlan.captureBoundaryPacket at hpacket
  rw [id_of_mem h.root_mem, ok_bind] at hpacket
  cases hpacket
  refine ⟨⟨rfl, _, rfl, rfl, rfl, ?_⟩, .event _ _, rfl, rfl⟩
  have hroot : definitionOf metadata.rootTrackName [] ∈ plan.tracks.descriptorOrder :=
    h.tracks.mem_order.mpr h.root
  rw [htrace.described]
  refine ⟨_, List.mem_map_of_mem (List.mem_map_of_mem hroot), rfl, rfl, rfl, ?_⟩
  show some (plan.tracks.ids.number (identityOf [])) = _
  rw [← rootTrackIdentity_eq]

/-- **The packets of a plan are an export.** -/
theorem exportOf_preflighted {builder : TrackCatalogBuilder} {groups : List (List TracePacket)}
    (h : Planned metadata events builder plan) (htrace : TraceOf plan events groups trace)
    (hboundary : ∃ bounds, BoundsOf events bounds ∧
      boundaryPacket plan bounds.captureBoundary = .ok boundary) :
    ExportOf metadata events trace (exportPackets trace boundary) ∧
      (∀ packet ∈ exportPackets trace boundary, Framed packet) ∧
      (exportPackets trace boundary).filterMap metadataName? = [metadata.metadataTrackName] := by
  obtain ⟨bounds, hbounds, hboundary⟩ := hboundary
  have hnames := htrace.metadataNames h
  have hframed := htrace.framed
  cases hfound : bounds.captureBoundary with
  | none =>
    rw [hfound] at hboundary
    cases hboundary
    have hpackets : exportPackets trace none = trace.packets := by
      simp only [exportPackets, boundaryAt, List.append_nil]
      rfl
    rw [hpackets]
    refine ⟨⟨fun _ => rfl, fun elapsedNs hopen hall => ?_⟩, hframed, hnames⟩
    have hsome := (captureBoundary_eq_some_iff hbounds).mpr ⟨hopen, elapsedNs, hall, rfl⟩
    rw [hfound] at hsome
    cases hsome
  | some found =>
    obtain ⟨hopen, elapsedNs, hall, rfl⟩ := (captureBoundary_eq_some_iff hbounds).mp hfound
    rw [hfound] at hboundary
    obtain ⟨packet, hpacket, heq⟩ := bind_eq_ok.mp hboundary
    cases heq
    obtain ⟨hcapture, hframed', hname, htimestamp⟩ := captureBoundaryPacket_spec h htrace hpacket
    have hone : ∀ elapsedNs', AllAt events elapsedNs' → elapsedNs' = elapsedNs := by
      intro elapsedNs' hall'
      obtain ⟨_, start, hstart, -⟩ := hopen
      exact (hall' start hstart).symm.trans (hall start hstart)
    have hall' : ∀ {packets : List TracePacket}, packets.Perm (packet :: trace.packets) →
        (∀ packet ∈ packets, Framed packet) := by
      intro packets hperm other hother
      rcases List.mem_cons.mp (hperm.mem_iff.mp hother) with rfl | hother
      · exact hframed'
      · exact hframed other hother
    unfold boundaryOf at htimestamp ⊢
    by_cases hlate : elapsedNs < i64Max
    · rw [if_pos hlate] at htimestamp ⊢
      have hpackets : exportPackets trace (some (.afterEvents, packet)) =
          trace.packets ++ [packet] := by
        simp only [exportPackets, boundaryAt, ProjectedTrace.packets, List.append_nil,
          reduceCtorEq, if_false, if_true]
      dsimp only
      rw [hpackets]
      refine ⟨⟨fun hnone => absurd ⟨elapsedNs, hopen, hall⟩ hnone,
        fun elapsedNs' _ hall'' => ⟨packet, hcapture, ?_, ?_⟩⟩,
        hall' List.perm_append_comm, ?_⟩
      · intro _
        rw [hone _ hall'']
        exact ⟨htimestamp, rfl⟩
      · intro hge
        rw [hone _ hall''] at hge
        omega
      · rw [List.filterMap_append, hnames, List.filterMap_cons_none hname]
        rfl
    · rw [if_neg hlate] at htimestamp ⊢
      have hpackets : exportPackets trace (some (.beforeEvents, packet)) =
          trace.descriptors ++ packet :: trace.events := by
        simp [exportPackets, boundaryAt]
      dsimp only
      rw [hpackets]
      refine ⟨⟨fun hnone => absurd ⟨elapsedNs, hopen, hall⟩ hnone,
        fun elapsedNs' _ hall'' => ⟨packet, hcapture, ?_, ?_⟩⟩, hall' List.perm_middle, ?_⟩
      · intro hlt
        rw [hone _ hall''] at hlt
        exact absurd hlt hlate
      · intro _
        rw [hone _ hall'']
        exact ⟨htimestamp, rfl⟩
      · rw [List.filterMap_append, List.filterMap_cons_none hname, ← List.filterMap_append]
        exact hnames

/-- What was written of, and how far it came. -/
theorem dump_meets (hserves : Serves source events) (hdense : Dense events)
    (hthrough : metadata.exportedThrough.get ≤ events.length)
    (hcaptured : metadata.exportedThrough ≤ metadata.capturedWatermark) {fuel : Nat}
    (hfuel : metadata.exportedThrough.get ≤ fuel) (start : σ) :
    Meets (dumpCapturedPrefixCore writer source metadata.capturedWatermark
        metadata.exportedThrough metadata .fixed fuel) (.start start)
      (fun summary state => ∃ plan boundary trace,
        Preflighted metadata (events.take metadata.exportedThrough.get) plan boundary ∧
        ProjectedTrace.fromPlan plan (events.take metadata.exportedThrough.get) = .ok trace ∧
        Written (exportPackets trace boundary) state ∧
        Reports metadata trace (exportPackets trace boundary) summary)
      (fun halt state => Idle start state ∧
          (∃ fault, projectPrefix metadata (events.take metadata.exportedThrough.get) =
            .error fault) ∨
        ∃ plan boundary trace,
          Preflighted metadata (events.take metadata.exportedThrough.get) plan boundary ∧
          ProjectedTrace.fromPlan plan (events.take metadata.exportedThrough.get) = .ok trace ∧
          Interrupted writer (exportPackets trace boundary) metadata.exportedThrough halt state) := by
  unfold dumpCapturedPrefixCore
  refine ((meets_preflight hserves hdense hthrough rfl hcaptured hfuel start).imp
    (fun _ _ hpost => hpost) fun _ _ hfails => .inl hfails).bind fun result state hresult => ?_
  obtain ⟨plan, boundary⟩ := result
  obtain ⟨hidle, hreads, hpre⟩ := hresult
  obtain ⟨builder, hplanned⟩ := hpre.planned
  obtain ⟨groups, trace, hmade, htrace⟩ := fromPlan_planned hplanned hpre.projectable
  dsimp only
  refine ((meets_emit hserves hdense hthrough hmade hfuel hidle hreads).imp
    (fun _ _ hpost => hpost) fun halt state' hfails =>
      .inr ⟨plan, boundary, trace, hpre, hmade, hfails⟩).bind fun _ state' hwritten => ?_
  obtain ⟨hwritten, hcount⟩ := hwritten
  exact ⟨plan, boundary, trace, hpre, hmade, hwritten, rfl, rfl, rfl, hcount, hwritten.count,
    hwritten.bytes⟩

theorem projectPrefix_preflighted (h : Preflighted metadata events plan boundary)
    (htrace : ProjectedTrace.fromPlan plan events = .ok trace) :
    projectPrefix metadata events = .ok trace := by
  rw [projectPrefix_eq, h.collected]
  exact htrace

/-- What is written of a stored prefix. -/
theorem dumped (source : PrefixSource ρ) (writer : AsyncWrite σ) (start : σ)
    (events : List DiagnosticEvent) (metadata : ProjectionMetadata)
    (hserves : Serves source events) (hdense : Dense events)
    (hthrough : metadata.exportedThrough.get ≤ events.length)
    (hcaptured : metadata.capturedWatermark.get = events.length) (fuel : Nat)
    (hfuel : metadata.exportedThrough.get ≤ fuel) :
    Dumped metadata writer (events.take metadata.exportedThrough.get)
      ((dumpCapturedPrefixCore writer source metadata.capturedWatermark metadata.exportedThrough
        metadata .fixed fuel).run (.start start)) := by
  have hmeets := @dump_meets _ _ writer _ _ _ hserves hdense hthrough
    (SchemaU64.le_def.mpr (hcaptured ▸ hthrough)) fuel hfuel start
  unfold Meets at hmeets
  rcases hrun : (dumpCapturedPrefixCore writer source metadata.capturedWatermark
    metadata.exportedThrough metadata .fixed fuel).run (.start start) with ⟨⟨⟩, state⟩
  · rw [hrun] at hmeets
    rcases hmeets with ⟨hidle, fault, hfault⟩ | ⟨plan, boundary, trace, hpre, hmade, hstopped⟩
    · refine ⟨fun _ _ => ⟨⟨_, rfl⟩, hidle.output⟩, fun trace htrace => ?_⟩
      rw [hfault] at htrace
      cases htrace
    · have hprojected := projectPrefix_preflighted hpre hmade
      obtain ⟨builder, hplanned⟩ := hpre.planned
      obtain ⟨groups, trace', hmade', htrace'⟩ := fromPlan_planned hplanned hpre.projectable
      rw [hmade] at hmade'
      cases hmade'
      refine ⟨fun fault hfault => ?_, fun trace' htrace => ?_⟩
      · rw [hprojected] at hfault
        cases hfault
      · rw [hprojected] at htrace
        cases htrace
        exact ⟨_, (exportOf_preflighted hplanned htrace' hpre.boundary).1, hstopped.started,
          fun _ hok => (nomatch hok), fun hcooperative hfits =>
            absurd ⟨hcooperative, hfits⟩ hstopped.reason⟩
  · rw [hrun] at hmeets
    obtain ⟨plan, boundary, trace, hpre, hmade, hwritten, hreports⟩ := hmeets
    have hprojected := projectPrefix_preflighted hpre hmade
    obtain ⟨builder, hplanned⟩ := hpre.planned
    obtain ⟨groups, trace', hmade', htrace'⟩ := fromPlan_planned hplanned hpre.projectable
    rw [hmade] at hmade'
    cases hmade'
    obtain ⟨hexport, hframed, hnames⟩ := exportOf_preflighted hplanned htrace' hpre.boundary
    refine ⟨fun fault hfault => ?_, fun trace' htrace => ?_⟩
    · rw [hprojected] at hfault
      cases hfault
    · rw [hprojected] at htrace
      cases htrace
      refine ⟨_, hexport, hwritten.output ▸ List.prefix_refl _, fun summary hok => ?_,
        fun _ _ => ⟨_, rfl⟩⟩
      cases hok
      exact ⟨hwritten.output, hreports, fun decode hdecode chunks hchunks =>
        validateBody_eq_ok_iff hframed hdecode hnames hwritten.room hchunks⟩

/-- An export served one event a page and written one byte a poll. -/
def exportRun (through : SchemaU64) (events : List DiagnosticEvent) :
    Except (Halt Unit) DumpSummary × Dumping Unit :=
  (dumpCapturedPrefixCore (fun _ _ => (.ok 1, ()))
    (fun after _ => .ok (pageFrom events after.get 1)) through through (runMetadata through) .fixed
    through.get).run (.start ())

end Dump

/-! ## A packet that is too long -/

/-- The packet of a gap has its reason and twice the identity of its scope, under their names. -/
theorem gap_packet {metadata : ProjectionMetadata} {gap : ObservationGap} {trace : ProjectedTrace}
    (hevents : Projectable metadata.runId [.observationGap gap])
    (hthrough : metadata.exportedThrough.get = 1)
    (hcaptured : metadata.exportedThrough ≤ metadata.capturedWatermark)
    (htrace : projectPrefix metadata [.observationGap gap] = .ok trace) :
    ∃ packet ∈ trace.packets, 2 * (scopeTrackIdentity gap.header.scope).utf8ByteSize +
      gap.reason.utf8ByteSize + 95 ≤ (encodeTracePacket packet).length := by
  have hsettles := projectPrefix_settles metadata _ hevents hthrough hcaptured
  rw [htrace] at hsettles
  obtain ⟨-, plan, groups, -, hmade⟩ := hsettles
  obtain ⟨packets, rest, hpackets, -, rfl⟩ := List.forall₂_cons_left_iff.mp hmade.owned
  obtain ⟨projector, drafts, projector', hdrafts, hnoted⟩ := hpackets.noted
  cases hdrafts
  obtain ⟨packet, hmem, event, more, hdata, hnotes⟩ := hnoted _ (List.mem_singleton_self _)
  have hnote (size : Nat) (name text : String) (hname : name.utf8ByteSize = size) :
      size + text.utf8ByteSize ≤
        (lengthField 4 ( encodeDebugAnnotation ( stringAnnotation name text))).length := by
    have hsize (text : String) : (utf8Bytes text).length = text.utf8ByteSize := rfl
    simp only [lengthField, encodeDebugAnnotation, stringAnnotation, optionalField, hsize,
      encodeAnnotationValue, stringField, Option.toList_some, List.flatMap_singleton, hname,
      List.length_append]
    omega
  have hkind := hnote 17 "troupe.event.kind" (eventTypeName .instant) rfl
  have hscope := hnote 21 "troupe.scope.identity" (scopeTrackIdentity gap.header.scope) rfl
  have htrack := hnote 21 "troupe.track.identity" (scopeTrackIdentity gap.header.scope) rfl
  have hproducer := hnote 19 "troupe.gap.producer" gap.producer rfl
  have hreason := hnote 17 "troupe.gap.reason" gap.reason rfl
  refine ⟨packet, ?_, ?_⟩
  · unfold ProjectedTrace.packets
    rw [hmade.emits, List.flatten_cons]
    exact List.mem_append_right _ (List.mem_append_left _ hmem)
  · have hevent : (event.debugAnnotations.flatMap fun note =>
        lengthField 4 ( encodeDebugAnnotation note)).length ≤ (encodeTracePacket packet).length := by
      simp only [encodeTracePacket, hdata, optionalField, encodePacketData, lengthField,
        encodeTrackEvent, Option.toList_some, List.flatMap_singleton, List.length_append]
      omega
    simp only [hnotes, draftEvent, instantDraft, gapAnnotations, List.flatMap_append,
      List.flatMap_cons, List.length_append] at hevent
    have hheader : (DiagnosticEvent.observationGap gap).header = gap.header := rfl
    rw [hheader] at hevent
    omega

theorem longId_valid : validateRunLocalId (String.ofList (List.replicate 128 'i')) = .ok () := by
  decide +kernel

/-- A scope with identifiers of the maximum length. -/
def longScope : DiagnosticScope :=
  { DiagnosticScope.run with
    sceneId := some ⟨_, longId_valid⟩, actorId := some ⟨_, longId_valid⟩ }

/-- A gap whose packet is longer than its JSON, which names the scope once and has less than 64 MiB. -/
def longGap : ObservationGap :=
  ⟨⟨⟨1⟩, 1, 10, longScope, [], SchemaU64.one_pos⟩, "writer", none,
    String.ofList (List.replicate (maxTracePacketBytes - 670) 'a'), none, none, none, none⟩

theorem longGap_projectable : Projectable ⟨1⟩ [.observationGap longGap] where
  sameRun := by decide +kernel
  dense := by
    intro i event hget
    have hlt : i < 1 := (List.getElem?_eq_some_iff.mp hget).1
    interval_cases i
    cases hget
    rfl
  accepted :=
    (exists_of_any (p := fun _ => true) (by decide +kernel)).imp fun _ haccepted => haccepted.1
  usageOnce := List.pairwise_singleton _ _
  elapsed := by decide +kernel

/-- The tracks of the gap. -/
def longTracks : List TrackDefinition :=
  runTracks 1 ++ [1, 2].map fun depth =>
    definitionOf (runMetadata 1).rootTrackName ((scopePath longScope).take depth)

theorem longGap_exported :
    ∃ trace, projectPrefix (runMetadata 1) [.observationGap longGap] = .ok trace := by
  refine @exported_of_tracks _ _ longGap_projectable rfl (Nat.le_refl 1) longTracks longTracks
    ⟨5, 1734⟩ ⟨5, 1734⟩ (by decide +kernel) ?_ ?_
  · unfold allocateSpanLanes
    rw [List.mergeSort_of_pairwise (by decide +kernel)]
    decide +kernel
  · have hsorted : (longTracks.map (·.canonicalIdentity)).mergeSort
        (fun a b => decide (a ≤ b)) = longTracks.map (·.canonicalIdentity) :=
      List.mergeSort_of_pairwise (by decide +kernel)
    unfold TrackCatalogBuilder.finish
    dsimp only
    rw [hsorted]
    decide +kernel

end Troupe.Perfetto
