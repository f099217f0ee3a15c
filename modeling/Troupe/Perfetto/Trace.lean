import Troupe.Lib.Related
import Troupe.Perfetto.Slices

/-! # The exported trace

A durable prefix of a run exports to a trace whose packets name declared tracks, whose flows are
the causal links, and whose slices nest in the order of the file: `WellFormed`. Viewers go through
the packets in the order of their timestamps, and there the slices nest exactly when the spans of
each lane do, since lanes are laid out over the sequences: **`export_well_formed`**. -/

namespace Troupe.Perfetto

open Troupe.Lib Troupe.Core

/-! ## Well-formed traces -/

/-- The slices of a track, in the order of the packets. -/
def sliceBrackets (track : Nat) (packets : List TracePacket) : List (Bracket Nat) :=
  (packets.filterMap TracePacket.slice?).filterMap fun slice =>
    if slice.1 = some track then some slice.2 else none

/-- The order of the timestamps. -/
def timestampLe (left right : TracePacket) : Bool :=
  decide (left.timestamp.getD 0 ≤ right.timestamp.getD 0)

/-- The span is started and not finished. -/
def Unfinished (events : List DiagnosticEvent) (spanId : Nat) : Prop :=
  ∃ start ∈ events, start.Starts ∧ start.sequence.get = spanId ∧
    ∀ finish ∈ events, ¬finish.Finishes start.sequence

/-- The slices nest, each end closing the begin of its own span, and what is left open are spans
that are not finished. -/
def SlicesNest (events : List DiagnosticEvent) (brackets : List (Bracket Nat)) : Prop :=
  ∃ stack, brackets.foldlM nest [] = some stack ∧ ∀ spanId ∈ stack, Unfinished events spanId

/-- The flow of each causal link, on the first packet of its source and of its target. -/
structure FlowsAttached (events : List DiagnosticEvent) (flowId : SchemaU64 → CausalLink → Nat)
    (event : DiagnosticEvent) (first : TrackEvent) : Prop where
  startingOnce : first.flowIds.Nodup
  starting : ∀ id, id ∈ first.flowIds ↔ ∃ target ∈ events, ∃ link ∈ target.header.causedBy,
    link.sourceSequence = event.sequence ∧ flowId target.sequence link = id
  terminatingOnce : first.terminatingFlowIds.Nodup
  terminating : ∀ id, id ∈ first.terminatingFlowIds ↔
    ∃ link ∈ event.header.causedBy, flowId event.sequence link = id

/-- The packets of an event. -/
structure OwnPackets (events : List DiagnosticEvent) (flowId : SchemaU64 → CausalLink → Nat)
    (event : DiagnosticEvent) (packets : List TracePacket) : Prop where
  own : ∀ packet ∈ packets, packet.timestamp = some event.elapsedNs.get ∧
    ∃ trackEvent, packet.event? = some trackEvent ∧
      trackEvent.sequence? = some event.sequence.get
  slices : (packets.filterMap TracePacket.slice?).map Prod.snd =
    (spanBracket event).toList.map (Bracket.map SchemaU64.get)
  flows : ∃ first rest trackEvent, packets = first :: rest ∧ first.event? = some trackEvent ∧
    FlowsAttached events flowId event trackEvent ∧
    ∀ packet ∈ rest, ∀ other ∈ packet.event?, other.flowIds = [] ∧ other.terminatingFlowIds = []

/-- What holds of an exported trace whatever its timestamps. -/
structure WellFormed (events : List DiagnosticEvent) (trace : ProjectedTrace) : Prop where
  distinct : (trace.packets.filterMap TracePacket.descriptor?).Pairwise fun a b => a.uuid ≠ b.uuid
  parents : ∀ before descriptor after,
    trace.packets.filterMap TracePacket.descriptor? = before ++ descriptor :: after →
      ∀ parent ∈ descriptor.parentUuid, ∃ other ∈ before, other.uuid = some parent
  declared : ∀ packet ∈ trace.packets, ∀ trackEvent ∈ packet.event?,
    ∃ descriptor ∈ trace.packets.filterMap TracePacket.descriptor?,
      descriptor.uuid.isSome = true ∧ descriptor.uuid = trackEvent.trackUuid
  sources : ∀ event ∈ events, ∀ link ∈ event.header.causedBy,
    ∃ source ∈ events, source.sequence = link.sourceSequence
  packets : ∃ (groups : List (List TracePacket)) (flowId : SchemaU64 → CausalLink → Nat),
    trace.events = groups.flatten ∧ List.Forall₂ (OwnPackets events flowId) events groups ∧
      ∀ target ∈ events, ∀ link ∈ target.header.causedBy, ∀ target' ∈ events,
        ∀ link' ∈ target'.header.causedBy,
          flowId target.sequence link = flowId target'.sequence link' →
            target = target' ∧ link = link'
  nested : ∀ track, SlicesNest events (sliceBrackets track trace.packets)

/-- The time of an event, by its sequence. -/
def elapsedAt (events : List DiagnosticEvent) (sequence : SchemaU64) : Nat :=
  ((events.find? fun event => event.sequence = sequence).map
    fun event => event.elapsedNs.get).getD 0

/-- The moment of an event in a viewer: its time, and its sequence at one time. -/
def viewMoment (events : List DiagnosticEvent) (sequence : SchemaU64) : ℕ ×ₗ ℕ :=
  toLex (elapsedAt events sequence, sequence.get)

/-! ## Flows -/

section Trace

variable {metadata : ProjectionMetadata} {events : List DiagnosticEvent}
  {builder : TrackCatalogBuilder} {plan : ProjectionPlan} {event : DiagnosticEvent}
  {groups : List (List TracePacket)} {trace : ProjectedTrace}

/-- **The flows of the plan are the causal links.** -/
theorem flows_attached (h : Planned metadata events builder plan)
    (hevents : Projectable metadata.runId events) :
    ∃ flowId : SchemaU64 → CausalLink → Nat,
      (∀ event ∈ events, ∀ trackEvent : TrackEvent,
        trackEvent.flowIds = (plan.startingFlows event.sequence).map FlowAttachment.id →
        trackEvent.terminatingFlowIds =
          (plan.terminatingFlows event.sequence).map FlowAttachment.id →
        FlowsAttached events flowId event trackEvent) ∧
      ∀ target ∈ events, ∀ link ∈ target.header.causedBy, ∀ target' ∈ events,
        ∀ link' ∈ target'.header.causedBy,
          flowId target.sequence link = flowId target'.sequence link' →
            target = target' ∧ link = link' := by
  obtain ⟨ids, flows, hflows, hids, hlinks, hdistinct⟩ := h.flows
  have hmem {target : DiagnosticEvent} (htarget : target ∈ events) {link : CausalLink}
      (hlink : link ∈ target.header.causedBy) : linkFlow target.sequence link ∈ flows :=
    (hlinks _).mpr ⟨target, htarget, link, hlink, rfl⟩
  have hnodup (select : CollectedFlow → Bool) :
      (((flows.map fun flow => (flow, (⟨ids.number flow.canonicalIdentity,
        flow.canonicalIdentity⟩ : FlowAttachment))).filter fun flow => select flow.1).map
          Prod.snd |>.map FlowAttachment.id).Nodup := by
    rw [List.filter_map, List.map_map, List.map_map]
    refine List.pairwise_map.mpr ?_
    refine (hdistinct.filter _).imp_of_mem fun {a b} ha _ hne hsame => hne ?_
    exact number_inj (hids a (List.mem_filter.mp ha).1) hsame
  refine ⟨fun target link => ids.number (linkFlow target link).canonicalIdentity, ?_, ?_⟩
  · intro event hevent trackEvent hstarting hterminating
    refine ⟨?_, fun id => ?_, ?_, fun id => ?_⟩
    · rw [hstarting]
      unfold ProjectionPlan.startingFlows
      rw [hflows]
      exact hnodup fun flow => decide (flow.sourceSequence = event.sequence)
    · rw [hstarting]
      unfold ProjectionPlan.startingFlows
      rw [hflows]
      simp only [List.mem_map, List.mem_filter, decide_eq_true_eq]
      constructor
      · rintro ⟨_, ⟨_, ⟨⟨flow, hflow, rfl⟩, hsource⟩, rfl⟩, rfl⟩
        obtain ⟨target, htarget, link, hlink, rfl⟩ := (hlinks flow).mp hflow
        exact ⟨target, htarget, link, hlink, hsource, rfl⟩
      · rintro ⟨target, htarget, link, hlink, hsource, rfl⟩
        exact ⟨_, ⟨_, ⟨⟨_, hmem htarget hlink, rfl⟩, hsource⟩, rfl⟩, rfl⟩
    · rw [hterminating]
      unfold ProjectionPlan.terminatingFlows
      rw [hflows]
      exact hnodup fun flow => decide (flow.targetSequence = event.sequence)
    · rw [hterminating]
      unfold ProjectionPlan.terminatingFlows
      rw [hflows]
      simp only [List.mem_map, List.mem_filter, decide_eq_true_eq]
      constructor
      · rintro ⟨_, ⟨_, ⟨⟨flow, hflow, rfl⟩, htarget'⟩, rfl⟩, rfl⟩
        obtain ⟨target, htarget, link, hlink, rfl⟩ := (hlinks flow).mp hflow
        obtain rfl := hevents.increasing.eq_of_sequence_eq htarget hevent htarget'
        exact ⟨link, hlink, rfl⟩
      · rintro ⟨link, hlink, rfl⟩
        exact ⟨_, ⟨_, ⟨⟨_, hmem hevent hlink, rfl⟩, rfl⟩, rfl⟩, rfl⟩
  · intro target htarget link hlink target' htarget' link' hlink' hsame
    obtain ⟨hsequence, rfl⟩ := linkFlow_inj (number_inj (hids _ (hmem htarget hlink)) hsame)
    exact ⟨hevents.increasing.eq_of_sequence_eq htarget htarget' hsequence, rfl⟩

/-! ## Packets -/

theorem EventPackets.all {packets : List TracePacket} (h : EventPackets plan event packets)
    {packet : TracePacket} (hmem : packet ∈ packets) :
    ∃ flowIds terminatingFlowIds trackEvent,
      EventPacket plan event flowIds terminatingFlowIds packet trackEvent := by
  obtain ⟨first, rest, rfl, ⟨trackEvent, hfirst⟩, hrest⟩ := h.first
  rcases List.mem_cons.mp hmem with rfl | hmem
  · exact ⟨_, _, trackEvent, hfirst⟩
  · obtain ⟨other, hother⟩ := hrest packet hmem
    exact ⟨_, _, other, hother⟩

theorem EventPacket.event? {flowIds terminatingFlowIds : List Nat} {packet : TracePacket}
    {trackEvent : TrackEvent}
    (h : EventPacket plan event flowIds terminatingFlowIds packet trackEvent) :
    packet.event? = some trackEvent := by
  unfold TracePacket.event?
  rw [h.data]

theorem filterMap_flatten {α β γ : Type} {p : β → Option γ} {q : α → Option γ} {items : List α}
    {groups : List (List β)}
    (h : List.Forall₂ (fun item group => group.filterMap p = (q item).toList) items groups) :
    groups.flatten.filterMap p = items.filterMap q := by
  induction h with
  | nil => rfl
  | @cons item group items groups hgroup _ ih =>
    rw [List.flatten_cons, List.filterMap_append, hgroup, ih]
    cases hq : q item with
    | none => rw [List.filterMap_cons_none hq]; rfl
    | some value => rw [List.filterMap_cons_some hq]; rfl

/-- The moment of a packet in a viewer. -/
def TracePacket.moment (packet : TracePacket) : ℕ ×ₗ ℕ :=
  toLex (packet.timestamp.getD 0, (packet.event?.bind TrackEvent.sequence?).getD 0)

/-- The slice of a packet on a track, with its moment. -/
def stampedSlice (track : Nat) (packet : TracePacket) : Option ((ℕ ×ₗ ℕ) × Bracket Nat) :=
  packet.slice?.bind fun slice =>
    if slice.1 = some track then some (packet.moment, slice.2) else none

/-- The slice of an event on a track, on a clock. -/
def clockSlice {τ : Type} (plan : ProjectionPlan) (f : SchemaU64 → τ) (track : Nat)
    (event : DiagnosticEvent) : Option (τ × Bracket Nat) :=
  (eventSlice plan event).bind fun slice =>
    if slice.1 = some track then some (f event.sequence, slice.2) else none

theorem clockSlice_eq_some {τ : Type} {f : SchemaU64 → τ} {track : Nat} {moment : τ}
    {bracket : Bracket Nat} : clockSlice plan f track event = some (moment, bracket) ↔
      f event.sequence = moment ∧ eventSlice plan event = some (some track, bracket) := by
  unfold clockSlice
  rw [Option.bind_eq_some_iff]
  constructor
  · rintro ⟨⟨uuid, found⟩, hslice, heq⟩
    by_cases htrack : uuid = some track
    · rw [if_pos htrack] at heq
      obtain ⟨hmoment, rfl⟩ := Prod.mk.inj (Option.some.inj heq)
      exact ⟨hmoment, htrack ▸ hslice⟩
    · rw [if_neg htrack] at heq
      cases heq
  · rintro ⟨rfl, hslice⟩
    exact ⟨_, hslice, if_pos rfl⟩

theorem stampedSlice_snd (track : Nat) (packets : List TracePacket) :
    (packets.filterMap (stampedSlice track)).map Prod.snd = sliceBrackets track packets := by
  unfold sliceBrackets
  rw [List.map_filterMap, List.filterMap_filterMap]
  refine List.filterMap_congr fun packet _ => ?_
  unfold stampedSlice
  cases packet.slice? with
  | none => rfl
  | some slice =>
    by_cases htrack : slice.1 = some track
    · simp [htrack]
    · simp [htrack]

theorem elapsedAt_sequence (hevents : Projectable metadata.runId events) (hmem : event ∈ events) :
    elapsedAt events event.sequence = event.elapsedNs.get := by
  unfold elapsedAt
  cases hfind : events.find? fun other => decide (other.sequence = event.sequence) with
  | none => exact absurd rfl (of_decide_eq_false (Bool.eq_false_iff.mpr
      (List.find?_eq_none.mp hfind event hmem)))
  | some other =>
    have hsame := List.find?_some hfind
    rw [decide_eq_true_iff] at hsame
    rw [hevents.increasing.eq_of_sequence_eq (List.mem_of_find?_eq_some hfind) hmem hsame]
    rfl

/-- The packets of an event have its slice, at its moment. -/
theorem EventPackets.stamped (hevents : Projectable metadata.runId events) (hmem : event ∈ events)
    {packets : List TracePacket} (h : EventPackets plan event packets) (track : Nat) :
    packets.filterMap (stampedSlice track) =
      (clockSlice plan (viewMoment events) track event).toList := by
  have hmoment : ∀ packet ∈ packets, packet.moment = viewMoment events event.sequence := by
    intro packet hpacket
    obtain ⟨_, _, trackEvent, hown⟩ := h.all hpacket
    unfold TracePacket.moment viewMoment
    rw [hown.timestamp, hown.event?, Option.bind_some, hown.sequence,
      elapsedAt_sequence hevents hmem]
    rfl
  have hslices := congrArg (List.filterMap fun slice : Option Nat × Bracket Nat =>
    if slice.1 = some track then some (viewMoment events event.sequence, slice.2) else none) h.slices
  rw [List.filterMap_filterMap] at hslices
  rw [List.filterMap_congr (g := fun packet => packet.slice?.bind fun slice =>
    if slice.1 = some track then some (viewMoment events event.sequence, slice.2) else none)
    fun packet hpacket => by
      unfold stampedSlice
      rw [hmoment packet hpacket]]
  refine hslices.trans ?_
  unfold clockSlice
  cases eventSlice plan event with
  | none => rfl
  | some slice =>
    by_cases htrack : slice.1 = some track
    · simp [htrack]
    · simp [htrack]

/-! ## Nesting -/

/-- **The slices of a track nest exactly when its spans do.** -/
theorem slicesNest_iff {τ : Type} [LinearOrder τ] {f : SchemaU64 → τ} {track : Nat}
    {brackets : List (τ × Bracket Nat)} (hevents : Projectable metadata.runId events)
    (ht : Timeline (trackIntervals plan events track f) brackets) :
    SlicesNest events (brackets.map Prod.snd) ↔
      ∀ a ∈ trackIntervals plan events track f, ∀ b ∈ trackIntervals plan events track f,
        a.2.start < b.2.start → NestedOrApart a.2 b.2 := by
  rw [← ht.nests_iff]
  constructor
  · rintro ⟨stack, hstack, -⟩
    exact ⟨stack, hstack⟩
  · rintro ⟨stack, hstack⟩
    refine ⟨stack, hstack, fun spanId hspan => ?_⟩
    rw [nest_leftOpen ht.openedOnce hstack, mem_leftOpen] at hspan
    obtain ⟨hopens, hcloses⟩ := hspan
    obtain ⟨⟨moment, _⟩, hmem, rfl⟩ := List.mem_map.mp hopens
    obtain ⟨interval, hinterval, rfl, -⟩ := (ht.opens _ _).mp hmem
    obtain ⟨entry, hentry, rfl⟩ := List.mem_map.mp hinterval
    obtain ⟨start, hstart, role, hrole, hsequence, hfinish⟩ :=
      start_of_interval (mem_spanIntervals_of_lane (mem_trackSpans.mp hentry).1)
    have hstarts : start.Starts := by
      rw [starts_iff, hrole]
      rfl
    refine ⟨start, hstart, hstarts, congrArg SchemaU64.get hsequence.symm, ?_⟩
    intro finish hfinishing hfinishes
    refine hcloses ?_
    rw [(finishSequence_iff hevents hfinishing).mpr (finishes_iff.mp hfinishes)] at hfinish
    exact List.mem_map.mpr ⟨_, (ht.closes (f finish.sequence) _).mpr
      ⟨_, hinterval, rfl, congrArg (Option.map f) hfinish⟩, rfl⟩

theorem mem_clockSlices {τ : Type} {f : SchemaU64 → τ} {track : Nat} (moment : τ)
    (bracket : Bracket Nat) :
    (moment, bracket) ∈ events.filterMap (clockSlice plan f track) ↔ ∃ event ∈ events,
      f event.sequence = moment ∧ eventSlice plan event = some (some track, bracket) := by
  simp only [List.mem_filterMap, clockSlice_eq_some]

theorem clockSlices_sorted {τ : Type} {f : SchemaU64 → τ} {R : τ → τ → Prop} (track : Nat)
    (h : events.Pairwise fun a b => R (f a.sequence) (f b.sequence)) :
    (events.filterMap (clockSlice plan f track)).Pairwise fun a b => R a.1 b.1 := by
  refine List.pairwise_filterMap.mpr (h.imp fun {a b} hR x hx y hy => ?_)
  rw [← (clockSlice_eq_some.mp hx).1, ← (clockSlice_eq_some.mp hy).1]
  exact hR

theorem sequences_advance (hevents : Projectable metadata.runId events) :
    SpansAdvance events SchemaU64.get := by
  rintro start hstart finish hfinish ⟨family, hrole⟩
  obtain ⟨other, hother, hsame, -, -, hlt, -⟩ :=
    hevents.sound.finish finish hfinish family _ hrole
  obtain rfl := hevents.increasing.eq_of_sequence_eq hother hstart hsame
  exact hlt

theorem moments_advance (hevents : Projectable metadata.runId events) :
    SpansAdvance events (viewMoment events) := by
  rintro start hstart finish hfinish ⟨family, hrole⟩
  obtain ⟨other, hother, hsame, -, -, hlt, hle⟩ :=
    hevents.sound.finish finish hfinish family _ hrole
  obtain rfl := hevents.increasing.eq_of_sequence_eq hother hstart hsame
  unfold viewMoment
  rw [elapsedAt_sequence hevents hstart, elapsedAt_sequence hevents hfinish,
    Prod.Lex.toLex_lt_toLex]
  exact (Nat.lt_or_eq_of_le hle).imp_right fun heq => ⟨heq, hlt⟩

theorem timestampLe_trans (a b c : TracePacket) (hab : timestampLe a b = true)
    (hbc : timestampLe b c = true) : timestampLe a c = true :=
  decide_eq_true ((of_decide_eq_true hab).trans (of_decide_eq_true hbc))

theorem timestampLe_total (a b : TracePacket) : (timestampLe a b || timestampLe b a) = true := by
  unfold timestampLe
  rw [Bool.or_eq_true, decide_eq_true_iff, decide_eq_true_iff]
  exact Nat.le_total _ _

/-- A slice of a packet is at the moment of the packet. -/
theorem moment_of_stampedSlice {track : Nat} {packet : TracePacket}
    {slice : (ℕ ×ₗ ℕ) × Bracket Nat} (h : slice ∈ stampedSlice track packet) :
    slice.1 = packet.moment := by
  obtain ⟨found, -, heq⟩ := Option.bind_eq_some_iff.mp h
  by_cases htrack : found.1 = some track
  · rw [if_pos htrack] at heq
    cases heq
    rfl
  · rw [if_neg htrack] at heq
    cases heq

/-- **In the order of the timestamps the slices of a track are in the order of their moments.** -/
theorem stampedSlices_sorted {packets : List TracePacket} {track : Nat}
    (h : (packets.filterMap (stampedSlice track)).Pairwise fun a b =>
      (ofLex a.1).2 < (ofLex b.1).2) :
    ((packets.mergeSort timestampLe).filterMap (stampedSlice track)).Pairwise fun a b =>
      a.1 < b.1 := by
  rw [List.pairwise_filterMap] at h ⊢
  refine (pairwise_mergeSort_stable timestampLe_trans timestampLe_total h).imp ?_
  rintro p q ⟨hle, hstable⟩ x hx y hy
  have hpx := moment_of_stampedSlice hx
  have hqy := moment_of_stampedSlice hy
  rw [hpx, hqy, TracePacket.moment, TracePacket.moment, Prod.Lex.toLex_lt_toLex]
  rcases Nat.lt_or_eq_of_le (of_decide_eq_true hle) with hlt | heq
  · exact .inl hlt
  · have hlt := hstable (decide_eq_true heq.ge) x hx y hy
    rw [hpx, hqy] at hlt
    exact .inr ⟨heq, hlt⟩

/-! ## The trace of a plan -/

/-- The packets of a trace: its descriptors, and those of each event. -/
structure TraceOf (plan : ProjectionPlan) (events : List DiagnosticEvent)
    (groups : List (List TracePacket)) (trace : ProjectedTrace) : Prop where
  declares : trace.descriptors =
    (plan.tracks.descriptorOrder.map (descriptorOf plan.tracks)).map descriptorPacket
  emits : trace.events = groups.flatten
  owned : List.Forall₂ (EventPackets plan) events groups

/-- **With the plan at hand the trace is made.** -/
theorem fromPlan_planned (h : Planned metadata events builder plan)
    (hevents : Projectable metadata.runId events) :
    ∃ groups trace, ProjectedTrace.fromPlan plan events = .ok trace ∧
      TraceOf plan events groups trace := by
  obtain ⟨groups, projector, hproject, hgroups, hnext⟩ :=
    projectEvents_planned h hevents (List.nil_append events).symm
      (show PacketProjector.new.nextSequence = ([] : List DiagnosticEvent).length + 1 from rfl)
  have hfinish : projector.finish plan = .ok () := by
    unfold PacketProjector.finish
    rw [hnext, h.count, Nat.add_sub_cancel, if_neg (not_not.mpr rfl)]
  unfold ProjectedTrace.fromPlan ProjectionPlan.descriptorPackets
  rw [h.tracks.descriptors, Option.map_some]
  dsimp only
  rw [ok_bind, hproject, ok_bind]
  dsimp only
  rw [mapError_bind_of_ok hfinish]
  exact ⟨groups, _, rfl, rfl, rfl, hgroups⟩

theorem TraceOf.packets_stamped (h : TraceOf plan events groups trace)
    (hevents : Projectable metadata.runId events) (track : Nat) :
    trace.packets.filterMap (stampedSlice track) =
      events.filterMap (clockSlice plan (viewMoment events) track) := by
  have hdescriptors : trace.descriptors.filterMap (stampedSlice track) = [] := by
    rw [h.declares]
    refine List.filterMap_eq_nil_iff.mpr fun packet hpacket => ?_
    obtain ⟨descriptor, -, rfl⟩ := List.mem_map.mp hpacket
    rfl
  unfold ProjectedTrace.packets
  rw [List.filterMap_append, hdescriptors, List.nil_append, h.emits]
  refine filterMap_flatten (List.forall₂_iff_get.mpr ⟨h.owned.length_eq, fun i hi hi' => ?_⟩)
  exact (h.owned.get hi hi').stamped hevents (List.get_mem _ _) track

theorem clockSlices_snd {τ σ : Type} (f : SchemaU64 → τ) (g : SchemaU64 → σ) (track : Nat) :
    (events.filterMap (clockSlice plan f track)).map Prod.snd =
      (events.filterMap (clockSlice plan g track)).map Prod.snd := by
  rw [List.map_filterMap, List.map_filterMap]
  refine List.filterMap_congr fun event _ => ?_
  unfold clockSlice
  cases eventSlice plan event with
  | none => rfl
  | some slice =>
    by_cases htrack : slice.1 = some track
    · simp [htrack]
    · simp [htrack]

/-- **In the order of the file the slices nest.** -/
theorem TraceOf.nested (h : TraceOf plan events groups trace)
    (hplan : Planned metadata events builder plan) (hevents : Projectable metadata.runId events)
    (track : Nat) : SlicesNest events (sliceBrackets track trace.packets) := by
  have ht := timeline (f := SchemaU64.get) hplan hevents (sequences_advance hevents)
    (clockSlices_sorted track hevents.increasing) mem_clockSlices
  rw [← stampedSlice_snd, h.packets_stamped hevents, clockSlices_snd _ SchemaU64.get]
  exact (slicesNest_iff hevents ht).mpr (trackIntervals_nested hplan hevents)

/-- **In the order of the timestamps they nest when the spans of each lane do.** -/
theorem TraceOf.viewed_iff (h : TraceOf plan events groups trace)
    (hplan : Planned metadata events builder plan) (hevents : Projectable metadata.runId events) :
    (∀ track, SlicesNest events (sliceBrackets track (trace.packets.mergeSort timestampLe))) ↔
      LanesNest events (viewMoment events) := by
  rw [← lanesNest_iff hplan hevents]
  refine forall_congr' fun track => ?_
  have hsequences : (events.filterMap (clockSlice plan (viewMoment events) track)).Pairwise
      fun a b => (ofLex a.1).2 < (ofLex b.1).2 :=
    clockSlices_sorted (R := fun a b : ℕ ×ₗ ℕ => (ofLex a).2 < (ofLex b).2) track
      hevents.increasing
  rw [← h.packets_stamped hevents] at hsequences
  have hsorted := stampedSlices_sorted hsequences
  have ht := timeline hplan hevents (moments_advance hevents) hsorted fun moment bracket => by
    rw [← mem_clockSlices, ← h.packets_stamped hevents]
    exact ((List.mergeSort_perm _ _).filterMap _).mem_iff
  rw [← stampedSlice_snd]
  exact slicesNest_iff hevents ht

/-- The descriptor of a packet. -/
def describe (descriptor : TrackDescriptorInfo) : TrackDescriptor :=
  ⟨some descriptor.uuid, some descriptor.name, descriptor.parentUuid, descriptor.isCounter⟩

/-- The slice of an event is what it does to its span. -/
theorem eventSlice_snd (h : Planned metadata events builder plan)
    (hevents : Projectable metadata.runId events) (hmem : event ∈ events) :
    (eventSlice plan event).toList.map Prod.snd =
      (spanBracket event).toList.map (Bracket.map SchemaU64.get) := by
  obtain ⟨drafts, -, -, hdrafted, -⟩ := drafts_planned h hevents hmem .new
  unfold eventSlice
  cases hbracket : spanBracket event with
  | none => rfl
  | some bracket =>
    obtain ⟨draft, -, hslice⟩ := hdrafted.slice bracket hbracket
    show (do
      let track ← (plan.spanTrack bracket.label).toOption
      some (some (plan.tracks.ids.number track), bracket.map SchemaU64.get)).toList.map _ = _
    rw [hslice.track]
    rfl

theorem TraceOf.described (h : TraceOf plan events groups trace) :
    trace.packets.filterMap TracePacket.descriptor? =
      (plan.tracks.descriptorOrder.map (descriptorOf plan.tracks)).map describe := by
  have hevents : trace.events.filterMap TracePacket.descriptor? = [] := by
    rw [h.emits]
    refine List.filterMap_eq_nil_iff.mpr fun packet hpacket => ?_
    obtain ⟨group, hgroup, hpacket⟩ := List.mem_flatten.mp hpacket
    obtain ⟨event, -, hown⟩ := forall₂_exists_left h.owned hgroup
    obtain ⟨_, _, trackEvent, hown⟩ := hown.all hpacket
    unfold TracePacket.descriptor?
    rw [hown.data]
  unfold ProjectedTrace.packets
  rw [List.filterMap_append, hevents, List.append_nil, h.declares, List.filterMap_map,
    show TracePacket.descriptor? ∘ descriptorPacket = some ∘ describe from rfl,
    List.filterMap_eq_map]

/-- **The trace is well-formed.** -/
theorem TraceOf.wellFormed (h : TraceOf plan events groups trace)
    (hplan : Planned metadata events builder plan) (hevents : Projectable metadata.runId events) :
    WellFormed events trace where
  distinct := by
    rw [h.described, List.pairwise_map]
    exact hplan.tracks.distinct.imp fun hne hsame => hne (Option.some.inj hsame)
  parents := by
    intro before descriptor after hsplit parent hparent
    rw [h.described, List.map_map] at hsplit
    obtain ⟨first, last, horder, rfl, hlast⟩ := List.map_eq_append_iff.mp hsplit
    obtain ⟨definition, rest, rfl, rfl, -⟩ := List.map_eq_cons_iff.mp hlast
    obtain ⟨other, hother, rfl⟩ := hplan.tracks.parent_before horder hparent
    exact ⟨_, List.mem_map_of_mem hother, rfl⟩
  declared := by
    intro packet hpacket trackEvent hevent
    rcases List.mem_append.mp hpacket with hpacket | hpacket
    · rw [h.declares] at hpacket
      obtain ⟨descriptor, -, rfl⟩ := List.mem_map.mp hpacket
      cases hevent
    · rw [h.emits] at hpacket
      obtain ⟨group, hgroup, hpacket⟩ := List.mem_flatten.mp hpacket
      obtain ⟨event, -, hown⟩ := forall₂_exists_left h.owned hgroup
      obtain ⟨_, _, found, hown⟩ := hown.all hpacket
      obtain rfl := Option.some.inj (hown.event?.symm.trans hevent)
      obtain ⟨identity, hidentity, htrack⟩ := hown.track
      obtain ⟨definition, hdefinition, rfl⟩ := List.mem_map.mp (hplan.tracks.ids.mem_iff.mp hidentity)
      rw [h.described]
      exact ⟨_, List.mem_map_of_mem (List.mem_map_of_mem
        (hplan.tracks.mem_order.mpr hdefinition)), rfl, htrack.symm⟩
  sources := by
    intro event hevent link hlink
    obtain ⟨source, hsource, hsequence, -⟩ := hevents.sound.links event hevent link hlink
    exact ⟨source, hsource, hsequence⟩
  packets := by
    obtain ⟨flowId, hattached, hinjective⟩ := flows_attached hplan hevents
    refine ⟨groups, flowId, h.emits, ?_, hinjective⟩
    refine List.forall₂_iff_get.mpr ⟨h.owned.length_eq, fun i hi hi' => ?_⟩
    have hmem := List.get_mem events ⟨i, hi⟩
    have hown := h.owned.get hi hi'
    refine ⟨fun packet hpacket => ?_, ?_, ?_⟩
    · obtain ⟨_, _, trackEvent, hpacket⟩ := hown.all hpacket
      exact ⟨hpacket.timestamp, trackEvent, hpacket.event?, hpacket.sequence⟩
    · rw [hown.slices]
      exact eventSlice_snd hplan hevents hmem
    · obtain ⟨first, rest, hpackets, ⟨trackEvent, hfirst⟩, hrest⟩ := hown.first
      refine ⟨first, rest, trackEvent, hpackets, hfirst.event?,
        hattached _ hmem trackEvent hfirst.flows hfirst.terminating, ?_⟩
      intro packet hpacket other hother
      obtain ⟨found, hfound⟩ := hrest packet hpacket
      obtain rfl := Option.some.inj (hfound.event?.symm.trans hother)
      exact ⟨hfound.flows, hfound.terminating⟩
  nested := h.nested hplan hevents

end Trace

/-! ## The export -/

/-- **The events are collected, or a limit is reached.** -/
theorem collect_settles (metadata : ProjectionMetadata) (events : List DiagnosticEvent)
    (hevents : Projectable metadata.runId events)
    (hthrough : metadata.exportedThrough.get = events.length)
    (hcaptured : metadata.exportedThrough ≤ metadata.capturedWatermark) :
    Settles LimitError (fun plan => ∃ builder, Planned metadata events builder plan)
      (do
        let collector ← ProjectionCollector.new metadata .unlimited
        let collector ← collector.observeAll events
        collector.finish) := by
  refine (collectorNew_settles metadata _ _ hcaptured).bind fun collector hcollector => ?_
  refine (observeAll_settles hcollector ?_).bind fun final hfinal => ?_
  · exact hevents
  · exact collectorFinish_settles hfinal hthrough

/-- **The trace of a plan is made, or a limit is reached.** -/
theorem projectPrefix_settles (metadata : ProjectionMetadata) (events : List DiagnosticEvent)
    (hevents : Projectable metadata.runId events)
    (hthrough : metadata.exportedThrough.get = events.length)
    (hcaptured : metadata.exportedThrough ≤ metadata.capturedWatermark) :
    Settles (fun fault => ∃ error, fault = .raised error ∧ LimitError error)
      (fun trace => ∃ builder plan groups, Planned metadata events builder plan ∧
        TraceOf plan events groups trace) (projectPrefix metadata events) := by
  unfold projectPrefix projectPrefixWithLimits
  refine ((collect_settles metadata events hevents hthrough hcaptured).mapError _).bind fun plan ⟨builder, hplan⟩ => ?_
  obtain ⟨groups, trace, hmade, htrace⟩ := fromPlan_planned hplan hevents
  rw [hmade]
  exact ⟨builder, plan, groups, hplan, htrace⟩

variable {metadata : ProjectionMetadata} {events : List DiagnosticEvent}

/-- What is projected from a plan. -/
theorem exported_of_collected (hevents : Projectable metadata.runId events)
    (hthrough : metadata.exportedThrough.get = events.length)
    (hcaptured : metadata.exportedThrough ≤ metadata.capturedWatermark) (plan : ProjectionPlan)
    (hplan : (do
        let collector ← ProjectionCollector.new metadata .unlimited
        let collector ← collector.observeAll events
        collector.finish : Except ProjectionError ProjectionPlan) = .ok plan) :
    ∃ trace, projectPrefix metadata events = .ok trace := by
  have hsettles := collect_settles metadata events hevents hthrough hcaptured
  rw [hplan] at hsettles
  obtain ⟨builder, hplanned⟩ := hsettles
  obtain ⟨groups, trace, htrace, -⟩ := fromPlan_planned hplanned hevents
  refine ⟨trace, ?_⟩
  unfold projectPrefix projectPrefixWithLimits
  rw [hplan]
  exact htrace

/-- A trace that was projected. -/
theorem projected_spec (hevents : Projectable metadata.runId events)
    (hthrough : metadata.exportedThrough.get = events.length)
    (hcaptured : metadata.exportedThrough ≤ metadata.capturedWatermark) {trace : ProjectedTrace}
    (hproject : projectPrefix metadata events = .ok trace) :
    WellFormed events trace ∧
      ((∀ track, SlicesNest events
          (sliceBrackets track (trace.packets.mergeSort timestampLe))) ↔
        LanesNest events (viewMoment events)) := by
  have hsettles := projectPrefix_settles metadata events hevents hthrough hcaptured
  rw [hproject] at hsettles
  obtain ⟨builder, plan, groups, hplan, htrace⟩ := hsettles
  exact ⟨htrace.wellFormed hplan hevents, htrace.viewed_iff hplan hevents⟩

/-- **A durable prefix exports to a well-formed trace, or a limit is reached; in the order of the
timestamps its slices nest exactly when the spans of each lane do.** -/
theorem export_well_formed (metadata : ProjectionMetadata) (events : List DiagnosticEvent)
    (hevents : Projectable metadata.runId events)
    (hthrough : metadata.exportedThrough.get = events.length)
    (hcaptured : metadata.exportedThrough ≤ metadata.capturedWatermark) :
    (∃ error, projectPrefix metadata events = .error (.raised error) ∧ LimitError error) ∨
      ∃ trace, projectPrefix metadata events = .ok trace ∧ WellFormed events trace ∧
        ((∀ track, SlicesNest events
            (sliceBrackets track (trace.packets.mergeSort timestampLe))) ↔
          LanesNest events (viewMoment events)) := by
  have hsettles := projectPrefix_settles metadata events hevents hthrough hcaptured
  cases hproject : projectPrefix metadata events with
  | error fault =>
    rw [hproject] at hsettles
    obtain ⟨error, rfl, herror⟩ := hsettles
    exact .inl ⟨error, rfl, herror⟩
  | ok trace => exact .inr ⟨trace, rfl, projected_spec hevents hthrough hcaptured hproject⟩

/-- **Where the elapsed times do not decrease the spans of each lane nest in a viewer.** -/
theorem lanesNest_of_elapsed (hevents : Projectable metadata.runId events)
    (htimes : events.Pairwise fun a b => a.elapsedNs.get ≤ b.elapsedNs.get) :
    LanesNest events (viewMoment events) := by
  refine lanesNest_of_keeps hevents fun a ha b hb hlt => ?_
  obtain ⟨i, hi, rfl⟩ := List.mem_iff_getElem.mp ha
  obtain ⟨j, hj, rfl⟩ := List.mem_iff_getElem.mp hb
  have horder : i < j := by
    have hsequence := hevents.dense i _ (List.getElem?_eq_getElem hi)
    have hsequence' := hevents.dense j _ (List.getElem?_eq_getElem hj)
    have hget : events[i].sequence.get < events[j].sequence.get := hlt
    omega
  have hle := List.pairwise_iff_getElem.mp htimes i j hi hj horder
  unfold viewMoment
  rw [elapsedAt_sequence hevents ha, elapsedAt_sequence hevents hb, Prod.Lex.toLex_lt_toLex]
  exact (Nat.lt_or_eq_of_le hle).imp_right fun heq => ⟨heq, hlt⟩

/-! ## Spans that cross -/

theorem exists_of_any {ε α : Type} {x : Except ε α} {p : α → Bool}
    (h : x.toOption.any p = true) : ∃ a, x = .ok a ∧ p a = true := by
  cases x with
  | error e => cases h
  | ok a => exact ⟨a, rfl, h⟩

/-- What is known of a run of so many events. -/
def runMetadata (through : SchemaU64) : ProjectionMetadata :=
  ⟨⟨1⟩, through, through, "0.1.0", none, none⟩

/-- Two spans, the second after the first in sequence; by their times they cross. -/
def crossedSpans : List DiagnosticEvent :=
  [.spanStarted ⟨.at 1 ⟨10, by decide⟩ [] SchemaU64.one_pos, .runLifecycle, none⟩,
   .spanFinished ⟨.at 2 ⟨20, by decide⟩ [] SchemaU64.two_pos, 1, .completed, none⟩,
   .spanStarted ⟨.at 3 ⟨15, by decide⟩ [] SchemaU64.three_pos, .runLifecycle, none⟩,
   .spanFinished ⟨.at 4 ⟨25, by decide⟩ [] SchemaU64.four_pos, 3, .completed, none⟩]

theorem crossedSpans_projectable : Projectable ⟨1⟩ crossedSpans where
  sameRun := by decide +kernel
  dense := by
    intro i event hget
    have hlt : i < 4 := (List.getElem?_eq_some_iff.mp hget).1
    interval_cases i <;> cases hget <;> rfl
  accepted :=
    (exists_of_any (p := fun _ => true) (by decide +kernel)).imp fun _ haccepted => haccepted.1
  usageOnce := by
    refine List.pairwise_iff_forall_sublist.mpr fun {a b} hsub ha => ?_
    have hmem : a ∈ crossedSpans := hsub.subset List.mem_cons_self
    have hnone : ∀ event ∈ crossedSpans, isActUsage event = false := by decide +kernel
    rw [hnone a hmem] at ha
    cases ha
  elapsed := by decide +kernel

theorem crossedSpans_through :
    (runMetadata 4).exportedThrough.get = crossedSpans.length := rfl

theorem crossedSpans_captured :
    (runMetadata 4).exportedThrough ≤ (runMetadata 4).capturedWatermark := Nat.le_refl 4

theorem crossedSpans_lanes : ¬LanesNest crossedSpans (viewMoment crossedSpans) := by
  intro hnest
  have hlanes : firstFitLanes (spansOf crossedSpans rootTrackIdentity "run.lifecycle") =
      [(⟨1, some 2, rootTrackIdentity, "run.lifecycle", "run.lifecycle"⟩, 0),
       (⟨3, some 4, rootTrackIdentity, "run.lifecycle", "run.lifecycle"⟩, 0)] := by
    decide +kernel
  have hpair := hnest rootTrackIdentity "run.lifecycle"
  rw [hlanes] at hpair
  have hcrossed := hpair _ List.mem_cons_self _ (List.mem_cons_of_mem _ List.mem_cons_self) rfl
  exact absurd hcrossed (by decide +kernel)

/-- The tracks of a run without spans. -/
def runTracks (through : SchemaU64) : List TrackDefinition :=
  [definitionOf (runMetadata through).rootTrackName [],
   definitionOf (runMetadata through).rootTrackName
     [metadataStep (runMetadata through).metadataTrackName]]

/-- The tracks of the spans that cross. -/
def crossedTracks : List TrackDefinition :=
  runTracks 4 ++
    [definitionOf (runMetadata 4).rootTrackName [laneStep "run.lifecycle" "run.lifecycle" 0]]

/-- Events are exported when their tracks and spans fit the limits. -/
theorem exported_of_tracks (hevents : Projectable metadata.runId events)
    (hthrough : metadata.exportedThrough.get = events.length)
    (hcaptured : metadata.exportedThrough ≤ metadata.capturedWatermark)
    {before after : List TrackDefinition} {usage usage' : StructuralIndexUsage}
    (hcollects : (do
      let collector ← ProjectionCollector.new metadata .unlimited
      collector.observeAll events : Except ProjectionError ProjectionCollector).toOption.any
        (fun collector => decide (collector.tracks.definitions = before ∧
          collector.spans = spanIntervals events ∧ collector.flows = [] ∧
          collector.structuralBudget = ⟨.fixed, usage⟩ ∧
          collector.nextSequence - 1 = collector.metadata.exportedThrough.get ∧
          collector.limits.maxTrackIds = u64Max ∧ collector.limits.maxFlowIds = u64Max)) = true)
    (hlanes : (allocateSpanLanes ⟨before⟩ (spanIntervals events) ⟨.fixed, usage⟩).toOption.any
      (fun result => decide (result.2.1.definitions = after ∧
        result.2.2 = ⟨.fixed, usage'⟩)) = true)
    (hfinish : (TrackCatalogBuilder.finish ⟨after⟩ u64Max ⟨.fixed, usage'⟩).toOption.any
      (fun _ => true) = true) : ∃ trace, projectPrefix metadata events = .ok trace := by
  obtain ⟨collector, hcollector, hfacts⟩ := exists_of_any hcollects
  obtain ⟨hdefinitions, hspans, hflows, hbudget, hend, htracks, hids⟩ :=
    of_decide_eq_true hfacts
  obtain ⟨⟨assignments, tracks, budget⟩, hallocated, hfacts⟩ := exists_of_any hlanes
  obtain ⟨hdefinitions', hbudget'⟩ := of_decide_eq_true hfacts
  obtain ⟨⟨catalog, budget'⟩, hfinished, -⟩ := exists_of_any hfinish
  have hplan : ∃ plan, collector.finish = .ok plan := by
    unfold ProjectionCollector.finish
    dsimp only at hdefinitions' hbudget' ⊢
    rw [if_neg (not_not.mpr hend), show collector.tracks = ⟨before⟩ from
      congrArg TrackCatalogBuilder.mk hdefinitions, hspans, hbudget, hallocated, ok_bind]
    dsimp only
    rw [show tracks = ⟨after⟩ from congrArg TrackCatalogBuilder.mk hdefinitions', hbudget',
      htracks, hfinished, ok_bind, hflows, List.mergeSort_nil, hids]
    exact ⟨_, rfl⟩
  obtain ⟨plan, hplan⟩ := hplan
  obtain ⟨started, hnew, hobserved⟩ := bind_eq_ok.mp hcollector
  refine exported_of_collected hevents hthrough hcaptured plan ?_
  rw [hnew, ok_bind, hobserved, ok_bind, hplan]

/-- The spans that cross are exported. -/
theorem crossedSpans_exported :
    ∃ trace, projectPrefix (runMetadata 4) crossedSpans = .ok trace := by
  refine @exported_of_tracks _ _ crossedSpans_projectable crossedSpans_through
    crossedSpans_captured (runTracks 4) crossedTracks ⟨10, 505⟩ ⟨13, 760⟩
    (by decide +kernel) ?_ ?_
  · unfold allocateSpanLanes
    rw [List.mergeSort_of_pairwise (by decide +kernel)]
    decide +kernel
  · have hsorted : (crossedTracks.map (·.canonicalIdentity)).mergeSort
        (fun a b => decide (a ≤ b)) = crossedTracks.map (·.canonicalIdentity) :=
      List.mergeSort_of_pairwise (by decide +kernel)
    unfold TrackCatalogBuilder.finish
    dsimp only
    rw [hsorted]
    decide +kernel

theorem export_well_formed_crossed :
    ∃ trace, projectPrefix (runMetadata 4) crossedSpans = .ok trace ∧
      WellFormed crossedSpans trace ∧
      ((∀ track, SlicesNest crossedSpans
          (sliceBrackets track (trace.packets.mergeSort timestampLe))) ↔
        LanesNest crossedSpans (viewMoment crossedSpans)) := by
  obtain ⟨trace, htrace⟩ := crossedSpans_exported
  cases export_well_formed (runMetadata 4) crossedSpans crossedSpans_projectable
    crossedSpans_through crossedSpans_captured with
  | inl hlimit =>
    obtain ⟨error, herror, -⟩ := hlimit
    rw [htrace] at herror
    cases herror
  | inr hexported => exact hexported

/-- The slices of spans that cross do not nest in the order of the timestamps. -/
theorem crossedSpans_cross :
    Projectable (runMetadata 4).runId crossedSpans ∧
      (runMetadata 4).exportedThrough.get = crossedSpans.length ∧
      (runMetadata 4).exportedThrough ≤ (runMetadata 4).capturedWatermark ∧
      ∃ trace, projectPrefix (runMetadata 4) crossedSpans = .ok trace ∧
        ¬∀ track, SlicesNest crossedSpans
          (sliceBrackets track (trace.packets.mergeSort timestampLe)) := by
  refine ⟨crossedSpans_projectable, crossedSpans_through, crossedSpans_captured, ?_⟩
  obtain ⟨trace, htrace⟩ := crossedSpans_exported
  refine ⟨trace, htrace, ?_⟩
  rw [(projected_spec crossedSpans_projectable crossedSpans_through crossedSpans_captured
    htrace).2]
  exact crossedSpans_lanes

end Troupe.Perfetto
