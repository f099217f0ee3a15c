import Troupe.Perfetto.Collected
import Troupe.Perfetto.Project

/-! # What the projection pass projects

With the plan of the events at hand the second pass cannot fail: every track it asks for is there,
and every span has one (**`projectEvents_planned`**). `EventPackets` is what the packets of one
event are. -/

namespace Troupe.Perfetto

open Troupe.Lib Troupe.Core

/-! ## Reading a packet -/

/-- The track event of a packet. -/
def TracePacket.event? (packet : TracePacket) : Option TrackEvent :=
  match packet.data with
  | some (.trackEvent event) => some event
  | _ => none

/-- The track descriptor of a packet. -/
def TracePacket.descriptor? (packet : TracePacket) : Option TrackDescriptor :=
  match packet.data with
  | some (.trackDescriptor descriptor) => some descriptor
  | _ => none

/-- The number an annotation holds under a name. -/
def DebugAnnotation.uint? (name : String) (note : DebugAnnotation) : Option Nat :=
  match note.value with
  | some (.uint value) => if note.name = some name then some value else none
  | _ => none

/-- The first number annotated under a name. -/
def uintOf (name : String) (annotations : List DebugAnnotation) : Option Nat :=
  annotations.findSome? ( DebugAnnotation.uint? name)

/-- The sequence of the event a packet is of. -/
def TrackEvent.sequence? (event : TrackEvent) : Option Nat :=
  uintOf "troupe.event.sequence" event.debugAnnotations

/-- The slice a track event begins or ends, by its span. -/
def TrackEvent.slice? (event : TrackEvent) : Option (Bracket Nat) :=
  let spanId := (uintOf "troupe.span.id" event.debugAnnotations).getD 0
  match event.type with
  | some .sliceBegin => some (.opens spanId)
  | some .sliceEnd => some (.closes spanId)
  | _ => none

/-! ## Tracks of spans -/

/-- What an event does to a span. -/
def spanBracket (event : DiagnosticEvent) : Option (Bracket SchemaU64) :=
  match spanRole event with
  | some _ => some (.opens event.sequence)
  | none => (finishedSpan event).map .closes

theorem lookup_of_mem {α β : Type} [BEq α] [LawfulBEq α] {entries : List (α × β)} {key : α}
    {value : β} (hnodup : (entries.map Prod.fst).Nodup) (h : (key, value) ∈ entries) :
    entries.lookup key = some value := by
  obtain ⟨before, after, rfl⟩ := List.append_of_mem h
  refine List.lookup_eq_some_iff.mpr ⟨before, after, rfl, fun entry hentry => ?_⟩
  rw [List.map_append] at hnodup
  have hne := (List.nodup_append.mp hnodup).2.2 entry.1 (List.mem_map_of_mem hentry) key
    List.mem_cons_self
  exact bne_iff_ne.mpr hne.symm

section Planned

variable {metadata : ProjectionMetadata} {runId : CanonicalUuid} {events : List DiagnosticEvent}
  {builder : TrackCatalogBuilder} {plan : ProjectionPlan} {event : DiagnosticEvent}

/-- Each span has one interval. -/
theorem spanIntervals_nodup (h : Projectable runId events) :
    ((spanIntervals events).map SpanInterval.startSequence).Nodup := by
  unfold spanIntervals
  rw [List.map_filterMap]
  refine List.pairwise_filterMap.mpr (h.increasing.imp fun {a b} hlt x hx y hy => ?_)
  have hstart : ∀ {event : DiagnosticEvent} {x : SchemaU64},
      (spanInterval events event).map SpanInterval.startSequence = some x → event.sequence = x := by
    intro event x hx
    obtain ⟨interval, hinterval, rfl⟩ := Option.map_eq_some_iff.mp hx
    obtain ⟨_, _, rfl⟩ := Option.map_eq_some_iff.mp hinterval
    rfl
  rintro rfl
  rw [SchemaU64.lt_def, hstart hx, hstart hy] at hlt
  exact Nat.lt_irrefl _ hlt

/-- **The track of a span is its lane.** -/
theorem Planned.spanTrack (h : Planned metadata events builder plan)
    (hevents : Projectable runId events) {entry : SpanInterval × Nat}
    (hentry : entry ∈ laneEntries (spanIntervals events)) :
    plan.spanTrack entry.1.startSequence =
      .ok (laneIdentity entry.1.parentTrackIdentity entry.1.role entry.2) := by
  have hnodup : (plan.spanTracks.map Prod.fst).Nodup := by
    rw [h.spanTracks, List.map_map]
    have hfst : (laneEntries (spanIntervals events)).map
        (fun entry => entry.1.startSequence) =
        ((laneEntries (spanIntervals events)).map Prod.fst).map SpanInterval.startSequence := by
      rw [List.map_map]
      rfl
    refine (congrArg List.Nodup hfst).mpr ?_
    rw [laneEntries_fst]
    exact ((List.mergeSort_perm _ _).map _).nodup_iff.mpr (spanIntervals_nodup hevents)
  unfold ProjectionPlan.spanTrack
  rw [lookup_of_mem hnodup (h.spanTracks ▸ List.mem_map_of_mem hentry)]

/-- A span that is started is on a lane. -/
theorem laneEntry_of_start (hmem : event ∈ events) {role displayName : String}
    (hrole : spanRole event = some (role, displayName)) :
    ∃ lane, (⟨event.sequence, finishSequence events event.sequence, scopeTrackIdentity event.scope,
      role, displayName⟩, lane) ∈ laneEntries (spanIntervals events) := by
  have hinterval : (⟨event.sequence, finishSequence events event.sequence,
      scopeTrackIdentity event.scope, role, displayName⟩ : SpanInterval) ∈
      spanIntervals events := by
    refine List.mem_filterMap.mpr ⟨event, hmem, ?_⟩
    unfold spanInterval
    rw [hrole]
    rfl
  rw [← List.mem_mergeSort, ← laneEntries_fst] at hinterval
  obtain ⟨⟨interval, lane⟩, hentry, rfl⟩ := List.mem_map.mp hinterval
  exact ⟨lane, hentry⟩

/-- **A span that is started has a track, which is a track of the plan.** -/
theorem Planned.spanTrack_of_start (h : Planned metadata events builder plan)
    (hevents : Projectable runId events) (hmem : event ∈ events) (hstarts : event.Starts) :
    ∃ track ∈ plan.tracks.ids.identities, plan.spanTrack event.sequence = .ok track := by
  obtain ⟨⟨role, displayName⟩, hrole⟩ := Option.isSome_iff_exists.mp (starts_iff.mp hstarts)
  obtain ⟨lane, hentry⟩ := laneEntry_of_start hmem hrole
  obtain ⟨path, -, hhas, hidentity⟩ := h.lanes _ hentry
  refine ⟨_, ?_, h.spanTrack hevents hentry⟩
  rw [hidentity]
  exact h.tracks.id_of_has hhas

theorem Planned.scope_mem (h : Planned metadata events builder plan) (hmem : event ∈ events) :
    scopeTrackIdentity event.scope ∈ plan.tracks.ids.identities := by
  rw [scopeTrackIdentity_eq]
  exact h.tracks.id_of_has (h.scopes event hmem)

theorem Planned.counter_mem (h : Planned metadata events builder plan) (hmem : event ∈ events)
    {counter : String × String × String}
    (hcounter : counter ∈ eventCounters event (scopeTrackIdentity event.scope)) :
    counterTrackIdentity counter.1 counter.2.1 ∈ plan.tracks.ids.identities := by
  obtain ⟨path, -, hhas, hidentity⟩ := h.counters event hmem counter hcounter
  rw [hidentity]
  exact h.tracks.id_of_has hhas

theorem Planned.root_mem (h : Planned metadata events builder plan) :
    rootTrackIdentity ∈ plan.tracks.ids.identities := h.tracks.id_of_has h.root

end Planned

/-! ## Drafts -/

/-- The draft of a packet that begins or ends the slice of a span. -/
structure SliceDraft (plan : ProjectionPlan) (bracket : Bracket SchemaU64) (draft : PacketDraft) :
    Prop where
  type : draft.eventType = match bracket with
    | .opens _ => .sliceBegin
    | .closes _ => .sliceEnd
  spanId : uintOf "troupe.span.id" draft.annotations = some bracket.label.get
  track : plan.spanTrack bracket.label = .ok draft.trackIdentity

/-- What the drafts of an event are. -/
structure Drafted (plan : ProjectionPlan) (event : DiagnosticEvent) (drafts : List PacketDraft) :
    Prop where
  nonempty : drafts ≠ []
  tracks : ∀ draft ∈ drafts, draft.trackIdentity ∈ plan.tracks.ids.identities
  slice : ∀ bracket ∈ spanBracket event, ∃ draft, drafts = [draft] ∧ SliceDraft plan bracket draft
  others : spanBracket event = none → ∀ draft ∈ drafts,
    draft.eventType = .instant ∨ draft.eventType = .counter

theorem uintOf_append {name : String} {notes more : List DebugAnnotation}
    (h : ∀ note ∈ notes, note.uint? name = none) :
    uintOf name (notes ++ more) = uintOf name more := by
  unfold uintOf
  rw [List.findSome?_append, List.findSome?_eq_none_iff.mpr h, Option.none_or]

theorem uintOf_append_of_some {name : String} {notes more : List DebugAnnotation} {value : Nat}
    (h : uintOf name notes = some value) : uintOf name (notes ++ more) = some value := by
  unfold uintOf at h ⊢
  rw [List.findSome?_append, h, Option.some_or]

/-- A draft of another kind, on a track of the plan. -/
def Plain (plan : ProjectionPlan) (draft : PacketDraft) : Prop :=
  draft.trackIdentity ∈ plan.tracks.ids.identities ∧
    (draft.eventType = .instant ∨ draft.eventType = .counter)

section Drafts

variable {metadata : ProjectionMetadata} {runId : CanonicalUuid} {events : List DiagnosticEvent}
  {builder : TrackCatalogBuilder} {plan : ProjectionPlan} {event : DiagnosticEvent}
  {drafts : List PacketDraft}

theorem drafted_of_plain (hbracket : spanBracket event = none) (hne : drafts ≠ [])
    (h : ∀ draft ∈ drafts, Plain plan draft) : Drafted plan event drafts where
  nonempty := hne
  tracks draft hmem := (h draft hmem).1
  slice bracket hmem := by
    rw [hbracket] at hmem
    cases hmem
  others _ draft hmem := (h draft hmem).2

theorem drafted_of_slice {draft : PacketDraft} {bracket : Bracket SchemaU64}
    (hbracket : spanBracket event = some bracket) (h : SliceDraft plan bracket draft)
    (htrack : draft.trackIdentity ∈ plan.tracks.ids.identities) :
    Drafted plan event [draft] where
  nonempty := List.cons_ne_nil _ _
  tracks other hmem := by
    rw [List.mem_singleton.mp hmem]
    exact htrack
  slice other hother := by
    rw [hbracket] at hother
    cases hother
    exact ⟨draft, rfl, h⟩
  others hnone := by
    rw [hbracket] at hnone
    cases hnone

theorem plain_instantDraft {track : String} (htrack : track ∈ plan.tracks.ids.identities)
    (name : String) (notes : List DebugAnnotation) : Plain plan (instantDraft track name notes) :=
  ⟨htrack, .inl rfl⟩

/-- A number is on its counter, or on the track it falls back to. -/
theorem plain_numericDraft {track fallback : String}
    (htrack : track ∈ plan.tracks.ids.identities)
    (hfallback : fallback ∈ plan.tracks.ids.identities) (name value : String)
    (notes : List DebugAnnotation) :
    Plain plan (numericDraft track fallback name value notes) := by
  unfold numericDraft
  cases exactCounterValue value with
  | none => exact ⟨hfallback, .inl rfl⟩
  | some exact_ => exact ⟨htrack, .inr rfl⟩

/-- The counters of an event's scope that the event registers. -/
theorem Planned.plain_scopeCounter (h : Planned metadata events builder plan)
    (hmem : event ∈ events) {series label : String}
    (hcounter : (scopeTrackIdentity event.scope, series, label) ∈
      eventCounters event (scopeTrackIdentity event.scope))
    (name value : String) (notes : List DebugAnnotation) :
    Plain plan (scopeCounter event.scope series name value notes) :=
  plain_numericDraft (h.counter_mem hmem hcounter) (h.scope_mem hmem) name value notes

/-- The counters of the run that the event registers. -/
theorem Planned.plain_rootCounter (h : Planned metadata events builder plan)
    (hmem : event ∈ events) {series label : String}
    (hcounter : (rootTrackIdentity, series, label) ∈
      eventCounters event (scopeTrackIdentity event.scope)) (name value : String) :
    Plain plan (rootCounter series name value) :=
  plain_numericDraft (h.counter_mem hmem hcounter) h.root_mem name value []

/-- **The drafts of the usage of an agent's context.** -/
theorem Planned.plain_contextUsage (h : Planned metadata events builder plan)
    {value : ContextUsageSampled} (hmem : .contextUsageSampled value ∈ events) :
    ∀ draft ∈ contextUsage value, Plain plan draft := by
  intro draft hdraft
  simp only [contextUsage, List.mem_append, List.mem_cons, List.mem_map, List.mem_flatMap]
    at hdraft
  rcases hdraft with ((rfl | ⟨used, hused, rfl⟩) | ⟨window, hwindow, rfl⟩) |
      ⟨amount, -, currency, hcurrency, rfl⟩
  · exact plain_instantDraft (h.scope_mem hmem) _ _
  · exact h.plain_scopeCounter hmem (List.mem_append_left _ (List.mem_append_left _
      (List.mem_map.mpr ⟨used, hused, rfl⟩))) _ _ _
  · exact h.plain_scopeCounter hmem (List.mem_append_left _ (List.mem_append_right _
      (List.mem_map.mpr ⟨window, hwindow, rfl⟩))) _ _ _
  · exact h.plain_scopeCounter hmem (List.mem_append_right _
      (List.mem_map.mpr ⟨currency, hcurrency, rfl⟩)) _ _ _

/-- **The drafts of the usage of an act.** -/
theorem Planned.plain_actUsage (h : Planned metadata events builder plan)
    {value : ActTokenUsageFinalized} (hmem : .actTokenUsageFinalized value ∈ events)
    (projector : PacketProjector) : ∀ draft ∈ (actUsage projector value).1, Plain plan draft := by
  intro draft hdraft
  simp only [actUsage, List.mem_append, List.mem_cons, List.mem_map] at hdraft
  rcases hdraft with (rfl | ⟨⟨field, amount⟩, hfield, rfl⟩) | ⟨coverage, hcoverage, rfl⟩
  · exact plain_instantDraft (h.scope_mem hmem) _ _
  · obtain ⟨other, hother, hvalue⟩ := List.mem_filterMap.mp hfield
    obtain ⟨count, hcount, heq⟩ := Option.map_eq_some_iff.mp hvalue
    obtain ⟨rfl, -⟩ := Prod.mk.inj heq
    have hknown : (other.value value).isSome = true := by
      rw [hcount]
      rfl
    exact h.plain_rootCounter hmem (List.mem_append_left _
      (List.mem_map.mpr ⟨other, List.mem_filter.mpr ⟨hother, hknown⟩, rfl⟩)) _ _
  · exact h.plain_rootCounter hmem (List.mem_append_right _
      (List.mem_map.mpr ⟨coverage, hcoverage, rfl⟩)) _ _

/-! ### Slices -/

theorem uintOf_spanId (spanId : SchemaU64) (notes : List DebugAnnotation) :
    uintOf "troupe.span.id" ( uintAnnotation "troupe.span.id" spanId.get :: notes) =
      some spanId.get := by
  unfold uintOf
  rw [List.findSome?_cons]
  simp [ DebugAnnotation.uint?, uintAnnotation]

theorem uint?_exactIntegerAnnotation (name label value : String) :
    ( exactIntegerAnnotation label value).uint? name = none := by
  unfold exactIntegerAnnotation
  cases parseI64 value <;> rfl

/-- An attribute is never a number under a name. -/
theorem uint?_attributeAnnotations (name : String) (attributes : DiagnosticAttributes) :
    ∀ note ∈ attributeAnnotations attributes, note.uint? name = none := by
  intro note hnote
  obtain ⟨⟨key, value⟩, -, rfl⟩ := List.mem_map.mp hnote
  cases value with
  | integer value => exact uint?_exactIntegerAnnotation _ _ _
  | _ => rfl

variable {track : String}

theorem builtinSpanStart_planned {value : SpanStarted}
    (htrack : plan.spanTrack value.header.sequence = .ok track)
    (hmem : track ∈ plan.tracks.ids.identities) :
    ∃ drafts, builtinSpanStart plan value = .ok drafts ∧
      Drafted plan (.spanStarted value) drafts := by
  unfold builtinSpanStart
  rw [htrack, ok_bind]
  refine ⟨_, rfl, drafted_of_slice rfl ⟨rfl, ?_, htrack⟩ hmem⟩
  exact uintOf_spanId _ _

theorem customSpanStart_planned {value : CustomSpanStarted}
    (htrack : plan.spanTrack value.header.sequence = .ok track)
    (hmem : track ∈ plan.tracks.ids.identities) :
    ∃ drafts, customSpanStart plan value = .ok drafts ∧
      Drafted plan (.customSpanStarted value) drafts := by
  have hparent : ∀ note ∈ value.parentSpanId.toList.map
      (fun parent => uintAnnotation "troupe.span.parent_id" parent.get),
      note.uint? "troupe.span.id" = none := by
    intro note hnote
    obtain ⟨parent, -, rfl⟩ := List.mem_map.mp hnote
    simp [ DebugAnnotation.uint?, uintAnnotation]
  unfold customSpanStart
  rw [htrack, ok_bind]
  refine ⟨_, rfl, drafted_of_slice rfl ⟨rfl, ?_, htrack⟩ hmem⟩
  rw [uintOf_append fun note hnote => ?_]
  · exact uintOf_spanId _ _
  · rcases List.mem_append.mp hnote with hattribute | hnote
    · exact uint?_attributeAnnotations _ _ note hattribute
    · exact hparent note hnote

theorem builtinSpanFinish_planned {value : SpanFinished}
    (htrack : plan.spanTrack value.spanId = .ok track)
    (hmem : track ∈ plan.tracks.ids.identities) :
    ∃ drafts, builtinSpanFinish plan value = .ok drafts ∧
      Drafted plan (.spanFinished value) drafts := by
  unfold builtinSpanFinish
  rw [htrack, ok_bind]
  refine ⟨_, rfl, drafted_of_slice rfl ⟨rfl, ?_, htrack⟩ hmem⟩
  exact uintOf_spanId _ _

theorem customSpanFinish_planned {value : CustomSpanFinished}
    (htrack : plan.spanTrack value.spanId = .ok track)
    (hmem : track ∈ plan.tracks.ids.identities) :
    ∃ drafts, customSpanFinish plan value = .ok drafts ∧
      Drafted plan (.customSpanFinished value) drafts := by
  unfold customSpanFinish
  rw [htrack, ok_bind]
  refine ⟨_, rfl, drafted_of_slice rfl ⟨rfl, ?_, htrack⟩ hmem⟩
  exact uintOf_spanId _ _

/-- **The drafts of an event are made.** -/
theorem drafts_planned (h : Planned metadata events builder plan)
    (hevents : Projectable runId events) (hmem : event ∈ events) (projector : PacketProjector) :
    ∃ drafts projector', PacketProjector.drafts plan projector event = .ok (drafts, projector') ∧
      Drafted plan event drafts ∧ projector'.nextSequence = projector.nextSequence := by
  have hscope := h.scope_mem hmem
  have hstarted (hstarts : event.Starts) := h.spanTrack_of_start hevents hmem hstarts
  have hfinished (spanId : SchemaU64) (hfinishes : event.Finishes spanId) :
      ∃ track ∈ plan.tracks.ids.identities, plan.spanTrack spanId = .ok track := by
    obtain ⟨family, hrole⟩ := hfinishes
    obtain ⟨start, hstart, rfl, ⟨kind, parent, hstarts⟩, -⟩ :=
      hevents.sound.finish event hmem family spanId hrole
    exact h.spanTrack_of_start hevents hstart ⟨family, kind, parent, hstarts⟩
  have hcontained (containing : Option SchemaU64) (hrole : event.role = .occurs containing) :
      ∃ track ∈ plan.tracks.ids.identities,
        plan.containingOrScopeTrack event.scope containing = .ok track := by
    cases containing with
    | none => exact ⟨_, hscope, rfl⟩
    | some spanId =>
      obtain ⟨span, hspan, rfl, hstarts, -⟩ := hevents.sound.inside event hmem spanId (.inr hrole)
      exact h.spanTrack_of_start hevents hspan hstarts
  have hinstant (hbracket : spanBracket event = none) {track : String} (htrack : track ∈ plan.tracks.ids.identities) (name : String)
      (notes : List DebugAnnotation) : Drafted plan event [instantDraft track name notes] :=
    drafted_of_plain hbracket (List.cons_ne_nil _ _)
      (List.forall_mem_singleton.mpr (plain_instantDraft htrack name notes))
  cases event with
  | spanStarted value =>
    obtain ⟨track, htrack, hlane⟩ := hstarted ⟨_, _, _, rfl⟩
    obtain ⟨drafts, hdrafts, hdrafted⟩ := builtinSpanStart_planned hlane htrack
    exact ⟨drafts, projector, map_eq_ok.mpr ⟨_, hdrafts, rfl⟩, hdrafted, rfl⟩
  | customSpanStarted value =>
    obtain ⟨track, htrack, hlane⟩ := hstarted ⟨_, _, _, rfl⟩
    obtain ⟨drafts, hdrafts, hdrafted⟩ := customSpanStart_planned hlane htrack
    exact ⟨drafts, projector, map_eq_ok.mpr ⟨_, hdrafts, rfl⟩, hdrafted, rfl⟩
  | spanFinished value =>
    obtain ⟨track, htrack, hlane⟩ := hfinished value.spanId ⟨_, rfl⟩
    obtain ⟨drafts, hdrafts, hdrafted⟩ := builtinSpanFinish_planned hlane htrack
    exact ⟨drafts, projector, map_eq_ok.mpr ⟨_, hdrafts, rfl⟩, hdrafted, rfl⟩
  | customSpanFinished value =>
    obtain ⟨track, htrack, hlane⟩ := hfinished value.spanId ⟨_, rfl⟩
    obtain ⟨drafts, hdrafts, hdrafted⟩ := customSpanFinish_planned hlane htrack
    exact ⟨drafts, projector, map_eq_ok.mpr ⟨_, hdrafts, rfl⟩, hdrafted, rfl⟩
  | instantOccurred value =>
    obtain ⟨track, htrack, hlane⟩ := hcontained value.containingSpanId rfl
    exact ⟨_, projector, map_eq_ok.mpr ⟨_, bind_eq_ok.mpr ⟨track, hlane, rfl⟩, rfl⟩,
      hinstant rfl htrack _ _, rfl⟩
  | customInstantOccurred value =>
    obtain ⟨track, htrack, hlane⟩ := hcontained value.containingSpanId rfl
    exact ⟨_, projector, map_eq_ok.mpr ⟨_, bind_eq_ok.mpr ⟨track, hlane, rfl⟩, rfl⟩,
      hinstant rfl htrack _ _, rfl⟩
  | counterSampled value =>
    refine ⟨_, projector, rfl, drafted_of_plain rfl (List.cons_ne_nil _ _) ?_, rfl⟩
    exact List.forall_mem_singleton.mpr
      (h.plain_scopeCounter hmem (List.mem_singleton_self _) _ _ _)
  | customCounterSampled value =>
    refine ⟨_, projector, rfl, drafted_of_plain rfl (List.cons_ne_nil _ _) ?_, rfl⟩
    exact List.forall_mem_singleton.mpr
      (h.plain_scopeCounter hmem (List.mem_singleton_self _) _ _ _)
  | contextUsageSampled value =>
    exact ⟨_, projector, rfl,
      drafted_of_plain rfl (List.cons_ne_nil _ _) (h.plain_contextUsage hmem), rfl⟩
  | actTokenUsageFinalized value =>
    exact ⟨_, _, rfl,
      drafted_of_plain rfl (List.cons_ne_nil _ _) (h.plain_actUsage hmem projector), rfl⟩
  | agentMessageDelta value => exact ⟨_, projector, rfl, hinstant rfl hscope _ _, rfl⟩
  | agentMessageCompleted value => exact ⟨_, projector, rfl, hinstant rfl hscope _ _, rfl⟩
  | agentPlanSnapshot value => exact ⟨_, projector, rfl, hinstant rfl hscope _ _, rfl⟩
  | observationGap value => exact ⟨_, projector, rfl, hinstant rfl hscope _ _, rfl⟩

end Drafts

/-! ## Packets -/

/-- The slice of a packet, with its track. -/
def TracePacket.slice? (packet : TracePacket) : Option (Option Nat × Bracket Nat) := do
  let event ← packet.event?
  let bracket ← event.slice?
  some (event.trackUuid, bracket)

/-- A packet of an event: its event, moment and track. -/
structure EventPacket (plan : ProjectionPlan) (event : DiagnosticEvent) (flowIds : List Nat)
    (terminatingFlowIds : List Nat) (packet : TracePacket) (trackEvent : TrackEvent) : Prop where
  data : packet.data = some (.trackEvent trackEvent)
  timestamp : packet.timestamp = some event.elapsedNs.get
  trusted : packet.trustedPacketSequenceId = some trackEventPacketSequenceId
  clock : packet.timestampClockId = some traceFileClock
  sequence : trackEvent.sequence? = some event.sequence.get
  track : ∃ identity ∈ plan.tracks.ids.identities,
    trackEvent.trackUuid = some (plan.tracks.ids.number identity)
  flows : trackEvent.flowIds = flowIds
  terminating : trackEvent.terminatingFlowIds = terminatingFlowIds

/-- The slice of the packets of an event. -/
def eventSlice (plan : ProjectionPlan) (event : DiagnosticEvent) :
    Option (Option Nat × Bracket Nat) := do
  let bracket ← spanBracket event
  let track ← (plan.spanTrack bracket.label).toOption
  some (some (plan.tracks.ids.number track), bracket.map SchemaU64.get)

/-- The track event made of a draft. -/
def draftEvent (plan : ProjectionPlan) (header : DiagnosticEventHeader) (draft : PacketDraft) :
    TrackEvent where
  debugAnnotations :=
    [ stringAnnotation "troupe.event.kind" (eventTypeName draft.eventType),
     uintAnnotation "troupe.event.sequence" header.sequence.get,
     stringAnnotation "troupe.scope.identity" (scopeTrackIdentity header.scope),
     stringAnnotation "troupe.track.identity" draft.trackIdentity] ++ draft.annotations
  type := some draft.eventType
  trackUuid := some (plan.tracks.ids.number draft.trackIdentity)
  name := draft.name
  counterValue := draft.counter
  flowIds := []
  terminatingFlowIds := []

/-- What the packets of an event are: the flows are on the first. -/
structure EventPackets (plan : ProjectionPlan) (event : DiagnosticEvent)
    (packets : List TracePacket) : Prop where
  first : ∃ first rest, packets = first :: rest ∧
    (∃ trackEvent, EventPacket plan event
      ((plan.startingFlows event.sequence).map FlowAttachment.id)
      ((plan.terminatingFlows event.sequence).map FlowAttachment.id) first trackEvent) ∧
    ∀ packet ∈ rest, ∃ trackEvent, EventPacket plan event [] [] packet trackEvent
  slices : packets.filterMap TracePacket.slice? = (eventSlice plan event).toList
  noted : ∃ projector drafts projector',
    PacketProjector.drafts plan projector event = .ok (drafts, projector') ∧
      ∀ draft ∈ drafts, ∃ packet ∈ packets, ∃ trackEvent more,
        packet.data = some (.trackEvent trackEvent) ∧ trackEvent.debugAnnotations =
          (draftEvent plan event.header draft).debugAnnotations ++ more

section Packets

variable {metadata : ProjectionMetadata} {runId : CanonicalUuid} {events : List DiagnosticEvent}
  {builder : TrackCatalogBuilder} {plan : ProjectionPlan} {event : DiagnosticEvent}
  {drafts : List PacketDraft} {draft : PacketDraft}

/-- The packet of a track event. -/
def eventPacketOf (header : DiagnosticEventHeader) (trackEvent : TrackEvent) : TracePacket where
  timestamp := some header.elapsedNs.get
  trustedPacketSequenceId := some trackEventPacketSequenceId
  data := some (.trackEvent trackEvent)
  timestampClockId := some traceFileClock

theorem eventPacket_ok (header : DiagnosticEventHeader)
    (h : draft.trackIdentity ∈ plan.tracks.ids.identities) :
    plan.eventPacket header draft = .ok (eventPacketOf header (draftEvent plan header draft)) := by
  unfold ProjectionPlan.eventPacket
  rw [id_of_mem h, ok_bind]
  rfl

theorem eventPackets_ok (header : DiagnosticEventHeader)
    (h : ∀ draft ∈ drafts, draft.trackIdentity ∈ plan.tracks.ids.identities) :
    drafts.mapM (plan.eventPacket header) =
      .ok (drafts.map fun draft => eventPacketOf header (draftEvent plan header draft)) := by
  induction drafts with
  | nil => rfl
  | cons draft rest ih =>
    obtain ⟨hfirst, hrest⟩ := List.forall_mem_cons.mp h
    rw [List.mapM_cons, eventPacket_ok header hfirst, ok_bind, ih hrest]
    rfl

theorem sequence?_append (header : DiagnosticEventHeader) (draft : PacketDraft)
    (more : List DebugAnnotation) :
    uintOf "troupe.event.sequence" ((draftEvent plan header draft).debugAnnotations ++ more) =
      some header.sequence.get := by
  refine uintOf_append_of_some ?_
  simp [draftEvent, uintOf, List.findSome?_cons, DebugAnnotation.uint?, uintAnnotation,
    stringAnnotation]

theorem eventPacketOf_spec (event : DiagnosticEvent)
    (h : draft.trackIdentity ∈ plan.tracks.ids.identities) :
    EventPacket plan event [] [] (eventPacketOf event.header (draftEvent plan event.header draft))
      (draftEvent plan event.header draft) := by
  refine ⟨rfl, rfl, rfl, rfl, ?_, ⟨_, h, rfl⟩, rfl, rfl⟩
  have hsequence : uintOf "troupe.event.sequence"
      ((draftEvent plan event.header draft).debugAnnotations ++ []) =
        some event.header.sequence.get := sequence?_append event.header draft []
  rw [List.append_nil] at hsequence
  exact hsequence

/-- The track event with the flows of its event. -/
def flowEvent (plan : ProjectionPlan) (sequence : SchemaU64) (trackEvent : TrackEvent) :
    TrackEvent :=
  { trackEvent with
    debugAnnotations := trackEvent.debugAnnotations ++
      ProjectionPlan.flowAnnotations "troupe.flow.start." (plan.startingFlows sequence) ++
      ProjectionPlan.flowAnnotations "troupe.flow.end." (plan.terminatingFlows sequence)
    flowIds := trackEvent.flowIds ++ (plan.startingFlows sequence).map FlowAttachment.id
    terminatingFlowIds := trackEvent.terminatingFlowIds ++
      (plan.terminatingFlows sequence).map FlowAttachment.id }

theorem attachFirst_ok (header : DiagnosticEventHeader) (sequence : SchemaU64)
    (trackEvent : TrackEvent) (rest : List TracePacket) :
    PacketProjector.attachFirst plan sequence (eventPacketOf header trackEvent :: rest) =
      .ok (eventPacketOf header (flowEvent plan sequence trackEvent) :: rest) := rfl

theorem flowEvent_spec (event : DiagnosticEvent)
    (h : draft.trackIdentity ∈ plan.tracks.ids.identities) :
    EventPacket plan event ((plan.startingFlows event.sequence).map FlowAttachment.id)
      ((plan.terminatingFlows event.sequence).map FlowAttachment.id)
      (eventPacketOf event.header
        (flowEvent plan event.sequence (draftEvent plan event.header draft)))
      (flowEvent plan event.sequence (draftEvent plan event.header draft)) := by
  refine ⟨rfl, rfl, rfl, rfl, ?_, ⟨_, h, rfl⟩, rfl, rfl⟩
  unfold TrackEvent.sequence? flowEvent
  rw [List.append_assoc]
  exact sequence?_append event.header draft _

/-- The slice of a packet is the slice of its draft. -/
theorem slice?_eq (header : DiagnosticEventHeader) {trackEvent : TrackEvent}
    {more : List DebugAnnotation} {bracket : Bracket SchemaU64}
    (hslice : SliceDraft plan bracket draft) (htype : trackEvent.type = some draft.eventType)
    (htrack : trackEvent.trackUuid = some (plan.tracks.ids.number draft.trackIdentity))
    (hnotes : trackEvent.debugAnnotations =
      (draftEvent plan header draft).debugAnnotations ++ more) :
    (eventPacketOf header trackEvent).slice? =
      some (some (plan.tracks.ids.number draft.trackIdentity), bracket.map SchemaU64.get) := by
  have hspan : uintOf "troupe.span.id" trackEvent.debugAnnotations =
      some bracket.label.get := by
    rw [hnotes]
    refine uintOf_append_of_some ?_
    unfold draftEvent
    rw [uintOf_append, hslice.spanId]
    simp [ DebugAnnotation.uint?, uintAnnotation, stringAnnotation]
  have hsome : trackEvent.slice? = some (bracket.map SchemaU64.get) := by
    unfold TrackEvent.slice?
    rw [hspan, htype, hslice.type]
    cases bracket <;> rfl
  show (do
    let bracket ← trackEvent.slice?
    some (trackEvent.trackUuid, bracket)) = _
  rw [hsome, htrack]
  rfl

theorem slice?_eq_none (header : DiagnosticEventHeader) {trackEvent : TrackEvent}
    (h : trackEvent.type = some .instant ∨ trackEvent.type = some .counter) :
    (eventPacketOf header trackEvent).slice? = none := by
  have hnone : trackEvent.slice? = none := by
    unfold TrackEvent.slice?
    rcases h with h | h <;> rw [h]
  show (do
    let bracket ← trackEvent.slice?
    some (trackEvent.trackUuid, bracket)) = _
  rw [hnone]
  rfl

/-- **The packets of an event.** -/
theorem projectEvent_planned (h : Planned metadata events builder plan)
    (hevents : Projectable metadata.runId events) {seen rest : List DiagnosticEvent}
    (hsplit : events = seen ++ event :: rest) {projector : PacketProjector}
    (hnext : projector.nextSequence = seen.length + 1) :
    ∃ packets projector', projector.projectEvent plan event = .ok (packets, projector') ∧
      EventPackets plan event packets ∧ projector'.nextSequence = seen.length + 2 := by
  have hmem : event ∈ events := hsplit ▸ List.mem_append_right _ List.mem_cons_self
  have htake : Projectable metadata.runId (seen ++ [event]) := by
    rw [hsplit, List.append_cons] at hevents
    exact hevents.take
  have hroom : projector.nextSequence < u64Max := by
    have hlength := h.room
    rw [hsplit, List.length_append, List.length_cons] at hlength
    omega
  obtain ⟨drafts, projector', hdrafts, hdrafted, hsame⟩ := drafts_planned h hevents hmem projector
  obtain ⟨draft, others, rfl⟩ := List.exists_cons_of_ne_nil hdrafted.nonempty
  obtain ⟨htrack, htracks⟩ := List.forall_mem_cons.mp hdrafted.tracks
  unfold PacketProjector.projectEvent
  rw [h.same, mapError_bind_of_ok (checkHeader_ok htake hnext), mapError_bind_of_ok hdrafts]
  dsimp only
  rw [mapError_bind_of_ok (eventPackets_ok event.header hdrafted.tracks), List.map_cons]
  rw [attachFirst_ok, ok_bind, hsame, mapError_bind_of_ok (nextAfter_ok hroom)]
  refine ⟨_, _, rfl, ⟨⟨_, _, rfl, ⟨_, flowEvent_spec event htrack⟩, ?_⟩, ?_,
    projector, _, _, hdrafts, fun other hother => ?_⟩, congrArg (· + 1) hnext⟩
  · intro packet hpacket
    obtain ⟨other, hother, rfl⟩ := List.mem_map.mp hpacket
    exact ⟨_, eventPacketOf_spec event (htracks other hother)⟩
  · cases hbracket : spanBracket event with
    | none =>
      have hplain := hdrafted.others hbracket
      have hslice : eventSlice plan event = none := by
        unfold eventSlice
        rw [hbracket]
        rfl
      rw [hslice]
      refine List.filterMap_eq_nil_iff.mpr fun packet hpacket => ?_
      rcases List.mem_cons.mp hpacket with rfl | hpacket
      · exact slice?_eq_none _ ((hplain draft List.mem_cons_self).imp (congrArg some)
          (congrArg some))
      · obtain ⟨other, hother, rfl⟩ := List.mem_map.mp hpacket
        exact slice?_eq_none _ ((hplain other (List.mem_cons_of_mem _ hother)).imp
          (congrArg some) (congrArg some))
    | some bracket =>
      obtain ⟨only, honly, hslice⟩ := hdrafted.slice bracket hbracket
      obtain ⟨rfl, rfl⟩ := List.cons.inj honly
      have heq : eventSlice plan event = some (some (plan.tracks.ids.number draft.trackIdentity),
          bracket.map SchemaU64.get) := by
        unfold eventSlice
        rw [hbracket]
        show (do
          let track ← (plan.spanTrack bracket.label).toOption
          some (some (plan.tracks.ids.number track), bracket.map SchemaU64.get)) = _
        rw [hslice.track]
        rfl
      rw [heq, List.map_nil, List.filterMap_cons_some (slice?_eq event.header hslice rfl rfl
        (List.append_assoc _ _ _))]
      rfl
  · rcases List.mem_cons.mp hother with rfl | hother
    · exact ⟨_, List.mem_cons_self, _, _, rfl, List.append_assoc _ _ _⟩
    · exact ⟨_, List.mem_cons_of_mem _ (List.mem_map_of_mem hother), _, [], rfl,
        (List.append_nil _).symm⟩

/-- **The packets of all events.** -/
theorem projectEvents_planned (h : Planned metadata events builder plan)
    (hevents : Projectable metadata.runId events) {seen rest : List DiagnosticEvent}
    (hsplit : events = seen ++ rest) {projector : PacketProjector}
    (hnext : projector.nextSequence = seen.length + 1) :
    ∃ groups projector', projector.projectEvents plan rest = .ok (groups.flatten, projector') ∧
      List.Forall₂ (EventPackets plan) rest groups ∧
      projector'.nextSequence = events.length + 1 := by
  induction rest generalizing seen projector with
  | nil =>
    rw [List.append_nil] at hsplit
    exact ⟨[], projector, rfl, .nil, hsplit ▸ hnext⟩
  | cons event rest ih =>
    obtain ⟨packets, projector', hproject, hpackets, hnext'⟩ :=
      projectEvent_planned h hevents hsplit hnext
    have hlength : projector'.nextSequence = (seen ++ [event]).length + 1 := by
      rw [List.length_append]
      exact hnext'
    obtain ⟨groups, final, hrest, hgroups, hfinal⟩ :=
      ih (hsplit.trans (List.append_cons _ _ _)) hlength
    refine ⟨packets :: groups, final, ?_, .cons hpackets hgroups, hfinal⟩
    unfold PacketProjector.projectEvents
    rw [hproject, ok_bind]
    dsimp only
    rw [hrest, ok_bind]
    rfl

end Packets

end Troupe.Perfetto
