import Mathlib.Data.List.SplitBy
import Troupe.Core.Soundness
import Troupe.Perfetto.Catalog

/-! # What the collection pass collects

`Collects` is what the collector knows of the events it has seen. One call of `observe` keeps it,
or a limit is reached (**`observe_settles`**): no track conflicts, no identity is unknown and no
span is missing. `Planned` is what the plan says of all the events (**`collect_settles`**). -/

namespace Troupe.Perfetto

open Troupe.Lib Troupe.Core

variable {event : DiagnosticEvent} {seen : List DiagnosticEvent} {runId : CanonicalUuid}
  {events : List DiagnosticEvent}

/-! ## Spans of a list of events -/

/-- The role and the display name of the span an event starts. -/
def spanRole : DiagnosticEvent → Option (String × String)
  | .spanStarted start => some (start.detail.kind.asStr, start.detail.kind.asStr)
  | .customSpanStarted start => some ("custom:" ++ start.name, start.name)
  | _ => none

/-- The span an event finishes. -/
def finishedSpan : DiagnosticEvent → Option SchemaU64
  | .spanFinished finish => some finish.spanId
  | .customSpanFinished finish => some finish.spanId
  | _ => none

/-- The sequence of the event that finishes a span. -/
def finishSequence (events : List DiagnosticEvent) (spanId : SchemaU64) : Option SchemaU64 :=
  (events.find? fun event => finishedSpan event = some spanId).map DiagnosticEvent.sequence

/-- The interval of the span an event starts. -/
def spanInterval (events : List DiagnosticEvent) (event : DiagnosticEvent) : Option SpanInterval :=
  (spanRole event).map fun (role, displayName) =>
    ⟨event.sequence, finishSequence events event.sequence, scopeTrackIdentity event.scope, role,
      displayName⟩

/-- The intervals of the spans of a list of events. -/
def spanIntervals (events : List DiagnosticEvent) : List SpanInterval :=
  events.filterMap (spanInterval events)

theorem starts_iff : event.Starts ↔ (spanRole event).isSome = true := by
  constructor
  · rintro ⟨family, kind, parent, hrole⟩
    cases event <;> first | rfl | cases hrole
  · intro h
    cases event <;> first | exact ⟨_, _, _, rfl⟩ | cases h

theorem finishes_iff {spanId : SchemaU64} :
    event.Finishes spanId ↔ finishedSpan event = some spanId := by
  constructor
  · rintro ⟨family, hrole⟩
    cases event <;> cases hrole <;> rfl
  · intro h
    cases event <;> first | (cases h; exact ⟨_, rfl⟩) | cases h

/-- A custom name begins with a small letter. -/
theorem beginsLower_of_validateCustomName {name : String} (h : validateCustomName name = .ok ()) :
    BeginsLower name := by
  unfold validateCustomName at h
  rw [ite_error_eq_ok] at h
  obtain ⟨-, h⟩ := h
  unfold BeginsLower
  cases hname : name.toList with
  | nil =>
    rw [hname] at h
    cases h
  | cons c rest =>
    rw [hname, List.splitOn, List.splitOnP_cons_eq_if_modifyHead] at h
    by_cases hdot : (c == '.') = true
    · rw [if_pos hdot] at h
      cases h
    · rw [if_neg hdot] at h
      cases hsplit : rest.splitOnP (· == '.') with
      | nil => exact absurd hsplit (List.splitOnP_ne_nil _ _)
      | cons first segments =>
        rw [hsplit, List.modifyHead_cons] at h
        dsimp only at h
        rw [ite_error_eq_ok] at h
        simp only [validIdentifierSegment, Bool.or_eq_true, Bool.not_eq_true',
          Bool.and_eq_false_iff, not_or, Bool.not_eq_false] at h
        exact h.1.1.1

theorem validateNamedAttributes_name {name : String} {attributes : DiagnosticAttributes}
    (h : validateNamedAttributes name attributes = .ok ()) : validateCustomName name = .ok () := by
  obtain ⟨_, hname, -⟩ := bind_eq_ok.mp h
  exact hname

theorem beginsLower_counterKind (kind : CounterKind) : BeginsLower kind.asStr := by
  unfold BeginsLower
  cases kind <;> decide +kernel

theorem spanRole_name {role displayName : String}
    (h : spanRole event = some (role, displayName)) : RoleName role displayName := by
  cases event with
  | spanStarted start =>
    cases h
    exact .builtin _
  | customSpanStarted start =>
    cases h
    exact .custom _ (beginsLower_of_validateCustomName (validateNamedAttributes_name start.valid))
  | _ => cases h

/-- An event that starts a span finishes none. -/
theorem finishedSpan_of_starts {entry : String × String}
    (h : spanRole event = some entry) : finishedSpan event = none := by
  cases event <;> first | rfl | cases h

/-! ## The input -/

/-- `act_token_usage_finalized`. -/
def isActUsage : DiagnosticEvent → Bool
  | .actTokenUsageFinalized _ => true
  | _ => false

/-- A prefix of a run that can be projected. -/
structure Projectable (runId : CanonicalUuid) (events : List DiagnosticEvent) : Prop where
  sameRun : ∀ event ∈ events, event.header.runId = runId
  dense : ∀ i event, events[i]? = some event → event.sequence.get = i + 1
  accepted : ∃ validator, ReferenceValidator.new.acceptAll events = .ok validator
  usageOnce : events.Pairwise fun a b =>
    isActUsage a = true → isActUsage b = true → a.scope ≠ b.scope
  elapsed : ∀ event ∈ events, event.elapsedNs.get ≤ i64Max

/-- Accepting every event is feeding them. -/
theorem feed_of_acceptAll {validator : ReferenceValidator}
    (h : ReferenceValidator.new.acceptAll events = .ok validator) :
    (ReferenceValidator.new.feed events).1 = events := by
  suffices hall : ∀ (start : ReferenceValidator), start.acceptAll events = .ok validator →
      (start.feed events).1 = events from hall _ h
  clear h
  induction events with
  | nil => exact fun _ _ => rfl
  | cons event rest ih =>
    intro start hstart
    unfold ReferenceValidator.acceptAll at hstart
    rw [List.foldlM_cons] at hstart
    obtain ⟨next, hnext, hrest⟩ := bind_eq_ok.mp hstart
    unfold ReferenceValidator.feed
    split at hnext
    · rename_i accepted after hvalidate
      cases hnext
      exact congrArg (event :: ·) (ih _ hrest)
    · cases hnext

section Projectable

variable {runId : CanonicalUuid} {events seen rest : List DiagnosticEvent} {event : DiagnosticEvent}

theorem Projectable.increasing (h : Projectable runId events) : Increasing events := by
  rw [Increasing, List.pairwise_iff_getElem]
  intro i j hi hj hlt
  rw [SchemaU64.lt_def, h.dense i _ (List.getElem?_eq_getElem hi),
    h.dense j _ (List.getElem?_eq_getElem hj)]
  omega

theorem Projectable.sound (h : Projectable runId events) : Sound events := by
  obtain ⟨validator, haccepted⟩ := h.accepted
  have hfeed := feed_of_acceptAll haccepted
  have hincreasing := h.increasing
  rw [← hfeed] at hincreasing
  have hsound := feed_sound hincreasing
  rw [hfeed] at hsound
  exact hsound

theorem Projectable.take (h : Projectable runId (seen ++ rest)) : Projectable runId seen where
  sameRun event hmem := h.sameRun event (List.mem_append_left _ hmem)
  dense i event hget := h.dense i event (by
    obtain ⟨hlt, -⟩ := List.getElem?_eq_some_iff.mp hget
    rw [List.getElem?_append_left hlt]
    exact hget)
  accepted := by
    obtain ⟨validator, haccepted⟩ := h.accepted
    unfold ReferenceValidator.acceptAll at haccepted
    obtain ⟨middle, hmiddle, -⟩ := foldlM_append_eq_ok.mp haccepted
    exact ⟨middle, hmiddle⟩
  usageOnce := (List.pairwise_append.mp h.usageOnce).1
  elapsed event hmem := h.elapsed event (List.mem_append_left _ hmem)

theorem Projectable.sequence_last (h : Projectable runId (seen ++ [event])) :
    event.sequence.get = seen.length + 1 :=
  h.dense seen.length event (by
    rw [List.getElem?_append_right le_rfl, Nat.sub_self]
    rfl)

end Projectable

/-! ## Flows -/

theorem relation_all (relation : CausalRelation) :
    relation.asStr.toList.all (· != ':') = true := by
  cases relation <;> decide +kernel

/-- **The identity of a flow determines its link.** -/
theorem linkFlow_inj {target target' : SchemaU64} {link link' : CausalLink}
    (h : (linkFlow target link).canonicalIdentity = (linkFlow target' link').canonicalIdentity) :
    target = target' ∧ link = link' := by
  simp only [linkFlow, String.append_assoc] at h
  have hcolon {p : Char → Bool} (hp : p ':' = false) (text : String) :
      BeginsOutside p (":" ++ text) := beginsOutside_append hp (show ":".toList = [':'] from rfl)
  obtain ⟨hrelation, hrest⟩ := append_inj_of_all (relation_all _) (relation_all _)
    (hcolon (by decide) _) (hcolon (by decide) _) h
  obtain ⟨hsource, htarget⟩ := append_inj_of_all (toString_all_isDigit _) (toString_all_isDigit _)
    (hcolon (by decide) _) (hcolon (by decide) _) (append_left_inj_text hrest)
  have hname : ∀ a b : CausalRelation, a.asStr = b.asStr → a = b := by
    intro a b
    cases a <;> cases b <;> decide +kernel
  obtain ⟨source, relation⟩ := link
  obtain ⟨source', relation'⟩ := link'
  obtain rfl := hname _ _ hrelation
  obtain rfl := SchemaU64.get_injective (toString_nat_inj hsource)
  exact ⟨SchemaU64.get_injective (toString_nat_inj (append_left_inj_text htarget)), rfl⟩

/-- The flow of a link of the events. -/
def IsFlow (events : List DiagnosticEvent) (flow : CollectedFlow) : Prop :=
  ∃ event ∈ events, ∃ link ∈ event.header.causedBy, flow = linkFlow event.sequence link

/-! ## One event -/

/-- The counter at the end of a path. -/
def CounterHas (rootName metadataName : String) (builder : TrackCatalogBuilder)
    (counter : String × String × String) : Prop :=
  ∃ path, IsPath metadataName path ∧ Has rootName builder path ∧
    counterTrackIdentity counter.1 counter.2.1 = identityOf path

/-- The tracks of the acts whose usage was finalized. -/
def usageScopes (events : List DiagnosticEvent) : List String :=
  (events.filter isActUsage).map fun event => scopeTrackIdentity event.scope

theorem usageScopes_concat (seen : List DiagnosticEvent) (event : DiagnosticEvent) :
    usageScopes (seen ++ [event]) = usageScopes seen ++
      if isActUsage event = true then [scopeTrackIdentity event.scope] else [] := by
  unfold usageScopes
  rw [List.filter_append, List.map_append]
  by_cases husage : isActUsage event = true
  · rw [if_pos husage, List.filter_cons_of_pos husage, List.filter_nil, List.map_singleton]
  · rw [if_neg husage, List.filter_cons_of_neg husage, List.filter_nil, List.map_nil]

/-- What the collector knows of the events it has seen. -/
structure Collects (metadata : ProjectionMetadata) (seen : List DiagnosticEvent)
    (collector : ProjectionCollector) : Prop where
  same : collector.metadata = metadata
  catalogued :
    Catalogued metadata.rootTrackName metadata.metadataTrackName collector.tracks
  root : Has metadata.rootTrackName collector.tracks []
  described : Has metadata.rootTrackName collector.tracks [metadataStep metadata.metadataTrackName]
  next : collector.nextSequence = seen.length + 1
  counted : collector.nextSequence ≤ collector.structuralBudget.usage.entries
  room : seen.length < u64Max
  validator : ReferenceValidator.new.acceptAll seen = .ok collector.validator
  scopes : ∀ event ∈ seen, Has metadata.rootTrackName collector.tracks (scopePath event.scope)
  counters : ∀ event ∈ seen, ∀ counter ∈ eventCounters event (scopeTrackIdentity event.scope),
    CounterHas metadata.rootTrackName metadata.metadataTrackName collector.tracks counter
  spans : collector.spans = spanIntervals seen
  flows : ∀ flow, flow ∈ collector.flows ↔ IsFlow seen flow
  flowsDistinct : collector.flows.Pairwise fun a b => a.canonicalIdentity ≠ b.canonicalIdentity
  usage : collector.actUsage.map Prod.fst = usageScopes seen

/-- The counters of an event hang from its scope or from the root, each with its name. -/
theorem eventCounters_spec (event : DiagnosticEvent) (parentTrack : String) :
    ∀ counter ∈ eventCounters event parentTrack,
      (counter.1 = parentTrack ∨ counter.1 = rootTrackIdentity) ∧
        SeriesName counter.2.1 counter.2.2 := by
  intro counter hmem
  cases event with
  | counterSampled sample =>
    rw [List.mem_singleton.mp hmem]
    exact ⟨.inl rfl, .builtin _ (beginsLower_counterKind _)⟩
  | customCounterSampled sample =>
    rw [List.mem_singleton.mp hmem]
    obtain ⟨_, hname, -⟩ := bind_eq_ok.mp sample.valid
    exact ⟨.inl rfl, .custom _ _ _ (beginsLower_of_validateCustomName hname)⟩
  | contextUsageSampled usage =>
    simp only [eventCounters, List.mem_append, List.mem_map] at hmem
    rcases hmem with (⟨_, -, rfl⟩ | ⟨_, -, rfl⟩) | ⟨currency, -, rfl⟩
    · exact ⟨.inl rfl, .fixed (List.mem_append_left _ (List.mem_append_left _ (by simp)))⟩
    · exact ⟨.inl rfl, .fixed (List.mem_append_left _ (List.mem_append_left _ (by simp)))⟩
    · exact ⟨.inl rfl, .cost _⟩
  | actTokenUsageFinalized usage =>
    simp only [eventCounters, List.mem_append, List.mem_map] at hmem
    rcases hmem with ⟨field, -, rfl⟩ | ⟨coverage, hcoverage, rfl⟩
    · refine ⟨.inr rfl, .fixed ?_⟩
      cases field <;> decide +kernel
    · refine ⟨.inr rfl, .fixed ?_⟩
      exact List.mem_append_right _ (List.mem_map.mpr ⟨coverage, hcoverage, rfl⟩)
  | _ => cases hmem

/-- What the tracks of an event are collected into: everything but the tracks, the spans, the usage
and the budget is left alone. -/
structure TracksCollected (metadata : ProjectionMetadata) (before : ProjectionCollector)
    (counters : List (String × String × String)) (spans : List SpanInterval)
    (after : ProjectionCollector) : Prop where
  same : after.metadata = before.metadata
  validator : after.validator = before.validator
  next : after.nextSequence = before.nextSequence
  flows : after.flows = before.flows
  catalogued : Catalogued metadata.rootTrackName metadata.metadataTrackName after.tracks
  extends_ : Extends before.tracks after.tracks
  counters : ∀ counter ∈ counters,
    CounterHas metadata.rootTrackName metadata.metadataTrackName after.tracks counter
  spans : after.spans = spans
  grows : Grows before.structuralBudget after.structuralBudget

variable {metadata : ProjectionMetadata} {collector : ProjectionCollector}

/-- **Counters under known tracks are registered.** -/
theorem registerCounters_settles (counters : List (String × String × String))
    (h : Catalogued metadata.rootTrackName metadata.metadataTrackName collector.tracks)
    (hcounters : ∀ counter ∈ counters, SeriesName counter.2.1 counter.2.2 ∧
      ∃ path, IsPath metadata.metadataTrackName path ∧
        Has metadata.rootTrackName collector.tracks path ∧ counter.1 = identityOf path) :
    Settles LimitError (fun after =>
        TracksCollected metadata collector counters collector.spans after ∧
          after.actUsage = collector.actUsage) (collector.registerCounters counters) := by
  induction counters generalizing collector with
  | nil =>
    exact ⟨⟨rfl, rfl, rfl, rfl, h, .refl _, fun _ hmem => (nomatch hmem), rfl, .refl _⟩, rfl⟩
  | cons counter rest ih =>
    obtain ⟨parent, series, name⟩ := counter
    obtain ⟨⟨hname, path, hpath, hhas, hparent⟩, hrest⟩ := List.forall_mem_cons.mp hcounters
    dsimp only at hname hparent
    unfold ProjectionCollector.registerCounters
    rw [hparent]
    refine (registerCounter_settles h hpath hhas hname).bind fun result hresult => ?_
    refine (ih hresult.catalogued fun other hother => ?_).imp fun after hafter => ?_
    · obtain ⟨hname', path', hpath', hhas', hparent'⟩ := hrest other hother
      exact ⟨hname', path', hpath', hhas'.extend hresult.extends_, hparent'⟩
    · obtain ⟨hafter, husage⟩ := hafter
      refine ⟨⟨hafter.same, hafter.validator, hafter.next, hafter.flows, hafter.catalogued,
        hresult.extends_.trans hafter.extends_, ?_, hafter.spans,
        hresult.grows.trans hafter.grows⟩, husage⟩
      intro other hother
      rcases List.mem_cons.mp hother with rfl | hother
      · exact ⟨path ++ [counterStep series name], isPath_concat.mpr ⟨hpath, .counter hname⟩,
          hresult.has.extend hafter.extends_, counterTrackIdentity_eq path series name⟩
      · exact hafter.counters other hother

/-- The spans after one event more. -/
theorem spanIntervals_concat
    (h : Projectable runId (seen ++ [event])) :
    spanIntervals (seen ++ [event]) =
      (spanIntervals seen).map (fun span =>
        if finishedSpan event = some span.startSequence then
          { span with finishSequence := some event.sequence } else span) ++
      (spanInterval (seen ++ [event]) event).toList := by
  have hsound := h.sound
  unfold spanIntervals
  rw [List.filterMap_append, List.map_filterMap]
  congr 1
  · refine List.filterMap_congr fun other hother => ?_
    unfold spanInterval finishSequence
    cases hrole : spanRole other with
    | none => rfl
    | some entry =>
      simp only [Option.map_some, Option.some.injEq]
      rw [List.find?_append]
      by_cases hfinished : finishedSpan event = some other.sequence
      · -- nothing before finished the span
        have hnone : seen.find? (fun e => finishedSpan e = some other.sequence) = none := by
          rw [List.find?_eq_none]
          intro finish hmem hfinish
          have hsame := hsound.finishOnce finish (List.mem_append_left _ hmem) event
            (List.mem_append_right _ (List.mem_singleton_self _)) other.sequence
            (finishes_iff.mpr (of_decide_eq_true hfinish)) (finishes_iff.mpr hfinished)
          have hlt := h.increasing.lt_last hmem
          rw [hsame, SchemaU64.lt_def] at hlt
          omega
        rw [hnone, if_pos hfinished]
        simp [hfinished]
      · rw [if_neg hfinished]
        simp [hfinished]

/-- A span that was just started is not finished. -/
theorem finishSequence_last
    (h : Projectable runId (seen ++ [event])) :
    finishSequence (seen ++ [event]) event.sequence = none := by
  unfold finishSequence
  rw [Option.map_eq_none_iff, List.find?_eq_none]
  intro finish hmem hfinish
  obtain ⟨family, hfinishes⟩ := finishes_iff.mpr (of_decide_eq_true hfinish)
  obtain ⟨start, hstart, hsequence, -, -, hlt, -⟩ :=
    h.sound.finish finish hmem family event.sequence hfinishes
  rcases List.mem_append.mp hmem with hseen | hlast
  · have hlast := h.increasing.lt_last hseen
    rw [SchemaU64.lt_def] at hlt hlast
    rw [hsequence] at hlt
    omega
  · rw [List.mem_singleton.mp hlast, hsequence] at hlt
    exact absurd hlt (Nat.lt_irrefl _)

/-- A span that is finished was started. -/
theorem mem_spanIntervals_of_finishes
    (h : Projectable runId (seen ++ [event])) {spanId : SchemaU64}
    (hfinish : finishedSpan event = some spanId) :
    ∃ span ∈ spanIntervals seen, span.startSequence = spanId := by
  obtain ⟨family, hrole⟩ := finishes_iff.mpr hfinish
  obtain ⟨start, hstart, hsequence, ⟨kind, parent, hstarts⟩, -, hlt, -⟩ := h.sound.finish event
    (List.mem_append_right _ (List.mem_singleton_self _)) family spanId hrole
  have hseen : start ∈ seen := by
    rcases List.mem_append.mp hstart with hseen | hlast
    · exact hseen
    · rw [List.mem_singleton.mp hlast] at hlt
      exact absurd hlt (Nat.lt_irrefl _)
  obtain ⟨⟨role, displayName⟩, hentry⟩ :=
    Option.isSome_iff_exists.mp (starts_iff.mp ⟨family, kind, parent, hstarts⟩)
  have hinterval : spanInterval seen start = some ⟨start.sequence,
      finishSequence seen start.sequence, scopeTrackIdentity start.scope, role, displayName⟩ := by
    unfold spanInterval
    rw [hentry]
    rfl
  exact ⟨_, List.mem_filterMap.mpr ⟨start, hseen, hinterval⟩, hsequence⟩

/-- The part of `collect_event_tracks` about the usage of acts. -/
def collectUsage (collector : ProjectionCollector) :
    DiagnosticEvent → Except ProjectionError ProjectionCollector
  | .actTokenUsageFinalized usage => collector.collectActUsage usage
  | _ => .ok collector

/-- What `collect_event_tracks` does, by the part an event has in the spans. -/
theorem collectEventTracks_eq (event : DiagnosticEvent) (parentTrack : String) :
    collector.collectEventTracks event parentTrack =
      match spanRole event, finishedSpan event with
      | some (role, displayName), _ =>
        collector.startSpan parentTrack event.sequence role displayName
      | none, some spanId => collector.finishSpan spanId event.sequence
      | none, none => collectUsage collector event >>= fun collector =>
        collector.registerCounters (eventCounters event parentTrack) := by
  cases event <;> rfl

/-- The acts whose usage was kept. -/
def KeepsUsage (seen : List DiagnosticEvent) (collector : ProjectionCollector) : Prop :=
  collector.actUsage.map Prod.fst = usageScopes seen

theorem KeepsUsage.concat
    (h : KeepsUsage seen collector) (hevent : isActUsage event = false) :
    KeepsUsage (seen ++ [event]) collector := by
  unfold KeepsUsage
  rw [usageScopes_concat, hevent, if_neg Bool.false_ne_true, List.append_nil]
  exact h

/-- The usage of an act is kept when it was not before. -/
theorem usageScope_fresh (h : KeepsUsage seen collector)
    (scope : DiagnosticScope) :
    (collector.actUsage.any fun entry => decide (entry.1 = scopeTrackIdentity scope)) = false ↔
      ∀ event ∈ seen, isActUsage event = true → event.scope ≠ scope := by
  have hany : (collector.actUsage.any fun entry =>
      decide (entry.1 = scopeTrackIdentity scope)) = true ↔
        scopeTrackIdentity scope ∈ usageScopes seen := by
    rw [← h, List.any_eq_true, List.mem_map]
    simp only [decide_eq_true_eq]
  rw [← Bool.not_eq_true, hany, usageScopes]
  simp only [List.mem_map, List.mem_filter, not_exists, not_and]
  constructor
  · rintro hnone event hmem husage rfl
    exact hnone event ⟨hmem, husage⟩ rfl
  · rintro hnone event ⟨hmem, husage⟩ hscope
    rw [scopeTrackIdentity_eq, scopeTrackIdentity_eq] at hscope
    have hpath := identityOf_inj (show IsPath "" _ from scopePath_isPath _)
      (scopePath_isPath _) hscope
    exact hnone event hmem husage (scopePath_injective hpath)

/-- **The usage of an act is kept once.** -/
theorem collectUsage_settles
    (h : Projectable runId (seen ++ [event]))
    (husage : KeepsUsage seen collector) :
    Settles LimitError (fun after =>
        (∃ budget usage, Grows collector.structuralBudget budget ∧
          after = { collector with structuralBudget := budget, actUsage := usage }) ∧
        KeepsUsage (seen ++ [event]) after) (collectUsage collector event) := by
  cases event with
  | actTokenUsageFinalized usage =>
    unfold collectUsage ProjectionCollector.collectActUsage
    dsimp only
    have hfresh := (usageScope_fresh husage usage.header.scope).mpr fun other hother hact =>
      (List.pairwise_append.mp h.usageOnce).2.2 other hother _ (List.mem_singleton_self _) hact rfl
    rw [if_neg (by rw [hfresh]; exact Bool.false_ne_true)]
    refine (reserveOwned_grows _ _ _).bind fun budget hbudget => ?_
    refine ⟨⟨budget, _, hbudget, rfl⟩, ?_⟩
    unfold KeepsUsage
    rw [List.map_append, husage, usageScopes_concat]
    rfl
  | _ => exact ⟨⟨collector.structuralBudget, collector.actUsage, .refl _, rfl⟩, husage.concat rfl⟩

/-- **The tracks of an event are collected, or a limit is reached.** -/
theorem collectEventTracks_settles
    (h : Projectable runId (seen ++ [event]))
    (hcatalogued :
      Catalogued metadata.rootTrackName metadata.metadataTrackName collector.tracks)
    (hroot : Has metadata.rootTrackName collector.tracks [])
    (hscope : Has metadata.rootTrackName collector.tracks (scopePath event.scope))
    (hspans : collector.spans = spanIntervals seen) (husage : KeepsUsage seen collector) :
    Settles LimitError (fun after =>
        TracksCollected metadata collector (eventCounters event (scopeTrackIdentity event.scope))
          (spanIntervals (seen ++ [event])) after ∧ KeepsUsage (seen ++ [event]) after)
      (collector.collectEventTracks event (scopeTrackIdentity event.scope)) := by
  rw [collectEventTracks_eq]
  have hconcat := spanIntervals_concat h
  cases hrole : spanRole event with
  | some entry =>
    obtain ⟨role, displayName⟩ := entry
    have hnone := finishedSpan_of_starts hrole
    have hcounters : eventCounters event (scopeTrackIdentity event.scope) = [] := by
      cases event <;> first | rfl | cases hrole
    have hinterval : spanInterval (seen ++ [event]) event =
        some ⟨event.sequence, none, scopeTrackIdentity event.scope, role, displayName⟩ := by
      unfold spanInterval
      rw [hrole, finishSequence_last h]
      rfl
    rw [hnone, hinterval] at hconcat
    rw [hcounters]
    unfold ProjectionCollector.startSpan
    refine (reserveOwned_grows _ _ _).bind fun budget hbudget => ?_
    refine ⟨⟨rfl, rfl, rfl, rfl, hcatalogued, .refl _, fun _ hmem => (nomatch hmem), ?_, hbudget⟩,
      husage.concat (by cases event <;> first | rfl | cases hrole)⟩
    rw [hconcat, hspans]
    simp
  | none =>
    have hinterval : spanInterval (seen ++ [event]) event = none := by
      unfold spanInterval
      rw [hrole]
      rfl
    rw [hinterval, Option.toList_none, List.append_nil] at hconcat
    cases hfinished : finishedSpan event with
    | some spanId =>
      obtain ⟨span, hspan, hstart⟩ := mem_spanIntervals_of_finishes h hfinished
      have hcounters : eventCounters event (scopeTrackIdentity event.scope) = [] := by
        cases event <;> first | rfl | cases hfinished
      have hknown : (collector.spans.any fun span => decide (span.startSequence = spanId)) =
          true := by
        rw [hspans]
        exact List.any_eq_true.mpr ⟨span, hspan, decide_eq_true hstart⟩
      rw [hcounters]
      unfold ProjectionCollector.finishSpan
      dsimp only
      rw [if_pos hknown]
      refine ⟨⟨rfl, rfl, rfl, rfl, hcatalogued, .refl _, fun _ hmem => (nomatch hmem), ?_,
        .refl _⟩, husage.concat (by cases event <;> first | rfl | cases hfinished)⟩
      rw [hconcat, hspans, hfinished]
      refine List.map_congr_left fun other _ => ?_
      simp only [Option.some.injEq, eq_comm]
    | none =>
      dsimp only
      refine (collectUsage_settles h husage).bind fun middle hmiddle => ?_
      obtain ⟨⟨budget, usage, hbudget, rfl⟩, hkeeps⟩ := hmiddle
      have hknown : ∀ counter ∈ eventCounters event (scopeTrackIdentity event.scope),
          SeriesName counter.2.1 counter.2.2 ∧ ∃ path,
            IsPath metadata.metadataTrackName path ∧
              Has metadata.rootTrackName collector.tracks path ∧ counter.1 = identityOf path := by
        intro counter hmem
        obtain ⟨hparent, hname⟩ := eventCounters_spec event _ counter hmem
        refine ⟨hname, ?_⟩
        rcases hparent with hparent | hparent
        · exact ⟨_, scopePath_isPath event.scope, hscope, by
            rw [hparent, scopeTrackIdentity_eq]⟩
        · exact ⟨[], isPath_nil, hroot, by rw [hparent, rootTrackIdentity_eq]⟩
      refine Settles.imp (registerCounters_settles _ (by exact hcatalogued) (by exact hknown))
        fun after hafter => ?_
      obtain ⟨hafter, hsame⟩ := hafter
      refine ⟨⟨hafter.same, hafter.validator, hafter.next, hafter.flows, hafter.catalogued,
        hafter.extends_, hafter.counters, ?_, hbudget.trans hafter.grows⟩, ?_⟩
      · rw [hafter.spans, hconcat, hfinished]
        simpa using hspans
      · unfold KeepsUsage
        rw [hsame]
        exact hkeeps

/-- What links are collected into: only flows and budget are new. -/
structure LinksCollected (before : ProjectionCollector) (target : SchemaU64)
    (links : List CausalLink) (after : ProjectionCollector) : Prop where
  rest : ∃ budget flows, after =
    { before with structuralBudget := budget, flows := flows }
  grows : Grows before.structuralBudget after.structuralBudget
  flows : ∀ flow, flow ∈ after.flows ↔
    flow ∈ before.flows ∨ ∃ link ∈ links, flow = linkFlow target link
  distinct : after.flows.Pairwise fun a b => a.canonicalIdentity ≠ b.canonicalIdentity

/-- **The links of an event become flows, each once.** -/
theorem collectLinks_settles (target : SchemaU64) (links : List CausalLink)
    (hlinks : ∀ flow ∈ collector.flows, ∃ target link, flow = linkFlow target link)
    (hdistinct : collector.flows.Pairwise fun a b => a.canonicalIdentity ≠ b.canonicalIdentity) :
    Settles LimitError (LinksCollected collector target links)
      (collector.collectLinks target links) := by
  induction links generalizing collector with
  | nil =>
    exact ⟨⟨collector.structuralBudget, collector.flows, rfl⟩, .refl _, fun flow => by simp,
      hdistinct⟩
  | cons link rest ih =>
    unfold ProjectionCollector.collectLinks
    dsimp only
    by_cases hknown : (collector.flows.any fun other =>
        decide (other.canonicalIdentity = (linkFlow target link).canonicalIdentity)) = true
    · rw [if_pos hknown]
      obtain ⟨other, hother, hsame⟩ := List.any_eq_true.mp hknown
      rw [decide_eq_true_iff] at hsame
      obtain ⟨target', link', rfl⟩ := hlinks other hother
      obtain ⟨rfl, rfl⟩ := linkFlow_inj hsame
      refine (ih hlinks hdistinct).imp fun after hafter => ?_
      refine ⟨hafter.rest, hafter.grows, fun flow => ?_, hafter.distinct⟩
      rw [hafter.flows]
      constructor
      · rintro (hold | ⟨l, hl, heq⟩)
        · exact .inl hold
        · exact .inr ⟨l, List.mem_cons_of_mem _ hl, heq⟩
      · rintro (hold | ⟨l, hl, heq⟩)
        · exact .inl hold
        · rcases List.mem_cons.mp hl with rfl | hl
          · exact .inl (heq ▸ hother)
          · exact .inr ⟨l, hl, heq⟩
    · rw [if_neg hknown]
      refine (reserveOwned_grows _ _ _).bind fun budget hbudget => ?_
      refine (ih ?_ ?_).imp fun after hafter => ?_
      · intro flow hflow
        rcases List.mem_append.mp hflow with hold | hnew
        · exact hlinks flow hold
        · exact ⟨target, link, List.mem_singleton.mp hnew⟩
      · refine List.pairwise_append.mpr ⟨hdistinct, List.pairwise_singleton _ _, ?_⟩
        intro flow hflow new hnew hsame
        rw [List.mem_singleton.mp hnew] at hsame
        exact hknown (List.any_eq_true.mpr ⟨flow, hflow, decide_eq_true hsame⟩)
      · obtain ⟨budget', flows, hafterEq⟩ := hafter.rest
        refine ⟨⟨budget', flows, hafterEq⟩, hbudget.trans hafter.grows, fun flow => ?_,
          hafter.distinct⟩
        rw [hafter.flows, List.mem_append, List.mem_singleton, or_assoc]
        constructor
        · rintro (hold | hnew | ⟨l, hl, heq⟩)
          · exact .inl hold
          · exact .inr ⟨link, List.mem_cons_self, hnew⟩
          · exact .inr ⟨l, List.mem_cons_of_mem _ hl, heq⟩
        · rintro (hold | ⟨l, hl, heq⟩)
          · exact .inl hold
          · rcases List.mem_cons.mp hl with rfl | hl
            · exact .inr (.inl heq)
            · exact .inr (.inr ⟨l, hl, heq⟩)

/-! ## The pass -/

theorem reserveEvent_settles (budget : StructuralIndexBudget) (event : DiagnosticEvent) :
    Settles LimitError (fun after => Grows budget after ∧
        budget.usage.entries < after.usage.entries ∧ after.usage.entries ≤ u64Max)
      (ProjectionCollector.reserveEvent budget event) := by
  have hone : Settles LimitError (fun after => Grows budget after ∧
      budget.usage.entries < after.usage.entries ∧ after.usage.entries ≤ u64Max)
      (budget.reserve 1 0) := by
    refine (reserve_settles budget 1 0).imp fun after hafter => ?_
    exact ⟨hafter.1, by omega, hafter.2.2⟩
  have htwo (values : List String) : Settles LimitError (fun after => Grows budget after ∧
      budget.usage.entries < after.usage.entries ∧ after.usage.entries ≤ u64Max)
      (budget.reserveOwned 2 values) := by
    refine (reserveOwned_settles budget 2 values).imp fun after hafter => ?_
    exact ⟨hafter.1, by omega, hafter.2.2⟩
  cases event with
  | spanStarted start => exact htwo _
  | customSpanStarted start => exact htwo _
  | _ => exact hone

theorem checkHeader_ok
    (h : Projectable runId (seen ++ [event])) {next : Nat}
    (hnext : next = seen.length + 1) :
    ProjectionCollector.checkHeader runId next event = .ok () := by
  have hlast : event ∈ seen ++ [event] := List.mem_append_right _ (List.mem_singleton_self _)
  unfold ProjectionCollector.checkHeader
  rw [if_neg (not_not.mpr (h.sameRun event hlast)),
    if_neg (not_not.mpr (h.sequence_last.trans hnext.symm)),
    if_neg (Nat.not_lt.mpr (h.elapsed event hlast))]

theorem nextAfter_ok {sequence : Nat} (h : sequence < u64Max) :
    ProjectionCollector.nextAfter sequence = .ok (sequence + 1) := by
  unfold ProjectionCollector.nextAfter checkedAdd
  rw [if_pos (show sequence + 1 ≤ u64Max from h)]

/-- **One call of `observe`.** -/
theorem observe_settles
    (hcollects : Collects metadata seen collector)
    (h : Projectable metadata.runId (seen ++ [event])) :
    Settles LimitError (Collects metadata (seen ++ [event])) (collector.observe event) := by
  obtain ⟨validator', haccepted⟩ := h.accepted
  obtain ⟨validator, accepted, hseen, hvalidate⟩ := acceptAll_concat.mp haccepted
  rw [hcollects.validator] at hseen
  cases hseen
  unfold ProjectionCollector.observe
  rw [hcollects.same, checkHeader_ok h hcollects.next, ok_bind]
  refine (reserveEvent_settles _ event).bind fun budget hbudget => ?_
  obtain ⟨hgrows, hlt, hle⟩ := hbudget
  rw [hvalidate]
  refine (registerScope_settles event.scope hcollects.catalogued hcollects.root).bind
    fun placed hplaced => ?_
  obtain ⟨parentTrack, tracks, budget'⟩ := placed
  obtain ⟨rfl, hplaced⟩ := hplaced
  have hroot := hcollects.root.extend hplaced.extends_
  refine Settles.bind (collectEventTracks_settles h (by exact hplaced.catalogued) (by exact hroot)
    (by exact hplaced.has) (by exact hcollects.spans) (by exact hcollects.usage))
    fun tracked htracked => ?_
  obtain ⟨htracked, husage⟩ := htracked
  have hflows : tracked.flows = collector.flows := htracked.flows
  refine (collectLinks_settles event.sequence event.header.causedBy ?_ ?_).bind
    fun linked hlinked => ?_
  · intro flow hflow
    rw [hflows, hcollects.flows] at hflow
    obtain ⟨source, -, link, -, rfl⟩ := hflow
    exact ⟨_, _, rfl⟩
  · rw [hflows]
    exact hcollects.flowsDistinct
  obtain ⟨budget'', flows, rfl⟩ := hlinked.rest
  have hnext : tracked.nextSequence = collector.nextSequence := htracked.next
  have hentries : collector.structuralBudget.usage.entries < budget''.usage.entries :=
    hlt.trans_le (((hplaced.grows.trans htracked.grows).trans hlinked.grows).entries)
  have hroom : collector.nextSequence < u64Max :=
    (hcollects.counted.trans_lt hlt).trans_le hle
  dsimp only
  rw [hnext, nextAfter_ok hroom, ok_bind]
  have hextends : Extends collector.tracks tracked.tracks :=
    hplaced.extends_.trans htracked.extends_
  refine ⟨?_, htracked.catalogued, hcollects.root.extend hextends,
    hcollects.described.extend hextends, ?_, ?_, ?_, ?_, ?_, ?_, htracked.spans, ?_,
    hlinked.distinct, husage⟩
  · exact htracked.same
  · show collector.nextSequence + 1 = _
    rw [hcollects.next, List.length_append]
    rfl
  · show collector.nextSequence + 1 ≤ budget''.usage.entries
    have := hcollects.counted
    omega
  · rw [List.length_append, List.length_singleton, ← hcollects.next]
    exact hroom
  · show ReferenceValidator.new.acceptAll _ = .ok tracked.validator
    rw [haccepted]
    exact congrArg Except.ok htracked.validator.symm
  · intro other hother
    rcases List.mem_append.mp hother with hold | hnew
    · exact (hcollects.scopes other hold).extend hextends
    · rw [List.mem_singleton.mp hnew]
      exact hplaced.has.extend htracked.extends_
  · intro other hother counter hcounter
    rcases List.mem_append.mp hother with hold | hnew
    · obtain ⟨path, hpath, hhas, hidentity⟩ := hcollects.counters other hold counter hcounter
      exact ⟨path, hpath, hhas.extend hextends, hidentity⟩
    · rw [List.mem_singleton.mp hnew] at hcounter
      exact htracked.counters counter hcounter
  · intro flow
    show flow ∈ flows ↔ _
    rw [hlinked.flows, hflows, hcollects.flows]
    constructor
    · rintro (⟨source, hsource, hlink⟩ | ⟨link, hlink, rfl⟩)
      · exact ⟨source, List.mem_append_left _ hsource, hlink⟩
      · exact ⟨event, List.mem_append_right _ (List.mem_singleton_self _), link, hlink, rfl⟩
    · rintro ⟨source, hsource, link, hlink, rfl⟩
      rcases List.mem_append.mp hsource with hold | hnew
      · exact .inl ⟨source, hold, link, hlink, rfl⟩
      · rw [List.mem_singleton.mp hnew] at hlink ⊢
        exact .inr ⟨link, hlink, rfl⟩

/-- The collector starts with the root and the metadata. -/
theorem collectorNew_settles (metadata : ProjectionMetadata) (limits : ProjectionLimits)
    (structuralLimits : StructuralIndexLimits)
    (hcaptured : metadata.exportedThrough ≤ metadata.capturedWatermark) :
    Settles LimitError (Collects metadata [])
      (ProjectionCollector.newWithStructuralLimits metadata limits structuralLimits) := by
  have hwatermarks : ¬metadata.capturedWatermark < metadata.exportedThrough :=
    Nat.not_lt.mpr hcaptured
  unfold ProjectionCollector.newWithStructuralLimits
  rw [if_neg hwatermarks]
  have hroot : ¬Marked metadata.rootTrackName := not_marked_append (by decide +kernel)
  refine (new_settles metadata.metadataTrackName hroot _).bind fun started hstarted => ?_
  obtain ⟨tracks, budget⟩ := started
  obtain ⟨hstarted, hentries⟩ := hstarted
  refine (registerMetadata_settles hstarted.catalogued hstarted.has).bind
    fun described hdescribed => ?_
  obtain ⟨tracks', budget'⟩ := described
  have hcounted : 1 ≤ budget'.usage.entries := by
    have := hdescribed.grows.entries
    dsimp only at hentries this
    omega
  refine ⟨rfl, hdescribed.catalogued, hstarted.has.extend hdescribed.extends_, hdescribed.has, rfl,
    hcounted, by decide, rfl, fun _ hmem => (nomatch hmem), fun _ hmem => (nomatch hmem), rfl,
    fun flow => ?_, List.Pairwise.nil, rfl⟩
  constructor
  · intro hmem
    cases hmem
  · rintro ⟨event, hmem, -⟩
    cases hmem

/-- **The pass over a list of events.** -/
theorem observeAll_settles {seen rest : List DiagnosticEvent}
    (hcollects : Collects metadata seen collector)
    (h : Projectable metadata.runId (seen ++ rest)) :
    Settles LimitError (Collects metadata (seen ++ rest)) (collector.observeAll rest) := by
  induction rest generalizing seen collector with
  | nil =>
    rw [List.append_nil]
    exact hcollects
  | cons event rest ih =>
    rw [List.append_cons] at h ⊢
    unfold ProjectionCollector.observeAll
    rw [List.foldlM_cons]
    exact (observe_settles hcollects h.take).bind fun next hnext => ih hnext h

/-! ## The plan -/

/-- The intervals of spans with their lanes, as `allocate_span_lanes` goes through them. -/
def laneEntries (intervals : List SpanInterval) : List (SpanInterval × Nat) :=
  ((intervals.mergeSort spanIntervalLe).splitBy sameGroup).flatMap groupLanes

theorem groupLanes_fst (group : List SpanInterval) : (groupLanes group).map Prod.fst = group := by
  unfold groupLanes
  rw [List.map_fst_zip]
  rw [length_allocateLanes, List.length_map]

/-- **Each interval has a lane.** -/
theorem laneEntries_fst (intervals : List SpanInterval) :
    (laneEntries intervals).map Prod.fst = intervals.mergeSort spanIntervalLe := by
  unfold laneEntries
  rw [List.map_flatMap]
  simp only [groupLanes_fst]
  rw [List.flatMap_id', List.flatten_splitBy]

/-- What the plan says of the events. -/
structure Planned (metadata : ProjectionMetadata) (events : List DiagnosticEvent)
    (builder : TrackCatalogBuilder) (plan : ProjectionPlan) : Prop where
  same : plan.metadata = metadata
  count : plan.eventCount = events.length
  room : events.length < u64Max
  tracks : Finished metadata.rootTrackName metadata.metadataTrackName builder plan.tracks
  root : Has metadata.rootTrackName builder []
  described : Has metadata.rootTrackName builder [metadataStep metadata.metadataTrackName]
  scopes : ∀ event ∈ events, Has metadata.rootTrackName builder (scopePath event.scope)
  counters : ∀ event ∈ events, ∀ counter ∈ eventCounters event (scopeTrackIdentity event.scope),
    CounterHas metadata.rootTrackName metadata.metadataTrackName builder counter
  spanTracks : plan.spanTracks = (laneEntries (spanIntervals events)).map fun entry =>
    (entry.1.startSequence, laneIdentity entry.1.parentTrackIdentity entry.1.role entry.2)
  lanes : ∀ entry ∈ laneEntries (spanIntervals events), ∃ path,
    IsPath metadata.metadataTrackName path ∧ Has metadata.rootTrackName builder path ∧
      laneIdentity entry.1.parentTrackIdentity entry.1.role entry.2 = identityOf path
  flows : ∃ (ids : DenseIdentityMap) (flows : List CollectedFlow),
    plan.flows = flows.map (fun flow =>
      (flow, ⟨ids.number flow.canonicalIdentity, flow.canonicalIdentity⟩)) ∧
    (∀ flow ∈ flows, flow.canonicalIdentity ∈ ids.identities) ∧
    (∀ flow, flow ∈ flows ↔ IsFlow events flow) ∧
    flows.Pairwise fun a b => a.canonicalIdentity ≠ b.canonicalIdentity

theorem attachFlowIds_settles (ids : DenseIdentityMap) (flows : List CollectedFlow)
    (budget : StructuralIndexBudget)
    (hids : ∀ flow ∈ flows, flow.canonicalIdentity ∈ ids.identities) :
    Settles LimitError (fun result => result.1 = flows.map fun flow =>
        (flow, ⟨ids.number flow.canonicalIdentity, flow.canonicalIdentity⟩))
      (attachFlowIds ids flows budget) := by
  induction flows generalizing budget with
  | nil => exact rfl
  | cons flow rest ih =>
    obtain ⟨hflow, hrest⟩ := List.forall_mem_cons.mp hids
    unfold attachFlowIds
    refine (reserveOwned_grows _ _ _).bind fun budget' _ => ?_
    refine (reserveOwned_grows _ _ _).bind fun budget'' _ => ?_
    rw [id_of_mem hflow, ok_bind]
    refine (ih budget'' hrest).bind fun result hresult => ?_
    show _ :: result.1 = _
    rw [hresult]
    rfl

/-- The intervals of the events hang from their scopes. -/
theorem spanIntervals_known {builder : TrackCatalogBuilder}
    {rootName metadataName : String}
    (hscopes : ∀ event ∈ events, Has rootName builder (scopePath event.scope)) :
    ∀ interval ∈ spanIntervals events,
      KnownInterval rootName metadataName builder interval := by
  intro interval hmem
  obtain ⟨event, hevent, hinterval⟩ := List.mem_filterMap.mp hmem
  obtain ⟨⟨role, displayName⟩, hrole, rfl⟩ := Option.map_eq_some_iff.mp hinterval
  exact ⟨spanRole_name hrole, scopePath event.scope, scopePath_isPath _, hscopes event hevent,
    scopeTrackIdentity_eq _⟩

/-- **The plan is made, or a limit is reached.** -/
theorem collectorFinish_settles
    (h : Collects metadata events collector)
    (hthrough : metadata.exportedThrough.get = events.length) :
    Settles LimitError (fun plan => ∃ builder, Planned metadata events builder plan)
      collector.finish := by
  have hobserved : collector.nextSequence - 1 = collector.metadata.exportedThrough.get := by
    rw [h.next, h.same, hthrough]
    rfl
  unfold ProjectionCollector.finish
  dsimp only
  rw [if_neg (not_not.mpr hobserved)]
  have hknown : ∀ entry ∈ laneEntries collector.spans, KnownInterval metadata.rootTrackName
      metadata.metadataTrackName collector.tracks entry.1 := by
    intro entry hentry
    refine spanIntervals_known h.scopes entry.1 ?_
    have hfst := List.mem_map_of_mem (f := Prod.fst) hentry
    rw [laneEntries_fst, List.mem_mergeSort, h.spans] at hfst
    exact hfst
  refine (registerLanes_settles (laneEntries collector.spans) h.catalogued hknown).bind
    fun laned hlaned => ?_
  obtain ⟨spanTracks, builder, budget⟩ := laned
  refine (finish_settles hlaned.catalogued _ _).bind fun finished hfinished => ?_
  obtain ⟨catalog, budget'⟩ := finished
  refine (reserveAll_settles budget' _ _ fun before flow => reserveOwned_grows _ _ _).bind
    fun budget'' _ => ?_
  refine (assign_settles _ _ _).bind fun ids hids => ?_
  have hmem (flow : CollectedFlow) : flow ∈ collector.flows.mergeSort flowLe ↔
      IsFlow events flow := by
    rw [List.mem_mergeSort, h.flows]
  refine (attachFlowIds_settles ids _ budget'' fun flow hflow => ?_).bind
    fun attached hattached => ?_
  · exact hids.mem_iff.mpr (List.mem_map_of_mem hflow)
  · refine ⟨builder, h.same, ?_, h.room, hfinished.1, h.root.extend hlaned.extends_,
      h.described.extend hlaned.extends_, fun event hevent =>
        (h.scopes event hevent).extend hlaned.extends_, ?_, ?_, ?_, ?_⟩
    · show collector.nextSequence - 1 = _
      rw [h.next]
      rfl
    · intro event hevent counter hcounter
      obtain ⟨path, hpath, hhas, hidentity⟩ := h.counters event hevent counter hcounter
      exact ⟨path, hpath, hhas.extend hlaned.extends_, hidentity⟩
    · rw [← h.spans]
      exact hlaned.assignments
    · rw [← h.spans]
      exact hlaned.has
    · refine ⟨ids, _, hattached, fun flow hflow => hids.mem_iff.mpr (List.mem_map_of_mem hflow),
        hmem, ?_⟩
      exact ((List.mergeSort_perm _ _).pairwise_iff fun hne => hne.symm).mpr h.flowsDistinct

end Troupe.Perfetto
