import Mathlib.Data.Prod.Lex
import Troupe.Lib.Groups
import Troupe.Perfetto.Projected

/-! # Slices of a track

The slices of a track are those of the spans on a lane. Lanes are laid out first fit over the
sequences (**`mem_laneEntries`**), so in the order of the sequences the slices of a lane nest. In
the order of the timestamps they nest when the spans do, which is a condition of its own:
**`lanesNest_iff`**, **`lanesNest_of_keeps`**. -/

namespace Troupe.Perfetto

open Troupe.Lib Troupe.Core

/-! ## Lanes -/

/-- The spans of a scope's track with a role, in the order of their starts. -/
def spansOf (events : List DiagnosticEvent) (scopeTrack role : String) : List SpanInterval :=
  (spanIntervals events).filter fun span =>
    span.parentTrackIdentity = scopeTrack ∧ span.role = role

/-- Spans on lanes, first fit over their sequences. -/
def firstFitLanes (spans : List SpanInterval) : List (SpanInterval × Nat) :=
  spans.zip ((firstFit [] (spans.map SpanInterval.sequences)).map Prod.snd)

section Lanes

variable {runId : CanonicalUuid} {events : List DiagnosticEvent} {spans : List SpanInterval}

theorem groupLanes_eq (hsorted : spans.Pairwise fun a b => a.startSequence ≤ b.startSequence) :
    groupLanes spans = firstFitLanes spans := by
  have hstarts : (spans.map SpanInterval.sequences).Pairwise fun a b => a.start ≤ b.start :=
    List.pairwise_map.mpr hsorted
  unfold groupLanes firstFitLanes
  rw [firstFit_eq hstarts, List.map_snd_zip]
  rw [length_allocateLanes]

/-- What the spans of a lane have in common. -/
def spanKey (span : SpanInterval) : String × String := (span.parentTrackIdentity, span.role)

theorem sameGroup_iff (a b : SpanInterval) : sameGroup a b = true ↔ spanKey a = spanKey b := by
  unfold sameGroup spanKey
  rw [Bool.and_eq_true, beq_iff_eq, beq_iff_eq, Prod.mk.injEq, eq_comm, @eq_comm _ b.role]

theorem spanIntervalLe_trans (a b c : SpanInterval) (hab : spanIntervalLe a b = true)
    (hbc : spanIntervalLe b c = true) : spanIntervalLe a c = true := by
  simp only [spanIntervalLe, Bool.or_eq_true, Bool.and_eq_true, decide_eq_true_eq,
    beq_iff_eq] at hab hbc ⊢
  rcases hab with hab | ⟨hab, hab'⟩
  · rcases hbc with hbc | ⟨hbc, -⟩
    · exact .inl (String.lt_trans hab hbc)
    · exact .inl (hbc ▸ hab)
  · rcases hbc with hbc | ⟨hbc, hbc'⟩
    · exact .inl (hab ▸ hbc)
    · refine .inr ⟨hab.trans hbc, ?_⟩
      rcases hab' with hrole | ⟨hrole, hstart⟩
      · rcases hbc' with hrole' | ⟨hrole', -⟩
        · exact .inl (String.lt_trans hrole hrole')
        · exact .inl (hrole' ▸ hrole)
      · rcases hbc' with hrole' | ⟨hrole', hstart'⟩
        · exact .inl (hrole ▸ hrole')
        · exact .inr ⟨hrole.trans hrole', Nat.le_trans hstart hstart'⟩

theorem string_trichotomy (a b : String) : a < b ∨ a = b ∨ b < a := by
  by_cases hlt : a < b
  · exact .inl hlt
  · by_cases hgt : b < a
    · exact .inr (.inr hgt)
    · exact .inr (.inl (String.le_antisymm (String.not_lt.mp hgt) (String.not_lt.mp hlt)))

theorem spanIntervalLe_total (a b : SpanInterval) :
    (spanIntervalLe a b || spanIntervalLe b a) = true := by
  simp only [spanIntervalLe, Bool.or_eq_true, Bool.and_eq_true, decide_eq_true_eq, beq_iff_eq]
  rcases string_trichotomy a.parentTrackIdentity b.parentTrackIdentity with hlt | heq | hlt
  · exact .inl (.inl hlt)
  · rcases string_trichotomy a.role b.role with hlt | hrole | hlt
    · exact .inl (.inr ⟨heq, .inl hlt⟩)
    · rcases Nat.le_total a.startSequence.get b.startSequence.get with hle | hle
      · exact .inl (.inr ⟨heq, .inr ⟨hrole, hle⟩⟩)
      · exact .inr (.inr ⟨heq.symm, .inr ⟨hrole.symm, hle⟩⟩)
    · exact .inr (.inr ⟨heq.symm, .inl hlt⟩)
  · exact .inr (.inl hlt)

/-- The order of the keys in which the groups stand. -/
def keyLe (a b : String × String) : Prop := a.1 < b.1 ∨ a.1 = b.1 ∧ (a.2 < b.2 ∨ a.2 = b.2)

theorem keyLe_antisymm (a b : String × String) (hab : keyLe a b) (hba : keyLe b a) : a = b := by
  rcases hab with hab | ⟨hfst, hab⟩
  · rcases hba with hba | ⟨hba, -⟩
    · exact absurd hba (String.lt_asymm hab)
    · exact absurd hab (hba ▸ String.lt_irrefl _)
  · rcases hba with hba | ⟨-, hba⟩
    · exact absurd hba (hfst ▸ String.lt_irrefl _)
    · rcases hab with hab | hab
      · rcases hba with hba | hba
        · exact absurd hba (String.lt_asymm hab)
        · exact absurd hab (hba ▸ String.lt_irrefl _)
      · exact Prod.ext hfst hab

theorem keyLe_of_spanIntervalLe {a b : SpanInterval} (h : spanIntervalLe a b = true) :
    keyLe (spanKey a) (spanKey b) := by
  simp only [spanIntervalLe, Bool.or_eq_true, Bool.and_eq_true, decide_eq_true_eq,
    beq_iff_eq] at h
  exact h.imp_right fun ⟨hparent, h⟩ => ⟨hparent, h.imp_right And.left⟩

/-- The spans of events are in the order of their starts. -/
theorem spanIntervals_sorted (h : Projectable runId events) :
    (spanIntervals events).Pairwise fun a b => a.startSequence ≤ b.startSequence := by
  refine List.pairwise_filterMap.mpr (h.increasing.imp fun {a b} hlt x hx y hy => ?_)
  obtain ⟨_, -, rfl⟩ := Option.map_eq_some_iff.mp hx
  obtain ⟨_, -, rfl⟩ := Option.map_eq_some_iff.mp hy
  exact Nat.le_of_lt hlt

theorem spansOf_sorted (h : Projectable runId events) {scopeTrack role : String} :
    (spansOf events scopeTrack role).Pairwise fun a b => a.startSequence ≤ b.startSequence :=
  (spanIntervals_sorted h).filter _

/-- A span is known by its start. -/
theorem spanIntervals_inj (h : Projectable runId events) {a b : SpanInterval}
    (ha : a ∈ spanIntervals events) (hb : b ∈ spanIntervals events)
    (heq : a.startSequence = b.startSequence) : a = b :=
  List.inj_on_of_nodup_map (spanIntervals_nodup h) ha hb heq

/-- The sorted spans with a key are the spans with that key. -/
theorem sorted_filter (h : Projectable runId events) (key : String × String) :
    ((spanIntervals events).mergeSort spanIntervalLe).filter (fun span => spanKey span = key) =
      spansOf events key.1 key.2 := by
  have hfilter : spansOf events key.1 key.2 =
      (spanIntervals events).filter fun span => spanKey span = key := by
    unfold spansOf
    refine List.filter_congr fun span _ => ?_
    rw [decide_eq_decide, Prod.ext_iff]
    rfl
  rw [hfilter]
  refine List.Perm.eq_of_pairwise ?_ ?_ ((spanIntervals_sorted h).filter _)
    ((List.mergeSort_perm _ _).filter _)
  · intro a b ha hb hab hba
    rw [List.mem_filter, List.mem_mergeSort] at ha
    exact spanIntervals_inj h ha.1 (List.mem_filter.mp hb).1
      (SchemaU64.get_injective (Nat.le_antisymm hab hba))
  · refine List.pairwise_filter.mpr ?_
    refine (List.pairwise_mergeSort spanIntervalLe_trans spanIntervalLe_total _).imp ?_
    intro a b hle ha hb
    have hsame := (of_decide_eq_true ha).trans (of_decide_eq_true hb).symm
    obtain ⟨hparent, hrole⟩ := Prod.mk.inj hsame
    simp only [spanIntervalLe, Bool.or_eq_true, Bool.and_eq_true, decide_eq_true_eq,
      beq_iff_eq, hparent, hrole, String.lt_irrefl, true_and, false_or] at hle
    exact hle

/-- **The lane of a span is the first it fits, among the spans of its scope and role.** -/
theorem mem_laneEntries (h : Projectable runId events) {entry : SpanInterval × Nat} :
    entry ∈ laneEntries (spanIntervals events) ↔
      entry ∈ firstFitLanes (spansOf events entry.1.parentTrackIdentity entry.1.role) := by
  have hsorted := (List.pairwise_mergeSort spanIntervalLe_trans spanIntervalLe_total
    (spanIntervals events)).imp keyLe_of_spanIntervalLe
  have hgroup {group : List SpanInterval} {span : SpanInterval}
      (hmem : group ∈ ((spanIntervals events).mergeSort spanIntervalLe).splitBy sameGroup)
      (hspan : span ∈ group) : group = spansOf events span.parentTrackIdentity span.role :=
    (group_eq_filter sameGroup_iff keyLe_antisymm hsorted hmem hspan).symm.trans
      (sorted_filter h (spanKey span))
  have hlanes (scopeTrack role : String) : groupLanes (spansOf events scopeTrack role) =
      firstFitLanes (spansOf events scopeTrack role) :=
    groupLanes_eq (spansOf_sorted h)
  have hin {group : List SpanInterval} (hentry : entry ∈ groupLanes group) : entry.1 ∈ group := by
    rw [← groupLanes_fst group]
    exact List.mem_map_of_mem hentry
  unfold laneEntries
  rw [List.mem_flatMap]
  constructor
  · rintro ⟨group, hmem, hentry⟩
    rw [hgroup hmem (hin hentry), hlanes] at hentry
    exact hentry
  · intro hentry
    rw [← hlanes] at hentry
    have hspan := (List.mem_filter.mp (hin hentry)).1
    rw [← (List.mergeSort_perm (spanIntervals events) spanIntervalLe).mem_iff,
      ← List.flatten_splitBy sameGroup (List.mergeSort _ _), List.mem_flatten] at hspan
    obtain ⟨group, hmem, hspan⟩ := hspan
    exact ⟨group, hmem, hgroup hmem hspan ▸ hentry⟩

theorem firstFitLanes_fst (hsorted : spans.Pairwise fun a b => a.startSequence ≤ b.startSequence) :
    (firstFitLanes spans).map Prod.fst = spans := by
  rw [← groupLanes_eq hsorted, groupLanes_fst]

/-- Of spans on lanes, a later one nests in those of its lane or lies after them. -/
theorem firstFitLanes_nested
    (hsorted : spans.Pairwise fun a b => a.startSequence ≤ b.startSequence) :
    (firstFitLanes spans).Pairwise fun a b =>
      a.2 = b.2 → NestedOrApart a.1.sequences b.1.sequences := by
  have hstarts : (spans.map SpanInterval.sequences).Pairwise fun a b => a.start ≤ b.start :=
    List.pairwise_map.mpr hsorted
  have hnested := allocateLanes_nested hstarts
  rw [← groupLanes_eq hsorted]
  unfold groupLanes
  rw [List.zip_map_left, List.pairwise_map] at hnested
  exact hnested

/-- **The spans of a lane nest over the sequences.** -/
theorem lanes_nested (h : Projectable runId events) {a b : SpanInterval × Nat}
    (ha : a ∈ laneEntries (spanIntervals events)) (hb : b ∈ laneEntries (spanIntervals events))
    (hkey : spanKey a.1 = spanKey b.1) (hlane : a.2 = b.2)
    (hlt : a.1.startSequence < b.1.startSequence) :
    NestedOrApart a.1.sequences b.1.sequences := by
  obtain ⟨hparent, hrole⟩ := Prod.mk.inj hkey
  rw [mem_laneEntries h] at ha hb
  rw [← hparent, ← hrole] at hb
  have hsorted : (spansOf events a.1.parentTrackIdentity a.1.role).Pairwise
      fun a b => a.startSequence ≤ b.startSequence := spansOf_sorted h
  have horder : (firstFitLanes (spansOf events a.1.parentTrackIdentity a.1.role)).Pairwise
      fun a b => a.1.startSequence ≤ b.1.startSequence := by
    rw [← firstFitLanes_fst hsorted, List.pairwise_map] at hsorted
    exact hsorted
  have hboth := horder.and (firstFitLanes_nested hsorted)
  obtain ⟨i, hi, hai⟩ := List.getElem_of_mem ha
  obtain ⟨j, hj, hbj⟩ := List.getElem_of_mem hb
  rcases Nat.lt_trichotomy i j with hij | rfl | hij
  · have hrel := List.pairwise_iff_getElem.mp hboth i j hi hj hij
    rw [hai, hbj] at hrel
    exact hrel.2 hlane
  · rw [hai.symm.trans hbj] at hlt
    exact absurd hlt (Nat.lt_irrefl _)
  · have hrel := List.pairwise_iff_getElem.mp hboth j i hj hi hij
    rw [hai, hbj] at hrel
    exact absurd hlt (Nat.not_lt.mpr hrel.1)

end Lanes

/-! ## The spans of a track -/

section Tracks

variable {metadata : ProjectionMetadata} {runId : CanonicalUuid} {events : List DiagnosticEvent}
  {builder : TrackCatalogBuilder} {plan : ProjectionPlan} {event : DiagnosticEvent}
  {entry : SpanInterval × Nat} {track l : Nat}

/-- The spans on the lane that has a track. -/
def trackSpans (plan : ProjectionPlan) (events : List DiagnosticEvent) (track : Nat) :
    List (SpanInterval × Nat) :=
  (laneEntries (spanIntervals events)).filter fun entry =>
    plan.tracks.ids.number (laneIdentity entry.1.parentTrackIdentity entry.1.role entry.2) = track

theorem mem_trackSpans : entry ∈ trackSpans plan events track ↔
    entry ∈ laneEntries (spanIntervals events) ∧ plan.tracks.ids.number
      (laneIdentity entry.1.parentTrackIdentity entry.1.role entry.2) = track := by
  unfold trackSpans
  rw [List.mem_filter, decide_eq_true_iff]

theorem mem_spanIntervals_of_lane (h : entry ∈ laneEntries (spanIntervals events)) :
    entry.1 ∈ spanIntervals events := by
  have hfst := List.mem_map_of_mem (f := Prod.fst) h
  rw [laneEntries_fst, List.mem_mergeSort] at hfst
  exact hfst

/-- An interval is that of the event that starts it. -/
theorem start_of_interval {span : SpanInterval} (h : span ∈ spanIntervals events) :
    ∃ start ∈ events, ∃ role, spanRole start = some role ∧ span.startSequence = start.sequence ∧
      span.finishSequence = finishSequence events start.sequence := by
  obtain ⟨start, hstart, hspan⟩ := List.mem_filterMap.mp h
  obtain ⟨role, hrole, rfl⟩ := Option.map_eq_some_iff.mp hspan
  exact ⟨start, hstart, role, hrole, rfl, rfl⟩

/-- A span is finished at the sequence of the event that finishes it. -/
theorem finishSequence_iff (h : Projectable runId events) (hmem : event ∈ events)
    {spanId : SchemaU64} :
    finishSequence events spanId = some event.sequence ↔ finishedSpan event = some spanId := by
  unfold finishSequence
  rw [Option.map_eq_some_iff]
  constructor
  · rintro ⟨finish, hfind, hsame⟩
    have hfinish := List.find?_some hfind
    rw [decide_eq_true_iff] at hfinish
    rwa [h.increasing.eq_of_sequence_eq (List.mem_of_find?_eq_some hfind) hmem hsame] at hfinish
  · intro hfinished
    obtain ⟨finish, hfind⟩ := Option.isSome_iff_exists.mp
      ((List.find?_isSome (p := fun event => decide (finishedSpan event = some spanId))).mpr ⟨event, hmem, decide_eq_true hfinished⟩)
    have hfinish := List.find?_some hfind
    rw [decide_eq_true_iff] at hfinish
    refine ⟨finish, hfind, congrArg DiagnosticEvent.sequence ?_⟩
    exact h.sound.finishOnce finish (List.mem_of_find?_eq_some hfind) event hmem spanId
      (finishes_iff.mpr hfinish) (finishes_iff.mpr hfinished)

theorem eventSlice_eq (h : Planned metadata events builder plan)
    (hevents : Projectable runId events) (hentry : entry ∈ laneEntries (spanIntervals events))
    {bracket : Bracket SchemaU64} (hbracket : spanBracket event = some bracket)
    (hlabel : bracket.label = entry.1.startSequence) :
    eventSlice plan event = some (some (plan.tracks.ids.number
      (laneIdentity entry.1.parentTrackIdentity entry.1.role entry.2)),
        bracket.map SchemaU64.get) := by
  unfold eventSlice
  rw [hbracket]
  show (do
    let track ← (plan.spanTrack bracket.label).toOption
    some (some (plan.tracks.ids.number track), bracket.map SchemaU64.get)) = _
  rw [hlabel, h.spanTrack hevents hentry]
  rfl

/-- **The slices that begin on a track.** -/
theorem eventSlice_opens (h : Planned metadata events builder plan)
    (hevents : Projectable runId events) (hmem : event ∈ events) :
    eventSlice plan event = some (some track, .opens l) ↔
      ∃ entry ∈ trackSpans plan events track, entry.1.startSequence = event.sequence ∧
        entry.1.startSequence.get = l := by
  constructor
  · intro hslice
    cases hrole : spanRole event with
    | none =>
      unfold eventSlice spanBracket at hslice
      rw [hrole] at hslice
      cases hfinished : finishedSpan event with
      | none =>
        rw [hfinished] at hslice
        cases hslice
      | some spanId =>
        rw [hfinished] at hslice
        obtain ⟨bracket, hbracket, hrest⟩ := Option.bind_eq_some_iff.mp hslice
        cases hbracket
        obtain ⟨_, -, heq⟩ := Option.bind_eq_some_iff.mp hrest
        cases heq
    | some role =>
      obtain ⟨lane, hentry⟩ := laneEntry_of_start hmem hrole
      have hbracket : spanBracket event = some (.opens event.sequence) := by
        unfold spanBracket
        rw [hrole]
      rw [eventSlice_eq h hevents hentry hbracket rfl] at hslice
      obtain ⟨htrack, hlabel⟩ := Prod.mk.inj (Option.some.inj hslice)
      exact ⟨_, mem_trackSpans.mpr ⟨hentry, Option.some.inj htrack⟩, rfl,
        Bracket.opens.inj hlabel⟩
  · rintro ⟨entry, hentry, hstart, rfl⟩
    obtain ⟨hlane, htrack⟩ := mem_trackSpans.mp hentry
    obtain ⟨start, hmem', role, hrole, hstart', -⟩ :=
      start_of_interval (mem_spanIntervals_of_lane hlane)
    obtain rfl := hevents.increasing.eq_of_sequence_eq hmem' hmem (hstart'.symm.trans hstart)
    have hbracket : spanBracket start = some (.opens start.sequence) := by
      unfold spanBracket
      rw [hrole]
    rw [eventSlice_eq h hevents hlane hbracket hstart.symm, htrack, hstart]
    rfl

/-- **The slices that end on a track.** -/
theorem eventSlice_closes (h : Planned metadata events builder plan)
    (hevents : Projectable runId events) (hmem : event ∈ events) :
    eventSlice plan event = some (some track, .closes l) ↔
      ∃ entry ∈ trackSpans plan events track, entry.1.finishSequence = some event.sequence ∧
        entry.1.startSequence.get = l := by
  constructor
  · intro hslice
    obtain ⟨bracket, hbracket, hrest⟩ := Option.bind_eq_some_iff.mp hslice
    obtain ⟨_, -, heq⟩ := Option.bind_eq_some_iff.mp hrest
    obtain ⟨-, hlabel⟩ := Prod.mk.inj (Option.some.inj heq)
    cases bracket with
    | opens spanId => cases hlabel
    | closes spanId =>
      have hfinished : finishedSpan event = some spanId := by
        unfold spanBracket at hbracket
        split at hbracket
        · cases hbracket
        · obtain ⟨other, hother, heq⟩ := Option.map_eq_some_iff.mp hbracket
          cases heq
          exact hother
      obtain ⟨family, hrole⟩ := finishes_iff.mpr hfinished
      obtain ⟨start, hstart, rfl, ⟨kind, parent, hstarts⟩, -⟩ :=
        hevents.sound.finish event hmem family spanId hrole
      obtain ⟨⟨role, displayName⟩, hspan⟩ := Option.isSome_iff_exists.mp
        (starts_iff.mp ⟨family, kind, parent, hstarts⟩)
      obtain ⟨lane, hentry⟩ := laneEntry_of_start hstart hspan
      rw [eventSlice_eq h hevents hentry hbracket rfl] at hslice
      obtain ⟨htrack, hlabel⟩ := Prod.mk.inj (Option.some.inj hslice)
      exact ⟨_, mem_trackSpans.mpr ⟨hentry, Option.some.inj htrack⟩,
        (finishSequence_iff hevents hmem).mpr hfinished, Bracket.closes.inj hlabel⟩
  · rintro ⟨entry, hentry, hfinish, rfl⟩
    obtain ⟨hlane, htrack⟩ := mem_trackSpans.mp hentry
    obtain ⟨start, -, role, hrole, hstart, hfinish'⟩ :=
      start_of_interval (mem_spanIntervals_of_lane hlane)
    have hfinished := (finishSequence_iff hevents hmem).mp (hfinish'.symm.trans hfinish)
    have hbracket : spanBracket event = some (.closes start.sequence) := by
      unfold spanBracket
      cases hrole' : spanRole event with
      | none => rw [hfinished]; rfl
      | some role' =>
        rw [finishedSpan_of_starts hrole'] at hfinished
        cases hfinished
    rw [eventSlice_eq h hevents hlane hbracket hstart.symm, htrack, hstart]
    rfl

/-! ### Timelines -/

section Timelines

variable {τ : Type} [LinearOrder τ] {f : SchemaU64 → τ} {brackets : List (τ × Bracket Nat)}

/-- The interval of a span on a clock. -/
def SpanInterval.on (span : SpanInterval) (f : SchemaU64 → τ) : Lib.Interval τ :=
  ⟨f span.startSequence, span.finishSequence.map f⟩

/-- The intervals of a track on a clock, by the ids of the spans. -/
def trackIntervals (plan : ProjectionPlan) (events : List DiagnosticEvent) (track : Nat)
    (f : SchemaU64 → τ) : List (Nat × Lib.Interval τ) :=
  (trackSpans plan events track).map fun entry => (entry.1.startSequence.get, entry.1.on f)

/-- A clock on which a span ends after it starts. -/
def SpansAdvance (events : List DiagnosticEvent) (f : SchemaU64 → τ) : Prop :=
  ∀ start ∈ events, ∀ finish ∈ events, finish.Finishes start.sequence →
    f start.sequence < f finish.sequence

/-- **The slices of a track are a timeline of its spans.** -/
theorem timeline (h : Planned metadata events builder plan) (hevents : Projectable runId events)
    (hadvance : SpansAdvance events f) (hsorted : brackets.Pairwise fun a b => a.1 < b.1)
    (hbrackets : ∀ moment bracket, (moment, bracket) ∈ brackets ↔ ∃ event ∈ events,
      f event.sequence = moment ∧ eventSlice plan event = some (some track, bracket)) :
    Timeline (trackIntervals plan events track f) brackets where
  sorted := hsorted
  labels := by
    intro a ha b hb hlabel
    obtain ⟨x, hx, rfl⟩ := List.mem_map.mp ha
    obtain ⟨y, hy, rfl⟩ := List.mem_map.mp hb
    have hsame := spanIntervals_inj hevents
      (mem_spanIntervals_of_lane (mem_trackSpans.mp hx).1)
      (mem_spanIntervals_of_lane (mem_trackSpans.mp hy).1) (SchemaU64.get_injective hlabel)
    rw [hsame]
  ordered := by
    intro interval hinterval finish hfinish
    obtain ⟨entry, hentry, rfl⟩ := List.mem_map.mp hinterval
    obtain ⟨spanId, hspan, rfl⟩ := Option.map_eq_some_iff.mp hfinish
    obtain ⟨start, hstart, role, hrole, hsequence, hfinished⟩ :=
      start_of_interval (mem_spanIntervals_of_lane (mem_trackSpans.mp hentry).1)
    rw [hspan] at hfinished
    obtain ⟨finishing, hfind, rfl⟩ := Option.map_eq_some_iff.mp hfinished.symm
    have hfinishes := List.find?_some hfind
    rw [decide_eq_true_iff] at hfinishes
    show f entry.1.startSequence < f finishing.sequence
    rw [hsequence]
    exact hadvance start hstart finishing (List.mem_of_find?_eq_some hfind)
      (finishes_iff.mpr hfinishes)
  opens := by
    intro moment label
    rw [hbrackets]
    constructor
    · rintro ⟨event, hevent, rfl, hslice⟩
      obtain ⟨entry, hentry, hstart, rfl⟩ := (eventSlice_opens h hevents hevent).mp hslice
      exact ⟨_, List.mem_map_of_mem hentry, rfl, congrArg f hstart⟩
    · rintro ⟨interval, hinterval, rfl, rfl⟩
      obtain ⟨entry, hentry, rfl⟩ := List.mem_map.mp hinterval
      obtain ⟨start, hstart, -, -, hsequence, -⟩ :=
        start_of_interval (mem_spanIntervals_of_lane (mem_trackSpans.mp hentry).1)
      exact ⟨start, hstart, congrArg f hsequence.symm,
        (eventSlice_opens h hevents hstart).mpr ⟨entry, hentry, hsequence, rfl⟩⟩
  closes := by
    intro moment label
    rw [hbrackets]
    constructor
    · rintro ⟨event, hevent, rfl, hslice⟩
      obtain ⟨entry, hentry, hfinish, rfl⟩ := (eventSlice_closes h hevents hevent).mp hslice
      exact ⟨_, List.mem_map_of_mem hentry, rfl, congrArg (Option.map f) hfinish⟩
    · rintro ⟨interval, hinterval, rfl, hfinish⟩
      obtain ⟨entry, hentry, rfl⟩ := List.mem_map.mp hinterval
      obtain ⟨spanId, hspan, rfl⟩ := Option.map_eq_some_iff.mp hfinish
      obtain ⟨start, -, -, -, -, hfinished⟩ :=
        start_of_interval (mem_spanIntervals_of_lane (mem_trackSpans.mp hentry).1)
      rw [hspan] at hfinished
      obtain ⟨finishing, hfind, rfl⟩ := Option.map_eq_some_iff.mp hfinished.symm
      have hmem := List.mem_of_find?_eq_some hfind
      exact ⟨finishing, hmem, rfl, (eventSlice_closes h hevents hmem).mpr ⟨entry, hentry, hspan,
        rfl⟩⟩

end Timelines

/-! ### Nesting -/

/-- **Spans on one track are on one lane of a scope and role.** -/
theorem lane_of_track (h : Planned metadata events builder plan) {other : SpanInterval × Nat}
    (hentry : entry ∈ trackSpans plan events track) (hother : other ∈ trackSpans plan events track) :
    spanKey entry.1 = spanKey other.1 ∧ entry.2 = other.2 := by
  obtain ⟨hlane, htrack⟩ := mem_trackSpans.mp hentry
  obtain ⟨hlane', htrack'⟩ := mem_trackSpans.mp hother
  have hknown : ∀ span ∈ spanIntervals events,
      KnownInterval metadata.rootTrackName metadata.metadataTrackName builder span :=
    spanIntervals_known h.scopes
  obtain ⟨hrole, path, hpath, -, hparent⟩ := hknown entry.1 (mem_spanIntervals_of_lane hlane)
  obtain ⟨hrole', path', hpath', -, hparent'⟩ := hknown other.1 (mem_spanIntervals_of_lane hlane')
  obtain ⟨found, -, hhas, hfound⟩ := h.lanes entry hlane
  have hmem := h.tracks.id_of_has hhas
  rw [← hfound] at hmem
  have hidentity := number_inj hmem (htrack.trans htrack'.symm)
  rw [hparent, hparent', laneIdentity_eq path _ entry.1.displayName,
    laneIdentity_eq path' _ other.1.displayName] at hidentity
  have hsame := identityOf_inj (isPath_concat.mpr ⟨hpath, .lane hrole entry.2⟩)
    (isPath_concat.mpr ⟨hpath', .lane hrole' other.2⟩) hidentity
  obtain ⟨rfl, hstep⟩ := List.append_inj' hsame rfl
  have htext := congrArg TrackStep.text (List.singleton_inj.mp hstep)
  simp only [laneStep, String.append_assoc] at htext
  obtain ⟨hroles, hlanes⟩ := component_inj (append_left_inj_text htext)
  exact ⟨Prod.ext (hparent.trans hparent'.symm) hroles,
    laneText_injective (append_left_inj_text hlanes)⟩

/-- **In the order of the sequences the slices of a track nest.** -/
theorem trackIntervals_nested (h : Planned metadata events builder plan)
    (hevents : Projectable runId events) :
    ∀ a ∈ trackIntervals plan events track SchemaU64.get,
      ∀ b ∈ trackIntervals plan events track SchemaU64.get,
        a.2.start < b.2.start → NestedOrApart a.2 b.2 := by
  intro a ha b hb hlt
  obtain ⟨x, hx, rfl⟩ := List.mem_map.mp ha
  obtain ⟨y, hy, rfl⟩ := List.mem_map.mp hb
  obtain ⟨hkey, hlane⟩ := lane_of_track h hx hy
  exact lanes_nested hevents (mem_trackSpans.mp hx).1 (mem_trackSpans.mp hy).1 hkey hlane hlt

/-- The spans of each lane nest on a clock. -/
def LanesNest {τ : Type} [LinearOrder τ] (events : List DiagnosticEvent) (f : SchemaU64 → τ) :
    Prop :=
  ∀ scopeTrack role, ∀ a ∈ firstFitLanes (spansOf events scopeTrack role),
    ∀ b ∈ firstFitLanes (spansOf events scopeTrack role), a.2 = b.2 →
      (a.1.on f).start < (b.1.on f).start → NestedOrApart (a.1.on f) (b.1.on f)

/-- A span that was placed is a span of the events, with the scope and the role it was placed
under. -/
theorem placed_spec (hevents : Projectable runId events) {scopeTrack role : String}
    {entry : SpanInterval × Nat}
    (hentry : entry ∈ firstFitLanes (spansOf events scopeTrack role)) :
    entry ∈ laneEntries (spanIntervals events) ∧
      entry.1.parentTrackIdentity = scopeTrack ∧ entry.1.role = role := by
  have hfst := List.mem_map_of_mem (f := Prod.fst) hentry
  rw [firstFitLanes_fst (spansOf_sorted hevents)] at hfst
  have hkey := of_decide_eq_true (List.mem_filter.mp hfst).2
  refine ⟨(mem_laneEntries hevents).mpr ?_, hkey⟩
  rw [hkey.1, hkey.2]
  exact hentry

/-- **On a clock the slices of every track nest exactly when the spans of each lane do.** -/
theorem lanesNest_iff {τ : Type} [LinearOrder τ] {f : SchemaU64 → τ}
    (h : Planned metadata events builder plan) (hevents : Projectable runId events) :
    (∀ track, ∀ a ∈ trackIntervals plan events track f,
      ∀ b ∈ trackIntervals plan events track f,
        a.2.start < b.2.start → NestedOrApart a.2 b.2) ↔ LanesNest events f := by
  constructor
  · intro hnest scopeTrack role a ha b hb hlane hlt
    obtain ⟨hmem, hparent, hrole⟩ := placed_spec hevents ha
    obtain ⟨hmem', hparent', hrole'⟩ := placed_spec hevents hb
    have htrack : plan.tracks.ids.number
        (laneIdentity b.1.parentTrackIdentity b.1.role b.2) = plan.tracks.ids.number
        (laneIdentity a.1.parentTrackIdentity a.1.role a.2) := by
      rw [hparent, hrole, hparent', hrole', hlane]
    exact hnest _ _ (List.mem_map_of_mem (mem_trackSpans.mpr ⟨hmem, rfl⟩)) _
      (List.mem_map_of_mem (mem_trackSpans.mpr ⟨hmem', htrack⟩)) hlt
  · intro hnest track a ha b hb hlt
    obtain ⟨x, hx, rfl⟩ := List.mem_map.mp ha
    obtain ⟨y, hy, rfl⟩ := List.mem_map.mp hb
    obtain ⟨hkey, hlane⟩ := lane_of_track h hx hy
    obtain ⟨hparent, hrole⟩ := Prod.mk.inj hkey
    have hxmem := (mem_laneEntries hevents).mp (mem_trackSpans.mp hx).1
    have hymem := (mem_laneEntries hevents).mp (mem_trackSpans.mp hy).1
    rw [← hparent, ← hrole] at hymem
    exact hnest _ _ x hxmem y hymem hlane hlt

/-- **On a clock that keeps the order of the sequences the spans of each lane nest.** -/
theorem lanesNest_of_keeps {τ : Type} [LinearOrder τ] {f : SchemaU64 → τ}
    (hevents : Projectable runId events)
    (hkeeps : ∀ a ∈ events, ∀ b ∈ events, a.sequence < b.sequence →
      f a.sequence < f b.sequence) : LanesNest events f := by
  have hle : ∀ a ∈ events, ∀ b ∈ events, a.sequence ≤ b.sequence →
      f a.sequence ≤ f b.sequence := by
    intro a ha b hb hle
    rcases Nat.lt_or_eq_of_le hle with hlt | heq
    · exact le_of_lt (hkeeps a ha b hb hlt)
    · rw [SchemaU64.get_injective heq]
  intro scopeTrack role a ha b hb hlane hlt
  have hspan {entry : SpanInterval × Nat}
      (hentry : entry ∈ firstFitLanes (spansOf events scopeTrack role)) :
      ∃ start ∈ events, entry.1.startSequence = start.sequence ∧
        ∀ spanId, entry.1.finishSequence = some spanId →
          ∃ finish ∈ events, finish.sequence = spanId := by
    obtain ⟨start, hstart, -, -, hsequence, hfinish⟩ :=
      start_of_interval (mem_spanIntervals_of_lane (placed_spec hevents hentry).1)
    refine ⟨start, hstart, hsequence, fun spanId hmem => ?_⟩
    obtain ⟨finish, hfind, rfl⟩ := Option.map_eq_some_iff.mp (hfinish.symm.trans hmem)
    exact ⟨finish, List.mem_of_find?_eq_some hfind, rfl⟩
  obtain ⟨first, hfirst, hstart, hfinish⟩ := hspan ha
  obtain ⟨second, hsecond, hstart', hfinish'⟩ := hspan hb
  have hsequences : a.1.startSequence < b.1.startSequence := by
    by_contra hge
    refine absurd hlt (not_lt.mpr ?_)
    show f b.1.startSequence ≤ f a.1.startSequence
    rw [hstart, hstart'] at hge ⊢
    exact hle second hsecond first hfirst (Nat.not_lt.mp hge)
  obtain ⟨hmem, hparent, hrole⟩ := placed_spec hevents ha
  obtain ⟨hmem', hparent', hrole'⟩ := placed_spec hevents hb
  cases lanes_nested hevents hmem hmem'
    (Prod.ext (hparent.trans hparent'.symm) (hrole.trans hrole'.symm)) hlane hsequences with
  | inl hapart =>
    obtain ⟨_, hmoment, hbefore⟩ := hapart
    obtain ⟨_, hid, rfl⟩ := Option.map_eq_some_iff.mp hmoment
    obtain ⟨finish, hmem, rfl⟩ := hfinish _ hid
    refine .inl ⟨_, Option.map_eq_some_iff.mpr ⟨_, hid, rfl⟩, ?_⟩
    show f finish.sequence < f b.1.startSequence
    rw [hstart']
    exact hkeeps finish hmem second hsecond (hstart' ▸ hbefore)
  | inr hwithin =>
    refine .inr fun moment hmoment => ?_
    obtain ⟨spanId, hid, rfl⟩ := Option.map_eq_some_iff.mp hmoment
    obtain ⟨_, hmoment', hbefore⟩ :=
      hwithin spanId.get (Option.map_eq_some_iff.mpr ⟨_, hid, rfl⟩)
    obtain ⟨_, hid', rfl⟩ := Option.map_eq_some_iff.mp hmoment'
    obtain ⟨outer, houter, rfl⟩ := hfinish _ hid
    obtain ⟨inner, hinner, rfl⟩ := hfinish' _ hid'
    exact ⟨_, Option.map_eq_some_iff.mpr ⟨_, hid', rfl⟩, hle inner hinner outer houter hbefore⟩

end Tracks

end Troupe.Perfetto
