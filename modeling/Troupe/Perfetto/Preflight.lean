import Troupe.Perfetto.Dump
import Troupe.Perfetto.Trace

/-! # The first pass of the export

The pass collects what the projection collects, whatever the pages the prefix is served in
(`Meets.scanPrefix`). What it could collect is a prefix that can be projected
(**`projectable_of_observeAll`**), so nothing fails afterwards that has not failed before the first
byte. -/

namespace Troupe.Perfetto

open Troupe.Lib Troupe.Core

/-! ## What was collected can be projected -/

section Collected

variable {metadata : ProjectionMetadata} {collector after : ProjectionCollector}
  {seen rest : List DiagnosticEvent} {event : DiagnosticEvent}

theorem checkHeader_eq_ok {runId : CanonicalUuid} {next : Nat} :
    ProjectionCollector.checkHeader runId next event = .ok () ↔
      event.header.runId = runId ∧ event.sequence.get = next ∧ event.elapsedNs.get ≤ i64Max := by
  unfold ProjectionCollector.checkHeader
  rw [ite_error_eq_ok, ite_error_eq_ok, ite_error_eq_ok, not_not, not_not, Nat.not_lt]
  simp

/-- An act whose usage is collected was not collected before. -/
theorem usage_fresh_of_collected (hkeeps : KeepsUsage seen collector) {parentTrack : String}
    (h : collector.collectEventTracks event parentTrack = .ok after) (husage : isActUsage event = true) :
    ∀ other ∈ seen, isActUsage other = true → other.scope ≠ event.scope := by
  cases event with
  | actTokenUsageFinalized usage =>
    obtain ⟨middle, hcollect, -⟩ := bind_eq_ok.mp h
    unfold ProjectionCollector.collectActUsage at hcollect
    rw [ite_error_eq_ok, Bool.not_eq_true] at hcollect
    exact (usageScope_fresh hkeeps usage.header.scope).mp hcollect.1
  | _ => cases husage

/-- **An event that was observed extends what can be projected.** -/
theorem projectable_of_observe (hcollects : Collects metadata seen collector)
    (hseen : Projectable metadata.runId seen) (h : collector.observe event = .ok after) :
    Projectable metadata.runId (seen ++ [event]) := by
  unfold ProjectionCollector.observe at h
  obtain ⟨_, hheader, h⟩ := bind_eq_ok.mp h
  obtain ⟨budget, -, h⟩ := bind_eq_ok.mp h
  rw [hcollects.same, hcollects.next, checkHeader_eq_ok] at hheader
  obtain ⟨hrun, hsequence, helapsed⟩ := hheader
  split at h
  · cases h
  · rename_i accepted validator hvalidate
    obtain ⟨⟨parentTrack, tracks, budget'⟩, -, h⟩ := bind_eq_ok.mp h
    obtain ⟨tracked, htracked, -⟩ := bind_eq_ok.mp h
    refine ⟨?_, ?_, ?_, ?_, ?_⟩
    · intro other hother
      rcases List.mem_append.mp hother with hold | hnew
      · exact hseen.sameRun other hold
      · rw [List.mem_singleton.mp hnew]
        exact hrun
    · intro i other hget
      rcases Nat.lt_or_ge i seen.length with hlt | hge
      · rw [List.getElem?_append_left hlt] at hget
        exact hseen.dense i other hget
      · obtain ⟨hi, hget⟩ := List.getElem?_eq_some_iff.mp hget
        rw [List.length_append, List.length_singleton] at hi
        obtain rfl : i = seen.length := by omega
        rw [List.getElem_concat_length rfl] at hget
        rw [← hget]
        exact hsequence
    · exact ⟨validator, acceptAll_concat.mpr ⟨_, _, hcollects.validator, hvalidate⟩⟩
    · refine List.pairwise_append.mpr ⟨hseen.usageOnce, List.pairwise_singleton _ _, ?_⟩
      intro other hother new hnew hact husage
      rw [List.mem_singleton.mp hnew] at husage ⊢
      have hkeeps : KeepsUsage seen { collector with
          structuralBudget := budget', validator := validator, tracks := tracks } := hcollects.usage
      exact usage_fresh_of_collected hkeeps htracked husage other hother hact
    · intro other hother
      rcases List.mem_append.mp hother with hold | hnew
      · exact hseen.elapsed other hold
      · rw [List.mem_singleton.mp hnew]
        exact helapsed

theorem collects_of_observe (hcollects : Collects metadata seen collector)
    (hseen : Projectable metadata.runId seen) (h : collector.observe event = .ok after) :
    Collects metadata (seen ++ [event]) after := by
  have hsettles := observe_settles hcollects (projectable_of_observe hcollects hseen h)
  rw [h] at hsettles
  exact hsettles

theorem projectable_nil (runId : CanonicalUuid) : Projectable runId [] where
  sameRun _ hmem := (nomatch hmem)
  dense _ _ hget := (nomatch hget)
  accepted := ⟨_, rfl⟩
  usageOnce := List.Pairwise.nil
  elapsed _ hmem := (nomatch hmem)

end Collected

/-! ## The bounds of the timestamps -/

/-- Some span is open. -/
def SomeOpen (events : List DiagnosticEvent) : Prop := ∃ spanId, Unfinished events spanId

/-- What the bounds say of the events. -/
structure BoundsOf (events : List DiagnosticEvent) (bounds : TimestampBounds) : Prop where
  openSpans : bounds.openSpans =
    (spanIntervals events).countP fun span => span.finishSequence.isNone
  range : events = [] ∧ bounds.minimum = none ∧ bounds.maximum = none ∨
    ∃ low high, bounds.minimum = some low ∧ bounds.maximum = some high ∧
      (∃ event ∈ events, event.elapsedNs.get = low) ∧
      (∃ event ∈ events, event.elapsedNs.get = high) ∧
      ∀ event ∈ events, low ≤ event.elapsedNs.get ∧ event.elapsedNs.get ≤ high

section Bounds

variable {runId : CanonicalUuid} {seen events : List DiagnosticEvent} {event : DiagnosticEvent}
  {bounds : TimestampBounds}

theorem boundsOf_nil : BoundsOf [] .empty := ⟨rfl, .inl ⟨rfl, rfl, rfl⟩⟩

/-- The range with one time more. -/
theorem observe_range (h : BoundsOf seen bounds) (event : DiagnosticEvent) :
    ∃ low high, (bounds.observe event.elapsedNs.get).minimum = some low ∧
      (bounds.observe event.elapsedNs.get).maximum = some high ∧
      (∃ other ∈ seen ++ [event], other.elapsedNs.get = low) ∧
      (∃ other ∈ seen ++ [event], other.elapsedNs.get = high) ∧
      ∀ other ∈ seen ++ [event], low ≤ other.elapsedNs.get ∧ other.elapsedNs.get ≤ high := by
  have hlast : event ∈ seen ++ [event] := List.mem_append_right _ (List.mem_singleton_self _)
  unfold TimestampBounds.observe
  rcases h.range with ⟨rfl, hmin, hmax⟩ | ⟨low, high, hmin, hmax, hlow, hhigh, hall⟩
  · rw [hmin, hmax]
    refine ⟨_, _, rfl, rfl, ⟨event, hlast, rfl⟩, ⟨event, hlast, rfl⟩, fun other hother => ?_⟩
    rw [List.mem_singleton.mp hother]
    exact ⟨Nat.le_refl _, Nat.le_refl _⟩
  · rw [hmin, hmax]
    refine ⟨_, _, rfl, rfl, ?_, ?_, fun other hother => ?_⟩
    · rcases Nat.le_total low event.elapsedNs.get with hle | hle
      · obtain ⟨other, hother, rfl⟩ := hlow
        exact ⟨other, List.mem_append_left _ hother, (Nat.min_eq_left hle).symm⟩
      · exact ⟨event, hlast, (Nat.min_eq_right hle).symm⟩
    · rcases Nat.le_total high event.elapsedNs.get with hle | hle
      · exact ⟨event, hlast, (Nat.max_eq_right hle).symm⟩
      · obtain ⟨other, hother, rfl⟩ := hhigh
        exact ⟨other, List.mem_append_left _ hother, (Nat.max_eq_left hle).symm⟩
    · simp only [Option.map_some, Option.getD_some]
      rcases List.mem_append.mp hother with hold | hnew
      · have := hall other hold
        omega
      · rw [List.mem_singleton.mp hnew]
        omega

/-- The one element with a key is changed. -/
theorem countP_map_close {α κ : Type} [DecidableEq κ] {key : α → κ} {p : α → Bool} {f : α → α}
    {items : List α} {k : κ} (hnodup : (items.map key).Nodup)
    (hmem : ∃ item ∈ items, key item = k ∧ p item = true)
    (hclose : ∀ item ∈ items, key item = k → p (f item) = false)
    (hother : ∀ item ∈ items, key item ≠ k → f item = item) :
    (items.map f).countP p + 1 = items.countP p := by
  induction items with
  | nil => exact absurd hmem (by simp)
  | cons item rest ih =>
    rw [List.map_cons, List.nodup_cons] at hnodup
    obtain ⟨hfirst, hrest⟩ := List.forall_mem_cons.mp hclose
    obtain ⟨hfirst', hrest'⟩ := List.forall_mem_cons.mp hother
    by_cases hkey : key item = k
    · have hsame : rest.map f = rest := by
        refine (List.map_congr_left fun other hmem' => ?_).trans (List.map_id rest)
        exact hrest' other hmem' fun heq =>
          hnodup.1 (List.mem_map.mpr ⟨other, hmem', heq.trans hkey.symm⟩)
      have hitem : p item = true := by
        obtain ⟨found, hfound, hk, hp⟩ := hmem
        rcases List.mem_cons.mp hfound with rfl | hfound
        · exact hp
        · exact absurd (List.mem_map.mpr ⟨found, hfound, hk.trans hkey.symm⟩) hnodup.1
      rw [List.map_cons, hsame, List.countP_cons_of_neg (by rw [hfirst hkey]; decide),
        List.countP_cons_of_pos hitem]
    · have hmem' : ∃ item ∈ rest, key item = k ∧ p item = true := by
        obtain ⟨found, hfound, hk, hp⟩ := hmem
        rcases List.mem_cons.mp hfound with rfl | hfound
        · exact absurd hk hkey
        · exact ⟨found, hfound, hk, hp⟩
      rw [List.map_cons, hfirst' hkey, List.countP_cons, List.countP_cons,
        ← ih hnodup.2 hmem' hrest hrest']
      omega

/-- A span that is finished was open. -/
theorem finishSequence_before (h : Projectable runId (seen ++ [event])) {spanId : SchemaU64}
    (hfinish : finishedSpan event = some spanId) : finishSequence seen spanId = none := by
  unfold finishSequence
  rw [Option.map_eq_none_iff, List.find?_eq_none]
  intro other hmem hother
  have hsame := h.sound.finishOnce other (List.mem_append_left _ hmem) event
    (List.mem_append_right _ (List.mem_singleton_self _)) spanId
    (finishes_iff.mpr (of_decide_eq_true hother)) (finishes_iff.mpr hfinish)
  have hlt := h.increasing.lt_last hmem
  rw [hsame, SchemaU64.lt_def] at hlt
  exact Nat.lt_irrefl _ hlt

/-- **The open spans with one event more.** -/
theorem openSpans_concat (h : Projectable runId (seen ++ [event])) :
    ((spanIntervals (seen ++ [event])).countP fun span => span.finishSequence.isNone) =
      match spanRole event, finishedSpan event with
      | some _, _ => ((spanIntervals seen).countP fun span => span.finishSequence.isNone) + 1
      | none, some _ => ((spanIntervals seen).countP fun span => span.finishSequence.isNone) - 1
      | none, none => (spanIntervals seen).countP fun span => span.finishSequence.isNone := by
  have hconcat := spanIntervals_concat h
  rw [hconcat, List.countP_append]
  unfold spanInterval
  cases hrole : spanRole event with
  | some entry =>
    have hnone := finishedSpan_of_starts hrole
    rw [hnone, finishSequence_last h]
    simp
  | none =>
    cases hfinished : finishedSpan event with
    | none => simp
    | some spanId =>
      obtain ⟨span, hspan, hstart⟩ := mem_spanIntervals_of_finishes h hfinished
      have hopen : span.finishSequence.isNone = true := by
        obtain ⟨other, -, hinterval⟩ := List.mem_filterMap.mp hspan
        obtain ⟨_, _, rfl⟩ := Option.map_eq_some_iff.mp hinterval
        dsimp only at hstart ⊢
        rw [hstart, finishSequence_before h hfinished]
        rfl
      have hclosed : ((spanIntervals seen).map fun span =>
          if some spanId = some span.startSequence then
            { span with finishSequence := some event.sequence } else span).countP
              (fun span => span.finishSequence.isNone) + 1 =
          (spanIntervals seen).countP fun span => span.finishSequence.isNone := by
        refine countP_map_close (spanIntervals_nodup h.take) ⟨span, hspan, hstart, hopen⟩
          (fun other _ hsame => ?_) fun other _ hne => ?_
        · rw [if_pos (congrArg some hsame.symm)]
          rfl
        · rw [if_neg fun heq => hne (Option.some.inj heq).symm]
      rw [Option.map_none, Option.toList_none, List.countP_nil, Nat.add_zero]
      exact Nat.eq_sub_of_add_eq hclosed

theorem openSpans_pos (h : Projectable runId (seen ++ [event])) {spanId : SchemaU64}
    (hfinish : finishedSpan event = some spanId) :
    0 < (spanIntervals seen).countP fun span => span.finishSequence.isNone := by
  obtain ⟨span, hspan, hstart⟩ := mem_spanIntervals_of_finishes h hfinish
  refine List.countP_pos_iff.mpr ⟨span, hspan, ?_⟩
  obtain ⟨other, -, hinterval⟩ := List.mem_filterMap.mp hspan
  obtain ⟨_, _, rfl⟩ := Option.map_eq_some_iff.mp hinterval
  dsimp only at hstart ⊢
  rw [hstart, finishSequence_before h hfinish]
  rfl

/-- **One call of `observe_event`.** -/
theorem observeEvent_bounds {ρ : Type} (h : BoundsOf seen bounds)
    (hevents : Projectable runId (seen ++ [event])) :
    ∃ after, (bounds.observeEvent event : Except (Halt ρ) TimestampBounds) = .ok after ∧
      BoundsOf (seen ++ [event]) after := by
  have hrange := observe_range h event
  have hcount := openSpans_concat hevents
  have hmake (n : Nat) (hn : n =
      (spanIntervals (seen ++ [event])).countP fun span => span.finishSequence.isNone) :
      BoundsOf (seen ++ [event]) { bounds.observe event.elapsedNs.get with openSpans := n } :=
    ⟨hn, .inr hrange⟩
  have hsame : (bounds.observe event.elapsedNs.get).openSpans = bounds.openSpans := rfl
  cases hrole : spanRole event with
  | some entry =>
    rw [hrole] at hcount
    refine ⟨_, ?_, hmake (bounds.openSpans + 1) (by rw [h.openSpans]; exact hcount.symm)⟩
    cases event <;> first | rfl | cases hrole
  | none =>
    rw [hrole] at hcount
    cases hfinished : finishedSpan event with
    | some spanId =>
      rw [hfinished] at hcount
      have hpos := openSpans_pos hevents hfinished
      rw [← h.openSpans] at hpos
      refine ⟨_, ?_, hmake (bounds.openSpans - 1) (by rw [h.openSpans]; exact hcount.symm)⟩
      have hne : ¬bounds.openSpans = 0 := by omega
      cases event <;> first | exact if_neg hne | cases hfinished
    | none =>
      rw [hfinished] at hcount
      refine ⟨_, ?_, hmake bounds.openSpans (by rw [h.openSpans]; exact hcount.symm)⟩
      cases event <;> first | rfl | cases hfinished; done | cases hrole

/-- **A span is open when the bounds count one.** -/
theorem openSpans_ne_zero_iff (h : BoundsOf events bounds) :
    bounds.openSpans ≠ 0 ↔ SomeOpen events := by
  rw [h.openSpans, ← Nat.pos_iff_ne_zero, List.countP_pos_iff]
  constructor
  · rintro ⟨span, hspan, hopen⟩
    obtain ⟨start, hstart, hinterval⟩ := List.mem_filterMap.mp hspan
    obtain ⟨entry, hrole, rfl⟩ := Option.map_eq_some_iff.mp hinterval
    refine ⟨_, start, hstart, starts_iff.mpr (by rw [hrole]; rfl), rfl, fun finish hmem hfin => ?_⟩
    rw [Option.isNone_iff_eq_none] at hopen
    dsimp only at hopen
    unfold finishSequence at hopen
    rw [Option.map_eq_none_iff, List.find?_eq_none] at hopen
    exact hopen finish hmem (decide_eq_true (finishes_iff.mp hfin))
  · rintro ⟨spanId, start, hstart, hstarts, rfl, hnone⟩
    obtain ⟨⟨role, displayName⟩, hrole⟩ := Option.isSome_iff_exists.mp (starts_iff.mp hstarts)
    refine ⟨⟨start.sequence, finishSequence events start.sequence, scopeTrackIdentity start.scope,
      role, displayName⟩, List.mem_filterMap.mpr ⟨start, hstart, ?_⟩, ?_⟩
    · unfold spanInterval
      rw [hrole]
      rfl
    · dsimp only
      rw [Option.isNone_iff_eq_none]
      unfold finishSequence
      rw [Option.map_eq_none_iff, List.find?_eq_none]
      exact fun finish hmem hfin => hnone finish hmem (finishes_iff.mpr (of_decide_eq_true hfin))

/-- The boundary of events at one time. -/
def boundaryOf (elapsedNs : Nat) : CaptureBoundary :=
  if elapsedNs < i64Max then ⟨elapsedNs + 1, .afterEvents⟩ else ⟨elapsedNs - 1, .beforeEvents⟩

/-- **There is a capture boundary exactly when a span is open and all events are at one time.** -/
theorem captureBoundary_eq_some_iff (h : BoundsOf events bounds) {boundary : CaptureBoundary} :
    bounds.captureBoundary = some boundary ↔ SomeOpen events ∧
      ∃ elapsedNs, (∀ event ∈ events, event.elapsedNs.get = elapsedNs) ∧
        boundary = boundaryOf elapsedNs := by
  unfold TimestampBounds.captureBoundary
  by_cases hopen : bounds.openSpans = 0
  · rw [if_pos hopen]
    have hnone : ¬SomeOpen events := fun hsome => (openSpans_ne_zero_iff h).mpr hsome hopen
    exact iff_of_false (fun heq => nomatch heq) fun hsome => hnone hsome.1
  · have hsome := (openSpans_ne_zero_iff h).mp hopen
    rw [if_neg hopen, Option.map_eq_some_iff]
    obtain ⟨_, start, hstart, -⟩ := id hsome
    rcases h.range with ⟨rfl, -⟩ | ⟨low, high, hmin, hmax, ⟨first, hfirst, hlow⟩,
      ⟨last, hlast, hhigh⟩, hall⟩
    · cases hstart
    · rw [hmin, hmax]
      simp only [Option.filter_eq_some_iff, Option.some.injEq, decide_eq_true_eq]
      constructor
      · rintro ⟨_, ⟨rfl, hsame⟩, rfl⟩
        refine ⟨hsome, low, fun event hevent => ?_, rfl⟩
        have := hall event hevent
        omega
      · rintro ⟨-, elapsedNs, hone, rfl⟩
        refine ⟨low, ⟨rfl, ?_⟩, ?_⟩
        · rw [← hlow, ← hhigh, hone first hfirst, hone last hlast]
        · rw [← hlow, hone first hfirst]
          rfl

end Bounds

/-! ## Pages -/

/-- The sequences of the events are their places. -/
def Dense (events : List DiagnosticEvent) : Prop :=
  ∀ i event, events[i]? = some event → event.sequence.get = i + 1

/-- A page of a stored prefix. -/
def pageFrom (events : List DiagnosticEvent) (after size : Nat) : PrefixPage :=
  ((events.drop after).take size).map fun event => (event.sequence, event)

/-- **The source serves the events**, in pages of its choice, which may differ from one pass to the
other. -/
def Serves {ρ : Type} (source : PrefixSource ρ) (events : List DiagnosticEvent) : Prop :=
  ∀ pass (after : SchemaU64), after.get < events.length →
    ∃ size, 0 < size ∧ source after pass = .ok (pageFrom events after.get size)

theorem pageFrom_succ {events : List DiagnosticEvent} {after : Nat} (h : after < events.length)
    (size : Nat) : pageFrom events after (size + 1) =
      ((events[after].sequence, events[after]) :: pageFrom events (after + 1) size) := by
  unfold pageFrom
  rw [List.drop_eq_getElem_cons h, List.take_succ_cons, List.map_cons]

/-- The metrics once a page was read. -/
def DumpMetrics.paged (metrics : DumpMetrics) (eventCount : Nat) : DumpMetrics :=
  { metrics with
    sourcePageReads := metrics.sourcePageReads + 1
    peakPageEvents := max metrics.peakPageEvents eventCount }

section Scan

variable {ρ σ τ : Type} {source : PrefixSource ρ} {events : List DiagnosticEvent}
  {through : SchemaU64} {observe : τ → DiagnosticEvent → Dump ρ σ τ}
  {inv : Nat → τ → Dumping σ → Prop} {fails : Halt ρ → Dumping σ → Prop} {state : Dumping σ}

/-- **A metric goes up, or overflows.** -/
theorem meets_checkedMetric {value : DumpMetrics → Nat} {more : Nat} {metric : String}
    {change : DumpMetrics → Nat → DumpMetrics} {post : Unit → Dumping σ → Prop}
    (hok : value state.metrics + more ≤ u64Max →
      post () { state with metrics := change state.metrics (value state.metrics + more) })
    (hoverflow : u64Max < value state.metrics + more →
      fails (.failed (.resourceOverflow metric)) state) :
    Meets (updateMetrics fun metrics => do
      let total ← checkedMetric (value metrics) more metric
      .ok (change metrics total)) state post fails := by
  unfold Meets updateMetrics checkedMetric
  rw [ExceptT.run_mk]
  dsimp only
  by_cases hroom : value state.metrics + more ≤ u64Max
  · rw [checkedAdd_of_le hroom]
    exact hok hroom
  · rw [checkedAdd_eq_none.mpr (Nat.lt_of_not_le hroom)]
    exact hoverflow (Nat.lt_of_not_le hroom)

theorem meets_observePage {post : Unit → Dumping σ → Prop} (eventCount : Nat)
    (hok : state.metrics.sourcePageReads + 1 ≤ u64Max →
      post () { state with metrics := state.metrics.paged eventCount })
    (hoverflow : u64Max < state.metrics.sourcePageReads + 1 →
      fails (.failed (.resourceOverflow "source_page_reads")) state) :
    Meets (observePage eventCount) state post fails :=
  meets_checkedMetric hok hoverflow

/-- What each event of a scan does, while the number of pages read stays. -/
def Observes (events : List DiagnosticEvent) (through : SchemaU64)
    (observe : τ → DiagnosticEvent → Dump ρ σ τ) (inv : Nat → τ → Dumping σ → Prop)
    (fails : Halt ρ → Dumping σ → Prop) : Prop :=
  ∀ i event t state, events[i]? = some event → i < through.get → inv i t state →
    Meets (observe t event) state (fun t state' => inv (i + 1) t state' ∧
      state'.metrics.sourcePageReads = state.metrics.sourcePageReads) fails

/-- What is known after a page: how far the scan came. -/
structure PageScanned (inv : Nat → τ → Dumping σ → Prop) (through : SchemaU64) (before : Nat)
    (size : Nat) (reads : Nat) (result : Bool × SchemaU64 × τ) (state : Dumping σ) : Prop where
  reads : state.metrics.sourcePageReads = reads
  holds : inv result.2.1.get result.2.2 state
  reached : result.1 = true → result.2.1 = through
  going : result.1 = false → result.2.1.get < through.get ∧ before + size = result.2.1.get

/-- **A page is scanned.** -/
theorem meets_scanPage (hdense : Dense events) (hthrough : through.get ≤ events.length)
    (hobserve : Observes events through observe inv fails) (size : Nat) (after : SchemaU64) {t : τ}
    (hafter : after.get < through.get)
    (hsize : after.get + size ≤ events.length) (hinv : inv after.get t state) :
    Meets (scanPage through observe (pageFrom events after.get size) after t) state
      (PageScanned inv through after.get size state.metrics.sourcePageReads) fails := by
  induction size generalizing after t state with
  | zero => exact Meets.pure ⟨rfl, hinv, fun h => (nomatch h), fun _ => ⟨hafter, rfl⟩⟩
  | succ size ih =>
    have hlt : after.get < events.length := hafter.trans_le hthrough
    have hget := List.getElem?_eq_getElem hlt
    have hsequence := hdense _ _ hget
    rw [pageFrom_succ hlt]
    unfold scanPage
    rw [if_neg (by rw [SchemaU64.lt_def, hsequence]; omega)]
    refine (hobserve _ _ t state hget hafter hinv).bind fun next state' hnext => ?_
    obtain ⟨hholds, hreads⟩ := hnext
    rw [← hsequence] at hholds
    by_cases hreached : events[after.get].sequence = through
    · rw [if_pos hreached]
      exact Meets.pure ⟨hreads, hholds, fun _ => hreached, fun h => nomatch h⟩
    · rw [if_neg hreached]
      have hnot : events[after.get].sequence.get ≠ through.get :=
        fun heq => hreached (SchemaU64.get_injective heq)
      have hmore := ih events[after.get].sequence (by omega) (by omega) hholds
      rw [hsequence] at hmore
      refine hmore.imp (fun result state'' hscanned => ?_) fun _ _ hfails => hfails
      exact ⟨hscanned.reads.trans hreads, hscanned.holds, hscanned.reached, fun hgoing => by
        have := hscanned.going hgoing
        omega⟩

/-- **A prefix is scanned event by event, whatever its pages.** -/
theorem meets_scanPrefix (hserves : Serves source events) (hdense : Dense events)
    (hthrough : through.get ≤ events.length) (pass : ScanPass)
    (hobserve : Observes events through observe inv fails)
    (hpage : ∀ i t state n, inv i t state →
      inv i t { state with metrics := state.metrics.paged n }) (base : Nat)
    (hoverflow : ∀ i t state, inv i t state → u64Max < base + through.get →
      fails (.failed (.resourceOverflow "source_page_reads")) state)
    (fuel : Nat) {after : SchemaU64} {t : τ} (hafter : after.get ≤ through.get)
    (hfuel : through.get ≤ after.get + fuel) (hinv : inv after.get t state)
    (hreads : state.metrics.sourcePageReads ≤ base + after.get) :
    Meets (scanPrefix source through pass observe fuel after t) state
      (fun t state' => inv through.get t state' ∧
        state'.metrics.sourcePageReads ≤ base + through.get) fails := by
  induction fuel generalizing after t state with
  | zero =>
    obtain rfl : after = through := SchemaU64.get_injective (by omega)
    unfold scanPrefix
    rw [if_pos (SchemaU64.le_def.mpr (Nat.le_refl _))]
    exact Meets.pure ⟨hinv, hreads⟩
  | succ fuel ih =>
    unfold scanPrefix
    by_cases hdone : through ≤ after
    · obtain rfl : after = through :=
        SchemaU64.get_injective (Nat.le_antisymm hafter (SchemaU64.le_def.mp hdone))
      rw [if_pos hdone]
      exact Meets.pure ⟨hinv, hreads⟩
    · rw [if_neg hdone]
      rw [SchemaU64.le_def, Nat.not_le] at hdone
      obtain ⟨size, hsize, hserved⟩ := hserves pass after (hdone.trans_le hthrough)
      dsimp only
      rw [hserved]
      rw [show (Except.ok (pageFrom events after.get size) : Except ρ PrefixPage).mapError
        (fun error => (.failed (.source error) : Halt ρ)) = .ok (pageFrom events after.get size)
        from rfl, lift_ok_bind]
      -- a page has at most the events that are left
      obtain ⟨size', hsize', hpos, heq⟩ : ∃ size', after.get + size' ≤ events.length ∧ 0 < size' ∧
          pageFrom events after.get size = pageFrom events after.get size' := by
        refine ⟨min size (events.length - after.get), by omega, by omega, ?_⟩
        unfold pageFrom
        congr 1
        rw [← List.length_drop, List.take_eq_take_min]
      rw [heq]
      have hread : Meets (observePage (pageFrom events after.get size').length) state
          (fun _ state' => inv after.get t state' ∧
            state'.metrics.sourcePageReads ≤ base + after.get + 1) fails :=
        meets_observePage _ (fun _ => ⟨hpage _ _ _ _ hinv, Nat.succ_le_succ hreads⟩)
          fun hover => hoverflow _ _ _ hinv (by omega)
      refine hread.bind fun _ state' hread' => ?_
      obtain ⟨hinv', hreads'⟩ := hread'
      refine (meets_scanPage hdense hthrough hobserve size' after hdone hsize' hinv').bind
        fun result state'' hscanned => ?_
      obtain ⟨reached, next, t'⟩ := result
      have hempty : (pageFrom events after.get size').isEmpty = false := by
        obtain ⟨n, rfl⟩ := Nat.exists_eq_succ_of_ne_zero (Nat.pos_iff_ne_zero.mp hpos)
        rw [pageFrom_succ (hdone.trans_le hthrough)]
        rfl
      cases reached with
      | true =>
        obtain rfl : next = through := hscanned.reached rfl
        refine Meets.pure ⟨hscanned.holds, ?_⟩
        rw [hscanned.reads]
        omega
      | false =>
        obtain ⟨hlt, hnext⟩ := hscanned.going rfl
        rw [hempty]
        dsimp only at hlt hnext ⊢
        refine ih (by omega) (by omega) hscanned.holds ?_
        rw [hscanned.reads]
        omega

end Scan

/-! ## The pass -/

/-- The plan of a prefix. -/
def collectPlan (metadata : ProjectionMetadata) (events : List DiagnosticEvent) :
    Except ProjectionError ProjectionPlan := do
  let collector ← ProjectionCollector.new metadata .unlimited
  let collector ← collector.observeAll events
  collector.finish

theorem projectPrefix_eq (metadata : ProjectionMetadata) (events : List DiagnosticEvent) :
    projectPrefix metadata events =
      ((collectPlan metadata events).mapError .raised >>= fun plan =>
        ProjectedTrace.fromPlan plan events) := rfl

/-- Nothing was written. -/
structure Idle {σ : Type} (writer : σ) (state : Dumping σ) : Prop where
  writer : state.writer = writer
  output : state.output = []
  packets : state.metrics.packetCount = 0
  descriptors : state.metrics.descriptorCount = 0
  bytes : state.metrics.bytesWritten = 0

/-- What the first pass is about to write of. -/
structure Preflighted (metadata : ProjectionMetadata) (events : List DiagnosticEvent)
    (plan : ProjectionPlan) (boundary : Option (CaptureBoundaryPosition × TracePacket)) : Prop where
  collected : collectPlan metadata events = .ok plan
  projectable : Projectable metadata.runId events
  planned : ∃ builder, Planned metadata events builder plan
  boundary : ∃ bounds, BoundsOf events bounds ∧
    boundaryPacket plan bounds.captureBoundary = .ok boundary

section Pass

variable {ρ σ : Type} {source : PrefixSource ρ} {events : List DiagnosticEvent}
  {through : SchemaU64} {metadata : ProjectionMetadata}

theorem observeAll_stuck {collector before : ProjectionCollector} {seen rest : List DiagnosticEvent}
    {event : DiagnosticEvent} {error : ProjectionError}
    (hbefore : collector.observeAll seen = .ok before) (herror : before.observe event = .error error) :
    collector.observeAll (seen ++ event :: rest) = .error error := by
  unfold ProjectionCollector.observeAll at hbefore ⊢
  rw [List.foldlM_append, hbefore, ok_bind, List.foldlM_cons, herror]
  rfl

/-- What is kept while the first pass goes on. -/
structure Collecting (metadata : ProjectionMetadata) (events : List DiagnosticEvent) (writer : σ)
    (collector : ProjectionCollector) (i : Nat) (seen : ProjectionCollector × TimestampBounds)
    (state : Dumping σ) : Prop where
  idle : Idle writer state
  observed : collector.observeAll (events.take i) = .ok seen.1
  collects : Collects metadata (events.take i) seen.1
  projectable : Projectable metadata.runId (events.take i)
  bounds : BoundsOf (events.take i) seen.2

theorem take_split {i : Nat} {event : DiagnosticEvent} (h : events[i]? = some event)
    (hlt : i < through.get) : events.take (i + 1) = events.take i ++ [event] ∧
      ∃ rest, events.take through.get = events.take i ++ event :: rest := by
  have hone : events.take (i + 1) = events.take i ++ [event] := by
    rw [List.take_add_one, h]
    rfl
  obtain ⟨rest, hrest⟩ : events.take (i + 1) <+: events.take through.get :=
    List.take_prefix_take_left hlt
  exact ⟨hone, rest, by rw [← hrest, hone, List.append_assoc]; rfl⟩

/-- **The first pass collects what the projection collects, and writes nothing.** -/
theorem meets_preflight (hserves : Serves source events) (hdense : Dense events)
    (hthrough : through.get ≤ events.length) (hexported : metadata.exportedThrough = through)
    (hcaptured : through ≤ metadata.capturedWatermark) {fuel : Nat} (hfuel : through.get ≤ fuel)
    (writer : σ) :
    Meets (preflight source through metadata .fixed fuel) (Dumping.start writer)
      (fun result state => Idle writer state ∧
        state.metrics.sourcePageReads ≤ through.get ∧
        Preflighted metadata (events.take through.get) result.1 result.2)
      (fun _ state => Idle writer state ∧
        ∃ fault, projectPrefix metadata (events.take through.get) = .error fault) := by
  subst hexported
  have hstart : Idle writer (Dumping.start writer) := ⟨rfl, rfl, rfl, rfl, rfl⟩
  have hlength : (events.take metadata.exportedThrough.get).length =
      metadata.exportedThrough.get := List.length_take_of_le hthrough
  have hfail (error : ProjectionError)
      (h : collectPlan metadata (events.take metadata.exportedThrough.get) = .error error) :
      ∃ fault, projectPrefix metadata (events.take metadata.exportedThrough.get) = .error fault := by
    rw [projectPrefix_eq, h]
    exact ⟨_, rfl⟩
  unfold preflight
  have hnew := collectorNew_settles metadata .unlimited .fixed hcaptured
  cases hcollector : ProjectionCollector.newWithStructuralLimits metadata .unlimited .fixed with
  | error error =>
    refine Meets.throw ⟨hstart, hfail error ?_⟩
    unfold collectPlan ProjectionCollector.new
    rw [hcollector]
    rfl
  | ok collector =>
    rw [hcollector] at hnew
    have hplan (rest : List DiagnosticEvent) : collectPlan metadata rest =
        (collector.observeAll rest >>= ProjectionCollector.finish) := by
      unfold collectPlan ProjectionCollector.new
      rw [hcollector, ok_bind]
    show Meets (lift (.ok collector) >>= _) _ _ _
    rw [lift_ok_bind]
    have hobserves : Observes events metadata.exportedThrough
        (preflightEvent : _ → _ → Dump ρ σ _) (Collecting metadata events writer collector)
        (fun _ state => Idle writer state ∧ ∃ fault,
          projectPrefix metadata (events.take metadata.exportedThrough.get) = .error fault) := by
      intro i event seen state hget hlt hseen
      obtain ⟨htake, rest, hsplit⟩ := take_split hget hlt
      unfold preflightEvent
      cases hobserve : seen.1.observe event with
      | error error =>
        refine Meets.throw ⟨hseen.idle, hfail error ?_⟩
        rw [hplan, hsplit, observeAll_stuck hseen.observed hobserve]
        rfl
      | ok next =>
        have hprojectable := projectable_of_observe hseen.collects hseen.projectable hobserve
        have hcollects := collects_of_observe hseen.collects hseen.projectable hobserve
        obtain ⟨bounds, hbounds, hafter⟩ := observeEvent_bounds hseen.bounds hprojectable
        show Meets (lift (.ok next) >>= _) _ _ _
        rw [lift_ok_bind, hbounds]
        show Meets (lift (.ok bounds) >>= _) _ _ _
        rw [lift_ok_bind]
        refine Meets.pure ⟨⟨hseen.idle, ?_, ?_, ?_, ?_⟩, rfl⟩
        · rw [htake]
          unfold ProjectionCollector.observeAll
          exact (foldlM_concat_of_ok hseen.observed).trans hobserve
        · rw [htake]
          exact hcollects
        · rw [htake]
          exact hprojectable
        · rw [htake]
          exact hafter
    have hscan := meets_scanPrefix hserves hdense hthrough .preflight hobserves
      (fun i seen state n hseen => ⟨⟨hseen.idle.writer, hseen.idle.output, hseen.idle.packets,
        hseen.idle.descriptors, hseen.idle.bytes⟩, hseen.observed, hseen.collects,
        hseen.projectable, hseen.bounds⟩) 0
      (fun i seen state _ hover => absurd metadata.exportedThrough.le_max (by omega)) fuel
      (Nat.zero_le _) (by
        rw [show SchemaU64.get 0 = 0 from rfl, Nat.zero_add]
        exact hfuel)
      (show Collecting metadata events writer collector (0 : SchemaU64).get (collector, .empty)
        (Dumping.start writer) from
          ⟨hstart, rfl, hnew, projectable_nil _, boundsOf_nil⟩) (Nat.zero_le _)
    refine hscan.bind fun seen state hseen => ?_
    obtain ⟨hseen, hreads⟩ := hseen
    obtain ⟨final, bounds⟩ := seen
    have hfinish := collectorFinish_settles hseen.collects hlength.symm
    dsimp only
    cases hplanned : final.finish with
    | error error =>
      refine Meets.throw ⟨hseen.idle, hfail error ?_⟩
      rw [hplan, hseen.observed, ok_bind, hplanned]
    | ok plan =>
      rw [hplanned] at hfinish
      obtain ⟨builder, hplanned'⟩ := hfinish
      have hpacket : ∃ boundary, boundaryPacket plan bounds.captureBoundary = .ok boundary := by
        unfold boundaryPacket
        cases bounds.captureBoundary with
        | none => exact ⟨_, rfl⟩
        | some boundary =>
          unfold ProjectionPlan.captureBoundaryPacket
          rw [id_of_mem hplanned'.root_mem]
          exact ⟨_, rfl⟩
      obtain ⟨boundary, hboundary⟩ := hpacket
      show Meets (lift (.ok plan) >>= _) _ _ _
      rw [lift_ok_bind, hboundary]
      show Meets (lift (.ok boundary) >>= _) _ _ _
      rw [lift_ok_bind]
      refine Meets.pure ⟨hseen.idle, by omega, ?_, hseen.projectable, ⟨builder, hplanned'⟩,
        bounds, hseen.bounds, hboundary⟩
      rw [hplan, hseen.observed, ok_bind, hplanned]

end Pass

end Troupe.Perfetto
