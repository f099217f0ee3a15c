import Troupe.Web.State.Reducer

/-! # The marks of the buckets

A bucket that evicts or shortens an item leaves a mark, `dropped_through`; `lost` says which event
had changed the item last. `Marks policy bound through bucket`: no item was changed and none was lost
after `through`, and no loss is after both the mark and `bound`.

* `Marks.upsert`: an upsert leaves a mark for what it evicts, when no item was changed after the
  sequence its policy gives it (`Dated`). All policies but the spans' give the change itself
  (`Exact`); a span is given its finish, so a start that comes after it is not seen.
* `projectEvent_marked`: an event keeps the marks, but for a text it shortens (`shortensMessage`)
  and the start of a finished span (`startsFinished`).
* `hydrateSnapshotProjection_marked`: a snapshot leaves a mark for whatever it does not hold. -/

namespace Troupe.Web.State

open Troupe.Core Troupe.Lib

/-! ## One bucket -/

section Bucket

variable {T K : Type}

/-- An item was not changed after `through`, nor after the sequence its policy gives it but up to
`bound`. -/
structure Dated (policy : BucketPolicy T K) (bound through : Nat) (item : T) : Prop where
  within : policy.changedOf item ≤ through
  dated : policy.changedOf item ≤ bound ∨ policy.changedOf item ≤ policy.sequenceOf item

/-- No loss is after both the mark and `bound`. -/
structure Marks (policy : BucketPolicy T K) (bound through : Nat) (bucket : ProjectionBucket T) :
    Prop where
  items : ∀ item ∈ bucket.items, Dated policy bound through item
  within : ∀ n ∈ bucket.lost, n ≤ through
  marked : ∀ n ∈ bucket.lost, n ≤ bound ∨ ∃ mark, bucket.droppedThrough = some mark ∧ n ≤ mark

/-- A policy whose sequence of an item is that of its last change. -/
def Exact (policy : BucketPolicy T K) : Prop := ∀ item, policy.changedOf item = policy.sequenceOf item

variable {policy : BucketPolicy T K} {bound bound' through through' : Nat}
  {bucket : ProjectionBucket T} {item : T}

theorem Dated.mono (h : Dated policy bound through item) (hbound : bound ≤ bound')
    (hthrough : through ≤ through') : Dated policy bound' through' item :=
  ⟨h.within.trans hthrough, h.dated.imp_left (·.trans hbound)⟩

theorem Exact.dated (hexact : Exact policy) (hitem : policy.changedOf item ≤ through) :
    Dated policy bound through item :=
  ⟨hitem, .inr (hexact item).le⟩

theorem Marks.mono (h : Marks policy bound through bucket) (hbound : bound ≤ bound')
    (hthrough : through ≤ through') : Marks policy bound' through' bucket := by
  refine ⟨fun item hitem => (h.items item hitem).mono hbound hthrough,
    fun n hn => (h.within n hn).trans hthrough, fun n hn => ?_⟩
  exact (h.marked n hn).imp_left (·.trans hbound)

theorem emptyBucket_marks {baseThrough : Nat} :
    Marks policy bound through (emptyBucket baseThrough : ProjectionBucket T) :=
  ⟨List.forall_mem_nil _, List.forall_mem_nil _, List.forall_mem_nil _⟩

theorem Marks.refresh (h : Marks policy bound through bucket) (refresh : Bool) :
    Marks policy bound through (markRefreshIf refresh bucket) := by
  cases refresh with
  | false => exact h
  | true => exact ⟨h.items, h.within, h.marked⟩

theorem le_later_left {left : Option Nat} {right mark : Nat} (h : left = some mark) :
    mark ≤ later left right := by
  subst h
  unfold later
  dsimp only
  split
  · omega
  · exact le_rfl

theorem le_later_right (left : Option Nat) (right : Nat) : right ≤ later left right := by
  unfold later
  cases left with
  | none => exact le_rfl
  | some left =>
    dsimp only
    split
    · exact le_rfl
    · omega

theorem Marks.dropped (h : Marks policy bound through bucket) (sequence : Nat) :
    Marks policy bound through (markDropped bucket sequence) := by
  refine ⟨h.items, h.within, fun n hn => ?_⟩
  rcases h.marked n hn with hle | ⟨mark, hmark, hle⟩
  · exact .inl hle
  · exact .inr ⟨_, rfl, hle.trans (le_later_left hmark)⟩

/-- A loss that is early or has a mark. -/
theorem Marks.append (h : Marks policy bound through bucket) {losses : List Nat}
    (hwithin : ∀ n ∈ losses, n ≤ through)
    (hmarked : ∀ n ∈ losses, n ≤ bound ∨ ∃ mark, bucket.droppedThrough = some mark ∧ n ≤ mark) :
    Marks policy bound through { bucket with lost := bucket.lost ++ losses } := by
  refine ⟨h.items, fun n hn => ?_, fun n hn => ?_⟩
  · rcases List.mem_append.mp hn with hold | hnew
    · exact h.within n hold
    · exact hwithin n hnew
  · rcases List.mem_append.mp hn with hold | hnew
    · exact h.marked n hold
    · exact hmarked n hnew

/-- Marks only move forward along the loop of `upsertBounded`, and pass every item dropped. -/
theorem foldl_later (sequenceOf : T → Nat) (dropped : List T) (through : Option Nat) :
    (∀ mark, through = some mark → ∃ mark',
      dropped.foldl (fun through item => some (later through (sequenceOf item))) through =
        some mark' ∧ mark ≤ mark') ∧
    ∀ item ∈ dropped, ∃ mark',
      dropped.foldl (fun through item => some (later through (sequenceOf item))) through =
        some mark' ∧ sequenceOf item ≤ mark' := by
  induction dropped generalizing through with
  | nil => exact ⟨fun mark hmark => ⟨mark, hmark, le_rfl⟩, List.forall_mem_nil _⟩
  | cons first rest ih =>
    obtain ⟨hmark, hitems⟩ := ih (some (later through (sequenceOf first)))
    obtain ⟨last, hlast, hle⟩ := hmark _ rfl
    refine ⟨fun mark hthrough => ⟨last, hlast, ?_⟩, List.forall_mem_cons.mpr ⟨?_, hitems⟩⟩
    · exact (le_later_left hthrough).trans hle
    · exact ⟨last, hlast, (le_later_right through _).trans hle⟩

theorem mem_dropExcess {dropIndexOf : List T → Nat} {excess : Nat} {items : List T} {item : T}
    (h : item ∈ (dropExcess dropIndexOf excess items).1 ∨
      item ∈ (dropExcess dropIndexOf excess items).2) : item ∈ items := by
  induction excess generalizing items with
  | zero =>
    rcases h with hkept | hdropped
    · exact hkept
    · exact absurd hdropped List.not_mem_nil
  | succ excess ih =>
    unfold dropExcess at h
    dsimp only at h
    rcases h with hkept | hdropped
    · exact List.mem_of_mem_eraseIdx (ih (.inl hkept))
    · rcases List.mem_append.mp hdropped with hfirst | hrest
      · exact List.mem_of_getElem? (Option.mem_toList.mp hfirst)
      · exact List.mem_of_mem_eraseIdx (ih (.inr hrest))

/-- A loop over a bucket that keeps the marks. -/
theorem foldl_marks {α : Type} {step : ProjectionBucket T → α → ProjectionBucket T}
    {items : List α}
    (hstep : ∀ {bucket : ProjectionBucket T}, ∀ item ∈ items, Marks policy bound through bucket →
      Marks policy bound through (step bucket item))
    {bucket : ProjectionBucket T} (h : Marks policy bound through bucket) :
    Marks policy bound through (items.foldl step bucket) := by
  induction items generalizing bucket with
  | nil => exact h
  | cons item rest ih =>
    rw [List.foldl_cons]
    obtain ⟨hfirst, hrest⟩ :
        (∀ {bucket}, Marks policy bound through bucket →
          Marks policy bound through (step bucket item)) ∧
        ∀ {bucket}, ∀ item ∈ rest, Marks policy bound through bucket →
          Marks policy bound through (step bucket item) :=
      ⟨fun h => hstep item List.mem_cons_self h,
        fun other hother h => hstep other (List.mem_cons_of_mem item hother) h⟩
    exact ih hrest (hfirst h)

variable [DecidableEq K]

theorem mem_placeItem {items : List T} {x : T} (h : x ∈ placeItem policy items item) :
    x = item ∨ x ∈ items := by
  unfold placeItem at h
  split at h
  · split at h
    · rcases List.mem_append.mp h with hold | hnew
      · exact .inr (List.mem_of_mem_eraseIdx hold)
      · exact .inl (List.mem_singleton.mp hnew)
    · exact (List.mem_or_eq_of_mem_set h).symm
  · rcases List.mem_append.mp h with hold | hnew
    · exact .inr hold
    · exact .inl (List.mem_singleton.mp hnew)

/-- An upsert leaves the items there were, and the one it writes. -/
theorem mem_upsertBounded {x : T} (h : x ∈ (upsertBounded policy bucket item).items) :
    x = item ∨ x ∈ bucket.items :=
  mem_placeItem (mem_dropExcess (.inl h))

/-- **An upsert marks what it evicts.** -/
theorem Marks.upsert (h : Marks policy bound through bucket)
    (hitem : Dated policy bound through item) :
    Marks policy bound through (upsertBounded policy bucket item) := by
  have hdated (x : T) (hx : x = item ∨ x ∈ bucket.items) : Dated policy bound through x := by
    rcases hx with rfl | hold
    · exact hitem
    · exact h.items x hold
  obtain ⟨hbefore, hdropped⟩ := foldl_later policy.sequenceOf
    (dropExcess policy.dropIndexOf
      ((placeItem policy bucket.items item).length - policy.capacity)
      (placeItem policy bucket.items item)).2 bucket.droppedThrough
  refine ⟨fun x hx => hdated x (mem_upsertBounded hx), fun n hn => ?_, fun n hn => ?_⟩
  · rcases List.mem_append.mp hn with hold | hnew
    · exact h.within n hold
    · obtain ⟨x, hx, rfl⟩ := List.mem_map.mp hnew
      exact (hdated x (mem_placeItem (mem_dropExcess (.inr hx)))).within
  · rcases List.mem_append.mp hn with hold | hnew
    · rcases h.marked n hold with hle | ⟨mark, hmark, hle⟩
      · exact .inl hle
      · obtain ⟨last, hlast, hmarks⟩ := hbefore mark hmark
        exact .inr ⟨last, hlast, hle.trans hmarks⟩
    · obtain ⟨x, hx, rfl⟩ := List.mem_map.mp hnew
      rcases (hdated x (mem_placeItem (mem_dropExcess (.inr hx)))).dated with hle | hle
      · exact .inl hle
      · obtain ⟨last, hlast, hmarks⟩ := hdropped x hx
        exact .inr ⟨last, hlast, hle.trans hmarks⟩

end Bucket

/-! ## All buckets -/

/-- No bucket has lost what was changed after its mark and after `bound`. -/
structure Marked (bound through : Nat) (projection : LiveProjection) : Prop where
  spans : Marks spanPolicy bound through projection.spans
  messages : Marks messagePolicy bound through projection.messages
  counters : Marks counterPolicy bound through projection.counters
  contextUsage : Marks contextUsagePolicy bound through projection.contextUsage
  actUsage : Marks actUsagePolicy bound through projection.actUsage
  tools : Marks toolPolicy bound through projection.tools
  results : Marks resultPolicy bound through projection.results
  gaps : Marks gapPolicy bound through projection.gaps.toProjectionBucket

/-- An event starts a span the bucket holds the finish of. -/
def startsFinished (bucket : ProjectionBucket ProjectedSpan) : DiagnosticEvent → Bool
  | .spanStarted event =>
    ((findSpan bucket event.header.sequence.get).bind ProjectedSpan.finish).isSome
  | .customSpanStarted event =>
    ((findSpan bucket event.header.sequence.get).bind ProjectedSpan.finish).isSome
  | _ => false

/-- An event is a delta that `projectMessage` applies, and the text of its message is then cut. -/
def shortensMessage (bucket : ProjectionBucket ProjectedMessage) : DiagnosticEvent → Bool
  | .agentMessageDelta event =>
    let existing := findMessage bucket event.messageId
    !existing.any (invalidMessageIdentity · event.header.scope event.sourceMessageId) &&
      !(existing.bind ProjectedMessage.completion).isSome &&
      messageTextCodeUnitCapacity < (deltaText existing event).length
  | _ => false

section Projections

variable {bound through : Nat} {projection : LiveProjection}

theorem Marked.mono {bound' through' : Nat}
    (h : Marked bound through projection) (hbound : bound ≤ bound') (hthrough : through ≤ through') :
    Marked bound' through' projection where
  spans := h.spans.mono hbound hthrough
  messages := h.messages.mono hbound hthrough
  counters := h.counters.mono hbound hthrough
  contextUsage := h.contextUsage.mono hbound hthrough
  actUsage := h.actUsage.mono hbound hthrough
  tools := h.tools.mono hbound hthrough
  results := h.results.mono hbound hthrough
  gaps := h.gaps.mono hbound hthrough

/-! ### Spans -/

section Spans

variable {spans : ProjectionBucket ProjectedSpan} {finish : SpanFinishEvent}

/-- A span whose start came before its finish is dated by its finish. -/
theorem spanChangedThrough_le {start : Option SpanStartEvent}
    (h : ∀ first, start = some first → first.header.sequence.get ≤ finish.header.sequence.get)
    (spanId : Nat) :
    spanChangedThrough ⟨spanId, start, some finish⟩ = finish.header.sequence.get := by
  cases start with
  | none => simp [spanChangedThrough]
  | some first => simpa [spanChangedThrough] using h first rfl

/-- What a start that was held is in the bucket for. -/
theorem findSpan_start {spanId : Nat} {start : SpanStartEvent}
    (h : (findSpan spans spanId).bind ProjectedSpan.start = some start) :
    ∃ span ∈ spans.items, span.start = some start := by
  obtain ⟨span, hspan, hsome⟩ := Option.bind_eq_some_iff.mp h
  exact ⟨span, List.mem_of_find?_eq_some hspan, hsome⟩

theorem findSpan_finish {spanId : Nat}
    (h : (findSpan spans spanId).bind ProjectedSpan.finish = some finish) :
    ∃ span ∈ spans.items, span.finish = some finish := by
  obtain ⟨span, hspan, hsome⟩ := Option.bind_eq_some_iff.mp h
  exact ⟨span, List.mem_of_find?_eq_some hspan, hsome⟩

theorem Marks.started (h : Marks spanPolicy bound through spans) {span : ProjectedSpan}
    (hspan : span ∈ spans.items) {start : SpanStartEvent} (hstart : span.start = some start) :
    start.header.sequence.get ≤ through := by
  have hwithin : spanChangedThrough span ≤ through := (h.items span hspan).within
  simp only [spanChangedThrough, hstart, Option.map_some, Option.getD_some] at hwithin
  omega

theorem Marks.finished (h : Marks spanPolicy bound through spans) {span : ProjectedSpan}
    (hspan : span ∈ spans.items) (hfinish : span.finish = some finish) :
    finish.header.sequence.get ≤ through := by
  have hwithin : spanChangedThrough span ≤ through := (h.items span hspan).within
  simp only [spanChangedThrough, hfinish, Option.map_some, Option.getD_some] at hwithin
  omega

theorem projectSpanStart_marks (h : Marks spanPolicy bound through spans) {start : SpanStartEvent}
    (hstarted : start.header.sequence.get ≤ through)
    (hclean : start.header.sequence.get ≤ bound ∨
      ((findSpan spans start.header.sequence.get).bind ProjectedSpan.finish).isSome = false) :
    Marks spanPolicy bound through (projectSpanStart spans start) := by
  refine Marks.refresh (h.upsert ?_) _
  rcases hfinish : (findSpan spans start.header.sequence.get).bind ProjectedSpan.finish with
    _ | finish
  · exact ⟨by simpa [spanPolicy, spanChangedThrough] using hstarted,
      .inr (by simp [spanPolicy, spanChangedThrough, spanSequence])⟩
  · obtain ⟨span, hspan, hsome⟩ := findSpan_finish hfinish
    have hfinished := h.finished hspan hsome
    refine ⟨by simpa [spanPolicy, spanChangedThrough] using ⟨hstarted, hfinished⟩, ?_⟩
    rw [hfinish] at hclean
    rcases hclean with hle | hnone
    · by_cases hafter : start.header.sequence.get ≤ finish.header.sequence.get
      · exact .inr (by simp [spanPolicy, spanChangedThrough, spanSequence, hafter])
      · refine .inl ?_
        simp only [spanPolicy, spanChangedThrough, Option.map_some, Option.getD_some]
        omega
    · cases hnone

theorem projectSpanFinish_marks (h : Marks spanPolicy bound through spans) {spanId : Nat}
    (hfinished : finish.header.sequence.get ≤ through)
    (hafter : ∀ span ∈ spans.items, ∀ start, span.start = some start →
      start.header.sequence.get ≤ finish.header.sequence.get) :
    Marks spanPolicy bound through (projectSpanFinish spans spanId finish) := by
  have hstarts : ∀ first, (findSpan spans spanId).bind ProjectedSpan.start = some first →
      first.header.sequence.get ≤ finish.header.sequence.get := by
    intro first hfirst
    obtain ⟨span, hspan, hstart⟩ := findSpan_start hfirst
    exact hafter span hspan first hstart
  have hchanged := spanChangedThrough_le hstarts spanId
  refine Marks.refresh (h.upsert ⟨?_, .inr ?_⟩) _
  · exact hchanged.trans_le hfinished
  · exact hchanged.le

theorem projectSpan_marks (h : Marks spanPolicy bound through spans) {event : DiagnosticEvent}
    (hthrough : event.sequence.get ≤ through)
    (hafter : ∀ span ∈ spans.items, ∀ start, span.start = some start →
      start.header.sequence.get ≤ event.sequence.get)
    (hclean : event.sequence.get ≤ bound ∨ startsFinished spans event = false) :
    Marks spanPolicy bound through (projectSpan spans event) := by
  cases event with
  | spanStarted event => exact projectSpanStart_marks h hthrough hclean
  | customSpanStarted event => exact projectSpanStart_marks h hthrough hclean
  | spanFinished event => exact projectSpanFinish_marks h hthrough hafter
  | customSpanFinished event => exact projectSpanFinish_marks h hthrough hafter
  | _ => exact h

end Spans

/-! ### Messages -/

variable {messages : ProjectionBucket ProjectedMessage}

theorem trimMessageText_snd (text : List UInt16) :
    (trimMessageText text).2 = true ↔ messageTextCodeUnitCapacity < text.length := by
  unfold trimMessageText
  split
  · rename_i hfits
    exact iff_of_false Bool.false_ne_true (Nat.not_lt.mpr hfits)
  · rename_i hlong
    exact iff_of_true rfl (Nat.not_le.mp hlong)

theorem projectMessage_marks (h : Marks messagePolicy bound through messages)
    {event : DiagnosticEvent} (hthrough : event.sequence.get ≤ through)
    (hclean : event.sequence.get ≤ bound ∨ shortensMessage messages event = false) :
    Marks messagePolicy bound through (projectMessage messages event) := by
  have hexact : Exact messagePolicy := fun _ => rfl
  cases event with
  | agentMessageDelta event =>
    rw [projectMessage]
    split
    · exact h.refresh true
    split
    · exact h.refresh true
    rename_i hidentity hopen
    refine Marks.refresh
      ((h.upsert (hexact.dated ?_)).append (fun n hn => ?_) fun n hn => ?_) _
    · exact hthrough
    · split at hn
      · rw [List.mem_singleton.mp hn]
        exact hthrough
      · exact absurd hn List.not_mem_nil
    · split at hn
      · rename_i hcut
        rw [List.mem_singleton.mp hn]
        rcases hclean with hle | hwhole
        · exact .inl hle
        · have hlong := (trimMessageText_snd _).mp hcut
          simp [shortensMessage, hidentity, hopen, hlong] at hwhole
      · exact absurd hn List.not_mem_nil
  | agentMessageCompleted event =>
    rw [projectMessage]
    split
    · exact h.refresh true
    · refine Marks.refresh (h.upsert (hexact.dated ?_)) _
      exact hthrough
  | _ => exact h

/-! ### The other buckets -/

section Others

variable {event : DiagnosticEvent}

theorem projectSample_marks {counters : ProjectionBucket ProjectedCounter}
    (h : Marks counterPolicy bound through counters) {event : CounterEvent}
    (hthrough : event.header.sequence.get ≤ through) :
    Marks counterPolicy bound through (projectSample counters event) := by
  have hexact : Exact counterPolicy := fun _ => rfl
  refine Marks.refresh (h.upsert (hexact.dated ?_)) _
  exact hthrough

theorem projectCounter_marks {counters : ProjectionBucket ProjectedCounter}
    (h : Marks counterPolicy bound through counters) (hthrough : event.sequence.get ≤ through) :
    Marks counterPolicy bound through (projectCounter counters event) := by
  cases event with
  | counterSampled event => exact projectSample_marks h hthrough
  | customCounterSampled event => exact projectSample_marks h hthrough
  | _ => exact h

theorem projectContextSample_marks {usages : ProjectionBucket ProjectedContextUsage}
    (h : Marks contextUsagePolicy bound through usages) {event : ContextUsageSampled}
    (hthrough : event.header.sequence.get ≤ through) :
    Marks contextUsagePolicy bound through (projectContextSample usages event) := by
  have hexact : Exact contextUsagePolicy := fun _ => rfl
  exact h.upsert (hexact.dated hthrough)

theorem projectContextUsage_marks {usages : ProjectionBucket ProjectedContextUsage}
    (h : Marks contextUsagePolicy bound through usages)
    (hthrough : event.sequence.get ≤ through) :
    Marks contextUsagePolicy bound through (projectContextUsage usages event) := by
  cases event with
  | contextUsageSampled event => exact projectContextSample_marks h hthrough
  | _ => exact h

theorem projectActUsage_marks {usages : ProjectionBucket ProjectedActUsage}
    (h : Marks actUsagePolicy bound through usages) (hthrough : event.sequence.get ≤ through) :
    Marks actUsagePolicy bound through (projectActUsage usages event) := by
  have hexact : Exact actUsagePolicy := fun _ => rfl
  cases event with
  | actTokenUsageFinalized event =>
    refine Marks.refresh (h.upsert (hexact.dated ?_)) _
    exact hthrough
  | _ => exact h

theorem appendToolFact_marks {tools : ProjectionBucket ProjectedToolFact}
    (h : Marks toolPolicy bound through tools) {fact : ProjectedToolFact}
    (hthrough : fact.sequence ≤ through) :
    Marks toolPolicy bound through (appendToolFact tools fact) := by
  have hexact : Exact toolPolicy := fun _ => rfl
  refine Marks.refresh (h.upsert (hexact.dated ?_)) _
  exact hthrough

theorem projectTool_marks {tools : ProjectionBucket ProjectedToolFact}
    (h : Marks toolPolicy bound through tools) (inventory : ProjectionBucket ProjectedSpan)
    (hthrough : event.sequence.get ≤ through) :
    Marks toolPolicy bound through (projectTool tools inventory event) := by
  cases event with
  | spanStarted event =>
    rw [projectTool]
    split
    · exact appendToolFact_marks h hthrough
    · exact h
  | instantOccurred event =>
    rw [projectTool]
    split
    · exact appendToolFact_marks h hthrough
    · exact h
  | spanFinished event =>
    rw [projectTool, projectToolFinish]
    split
    · exact h.refresh _
    · exact Marks.refresh (appendToolFact_marks h hthrough) _
  | _ => exact h

theorem projectResult_marks {results : ProjectionBucket ProjectedResultFact}
    (h : Marks resultPolicy bound through results) (hthrough : event.sequence.get ≤ through) :
    Marks resultPolicy bound through (projectResult results event) := by
  have hexact : Exact resultPolicy := fun _ => rfl
  cases event with
  | instantOccurred event =>
    rw [projectResult]
    split
    · exact h
    · exact h.upsert (hexact.dated hthrough)
  | _ => exact h

theorem projectGap_marks {gaps : GapProjection}
    (h : Marks gapPolicy bound through gaps.toProjectionBucket)
    (hthrough : event.sequence.get ≤ through) :
    Marks gapPolicy bound through (projectGap gaps event).toProjectionBucket := by
  have hexact : Exact gapPolicy := fun _ => rfl
  cases event with
  | observationGap event => exact h.upsert (hexact.dated hthrough)
  | _ => exact h

end Others

/-- An event leaves a mark for what it makes the buckets lose, up to what happens to spans and
messages. -/
theorem projectEvent_buckets (h : Marked bound through projection)
    {event : DiagnosticEvent} (hthrough : event.sequence.get ≤ through)
    (hspans : Marks spanPolicy bound through (projectSpan projection.spans event))
    (hmessages : Marks messagePolicy bound through (projectMessage projection.messages event)) :
    Marked bound through (projectEvent projection event) where
  spans := hspans.refresh _
  messages := hmessages.refresh _
  counters := (projectCounter_marks h.counters hthrough).refresh _
  contextUsage := (projectContextUsage_marks h.contextUsage hthrough).refresh _
  actUsage := (projectActUsage_marks h.actUsage hthrough).refresh _
  tools := (projectTool_marks h.tools _ hthrough).refresh _
  results := (projectResult_marks h.results hthrough).refresh _
  gaps := projectGap_marks h.gaps hthrough

/-- **One event.** It keeps the marks, but for the text it shortens and the finished span it starts,
when these come after `bound`. -/
theorem projectEvent_marked (h : Marked bound through projection)
    {event : DiagnosticEvent} (hnext : through ≤ event.sequence.get)
    (hclean : event.sequence.get ≤ bound ∨
      (startsFinished projection.spans event = false ∧
        shortensMessage projection.messages event = false)) :
    Marked bound event.sequence.get (projectEvent projection event) := by
  have hafter := h.mono le_rfl hnext
  refine projectEvent_buckets hafter le_rfl
    (projectSpan_marks hafter.spans le_rfl (fun span hspan start hstart => ?_) ?_)
    (projectMessage_marks hafter.messages le_rfl ?_)
  · exact hafter.spans.started hspan hstart
  · exact hclean.imp_right And.left
  · exact hclean.imp_right And.right

end Projections

/-! ## Snapshots -/

section Hydration

variable {bound through : Nat}

theorem emptyProjection_marked {baseThrough : Nat} :
    Marked bound through (createLiveProjection baseThrough) where
  spans := emptyBucket_marks
  messages := emptyBucket_marks
  counters := emptyBucket_marks
  contextUsage := emptyBucket_marks
  actUsage := emptyBucket_marks
  tools := emptyBucket_marks
  results := emptyBucket_marks
  gaps := emptyBucket_marks

theorem snapshotSpanStart_sequence (row : ProjectedSpanSnapshot) :
    (snapshotSpanStart row).header.sequence = row.spanId := by
  unfold snapshotSpanStart
  dsimp only
  split
  · rfl
  · rfl

theorem snapshotSpanFinish_sequence {row : ProjectedSpanSnapshot} {finish : SpanFinishEvent}
    (h : snapshotSpanFinish row = some finish) :
    ∃ completion, row.completion = some completion ∧
      finish.header.sequence = completion.finishSequence := by
  unfold snapshotSpanFinish at h
  split at h
  · cases h
  rename_i completion hcompletion
  dsimp only at h
  split at h
  · cases h
    exact ⟨completion, hcompletion, rfl⟩
  · cases h
    exact ⟨completion, hcompletion, rfl⟩

/-- The finish of a row comes after its start. -/
theorem materializedSpan_dated {row : ProjectedSpanSnapshot} (hstarted : row.spanId.get ≤ through)
    (hfinished : ∀ finish, row.completion = some finish → finish.finishSequence.get ≤ through) :
    Dated spanPolicy bound through (materializedSpan row) := by
  have hstart := snapshotSpanStart_sequence row
  cases hfinish : snapshotSpanFinish row with
  | none =>
    constructor
    · simpa [spanPolicy, spanChangedThrough, materializedSpan, hfinish, hstart] using hstarted
    · simp [spanPolicy, spanChangedThrough, spanSequence, materializedSpan, hfinish, hstart]
  | some finish =>
    obtain ⟨completion, hcompletion, hsequence⟩ := snapshotSpanFinish_sequence hfinish
    have hafter : row.spanId.get ≤ completion.finishSequence.get :=
      (row.finish_after completion hcompletion).le
    constructor
    · simpa [spanPolicy, spanChangedThrough, materializedSpan, hfinish, hstart, hsequence] using
        ⟨hstarted, hfinished completion hcompletion⟩
    · simp [spanPolicy, spanChangedThrough, spanSequence, materializedSpan, hfinish, hstart,
        hsequence, hafter]

/-- A row whose text is cut gets a mark at its last change. -/
theorem hydrateMessage_marks {truncations : List SnapshotTruncation}
    {messages : ProjectionBucket ProjectedMessage} {row : ProjectedMessageSnapshot}
    (hrow : row.latestSequence ≤ through) (h : Marks messagePolicy bound through messages) :
    Marks messagePolicy bound through (hydrateMessage truncations messages row) := by
  have hexact : Exact messagePolicy := fun _ => rfl
  unfold hydrateMessage
  split
  rename_i message cut hmade
  have hmessage : message.latestSequence = row.latestSequence :=
    (congrArg (fun result => result.1.latestSequence) hmade).symm
  have hupdated := h.upsert (hexact.dated (hmessage.trans_le hrow))
  dsimp only
  split
  swap
  · exact hupdated
  have hcut {n : Nat} (hn : n ∈ if cut then [row.latestSequence] else []) :
      n = row.latestSequence := by
    split at hn
    · exact List.mem_singleton.mp hn
    · exact absurd hn List.not_mem_nil
  have hlatest : (message.completion.map fun completion => completion.header.sequence.get).getD
      row.latestSequence = row.latestSequence := by
    have hcompletion : message.completion = snapshotMessageCompletion row :=
      (congrArg (fun result => result.1.completion) hmade).symm
    rw [hcompletion, snapshotMessageCompletion]
    cases hlast : row.completion with
    | none => rfl
    | some last => exact row.completed_latest last hlast
  refine (hupdated.dropped _).append (fun n hn => ?_) fun n hn => .inr ⟨_, rfl, ?_⟩
  · rw [hcut hn]
    exact hrow
  · rw [hcut hn, hlatest]
    exact le_later_right _ _

theorem snapshotCounterEvent_sequence {row : ProjectedCounterSnapshot} {event : CounterEvent}
    (h : snapshotCounterEvent row = .ok event) : event.header.sequence = row.sequence := by
  unfold snapshotCounterEvent at h
  split at h
  · cases h
    rfl
  · cases h
  · cases h
  · cases h
    rfl

theorem foldlM_hydrateCounter {rows : List ProjectedCounterSnapshot}
    (hrows : ∀ row ∈ rows, row.sequence.get ≤ through)
    {counters counters' : ProjectionBucket ProjectedCounter}
    (h : Marks counterPolicy bound through counters)
    (hhydrated : rows.foldlM hydrateCounter counters = .ok counters') :
    Marks counterPolicy bound through counters' := by
  induction rows generalizing counters with
  | nil =>
    cases hhydrated
    exact h
  | cons row rest ih =>
    obtain ⟨hrow, hrest⟩ := List.forall_mem_cons.mp hrows
    rw [List.foldlM_cons] at hhydrated
    obtain ⟨middle, hmiddle, hlast⟩ := bind_eq_ok.mp hhydrated
    obtain ⟨event, hevent, hsample⟩ := bind_eq_ok.mp hmiddle
    cases hsample
    rw [← snapshotCounterEvent_sequence hevent] at hrow
    exact ih hrest (projectSample_marks h hrow) hlast

theorem foldl_gaps {projection : LiveProjection} {gaps : List ObservationGap}
    (hgaps : ∀ gap ∈ gaps, gap.header.sequence.get ≤ through)
    (h : Marked bound through projection) :
    Marked bound through
      (gaps.foldl (fun projection gap => projectEvent projection (.observationGap gap)) projection)
    := by
  induction gaps generalizing projection with
  | nil => exact h
  | cons gap rest ih =>
    obtain ⟨hgap, hrest⟩ := List.forall_mem_cons.mp hgaps
    exact ih hrest (projectEvent_buckets h hgap h.spans h.messages)

/-- The events `hydrateSnapshotSpans` makes of the rows are within the snapshot. -/
theorem materialized_within {rows : List ProjectedSpanSnapshot}
    (hrows : ∀ row ∈ rows, row.spanId.get ≤ through ∧
      ∀ finish, row.completion = some finish → finish.finishSequence.get ≤ through)
    {event : DiagnosticEvent}
    (hevent : event ∈ (rows.map materializedSpan).flatMap ProjectedSpan.events) :
    event.sequence.get ≤ through := by
  obtain ⟨span, hspan, hmem⟩ := List.mem_flatMap.mp hevent
  obtain ⟨row, hrow, rfl⟩ := List.mem_map.mp hspan
  obtain ⟨hstarted, hfinished⟩ := hrows row hrow
  rcases List.mem_append.mp hmem with hstart | hfinish
  · have hstart : event = (snapshotSpanStart row).event := by
      simpa [materializedSpan] using hstart
    have hsequence : event.sequence = (snapshotSpanStart row).header.sequence := by
      rw [hstart]
      cases snapshotSpanStart row <;> rfl
    rw [hsequence, snapshotSpanStart_sequence]
    exact hstarted
  · obtain ⟨finish, hfound, rfl⟩ : ∃ finish, snapshotSpanFinish row = some finish ∧
        finish.event = event := by
      simpa [materializedSpan] using hfinish
    obtain ⟨completion, hcompletion, hsequence⟩ := snapshotSpanFinish_sequence hfound
    have hheader : finish.event.sequence = finish.header.sequence := by
      cases finish <;> rfl
    rw [hheader, hsequence]
    exact hfinished completion hcompletion

/-- **A snapshot leaves marks for what its projection does not hold.** -/
theorem hydrateSnapshotProjection_marked {snapshot : SnapshotResponse}
    {suffixEvents : List DiagnosticEvent} {projection : LiveProjection}
    (hsuffix : ∀ event ∈ suffixEvents, event.sequence.get ≤ snapshot.watermarkSequence)
    (h : hydrateSnapshotProjection snapshot suffixEvents = .ok projection) :
    Marked bound snapshot.watermarkSequence projection := by
  unfold hydrateSnapshotProjection at h
  dsimp only at h
  obtain ⟨counters, hcounters, hprojection⟩ := bind_eq_ok.mp h
  cases hprojection
  have hempty : Marked bound snapshot.watermarkSequence
      (createLiveProjection snapshot.watermarkSequence) := emptyProjection_marked
  have hinstants : ∀ event ∈ suffixEvents.filter isInstant,
      event.sequence.get ≤ snapshot.watermarkSequence :=
    fun event hevent => hsuffix event (List.mem_filter.mp hevent).1
  refine foldl_gaps snapshot.gaps_within ?_
  constructor
  · refine foldl_marks (fun span hspan hspans => hspans.upsert ?_) hempty.spans
    obtain ⟨row, hrow, rfl⟩ := List.mem_map.mp hspan
    obtain ⟨hstarted, hfinished⟩ := snapshot.spans_within row hrow
    exact materializedSpan_dated hstarted hfinished
  · refine foldl_marks (fun row hrow hmessages => hydrateMessage_marks ?_ hmessages) hempty.messages
    exact snapshot.messages_within row (List.mem_mergeSort.mp hrow)
  · refine foldlM_hydrateCounter (fun row hrow => ?_) hempty.counters hcounters
    exact snapshot.counters_within row (List.mem_mergeSort.mp hrow)
  · refine foldl_marks (fun event hevent husage => projectContextSample_marks husage ?_)
      hempty.contextUsage
    exact snapshot.contexts_within event (List.mem_mergeSort.mp hevent)
  · exact hempty.actUsage
  · refine foldl_marks (fun event hevent htools => projectTool_marks htools _ ?_) hempty.tools
    rcases List.mem_append.mp (List.mem_mergeSort.mp hevent) with hspan | hinstant
    · exact materialized_within snapshot.spans_within hspan
    · exact hinstants event hinstant
  · exact foldl_marks (fun event hevent hresults =>
      projectResult_marks hresults (hinstants event hevent)) hempty.results
  · exact hempty.gaps

end Hydration

end Troupe.Web.State
