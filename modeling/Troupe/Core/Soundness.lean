import Mathlib.Data.List.Induction
import Mathlib.Data.List.Nodup
import Mathlib.Logic.Relation
import Troupe.Core.Validate

/-! # Structure of an accepted stream

The validator looks at one event and one level of nesting at a time. This module proves what that
adds up to over a whole stream.

* `feed` offers a list of events to a validator and keeps the accepted ones; rejected events may
  stand anywhere between them.
* `Tracks` ties the validator's maps to the events accepted so far, and `Sound` collects the
  one-level facts about those events. Each is kept by an accepting call (`tracks_append`,
  `sound_append`).
* `StreamSound` is the transitive statement: nesting through any number of parent links, and the
  causal graph as a whole.

Results: **`feed_sound`** (one-level facts of every accepted stream) and **`stream_sound`**. -/

namespace Troupe.Core

open Troupe.Lib

/-! ## Offering a stream -/

/-- Offer events in turn. Returns the accepted ones, in order, and the state at the end. -/
def ReferenceValidator.feed (validator : ReferenceValidator) :
    List DiagnosticEvent → List DiagnosticEvent × ReferenceValidator
  | [] => ([], validator)
  | event :: rest =>
    match validator.validate event with
    | (.ok _, validator') => (event :: (validator'.feed rest).1, (validator'.feed rest).2)
    | (.error _, validator') => validator'.feed rest

/-- Offer events in turn, up to the first that is rejected. -/
def ReferenceValidator.acceptAll (validator : ReferenceValidator) (events : List DiagnosticEvent) :
    Except (Fault ReferenceValidationError) ReferenceValidator :=
  events.foldlM (fun validator event =>
    match validator.validate event with
    | (.ok _, validator') => .ok validator'
    | (.error fault, _) => .error fault) validator

/-- Sequences grow along the list. -/
abbrev Increasing (events : List DiagnosticEvent) : Prop :=
  events.Pairwise (·.sequence < ·.sequence)

namespace DiagnosticEvent

variable {spanId : SchemaU64} {event : DiagnosticEvent}

/-- The event starts a span, whose id is the event's sequence. -/
def Starts (event : DiagnosticEvent) : Prop :=
  ∃ family kind parentSpanId, event.role = .starts family kind parentSpanId

/-- The event starts a span whose parent is `spanId`. -/
def StartsChild (event : DiagnosticEvent) (spanId : SchemaU64) : Prop :=
  ∃ family kind, event.role = .starts family kind (some spanId)

/-- The event finishes the span `spanId`. -/
def Finishes (event : DiagnosticEvent) (spanId : SchemaU64) : Prop :=
  ∃ family, event.role = .finishes family spanId

/-- The event is an instant contained in the span `spanId`. -/
def OccursIn (event : DiagnosticEvent) (spanId : SchemaU64) : Prop :=
  event.role = .occurs (some spanId)

/-- The event names `spanId` as its parent or containing span. -/
def Inside (event : DiagnosticEvent) (spanId : SchemaU64) : Prop :=
  event.StartsChild spanId ∨ event.OccursIn spanId

theorem StartsChild.starts
    (h : event.StartsChild spanId) : event.Starts := by
  obtain ⟨family, kind, h⟩ := h
  exact ⟨family, kind, some spanId, h⟩

theorem Starts.not_finishes (h : event.Starts) :
    ¬event.Finishes spanId := by
  rintro ⟨family, hf⟩
  obtain ⟨family', kind, parent, h⟩ := h
  rw [hf] at h
  cases h

theorem Starts.not_occursIn (h : event.Starts) :
    ¬event.OccursIn spanId := by
  intro ho
  obtain ⟨family, kind, parent, h⟩ := h
  rw [ho] at h
  cases h

theorem OccursIn.not_finishes {spanId id : SchemaU64}
    (h : event.OccursIn spanId) : ¬event.Finishes id := by
  rintro ⟨family, hf⟩
  rw [OccursIn, hf] at h
  cases h

/-- `event` lies at or after the start of the span `span` starts, in its scope. -/
structure EnclosedBy (event span : DiagnosticEvent) : Prop where
  sequence : span.sequence < event.sequence
  elapsed : span.elapsedNs ≤ event.elapsedNs
  scope : scopeContains span.scope event.scope = true

theorem EnclosedBy.trans {a b c : DiagnosticEvent} (hab : a.EnclosedBy b) (hbc : b.EnclosedBy c) :
    a.EnclosedBy c where
  sequence := Nat.lt_trans hbc.sequence hab.sequence
  elapsed := Nat.le_trans hbc.elapsed hab.elapsed
  scope := scopeContains_trans hbc.scope hab.scope

end DiagnosticEvent

/-! ## What the validator knows about the accepted events -/

/-- `record` summarises the span `spanId` of the accepted events. -/
structure Describes (accepted : List DiagnosticEvent) (spanId : SchemaU64) (record : SpanRecord) :
    Prop where
  started : ∃ start ∈ accepted, start.sequence = spanId ∧
    start.role = .starts record.family record.builtInSpanKind record.parentSpanId ∧
    start.scope = record.scope ∧ start.elapsedNs = record.startedAt
  finished : ∀ finish ∈ accepted, finish.Finishes spanId →
    record.finishedAt = some finish.elapsedNs
  finishedBy : ∀ at_ ∈ record.finishedAt, ∃ finish ∈ accepted,
    finish.Finishes spanId ∧ finish.elapsedNs = at_
  contained : ∀ event ∈ accepted, event.OccursIn spanId →
    ∃ at_ ∈ record.latestContainedAt, event.elapsedNs ≤ at_

/-- The validator's state after accepting exactly `accepted`. -/
structure Tracks (accepted : List DiagnosticEvent) (validator : ReferenceValidator) : Prop where
  sequences : ∀ s, s ∈ validator.eventSequences ↔ ∃ event ∈ accepted, event.sequence = s
  spans : ∀ (id : SchemaU64) (record : SpanRecord), validator.spans[id]? = some record →
    Describes accepted id record
  starts : ∀ event ∈ accepted, event.Starts →
    ∃ record : SpanRecord, validator.spans[event.sequence]? = some record
  refers : ∀ event ∈ accepted, ∀ id, event.Finishes id ∨ event.OccursIn id →
    id ∈ validator.eventSequences

theorem tracks_new : Tracks [] .new where
  sequences s := by simp [ReferenceValidator.new]
  spans id record h := by simp [ReferenceValidator.new] at h
  starts := by simp
  refers := by simp

section Append

variable {accepted : List DiagnosticEvent} {validator validator' : ReferenceValidator}
  {event : DiagnosticEvent} {spanId : SchemaU64} {record : SpanRecord}

/-- An event that neither finishes nor occurs in a span leaves the span's description alone. -/
theorem Describes.append {id : SchemaU64} (h : Describes accepted id record)
    (hfinishes : ¬event.Finishes id) (hoccurs : ¬event.OccursIn id) :
    Describes (accepted ++ [event]) id record := by
  obtain ⟨⟨start, hstart, hrest⟩, hfinished, hfinishedBy, hcontained⟩ := h
  refine ⟨⟨start, List.mem_append_left _ hstart, hrest⟩, ?_, ?_, ?_⟩
  · intro finish hmem hfin
    rcases List.mem_append.mp hmem with hmem | hmem
    · exact hfinished finish hmem hfin
    · rw [List.mem_singleton.mp hmem] at hfin
      exact absurd hfin hfinishes
  · intro at_ hat
    obtain ⟨finish, hmem, hfin⟩ := hfinishedBy at_ hat
    exact ⟨finish, List.mem_append_left _ hmem, hfin⟩
  · intro inner hmem hocc
    rcases List.mem_append.mp hmem with hmem | hmem
    · exact hcontained inner hmem hocc
    · rw [List.mem_singleton.mp hmem] at hocc
      exact absurd hocc hoccurs

theorem mem_record {s : SchemaU64} : s ∈ (validator.record event).eventSequences ↔
    s = event.sequence ∨ s ∈ validator.eventSequences := by
  unfold ReferenceValidator.record
  rw [Std.ExtTreeSet.mem_insert, Std.LawfulEqOrd.compare_eq_iff_eq]
  exact or_congr_left eq_comm

theorem getElem?_insert_span {spans : Std.ExtTreeMap SchemaU64 SpanRecord} {id key : SchemaU64}
    :
    (spans.insert key record)[id]? = if key = id then some record else spans[id]? := by
  rw [Std.ExtTreeMap.getElem?_insert]
  simp only [Std.LawfulEqOrd.compare_eq_iff_eq]

/-- Replacing the record of a known span keeps the other spans and forgets none. -/
theorem starts_insert
    (h : ∃ found : SpanRecord, validator.spans[event.sequence]? = some found) :
    ∃ found : SpanRecord, (validator.spans.insert spanId record)[event.sequence]? = some found := by
  rw [getElem?_insert_span]
  split
  · exact ⟨record, rfl⟩
  · exact h

theorem tracks_sequences (h : Tracks accepted validator) (s : SchemaU64) :
    s ∈ (validator.record event).eventSequences ↔
      ∃ other ∈ accepted ++ [event], other.sequence = s := by
  rw [mem_record, h.sequences]
  simp only [List.mem_append, List.mem_singleton, or_and_right, exists_or, exists_eq_left]
  rw [or_comm, eq_comm]

theorem tracks_refers (h : Tracks accepted validator)
    (hevent : ∀ id, event.Finishes id ∨ event.OccursIn id → id ∈ validator.eventSequences) :
    ∀ other ∈ accepted ++ [event], ∀ id, other.Finishes id ∨ other.OccursIn id →
      id ∈ (validator.record event).eventSequences := by
  intro other hmem id hid
  rw [mem_record]
  right
  rcases List.mem_append.mp hmem with hmem | hmem
  · exact h.refers other hmem id hid
  · rw [List.mem_singleton.mp hmem] at hid
    exact hevent id hid

theorem Tracks.known (h : Tracks accepted validator) {id : SchemaU64}
    (hrecord : validator.spans[id]? = some record) : id ∈ validator.eventSequences := by
  obtain ⟨start, hmem, hseq, -⟩ := (h.spans id record hrecord).started
  exact (h.sequences id).mpr ⟨start, hmem, hseq⟩

/-- A record that keeps its start and gains what `event` adds describes the longer stream. -/
theorem Describes.update {id : SchemaU64} {record record' : SpanRecord}
    (h : Describes accepted id record)
    (hsame : (record'.family, record'.builtInSpanKind, record'.parentSpanId, record'.scope,
      record'.startedAt) = (record.family, record.builtInSpanKind, record.parentSpanId,
      record.scope, record.startedAt))
    (hfinished : ∀ finish ∈ accepted ++ [event], finish.Finishes id →
      record'.finishedAt = some finish.elapsedNs)
    (hfinishedBy : ∀ at_ ∈ record'.finishedAt, ∃ finish ∈ accepted ++ [event],
      finish.Finishes id ∧ finish.elapsedNs = at_)
    (hcontained : ∀ inner ∈ accepted ++ [event], inner.OccursIn id →
      ∃ at_ ∈ record'.latestContainedAt, inner.elapsedNs ≤ at_) :
    Describes (accepted ++ [event]) id record' := by
  obtain ⟨⟨start, hstart, hseq, hrole, hscope, helapsed⟩, -⟩ := h
  simp only [Prod.mk.injEq] at hsame
  obtain ⟨hfamily, hkind, hparent, hscope', hstarted'⟩ := hsame
  refine ⟨⟨start, List.mem_append_left _ hstart, hseq, ?_, ?_, ?_⟩, hfinished, hfinishedBy,
    hcontained⟩
  · rw [hfamily, hkind, hparent]; exact hrole
  · rw [hscope']; exact hscope
  · rw [hstarted']; exact helapsed

theorem describes_start (h : Tracks accepted validator) (hfresh : event.sequence ∉
    validator.eventSequences) {family : SpanFamily} {kind : Option SpanKind}
    {parentSpanId : Option SchemaU64} (hrole : event.role = .starts family kind parentSpanId) :
    Describes (accepted ++ [event]) event.sequence
      ⟨family, kind, event.scope, event.elapsedNs, none, none, parentSpanId⟩ := by
  have hstarts : event.Starts := ⟨family, kind, parentSpanId, hrole⟩
  -- The span id is fresh, so nothing accepted before can refer to it.
  have hnone : ∀ other ∈ accepted ++ [event],
      ¬(other.Finishes event.sequence ∨ other.OccursIn event.sequence) := by
    intro other hmem hor
    rcases List.mem_append.mp hmem with hmem | hmem
    · exact hfresh (h.refers other hmem _ hor)
    · rw [List.mem_singleton.mp hmem] at hor
      exact hor.elim hstarts.not_finishes hstarts.not_occursIn
  refine ⟨⟨event, by simp, rfl, hrole, rfl, rfl⟩, ?_, ?_, ?_⟩
  · intro finish hmem hfin
    exact absurd (Or.inl hfin) (hnone finish hmem)
  · simp
  · intro inner hmem hocc
    exact absurd (Or.inr hocc) (hnone inner hmem)

theorem describes_finish {family : SpanFamily} {span : SpanRecord}
    (h : Describes accepted spanId span) (hrole : event.role = .finishes family spanId)
    (hopen : span.finishedAt = none) :
    Describes (accepted ++ [event]) spanId { span with finishedAt := some event.elapsedNs } := by
  refine h.update rfl ?_ ?_ ?_
  · intro finish hmem hfin
    rcases List.mem_append.mp hmem with hmem | hmem
    · have := h.finished finish hmem hfin
      rw [hopen] at this
      cases this
    · rw [List.mem_singleton.mp hmem]
  · rintro at_ ⟨⟩
    exact ⟨event, by simp, ⟨family, hrole⟩, rfl⟩
  · intro inner hmem hocc
    rcases List.mem_append.mp hmem with hmem | hmem
    · exact h.contained inner hmem hocc
    · rw [List.mem_singleton.mp hmem] at hocc
      exact absurd ⟨family, hrole⟩ hocc.not_finishes

theorem describes_within {span : SpanRecord} {latest : ElapsedNs}
    (h : Describes accepted spanId span) (hrole : event.OccursIn spanId)
    (hevent : event.elapsedNs ≤ latest) (hold : ∀ at_ ∈ span.latestContainedAt, at_ ≤ latest) :
    Describes (accepted ++ [event]) spanId { span with latestContainedAt := some latest } := by
  refine h.update rfl ?_ ?_ ?_
  · intro finish hmem hfin
    rcases List.mem_append.mp hmem with hmem | hmem
    · exact h.finished finish hmem hfin
    · rw [List.mem_singleton.mp hmem] at hfin
      exact absurd hfin hrole.not_finishes
  · intro at_ hat
    obtain ⟨finish, hmem, hfin⟩ := h.finishedBy at_ hat
    exact ⟨finish, List.mem_append_left _ hmem, hfin⟩
  · intro inner hmem hocc
    refine ⟨latest, rfl, ?_⟩
    rcases List.mem_append.mp hmem with hmem | hmem
    · obtain ⟨at_, hat, hle⟩ := h.contained inner hmem hocc
      exact Nat.le_trans hle (hold at_ hat)
    · rw [List.mem_singleton.mp hmem]
      exact hevent

/-- An accepting call keeps the validator in step with the stream. -/
theorem tracks_append (h : Tracks accepted validator) (hadmissible : validator.Admissible event)
    (haccepts : validator.Accepts event validator') : Tracks (accepted ++ [event]) validator' := by
  cases haccepts with
  | start family kind parentSpanId role parent =>
    have hstarts : event.Starts := ⟨family, kind, parentSpanId, role⟩
    refine ⟨tracks_sequences h, ?_, ?_, tracks_refers h fun id hid => ?_⟩
    · intro id record hrecord
      rw [getElem?_insert_span] at hrecord
      split at hrecord
      · rename_i heq
        cases hrecord
        exact heq ▸ describes_start h hadmissible.fresh role
      · exact (h.spans id record hrecord).append hstarts.not_finishes hstarts.not_occursIn
    · intro other hmem hother
      rcases List.mem_append.mp hmem with hmem | hmem
      · exact starts_insert (h.starts other hmem hother)
      · rw [List.mem_singleton.mp hmem]
        exact ⟨_, by rw [getElem?_insert_span, if_pos rfl]⟩
    · exact (hid.elim hstarts.not_finishes hstarts.not_occursIn).elim
  | finish family spanId span role earlier found sameFamily isOpen scope started contained children =>
    have hfinishes : event.Finishes spanId := ⟨family, role⟩
    refine ⟨tracks_sequences h, ?_, ?_, tracks_refers h fun id hid => ?_⟩
    · intro id record hrecord
      rw [getElem?_insert_span] at hrecord
      split at hrecord
      · rename_i heq
        cases hrecord
        exact heq ▸ describes_finish (h.spans spanId span found) role isOpen
      · rename_i hne
        refine (h.spans id record hrecord).append ?_ fun hocc => hocc.not_finishes hfinishes
        rintro ⟨family', hrole'⟩
        rw [role] at hrole'
        cases hrole'
        exact hne rfl
    · intro other hmem hother
      rcases List.mem_append.mp hmem with hmem | hmem
      · exact starts_insert (h.starts other hmem hother)
      · rw [List.mem_singleton.mp hmem] at hother
        exact absurd hfinishes hother.not_finishes
    · rcases hid with ⟨family', hid⟩ | hid
      · rw [role] at hid
        cases hid
        exact h.known found
      · exact absurd hfinishes hid.not_finishes
  | within spanId span latest role encloses covers =>
    have hoccurs : event.OccursIn spanId := role
    refine ⟨tracks_sequences h, ?_, ?_, tracks_refers h fun id hid => ?_⟩
    · intro id record hrecord
      rw [getElem?_insert_span] at hrecord
      split at hrecord
      · rename_i heq
        cases hrecord
        exact heq ▸ describes_within (h.spans spanId span encloses.found) hoccurs covers.1 covers.2
      · rename_i hne
        refine (h.spans id record hrecord).append hoccurs.not_finishes fun hocc => hne ?_
        have := hoccurs.symm.trans hocc
        cases this
        rfl
    · intro other hmem hother
      rcases List.mem_append.mp hmem with hmem | hmem
      · exact starts_insert (h.starts other hmem hother)
      · rw [List.mem_singleton.mp hmem] at hother
        exact absurd hoccurs hother.not_occursIn
    · rcases hid with hid | hid
      · exact absurd hid hoccurs.not_finishes
      · have := hoccurs.symm.trans hid
        cases this
        exact h.known encloses.found
  | outside role =>
    have hfinishes : ∀ id, ¬event.Finishes id := by
      rintro id ⟨family, hrole⟩
      rw [role] at hrole
      cases hrole
    have hoccurs : ∀ id, ¬event.OccursIn id := by
      intro id hrole
      rw [DiagnosticEvent.OccursIn, role] at hrole
      cases hrole
    refine ⟨tracks_sequences h, ?_, ?_, tracks_refers h fun id hid => ?_⟩
    · intro id record hrecord
      exact (h.spans id record hrecord).append (hfinishes id) (hoccurs id)
    · intro other hmem hother
      rcases List.mem_append.mp hmem with hmem | hmem
      · exact h.starts other hmem hother
      · rw [List.mem_singleton.mp hmem] at hother
        obtain ⟨family, kind, parent, hrole⟩ := hother
        rw [role] at hrole
        cases hrole
    · exact (hid.elim (hfinishes id) (hoccurs id)).elim

end Append

/-! ## One-level facts -/

/-- What the events of an accepted stream say about their direct references. -/
structure Sound (accepted : List DiagnosticEvent) : Prop where
  finish : ∀ finish ∈ accepted, ∀ family spanId, finish.role = .finishes family spanId →
    ∃ start ∈ accepted, start.sequence = spanId ∧
      (∃ kind parentSpanId, start.role = .starts family kind parentSpanId) ∧
      start.scope = finish.scope ∧ start.sequence < finish.sequence ∧
      start.elapsedNs ≤ finish.elapsedNs
  finishOnce : ∀ finish ∈ accepted, ∀ other ∈ accepted, ∀ spanId,
    finish.Finishes spanId → other.Finishes spanId → finish = other
  inside : ∀ event ∈ accepted, ∀ spanId, event.Inside spanId →
    ∃ span ∈ accepted, span.sequence = spanId ∧ span.Starts ∧ event.EnclosedBy span
  afterChild : ∀ finish ∈ accepted, ∀ child ∈ accepted, ∀ spanId, finish.Finishes spanId →
    child.StartsChild spanId → ∃ childFinish ∈ accepted, childFinish.Finishes child.sequence ∧
      childFinish.sequence < finish.sequence ∧ childFinish.elapsedNs ≤ finish.elapsedNs
  afterInstant : ∀ finish ∈ accepted, ∀ instant ∈ accepted, ∀ spanId, finish.Finishes spanId →
    instant.OccursIn spanId →
    instant.sequence < finish.sequence ∧ instant.elapsedNs ≤ finish.elapsedNs
  links_le : ∀ event ∈ accepted, event.header.causedBy.length ≤ maxCausalLinks
  links : ∀ event ∈ accepted, ∀ link ∈ event.header.causedBy,
    ∃ source ∈ accepted, source.sequence = link.sourceSequence ∧ source.sequence < event.sequence

theorem sound_nil : Sound [] := by
  constructor <;> simp

section SoundAppend

variable {accepted : List DiagnosticEvent} {validator validator' : ReferenceValidator}
  {event : DiagnosticEvent} {spanId : SchemaU64}

/-- In an increasing stream the sequence identifies the event. -/
theorem Increasing.eq_of_sequence_eq {events : List DiagnosticEvent} (h : Increasing events)
    {a b : DiagnosticEvent} (ha : a ∈ events) (hb : b ∈ events) (heq : a.sequence = b.sequence) :
    a = b := by
  have hnodup : (events.map DiagnosticEvent.sequence).Nodup := by
    refine List.pairwise_map.mpr (h.imp fun {x y} hlt heq => ?_)
    rw [SchemaU64.lt_def, heq] at hlt
    exact Nat.lt_irrefl _ hlt
  exact List.inj_on_of_nodup_map hnodup ha hb heq

theorem Increasing.lt_last (h : Increasing (accepted ++ [event])) {other : DiagnosticEvent}
    (hother : other ∈ accepted) : other.sequence < event.sequence :=
  (List.pairwise_append.mp h).2.2 other hother event (List.mem_singleton_self event)

/-- A span the validator would let the event into has no finish among the accepted events. -/
theorem Describes.not_finished {id : SchemaU64} {record : SpanRecord}
    (h : Describes accepted id record) (hopen : record.finishedAt = none)
    {finish : DiagnosticEvent} (hfinish : finish ∈ accepted) : ¬finish.Finishes id := by
  intro hfin
  have := h.finished finish hfinish hfin
  rw [hopen] at this
  cases this

/-- The span an accepted event is placed in: its start, and that it is still open. -/
theorem encloses_start (h : Tracks accepted validator) {span : SpanRecord}
    (hencloses : validator.Encloses event spanId span) :
    (∃ start ∈ accepted, start.sequence = spanId ∧ start.Starts ∧ event.EnclosedBy start) ∧
      ∀ finish ∈ accepted, ¬finish.Finishes spanId := by
  have hdescribes := h.spans spanId span hencloses.found
  obtain ⟨start, hmem, hseq, hrole, hscope, helapsed⟩ := hdescribes.started
  refine ⟨⟨start, hmem, hseq, ⟨_, _, _, hrole⟩, ?_⟩, fun finish hfinish =>
    hdescribes.not_finished hencloses.isOpen hfinish⟩
  refine ⟨hseq ▸ hencloses.earlier, ?_, hscope ▸ hencloses.scope⟩
  rw [helapsed]
  exact hencloses.started

/-- What acceptance says about the event's own span references. -/
theorem accepts_inside (h : Tracks accepted validator)
    (haccepts : validator.Accepts event validator')
    (hinside : event.Inside spanId) :
    (∃ start ∈ accepted, start.sequence = spanId ∧ start.Starts ∧ event.EnclosedBy start) ∧
      ∀ finish ∈ accepted, ¬finish.Finishes spanId := by
  cases haccepts with
  | start family kind parentSpanId role parent =>
    rcases hinside with ⟨family', kind', hrole⟩ | hocc
    · rw [role] at hrole
      cases hrole
      obtain ⟨span, hencloses⟩ := parent spanId rfl
      exact encloses_start h hencloses
    · exact absurd hocc (DiagnosticEvent.Starts.not_occursIn ⟨family, kind, parentSpanId, role⟩)
  | finish family id span role =>
    rcases hinside with hchild | hocc
    · exact absurd ⟨family, role⟩ hchild.starts.not_finishes
    · exact absurd ⟨family, role⟩ hocc.not_finishes
  | within id span latest role encloses covers =>
    rcases hinside with hchild | hocc
    · exact absurd role hchild.starts.not_occursIn
    · have hid := Eq.trans (Eq.symm role) hocc
      cases hid
      exact encloses_start h encloses
  | outside role =>
    rcases hinside with ⟨family', kind', hrole⟩ | hocc
    · rw [role] at hrole
      cases hrole
    · rw [DiagnosticEvent.OccursIn, role] at hocc
      cases hocc

/-- What acceptance of a finish checked. -/
theorem accepts_finishes (haccepts : validator.Accepts event validator') {family : SpanFamily}
    (hrole : event.role = .finishes family spanId) :
    ∃ span, validator.spans[spanId]? = some span ∧ spanId < event.sequence ∧
      span.family = family ∧ span.finishedAt = none ∧ span.scope = event.scope ∧
      span.startedAt ≤ event.elapsedNs ∧
      (∀ at_ ∈ span.latestContainedAt, at_ ≤ event.elapsedNs) ∧
      ∀ (id : SchemaU64) (child : SpanRecord), validator.spans[id]? = some child →
        child.parentSpanId = some spanId → ∃ at_ ∈ child.finishedAt, at_ ≤ event.elapsedNs := by
  cases haccepts with
  | start family' kind parentSpanId role parent => rw [role] at hrole; cases hrole
  | finish family' id span role earlier found sameFamily isOpen scope started contained children =>
    rw [role] at hrole
    cases hrole
    exact ⟨span, found, earlier, sameFamily, isOpen, scope, started, contained, children⟩
  | within id span latest role => rw [role] at hrole; cases hrole
  | outside role => rw [role] at hrole; cases hrole

theorem sound_finish (h : Tracks accepted validator) (hsound : Sound accepted)
    (haccepts : validator.Accepts event validator') :
    ∀ finish ∈ accepted ++ [event], ∀ family spanId, finish.role = .finishes family spanId →
      ∃ start ∈ accepted ++ [event], start.sequence = spanId ∧
        (∃ kind parentSpanId, start.role = .starts family kind parentSpanId) ∧
        start.scope = finish.scope ∧ start.sequence < finish.sequence ∧
        start.elapsedNs ≤ finish.elapsedNs := by
  intro finish hmem family spanId hrole
  rcases List.mem_append.mp hmem with hmem | hmem
  · obtain ⟨start, hstart, hrest⟩ := hsound.finish finish hmem family spanId hrole
    exact ⟨start, List.mem_append_left _ hstart, hrest⟩
  · rw [List.mem_singleton.mp hmem] at hrole ⊢
    obtain ⟨span, hfound, hearlier, rfl, -, hscope, hstarted, -⟩ := accepts_finishes haccepts hrole
    obtain ⟨start, hstart, hseq, hstarts, hscope', helapsed⟩ := (h.spans spanId span hfound).started
    exact ⟨start, List.mem_append_left _ hstart, hseq, ⟨_, _, hstarts⟩, hscope'.trans hscope,
      hseq ▸ hearlier, helapsed ▸ hstarted⟩

theorem sound_finishOnce (h : Tracks accepted validator) (hsound : Sound accepted)
    (haccepts : validator.Accepts event validator') :
    ∀ finish ∈ accepted ++ [event], ∀ other ∈ accepted ++ [event], ∀ spanId,
      finish.Finishes spanId → other.Finishes spanId → finish = other := by
  have hclosed : ∀ spanId, event.Finishes spanId → ∀ other ∈ accepted, ¬other.Finishes spanId := by
    rintro spanId ⟨family, hrole⟩ other hother
    obtain ⟨span, hfound, -, -, hopen, -⟩ := accepts_finishes haccepts hrole
    exact (h.spans spanId span hfound).not_finished hopen hother
  intro finish hfinish other hother spanId hf ho
  rcases List.mem_append.mp hfinish with hfinish | hfinish <;>
    rcases List.mem_append.mp hother with hother | hother
  · exact hsound.finishOnce finish hfinish other hother spanId hf ho
  · rw [List.mem_singleton.mp hother] at ho
    exact absurd hf (hclosed spanId ho finish hfinish)
  · rw [List.mem_singleton.mp hfinish] at hf
    exact absurd ho (hclosed spanId hf other hother)
  · rw [List.mem_singleton.mp hfinish, List.mem_singleton.mp hother]

theorem sound_inside (h : Tracks accepted validator) (hsound : Sound accepted)
    (haccepts : validator.Accepts event validator') :
    ∀ inner ∈ accepted ++ [event], ∀ spanId, inner.Inside spanId →
      ∃ span ∈ accepted ++ [event], span.sequence = spanId ∧ span.Starts ∧
        inner.EnclosedBy span := by
  intro inner hmem spanId hinside
  rcases List.mem_append.mp hmem with hmem | hmem
  · obtain ⟨span, hspan, hrest⟩ := hsound.inside inner hmem spanId hinside
    exact ⟨span, List.mem_append_left _ hspan, hrest⟩
  · rw [List.mem_singleton.mp hmem] at hinside ⊢
    obtain ⟨⟨span, hspan, hrest⟩, -⟩ := accepts_inside h haccepts hinside
    exact ⟨span, List.mem_append_left _ hspan, hrest⟩

/-- A child span that the validator found closed has an accepted finish. -/
theorem child_finished (h : Tracks accepted validator) (hincreasing : Increasing accepted)
    {child : DiagnosticEvent} (hchild : child ∈ accepted)
    (hparent : child.StartsChild spanId) {elapsedNs : ElapsedNs}
    (hclosed : ∀ (id : SchemaU64) (record : SpanRecord), validator.spans[id]? = some record →
      record.parentSpanId = some spanId → ∃ at_ ∈ record.finishedAt, at_ ≤ elapsedNs) :
    ∃ childFinish ∈ accepted, childFinish.Finishes child.sequence ∧
      childFinish.elapsedNs ≤ elapsedNs := by
  obtain ⟨record, hrecord⟩ := h.starts child hchild hparent.starts
  have hdescribes := h.spans _ _ hrecord
  obtain ⟨start, hstart, hseq, hrole, -⟩ := hdescribes.started
  obtain rfl := hincreasing.eq_of_sequence_eq hstart hchild hseq
  obtain ⟨family, kind, hrole'⟩ := hparent
  rw [hrole] at hrole'
  simp only [SpanRole.starts.injEq] at hrole'
  obtain ⟨at_, hat, hle⟩ := hclosed _ record hrecord hrole'.2.2
  obtain ⟨childFinish, hmem, hfin, rfl⟩ := hdescribes.finishedBy at_ hat
  exact ⟨childFinish, hmem, hfin, hle⟩

theorem sound_afterChild (h : Tracks accepted validator) (hsound : Sound accepted)
    (hincreasing : Increasing (accepted ++ [event]))
    (haccepts : validator.Accepts event validator') :
    ∀ finish ∈ accepted ++ [event], ∀ child ∈ accepted ++ [event], ∀ spanId,
      finish.Finishes spanId → child.StartsChild spanId →
      ∃ childFinish ∈ accepted ++ [event], childFinish.Finishes child.sequence ∧
        childFinish.sequence < finish.sequence ∧ childFinish.elapsedNs ≤ finish.elapsedNs := by
  intro finish hfinish child hchild spanId hf hc
  rcases List.mem_append.mp hfinish with hfinish | hfinish <;>
    rcases List.mem_append.mp hchild with hchild | hchild
  · obtain ⟨childFinish, hmem, hrest⟩ := hsound.afterChild finish hfinish child hchild spanId hf hc
    exact ⟨childFinish, List.mem_append_left _ hmem, hrest⟩
  · -- The span was still open when the new child was accepted.
    rw [List.mem_singleton.mp hchild] at hc
    exact absurd hf ((accepts_inside h haccepts (Or.inl hc)).2 finish hfinish)
  · rw [List.mem_singleton.mp hfinish] at hf ⊢
    obtain ⟨family, hrole⟩ := hf
    obtain ⟨span, -, -, -, -, -, -, -, hclosed⟩ := accepts_finishes haccepts hrole
    obtain ⟨childFinish, hmem, hfin, hle⟩ := child_finished h (List.pairwise_append.mp hincreasing).1
      hchild hc hclosed
    exact ⟨childFinish, List.mem_append_left _ hmem, hfin, Increasing.lt_last hincreasing hmem, hle⟩
  · rw [List.mem_singleton.mp hfinish] at hf
    rw [List.mem_singleton.mp hchild] at hc
    exact absurd hf hc.starts.not_finishes

theorem sound_afterInstant (h : Tracks accepted validator) (hsound : Sound accepted)
    (hincreasing : Increasing (accepted ++ [event]))
    (haccepts : validator.Accepts event validator') :
    ∀ finish ∈ accepted ++ [event], ∀ instant ∈ accepted ++ [event], ∀ spanId,
      finish.Finishes spanId → instant.OccursIn spanId →
      instant.sequence < finish.sequence ∧ instant.elapsedNs ≤ finish.elapsedNs := by
  intro finish hfinish instant hinstant spanId hf hi
  rcases List.mem_append.mp hfinish with hfinish | hfinish <;>
    rcases List.mem_append.mp hinstant with hinstant | hinstant
  · exact hsound.afterInstant finish hfinish instant hinstant spanId hf hi
  · rw [List.mem_singleton.mp hinstant] at hi
    exact absurd hf ((accepts_inside h haccepts (Or.inr hi)).2 finish hfinish)
  · rw [List.mem_singleton.mp hfinish] at hf ⊢
    obtain ⟨family, hrole⟩ := hf
    obtain ⟨span, hfound, -, -, -, -, -, hcontained, -⟩ := accepts_finishes haccepts hrole
    obtain ⟨at_, hat, hle⟩ := (h.spans spanId span hfound).contained instant hinstant hi
    exact ⟨Increasing.lt_last hincreasing hinstant, Nat.le_trans hle (hcontained at_ hat)⟩
  · rw [List.mem_singleton.mp hfinish] at hf
    rw [List.mem_singleton.mp hinstant] at hi
    exact absurd hf hi.not_finishes

/-- An accepting call keeps the one-level facts. -/
theorem sound_append (h : Tracks accepted validator) (hsound : Sound accepted)
    (hincreasing : Increasing (accepted ++ [event])) (hadmissible : validator.Admissible event)
    (haccepts : validator.Accepts event validator') : Sound (accepted ++ [event]) where
  finish := sound_finish h hsound haccepts
  finishOnce := sound_finishOnce h hsound haccepts
  inside := sound_inside h hsound haccepts
  afterChild := sound_afterChild h hsound hincreasing haccepts
  afterInstant := sound_afterInstant h hsound hincreasing haccepts
  links_le := by
    intro other hmem
    rcases List.mem_append.mp hmem with hmem | hmem
    · exact hsound.links_le other hmem
    · rw [List.mem_singleton.mp hmem]
      exact hadmissible.links_le
  links := by
    intro other hmem link hlink
    rcases List.mem_append.mp hmem with hmem | hmem
    · obtain ⟨source, hsource, hrest⟩ := hsound.links other hmem link hlink
      exact ⟨source, List.mem_append_left _ hsource, hrest⟩
    · rw [List.mem_singleton.mp hmem] at hlink ⊢
      obtain ⟨hlt, hknown⟩ := hadmissible.links link hlink
      obtain ⟨source, hsource, hseq⟩ := (h.sequences _).mp hknown
      exact ⟨source, List.mem_append_left _ hsource, hseq, hseq ▸ hlt⟩

end SoundAppend

/-! ## Whole streams -/

/-- Feeding on from a state that tracks `before`: both facts hold of everything accepted. -/
theorem feed_tracks (offered : List DiagnosticEvent) :
    ∀ (before : List DiagnosticEvent) (validator : ReferenceValidator), Tracks before validator →
      Sound before → Increasing (before ++ (validator.feed offered).1) →
      Tracks (before ++ (validator.feed offered).1) (validator.feed offered).2 ∧
        Sound (before ++ (validator.feed offered).1) := by
  induction offered with
  | nil =>
    intro before validator htracks hsound _
    simpa [ReferenceValidator.feed] using ⟨htracks, hsound⟩
  | cons event rest ih =>
    intro before validator htracks hsound hincreasing
    unfold ReferenceValidator.feed at hincreasing ⊢
    cases hvalidate : validator.validate event with
    | mk answer validator' =>
      rw [hvalidate] at hincreasing
      cases answer with
      | ok accepted =>
        obtain ⟨hadmissible, haccepts, -⟩ := ReferenceValidator.validate_ok hvalidate
        dsimp only at hincreasing ⊢
        rw [List.append_cons] at hincreasing ⊢
        exact ih (before ++ [event]) validator' (tracks_append htracks hadmissible haccepts)
          (sound_append htracks hsound (List.pairwise_append.mp hincreasing).1 hadmissible haccepts)
          hincreasing
      | error fault =>
        obtain ⟨rfl, -⟩ := ReferenceValidator.validate_error hvalidate
        exact ih before validator' htracks hsound hincreasing

/-- One more event is accepted when all before it are and the state then accepts it. -/
theorem acceptAll_concat {validator validator' : ReferenceValidator} {events : List DiagnosticEvent}
    {event : DiagnosticEvent} : validator.acceptAll (events ++ [event]) = .ok validator' ↔
      ∃ before accepted, validator.acceptAll events = .ok before ∧
        before.validate event = (.ok accepted, validator') := by
  unfold ReferenceValidator.acceptAll
  rw [foldlM_concat_eq_ok]
  constructor
  · rintro ⟨before, hbefore, hlast⟩
    split at hlast
    · next accepted _ hvalidate =>
      cases hlast
      exact ⟨before, accepted, hbefore, hvalidate⟩
    · cases hlast
  · rintro ⟨before, accepted, hbefore, hvalidate⟩
    exact ⟨before, hbefore, by rw [hvalidate]⟩

/-- What the state knows after accepting a whole list. -/
theorem acceptAll_tracks {validator : ReferenceValidator} {events : List DiagnosticEvent}
    (h : ReferenceValidator.new.acceptAll events = .ok validator) : Tracks events validator := by
  induction events using List.reverseRecOn generalizing validator with
  | nil =>
    cases h
    exact tracks_new
  | append_singleton events event ih =>
    obtain ⟨before, accepted, hbefore, hvalidate⟩ := acceptAll_concat.mp h
    obtain ⟨hadmissible, haccepts, -⟩ := ReferenceValidator.validate_ok hvalidate
    exact tracks_append (ih hbefore) hadmissible haccepts

/-- **The one-level facts hold of every accepted stream with increasing sequences.** -/
theorem feed_sound {offered : List DiagnosticEvent}
    (hincreasing : Increasing (ReferenceValidator.new.feed offered).1) :
    Sound (ReferenceValidator.new.feed offered).1 :=
  (feed_tracks offered [] .new tracks_new sound_nil hincreasing).2

/-! ## Transitive nesting and causality -/

/-- `inner` names the span that `span` starts as its parent or containing span. -/
def NestedIn (accepted : List DiagnosticEvent) (span inner : DiagnosticEvent) : Prop :=
  span ∈ accepted ∧ inner ∈ accepted ∧ span.Starts ∧ inner.Inside span.sequence

/-- `span` is an ancestor of `inner`, through any number of parent links. -/
def AncestorOf (accepted : List DiagnosticEvent) : DiagnosticEvent → DiagnosticEvent → Prop :=
  Relation.TransGen (NestedIn accepted)

/-- `event` has a causal link to `source`. -/
def CausedBy (accepted : List DiagnosticEvent) (source event : DiagnosticEvent) : Prop :=
  source ∈ accepted ∧ event ∈ accepted ∧
    ∃ link ∈ event.header.causedBy, link.sourceSequence = source.sequence

/-- The structure of an accepted stream. -/
structure StreamSound (accepted : List DiagnosticEvent) : Prop where
  /-- A finish matches exactly one earlier start, of its id, family and scope. -/
  finish_matches : ∀ finish ∈ accepted, ∀ family spanId, finish.role = .finishes family spanId →
    ∃! start, start ∈ accepted ∧ start.sequence < finish.sequence ∧ start.sequence = spanId ∧
      (∃ kind parentSpanId, start.role = .starts family kind parentSpanId) ∧
      start.scope = finish.scope
  /-- No span is finished twice. -/
  finish_once : ∀ finish ∈ accepted, ∀ other ∈ accepted, ∀ spanId,
    finish.Finishes spanId → other.Finishes spanId → finish = other
  /-- A parent or containing span that is named was started. -/
  inside_resolves : ∀ inner ∈ accepted, ∀ spanId, inner.Inside spanId →
    ∃ span, NestedIn accepted span inner ∧ span.sequence = spanId
  /-- What lies inside a span starts at or after it, in its scope. -/
  ancestor_encloses : ∀ span inner, AncestorOf accepted span inner →
    span.sequence ≤ inner.sequence ∧ span.elapsedNs ≤ inner.elapsedNs ∧
      scopeContains span.scope inner.scope = true
  /-- A span is finished only after every span inside it. -/
  ancestor_outlives : ∀ span inner, AncestorOf accepted span inner → inner.Starts →
    ∀ finish ∈ accepted, finish.Finishes span.sequence →
      ∃ innerFinish ∈ accepted, innerFinish.Finishes inner.sequence ∧
        innerFinish.sequence < finish.sequence ∧ innerFinish.elapsedNs ≤ finish.elapsedNs
  /-- A span is finished only after every instant inside it. -/
  instant_outlived : ∀ span instant, AncestorOf accepted span instant → ¬instant.Starts →
    ∀ finish ∈ accepted, finish.Finishes span.sequence →
      instant.sequence < finish.sequence ∧ instant.elapsedNs ≤ finish.elapsedNs
  /-- A causal link points to an earlier accepted event. -/
  links_backward : ∀ event ∈ accepted, ∀ link ∈ event.header.causedBy,
    ∃ source ∈ accepted, source.sequence = link.sourceSequence ∧ source.sequence < event.sequence
  /-- The causal graph has no cycle. -/
  links_acyclic : ∀ event, ¬Relation.TransGen (CausedBy accepted) event event
  /-- An event carries at most sixteen links. -/
  links_le : ∀ event ∈ accepted, event.header.causedBy.length ≤ 16

section Nesting

variable {accepted : List DiagnosticEvent} {span inner : DiagnosticEvent}

theorem nestedIn_enclosedBy (hsound : Sound accepted) (hincreasing : Increasing accepted)
    (h : NestedIn accepted span inner) : inner.EnclosedBy span := by
  obtain ⟨hspan, hinner, -, hinside⟩ := h
  obtain ⟨found, hfound, hseq, -, henclosed⟩ := hsound.inside inner hinner _ hinside
  rwa [hincreasing.eq_of_sequence_eq hfound hspan hseq] at henclosed

theorem ancestorOf_enclosedBy (hsound : Sound accepted) (hincreasing : Increasing accepted)
    (h : AncestorOf accepted span inner) :
    inner.EnclosedBy span := by
  induction h with
  | single h => exact nestedIn_enclosedBy hsound hincreasing h
  | tail _ h ih => exact (nestedIn_enclosedBy hsound hincreasing h).trans ih

/-- The finish of a span comes after the finish of every span on the way to `inner`. -/
theorem ancestorOf_finish (hsound : Sound accepted)
    (h : AncestorOf accepted span inner) (hstarts : inner.Starts) {finish : DiagnosticEvent}
    (hfinish : finish ∈ accepted) (hfinishes : finish.Finishes span.sequence) :
    ∃ innerFinish ∈ accepted, innerFinish.Finishes inner.sequence ∧
      innerFinish.sequence < finish.sequence ∧ innerFinish.elapsedNs ≤ finish.elapsedNs := by
  induction h with
  | single h =>
    obtain ⟨-, hinner, -, hchild | hocc⟩ := h
    · exact hsound.afterChild finish hfinish _ hinner _ hfinishes hchild
    · exact absurd hocc hstarts.not_occursIn
  | tail _ h ih =>
    obtain ⟨-, hinner, hmiddle, hchild | hocc⟩ := h
    · obtain ⟨middle, hmem, hfin, hlt, hle⟩ := ih hmiddle
      obtain ⟨innerFinish, hmem', hfin', hlt', hle'⟩ :=
        hsound.afterChild middle hmem _ hinner _ hfin hchild
      exact ⟨innerFinish, hmem', hfin', Nat.lt_trans hlt' hlt, Nat.le_trans hle' hle⟩
    · exact absurd hocc hstarts.not_occursIn

theorem ancestorOf_instant (hsound : Sound accepted) {span instant : DiagnosticEvent}
    (h : AncestorOf accepted span instant) (hinstant : ¬instant.Starts) {finish : DiagnosticEvent}
    (hfinish : finish ∈ accepted) (hfinishes : finish.Finishes span.sequence) :
    instant.sequence < finish.sequence ∧ instant.elapsedNs ≤ finish.elapsedNs := by
  cases h with
  | single h =>
    obtain ⟨-, hinner, -, hchild | hocc⟩ := h
    · exact absurd hchild.starts hinstant
    · exact hsound.afterInstant finish hfinish _ hinner _ hfinishes hocc
  | tail hmiddle h =>
    obtain ⟨-, hinner, hstarts, hchild | hocc⟩ := h
    · exact absurd hchild.starts hinstant
    · obtain ⟨middle, hmem, hfin, hlt, hle⟩ :=
        ancestorOf_finish hsound hmiddle hstarts hfinish hfinishes
      obtain ⟨hlt', hle'⟩ := hsound.afterInstant middle hmem _ hinner _ hfin hocc
      exact ⟨Nat.lt_trans hlt' hlt, Nat.le_trans hle' hle⟩

theorem causedBy_lt (hsound : Sound accepted) {source event : DiagnosticEvent}
    (h : Relation.TransGen (CausedBy accepted) source event) : source.sequence < event.sequence := by
  have hone : ∀ {source event}, CausedBy accepted source event →
      source.sequence < event.sequence := by
    rintro source event ⟨-, hevent, link, hlink, hseq⟩
    obtain ⟨found, -, hfound, hlt⟩ := hsound.links event hevent link hlink
    rw [hfound, hseq] at hlt
    exact hlt
  induction h with
  | single h => exact hone h
  | tail _ h ih => exact Nat.lt_trans ih (hone h)

theorem Sound.stream (hsound : Sound accepted) (hincreasing : Increasing accepted) :
    StreamSound accepted where
  finish_matches finish hfinish family spanId hrole := by
    obtain ⟨start, hstart, hseq, hstarts, hscope, hlt, -⟩ :=
      hsound.finish finish hfinish family spanId hrole
    refine ⟨start, ⟨hstart, hlt, hseq, hstarts, hscope⟩, ?_⟩
    rintro other ⟨hother, -, hseq', -⟩
    exact hincreasing.eq_of_sequence_eq hother hstart (hseq'.trans hseq.symm)
  finish_once := hsound.finishOnce
  inside_resolves inner hinner spanId hinside := by
    obtain ⟨span, hspan, rfl, hstarts, -⟩ := hsound.inside inner hinner spanId hinside
    exact ⟨span, ⟨hspan, hinner, hstarts, hinside⟩, rfl⟩
  ancestor_encloses span inner h := by
    have henclosed := ancestorOf_enclosedBy hsound hincreasing h
    exact ⟨Nat.le_of_lt henclosed.sequence, henclosed.elapsed, henclosed.scope⟩
  ancestor_outlives span inner h hstarts finish hfinish hfinishes :=
    ancestorOf_finish hsound h hstarts hfinish hfinishes
  instant_outlived span instant h hinstant finish hfinish hfinishes :=
    ancestorOf_instant hsound h hinstant hfinish hfinishes
  links_backward := hsound.links
  links_acyclic event h := Nat.lt_irrefl _ (causedBy_lt hsound h)
  links_le := hsound.links_le

end Nesting

/-- **Every stream a fresh validator accepts with increasing sequences is structurally sound, and a
rejected event leaves the validator as it was.** -/
theorem stream_sound (offered : List DiagnosticEvent)
    (hincreasing : Increasing (ReferenceValidator.new.feed offered).1) :
    StreamSound (ReferenceValidator.new.feed offered).1 ∧
      ∀ (validator : ReferenceValidator) (event : DiagnosticEvent)
        (fault : Fault ReferenceValidationError), (validator.validate event).1 = .error fault →
        (validator.validate event).2 = validator := by
  refine ⟨(feed_sound hincreasing).stream hincreasing, fun validator event fault h => ?_⟩
  exact (ReferenceValidator.validate_error (Prod.ext h rfl)).1

/-- A run span around a custom instant, a rejected finish of a span never started, and the finish. -/
def nestedStream : List DiagnosticEvent :=
  [.spanStarted ⟨.at 1 10 [] (by decide), .runLifecycle, none⟩,
   .spanStarted ⟨.at 2 11 [⟨1, .dispatch⟩] (by decide), .productionStart, some 1⟩,
   .instantOccurred ⟨.at 3 12 [] (by decide), .cueAdmitted, some 2⟩,
   .spanFinished ⟨.at 4 13 [] (by decide), 3, .completed, none⟩,
   .spanFinished ⟨.at 4 13 [] (by decide), 2, .completed, none⟩,
   .spanFinished ⟨.at 5 14 [] (by decide), 1, .completed, none⟩]

theorem stream_sound_nested :
    Increasing (ReferenceValidator.new.feed nestedStream).1 ∧
      (ReferenceValidator.new.feed nestedStream).1.length = 5 ∧
      StreamSound (ReferenceValidator.new.feed nestedStream).1 := by
  have hincreasing : Increasing (ReferenceValidator.new.feed nestedStream).1 := by decide
  exact ⟨hincreasing, by decide, (stream_sound nestedStream hincreasing).1⟩

/-- An instant linked twice to the span start before it. -/
def doublyLinkedStream : List DiagnosticEvent :=
  [.spanStarted ⟨.at 1 10 [] (by decide), .runLifecycle, none⟩,
   .instantOccurred ⟨.at 2 11 [⟨1, .dispatch⟩, ⟨1, .dispatch⟩] (by decide), .cueAdmitted, some 1⟩]

/-- `validate_causal_links` does not compare the links of one event with each other. -/
theorem doubly_linked_accepted :
    Increasing (ReferenceValidator.new.feed doublyLinkedStream).1 ∧
      ¬∀ event ∈ (ReferenceValidator.new.feed doublyLinkedStream).1,
        event.header.causedBy.Nodup := by
  decide

end Troupe.Core
