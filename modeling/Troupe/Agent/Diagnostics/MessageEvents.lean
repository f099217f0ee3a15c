import Troupe.Agent.Diagnostics.MessageTraces
import Troupe.Store.Projector.MessageText

/-! # The events of message facts

`project_message_candidates` of `observation_bridge.rs` makes each fact of a turn an event of the act's
scope. The message projector accepts these events, and puts together the texts of the deltas.

* `Wrapped` leaves open what the bridge takes from elsewhere: the links to earlier events.
* Results: `wrapped_accepted`, and **`messages_captured`** on whole turns. -/

namespace Troupe.Agent.Diagnostics

open Troupe.Core Troupe.Lib Troupe.Store

/-- The event of a candidate in `project_message_candidates`. -/
def projectMessageCandidate (header : DiagnosticEventHeader) :
    AgentMessageCandidate → DiagnosticEvent
  | .delta delta => .agentMessageDelta
      ⟨header, delta.messageId, delta.sourceMessageId, String.ofList delta.textDelta⟩
  | .completed completed => .agentMessageCompleted
      ⟨header, completed.messageId, .ofNat completed.utf8Bytes,
        .ofNat completed.unicodeScalarCount, completed.truncated⟩
  | .sourceGap gap => .observationGap
      { header
        producer := "agent.message"
        component := none
        reason := gap.reason.asStr
        droppedCount := none
        affectedElapsed := none
        affectedKind := some .agentMessageDelta
        affectedScope := none }

/-- When a fact was observed. -/
def AgentMessageCandidate.elapsedNs : AgentMessageCandidate → ElapsedNs
  | .delta candidate => candidate.elapsedNs
  | .completed candidate => candidate.elapsedNs
  | .sourceGap candidate => candidate.elapsedNs

/-- The facts as the first events of a run, all in one scope. -/
inductive Wrapped (runId : CanonicalUuid) (scope : DiagnosticScope) :
    List AgentMessageCandidate → List DiagnosticEvent → Prop
  | nil : Wrapped runId scope [] []
  | append {facts : List AgentMessageCandidate} {events : List DiagnosticEvent}
      {fact : AgentMessageCandidate} {header : DiagnosticEventHeader}
      (wrapped : Wrapped runId scope facts events) (run : header.runId = runId)
      (sequence : header.sequence.get = events.length + 1) (inScope : header.scope = scope)
      (elapsed : header.elapsedNs = fact.elapsedNs)
      (links_le : header.causedBy.length ≤ maxCausalLinks)
      (links : ∀ link ∈ header.causedBy,
        0 < link.sourceSequence.get ∧ link.sourceSequence.get ≤ events.length) :
      Wrapped runId scope (facts ++ [fact]) (events ++ [projectMessageCandidate header fact])

/-- The text a fact carries. -/
def AgentMessageCandidate.text : AgentMessageCandidate → List Char
  | .delta candidate => candidate.textDelta
  | .completed _ | .sourceGap _ => []

/-- The text an event carries. -/
def deltaText : DiagnosticEvent → String
  | .agentMessageDelta delta => delta.textDelta
  | _ => ""

section Project

variable {runId : CanonicalUuid} {scope : DiagnosticScope} {facts : List AgentMessageCandidate}
  {events : List DiagnosticEvent} {fact : AgentMessageCandidate} {header : DiagnosticEventHeader}

@[simp] theorem project_header :
    (projectMessageCandidate header fact).header = header := by
  cases fact <;> rfl

@[simp] theorem project_messageId :
    Messages.messageId? (projectMessageCandidate header fact) = fact.messageId? := by
  cases fact <;> rfl

@[simp] theorem project_text :
    (deltaText (projectMessageCandidate header fact)).toList = fact.text := by
  cases fact <;> simp [projectMessageCandidate, deltaText, AgentMessageCandidate.text]

@[simp] theorem project_role :
    (projectMessageCandidate header fact).role = .occurs none := by
  cases fact <;> rfl

theorem Wrapped.events_eq (h : Wrapped runId scope facts events) :
    events.length = facts.length ∧ ∀ event ∈ events, event.scope = scope ∧ ∃ fact ∈ facts,
      ∃ header, event = projectMessageCandidate header fact := by
  induction h with
  | nil => exact ⟨rfl, List.forall_mem_nil _⟩
  | @append facts events fact header _ _ _ inScope _ _ _ ih =>
    obtain ⟨hlength, hevents⟩ := ih
    refine ⟨by simp [hlength], fun event hevent => ?_⟩
    rcases List.mem_append.mp hevent with hevent | hevent
    · obtain ⟨hscope, fact', hfact', hproject⟩ := hevents event hevent
      exact ⟨hscope, fact', List.mem_append_left _ hfact', hproject⟩
    · rw [List.mem_singleton.mp hevent]
      refine ⟨?_, fact, List.mem_append_right _ (List.mem_singleton_self _), header, rfl⟩
      rw [DiagnosticEvent.scope, project_header, inScope]

/-- The events about a message carry the texts of its facts. -/
theorem Wrapped.text (h : Wrapped runId scope facts events) (id : RunLocalId) :
    (Messages.about id events).flatMap (fun event => (deltaText event).toList) =
      (factsAbout id facts).flatMap AgentMessageCandidate.text := by
  induction h with
  | nil => rfl
  | @append facts events fact header _ _ _ _ _ _ _ ih =>
    rw [Messages.about, List.filter_append, List.flatMap_append, factsAbout_append,
      List.flatMap_append]
    refine congrArg₂ (· ++ ·) ih ?_
    by_cases hid : fact.messageId? = some id <;> simp [factsAbout, hid]

/-! ## The facts of one message -/

/-- `earlier` is a delta, of the same source id as `later`. -/
def Before (earlier later : AgentMessageCandidate) : Prop :=
  ∃ delta, earlier = .delta delta ∧ ∀ delta', later = .delta delta' →
    delta.sourceMessageId = delta'.sourceMessageId

/-- What holds of the facts of each message holds of any two facts of one message. -/
theorem pairwise_of_about {R : AgentMessageCandidate → AgentMessageCandidate → Prop} :
    ∀ {facts : List AgentMessageCandidate}, (∀ id, (factsAbout id facts).Pairwise R) →
      facts.Pairwise fun earlier later => ∀ id, earlier.messageId? = some id →
        later.messageId? = some id → R earlier later := by
  intro facts
  induction facts with
  | nil => exact fun _ => List.Pairwise.nil
  | cons fact facts ih =>
    intro h
    refine List.pairwise_cons.mpr ⟨fun later hlater id hid hid' => ?_, ih fun id => ?_⟩
    · have habout := h id
      rw [factsAbout, List.filter_cons_of_pos (by simpa using hid), List.pairwise_cons] at habout
      exact habout.1 later (List.mem_filter.mpr ⟨hlater, decide_eq_true hid'⟩)
    · exact (h id).sublist ((List.sublist_cons_self fact facts).filter _)

/-- Two facts of one message that may follow each other make two compatible events. -/
theorem project_compatible {earlier later : AgentMessageCandidate}
    {header header' : DiagnosticEventHeader} (hscope : header.scope = header'.scope)
    (h : ∀ id, earlier.messageId? = some id → later.messageId? = some id → Before earlier later) :
    Messages.Compatible (projectMessageCandidate header earlier)
      (projectMessageCandidate header' later) := by
  intro id hid hid'
  rw [project_messageId] at hid hid'
  obtain ⟨delta, rfl, hsource⟩ := h id hid hid'
  refine ⟨?_, rfl, ?_⟩
  · rw [DiagnosticEvent.scope, DiagnosticEvent.scope, project_header, project_header, hscope]
  intro source hgiven other hother
  cases later with
  | delta delta' =>
    have hsame := hsource delta' rfl
    have hgiven : delta.sourceMessageId = some source := hgiven
    have hother : delta'.sourceMessageId = some other := hother
    rw [hgiven, hother] at hsame
    exact Option.some.inj hsame
  | completed completed => exact nomatch (hother : (none : Option String) = some other)
  | sourceGap gap => exact nomatch (hother : (none : Option String) = some other)

/-! ## The projector accepts them -/

/-- An admissible event of a known session generation that names no span is accepted. -/
theorem validate_outside {validator : ReferenceValidator} {event : DiagnosticEvent}
    (hadmissible : validator.Admissible event) (hscope : validateScope event = .ok ())
    (hrole : event.role = .occurs none) :
    validator.validate event = (.ok ⟨event, none⟩, validator.record event) := by
  have hlinks : validator.validateCausalLinks event = .ok () := by
    rw [ReferenceValidator.validateCausalLinks, if_neg (Nat.not_lt.mpr hadmissible.links_le),
      forM_eq_ok]
    intro link hlink
    obtain ⟨hearlier, hknown⟩ := hadmissible.links link hlink
    rw [SchemaU64.lt_def] at hearlier
    have hne : link.sourceSequence ≠ event.sequence := fun heq => by
      rw [heq] at hearlier
      exact Nat.lt_irrefl _ hearlier
    have hnot : ¬event.sequence < link.sourceSequence := by
      rw [SchemaU64.lt_def]
      omega
    simp only [ReferenceValidator.validateCausalLink]
    rw [if_neg hne, if_neg hnot, if_neg (not_not.mpr hknown)]
  have hrun : validator.runId.any (· ≠ event.header.runId) = false := by
    rw [Option.any_eq_false]
    intro run hknown
    simpa using hadmissible.sameRun run hknown
  have hprepare : validator.prepare event = .ok (.recordEvent, none) := by
    rw [ReferenceValidator.prepare_eq, hrun, if_neg Bool.false_ne_true, if_neg hadmissible.fresh,
      hscope, ok_bind, hlinks, ok_bind, hrole]
    rfl
  rw [ReferenceValidator.validate, hprepare]
  rfl

/-- The scope check of a message event: its session generation is not the unknown one. -/
theorem project_validateScope (h : hasUnknownScopeSentinel header.scope = false) :
    validateScope (projectMessageCandidate header fact) = .ok () := by
  have hevent : hasUnknownScopeSentinel (projectMessageCandidate header fact).scope = false := by
    rw [DiagnosticEvent.scope, project_header, h]
  cases fact <;> exact if_neg (by rw [hevent]; exact Bool.false_ne_true)

theorem exists_sequence (h : Dense runId events) {sequence : SchemaU64}
    (hpos : 0 < sequence.get) (hle : sequence.get ≤ events.length) :
    ∃ event ∈ events, event.sequence = sequence := by
  induction h with
  | nil => exact absurd (Nat.lt_of_lt_of_le hpos hle) (Nat.lt_irrefl _)
  | @append events event dense next ih =>
    rw [List.length_append, List.length_singleton] at hle
    by_cases hlast : sequence.get = events.length + 1
    · refine ⟨event, List.mem_append_right _ (List.mem_singleton_self _), ?_⟩
      exact SchemaU64.get_injective (next.sequence.trans hlast.symm)
    · obtain ⟨earlier, hearlier, hsame⟩ := ih (by omega)
      exact ⟨earlier, List.mem_append_left _ hearlier, hsame⟩

theorem applyAll_concat {projector middle last : Projector MessageReadModel}
    {event : DiagnosticEvent} (hevents : applyAll MessageProjector.apply projector events =
      (.ok (), middle)) (hevent : MessageProjector.apply middle event = (.ok (), last)) :
    applyAll MessageProjector.apply projector (events ++ [event]) = (.ok (), last) := by
  induction events generalizing projector with
  | nil =>
    cases hevents
    exact applyAll_cons_eq_ok.mpr ⟨last, hevent, rfl⟩
  | cons first events ih =>
    obtain ⟨next, hfirst, hevents⟩ := applyAll_cons_eq_ok.mp hevents
    exact applyAll_cons_eq_ok.mpr ⟨next, hfirst, ih hevents⟩

/-- The projector has taken exactly `events`. -/
structure Taken (runId : CanonicalUuid) (events : List DiagnosticEvent)
    (projector : Projector MessageReadModel) : Prop where
  summary : Messages.Summarises projector.model runId events
  tracks : Tracks events projector.references
  run : ∀ run ∈ projector.references.runId, run = runId

/-- **The message projector accepts the events** of facts that follow each other message by
message. -/
theorem wrapped_accepted (hscope : hasUnknownScopeSentinel scope = false)
    (h : Wrapped runId scope facts events)
    (hfacts : facts.Pairwise fun earlier later => ∀ id, earlier.messageId? = some id →
      later.messageId? = some id → Before earlier later) :
    ∃ projector, applyAll MessageProjector.apply (.new (.empty runId)) events = (.ok (), projector) ∧
      Taken runId events projector := by
  induction h with
  | nil =>
    refine ⟨_, rfl, Messages.summarises_empty runId, tracks_new, ?_⟩
    simp [Projector.new, ReferenceValidator.new]
  | @append facts events fact header wrapped run sequence inScope elapsed links_le links ih =>
    obtain ⟨hbefore, -, hlast⟩ := List.pairwise_append.mp hfacts
    obtain ⟨projector, happlied, htaken⟩ := ih hbefore
    have hnext : Next runId events (projectMessageCandidate header fact) :=
      ⟨by rw [project_header, run], by rw [DiagnosticEvent.sequence, project_header, sequence]⟩
    have hdense := htaken.summary.covers.dense
    have hcompatible : ∀ earlier ∈ events,
        Messages.Compatible earlier (projectMessageCandidate header fact) := by
      intro earlier hearlier
      obtain ⟨hsame, earlierFact, hmem, earlierHeader, rfl⟩ := wrapped.events_eq.2 earlier hearlier
      rw [DiagnosticEvent.scope, project_header] at hsame
      exact project_compatible (hsame.trans inScope.symm)
        (hlast earlierFact hmem fact (List.mem_singleton_self _))
    obtain ⟨model, hmodel⟩ := (Messages.candidateForEvent_isOk htaken.summary hnext).mpr hcompatible
    have hadmissible :
        projector.references.Admissible (projectMessageCandidate header fact) := by
      refine ⟨fun known hknown => ?_, fun hseen => ?_, ?_, fun link hlink => ?_⟩
      · rw [project_header, run]
        exact htaken.run known hknown
      · obtain ⟨earlier, hearlier, hsame⟩ := (htaken.tracks.sequences _).mp hseen
        have hlt := hdense.lt_next hnext hearlier
        rw [hsame] at hlt
        exact Nat.lt_irrefl _ hlt
      · rw [project_header]
        exact links_le
      · rw [project_header] at hlink
        obtain ⟨hpos, hle⟩ := links link hlink
        refine ⟨?_, ?_⟩
        · rw [SchemaU64.lt_def, DiagnosticEvent.sequence, project_header, sequence]
          exact Nat.lt_succ_of_le hle
        · exact (htaken.tracks.sequences _).mpr (exists_sequence hdense hpos hle)
    have hvalidate := validate_outside hadmissible
      (project_validateScope (inScope ▸ hscope)) project_role
    refine ⟨⟨projector.references.record _, model⟩, applyAll_concat happlied ?_,
      Messages.candidateForEvent_summarises htaken.summary hnext hmodel,
      tracks_append htaken.tracks hadmissible (.outside project_role), ?_⟩
    · exact Projector.apply_eq_ok.mpr ⟨⟨_, hvalidate⟩, hmodel⟩
    · rintro known ⟨⟩
      rw [project_header, run]

end Project

/-! ## Whole turns -/

/-- The facts about a message: its deltas, which hold a start of its text, and one completion if it
has ended, which counts them. -/
structure Captured (facts : List AgentMessageCandidate) (id : RunLocalId) (message : SourceMessage)
    (deltas : List AgentMessageDeltaCandidate) (completed : Option AgentMessageCompletedCandidate) :
    Prop where
  about : factsAbout id facts = deltas.map .delta ++ completed.toList.map .completed
  ended : completed.isSome = message.ended
  pieces : ∀ delta ∈ deltas, Piece delta.textDelta ∧
    delta.sourceMessageId = message.sourceMessageId
  taken : textOf deltas <+: message.text
  bound : utf8Size (textOf deltas) ≤ agentMessageMaxBytes
  bytes : ∀ completion ∈ completed, completion.utf8Bytes = utf8Size (textOf deltas)
  count : ∀ completion ∈ completed, completion.unicodeScalarCount = (textOf deltas).length
  truncated : ∀ completion ∈ completed,
    completion.truncated = true ↔ textOf deltas ≠ message.text ∨ message.reported = true
  full : ∀ completion ∈ completed, textOf deltas ≠ message.text →
    NoRoom completion.utf8Bytes (utf8Size (textOf (deltasOf facts)))

/-- A projected message has the text and the completion of its facts. -/
structure Shows (message : ProjectedMessage) (deltas : List AgentMessageDeltaCandidate)
    (completed : Option AgentMessageCompletedCandidate) : Prop where
  text : message.text = String.ofList (textOf deltas)
  completion : message.completion.map (fun completion =>
      (completion.utf8Bytes.get, completion.unicodeScalarCount.get, completion.truncated)) =
    completed.map fun completion =>
      (completion.utf8Bytes, completion.unicodeScalarCount, completion.truncated)

/-- What a completion says about its message. -/
def completionOf : DiagnosticEvent → Option (SchemaU64 × SchemaU64 × Bool)
  | .agentMessageCompleted completion =>
    some (completion.utf8Bytes, completion.unicodeScalarCount, completion.truncated)
  | _ => none

/-- What a fact says when it completes a message. -/
def AgentMessageCandidate.completion : AgentMessageCandidate → Option (SchemaU64 × SchemaU64 × Bool)
  | .completed candidate =>
    some (.ofNat candidate.utf8Bytes, .ofNat candidate.unicodeScalarCount, candidate.truncated)
  | .delta _ | .sourceGap _ => none

section Turns

variable {runId : CanonicalUuid} {scope : DiagnosticScope} {facts : List AgentMessageCandidate}
  {events : List DiagnosticEvent} {normalizer : AgentMessageNormalizer}
  {entries : List (RunLocalId × SourceMessage)} {id : RunLocalId} {message : SourceMessage}
  {deltas : List AgentMessageDeltaCandidate} {completed : Option AgentMessageCompletedCandidate}

theorem Wrapped.completion (h : Wrapped runId scope facts events) (id : RunLocalId) :
    (Messages.about id events).filterMap completionOf =
      (factsAbout id facts).filterMap AgentMessageCandidate.completion := by
  induction h with
  | nil => rfl
  | @append facts events fact header _ _ _ _ _ _ _ ih =>
    rw [Messages.about, List.filter_append, List.filterMap_append, factsAbout_append,
      List.filterMap_append]
    refine congrArg₂ (· ++ ·) ih ?_
    have hsame : completionOf (projectMessageCandidate header fact) = fact.completion := by
      cases fact <;> rfl
    by_cases hid : fact.messageId? = some id <;>
      simp [factsAbout, hid, List.filterMap_cons, hsame]

theorem Wrapped.about_eq_nil (h : Wrapped runId scope facts events) (id : RunLocalId) :
    Messages.about id events = [] ↔ factsAbout id facts = [] := by
  induction h with
  | nil => exact iff_of_true rfl rfl
  | @append facts events fact header _ _ _ _ _ _ _ ih =>
    rw [Messages.about, List.filter_append, List.append_eq_nil_iff, factsAbout_append,
      List.append_eq_nil_iff]
    refine and_congr ih ?_
    by_cases hid : fact.messageId? = some id <;> simp [factsAbout, hid]

theorem Kept.captured (h : Kept facts normalizer entries) {entry : RunLocalId × SourceMessage}
    (hentry : entry ∈ entries) :
    ∃ deltas completed, Captured facts entry.1 entry.2 deltas completed := by
  rcases hended : entry.2.ended with _ | _
  · obtain ⟨held, -, deltas, hlive⟩ := h.live entry hentry hended
    refine ⟨deltas, none, ?_, hended.symm, hlive.pieces, ?_, ?_, by simp, by simp, by simp, by simp⟩
    · rw [hlive.about]
      exact (List.append_nil _).symm
    · exact (List.prefix_append _ _).trans hlive.taken
    · have hbytes := hlive.bytes
      have hbound := hlive.bound
      rw [utf8Size_append] at hbytes
      omega
  · obtain ⟨deltas, completed, hclosed⟩ := h.closed entry hentry hended
    refine ⟨deltas, some completed, hclosed.about, hended.symm, hclosed.pieces, hclosed.taken,
      hclosed.bytes ▸ hclosed.bound, ?_, ?_, ?_, ?_⟩ <;> rintro _ ⟨⟩
    · exact hclosed.bytes
    · exact hclosed.count
    · exact hclosed.truncated
    · exact hclosed.full

theorem Captured.pairwise (h : Captured facts id message deltas completed) :
    (factsAbout id facts).Pairwise Before := by
  rw [h.about, List.pairwise_append]
  refine ⟨?_, ?_, ?_⟩
  · rw [List.pairwise_map]
    refine List.pairwise_of_forall_mem_list fun delta hdelta delta' hdelta' => ⟨delta, rfl, ?_⟩
    rintro _ ⟨⟩
    exact (h.pieces delta hdelta).2.trans (h.pieces delta' hdelta').2.symm
  · cases completed <;> simp
  · intro earlier hearlier later hlater
    obtain ⟨delta, -, rfl⟩ := List.mem_map.mp hearlier
    obtain ⟨completion, -, rfl⟩ := List.mem_map.mp hlater
    exact ⟨delta, rfl, fun _ hother => nomatch hother⟩

/-- The facts of a turn follow each other, message by message. -/
theorem Kept.pairwise (h : Kept facts normalizer entries) :
    facts.Pairwise fun earlier later => ∀ id, earlier.messageId? = some id →
      later.messageId? = some id → Before earlier later := by
  refine pairwise_of_about fun id => ?_
  by_cases hid : id ∈ entries.map Prod.fst
  · obtain ⟨entry, hentry, rfl⟩ := List.mem_map.mp hid
    obtain ⟨deltas, completed, hcaptured⟩ := h.captured hentry
    exact hcaptured.pairwise
  · have hnone : factsAbout id facts = [] :=
      List.filter_eq_nil_iff.mpr fun fact hfact hsame =>
        hid (h.about fact hfact id (of_decide_eq_true hsame))
    rw [hnone]
    exact List.Pairwise.nil

theorem flatMap_text (deltas : List AgentMessageDeltaCandidate)
    (completed : Option AgentMessageCompletedCandidate) :
    (deltas.map AgentMessageCandidate.delta ++
      completed.toList.map AgentMessageCandidate.completed).flatMap AgentMessageCandidate.text =
      textOf deltas := by
  rw [List.flatMap_append, List.flatMap_map]
  cases completed <;> simp [textOf, AgentMessageCandidate.text]

/-- The projected message shows the facts about it. -/
theorem Captured.shows (h : Captured facts id message deltas completed)
    (hwrapped : Wrapped runId scope facts events) {projected : ProjectedMessage}
    (hid : projected.messageId = id) {seen : List AgentMessageDelta}
    {last : Option AgentMessageCompleted}
    (hprojected : Messages.Reconstructed events projected seen last) :
    Shows projected deltas completed := by
  have habout := hprojected.about
  rw [hid] at habout
  have htext := hwrapped.text id
  have hcompletion := hwrapped.completion id
  rw [habout, h.about] at htext hcompletion
  refine ⟨?_, ?_⟩
  · rw [flatMap_text] at htext
    rw [hprojected.text, ← htext, List.flatMap_append, List.flatMap_map]
    have hlast : (last.toList.map DiagnosticEvent.agentMessageCompleted).flatMap
        (fun event => (deltaText event).toList) = [] := by
      cases last <;> rfl
    rw [hlast, List.append_nil, ← @String.ofList_toList (String.join _), String.toList_join,
      List.flatMap_map]
    rfl
  · have hseen : (seen.map DiagnosticEvent.agentMessageDelta).filterMap completionOf = [] := by
      simp [completionOf]
    have hdeltas : (deltas.map AgentMessageCandidate.delta).filterMap
        AgentMessageCandidate.completion = [] := by
      simp [AgentMessageCandidate.completion]
    rw [List.filterMap_append, hseen, List.filterMap_append, hdeltas] at hcompletion
    rw [hprojected.completion]
    rcases last with _ | last <;> rcases completed with _ | completion
    · rfl
    · cases hcompletion
    · cases hcompletion
    · have hbytes := h.bytes completion rfl
      have hcount := h.count completion rfl
      have hbound := h.bound
      have hle := length_le_utf8Size (textOf deltas)
      have hsame : (last.utf8Bytes, last.unicodeScalarCount, last.truncated) =
          (.ofNat completion.utf8Bytes, .ofNat completion.unicodeScalarCount,
            completion.truncated) := List.head_eq_of_cons_eq hcompletion
      have hfits : ∀ value : Nat, value ≤ agentMessageMaxBytes → (SchemaU64.ofNat value).get = value := by
        intro value hvalue
        refine Nat.mod_eq_of_lt (Nat.lt_of_le_of_lt hvalue ?_)
        decide
      obtain ⟨hlastBytes, hlastCount, hlastTruncated⟩ :
          last.utf8Bytes = .ofNat completion.utf8Bytes ∧
            last.unicodeScalarCount = .ofNat completion.unicodeScalarCount ∧
            last.truncated = completion.truncated := by
        simpa only [Prod.mk.injEq] using hsame
      simp only [Option.map_some, MessageCompletion.fromEvent, hlastBytes, hlastCount,
        hlastTruncated]
      rw [hfits _ (hbytes ▸ hbound), hfits _ (hcount ▸ Nat.le_trans hle hbound)]

/-- The projector puts the messages of a turn together. -/
theorem Kept.projected (h : Kept facts normalizer entries)
    (hscope : hasUnknownScopeSentinel scope = false) (hwrapped : Wrapped runId scope facts events) :
    ∃ projector, applyAll MessageProjector.apply (.new (.empty runId)) events =
        (.ok (), projector) ∧
      (∀ projected ∈ projector.model.messages, projected.messageId ∈ entries.map Prod.fst) ∧
      ∀ entry ∈ entries, ∀ deltas completed, Captured facts entry.1 entry.2 deltas completed →
        factsAbout entry.1 facts ≠ [] → ∃ projected ∈ projector.model.messages,
          projected.messageId = entry.1 ∧ Shows projected deltas completed := by
  obtain ⟨projector, happlied, -⟩ := wrapped_accepted hscope hwrapped h.pairwise
  obtain ⟨-, hids, hmessages, -⟩ := messages_reconstructed happlied
  refine ⟨projector, happlied, fun projected hprojected => ?_, ?_⟩
  · have habout := (hids _).mp (List.mem_map_of_mem hprojected)
    rw [ne_eq, hwrapped.about_eq_nil] at habout
    obtain ⟨fact, hfact⟩ := List.exists_mem_of_ne_nil _ habout
    obtain ⟨hfact, hid⟩ := List.mem_filter.mp hfact
    exact h.about fact hfact _ (of_decide_eq_true hid)
  · intro entry hentry deltas completed hcaptured hnonempty
    have hid := (hids entry.1).mpr (mt (hwrapped.about_eq_nil _).mp hnonempty)
    obtain ⟨projected, hprojected, hid⟩ := List.mem_map.mp hid
    obtain ⟨seen, last, hreconstructed⟩ := hmessages projected hprojected
    exact ⟨projected, hprojected, hid, hcaptured.shows hwrapped hid hreconstructed⟩

end Turns

/-- **The message facts of any calls say what the source sent, within the limits.** Every list of
calls returns in which each chunk draws a message id that is new; nothing panics. There is one message
id for each message of the story. The facts about it are its deltas, each of one to 16384 bytes of
text, which put together are a start of the message's text, of at most 4 MiB, and then, once the
message has ended, one completion, which counts them and says whether text is missing; it is only where a limit
has no room for every character. All deltas
together have at most 16 MiB, and the end of the turn leaves no message open. As events of one scope
the facts are accepted by the message projector, which puts the same texts together. -/
theorem messages_captured (calls : List (AgentMessageNormalizer.Call × ElapsedNs)) :
    (AgentMessageNormalizer.new.run calls = .error .unfinished ∧ ¬Fresh [] calls) ∨
    ∃ (facts : List AgentMessageCandidate) (normalizer : AgentMessageNormalizer)
      (entries : List (RunLocalId × SourceMessage)),
      AgentMessageNormalizer.new.run calls = .ok (facts, normalizer) ∧
      entries.map Prod.snd = (storyOf calls).messages ∧ (entries.map Prod.fst).Nodup ∧
      (∀ fact ∈ facts, ∀ id, fact.messageId? = some id → id ∈ entries.map Prod.fst) ∧
      (∀ entry ∈ entries, ∃ deltas completed,
        Captured facts entry.1 entry.2 deltas completed) ∧
      utf8Size (textOf (deltasOf facts)) ≤ actAgentMessagesMaxBytes ∧
      normalizer.terminal = (storyOf calls).terminal ∧
      (normalizer.terminal = true → normalizer.openMessages = [] ∧
        ∀ entry ∈ entries, entry.2.ended = true) ∧
      ∀ runId scope events, hasUnknownScopeSentinel scope = false →
        Wrapped runId scope facts events →
        ∃ projector, applyAll MessageProjector.apply (.new (.empty runId)) events =
            (.ok (), projector) ∧
          (∀ projected ∈ projector.model.messages, projected.messageId ∈ entries.map Prod.fst) ∧
          ∀ entry ∈ entries, ∀ deltas completed, Captured facts entry.1 entry.2 deltas completed →
            factsAbout entry.1 facts ≠ [] → ∃ projected ∈ projector.model.messages,
              projected.messageId = entry.1 ∧ Shows projected deltas completed := by
  have hseen : ∀ id ∈ AgentMessageNormalizer.new.allocatedMessageIds, id ∈ ([] : List RunLocalId) :=
    fun id hid => absurd hid (Finset.notMem_empty id)
  rcases run_told calls kept_new (fun _ => rfl) hseen with
    hstuck | ⟨facts, normalizer, entries, hrun, hkept, htold, hclosed⟩
  · exact .inl hstuck
  · rw [List.nil_append] at hkept
    have hstory : storyOf calls = ⟨entries.map Prod.snd, normalizer.terminal⟩ := htold
    refine .inr ⟨facts, normalizer, entries, hrun, by rw [hstory], hkept.ids, hkept.about,
      fun entry hentry => hkept.captured hentry, ?_, by rw [hstory], fun hterminal => ?_,
      fun runId scope events hscope hwrapped => hkept.projected hscope hwrapped⟩
    · have htotal := hkept.total
      have hbound := hkept.bound
      omega
    · refine ⟨hclosed hterminal, fun entry hentry => ?_⟩
      by_contra hopen
      obtain ⟨held, hheld, -⟩ := hkept.live entry hentry ((Bool.not_eq_true _).mp hopen)
      rw [hclosed hterminal] at hheld
      exact absurd hheld List.not_mem_nil

end Troupe.Agent.Diagnostics
