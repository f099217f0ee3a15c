import Troupe.Store.Projector.Projectors

/-! # The messages of an event list

What `MessageProjector` makes of the events it accepts. A message is put together from the events
that are about it, in their order: its deltas, and then its completion if there is one.

* The projector keeps no list of deltas; what it keeps of their order is the first and the latest
  sequence of a message.

Result: **`messages_reconstructed`**. -/

namespace Troupe.Store

open Troupe.Lib Troupe.Core

namespace Messages

/-- The events about a message. -/
def about (id : RunLocalId) (events : List DiagnosticEvent) : List DiagnosticEvent :=
  events.filter fun event => messageId? event = some id

theorem about_concat_self {id : RunLocalId} {event : DiagnosticEvent}
    (events : List DiagnosticEvent) (h : messageId? event = some id) :
    about id (events ++ [event]) = about id events ++ [event] := by
  simp [about, h]

theorem about_concat_other {id : RunLocalId} {event : DiagnosticEvent}
    (events : List DiagnosticEvent) (h : messageId? event ≠ some id) :
    about id (events ++ [event]) = about id events := by
  simp [about, h]

/-- A message is put together from its deltas, in their order, and its completion. -/
structure Reconstructed (events : List DiagnosticEvent) (message : ProjectedMessage)
    (deltas : List AgentMessageDelta) (completed : Option AgentMessageCompleted) : Prop where
  about : about message.messageId events =
    deltas.map .agentMessageDelta ++ completed.toList.map .agentMessageCompleted
  text : message.text = String.join (deltas.map AgentMessageDelta.textDelta)
  completion : message.completion = completed.map .fromEvent
  scope : ∀ event ∈ Messages.about message.messageId events, event.scope = message.scope
  ordered :
    ((Messages.about message.messageId events).map DiagnosticEvent.sequence).Pairwise (· < ·)
  first : ((Messages.about message.messageId events).map DiagnosticEvent.sequence).head? =
    some message.firstSequence
  latest : ((Messages.about message.messageId events).map DiagnosticEvent.sequence).getLast? =
    some message.latestSequence

section Project

variable {runId : CanonicalUuid} {events : List DiagnosticEvent} {event : DiagnosticEvent}
  {message : ProjectedMessage} {deltas : List AgentMessageDelta}
  {completed : Option AgentMessageCompleted}

theorem Reconstructed.other (h : Reconstructed events message deltas completed)
    (hother : messageId? event ≠ some message.messageId) :
    Reconstructed (events ++ [event]) message deltas completed := by
  have hsame := about_concat_other events hother
  exact ⟨hsame ▸ h.about, h.text, h.completion, hsame ▸ h.scope, hsame ▸ h.ordered, hsame ▸ h.first,
    hsame ▸ h.latest⟩

/-- The sequences about a message stay in order when the next event is about it. -/
theorem ordered_concat (hdense : Dense runId events) (hnext : Next runId events event)
    {id : RunLocalId}
    (h : ((about id events).map DiagnosticEvent.sequence).Pairwise (· < ·)) :
    ((about id events ++ [event]).map DiagnosticEvent.sequence).Pairwise (· < ·) := by
  rw [List.map_append, List.pairwise_append]
  refine ⟨h, List.pairwise_singleton _ _, ?_⟩
  intro earlier hearlier later hlater
  obtain ⟨earlier, hmem, rfl⟩ := List.mem_map.1 hearlier
  rw [List.mem_singleton.1 hlater]
  exact hdense.lt_next hnext (List.mem_of_mem_filter hmem)

theorem Reconstructed.extend (h : Reconstructed events message deltas completed)
    (hdense : Dense runId events) {delta : AgentMessageDelta}
    (hnext : Next runId events (.agentMessageDelta delta))
    (hid : message.messageId = delta.messageId) {message' : ProjectedMessage}
    (hok : extendMessage delta message = .ok message') :
    Reconstructed (events ++ [.agentMessageDelta delta]) message' (deltas ++ [delta]) none := by
  obtain ⟨hfits, rfl⟩ := extendMessage_eq_ok.1 hok
  obtain rfl : completed = none := by
    have hopen := hfits.isOpen
    rw [h.completion] at hopen
    exact Option.map_eq_none_iff.1 hopen
  have hself : Messages.about message.messageId (events ++ [.agentMessageDelta delta]) =
      Messages.about message.messageId events ++ [.agentMessageDelta delta] :=
    about_concat_self events (congrArg some hid.symm)
  exact {
    about := by
      rw [hself, h.about]
      simp
    text := by
      rw [h.text]
      simp
    completion := hfits.isOpen
    scope := by
      rw [hself, List.forall_mem_append]
      refine ⟨h.scope, ?_⟩
      rintro _ (_ | ⟨_, ⟨⟩⟩)
      exact hfits.scope.symm
    ordered := by
      rw [hself]
      exact ordered_concat hdense hnext h.ordered
    first := by
      rw [hself, List.map_append, List.head?_append, h.first]
      rfl
    latest := by
      rw [hself, List.map_append]
      simp [DiagnosticEvent.sequence, DiagnosticEvent.header] }

theorem Reconstructed.close (h : Reconstructed events message deltas completed)
    (hdense : Dense runId events) {completion : AgentMessageCompleted}
    (hnext : Next runId events (.agentMessageCompleted completion))
    (hid : message.messageId = completion.messageId) {message' : ProjectedMessage}
    (hok : closeMessage completion message = .ok message') :
    Reconstructed (events ++ [.agentMessageCompleted completion]) message' deltas
      (some completion) := by
  obtain ⟨hfits, rfl⟩ := closeMessage_eq_ok.1 hok
  obtain rfl : completed = none := by
    have hopen := hfits.isOpen
    rw [h.completion] at hopen
    exact Option.map_eq_none_iff.1 hopen
  have hself : Messages.about message.messageId (events ++ [.agentMessageCompleted completion]) =
      Messages.about message.messageId events ++ [.agentMessageCompleted completion] :=
    about_concat_self events (congrArg some hid.symm)
  exact {
    about := by
      rw [hself, h.about]
      simp
    text := h.text
    completion := rfl
    scope := by
      rw [hself, List.forall_mem_append]
      refine ⟨h.scope, ?_⟩
      rintro _ (_ | ⟨_, ⟨⟩⟩)
      exact hfits.scope.symm
    ordered := by
      rw [hself]
      exact ordered_concat hdense hnext h.ordered
    first := by
      rw [hself, List.map_append, List.head?_append, h.first]
      rfl
    latest := by
      rw [hself, List.map_append]
      simp [DiagnosticEvent.sequence, DiagnosticEvent.header] }

theorem about_eq_nil {id : RunLocalId}
    (h : ¬∃ earlier ∈ events, messageId? earlier = some id) : about id events = [] := by
  rw [about, List.filter_eq_nil_iff]
  intro earlier hearlier hid
  exact h ⟨earlier, hearlier, of_decide_eq_true hid⟩

theorem reconstructed_fromDelta {delta : AgentMessageDelta}
    (h : ¬∃ earlier ∈ events, messageId? earlier = some delta.messageId) :
    Reconstructed (events ++ [.agentMessageDelta delta]) (.fromDelta delta) [delta] none := by
  have hself : Messages.about delta.messageId (events ++ [.agentMessageDelta delta]) =
      [.agentMessageDelta delta] := by
    rw [about_concat_self events rfl, about_eq_nil h]
    rfl
  exact {
    about := hself
    text := by simp [ProjectedMessage.fromDelta]
    completion := rfl
    scope := by
      show ∀ event ∈ Messages.about delta.messageId _, _
      rw [hself]
      rintro _ (_ | ⟨_, ⟨⟩⟩)
      rfl
    ordered := by
      show List.Pairwise _ ((Messages.about delta.messageId _).map _)
      rw [hself]
      exact List.pairwise_singleton _ _
    first := by
      show ((Messages.about delta.messageId _).map _).head? = _
      rw [hself]
      rfl
    latest := by
      show ((Messages.about delta.messageId _).map _).getLast? = _
      rw [hself]
      rfl }

theorem reconstructed_fromCompletion {completion : AgentMessageCompleted}
    (h : ¬∃ earlier ∈ events, messageId? earlier = some completion.messageId) :
    Reconstructed (events ++ [.agentMessageCompleted completion]) (.fromCompletion completion) []
      (some completion) := by
  have hself : Messages.about completion.messageId (events ++ [.agentMessageCompleted completion]) =
      [.agentMessageCompleted completion] := by
    rw [about_concat_self events rfl, about_eq_nil h]
    rfl
  exact {
    about := hself
    text := rfl
    completion := rfl
    scope := by
      show ∀ event ∈ Messages.about completion.messageId _, _
      rw [hself]
      rintro _ (_ | ⟨_, ⟨⟩⟩)
      rfl
    ordered := by
      show List.Pairwise _ ((Messages.about completion.messageId _).map _)
      rw [hself]
      exact List.pairwise_singleton _ _
    first := by
      show ((Messages.about completion.messageId _).map _).head? = _
      rw [hself]
      rfl
    latest := by
      show ((Messages.about completion.messageId _).map _).getLast? = _
      rw [hself]
      rfl }

/-- There is a message for each id, put together from the events about it. -/
def Follows (runId : CanonicalUuid) (events : List DiagnosticEvent)
    (projector : Projector MessageReadModel) : Prop :=
  Summarises projector.model runId events ∧
    ∀ message ∈ projector.model.messages, ∃ deltas completed,
      Reconstructed events message deltas completed

variable {messages messages' : List ProjectedMessage}

/-- An event about one message leaves the others as they are. -/
theorem reconstructed_upsert {id : RunLocalId}
    {update : ProjectedMessage → Except MessageProjectionError ProjectedMessage}
    {first : ProjectedMessage} (hholds : Holds events messages)
    (heffect : Effect event id update first)
    (hold : ∀ message ∈ messages, ∃ deltas completed, Reconstructed events message deltas completed)
    (hupdate : ∀ message ∈ messages, message.messageId = id → ∀ message',
      update message = .ok message' →
      ∃ deltas completed, Reconstructed (events ++ [event]) message' deltas completed)
    (hfirst : (¬∃ earlier ∈ events, messageId? earlier = some id) →
      ∃ deltas completed, Reconstructed (events ++ [event]) first deltas completed)
    (h : upsert ProjectedMessage.messageId id update (.ok first) messages = .ok messages') :
    ∀ message ∈ messages', ∃ deltas completed,
      Reconstructed (events ++ [event]) message deltas completed := by
  have hkept : ∀ old new, old.messageId = id → update old = .ok new → new.messageId = id :=
    fun old new hold hnew => (heffect.extends_ old new hnew).messageId.trans hold
  have hnew : ∀ new, (.ok first : Except MessageProjectionError _) = .ok new →
      new.messageId = id := by
    rintro new ⟨⟩
    exact heffect.first_id
  obtain ⟨-, item, hitem, hwritten, hmem⟩ := upsert_ok hholds.indexed.keyed hkept hnew h
  intro message hmessage
  rcases (hmem message).1 hmessage with rfl | ⟨hmessage, hother⟩
  · rcases hwritten with ⟨old, hmemOld, hid, hchanged⟩ | ⟨hnone, hinsert⟩
    · exact hupdate old hmemOld hid message hchanged
    · cases hinsert
      refine hfirst fun hearlier => ?_
      obtain ⟨old, hmemOld, hid⟩ := (hholds.indexed.named id).2 hearlier
      exact hnone old hmemOld hid
  · obtain ⟨deltas, completed, hreconstructed⟩ := hold message hmessage
    refine ⟨deltas, completed, hreconstructed.other ?_⟩
    rw [heffect.about]
    exact fun hid => hother (Option.some.inj hid).symm

theorem applyMessages_reconstructed (hdense : Dense runId events)
    (hnext : Next runId events event) (hholds : Holds events messages)
    (hold : ∀ message ∈ messages, ∃ deltas completed, Reconstructed events message deltas completed)
    (h : applyMessages messages event = .ok messages') :
    ∀ message ∈ messages', ∃ deltas completed,
      Reconstructed (events ++ [event]) message deltas completed := by
  have hskip : ∀ {event}, messageId? event = none → applyMessages messages event = .ok messages →
      applyMessages messages event = .ok messages' → ∀ message ∈ messages', ∃ deltas completed,
        Reconstructed (events ++ [event]) message deltas completed := by
    intro event hnone hsame happly message hmessage
    cases hsame.symm.trans happly
    obtain ⟨deltas, completed, hreconstructed⟩ := hold message hmessage
    exact ⟨deltas, completed, hreconstructed.other (by simp [hnone])⟩
  cases event with
  | agentMessageDelta delta =>
    refine reconstructed_upsert hholds (effect_delta delta) hold
      (fun message hmessage hid message' hupdate => ?_)
      (fun hnone => ⟨_, _, reconstructed_fromDelta hnone⟩) h
    obtain ⟨deltas, completed, hreconstructed⟩ := hold message hmessage
    exact ⟨_, _, hreconstructed.extend hdense hnext hid hupdate⟩
  | agentMessageCompleted completion =>
    refine reconstructed_upsert hholds (effect_completion completion) hold
      (fun message hmessage hid message' hupdate => ?_)
      (fun hnone => ⟨_, _, reconstructed_fromCompletion hnone⟩) h
    obtain ⟨deltas, completed, hreconstructed⟩ := hold message hmessage
    exact ⟨_, _, hreconstructed.close hdense hnext hid hupdate⟩
  | _ => exact hskip rfl rfl h

theorem follows_apply (seen : List DiagnosticEvent) (projector : Projector MessageReadModel)
    (event : DiagnosticEvent) (projector' : Projector MessageReadModel)
    (h : Follows runId seen projector)
    (hok : MessageProjector.apply projector event = (.ok (), projector')) :
    Follows runId (seen ++ [event]) projector' := by
  obtain ⟨-, hcandidate⟩ := Projector.apply_eq_ok.1 hok
  obtain ⟨hsummary, hmessages⟩ := h
  obtain ⟨_, hposition, -⟩ := bind_eq_ok.1 hcandidate
  have hnext := next_of_validatePosition hsummary.covers (mapError_eq_ok.1 hposition)
  refine ⟨candidateForEvent_summarises hsummary hnext hcandidate, ?_⟩
  obtain ⟨messages, happly, hmodel⟩ := (candidateForEvent_eq_ok hsummary hnext).1 hcandidate
  rw [← hmodel]
  exact applyMessages_reconstructed hsummary.covers.dense hnext hsummary.holds hmessages happly

theorem applyAll_follows {projector : Projector MessageReadModel}
    (h : applyAll MessageProjector.apply (.new (.empty runId)) events = (.ok (), projector)) :
    Follows runId events projector :=
  applyAll_invariant (Follows runId) follows_apply []
    ⟨summarises_empty runId, fun _ hmem => absurd hmem List.not_mem_nil⟩ h

end Project

end Messages

section Projection

variable {runId : CanonicalUuid} {events : List DiagnosticEvent}
  {projector : Projector MessageReadModel}

/-- A refused event leaves the messages as they are. -/
theorem MessageProjector.apply_model {projector' : Projector MessageReadModel}
    {event : DiagnosticEvent} {fault : Fault (ProjectorError MessageProjectionError)}
    (h : MessageProjector.apply projector event = (.error fault, projector')) :
    projector'.model = projector.model := by
  unfold MessageProjector.apply Projector.apply at h
  split at h
  · cases h
    rfl
  · split at h
    · cases h
      rfl
    · cases h

/-- **The message projector puts each message together from its own events.** Whatever events it
accepts: there is one message for each id; the events about it are its deltas and then its
completion, if any, in strictly increasing sequence; its text is the deltas' texts in that order;
and its scope is the scope of them all. After a completion nothing more is accepted for the id, and a
refused event changes nothing. -/
theorem messages_reconstructed
    (h : applyAll MessageProjector.apply (.new (.empty runId)) events = (.ok (), projector)) :
    (projector.model.messages.map ProjectedMessage.messageId).Nodup ∧
    (∀ id, id ∈ projector.model.messages.map ProjectedMessage.messageId ↔
      Messages.about id events ≠ []) ∧
    (∀ message ∈ projector.model.messages, ∃ deltas completed,
      Messages.Reconstructed events message deltas completed) ∧
    (∀ message ∈ projector.model.messages, message.completion.isSome → ∀ event,
      Messages.messageId? event = some message.messageId →
      ∃ fault, (MessageProjector.apply projector event).1 = .error fault) ∧
    ∀ event fault, (MessageProjector.apply projector event).1 = .error fault →
      (MessageProjector.apply projector event).2.model = projector.model := by
  obtain ⟨hsummary, hmessages⟩ := Messages.applyAll_follows h
  refine ⟨List.pairwise_map.2 hsummary.holds.indexed.keyed, fun id => ?_, hmessages,
    fun message hmessage hclosed event hid => ?_, fun event fault hfault => ?_⟩
  · rw [List.mem_map, hsummary.holds.indexed.named id, Messages.about, ne_eq,
      List.filter_eq_nil_iff]
    simp
  · rcases hresult : MessageProjector.apply projector event with ⟨fault | ⟨⟩, projector'⟩
    · exact ⟨fault, rfl⟩
    · obtain ⟨earlier, hearlier, hearlierId, hcompletion⟩ :=
        (hsummary.holds.describes message hmessage).completion.1 hclosed
      obtain ⟨-, hcandidate⟩ := Projector.apply_eq_ok.1 hresult
      obtain ⟨_, hposition, -⟩ := bind_eq_ok.1 hcandidate
      have hnext := next_of_validatePosition hsummary.covers (mapError_eq_ok.1 hposition)
      have hcompatible := (Messages.candidateForEvent_isOk hsummary hnext).1 ⟨_, hcandidate⟩ earlier
        hearlier message.messageId hearlierId hid
      rw [hcompatible.2.1] at hcompletion
      cases hcompletion
  · exact MessageProjector.apply_model (Prod.ext hfault rfl)

end Projection

theorem shownScene_valid : validateRunLocalId "scene-1" = .ok () := by decide +kernel

theorem shownActor_valid : validateRunLocalId "actor-1" = .ok () := by decide +kernel

/-- A delta of a message of the actor `actor-1`. -/
def shownDelta (sequence : SchemaU64) (messageId : RunLocalId) (textDelta : String)
    (h : 0 < sequence.get) : DiagnosticEvent :=
  .agentMessageDelta
    { header := ⟨⟨1⟩, sequence, 10, { DiagnosticScope.run with
        sceneId := some ⟨"scene-1", shownScene_valid⟩
        actorId := some ⟨"actor-1", shownActor_valid⟩ }, [], h⟩
      messageId
      sourceMessageId := none
      textDelta }

/-- Two messages whose deltas interleave, and the completion of one. -/
def shownMessages : List DiagnosticEvent :=
  [shownDelta 1 ⟨"message-1", by decide +kernel⟩ "ab" SchemaU64.one_pos,
    shownDelta 2 ⟨"message-2", by decide +kernel⟩ "x" SchemaU64.two_pos,
    shownDelta 3 ⟨"message-1", by decide +kernel⟩ "c" SchemaU64.three_pos,
    .agentMessageCompleted
      { header := (shownDelta 4 ⟨"message-1", by decide +kernel⟩ "" SchemaU64.four_pos).header
        messageId := ⟨"message-1", by decide +kernel⟩
        utf8Bytes := 3
        unicodeScalarCount := 3
        truncated := false }]

/-- The texts of the two messages are put together apart. -/
theorem messages_reconstructed_shown : ∃ projector : Projector MessageReadModel,
    applyAll MessageProjector.apply (.new (.empty ⟨1⟩)) shownMessages = (.ok (), projector) ∧
      projector.model.messages.map ProjectedMessage.text = ["abc", "x"] ∧
      projector.model.messages.map (·.completion.isSome) = [true, false] ∧
      ∀ message ∈ projector.model.messages, ∃ deltas completed,
        Messages.Reconstructed shownMessages message deltas completed := by
  have hok : (applyAll MessageProjector.apply (.new (.empty ⟨1⟩)) shownMessages).1 = .ok () := by
    decide +kernel
  have hrun : applyAll MessageProjector.apply (.new (.empty ⟨1⟩)) shownMessages = (.ok (), _) :=
    Prod.ext hok rfl
  obtain ⟨-, -, hmessages, -⟩ := messages_reconstructed hrun
  exact ⟨_, hrun, by decide +kernel, by decide +kernel, hmessages⟩

end Troupe.Store
