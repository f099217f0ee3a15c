import Troupe.Lib.Keyed
import Troupe.Store.Projector.Through

/-! # The message read model

`messages.rs`: the agent messages, each put together from its deltas and closed by its completion.
The reference validator does not look at message identities, so this projector has rules of its own:
a message keeps its scope and its source id, takes no delta after its completion and completes once.

`Compatible` states these rules for two events of a stream, whatever lies between them. Results:
**`candidateForEvent_isOk`** (an event is projected exactly when it is compatible with every earlier
one) and **`candidateForEvent_summarises`**. -/

namespace Troupe.Store

open Troupe.Lib Troupe.Core

/-- `MessageCompletion`. -/
structure MessageCompletion where
  sequence : SchemaU64
  elapsedNs : ElapsedNs
  utf8Bytes : SchemaU64
  unicodeScalarCount : SchemaU64
  truncated : Bool
  causedBy : List CausalLink
deriving DecidableEq

/-- `MessageCompletion::from_event`. -/
def MessageCompletion.fromEvent (event : AgentMessageCompleted) : MessageCompletion where
  sequence := event.header.sequence
  elapsedNs := event.header.elapsedNs
  utf8Bytes := event.utf8Bytes
  unicodeScalarCount := event.unicodeScalarCount
  truncated := event.truncated
  causedBy := event.header.causedBy

/-- `ProjectedMessage`. -/
structure ProjectedMessage where
  runId : CanonicalUuid
  messageId : RunLocalId
  scope : DiagnosticScope
  firstSequence : SchemaU64
  firstElapsedNs : ElapsedNs
  latestSequence : SchemaU64
  latestElapsedNs : ElapsedNs
  sourceMessageId : Option String
  text : String
  completion : Option MessageCompletion
deriving DecidableEq

/-- `ProjectedMessage::from_delta`. -/
def ProjectedMessage.fromDelta (event : AgentMessageDelta) : ProjectedMessage where
  runId := event.header.runId
  messageId := event.messageId
  scope := event.header.scope
  firstSequence := event.header.sequence
  firstElapsedNs := event.header.elapsedNs
  latestSequence := event.header.sequence
  latestElapsedNs := event.header.elapsedNs
  sourceMessageId := event.sourceMessageId
  text := event.textDelta
  completion := none

/-- `ProjectedMessage::from_completion`. -/
def ProjectedMessage.fromCompletion (event : AgentMessageCompleted) : ProjectedMessage where
  runId := event.header.runId
  messageId := event.messageId
  scope := event.header.scope
  firstSequence := event.header.sequence
  firstElapsedNs := event.header.elapsedNs
  latestSequence := event.header.sequence
  latestElapsedNs := event.header.elapsedNs
  sourceMessageId := none
  text := ""
  completion := some (.fromEvent event)

/-- `MessageReadModel`. -/
structure MessageReadModel extends Through where
  messages : List ProjectedMessage

/-- `MessageReadModel::empty`. -/
def MessageReadModel.empty (runId : CanonicalUuid) : MessageReadModel := ⟨.empty runId, []⟩

/-- `MessageIdentityField`. -/
inductive MessageIdentityField where
  | scope
  | sourceMessageId
deriving DecidableEq

/-- `MessageProjectionError`, less the variant only `MessageProjector` returns. -/
inductive MessageProjectionError where
  | position (error : PositionError)
  | identityMismatch (messageId : RunLocalId) (eventSequence : SchemaU64)
      (field : MessageIdentityField)
  | duplicateCompletion (messageId : RunLocalId) (eventSequence : SchemaU64)
  | deltaAfterCompletion (messageId : RunLocalId) (eventSequence : SchemaU64)
deriving DecidableEq

namespace Messages

/-- `validate_scope_identity`. -/
def validateScopeIdentity (message : ProjectedMessage) (actual : DiagnosticScope)
    (eventSequence : SchemaU64) : Except MessageProjectionError Unit :=
  if message.scope ≠ actual then
    .error (.identityMismatch message.messageId eventSequence .scope)
  else
    .ok ()

/-- The source id after a delta: the first one seen stays. -/
def mergeSourceMessageId (message : ProjectedMessage) (event : AgentMessageDelta) :
    Except MessageProjectionError (Option String) :=
  match event.sourceMessageId, message.sourceMessageId with
  | some sourceMessageId, some expected =>
    if expected ≠ sourceMessageId then
      .error (.identityMismatch event.messageId event.header.sequence .sourceMessageId)
    else
      .ok (some expected)
  | some sourceMessageId, none => .ok (some sourceMessageId)
  | none, current => .ok current

/-- What `apply_delta` does to the message it finds. -/
def extendMessage (event : AgentMessageDelta) (message : ProjectedMessage) :
    Except MessageProjectionError ProjectedMessage := do
  validateScopeIdentity message event.header.scope event.header.sequence
  if message.completion.isSome then
    .error (.deltaAfterCompletion event.messageId event.header.sequence)
  else
    let sourceMessageId ← mergeSourceMessageId message event
    .ok { message with
      sourceMessageId := sourceMessageId
      text := message.text ++ event.textDelta
      latestSequence := event.header.sequence
      latestElapsedNs := event.header.elapsedNs }

/-- What `apply_completion` does to the message it finds. -/
def closeMessage (event : AgentMessageCompleted) (message : ProjectedMessage) :
    Except MessageProjectionError ProjectedMessage := do
  validateScopeIdentity message event.header.scope event.header.sequence
  if message.completion.isSome then
    .error (.duplicateCompletion event.messageId event.header.sequence)
  else
    .ok { message with
      completion := some (.fromEvent event)
      latestSequence := event.header.sequence
      latestElapsedNs := event.header.elapsedNs }

/-- `apply_delta`. -/
def applyDelta (messages : List ProjectedMessage) (event : AgentMessageDelta) :
    Except MessageProjectionError (List ProjectedMessage) :=
  upsert ProjectedMessage.messageId event.messageId (extendMessage event)
    (.ok (.fromDelta event)) messages

/-- `apply_completion`. -/
def applyCompletion (messages : List ProjectedMessage) (event : AgentMessageCompleted) :
    Except MessageProjectionError (List ProjectedMessage) :=
  upsert ProjectedMessage.messageId event.messageId (closeMessage event)
    (.ok (.fromCompletion event)) messages

/-- What `candidate_for_event` does to the messages. -/
def applyMessages (messages : List ProjectedMessage) :
    DiagnosticEvent → Except MessageProjectionError (List ProjectedMessage)
  | .agentMessageDelta delta => applyDelta messages delta
  | .agentMessageCompleted completion => applyCompletion messages completion
  | .spanStarted _ | .spanFinished _ | .instantOccurred _ | .counterSampled _
  | .agentPlanSnapshot _ | .contextUsageSampled _ | .actTokenUsageFinalized _ | .observationGap _
  | .customSpanStarted _ | .customSpanFinished _ | .customInstantOccurred _
  | .customCounterSampled _ => .ok messages

/-- `candidate_for_event`, which `project_validated_event` calls. -/
def candidateForEvent (model : MessageReadModel) (event : DiagnosticEvent) :
    Except MessageProjectionError MessageReadModel := do
  (model.validatePosition event).mapError .position
  let messages ← applyMessages model.messages event
  .ok ⟨model.advance event, messages⟩

/-! ## Two events of one message -/

/-- The message an event is about. -/
def messageId? : DiagnosticEvent → Option RunLocalId
  | .agentMessageDelta delta => some delta.messageId
  | .agentMessageCompleted completion => some completion.messageId
  | _ => none

/-- The event completes its message. -/
def isCompletion : DiagnosticEvent → Bool
  | .agentMessageCompleted _ => true
  | _ => false

/-- The source id an event gives for its message. -/
def sourceMessageId? : DiagnosticEvent → Option String
  | .agentMessageDelta delta => delta.sourceMessageId
  | _ => none

/-- `later` can follow `earlier`: if both are about one message, it has one scope, it was not
completed before, and the source ids given for it agree. -/
def Compatible (earlier later : DiagnosticEvent) : Prop :=
  ∀ id ∈ messageId? earlier, messageId? later = some id →
    earlier.scope = later.scope ∧ isCompletion earlier = false ∧
      ∀ source ∈ sourceMessageId? earlier, ∀ other ∈ sourceMessageId? later, source = other

instance (earlier later : DiagnosticEvent) : Decidable (Compatible earlier later) := by
  unfold Compatible
  infer_instance

/-! ## Messages and their histories -/

/-- `message` collects what `history` says about it. -/
structure Describes (history : List DiagnosticEvent) (message : ProjectedMessage) : Prop where
  scope : ∀ event ∈ history, messageId? event = some message.messageId →
    event.scope = message.scope
  completion : message.completion.isSome ↔
    ∃ event ∈ history, messageId? event = some message.messageId ∧ isCompletion event
  source : ∀ source, message.sourceMessageId = some source ↔
    ∃ event ∈ history, messageId? event = some message.messageId ∧
      sourceMessageId? event = some source

/-- There is one message for each id that `history` names. -/
structure Holds (history : List DiagnosticEvent) (messages : List ProjectedMessage) : Prop where
  indexed : Indexed ProjectedMessage.messageId messages messageId? history
  describes : ∀ message ∈ messages, Describes history message

/-- The read model is that of `history`. -/
structure Summarises (model : MessageReadModel) (runId : CanonicalUuid)
    (history : List DiagnosticEvent) : Prop where
  covers : model.Covers runId history
  holds : Holds history model.messages

theorem summarises_empty (runId : CanonicalUuid) : Summarises (.empty runId) runId [] where
  covers := covers_empty
  holds := ⟨indexed_nil, by simp [MessageReadModel.empty]⟩

section Project

variable {runId : CanonicalUuid} {history : List DiagnosticEvent} {event : DiagnosticEvent}
  {messages messages' : List ProjectedMessage} {message message' : ProjectedMessage}

theorem Describes.append (h : Describes history message)
    (hother : messageId? event ≠ some message.messageId) :
    Describes (history ++ [event]) message where
  scope := by
    intro earlier hearlier hid
    rcases List.mem_append.mp hearlier with hearlier | hearlier
    · exact h.scope earlier hearlier hid
    · rw [List.mem_singleton.mp hearlier] at hid
      exact absurd hid hother
  completion := by
    rw [h.completion]
    simp [or_and_right, exists_or, hother]
  source := by
    intro source
    rw [h.source]
    simp [or_and_right, exists_or, hother]

/-- How an event changes the message it is about. -/
structure Extends (event : DiagnosticEvent) (message message' : ProjectedMessage) : Prop where
  messageId : message'.messageId = message.messageId
  scope : message'.scope = message.scope
  completion : message'.completion.isSome = isCompletion event
  source : message'.sourceMessageId = message.sourceMessageId.or (sourceMessageId? event)

/-- The checks an event passes at the message it is about. -/
structure Fits (event : DiagnosticEvent) (message : ProjectedMessage) : Prop where
  scope : message.scope = event.scope
  isOpen : message.completion = none
  source : ∀ expected ∈ message.sourceMessageId, ∀ source ∈ sourceMessageId? event,
    expected = source

theorem mergeSourceMessageId_eq_ok {delta : AgentMessageDelta} {source : Option String} :
    mergeSourceMessageId message delta = .ok source ↔
      (∀ expected ∈ message.sourceMessageId, ∀ given ∈ delta.sourceMessageId, expected = given) ∧
        source = message.sourceMessageId.or delta.sourceMessageId := by
  unfold mergeSourceMessageId
  cases delta.sourceMessageId with
  | none => cases message.sourceMessageId <;> simp [eq_comm]
  | some given =>
    cases message.sourceMessageId with
    | none => simp [eq_comm]
    | some expected =>
      simp only [ite_error_eq_ok, not_not]
      simp [eq_comm]

/-- One event's effect on the message it is about: an update that succeeds when the event fits, and
a message to start with. -/
structure Effect (event : DiagnosticEvent) (id : RunLocalId)
    (update : ProjectedMessage → Except MessageProjectionError ProjectedMessage)
    (first : ProjectedMessage) : Prop where
  about : messageId? event = some id
  isOk : ∀ message, (∃ message', update message = .ok message') ↔ Fits event message
  extends_ : ∀ message message', update message = .ok message' → Extends event message message'
  first_id : first.messageId = id
  first_scope : first.scope = event.scope
  first_completion : first.completion.isSome = isCompletion event
  first_source : first.sourceMessageId = sourceMessageId? event

theorem validateScopeIdentity_bind_eq_ok {scope : DiagnosticScope} {sequence : SchemaU64}
    {rest : Except MessageProjectionError ProjectedMessage} :
    (do validateScopeIdentity message scope sequence; rest) = .ok message' ↔
      message.scope = scope ∧ rest = .ok message' := by
  rw [bind_eq_ok]
  simp only [validateScopeIdentity, ite_error_eq_ok, not_not, and_true]
  constructor
  · rintro ⟨-, hscope, hrest⟩
    exact ⟨hscope, hrest⟩
  · rintro ⟨hscope, hrest⟩
    exact ⟨(), hscope, hrest⟩

theorem extendMessage_eq_ok {delta : AgentMessageDelta} :
    extendMessage delta message = .ok message' ↔
      Fits (.agentMessageDelta delta) message ∧ { message with
        sourceMessageId := message.sourceMessageId.or delta.sourceMessageId
        text := message.text ++ delta.textDelta
        latestSequence := delta.header.sequence
        latestElapsedNs := delta.header.elapsedNs } = message' := by
  unfold extendMessage
  rw [validateScopeIdentity_bind_eq_ok, ite_error_eq_ok, bind_eq_ok]
  simp only [mergeSourceMessageId_eq_ok, Option.not_isSome_iff_eq_none]
  constructor
  · rintro ⟨hscope, hopen, _, ⟨hsource, rfl⟩, hresult⟩
    cases hresult
    exact ⟨⟨hscope, hopen, hsource⟩, rfl⟩
  · rintro ⟨⟨hscope, hopen, hsource⟩, rfl⟩
    exact ⟨hscope, hopen, _, ⟨hsource, rfl⟩, rfl⟩

theorem closeMessage_eq_ok {completion : AgentMessageCompleted} :
    closeMessage completion message = .ok message' ↔
      Fits (.agentMessageCompleted completion) message ∧ { message with
        completion := some (.fromEvent completion)
        latestSequence := completion.header.sequence
        latestElapsedNs := completion.header.elapsedNs } = message' := by
  unfold closeMessage
  rw [validateScopeIdentity_bind_eq_ok, ite_error_eq_ok, Option.not_isSome_iff_eq_none]
  constructor
  · rintro ⟨hscope, hopen, hresult⟩
    cases hresult
    exact ⟨⟨hscope, hopen, by simp [sourceMessageId?]⟩, rfl⟩
  · rintro ⟨⟨hscope, hopen, -⟩, rfl⟩
    exact ⟨hscope, hopen, rfl⟩

theorem effect_delta (delta : AgentMessageDelta) :
    Effect (.agentMessageDelta delta) delta.messageId (extendMessage delta) (.fromDelta delta) where
  about := rfl
  isOk message := by
    simp only [extendMessage_eq_ok, exists_and_left, exists_eq', and_true]
  extends_ message message' h := by
    obtain ⟨hfits, rfl⟩ := extendMessage_eq_ok.mp h
    exact ⟨rfl, rfl, by simp [hfits.isOpen, isCompletion], rfl⟩
  first_id := rfl
  first_scope := rfl
  first_completion := rfl
  first_source := rfl

theorem effect_completion (completion : AgentMessageCompleted) :
    Effect (.agentMessageCompleted completion) completion.messageId (closeMessage completion)
      (.fromCompletion completion) where
  about := rfl
  isOk message := by
    simp only [closeMessage_eq_ok, exists_and_left, exists_eq', and_true]
  extends_ message message' h := by
    obtain ⟨-, rfl⟩ := closeMessage_eq_ok.mp h
    exact ⟨rfl, rfl, rfl, by simp [sourceMessageId?]⟩
  first_id := rfl
  first_scope := rfl
  first_completion := rfl
  first_source := rfl

/-- At a message that describes the history, fitting is being compatible with what came before. -/
theorem fits_iff_compatible (h : Describes history message)
    (hid : messageId? event = some message.messageId)
    (hnamed : ∃ earlier ∈ history, messageId? earlier = some message.messageId) :
    Fits event message ↔ ∀ earlier ∈ history, Compatible earlier event := by
  constructor
  · rintro ⟨hscope, hopen, hsource⟩ earlier hearlier id hearlierId hid'
    rw [hid'] at hid
    cases hid
    refine ⟨(h.scope earlier hearlier hearlierId).trans hscope, ?_, ?_⟩
    · by_contra hcompletion
      have hclosed := h.completion.mpr
        ⟨earlier, hearlier, hearlierId, by simpa using hcompletion⟩
      rw [hopen] at hclosed
      cases hclosed
    · intro source hgiven other hother
      exact hsource source ((h.source source).mpr ⟨earlier, hearlier, hearlierId, hgiven⟩) other
        hother
  · intro hcompatible
    refine ⟨?_, ?_, ?_⟩
    · obtain ⟨earlier, hearlier, hearlierId⟩ := hnamed
      rw [← h.scope earlier hearlier hearlierId]
      exact (hcompatible earlier hearlier _ hearlierId hid).1
    · by_contra hclosed
      obtain ⟨earlier, hearlier, hearlierId, hcompletion⟩ :=
        h.completion.mp (Option.isSome_iff_ne_none.mpr hclosed)
      have hnot := (hcompatible earlier hearlier _ hearlierId hid).2.1
      rw [hcompletion] at hnot
      cases hnot
    · intro expected hexpected source hsource
      obtain ⟨earlier, hearlier, hearlierId, hgiven⟩ := (h.source expected).mp hexpected
      exact (hcompatible earlier hearlier _ hearlierId hid).2.2 expected hgiven source hsource

theorem describes_extends (h : Describes history message)
    (hid : messageId? event = some message.messageId) (hfits : Fits event message)
    (hextends : Extends event message message') : Describes (history ++ [event]) message' where
  scope := by
    intro earlier hearlier hearlierId
    rw [hextends.messageId] at hearlierId
    rw [hextends.scope]
    rcases List.mem_append.mp hearlier with hearlier | hearlier
    · exact h.scope earlier hearlier hearlierId
    · rw [List.mem_singleton.mp hearlier]
      exact hfits.scope.symm
  completion := by
    -- The message was open, so only the new event can complete it.
    have hnone : ¬∃ earlier ∈ history,
        messageId? earlier = some message.messageId ∧ isCompletion earlier = true := by
      rw [← h.completion, hfits.isOpen]
      simp
    rw [hextends.completion, hextends.messageId]
    simp only [List.mem_append, List.mem_singleton, or_and_right, exists_or, exists_eq_left, hid,
      true_and, hnone, false_or]
  source := by
    intro source
    rw [hextends.source, hextends.messageId]
    simp only [List.mem_append, List.mem_singleton, or_and_right, exists_or, exists_eq_left, hid,
      true_and, ← h.source source]
    cases hold : message.sourceMessageId with
    | none => simp
    | some expected =>
      rw [Option.some_or, Option.some.injEq]
      constructor
      · exact Or.inl
      · rintro (hsame | hgiven)
        · exact hsame
        · exact hfits.source expected hold source hgiven

theorem describes_first {first : ProjectedMessage} {id : RunLocalId}
    {update : ProjectedMessage → Except MessageProjectionError ProjectedMessage}
    (heffect : Effect event id update first)
    (hnone : ¬∃ earlier ∈ history, messageId? earlier = some id) :
    Describes (history ++ [event]) first where
  scope := by
    intro earlier hearlier hearlierId
    rw [heffect.first_id] at hearlierId
    rcases List.mem_append.mp hearlier with hearlier | hearlier
    · exact absurd ⟨earlier, hearlier, hearlierId⟩ hnone
    · rw [List.mem_singleton.mp hearlier]
      exact heffect.first_scope.symm
  completion := by
    have hnever : ¬∃ earlier ∈ history,
        messageId? earlier = some id ∧ isCompletion earlier = true :=
      fun ⟨earlier, hearlier, hid, _⟩ => hnone ⟨earlier, hearlier, hid⟩
    rw [heffect.first_completion, heffect.first_id]
    simp only [List.mem_append, List.mem_singleton, or_and_right, exists_or, exists_eq_left,
      heffect.about, true_and, hnever, false_or]
  source := by
    intro source
    have hnever : ¬∃ earlier ∈ history,
        messageId? earlier = some id ∧ sourceMessageId? earlier = some source :=
      fun ⟨earlier, hearlier, hid, _⟩ => hnone ⟨earlier, hearlier, hid⟩
    rw [heffect.first_source, heffect.first_id]
    simp only [List.mem_append, List.mem_singleton, or_and_right, exists_or, exists_eq_left,
      heffect.about, true_and, hnever, false_or]

section Effect

variable {id : RunLocalId} {first : ProjectedMessage}
  {update : ProjectedMessage → Except MessageProjectionError ProjectedMessage}

theorem upsert_compatible (hholds : Holds history messages) (heffect : Effect event id update first) :
    (∃ messages', upsert ProjectedMessage.messageId id update (.ok first) messages = .ok messages') ↔
      ∀ earlier ∈ history, Compatible earlier event := by
  rw [upsert_isOk hholds.indexed.keyed]
  simp only [Except.ok.injEq, exists_eq', implies_true, and_true, heffect.isOk]
  by_cases hnamed : ∃ message ∈ messages, message.messageId = id
  · obtain ⟨message, hmessage, rfl⟩ := hnamed
    have hearlier := (hholds.indexed.named message.messageId).mp ⟨message, hmessage, rfl⟩
    rw [← fits_iff_compatible (hholds.describes message hmessage) heffect.about hearlier]
    constructor
    · intro hfits
      exact hfits message hmessage rfl
    · intro hfits old hold hid
      rw [hholds.indexed.keyed.eq hold hmessage hid]
      exact hfits
  · -- A message not seen before: nothing earlier is about it.
    constructor
    · intro _ earlier hearlier other hother hid
      rw [heffect.about] at hid
      cases hid
      exact absurd ((hholds.indexed.named id).mpr ⟨earlier, hearlier, hother⟩) hnamed
    · intro _ old hold hid
      exact absurd ⟨old, hold, hid⟩ hnamed

theorem upsert_holds (hholds : Holds history messages) (heffect : Effect event id update first)
    (h : upsert ProjectedMessage.messageId id update (.ok first) messages = .ok messages') :
    Holds (history ++ [event]) messages' := by
  have hkept : ∀ old new, old.messageId = id → update old = .ok new → new.messageId = id :=
    fun old new hold hnew => (heffect.extends_ old new hnew).messageId.trans hold
  have hnew : ∀ new, (.ok first : Except MessageProjectionError _) = .ok new → new.messageId = id := by
    rintro new ⟨⟩
    exact heffect.first_id
  obtain ⟨-, item, -, hwritten, hmem⟩ := upsert_ok hholds.indexed.keyed hkept hnew h
  have hdescribes : Describes (history ++ [event]) item := by
    rcases hwritten with ⟨old, hold, hid, hupdate⟩ | ⟨hnone, hfirst⟩
    · have hfits := (heffect.isOk old).mp ⟨item, hupdate⟩
      exact describes_extends (hholds.describes old hold) (hid ▸ heffect.about) hfits
        (heffect.extends_ old item hupdate)
    · cases hfirst
      refine describes_first heffect fun hearlier => ?_
      obtain ⟨old, hold, hid⟩ := (hholds.indexed.named id).mpr hearlier
      exact hnone old hold hid
  refine ⟨indexed_upsert hholds.indexed heffect.about hkept hnew h, fun message hmessage => ?_⟩
  rcases (hmem message).mp hmessage with rfl | ⟨hmessage, hother⟩
  · exact hdescribes
  · refine (hholds.describes message hmessage).append ?_
    rw [heffect.about]
    exact fun hid => hother (Option.some.inj hid).symm

end Effect

/-- Every event either has an effect on the message it is about or leaves the messages alone. -/
theorem applyMessages_cases (event : DiagnosticEvent) :
    (∃ id update first, Effect event id update first ∧ ∀ messages, applyMessages messages event =
      upsert ProjectedMessage.messageId id update (.ok first) messages) ∨
    (messageId? event = none ∧ ∀ messages, applyMessages messages event = .ok messages) := by
  cases event with
  | agentMessageDelta delta => exact Or.inl ⟨_, _, _, effect_delta delta, fun _ => rfl⟩
  | agentMessageCompleted completion =>
    exact Or.inl ⟨_, _, _, effect_completion completion, fun _ => rfl⟩
  | _ => exact Or.inr ⟨rfl, fun _ => rfl⟩

theorem applyMessages_isOk (hholds : Holds history messages) :
    (∃ messages', applyMessages messages event = .ok messages') ↔
      ∀ earlier ∈ history, Compatible earlier event := by
  rcases applyMessages_cases event with ⟨id, update, first, heffect, happly⟩ | ⟨hnone, happly⟩
  · rw [happly]
    exact upsert_compatible hholds heffect
  · rw [happly]
    constructor
    · intro _ earlier _ id _ hid
      rw [hnone] at hid
      cases hid
    · exact fun _ => ⟨messages, rfl⟩

theorem applyMessages_holds (hholds : Holds history messages)
    (h : applyMessages messages event = .ok messages') : Holds (history ++ [event]) messages' := by
  rcases applyMessages_cases event with ⟨id, update, first, heffect, happly⟩ | ⟨hnone, happly⟩
  · rw [happly] at h
    exact upsert_holds hholds heffect h
  · rw [happly] at h
    cases h
    refine ⟨hholds.indexed.skip hnone, fun message hmessage => ?_⟩
    exact (hholds.describes message hmessage).append (by simp [hnone])

variable {model model' : MessageReadModel}

theorem candidateForEvent_eq_ok (h : Summarises model runId history)
    (hnext : Next runId history event) : candidateForEvent model event = .ok model' ↔
      ∃ messages, applyMessages model.messages event = .ok messages ∧
        ⟨model.advance event, messages⟩ = model' := by
  unfold candidateForEvent
  rw [mapError_bind_of_ok (validatePosition_next h.covers hnext), bind_eq_ok]
  simp only [Except.ok.injEq]

/-- **The next event is projected exactly when it is compatible with every earlier one.** -/
theorem candidateForEvent_isOk (h : Summarises model runId history)
    (hnext : Next runId history event) : (∃ model', candidateForEvent model event = .ok model') ↔
      ∀ earlier ∈ history, Compatible earlier event := by
  rw [← applyMessages_isOk h.holds]
  simp only [candidateForEvent_eq_ok h hnext]
  rw [exists_comm]
  simp

theorem candidateForEvent_summarises (h : Summarises model runId history)
    (hnext : Next runId history event) (hok : candidateForEvent model event = .ok model') :
    Summarises model' runId (history ++ [event]) := by
  obtain ⟨messages, hmessages, rfl⟩ := (candidateForEvent_eq_ok h hnext).mp hok
  exact ⟨covers_advance h.covers hnext, applyMessages_holds h.holds hmessages⟩

end Project

end Messages

end Troupe.Store
