import Mathlib.Data.Finset.Insert
import Mathlib.Data.List.AList
import Troupe.Core.Scalar
import Troupe.Lib.Boundary
import Troupe.Lib.Result

/-! # Agent message facts

`diagnostics/message.rs`: the chunks of text a provider sends in one turn become deltas, each message
closed by a completion. Text is buffered until it is 16 KiB, or older than the flush interval, or
something else is observed; a message captures at most 4 MiB and a turn 16 MiB, both cut at a
character boundary.

* A text is the list of its characters; sizes are in bytes of UTF-8, and a slice panics off a
  character boundary, as a subtraction below zero does.
* `Uuid::new_v4` is part of the input: `draws` are the message ids made from the values it gives in a
  call. `allocate_message_id` goes on until one is new; with too few draws it is `unfinished`.
* `observe_chunk` and `observe_session_update` are these calls under other names. -/

namespace Troupe.Agent.Diagnostics

open Troupe.Core Troupe.Lib

/-- `AGENT_MESSAGE_DELTA_FLUSH_BYTES`. -/
def agentMessageDeltaFlushBytes : Nat := 16 * 1024

/-- `AGENT_MESSAGE_DELTA_FLUSH_NS`. -/
def agentMessageDeltaFlushNs : Nat := 20000000

/-- `AGENT_MESSAGE_MAX_BYTES`. -/
def agentMessageMaxBytes : Nat := 4 * 1024 * 1024

/-- `ACT_AGENT_MESSAGES_MAX_BYTES`. -/
def actAgentMessagesMaxBytes : Nat := 16 * 1024 * 1024

/-! ## Facts -/

/-- `AgentMessageDeltaCandidate`. -/
structure AgentMessageDeltaCandidate where
  elapsedNs : ElapsedNs
  messageId : RunLocalId
  sourceMessageId : Option String
  textDelta : List Char
deriving DecidableEq

/-- `AgentMessageCompletedCandidate`. -/
structure AgentMessageCompletedCandidate where
  elapsedNs : ElapsedNs
  messageId : RunLocalId
  utf8Bytes : Nat
  unicodeScalarCount : Nat
  truncated : Bool
deriving DecidableEq

/-- `AgentMessageSourceGapReason`. -/
inductive AgentMessageSourceGapReason where
  | completedSourceMessageIdReused
deriving DecidableEq

/-- `AgentMessageSourceGapReason::as_str`. -/
def AgentMessageSourceGapReason.asStr : AgentMessageSourceGapReason → String
  | .completedSourceMessageIdReused => "completed_source_message_id_reused"

/-- `AgentMessageSourceGapCandidate`. -/
structure AgentMessageSourceGapCandidate where
  elapsedNs : ElapsedNs
  reason : AgentMessageSourceGapReason
  sourceMessageId : String
  previousMessageId : RunLocalId
  replacementMessageId : RunLocalId
deriving DecidableEq

/-- `AgentMessageCandidate`. -/
inductive AgentMessageCandidate where
  | delta (candidate : AgentMessageDeltaCandidate)
  | completed (candidate : AgentMessageCompletedCandidate)
  | sourceGap (candidate : AgentMessageSourceGapCandidate)
deriving DecidableEq

/-- How a call ends without facts. -/
inductive MessageFault where
  /-- `AgentMessageNormalizationError::TurnAlreadyTerminal`. -/
  | turnAlreadyTerminal
  | panicked (message : String)
  /-- A loop has not ended: its turns or its draws are used up. -/
  | unfinished
deriving DecidableEq

/-! ## The normalizer -/

/-- `OpenMessage`. -/
structure OpenMessage where
  messageId : RunLocalId
  sourceMessageId : Option String
  utf8Bytes : Nat
  unicodeScalarCount : Nat
  truncated : Bool

/-- `PendingDelta`. -/
structure PendingDelta where
  elapsedNs : ElapsedNs
  messageId : RunLocalId
  sourceMessageId : Option String
  text : List Char

/-- `AgentMessageNormalizer`. -/
structure AgentMessageNormalizer where
  openMessages : List OpenMessage
  anonymousMessageId : Option RunLocalId
  activeExplicitMessageId : Option RunLocalId
  completedExplicitMessageIds : AList fun _ : String => RunLocalId
  allocatedMessageIds : Finset RunLocalId
  pendingDelta : Option PendingDelta
  capturedActUtf8Bytes : Nat
  terminal : Bool

/-- `a - b` on `usize`. -/
def usizeSub (a b : Nat) : Except MessageFault Nat :=
  match checkedSub a b with
  | some difference => .ok difference
  | none => .error (.panicked "attempt to subtract with overflow")

/-- `(&text[..at], &text[at..])`. -/
def sliceAt (text : List Char) (index : Nat) : Except MessageFault (List Char × List Char) :=
  match byteSplit text index with
  | some parts => .ok parts
  | none => .error (.panicked "byte index is not a char boundary")

/-- The `Completed` of a message. -/
def OpenMessage.complete (message : OpenMessage) (elapsedNs : ElapsedNs) : AgentMessageCandidate :=
  .completed ⟨elapsedNs, message.messageId, message.utf8Bytes, message.unicodeScalarCount,
    message.truncated⟩

/-- What `flush_pending` pushes for the buffered text. -/
def PendingDelta.flush (pending : PendingDelta) : AgentMessageCandidate :=
  .delta ⟨pending.elapsedNs, pending.messageId, pending.sourceMessageId, pending.text⟩

/-- The message at `message_position`, changed in place. -/
def changeMessage (messageId : RunLocalId) (change : OpenMessage → OpenMessage) :
    List OpenMessage → List OpenMessage
  | [] => []
  | message :: messages =>
    if message.messageId = messageId then
      change message :: messages
    else
      message :: changeMessage messageId change messages

namespace AgentMessageNormalizer

/-- `AgentMessageNormalizer::new`. -/
def new : AgentMessageNormalizer := ⟨[], none, none, ∅, ∅, none, 0, false⟩

/-- `ensure_open`. -/
def ensureOpen (normalizer : AgentMessageNormalizer) : Except MessageFault Unit :=
  if normalizer.terminal then .error .turnAlreadyTerminal else .ok ()

/-- `message`. -/
def message (normalizer : AgentMessageNormalizer) (messageId : RunLocalId) : Option OpenMessage :=
  normalizer.openMessages.find? (·.messageId = messageId)

/-- `flush_pending`. -/
def flushPending (normalizer : AgentMessageNormalizer) :
    List AgentMessageCandidate × AgentMessageNormalizer :=
  (normalizer.pendingDelta.toList.map PendingDelta.flush, { normalizer with pendingDelta := none })

/-- `flush_if_elapsed`. -/
def flushIfElapsed (normalizer : AgentMessageNormalizer) (elapsedNs : ElapsedNs) :
    List AgentMessageCandidate × AgentMessageNormalizer :=
  if normalizer.pendingDelta.any fun pending =>
      agentMessageDeltaFlushNs ≤ elapsedNs.get - pending.elapsedNs.get then
    normalizer.flushPending
  else
    ([], normalizer)

/-- `complete_message`. -/
def completeMessage (normalizer : AgentMessageNormalizer) (messageId : RunLocalId)
    (elapsedNs : ElapsedNs) :
    Except MessageFault (List AgentMessageCandidate × AgentMessageNormalizer) :=
  match normalizer.message messageId with
  | none => .error (.panicked "completed message identity must resolve")
  | some message =>
    let removed := { normalizer with
      openMessages := normalizer.openMessages.eraseP (·.messageId = messageId) }
    let recorded := match message.sourceMessageId with
      | some sourceMessageId =>
        { removed with
          completedExplicitMessageIds :=
            removed.completedExplicitMessageIds.insert sourceMessageId message.messageId }
      | none => { removed with anonymousMessageId := none }
    .ok ([message.complete elapsedNs], recorded)

/-- `allocate_message_id`. -/
def allocateMessageId (normalizer : AgentMessageNormalizer) :
    List RunLocalId → Except MessageFault (RunLocalId × AgentMessageNormalizer)
  | [] => .error .unfinished
  | messageId :: draws =>
    if messageId ∈ normalizer.allocatedMessageIds then
      allocateMessageId normalizer draws
    else
      .ok (messageId, { normalizer with
        allocatedMessageIds := insert messageId normalizer.allocatedMessageIds })

/-- `open_messages.push` of a message without text. -/
def pushMessage (normalizer : AgentMessageNormalizer) (messageId : RunLocalId)
    (sourceMessageId : Option String) : AgentMessageNormalizer :=
  { normalizer with
    openMessages := normalizer.openMessages ++ [⟨messageId, sourceMessageId, 0, 0, false⟩] }

/-- The rest of `message_for_source`, when an explicit message starts. -/
def startExplicit (normalizer : AgentMessageNormalizer) (source : String) (elapsedNs : ElapsedNs)
    (draws : List RunLocalId) :
    Except MessageFault (RunLocalId × List AgentMessageCandidate × AgentMessageNormalizer) := do
  let previousGeneration := normalizer.completedExplicitMessageIds.lookup source
  let (messageId, normalizer) ← normalizer.allocateMessageId draws
  let normalizer :=
    { normalizer.pushMessage messageId (some source) with
      activeExplicitMessageId := some messageId }
  let gap := previousGeneration.toList.map fun previousMessageId =>
    AgentMessageCandidate.sourceGap
      ⟨elapsedNs, .completedSourceMessageIdReused, source, previousMessageId, messageId⟩
  .ok (messageId, gap, normalizer)

/-- `message_for_source`. -/
def messageForSource (normalizer : AgentMessageNormalizer) (sourceMessageId : Option String)
    (elapsedNs : ElapsedNs) (draws : List RunLocalId) :
    Except MessageFault (RunLocalId × List AgentMessageCandidate × AgentMessageNormalizer) :=
  match sourceMessageId with
  | none =>
    match normalizer.anonymousMessageId with
    | some messageId => .ok (messageId, [], normalizer)
    | none => do
      let (messageId, normalizer) ← normalizer.allocateMessageId draws
      .ok (messageId, [],
        { normalizer.pushMessage messageId none with anonymousMessageId := some messageId })
  | some source =>
    let activeSource := do
      let activeMessageId ← normalizer.activeExplicitMessageId
      let message ← normalizer.message activeMessageId
      message.sourceMessageId
    match normalizer.activeExplicitMessageId, decide (activeSource = some source) with
    | some activeMessageId, true => .ok (activeMessageId, [], normalizer)
    | active, _ => do
      let (flushed, normalizer) := normalizer.flushPending
      let (completed, normalizer) ← match active with
        | some previousMessageId =>
          completeMessage { normalizer with activeExplicitMessageId := none } previousMessageId
            elapsedNs
        | none => .ok ([], normalizer)
      let (messageId, gap, normalizer) ← normalizer.startExplicit source elapsedNs draws
      .ok (messageId, flushed ++ completed ++ gap, normalizer)

/-- The loop of `append_captured`, over the field `pending_delta`; it ends within `turns` turns. -/
def appendLoop (messageId : RunLocalId) (sourceMessageId : Option String) (elapsedNs : ElapsedNs) :
    Nat → Option PendingDelta → List Char →
      Except MessageFault (List AgentMessageCandidate × Option PendingDelta)
  | _, pendingDelta, [] => .ok ([], pendingDelta)
  | 0, _, _ :: _ => .error .unfinished
  | turns + 1, pendingDelta, c :: text => do
    -- The text buffered for another message goes out first.
    let (flushed, pendingDelta) :=
      if pendingDelta.any (·.messageId ≠ messageId) then
        (pendingDelta.toList.map PendingDelta.flush, none)
      else
        ([], pendingDelta)
    let pending := pendingDelta.getD ⟨elapsedNs, messageId, sourceMessageId, []⟩
    let capacity ← usizeSub agentMessageDeltaFlushBytes (utf8Size pending.text)
    let capturedLen := utf8PrefixLen (c :: text) capacity
    if capturedLen = 0 then
      let (rest, pendingDelta) ←
        appendLoop messageId sourceMessageId elapsedNs turns none (c :: text)
      .ok (flushed ++ pending.flush :: rest, pendingDelta)
    else
      let (captured, text) ← sliceAt (c :: text) capturedLen
      let pending := { pending with text := pending.text ++ captured }
      if utf8Size pending.text = agentMessageDeltaFlushBytes then
        let (rest, pendingDelta) ← appendLoop messageId sourceMessageId elapsedNs turns none text
        .ok (flushed ++ pending.flush :: rest, pendingDelta)
      else
        let (rest, pendingDelta) ←
          appendLoop messageId sourceMessageId elapsedNs turns (some pending) text
        .ok (flushed ++ rest, pendingDelta)

/-- `append_captured`. -/
def appendCaptured (normalizer : AgentMessageNormalizer) (messageId : RunLocalId)
    (sourceMessageId : Option String) (text : List Char) (elapsedNs : ElapsedNs) :
    Except MessageFault (List AgentMessageCandidate × AgentMessageNormalizer) := do
  let (candidates, pendingDelta) ← appendLoop messageId sourceMessageId elapsedNs
    (2 * text.length + 1) normalizer.pendingDelta text
  .ok (candidates, { normalizer with pendingDelta })

/-- `self.open_messages[position].truncated = true`. -/
def truncateMessage (normalizer : AgentMessageNormalizer) (messageId : RunLocalId) :
    AgentMessageNormalizer :=
  { normalizer with
    openMessages := changeMessage messageId (fun message => { message with truncated := true })
      normalizer.openMessages }

/-- `capture_text`. -/
def captureText (normalizer : AgentMessageNormalizer) (messageId : RunLocalId) (text : List Char)
    (elapsedNs : ElapsedNs) :
    Except MessageFault (List AgentMessageCandidate × AgentMessageNormalizer) :=
  match normalizer.message messageId with
  | none => .error (.panicked "open message identity must resolve")
  | some message =>
    if message.truncated then
      .ok ([], normalizer)
    else do
      let messageRemaining ← usizeSub agentMessageMaxBytes message.utf8Bytes
      let actRemaining ← usizeSub actAgentMessagesMaxBytes normalizer.capturedActUtf8Bytes
      let available := min messageRemaining actRemaining
      let capturedLen := utf8PrefixLen text available
      if capturedLen = 0 then
        .ok ([], normalizer.truncateMessage messageId)
      else
        let (captured, _) ← sliceAt text capturedLen
        let counted := { normalizer with
          openMessages := changeMessage messageId (fun message => { message with
              utf8Bytes := message.utf8Bytes + capturedLen
              unicodeScalarCount := message.unicodeScalarCount + captured.length })
            normalizer.openMessages
          capturedActUtf8Bytes := normalizer.capturedActUtf8Bytes + capturedLen }
        let (candidates, appended) ←
          counted.appendCaptured messageId message.sourceMessageId captured elapsedNs
        .ok (candidates,
          if capturedLen < utf8Size text then appended.truncateMessage messageId else appended)

/-- `observe_text`. -/
def observeText (normalizer : AgentMessageNormalizer) (sourceMessageId : Option String)
    (text : List Char) (elapsedNs : ElapsedNs) (draws : List RunLocalId) :
    Except MessageFault (List AgentMessageCandidate × AgentMessageNormalizer) := do
  normalizer.ensureOpen
  let (flushed, normalizer) := normalizer.flushIfElapsed elapsedNs
  if text.isEmpty then
    .ok (flushed, normalizer)
  else
    let (messageId, opened, normalizer) ←
      normalizer.messageForSource sourceMessageId elapsedNs draws
    let (captured, normalizer) ← normalizer.captureText messageId text elapsedNs
    .ok (flushed ++ opened ++ captured, normalizer)

/-- `flush_elapsed`. -/
def flushElapsed (normalizer : AgentMessageNormalizer) (elapsedNs : ElapsedNs) :
    Except MessageFault (List AgentMessageCandidate × AgentMessageNormalizer) := do
  normalizer.ensureOpen
  .ok (normalizer.flushIfElapsed elapsedNs)

/-- `observe_other_candidate`. -/
def observeOther (normalizer : AgentMessageNormalizer) :
    Except MessageFault (List AgentMessageCandidate × AgentMessageNormalizer) := do
  normalizer.ensureOpen
  .ok normalizer.flushPending

/-- One turn of the loop of `turn_terminal`: what is recorded of a completed message. -/
def recordCompleted (completedIds : AList fun _ : String => RunLocalId) (message : OpenMessage) :
    AList fun _ : String => RunLocalId :=
  match message.sourceMessageId with
  | some sourceMessageId => completedIds.insert sourceMessageId message.messageId
  | none => completedIds

/-- `turn_terminal`. -/
def turnTerminal (normalizer : AgentMessageNormalizer) (elapsedNs : ElapsedNs)
    (sourceTruncated : Bool) :
    Except MessageFault (List AgentMessageCandidate × AgentMessageNormalizer) := do
  normalizer.ensureOpen
  let (flushed, normalizer) := normalizer.flushPending
  let messages := normalizer.openMessages.map fun message =>
    { message with truncated := message.truncated || sourceTruncated }
  .ok (flushed ++ messages.map (·.complete elapsedNs),
    { normalizer with
      openMessages := []
      completedExplicitMessageIds :=
        messages.foldl recordCompleted normalizer.completedExplicitMessageIds
      anonymousMessageId := none
      activeExplicitMessageId := none
      terminal := true })

/-- A call of the normalizer. -/
inductive Call where
  | text (sourceMessageId : Option String) (text : List Char) (draws : List RunLocalId)
  | flushElapsed
  | other
  | terminal (sourceTruncated : Bool)

/-- One call, with the clock's reading. -/
def call (normalizer : AgentMessageNormalizer) : Call × ElapsedNs →
    Except MessageFault (List AgentMessageCandidate × AgentMessageNormalizer)
  | (.text sourceMessageId text draws, elapsedNs) =>
    normalizer.observeText sourceMessageId text elapsedNs draws
  | (.flushElapsed, elapsedNs) => normalizer.flushElapsed elapsedNs
  | (.other, _) => normalizer.observeOther
  | (.terminal sourceTruncated, elapsedNs) => normalizer.turnTerminal elapsedNs sourceTruncated

/-- A list of calls: their facts, and the normalizer after them. A call after the end of the turn is
refused and changes nothing. -/
def run (normalizer : AgentMessageNormalizer) : List (Call × ElapsedNs) →
    Except MessageFault (List AgentMessageCandidate × AgentMessageNormalizer)
  | [] => .ok ([], normalizer)
  | input :: inputs =>
    match normalizer.call input with
    | .error .turnAlreadyTerminal => normalizer.run inputs
    | .error fault => .error fault
    | .ok (candidates, normalizer) => do
      let (rest, last) ← normalizer.run inputs
      .ok (candidates ++ rest, last)

end AgentMessageNormalizer

end Troupe.Agent.Diagnostics
