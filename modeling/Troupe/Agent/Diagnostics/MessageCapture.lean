import Troupe.Agent.Diagnostics.Message

/-! # What the message facts say

A turn's calls tell a story that has nothing to do with ids, buffers and limits: which messages there
are and what their text is. A chunk without a source id belongs to the turn's anonymous message; a
chunk with one continues the current explicit message if that has the same id, and starts a new one
otherwise. The facts of a turn are compared with this story, message by message.

* `appendLoop_spec`: the splitting loop ends, and passes its text on whole, in pieces of at most
  16 KiB.
* `Kept` ties the facts and the state to the story: its steps are the parts of a call (`Kept.extend`,
  `Kept.flush`, `Kept.push`, `Kept.finish`). -/

namespace Troupe.Agent.Diagnostics

open Troupe.Core Troupe.Lib

/-! ## The story -/

/-- A message as its source sends it. -/
structure SourceMessage where
  sourceMessageId : Option String
  text : List Char
  /-- Nothing more can be added. -/
  ended : Bool
  /-- The source reported a truncation when the turn ended. -/
  reported : Bool
deriving DecidableEq

/-- The messages of a turn, in the order of their first chunks. -/
structure Story where
  messages : List SourceMessage
  terminal : Bool

/-- A chunk of text is heard: it continues an open message, or starts one. -/
def hear (messages : List SourceMessage) (sourceMessageId : Option String) (text : List Char) :
    List SourceMessage :=
  if messages.any fun message => !message.ended && message.sourceMessageId = sourceMessageId then
    messages.map fun message =>
      if !message.ended && message.sourceMessageId = sourceMessageId then
        { message with text := message.text ++ text }
      else message
  else
    -- an explicit message ends when another one starts
    messages.map (fun message =>
      if !message.ended && message.sourceMessageId.isSome && sourceMessageId.isSome then
        { message with ended := true }
      else message) ++ [⟨sourceMessageId, text, false, false⟩]

/-- One call of the story. -/
def Story.tell (story : Story) (call : AgentMessageNormalizer.Call × ElapsedNs) : Story :=
  if story.terminal then
    story
  else
    match call.1 with
    | .text sourceMessageId text _ =>
      if text.isEmpty then story
      else { story with messages := hear story.messages sourceMessageId text }
    | .flushElapsed | .other => story
    | .terminal sourceTruncated =>
      ⟨story.messages.map fun message =>
        if message.ended then message
        else { message with ended := true, reported := sourceTruncated }, true⟩

/-- The story of a turn. -/
def storyOf (calls : List (AgentMessageNormalizer.Call × ElapsedNs)) : Story :=
  calls.foldl Story.tell ⟨[], false⟩

/-! ## Facts about a message -/

/-- The message a fact is about. -/
def AgentMessageCandidate.messageId? : AgentMessageCandidate → Option RunLocalId
  | .delta candidate => some candidate.messageId
  | .completed candidate => some candidate.messageId
  | .sourceGap _ => none

/-- The facts about a message, in order. -/
def factsAbout (id : RunLocalId) (facts : List AgentMessageCandidate) :
    List AgentMessageCandidate :=
  facts.filter fun fact => fact.messageId? = some id

/-- The text of deltas, in order. -/
def textOf (deltas : List AgentMessageDeltaCandidate) : List Char :=
  deltas.flatMap AgentMessageDeltaCandidate.textDelta

/-- The deltas among facts. -/
def deltasOf (facts : List AgentMessageCandidate) : List AgentMessageDeltaCandidate :=
  facts.filterMap fun
    | .delta candidate => some candidate
    | _ => none

/-- The text a buffer holds for a message. -/
def pendingText (id : RunLocalId) (pending : Option PendingDelta) : List Char :=
  match pending with
  | some delta => if delta.messageId = id then delta.text else []
  | none => []

/-- The bytes a buffer holds. -/
def pendingSize (pending : Option PendingDelta) : Nat :=
  match pending with
  | some delta => utf8Size delta.text
  | none => 0

/-- A piece of text that a delta may have. -/
def Piece (text : List Char) : Prop := text ≠ [] ∧ utf8Size text ≤ agentMessageDeltaFlushBytes

theorem factsAbout_append (id : RunLocalId) (facts facts' : List AgentMessageCandidate) :
    factsAbout id (facts ++ facts') = factsAbout id facts ++ factsAbout id facts' :=
  List.filter_append _ _

theorem textOf_append (deltas deltas' : List AgentMessageDeltaCandidate) :
    textOf (deltas ++ deltas') = textOf deltas ++ textOf deltas' := List.flatMap_append

theorem deltasOf_append (facts facts' : List AgentMessageCandidate) :
    deltasOf (facts ++ facts') = deltasOf facts ++ deltasOf facts' := List.filterMap_append

theorem deltasOf_map (deltas : List AgentMessageDeltaCandidate) :
    deltasOf (deltas.map .delta) = deltas := by
  rw [deltasOf, List.filterMap_map]
  exact List.filterMap_some

theorem factsAbout_map (id : RunLocalId) (deltas : List AgentMessageDeltaCandidate) :
    factsAbout id (deltas.map .delta) =
      (deltas.filter fun delta => delta.messageId = id).map .delta := by
  rw [factsAbout, List.filter_map]
  congr 1
  exact List.filter_congr fun delta _ => by simp [AgentMessageCandidate.messageId?]

/-! ## The splitting loop -/

/-- Text goes through the buffer: in order, whole, and in pieces. -/
structure Appended (messageId : RunLocalId) (sourceMessageId : Option String)
    (pending : Option PendingDelta) (text : List Char) (deltas : List AgentMessageDeltaCandidate)
    (pending' : Option PendingDelta) : Prop where
  pieces : ∀ delta ∈ deltas, Piece delta.textDelta
  buffered : ∀ delta ∈ pending', Piece delta.text
  texts : ∀ id, textOf (deltas.filter fun delta => delta.messageId = id) ++ pendingText id pending' =
    pendingText id pending ++ if id = messageId then text else []
  size : utf8Size (textOf deltas) + pendingSize pending' = pendingSize pending + utf8Size text
  sent : ∀ delta ∈ deltas, (delta.messageId = messageId ∧ delta.sourceMessageId = sourceMessageId) ∨
    ∃ held ∈ pending, delta.messageId = held.messageId ∧ delta.sourceMessageId = held.sourceMessageId
  kept : ∀ delta ∈ pending', (delta.messageId = messageId ∧
      delta.sourceMessageId = sourceMessageId) ∨
    ∃ held ∈ pending, delta.messageId = held.messageId ∧ delta.sourceMessageId = held.sourceMessageId

section Append

variable {messageId : RunLocalId} {sourceMessageId : Option String}
  {pending middle pending' : Option PendingDelta} {text text' : List Char}
  {deltas deltas' : List AgentMessageDeltaCandidate}

theorem Appended.nothing (hpending : ∀ delta ∈ pending, Piece delta.text) :
    Appended messageId sourceMessageId pending [] [] pending where
  pieces := List.forall_mem_nil _
  buffered := hpending
  texts id := by simp [textOf]
  size := by simp [textOf]
  sent := List.forall_mem_nil _
  kept delta hdelta := .inr ⟨delta, hdelta, rfl, rfl⟩

theorem Appended.append (h : Appended messageId sourceMessageId pending text deltas middle)
    (h' : Appended messageId sourceMessageId middle text' deltas' pending') :
    Appended messageId sourceMessageId pending (text ++ text') (deltas ++ deltas') pending' where
  pieces delta hdelta := (List.mem_append.mp hdelta).elim (h.pieces delta) (h'.pieces delta)
  buffered := h'.buffered
  texts id := by
    rw [List.filter_append, textOf_append, List.append_assoc, h'.texts, ← List.append_assoc, h.texts,
      List.append_assoc]
    congr 1
    split <;> rfl
  size := by
    have h₁ := h.size
    have h₂ := h'.size
    rw [textOf_append, utf8Size_append, utf8Size_append]
    omega
  sent delta hdelta := by
    rcases List.mem_append.mp hdelta with hdelta | hdelta
    · exact h.sent delta hdelta
    · rcases h'.sent delta hdelta with hsent | ⟨held, hheld, hid, hsource⟩
      · exact .inl hsent
      · rw [hid, hsource]
        exact h.kept held hheld
  kept delta hdelta := by
    rcases h'.kept delta hdelta with hkept | ⟨held, hheld, hid, hsource⟩
    · exact .inl hkept
    · rw [hid, hsource]
      exact h.kept held hheld

/-- The buffer is flushed. -/
theorem Appended.flush {held : PendingDelta} (hheld : Piece held.text) :
    Appended messageId sourceMessageId (some held) []
      [⟨held.elapsedNs, held.messageId, held.sourceMessageId, held.text⟩] none where
  pieces := List.forall_mem_singleton.mpr hheld
  buffered := by simp
  texts id := by
    by_cases hid : held.messageId = id <;> simp [textOf, pendingText, hid]
  size := by simp [textOf, pendingSize]
  sent := List.forall_mem_singleton.mpr (.inr ⟨held, rfl, rfl, rfl⟩)
  kept := by simp

/-- The buffer of a message grows. -/
theorem Appended.push {elapsedNs : ElapsedNs}
    (hpending : ∀ held ∈ pending, held.messageId = messageId ∧
      held.sourceMessageId = sourceMessageId)
    (hpiece : Piece ((pending.getD ⟨elapsedNs, messageId, sourceMessageId, []⟩).text ++ text)) :
    Appended messageId sourceMessageId pending text []
      (some { pending.getD ⟨elapsedNs, messageId, sourceMessageId, []⟩ with
        text := (pending.getD ⟨elapsedNs, messageId, sourceMessageId, []⟩).text ++ text }) := by
  rcases pending with _ | held
  · rw [Option.getD_none] at hpiece ⊢
    refine ⟨List.forall_mem_nil _, ?_, fun id => ?_, ?_, List.forall_mem_nil _, ?_⟩
    · rintro _ ⟨⟩
      exact hpiece
    · simp only [List.filter_nil, textOf, List.flatMap_nil, List.nil_append, pendingText, eq_comm]
    · simp [textOf, pendingSize]
    · rintro _ ⟨⟩
      exact .inl ⟨rfl, rfl⟩
  · rw [Option.getD_some] at hpiece ⊢
    obtain ⟨hid, hsource⟩ := hpending held rfl
    refine ⟨List.forall_mem_nil _, ?_, fun id => ?_, ?_, List.forall_mem_nil _, ?_⟩
    · rintro _ ⟨⟩
      exact hpiece
    · by_cases hsame : held.messageId = id
      · simp [textOf, pendingText, hsame, ← hid]
      · have hother : id ≠ messageId := fun h => hsame (hid.trans h.symm)
        simp [textOf, pendingText, hsame, hother]
    · simp [textOf, pendingSize]
    · rintro _ ⟨⟩
      exact .inl ⟨hid, hsource⟩

/-- The text buffered for another message goes out before the loop adds to the buffer. -/
theorem flushOther_spec (hpieces : ∀ held ∈ pending, Piece held.text)
    (hsource : ∀ held ∈ pending, held.messageId = messageId →
      held.sourceMessageId = sourceMessageId) :
    ∃ deltas middle, (if pending.any (·.messageId ≠ messageId) then
        (pending.toList.map PendingDelta.flush, none) else ([], pending)) =
          ((deltas.map .delta : List AgentMessageCandidate), middle) ∧
      Appended messageId sourceMessageId pending [] deltas middle ∧
      (∀ held ∈ middle, held.messageId = messageId ∧ held.sourceMessageId = sourceMessageId) ∧
      middle.toList.length ≤ pending.toList.length := by
  rcases pending with _ | held
  · exact ⟨[], none, rfl, .nothing (by simp), by simp, Nat.le_refl _⟩
  · by_cases hid : held.messageId = messageId
    · refine ⟨[], some held, by simp [hid], .nothing hpieces, ?_, Nat.le_refl _⟩
      rintro _ ⟨⟩
      exact ⟨hid, hsource held rfl hid⟩
    · exact ⟨_, none, by simp [hid, PendingDelta.flush], .flush (hpieces held rfl), by simp,
        Nat.zero_le _⟩

theorem usizeSub_of_le {a b : Nat} (h : b ≤ a) : usizeSub a b = .ok (a - b) := by
  rw [usizeSub, checkedSub, if_pos h]

/-- **The splitting loop ends**, after at most two turns for each character, and no subtraction or
slice in it panics. -/
theorem appendLoop_spec (elapsedNs : ElapsedNs) (turns : Nat)
    (hpieces : ∀ held ∈ pending, Piece held.text)
    (hsource : ∀ held ∈ pending, held.messageId = messageId →
      held.sourceMessageId = sourceMessageId)
    (hturns : 2 * text.length + pending.toList.length ≤ turns) :
    ∃ deltas pending', AgentMessageNormalizer.appendLoop messageId sourceMessageId elapsedNs turns
        pending text = .ok (deltas.map .delta, pending') ∧
      Appended messageId sourceMessageId pending text deltas pending' := by
  induction turns generalizing pending text with
  | zero =>
    rcases text with _ | ⟨c, text⟩
    · exact ⟨[], pending, by rw [AgentMessageNormalizer.appendLoop]; rfl, .nothing hpieces⟩
    · simp at hturns
  | succ turns ih =>
    rcases text with _ | ⟨c, text⟩
    · exact ⟨[], pending, by rw [AgentMessageNormalizer.appendLoop]; rfl, .nothing hpieces⟩
    · obtain ⟨flushed, middle, hflushed, happended, hmiddle, hlength⟩ :=
        flushOther_spec hpieces hsource
      rw [List.length_cons] at hturns
      have hroom : utf8Size (middle.getD ⟨elapsedNs, messageId, sourceMessageId, []⟩).text ≤
          agentMessageDeltaFlushBytes := by
        rcases middle with _ | held
        · exact Nat.zero_le _
        · exact (happended.buffered held rfl).2
      obtain ⟨captured, rest, hslice, htext, hsize, hle, hmax⟩ := prefixSplit_spec (c :: text)
        (agentMessageDeltaFlushBytes -
          utf8Size (middle.getD ⟨elapsedNs, messageId, sourceMessageId, []⟩).text)
      rw [AgentMessageNormalizer.appendLoop]
      simp only [hflushed, usizeSub_of_le hroom, ok_bind]
      by_cases hnone : captured = []
      · -- The buffer has too little room for a character: it is flushed, and has room next time.
        rw [if_pos (by rw [← hsize, hnone]; rfl)]
        rcases middle with _ | held
        · have hfour : 4 ≤ agentMessageDeltaFlushBytes - utf8Size [] := by decide
          exact absurd hnone (prefix_ne_nil htext (List.cons_ne_nil _ _) hfour hmax)
        · have hpending : pending.toList.length ≤ 1 := by cases pending <;> simp
          rw [Option.toList_some, List.length_singleton] at hlength
          have hfewer : 2 * (c :: text).length + (none : Option PendingDelta).toList.length ≤
              turns := by
            rw [List.length_cons, Option.toList_none, List.length_nil]
            omega
          obtain ⟨deltas, pending', hloop, hrest⟩ := ih (by simp) (by simp) hfewer
          refine ⟨flushed ++ _ :: deltas, pending', ?_,
            happended.append ((Appended.flush (happended.buffered held rfl)).append hrest)⟩
          rw [hloop, ok_bind]
          simp [PendingDelta.flush]
      · have hcaptured : 0 < captured.length := List.length_pos_iff.mpr hnone
        have hlengths : captured.length + rest.length = text.length + 1 := by
          rw [← List.length_append, ← htext, List.length_cons]
        have hpositive : utf8PrefixLen (c :: text) (agentMessageDeltaFlushBytes - utf8Size
            (middle.getD ⟨elapsedNs, messageId, sourceMessageId, []⟩).text) ≠ 0 := by
          rw [← hsize]
          have := length_le_utf8Size captured
          omega
        rw [if_neg hpositive]
        simp only [sliceAt, hslice, ok_bind]
        have hpiece : Piece ((middle.getD ⟨elapsedNs, messageId, sourceMessageId, []⟩).text ++
            captured) := by
          refine ⟨List.append_ne_nil_of_right_ne_nil _ hnone, ?_⟩
          rw [utf8Size_append]
          omega
        have hpushed := Appended.push hmiddle hpiece
        rw [htext]
        by_cases hfull : utf8Size ((middle.getD ⟨elapsedNs, messageId, sourceMessageId, []⟩).text ++
            captured) = agentMessageDeltaFlushBytes
        · rw [if_pos hfull]
          have hfewer : 2 * rest.length + (none : Option PendingDelta).toList.length ≤ turns := by
            rw [Option.toList_none, List.length_nil]
            omega
          obtain ⟨deltas, pending', hloop, hrest⟩ := ih (by simp) (by simp) hfewer
          refine ⟨flushed ++ _ :: deltas, pending', ?_, happended.append
            (hpushed.append ((Appended.flush (hpushed.buffered _ rfl)).append hrest))⟩
          rw [hloop, ok_bind]
          simp [PendingDelta.flush]
        · rw [if_neg hfull]
          have hsame : ∀ held ∈ some { middle.getD ⟨elapsedNs, messageId, sourceMessageId, []⟩ with
              text := (middle.getD ⟨elapsedNs, messageId, sourceMessageId, []⟩).text ++ captured },
              held.messageId = messageId → held.sourceMessageId = sourceMessageId := by
            rintro _ ⟨⟩ -
            rcases middle with _ | held
            · rfl
            · exact (hmiddle held rfl).2
          have hfewer : 2 * rest.length + (some { middle.getD ⟨elapsedNs, messageId,
              sourceMessageId, []⟩ with text := (middle.getD ⟨elapsedNs, messageId,
                sourceMessageId, []⟩).text ++ captured }).toList.length ≤ turns := by
            rw [Option.toList_some, List.length_singleton]
            omega
          obtain ⟨deltas, pending', hloop, hrest⟩ := ih hpushed.buffered hsame hfewer
          refine ⟨flushed ++ deltas, pending', ?_, happended.append (hpushed.append hrest)⟩
          rw [hloop, ok_bind]
          simp

end Append

/-! ## Messages and their facts -/

/-- The limit of the message or that of the act has no room for every character. -/
def NoRoom (message act : Nat) : Prop :=
  agentMessageMaxBytes < message + 4 ∨ actAgentMessagesMaxBytes < act + 4

theorem NoRoom.mono {message act act' : Nat} (h : NoRoom message act) (hle : act ≤ act') :
    NoRoom message act' := by
  unfold NoRoom at h ⊢
  omega

/-- An open message: its deltas and the buffer hold a start of its text, counted in `held`. -/
structure Live (facts : List AgentMessageCandidate) (pending : Option PendingDelta)
    (id : RunLocalId) (message : SourceMessage) (held : OpenMessage)
    (deltas : List AgentMessageDeltaCandidate) : Prop where
  messageId : held.messageId = id
  sourceMessageId : held.sourceMessageId = message.sourceMessageId
  unreported : message.reported = false
  about : factsAbout id facts = deltas.map .delta
  pieces : ∀ delta ∈ deltas, Piece delta.textDelta ∧
    delta.sourceMessageId = message.sourceMessageId
  taken : textOf deltas ++ pendingText id pending <+: message.text
  bytes : held.utf8Bytes = utf8Size (textOf deltas ++ pendingText id pending)
  count : held.unicodeScalarCount = (textOf deltas ++ pendingText id pending).length
  bound : held.utf8Bytes ≤ agentMessageMaxBytes
  truncated : held.truncated = true ↔ textOf deltas ++ pendingText id pending ≠ message.text

/-- A closed message: its facts are its deltas, which hold a start of its text, and one completion,
which counts them. -/
structure Closed (facts : List AgentMessageCandidate) (id : RunLocalId) (message : SourceMessage)
    (deltas : List AgentMessageDeltaCandidate) (completed : AgentMessageCompletedCandidate) :
    Prop where
  about : factsAbout id facts = deltas.map .delta ++ [.completed completed]
  pieces : ∀ delta ∈ deltas, Piece delta.textDelta ∧
    delta.sourceMessageId = message.sourceMessageId
  taken : textOf deltas <+: message.text
  bytes : completed.utf8Bytes = utf8Size (textOf deltas)
  count : completed.unicodeScalarCount = (textOf deltas).length
  bound : completed.utf8Bytes ≤ agentMessageMaxBytes
  truncated : completed.truncated = true ↔ textOf deltas ≠ message.text ∨ message.reported = true
  full : textOf deltas ≠ message.text →
    NoRoom completed.utf8Bytes (utf8Size (textOf (deltasOf facts)))

/-- The facts and the state fit the messages of the story, each under its id. -/
structure Kept (facts : List AgentMessageCandidate) (normalizer : AgentMessageNormalizer)
    (entries : List (RunLocalId × SourceMessage)) : Prop where
  ids : (entries.map Prod.fst).Nodup
  allocated : ∀ id, id ∈ normalizer.allocatedMessageIds ↔ id ∈ entries.map Prod.fst
  about : ∀ fact ∈ facts, ∀ id, fact.messageId? = some id → id ∈ entries.map Prod.fst
  openIds : (normalizer.openMessages.map OpenMessage.messageId).Nodup
  opened : ∀ held ∈ normalizer.openMessages, ∃ entry ∈ entries, entry.1 = held.messageId ∧
    entry.2.ended = false
  active : ∀ id, normalizer.activeExplicitMessageId = some id ↔
    ∃ entry ∈ entries, entry.1 = id ∧ entry.2.ended = false ∧ entry.2.sourceMessageId.isSome
  anonymous : ∀ id, normalizer.anonymousMessageId = some id ↔
    ∃ entry ∈ entries, entry.1 = id ∧ entry.2.ended = false ∧ entry.2.sourceMessageId = none
  pending : ∀ delta ∈ normalizer.pendingDelta, Piece delta.text ∧
    ∃ held ∈ normalizer.openMessages, held.messageId = delta.messageId ∧
      held.sourceMessageId = delta.sourceMessageId
  live : ∀ entry ∈ entries, entry.2.ended = false → ∃ held ∈ normalizer.openMessages, ∃ deltas,
    Live facts normalizer.pendingDelta entry.1 entry.2 held deltas
  closed : ∀ entry ∈ entries, entry.2.ended = true → ∃ deltas completed,
    Closed facts entry.1 entry.2 deltas completed
  total : utf8Size (textOf (deltasOf facts)) + pendingSize normalizer.pendingDelta =
    normalizer.capturedActUtf8Bytes
  bound : normalizer.capturedActUtf8Bytes ≤ actAgentMessagesMaxBytes
  full : ∀ held ∈ normalizer.openMessages, held.truncated = true →
    NoRoom held.utf8Bytes normalizer.capturedActUtf8Bytes

theorem kept_new : Kept [] .new [] where
  ids := List.nodup_nil
  allocated id := by simp [AgentMessageNormalizer.new]
  about := List.forall_mem_nil _
  openIds := List.nodup_nil
  opened := List.forall_mem_nil _
  active id := by simp [AgentMessageNormalizer.new]
  anonymous id := by simp [AgentMessageNormalizer.new]
  pending := by simp [AgentMessageNormalizer.new]
  live := List.forall_mem_nil _
  closed := List.forall_mem_nil _
  total := rfl
  bound := Nat.zero_le _
  full := List.forall_mem_nil _

section Steps

variable {facts : List AgentMessageCandidate} {normalizer : AgentMessageNormalizer}
  {entries : List (RunLocalId × SourceMessage)} {change : OpenMessage → OpenMessage}
  {messages : List OpenMessage}

theorem changeMessage_eq_map {id : RunLocalId}
    (h : (messages.map OpenMessage.messageId).Nodup) :
    changeMessage id change messages =
      messages.map fun message => if message.messageId = id then change message else message := by
  induction messages with
  | nil => rfl
  | cons message messages ih =>
    rw [List.map_cons, List.nodup_cons] at h
    obtain ⟨hnew, h⟩ := h
    rw [changeMessage, List.map_cons]
    by_cases hid : message.messageId = id
    · rw [if_pos hid, if_pos hid]
      have hsame : (messages.map fun message =>
          if message.messageId = id then change message else message) = messages := by
        conv_rhs => rw [← List.map_id messages]
        refine List.map_congr_left fun other hother => if_neg fun hother' => hnew ?_
        exact List.mem_map.mpr ⟨other, hother, hother'.trans hid.symm⟩
      rw [hsame]
    · rw [if_neg hid, if_neg hid, ih h]

theorem Kept.eq_of_id (h : Kept facts normalizer entries) {entry entry' : RunLocalId × SourceMessage}
    (hentry : entry ∈ entries) (hentry' : entry' ∈ entries) (hid : entry.1 = entry'.1) :
    entry = entry' := List.inj_on_of_nodup_map h.ids hentry hentry' hid

theorem Kept.eq_of_messageId (h : Kept facts normalizer entries) {held held' : OpenMessage}
    (hheld : held ∈ normalizer.openMessages) (hheld' : held' ∈ normalizer.openMessages)
    (hid : held.messageId = held'.messageId) : held = held' :=
  List.inj_on_of_nodup_map h.openIds hheld hheld' hid

/-- The deltas of one message among those sent, and what they add to its text. -/
theorem Live.appended {pending pending' : Option PendingDelta} {id messageId : RunLocalId}
    {message : SourceMessage} {held : OpenMessage} {deltas sent : List AgentMessageDeltaCandidate}
    {sourceMessageId : Option String} {text : List Char}
    (h : Live facts pending id message held deltas)
    (happended : Appended messageId sourceMessageId pending text sent pending')
    (hsource : id = messageId → sourceMessageId = message.sourceMessageId)
    (hpending : ∀ delta ∈ pending, delta.messageId = id →
      delta.sourceMessageId = message.sourceMessageId) :
    factsAbout id (facts ++ sent.map .delta) =
        (deltas ++ sent.filter fun delta => delta.messageId = id).map .delta ∧
      (∀ delta ∈ deltas ++ sent.filter fun delta => delta.messageId = id, Piece delta.textDelta ∧
        delta.sourceMessageId = message.sourceMessageId) ∧
      textOf (deltas ++ sent.filter fun delta => delta.messageId = id) ++ pendingText id pending' =
        textOf deltas ++ pendingText id pending ++ if id = messageId then text else [] := by
  refine ⟨?_, ?_, ?_⟩
  · rw [factsAbout_append, h.about, factsAbout_map, List.map_append]
  · intro delta hdelta
    rcases List.mem_append.mp hdelta with hdelta | hdelta
    · exact h.pieces delta hdelta
    · obtain ⟨hdelta, hid⟩ := List.mem_filter.mp hdelta
      have hid := of_decide_eq_true hid
      refine ⟨happended.pieces delta hdelta, ?_⟩
      rcases happended.sent delta hdelta with ⟨hmessage, hsent⟩ | ⟨held, hheld, hmessage, hsent⟩
      · exact hsent.trans (hsource (hid.symm.trans hmessage))
      · exact hsent.trans (hpending held hheld (hmessage.symm.trans hid))
  · rw [textOf_append, List.append_assoc, happended.texts, List.append_assoc]

/-- A closed message is not in later facts. -/
theorem Closed.more {id : RunLocalId} {message : SourceMessage} {more : List AgentMessageCandidate}
    {deltas : List AgentMessageDeltaCandidate} {completed : AgentMessageCompletedCandidate}
    (h : Closed facts id message deltas completed) (hmore : factsAbout id more = []) :
    Closed (facts ++ more) id message deltas completed :=
  { h with
    about := by rw [factsAbout_append, h.about, hmore, List.append_nil]
    full := fun hcut => (h.full hcut).mono <| by
      rw [deltasOf_append, textOf_append, utf8Size_append]
      exact Nat.le_add_right _ _ }

/-- A chunk is added to the text of the message `id`. -/
def addText (id : RunLocalId) (chunk : List Char) (entry : RunLocalId × SourceMessage) :
    RunLocalId × SourceMessage :=
  if entry.1 = id then (entry.1, { entry.2 with text := entry.2.text ++ chunk }) else entry

theorem addText_fst (id : RunLocalId) (chunk : List Char) (entry : RunLocalId × SourceMessage) :
    (addText id chunk entry).1 = entry.1 := by
  unfold addText
  split <;> rfl

theorem addText_ended (id : RunLocalId) (chunk : List Char) (entry : RunLocalId × SourceMessage) :
    (addText id chunk entry).2.ended = entry.2.ended ∧
      (addText id chunk entry).2.sourceMessageId = entry.2.sourceMessageId := by
  unfold addText
  split <;> exact ⟨rfl, rfl⟩

theorem map_addText_fst (id : RunLocalId) (chunk : List Char) :
    (entries.map (addText id chunk)).map Prod.fst = entries.map Prod.fst := by
  rw [List.map_map]
  exact List.map_congr_left fun entry _ => addText_fst id chunk entry

/-- What `capture_text` does to a message: it takes `taken`, a start of the chunk. -/
structure Takes (normalizer : AgentMessageNormalizer) (id : RunLocalId) (chunk taken : List Char)
    (change : OpenMessage → OpenMessage) : Prop where
  start : taken <+: chunk
  same : ∀ held, (change held).messageId = held.messageId ∧
    (change held).sourceMessageId = held.sourceMessageId ∧
    (change held).utf8Bytes = held.utf8Bytes + utf8Size taken ∧
    (change held).unicodeScalarCount = held.unicodeScalarCount + taken.length
  truncated : ∀ held ∈ normalizer.openMessages, held.messageId = id →
    ((change held).truncated = true ↔ held.truncated = true ∨ taken ≠ chunk)
  stopped : ∀ held ∈ normalizer.openMessages, held.messageId = id → held.truncated = true →
    taken = []
  room : ∀ held ∈ normalizer.openMessages, held.messageId = id →
    held.utf8Bytes + utf8Size taken ≤ agentMessageMaxBytes
  roomInAct : normalizer.capturedActUtf8Bytes + utf8Size taken ≤ actAgentMessagesMaxBytes
  full : ∀ held ∈ normalizer.openMessages, held.messageId = id → (change held).truncated = true →
    NoRoom (change held).utf8Bytes (normalizer.capturedActUtf8Bytes + utf8Size taken)

/-- The message that takes text still has a start of its text, and its counters count it. -/
theorem extend_live {id : RunLocalId} {message : SourceMessage} {held : OpenMessage}
    {deltas sent : List AgentMessageDeltaCandidate} {chunk taken : List Char}
    {pending' : Option PendingDelta}
    (hlive : Live facts normalizer.pendingDelta id message held deltas)
    (hheld : held ∈ normalizer.openMessages)
    (hmessages : messages = normalizer.openMessages.map fun message =>
      if message.messageId = id then change message else message)
    (htakes : Takes normalizer id chunk taken change)
    (happended : Appended id message.sourceMessageId normalizer.pendingDelta taken sent pending')
    (hpending : ∀ delta ∈ normalizer.pendingDelta, delta.messageId = id →
      delta.sourceMessageId = message.sourceMessageId) :
    ∃ held' ∈ messages, ∃ deltas', Live (facts ++ sent.map .delta) pending'
      (addText id chunk (id, message)).1 (addText id chunk (id, message)).2 held' deltas' := by
  obtain ⟨habout, hpieces, htext⟩ := hlive.appended happended (fun _ => rfl) hpending
  obtain ⟨hsameId, hsameSource, hbytes, hcount⟩ := htakes.same held
  have htruncated := htakes.truncated held hheld hlive.messageId
  rw [if_pos rfl] at htext
  rw [addText, if_pos rfl]
  refine ⟨change held, ?_, _, hsameId.trans hlive.messageId,
    hsameSource.trans hlive.sourceMessageId, hlive.unreported, habout, hpieces, ?_, ?_, ?_, ?_, ?_⟩
  · rw [hmessages]
    exact List.mem_map.mpr ⟨held, hheld, if_pos hlive.messageId⟩
  · rw [htext]
    by_cases hstopped : held.truncated = true
    · rw [htakes.stopped held hheld hlive.messageId hstopped, List.append_nil]
      exact hlive.taken.trans (List.prefix_append _ _)
    · rw [not_not.mp (mt hlive.truncated.mpr hstopped)]
      exact (List.prefix_append_right_inj _).mpr htakes.start
  · rw [htext, hbytes, utf8Size_append, hlive.bytes]
  · rw [htext, hcount, List.length_append, hlive.count]
  · rw [hbytes]
    exact htakes.room held hheld hlive.messageId
  · rw [htext, htruncated]
    by_cases hstopped : held.truncated = true
    · have hne := hlive.truncated.mp hstopped
      rw [htakes.stopped held hheld hlive.messageId hstopped, List.append_nil]
      refine ⟨fun _ heq => hne ?_, fun _ => .inl hstopped⟩
      refine hlive.taken.eq_of_length_le ?_
      rw [heq, List.length_append]
      exact Nat.le_add_right _ _
    · rw [not_not.mp (mt hlive.truncated.mpr hstopped), or_iff_right hstopped, not_iff_not]
      exact (List.append_right_inj _).symm

/-- An open message takes a start of a chunk, which goes through the buffer. -/
theorem Kept.extend (h : Kept facts normalizer entries) {id : RunLocalId} {message : SourceMessage}
    (hentry : (id, message) ∈ entries) (hopen : message.ended = false) {chunk taken : List Char}
    {sent : List AgentMessageDeltaCandidate}
    {pending' : Option PendingDelta} (htakes : Takes normalizer id chunk taken change)
    (happended : Appended id message.sourceMessageId normalizer.pendingDelta taken sent pending') :
    Kept (facts ++ sent.map .delta)
      { normalizer with
        openMessages := changeMessage id change normalizer.openMessages
        pendingDelta := pending'
        capturedActUtf8Bytes := normalizer.capturedActUtf8Bytes + utf8Size taken }
      (entries.map (addText id chunk)) := by
  obtain ⟨held₀, hheld₀, deltas₀, hlive₀⟩ := h.live _ hentry hopen
  have hmessages : changeMessage id change normalizer.openMessages =
      normalizer.openMessages.map fun message =>
        if message.messageId = id then change message else message := changeMessage_eq_map h.openIds
  -- The ids and source ids of the open messages stay.
  have hkeep : ∀ held ∈ normalizer.openMessages, ∃ held' ∈ changeMessage id change
      normalizer.openMessages, held'.messageId = held.messageId ∧
        held'.sourceMessageId = held.sourceMessageId := by
    intro held hheld
    rw [hmessages]
    refine ⟨_, List.mem_map_of_mem hheld, ?_⟩
    by_cases hid : held.messageId = id
    · rw [if_pos hid]
      exact ⟨(htakes.same held).1, (htakes.same held).2.1⟩
    · rw [if_neg hid]
      exact ⟨rfl, rfl⟩
  -- The buffer is one of an open message.
  have hpending : ∀ delta ∈ normalizer.pendingDelta, ∀ entry ∈ entries, entry.2.ended = false →
      delta.messageId = entry.1 → delta.sourceMessageId = entry.2.sourceMessageId := by
    intro delta hdelta entry hmem hended hid
    obtain ⟨-, held, hheld, hheldId, hheldSource⟩ := h.pending delta hdelta
    obtain ⟨held', hheld', deltas, hlive⟩ := h.live entry hmem hended
    rw [h.eq_of_messageId hheld hheld' (by rw [hheldId, hid, hlive.messageId])] at hheldSource
    rw [← hheldSource, hlive.sourceMessageId]
  have hsentOpen : ∀ delta ∈ sent, ∃ held ∈ normalizer.openMessages,
      held.messageId = delta.messageId := by
    intro delta hdelta
    rcases happended.sent delta hdelta with ⟨hid, -⟩ | ⟨buffered, hbuffered, hid, -⟩
    · exact ⟨held₀, hheld₀, hlive₀.messageId.trans hid.symm⟩
    · obtain ⟨-, held, hheld, hheldId, -⟩ := h.pending buffered hbuffered
      exact ⟨held, hheld, hheldId.trans hid.symm⟩
  refine ⟨?_, ?_, ?_, ?_, ?_, ?_, ?_, ?_, ?_, ?_, ?_, htakes.roomInAct, ?_⟩
  · rw [map_addText_fst]
    exact h.ids
  · rw [map_addText_fst]
    exact h.allocated
  · rw [map_addText_fst]
    intro fact hfact id' hid'
    rcases List.mem_append.mp hfact with hfact | hfact
    · exact h.about fact hfact id' hid'
    · obtain ⟨delta, hdelta, rfl⟩ := List.mem_map.mp hfact
      obtain ⟨held, hheld, hheldId⟩ := hsentOpen delta hdelta
      obtain ⟨entry, hmem, hentryId, -⟩ := h.opened held hheld
      cases hid'
      rw [← hheldId, ← hentryId]
      exact List.mem_map_of_mem hmem
  · have hmap : (changeMessage id change normalizer.openMessages).map OpenMessage.messageId =
        normalizer.openMessages.map OpenMessage.messageId := by
      rw [hmessages, List.map_map]
      refine List.map_congr_left fun held _ => ?_
      by_cases hid : held.messageId = id
      · simp only [Function.comp, if_pos hid, (htakes.same held).1]
      · simp only [Function.comp, if_neg hid]
    dsimp only
    rw [hmap]
    exact h.openIds
  · dsimp only
    rw [hmessages]
    intro held hheld
    obtain ⟨old, hold, rfl⟩ := List.mem_map.mp hheld
    obtain ⟨entry, hmem, hentryId, hended⟩ := h.opened old hold
    refine ⟨_, List.mem_map_of_mem hmem, ?_, ?_⟩
    · rw [addText_fst, hentryId]
      by_cases hid : old.messageId = id
      · rw [if_pos hid, (htakes.same old).1]
      · rw [if_neg hid]
    · rw [(addText_ended id chunk entry).1, hended]
  · intro id'
    rw [h.active id']
    simp only [List.mem_map, exists_exists_and_eq_and, addText_fst, addText_ended]
  · intro id'
    rw [h.anonymous id']
    simp only [List.mem_map, exists_exists_and_eq_and, addText_fst, addText_ended]
  · intro delta hdelta
    refine ⟨happended.buffered delta hdelta, ?_⟩
    rcases happended.kept delta hdelta with ⟨hid, hsource⟩ | ⟨buffered, hbuffered, hid, hsource⟩
    · obtain ⟨held', hheld', hid', hsource'⟩ := hkeep held₀ hheld₀
      exact ⟨held', hheld', by rw [hid', hlive₀.messageId, hid],
        by rw [hsource', hlive₀.sourceMessageId, hsource]⟩
    · obtain ⟨-, held, hheld, hheldId, hheldSource⟩ := h.pending buffered hbuffered
      obtain ⟨held', hheld', hid', hsource'⟩ := hkeep held hheld
      exact ⟨held', hheld', by rw [hid', hheldId, hid], by rw [hsource', hheldSource, hsource]⟩
  · intro entry' hentry' hended
    obtain ⟨entry, hmem, rfl⟩ := List.mem_map.mp hentry'
    rw [(addText_ended id chunk entry).1] at hended
    by_cases hid : entry.1 = id
    · obtain rfl : entry = (id, message) := h.eq_of_id hmem hentry hid
      exact extend_live hlive₀ hheld₀ hmessages htakes happended
        (fun delta hdelta hsame => hpending delta hdelta _ hmem hended hsame)
    · obtain ⟨held, hheld, deltas, hlive⟩ := h.live entry hmem hended
      refine ⟨held, ?_, deltas ++ sent.filter fun delta => delta.messageId = entry.1, ?_⟩
      · dsimp only
        rw [hmessages]
        exact List.mem_map.mpr ⟨held, hheld, if_neg (hlive.messageId ▸ hid)⟩
      · obtain ⟨habout, hpieces, htext⟩ := hlive.appended happended
          (fun hsame => absurd hsame hid)
          (fun delta hdelta hsame => hpending delta hdelta entry hmem hended hsame)
        rw [if_neg hid, List.append_nil] at htext
        rw [addText, if_neg hid]
        exact ⟨hlive.messageId, hlive.sourceMessageId, hlive.unreported, habout, hpieces,
          htext ▸ hlive.taken, htext ▸ hlive.bytes, htext ▸ hlive.count, hlive.bound,
          htext ▸ hlive.truncated⟩
  · intro entry' hentry' hended
    obtain ⟨entry, hmem, rfl⟩ := List.mem_map.mp hentry'
    rw [(addText_ended id chunk entry).1] at hended
    have hclosedId : ∀ held ∈ normalizer.openMessages, held.messageId ≠ entry.1 := by
      intro held hheld hid
      obtain ⟨other, hother, hotherId, hotherEnded⟩ := h.opened held hheld
      rw [h.eq_of_id hother hmem (hotherId.trans hid), hended] at hotherEnded
      cases hotherEnded
    have hid : entry.1 ≠ id := fun hid => hclosedId held₀ hheld₀ (hlive₀.messageId.trans hid.symm)
    obtain ⟨deltas, completed, hclosed⟩ := h.closed entry hmem hended
    rw [addText, if_neg hid]
    refine ⟨deltas, completed, hclosed.more ?_⟩
    have hnone : (sent.filter fun delta => delta.messageId = entry.1) = [] := by
      refine List.filter_eq_nil_iff.mpr fun delta hdelta hsame => ?_
      obtain ⟨held, hheld, hheldId⟩ := hsentOpen delta hdelta
      exact hclosedId held hheld (hheldId.trans (of_decide_eq_true hsame))
    rw [factsAbout_map, hnone, List.map_nil]
  · dsimp only
    have htotal := h.total
    have hsize := happended.size
    rw [deltasOf_append, deltasOf_map, textOf_append, utf8Size_append]
    omega
  · dsimp only
    rw [hmessages]
    intro held hheld hcut
    obtain ⟨old, hold, rfl⟩ := List.mem_map.mp hheld
    by_cases hid : old.messageId = id
    · rw [if_pos hid] at hcut ⊢
      exact htakes.full old hold hid hcut
    · rw [if_neg hid] at hcut ⊢
      exact (h.full old hold hcut).mono (Nat.le_add_right _ _)

theorem addText_nil (id : RunLocalId) (entry : RunLocalId × SourceMessage) :
    addText id [] entry = entry := by
  unfold addText
  split
  · rw [List.append_nil]
  · rfl

theorem map_addText_nil (id : RunLocalId) : entries.map (addText id []) = entries :=
  (List.map_congr_left fun entry _ => addText_nil id entry).trans (List.map_id _)

theorem changeMessage_same (id : RunLocalId) (messages : List OpenMessage) :
    changeMessage id (fun message => message) messages = messages := by
  induction messages with
  | nil => rfl
  | cons message messages ih =>
    rw [changeMessage, ih]
    exact ite_self _

/-- The buffer of an open message is flushed. -/
theorem Kept.flush (h : Kept facts normalizer entries) :
    Kept (facts ++ normalizer.flushPending.1) normalizer.flushPending.2 entries := by
  rcases hpending : normalizer.pendingDelta with _ | delta
  · rw [AgentMessageNormalizer.flushPending, hpending, Option.toList_none, List.map_nil,
      List.append_nil, ← hpending]
    exact h
  · obtain ⟨hpiece, held, hheld, hheldId, hheldSource⟩ := h.pending delta hpending
    obtain ⟨⟨id, message⟩, hmem, hid, hended⟩ := h.opened held hheld
    obtain ⟨held', hheld', deltas, hlive⟩ := h.live _ hmem hended
    have htakes : Takes normalizer id [] [] fun held => held := by
      refine ⟨List.prefix_refl _, fun held => ⟨rfl, rfl, rfl, rfl⟩, fun held _ _ => ?_,
        fun held _ _ _ => rfl, fun held hheld hsame => ?_, h.bound,
        fun held hheld _ => h.full held hheld⟩
      · simp
      · rw [h.eq_of_messageId hheld hheld' (hsame.trans hlive.messageId.symm)]
        exact hlive.bound
    have hflush : Appended id message.sourceMessageId normalizer.pendingDelta [] _ none :=
      hpending ▸ Appended.flush hpiece
    have hkept := h.extend hmem hended htakes hflush
    rw [map_addText_nil, changeMessage_same] at hkept
    rw [AgentMessageNormalizer.flushPending, hpending]
    exact hkept

/-- Facts about no message. -/
theorem Kept.gaps (h : Kept facts normalizer entries) {gaps : List AgentMessageCandidate}
    (hgaps : ∀ fact ∈ gaps, fact.messageId? = none) : Kept (facts ++ gaps) normalizer entries := by
  have hnone : ∀ id, factsAbout id gaps = [] := by
    intro id
    refine List.filter_eq_nil_iff.mpr fun fact hfact hid => ?_
    rw [hgaps fact hfact] at hid
    simp at hid
  have hdeltas : deltasOf (facts ++ gaps) = deltasOf facts := by
    have hnone : deltasOf gaps = [] := by
      refine List.filterMap_eq_nil_iff.mpr fun fact hfact => ?_
      have hfact := hgaps fact hfact
      cases fact with
      | delta candidate => cases hfact
      | completed candidate => rfl
      | sourceGap candidate => rfl
    rw [deltasOf_append, hnone, List.append_nil]
  refine ⟨h.ids, h.allocated, ?_, h.openIds, h.opened, h.active, h.anonymous, h.pending, ?_, ?_, ?_,
    h.bound, h.full⟩
  · intro fact hfact id hid
    rcases List.mem_append.mp hfact with hfact | hfact
    · exact h.about fact hfact id hid
    · rw [hgaps fact hfact] at hid
      cases hid
  · intro entry hentry hended
    obtain ⟨held, hheld, deltas, hlive⟩ := h.live entry hentry hended
    refine ⟨held, hheld, deltas, { hlive with about := ?_ }⟩
    rw [factsAbout_append, hnone, List.append_nil, hlive.about]
  · intro entry hentry hended
    obtain ⟨deltas, completed, hclosed⟩ := h.closed entry hentry hended
    exact ⟨deltas, completed, hclosed.more (hnone entry.1)⟩
  · rw [hdeltas]
    exact h.total

/-- A new message without text. -/
theorem Kept.push (h : Kept facts normalizer entries) {id : RunLocalId}
    {sourceMessageId : Option String} {normalizer' : AgentMessageNormalizer}
    (hfresh : id ∉ normalizer.allocatedMessageIds)
    (hexplicit : sourceMessageId.isSome → normalizer.activeExplicitMessageId = none)
    (hanonymous : sourceMessageId = none → normalizer.anonymousMessageId = none)
    (hmessages : normalizer'.openMessages =
      normalizer.openMessages ++ [⟨id, sourceMessageId, 0, 0, false⟩])
    (hallocated : normalizer'.allocatedMessageIds = insert id normalizer.allocatedMessageIds)
    (hactive' : normalizer'.activeExplicitMessageId =
      if sourceMessageId.isSome then some id else normalizer.activeExplicitMessageId)
    (hanonymous' : normalizer'.anonymousMessageId =
      if sourceMessageId = none then some id else normalizer.anonymousMessageId)
    (hpending : normalizer'.pendingDelta = normalizer.pendingDelta)
    (hcaptured : normalizer'.capturedActUtf8Bytes = normalizer.capturedActUtf8Bytes) :
    Kept facts normalizer' (entries ++ [(id, ⟨sourceMessageId, [], false, false⟩)]) := by
  have hnew : id ∉ entries.map Prod.fst := fun hid => hfresh ((h.allocated id).mpr hid)
  have hnewOpen : id ∉ normalizer.openMessages.map OpenMessage.messageId := by
    intro hid
    obtain ⟨held, hheld, rfl⟩ := List.mem_map.mp hid
    obtain ⟨entry, hmem, hentryId, -⟩ := h.opened held hheld
    exact hnew (List.mem_map.mpr ⟨entry, hmem, hentryId⟩)
  have hnoFacts : factsAbout id facts = [] := by
    refine List.filter_eq_nil_iff.mpr fun fact hfact hid => ?_
    exact hnew (h.about fact hfact id (of_decide_eq_true hid))
  have hnoPending : pendingText id normalizer.pendingDelta = [] := by
    rcases hdelta : normalizer.pendingDelta with _ | delta
    · rfl
    · obtain ⟨-, held, hheld, hheldId, -⟩ := h.pending delta hdelta
      refine if_neg fun hid => hnewOpen ?_
      exact List.mem_map.mpr ⟨held, hheld, hheldId.trans hid⟩
  refine ⟨?_, ?_, ?_, ?_, ?_, ?_, ?_, ?_, ?_, ?_, ?_, ?_, ?_⟩
  · rw [List.map_append, List.nodup_append]
    refine ⟨h.ids, List.nodup_singleton _, fun a ha b hb hab => hnew ?_⟩
    have hb : b = id := List.mem_singleton.mp hb
    rwa [← hb, ← hab]
  · intro id'
    rw [hallocated, Finset.mem_insert, h.allocated, List.map_append, List.mem_append, or_comm]
    simp
  · intro fact hfact id' hid'
    rw [List.map_append]
    exact List.mem_append_left _ (h.about fact hfact id' hid')
  · rw [hmessages, List.map_append, List.nodup_append]
    refine ⟨h.openIds, List.nodup_singleton _, fun a ha b hb hab => hnewOpen ?_⟩
    have hb : b = id := List.mem_singleton.mp hb
    rwa [← hb, ← hab]
  · rw [hmessages]
    intro held hheld
    rcases List.mem_append.mp hheld with hheld | hheld
    · obtain ⟨entry, hmem, hentry⟩ := h.opened held hheld
      exact ⟨entry, List.mem_append_left _ hmem, hentry⟩
    · rw [List.mem_singleton.mp hheld]
      exact ⟨_, List.mem_append_right _ (List.mem_singleton_self _), rfl, rfl⟩
  · intro id'
    simp only [List.mem_append, List.mem_singleton, or_and_right, exists_or, exists_eq_left,
      ← h.active id', hactive', true_and]
    cases sourceMessageId with
    | none => simp
    | some source => simp [hexplicit rfl]
  · intro id'
    simp only [List.mem_append, List.mem_singleton, or_and_right, exists_or, exists_eq_left,
      ← h.anonymous id', hanonymous', true_and]
    cases sourceMessageId with
    | none => simp [hanonymous rfl]
    | some source => simp
  · rw [hpending, hmessages]
    intro delta hdelta
    obtain ⟨hpiece, held, hheld, hheldId⟩ := h.pending delta hdelta
    exact ⟨hpiece, held, List.mem_append_left _ hheld, hheldId⟩
  · intro entry hentry hended
    rw [hmessages, hpending]
    rcases List.mem_append.mp hentry with hentry | hentry
    · obtain ⟨held, hheld, hlive⟩ := h.live entry hentry hended
      exact ⟨held, List.mem_append_left _ hheld, hlive⟩
    · rw [List.mem_singleton.mp hentry]
      refine ⟨_, List.mem_append_right _ (List.mem_singleton_self _), [], rfl, rfl, rfl, hnoFacts,
        List.forall_mem_nil _, ?_, ?_, ?_, Nat.zero_le _, ?_⟩
      · rw [hnoPending]
        exact List.prefix_refl _
      · rw [hnoPending]
        rfl
      · rw [hnoPending]
        rfl
      · rw [hnoPending]
        simp [textOf]
  · intro entry hentry hended
    rcases List.mem_append.mp hentry with hentry | hentry
    · exact h.closed entry hentry hended
    · rw [List.mem_singleton.mp hentry] at hended
      cases hended
  · rw [hpending, hcaptured]
    exact h.total
  · rw [hcaptured]
    exact h.bound
  · rw [hmessages, hcaptured]
    exact List.forall_mem_append.mpr ⟨h.full, List.forall_mem_singleton.mpr nofun⟩

/-- The completions of open messages: one about each. -/
theorem factsAbout_complete
    (hnodup : (messages.map OpenMessage.messageId).Nodup)
    (hchange : ∀ held, (change held).messageId = held.messageId) (elapsedNs : ElapsedNs)
    (id : RunLocalId) :
    ((∀ held ∈ messages, held.messageId ≠ id) →
      factsAbout id (messages.map fun held => (change held).complete elapsedNs) = []) ∧
    ∀ held ∈ messages, held.messageId = id →
      factsAbout id (messages.map fun held => (change held).complete elapsedNs) =
        [(change held).complete elapsedNs] := by
  have habout : ∀ held, ((change held).complete elapsedNs).messageId? = some held.messageId :=
    fun held => congrArg some (hchange held)
  have hnone : ∀ messages : List OpenMessage, (∀ held ∈ messages, held.messageId ≠ id) →
      factsAbout id (messages.map fun held => (change held).complete elapsedNs) = [] := by
    intro messages hother
    refine List.filter_eq_nil_iff.mpr fun fact hfact hid => ?_
    obtain ⟨held, hheld, rfl⟩ := List.mem_map.mp hfact
    rw [habout] at hid
    exact hother held hheld (Option.some.inj (of_decide_eq_true hid))
  refine ⟨hnone messages, ?_⟩
  induction messages with
  | nil => exact fun held hheld => absurd hheld List.not_mem_nil
  | cons first messages ih =>
    rw [List.map_cons, List.nodup_cons] at hnodup
    obtain ⟨hfirst, hnodup⟩ := hnodup
    intro held hheld hid
    rcases List.mem_cons.mp hheld with rfl | hheld
    · have hothers : ∀ other ∈ messages, other.messageId ≠ id := by
        intro other hother hsame
        exact hfirst (List.mem_map.mpr ⟨other, hother, hsame.trans hid.symm⟩)
      have hself : factsAbout id [(change held).complete elapsedNs] =
          [(change held).complete elapsedNs] :=
        List.filter_cons_of_pos (by rw [habout, hid]; exact decide_eq_true rfl)
      rw [List.map_cons, ← List.singleton_append, factsAbout_append, hnone messages hothers, hself]
      rfl
    · have hother : first.messageId ≠ id := by
        intro hsame
        exact hfirst (List.mem_map.mpr ⟨held, hheld, hid.trans hsame.symm⟩)
      have hskip : factsAbout id [(change first).complete elapsedNs] = [] :=
        hnone [first] (List.forall_mem_singleton.mpr hother)
      rw [List.map_cons, ← List.singleton_append, factsAbout_append, hskip, List.nil_append]
      exact ih hnodup held hheld hid

/-- The open messages that `which` picks end. -/
def endEntry (which : RunLocalId → Bool) (reported : Bool) (entry : RunLocalId × SourceMessage) :
    RunLocalId × SourceMessage :=
  if !entry.2.ended && which entry.1 then
    (entry.1, { entry.2 with ended := true, reported })
  else entry

theorem endEntry_same (which : RunLocalId → Bool) (reported : Bool)
    (entry : RunLocalId × SourceMessage) :
    (endEntry which reported entry).1 = entry.1 ∧
      (endEntry which reported entry).2.sourceMessageId = entry.2.sourceMessageId ∧
      ((endEntry which reported entry).2.ended = false ↔
        entry.2.ended = false ∧ which entry.1 = false) := by
  unfold endEntry
  cases hended : entry.2.ended <;> cases hwhich : which entry.1 <;> simp [hended]

/-- Open messages are completed, with nothing left in the buffer. -/
theorem Kept.finish (h : Kept facts normalizer entries) (hpending : normalizer.pendingDelta = none)
    (which : RunLocalId → Bool) (reported : Bool) (elapsedNs : ElapsedNs)
    {normalizer' : AgentMessageNormalizer}
    (hmessages : normalizer'.openMessages =
      normalizer.openMessages.filter fun held => !which held.messageId)
    (hallocated : normalizer'.allocatedMessageIds = normalizer.allocatedMessageIds)
    (hactive' : normalizer'.activeExplicitMessageId =
      normalizer.activeExplicitMessageId.filter (!which ·))
    (hanonymous' : normalizer'.anonymousMessageId = normalizer.anonymousMessageId.filter (!which ·))
    (hpending' : normalizer'.pendingDelta = none)
    (hcaptured : normalizer'.capturedActUtf8Bytes = normalizer.capturedActUtf8Bytes) :
    Kept
      (facts ++ (normalizer.openMessages.filter fun held => which held.messageId).map fun held =>
        { held with truncated := held.truncated || reported }.complete elapsedNs)
      normalizer' (entries.map (endEntry which reported)) := by
  have hnodup : ((normalizer.openMessages.filter fun held => which held.messageId).map
      OpenMessage.messageId).Nodup := h.openIds.sublist (List.filter_sublist.map _)
  have hcomplete := @factsAbout_complete (fun held : OpenMessage =>
    { held with truncated := held.truncated || reported }) _ hnodup (fun _ => rfl) elapsedNs
  have hfst : (entries.map (endEntry which reported)).map Prod.fst = entries.map Prod.fst := by
    rw [List.map_map]
    exact List.map_congr_left fun entry _ => (endEntry_same which reported entry).1
  refine ⟨?_, ?_, ?_, ?_, ?_, ?_, ?_, ?_, ?_, ?_, ?_, ?_, ?_⟩
  · rw [hfst]
    exact h.ids
  · rw [hfst, hallocated]
    exact h.allocated
  · rw [hfst]
    intro fact hfact id hid
    rcases List.mem_append.mp hfact with hfact | hfact
    · exact h.about fact hfact id hid
    · obtain ⟨held, hheld, rfl⟩ := List.mem_map.mp hfact
      obtain ⟨entry, hmem, hentryId, -⟩ := h.opened held (List.mem_of_mem_filter hheld)
      cases hid
      rw [← hentryId]
      exact List.mem_map_of_mem hmem
  · rw [hmessages]
    exact h.openIds.sublist (List.filter_sublist.map _)
  · rw [hmessages]
    intro held hheld
    obtain ⟨hheld, hother⟩ := List.mem_filter.mp hheld
    obtain ⟨entry, hmem, hentryId, hended⟩ := h.opened held hheld
    obtain ⟨hid, -, hopen⟩ := endEntry_same which reported entry
    refine ⟨_, List.mem_map_of_mem hmem, hid.trans hentryId, hopen.mpr ⟨hended, ?_⟩⟩
    rw [hentryId]
    simpa using hother
  · intro id
    rw [hactive', Option.filter_eq_some_iff, h.active id]
    simp only [List.mem_map, exists_exists_and_eq_and, endEntry_same]
    constructor
    · rintro ⟨⟨entry, hmem, rfl, hended, hsource⟩, hother⟩
      exact ⟨entry, hmem, rfl, ⟨hended, by simpa using hother⟩, hsource⟩
    · rintro ⟨entry, hmem, rfl, ⟨hended, hother⟩, hsource⟩
      exact ⟨⟨entry, hmem, rfl, hended, hsource⟩, by rw [hother]; rfl⟩
  · intro id
    rw [hanonymous', Option.filter_eq_some_iff, h.anonymous id]
    simp only [List.mem_map, exists_exists_and_eq_and, endEntry_same]
    constructor
    · rintro ⟨⟨entry, hmem, rfl, hended, hsource⟩, hother⟩
      exact ⟨entry, hmem, rfl, ⟨hended, by simpa using hother⟩, hsource⟩
    · rintro ⟨entry, hmem, rfl, ⟨hended, hother⟩, hsource⟩
      exact ⟨⟨entry, hmem, rfl, hended, hsource⟩, by rw [hother]; rfl⟩
  · rw [hpending']
    simp
  · intro entry' hentry' hended'
    obtain ⟨entry, hmem, rfl⟩ := List.mem_map.mp hentry'
    obtain ⟨hended, hwhich⟩ := (endEntry_same which reported entry).2.2.mp hended'
    obtain ⟨held, hheld, deltas, hlive⟩ := h.live entry hmem hended
    have hsame : endEntry which reported entry = entry := by
      unfold endEntry
      rw [hwhich, Bool.and_false]
      rfl
    rw [hsame, hmessages, hpending']
    rw [hpending] at hlive
    refine ⟨held, List.mem_filter.mpr ⟨hheld, ?_⟩, deltas, { hlive with about := ?_ }⟩
    · rw [hlive.messageId, hwhich]
      rfl
    · have hothers := (hcomplete entry.1).1 fun other hother hid => by
        rw [← hid, (List.mem_filter.mp hother).2] at hwhich
        cases hwhich
      rw [factsAbout_append, hlive.about, hothers, List.append_nil]
  · intro entry' hentry' hended'
    obtain ⟨entry, hmem, rfl⟩ := List.mem_map.mp hentry'
    rcases hended : entry.2.ended with _ | _
    · -- The message ends now.
      obtain ⟨held, hheld, deltas, hlive⟩ := h.live entry hmem hended
      have hwhich : which entry.1 = true := by
        by_contra hother
        rw [(endEntry_same which reported entry).2.2.mpr
          ⟨hended, (Bool.not_eq_true _).mp hother⟩] at hended'
        cases hended'
      have hpicked : held ∈ normalizer.openMessages.filter fun held => which held.messageId :=
        List.mem_filter.mpr ⟨hheld, by rw [hlive.messageId, hwhich]⟩
      have hend : endEntry which reported entry =
          (entry.1, { entry.2 with ended := true, reported }) := by
        rw [endEntry, hended, hwhich]
        rfl
      rw [hpending] at hlive
      have htext : textOf deltas ++ pendingText entry.1 none = textOf deltas := List.append_nil _
      rw [hend]
      refine ⟨deltas, ⟨elapsedNs, held.messageId, held.utf8Bytes, held.unicodeScalarCount,
        held.truncated || reported⟩, ?_, hlive.pieces, htext ▸ hlive.taken, htext ▸ hlive.bytes,
        htext ▸ hlive.count, hlive.bound, ?_, fun hcut => ?_⟩
      · rw [factsAbout_append, hlive.about,
          (hcomplete entry.1).2 held hpicked hlive.messageId]
        rfl
      · rw [Bool.or_eq_true, hlive.truncated, htext]
      · refine (h.full held hheld (hlive.truncated.mpr (by rwa [htext]))).mono ?_
        rw [← h.total, hpending, deltasOf_append, textOf_append, utf8Size_append]
        exact Nat.le_add_right _ _
    · have hend : endEntry which reported entry = entry := by
        rw [endEntry, hended]
        rfl
      obtain ⟨deltas, completed, hclosed⟩ := h.closed entry hmem hended
      rw [hend]
      refine ⟨deltas, completed, hclosed.more ((hcomplete entry.1).1 fun held hheld hid => ?_)⟩
      obtain ⟨other, hother, hotherId, hotherEnded⟩ :=
        h.opened held (List.mem_of_mem_filter hheld)
      rw [h.eq_of_id hother hmem (hotherId.trans hid), hended] at hotherEnded
      cases hotherEnded
  · have htotal := h.total
    have hnone : deltasOf ((normalizer.openMessages.filter fun held => which held.messageId).map
        fun held => { held with truncated := held.truncated || reported }.complete elapsedNs) = [] := by
      refine List.filterMap_eq_nil_iff.mpr fun fact hfact => ?_
      obtain ⟨held, -, rfl⟩ := List.mem_map.mp hfact
      rfl
    rw [deltasOf_append, hnone, List.append_nil, hpending', hcaptured, ← htotal, hpending]
  · rw [hcaptured]
    exact h.bound
  · rw [hmessages, hcaptured]
    exact fun held hheld => h.full held (List.mem_of_mem_filter hheld)

end Steps

end Troupe.Agent.Diagnostics
