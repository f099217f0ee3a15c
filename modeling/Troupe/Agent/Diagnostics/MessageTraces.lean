import Troupe.Agent.Diagnostics.MessageCapture

/-! # The message facts of a turn

Each call of the normalizer keeps the facts and the story together (`Kept.call`), and so does any
list of calls (`run_told`). Nothing panics, and every call returns that is given a new message id. -/

namespace Troupe.Agent.Diagnostics

open Troupe.Core Troupe.Lib

section Calls

variable {facts : List AgentMessageCandidate} {normalizer : AgentMessageNormalizer}
  {entries : List (RunLocalId × SourceMessage)} {id : RunLocalId} {held : OpenMessage}
  {sourceMessageId : Option String} {messages : List OpenMessage}

/-! ## Capturing a chunk -/

/-- An open message among the others, which have other ids. -/
theorem split_messages
    (hnodup : (messages.map OpenMessage.messageId).Nodup)
    (hheld : held ∈ messages) : ∃ before after, messages = before ++ held :: after ∧
      (∀ other ∈ before, other.messageId ≠ held.messageId) ∧
      ∀ other ∈ after, other.messageId ≠ held.messageId := by
  obtain ⟨before, after, rfl⟩ := List.append_of_mem hheld
  rw [List.map_append, List.map_cons, List.nodup_append, List.nodup_cons] at hnodup
  refine ⟨before, after, rfl, fun other hother => ?_, fun other hother hid => ?_⟩
  · exact hnodup.2.2 _ (List.mem_map_of_mem hother) _ List.mem_cons_self
  · exact hnodup.2.1.1 (List.mem_map.mpr ⟨other, hother, hid⟩)

theorem find_message
    (hnodup : (messages.map OpenMessage.messageId).Nodup)
    (hheld : held ∈ messages) : messages.find? (·.messageId = held.messageId) = some held := by
  obtain ⟨before, after, rfl, hbefore, -⟩ := split_messages hnodup hheld
  rw [List.find?_append, List.find?_eq_none.mpr (by simpa using hbefore)]
  simp

/-- A message is taken out of the list. -/
theorem erase_message
    (hnodup : (messages.map OpenMessage.messageId).Nodup)
    (hheld : held ∈ messages) :
    messages.filter (fun other => other.messageId = held.messageId) = [held] ∧
      messages.eraseP (fun other => other.messageId = held.messageId) =
        messages.filter fun other => !decide (other.messageId = held.messageId) := by
  obtain ⟨before, after, rfl, hbefore, hafter⟩ := split_messages hnodup hheld
  constructor
  · rw [List.filter_append, List.filter_eq_nil_iff.mpr (by simpa using hbefore),
      List.filter_cons_of_pos (by simp),
      List.filter_eq_nil_iff.mpr (by simpa using hafter)]
    rfl
  · rw [List.eraseP_append_right _ (by simpa using hbefore),
      List.eraseP_cons_of_pos (by simp), List.filter_append,
      List.filter_cons_of_neg (by simp), List.filter_eq_self.mpr (by simpa using hbefore),
      List.filter_eq_self.mpr (by simpa using hafter)]

theorem Kept.message_eq (h : Kept facts normalizer entries)
    (hheld : held ∈ normalizer.openMessages) : normalizer.message held.messageId = some held :=
  find_message h.openIds hheld

theorem changeMessage_cons (id : RunLocalId) (change : OpenMessage → OpenMessage)
    (message : OpenMessage) (messages : List OpenMessage) :
    changeMessage id change (message :: messages) =
      if message.messageId = id then change message :: messages
      else message :: changeMessage id change messages := rfl

theorem changeMessage_comp {change change' : OpenMessage → OpenMessage}
    (hchange : ∀ held, (change held).messageId = held.messageId) (messages : List OpenMessage) :
    changeMessage id change' (changeMessage id change messages) =
      changeMessage id (fun held => change' (change held)) messages := by
  induction messages with
  | nil => rfl
  | cons message messages ih =>
    rw [changeMessage_cons, changeMessage_cons]
    by_cases hid : message.messageId = id
    · rw [if_pos hid, if_pos hid, changeMessage_cons, if_pos ((hchange message).trans hid)]
    · rw [if_neg hid, if_neg hid, changeMessage_cons, if_neg hid, ih]

/-- The buffer's part of `append_captured`, from the state of a capture. -/
theorem Kept.appendLoop (h : Kept facts normalizer entries)
    {message : SourceMessage} (hentry : (id, message) ∈ entries) (hopen : message.ended = false)
    (text : List Char) (elapsedNs : ElapsedNs) :
    ∃ sent pending', AgentMessageNormalizer.appendLoop id message.sourceMessageId elapsedNs
        (2 * text.length + 1) normalizer.pendingDelta text = .ok (sent.map .delta, pending') ∧
      Appended id message.sourceMessageId normalizer.pendingDelta text sent pending' := by
  refine appendLoop_spec elapsedNs _ (fun delta hdelta => (h.pending delta hdelta).1) ?_ ?_
  · intro delta hdelta hid
    obtain ⟨-, held, hheld, hheldId, hheldSource⟩ := h.pending delta hdelta
    obtain ⟨held', hheld', deltas, hlive⟩ := h.live _ hentry hopen
    rw [h.eq_of_messageId hheld hheld' (by rw [hheldId, hid, hlive.messageId])] at hheldSource
    rw [← hheldSource, hlive.sourceMessageId]
  · have hpending : normalizer.pendingDelta.toList.length ≤ 1 := by
      cases normalizer.pendingDelta <;> simp
    omega

/-- **A chunk is captured**, with no panic: the message takes as much of it as the limits allow. -/
theorem Kept.captureText (h : Kept facts normalizer entries)
    {message : SourceMessage} (hentry : (id, message) ∈ entries) (hopen : message.ended = false)
    {chunk : List Char} (hchunk : chunk ≠ []) (elapsedNs : ElapsedNs) :
    ∃ out normalizer', normalizer.captureText id chunk elapsedNs = .ok (out, normalizer') ∧
      Kept (facts ++ out) normalizer' (entries.map (addText id chunk)) ∧
      normalizer'.terminal = normalizer.terminal ∧
      normalizer'.allocatedMessageIds = normalizer.allocatedMessageIds := by
  obtain ⟨held, hheld, deltas, hlive⟩ := h.live _ hentry hopen
  have hfound := h.message_eq hheld
  rw [hlive.messageId] at hfound
  have honly : ∀ other ∈ normalizer.openMessages, other.messageId = id → other = held :=
    fun other hother hid => h.eq_of_messageId hother hheld (hid.trans hlive.messageId.symm)
  have hnothing : Appended id message.sourceMessageId normalizer.pendingDelta [] []
      normalizer.pendingDelta := .nothing fun delta hdelta => (h.pending delta hdelta).1
  unfold AgentMessageNormalizer.captureText
  rw [hfound]
  dsimp only
  by_cases htruncated : held.truncated = true
  · -- A truncated message takes nothing more.
    rw [if_pos htruncated]
    refine ⟨[], normalizer, rfl, ?_, rfl, rfl⟩
    have htakes : Takes normalizer id chunk [] fun held => held := by
      refine ⟨List.nil_prefix, fun held => ⟨rfl, rfl, rfl, rfl⟩, fun other hother hid => ?_,
        fun _ _ _ _ => rfl, fun other hother hid => ?_, h.bound,
        fun other hother _ => h.full other hother⟩
      · rw [honly other hother hid]
        simp [htruncated]
      · rw [honly other hother hid]
        exact hlive.bound
    have hkept := h.extend hentry hopen htakes hnothing
    rw [changeMessage_same] at hkept
    exact hkept
  · rw [if_neg htruncated, usizeSub_of_le hlive.bound, usizeSub_of_le h.bound, ok_bind, ok_bind]
    obtain ⟨captured, rest, hslice, htext, hsize, hle, hnext⟩ := prefixSplit_spec chunk
      (min (agentMessageMaxBytes - held.utf8Bytes)
        (actAgentMessagesMaxBytes - normalizer.capturedActUtf8Bytes))
    have hbound := hlive.bound
    have htotal := h.bound
    rw [← hsize]
    rw [← hsize] at hslice
    have hfull : captured ≠ chunk → NoRoom (held.utf8Bytes + utf8Size captured)
        (normalizer.capturedActUtf8Bytes + utf8Size captured) := by
      intro hne
      rcases rest with _ | ⟨c, rest⟩
      · exact absurd (by rw [htext, List.append_nil]) hne
      · have hnext := hnext c rest rfl
        have hfour := Char.utf8Size_le_four c
        unfold NoRoom
        omega
    by_cases hnone : utf8Size captured = 0
    · -- No room for a character: the message is truncated here.
      rw [if_pos hnone]
      refine ⟨[], _, rfl, ?_, rfl, rfl⟩
      have htakes : Takes normalizer id chunk [] fun held => { held with truncated := true } := by
        refine ⟨List.nil_prefix, fun held => ⟨rfl, rfl, rfl, rfl⟩, fun other hother hid => ?_,
          fun _ _ _ _ => rfl, fun other hother hid => ?_, h.bound, fun other hother hid _ => ?_⟩
        · simp [hchunk.symm]
        · rw [honly other hother hid]
          exact hlive.bound
        · rw [honly other hother hid]
          rw [hnone] at hfull
          refine hfull fun hwhole => hchunk ?_
          rw [← hwhole, ← List.length_eq_zero_iff]
          have hlength := length_le_utf8Size captured
          omega
      exact h.extend hentry hopen htakes hnothing
    · rw [if_neg hnone]
      obtain ⟨sent, pending', hloop, happended⟩ := h.appendLoop hentry hopen captured elapsedNs
      rw [← hlive.sourceMessageId] at hloop
      have hshort : utf8Size captured < utf8Size chunk ↔ captured ≠ chunk := by
        constructor
        · rintro hlt rfl
          exact Nat.lt_irrefl _ hlt
        · intro hne
          rcases rest with _ | ⟨c, rest⟩
          · exact absurd (by rw [htext, List.append_nil]) hne
          · have hpos := Char.utf8Size_pos c
            rw [htext, utf8Size_append, utf8Size_cons]
            omega
      have htakes : ∀ mark : OpenMessage → Bool, (∀ held, mark held = true ↔
          held.truncated = true ∨ captured ≠ chunk) →
          Takes normalizer id chunk captured fun held => { held with
            utf8Bytes := held.utf8Bytes + utf8Size captured
            unicodeScalarCount := held.unicodeScalarCount + captured.length
            truncated := mark held } := by
        intro mark hmark
        refine ⟨⟨rest, htext.symm⟩, fun held => ⟨rfl, rfl, rfl, rfl⟩, fun other _ _ => hmark other,
          fun other hother hid hstopped => ?_, fun other hother hid => ?_, by omega,
          fun other hother hid hcut => ?_⟩
        · rw [honly other hother hid] at hstopped
          exact absurd hstopped htruncated
        · rw [honly other hother hid]
          omega
        · rw [honly other hother hid] at hcut ⊢
          exact hfull (((hmark held).mp hcut).resolve_left htruncated)
      simp only [sliceAt, hslice, ok_bind, AgentMessageNormalizer.appendCaptured, hloop]
      refine ⟨sent.map .delta, _, rfl, ?_, ?_, ?_⟩
      · by_cases hlt : utf8Size captured < utf8Size chunk
        · rw [if_pos hlt]
          have hkept := h.extend hentry hopen
            (htakes (fun _ => true) fun held => by simp [hshort.mp hlt]) happended
          dsimp only [AgentMessageNormalizer.truncateMessage]
          rw [changeMessage_comp]
          · exact hkept
          · exact fun _ => rfl
        · rw [if_neg hlt]
          have hwhole : ¬captured ≠ chunk := fun hne => hlt (hshort.mpr hne)
          exact h.extend hentry hopen
            (htakes OpenMessage.truncated fun held => by simp [not_not.mp hwhole]) happended
      · split <;> rfl
      · split <;> rfl

/-! ## The message of a chunk -/

theorem allocateMessageId_cases (normalizer : AgentMessageNormalizer) (draws : List RunLocalId) :
    (normalizer.allocateMessageId draws = .error .unfinished ∧
      ∀ id ∈ draws, id ∈ normalizer.allocatedMessageIds) ∨
    ∃ id ∈ draws, id ∉ normalizer.allocatedMessageIds ∧
      normalizer.allocateMessageId draws = .ok (id, { normalizer with
        allocatedMessageIds := insert id normalizer.allocatedMessageIds }) := by
  induction draws with
  | nil => exact .inl ⟨rfl, List.forall_mem_nil _⟩
  | cons id draws ih =>
    rw [AgentMessageNormalizer.allocateMessageId]
    by_cases hid : id ∈ normalizer.allocatedMessageIds
    · rw [if_pos hid]
      rcases ih with ⟨herror, hall⟩ | ⟨other, hother, hfresh, hok⟩
      · exact .inl ⟨herror, List.forall_mem_cons.mpr ⟨hid, hall⟩⟩
      · exact .inr ⟨other, List.mem_cons_of_mem _ hother, hfresh, hok⟩
    · rw [if_neg hid]
      exact .inr ⟨id, List.mem_cons_self, hid, rfl⟩

/-- A chunk of a message that is open is heard as its continuation. -/
theorem hear_open (chunk : List Char)
    (hopen : ∃ entry ∈ entries, entry.1 = id)
    (honly : ∀ entry ∈ entries,
      entry.1 = id ↔ entry.2.ended = false ∧ entry.2.sourceMessageId = sourceMessageId) :
    (entries.map (addText id chunk)).map Prod.snd =
      hear (entries.map Prod.snd) sourceMessageId chunk := by
  unfold hear
  rw [if_pos, List.map_map, List.map_map]
  · refine List.map_congr_left fun entry hentry => ?_
    have hone := honly entry hentry
    by_cases hid : entry.1 = id
    · simp [Function.comp, addText, hid, (hone.mp hid).1, (hone.mp hid).2]
    · have hother : ¬(entry.2.ended = false ∧ entry.2.sourceMessageId = sourceMessageId) :=
        fun hsame => hid (hone.mpr hsame)
      rw [Function.comp, addText, if_neg hid, Function.comp, if_neg (by simpa using hother)]
  · obtain ⟨entry, hentry, hid⟩ := hopen
    obtain ⟨hended, hsource⟩ := (honly entry hentry).mp hid
    rw [List.any_map, List.any_eq_true]
    exact ⟨entry, hentry, by simp [hended, hsource]⟩

/-- A chunk of no open message starts one; an explicit one ends the explicit message before it. -/
theorem hear_new (chunk : List Char)
    {entries' : List (RunLocalId × SourceMessage)} (hfresh : id ∉ entries'.map Prod.fst)
    (hnone : ∀ entry ∈ entries, ¬(entry.2.ended = false ∧
      entry.2.sourceMessageId = sourceMessageId))
    (hentries : entries'.map Prod.snd = entries.map fun entry =>
      if !entry.2.ended && entry.2.sourceMessageId.isSome && sourceMessageId.isSome then
        { entry.2 with ended := true }
      else entry.2) :
    ((entries' ++ [(id, (⟨sourceMessageId, [], false, false⟩ : SourceMessage))]).map
        (addText id chunk)).map Prod.snd =
      hear (entries.map Prod.snd) sourceMessageId chunk := by
  have hsame : entries'.map (addText id chunk) = entries' := by
    refine (List.map_congr_left fun entry hentry => ?_).trans (List.map_id _)
    exact if_neg fun hid => hfresh (List.mem_map.mpr ⟨entry, hentry, hid⟩)
  unfold hear
  rw [if_neg, List.map_append, List.map_append, hsame, hentries, List.map_map]
  · simp [addText, Function.comp_def]
  · rw [List.any_map, List.any_eq_true]
    rintro ⟨entry, hentry, hopen⟩
    exact hnone entry hentry (by simpa using hopen)

/-- The answer of `message_for_source` for a chunk: an open message, the one that the story adds the
chunk to. -/
structure Located (facts : List AgentMessageCandidate) (normalizer : AgentMessageNormalizer)
    (messages : List SourceMessage) (sourceMessageId : Option String) (draws : List RunLocalId)
    (id : RunLocalId) (out : List AgentMessageCandidate) (normalizer' : AgentMessageNormalizer)
    (entries' : List (RunLocalId × SourceMessage)) : Prop where
  kept : Kept (facts ++ out) normalizer' entries'
  isOpen : ∃ message, (id, message) ∈ entries' ∧ message.ended = false
  heard : ∀ chunk, (entries'.map (addText id chunk)).map Prod.snd =
    hear messages sourceMessageId chunk
  terminal : normalizer'.terminal = normalizer.terminal
  allocated : ∀ id ∈ normalizer'.allocatedMessageIds,
    id ∈ normalizer.allocatedMessageIds ∨ id ∈ draws

/-- The facts of the calls before, made part of the answer. -/
theorem Located.after {messages : List SourceMessage}
    {draws : List RunLocalId} {before out : List AgentMessageCandidate}
    {earlier normalizer' : AgentMessageNormalizer} {entries' : List (RunLocalId × SourceMessage)}
    (h : Located (facts ++ before) normalizer messages sourceMessageId draws id out normalizer'
      entries')
    (hterminal : normalizer.terminal = earlier.terminal)
    (hallocated : normalizer.allocatedMessageIds = earlier.allocatedMessageIds) :
    Located facts earlier messages sourceMessageId draws id (before ++ out) normalizer' entries' where
  kept := by
    rw [← List.append_assoc]
    exact h.kept
  isOpen := h.isOpen
  heard := h.heard
  terminal := h.terminal.trans hterminal
  allocated := hallocated ▸ h.allocated

/-- An explicit message starts, the one before it being closed. -/
theorem Kept.startExplicit {messages : List SourceMessage} {source : String}
    (h : Kept facts normalizer entries) (hactive : normalizer.activeExplicitMessageId = none)
    (hheard : ∀ id, id ∉ entries.map Prod.fst → ∀ chunk,
      ((entries ++ [(id, (⟨some source, [], false, false⟩ : SourceMessage))]).map
        (addText id chunk)).map Prod.snd = hear messages (some source) chunk)
    (elapsedNs : ElapsedNs) (draws : List RunLocalId) :
    (normalizer.startExplicit source elapsedNs draws = .error .unfinished ∧
      ∀ id ∈ draws, id ∈ normalizer.allocatedMessageIds) ∨
    ∃ id out normalizer' entries', normalizer.startExplicit source elapsedNs draws =
        .ok (id, out, normalizer') ∧
      Located facts normalizer messages (some source) draws id out normalizer' entries' := by
  unfold AgentMessageNormalizer.startExplicit
  rcases allocateMessageId_cases normalizer draws with ⟨herror, hall⟩ | ⟨id, hid, hfresh, hok⟩
  · rw [herror]
    exact .inl ⟨rfl, hall⟩
  · rw [hok]
    refine .inr ⟨id, _, _, _, rfl, ?_, ?_, hheard id fun hmem => hfresh ((h.allocated id).mpr hmem),
      rfl, ?_⟩
    · refine Kept.gaps ?_ ?_
      · have hpushed := @Kept.push _ _ _ h id (some source)
          { normalizer.pushMessage id (some source) with
            allocatedMessageIds := insert id normalizer.allocatedMessageIds
            activeExplicitMessageId := some id }
        exact hpushed hfresh (fun _ => hactive) (fun hnone => nomatch hnone) rfl rfl rfl rfl rfl rfl
      · intro fact hfact
        obtain ⟨previous, -, rfl⟩ := List.mem_map.mp hfact
        rfl
    · exact ⟨_, List.mem_append_right _ (List.mem_singleton_self _), rfl⟩
    · intro other hother
      rcases Finset.mem_insert.mp hother with rfl | hother
      · exact .inr hid
      · exact .inl hother

/-- The active explicit message is completed, and recorded under its source id. -/
theorem Kept.completeActive (h : Kept facts normalizer entries)
    (hpending : normalizer.pendingDelta = none)
    (hactive : normalizer.activeExplicitMessageId = some id) (elapsedNs : ElapsedNs) :
    ∃ out normalizer', AgentMessageNormalizer.completeMessage
        { normalizer with activeExplicitMessageId := none } id elapsedNs = .ok (out, normalizer') ∧
      Kept (facts ++ out) normalizer' (entries.map (endEntry (· = id) false)) ∧
      normalizer'.activeExplicitMessageId = none ∧ normalizer'.terminal = normalizer.terminal ∧
      normalizer'.allocatedMessageIds = normalizer.allocatedMessageIds := by
  obtain ⟨entry, hentry, rfl, hended, hsource⟩ := (h.active id).mp hactive
  obtain ⟨held, hheld, deltas, hlive⟩ := h.live entry hentry hended
  rw [← hlive.messageId] at hactive ⊢
  obtain ⟨hpicked, hremoved⟩ := erase_message h.openIds hheld
  rw [← hlive.sourceMessageId] at hsource
  obtain ⟨source, hsource⟩ := Option.isSome_iff_exists.mp hsource
  have hnotAnonymous : normalizer.anonymousMessageId ≠ some held.messageId := by
    intro hanonymous
    obtain ⟨other, hother, hotherId, -, hnone⟩ := (h.anonymous _).mp hanonymous
    rw [h.eq_of_id hother hentry (hotherId.trans hlive.messageId), ← hlive.sourceMessageId,
      hsource] at hnone
    cases hnone
  have hkept := @Kept.finish _ _ _ h hpending (fun id => decide (id = held.messageId)) false
    elapsedNs { normalizer with
      openMessages := normalizer.openMessages.eraseP (·.messageId = held.messageId)
      activeExplicitMessageId := none
      completedExplicitMessageIds :=
        normalizer.completedExplicitMessageIds.insert source held.messageId }
    hremoved rfl
    (by rw [hactive]; exact (Option.filter_eq_none_iff.mpr (by simp)).symm)
    (by
      dsimp only
      rcases hanonymous : normalizer.anonymousMessageId with _ | id
      · rfl
      · have hother : id ≠ held.messageId := fun hsame => hnotAnonymous (hsame ▸ hanonymous)
        exact (Option.filter_some_pos (by simpa using hother)).symm)
    hpending rfl
  simp only [hpicked, List.map_cons, List.map_nil, Bool.or_false] at hkept
  refine ⟨[held.complete elapsedNs], _, ?_, hkept, rfl, rfl, rfl⟩
  have hfound : AgentMessageNormalizer.message
      { normalizer with activeExplicitMessageId := none } held.messageId = some held :=
    h.message_eq hheld
  rw [AgentMessageNormalizer.completeMessage, hfound]
  simp only [hsource]

/-- An open message is the one for a chunk of its source id. -/
theorem Located.open (h : Kept facts normalizer entries)
    {entry : RunLocalId × SourceMessage} (hentry : entry ∈ entries) (hended : entry.2.ended = false)
    (hsource : entry.2.sourceMessageId = sourceMessageId)
    (honly : ∀ other ∈ entries, other.2.ended = false →
      other.2.sourceMessageId = sourceMessageId → other.1 = entry.1) (draws : List RunLocalId) :
    Located facts normalizer (entries.map Prod.snd) sourceMessageId draws entry.1 [] normalizer
      entries where
  kept := by
    rw [List.append_nil]
    exact h
  isOpen := ⟨entry.2, hentry, hended⟩
  heard chunk := by
    refine hear_open chunk ⟨entry, hentry, rfl⟩ fun other hother => ⟨fun hid => ?_, fun hsame => ?_⟩
    · rw [h.eq_of_id hother hentry hid]
      exact ⟨hended, hsource⟩
    · exact honly other hother hsame.1 hsame.2
  terminal := rfl
  allocated _ hid := .inl hid

/-- **The message of a chunk**: it is found or started, if only one of the draws is new. -/
theorem Kept.messageForSource (h : Kept facts normalizer entries) (sourceMessageId : Option String)
    (elapsedNs : ElapsedNs) (draws : List RunLocalId) :
    (normalizer.messageForSource sourceMessageId elapsedNs draws = .error .unfinished ∧
      ∀ id ∈ draws, id ∈ normalizer.allocatedMessageIds) ∨
    ∃ id out normalizer' entries', normalizer.messageForSource sourceMessageId elapsedNs draws =
        .ok (id, out, normalizer') ∧
      Located facts normalizer (entries.map Prod.snd) sourceMessageId draws id out normalizer'
        entries' := by
  rcases sourceMessageId with _ | source
  · rcases hanonymous : normalizer.anonymousMessageId with _ | id
    · have hnone : ∀ entry ∈ entries,
          ¬(entry.2.ended = false ∧ entry.2.sourceMessageId = none) := by
        rintro entry hentry ⟨hended, hsource⟩
        rw [(h.anonymous entry.1).mpr ⟨entry, hentry, rfl, hended, hsource⟩] at hanonymous
        cases hanonymous
      simp only [AgentMessageNormalizer.messageForSource, hanonymous]
      rcases allocateMessageId_cases normalizer draws with ⟨herror, hall⟩ | ⟨id, hid, hfresh, hok⟩
      · rw [herror]
        exact .inl ⟨rfl, hall⟩
      · simp only [hok, ok_bind]
        refine .inr ⟨id, [], _, entries ++ [(id, ⟨none, [], false, false⟩)], rfl, ?_, ?_,
          fun chunk => ?_, rfl, ?_⟩
        · have hpushed := @Kept.push _ _ _ h id none
            { normalizer.pushMessage id none with
              allocatedMessageIds := insert id normalizer.allocatedMessageIds
              anonymousMessageId := some id }
          rw [List.append_nil]
          exact hpushed hfresh (fun hsome => nomatch hsome) (fun _ => hanonymous) rfl rfl rfl rfl
            rfl rfl
        · exact ⟨_, List.mem_append_right _ (List.mem_singleton_self _), rfl⟩
        · refine hear_new chunk (fun hmem => hfresh ((h.allocated id).mpr hmem)) hnone ?_
          exact List.map_congr_left fun entry _ => by simp
        · intro other hother
          rcases Finset.mem_insert.mp hother with rfl | hother
          · exact .inr hid
          · exact .inl hother
    · obtain ⟨entry, hentry, rfl, hended, hsource⟩ := (h.anonymous id).mp hanonymous
      simp only [AgentMessageNormalizer.messageForSource, hanonymous]
      refine .inr ⟨_, _, _, _, rfl, .open h hentry hended hsource (fun other hother hopen hnone => ?_)
        draws⟩
      have hother := (h.anonymous other.1).mpr ⟨other, hother, rfl, hopen, hnone⟩
      exact Option.some.inj (hother.symm.trans hanonymous)
  · rcases hactive : normalizer.activeExplicitMessageId with _ | id
    · -- No explicit message is open: one starts.
      have hnone : ∀ entry ∈ entries, entry.2.ended = false → entry.2.sourceMessageId = none := by
        intro entry hentry hended
        by_contra hsource
        rw [(h.active entry.1).mpr ⟨entry, hentry, rfl, hended, Option.isSome_iff_ne_none.mpr hsource⟩]
          at hactive
        cases hactive
      simp only [AgentMessageNormalizer.messageForSource, hactive]
      have hstarted := @Kept.startExplicit _ _ _ (entries.map Prod.snd) source h.flush hactive
        (fun id hfresh chunk => hear_new chunk hfresh
          (fun entry hentry hsame => by
            rw [hnone entry hentry hsame.1] at hsame
            exact nomatch hsame.2)
          (List.map_congr_left fun entry hentry => by
            cases hended : entry.2.ended with
            | true => simp
            | false => simp [hnone entry hentry hended]))
        elapsedNs draws
      rcases hstarted with ⟨herror, hall⟩ | ⟨id, out, normalizer', entries', hok, hlocated⟩
      · refine .inl ⟨?_, hall⟩
        simp only [ok_bind, herror]
        rfl
      · refine .inr ⟨id, _, normalizer', entries', ?_, hlocated.after rfl rfl⟩
        simp only [ok_bind, hok, List.append_nil]
    · obtain ⟨entry, hentry, rfl, hended, hsource⟩ := (h.active id).mp hactive
      have honly : ∀ other ∈ entries, other.2.ended = false → other.2.sourceMessageId.isSome →
          other = entry := by
        intro other hother hopen hexplicit
        have hid := (h.active other.1).mpr ⟨other, hother, rfl, hopen, hexplicit⟩
        exact h.eq_of_id hother hentry (Option.some.inj (hid.symm.trans hactive))
      obtain ⟨held, hheld, deltas, hlive⟩ := h.live entry hentry hended
      have hfound := h.message_eq hheld
      rw [hlive.messageId] at hfound
      simp only [AgentMessageNormalizer.messageForSource, hactive, Option.bind_eq_bind,
        Option.bind_some, hfound, hlive.sourceMessageId]
      by_cases hsame : entry.2.sourceMessageId = some source
      · -- The explicit message that is open goes on.
        rw [decide_eq_true hsame]
        refine .inr ⟨_, _, _, _, rfl, .open h hentry hended hsame
          (fun other hother hopen hother' => ?_) draws⟩
        rw [honly other hother hopen (by rw [hother']; rfl)]
      · -- It is completed, and another one starts.
        rw [decide_eq_false hsame]
        obtain ⟨out, completed, hcomplete, hkept, hnoActive, hterminal, hallocated⟩ :=
          h.flush.completeActive rfl hactive elapsedNs
        have hstarted := @Kept.startExplicit _ _ _ (entries.map Prod.snd) source hkept hnoActive
          (fun id hfresh chunk => hear_new chunk hfresh
            (fun other hother hopen => by
              have hother := honly other hother hopen.1 (by rw [hopen.2]; rfl)
              exact hsame (hother ▸ hopen.2))
            (by
              rw [List.map_map]
              refine List.map_congr_left fun other hother => ?_
              by_cases hid : other.1 = entry.1
              · rw [h.eq_of_id hother hentry hid]
                simp [endEntry, hended, hsource, hlive.unreported]
              · have hother : ¬(other.2.ended = false ∧ other.2.sourceMessageId.isSome) :=
                  fun hopen => hid (congrArg _ (honly other hother hopen.1 hopen.2))
                rw [if_neg (by simpa using hother)]
                simp [endEntry, hid]))
          elapsedNs draws
        dsimp only
        rcases hstarted with ⟨herror, hall⟩ | ⟨id, out, normalizer', entries', hok, hlocated⟩
        · refine .inl ⟨?_, hallocated ▸ hall⟩
          simp only [hcomplete, ok_bind, herror]
          rfl
        · refine .inr ⟨id, _, normalizer', entries', ?_,
            (hlocated.after hterminal hallocated).after rfl rfl⟩
          simp only [hcomplete, ok_bind, hok, List.append_assoc]

/-! ## Calls -/

theorem Kept.flushIfElapsed (h : Kept facts normalizer entries) (elapsedNs : ElapsedNs) :
    Kept (facts ++ (normalizer.flushIfElapsed elapsedNs).1) (normalizer.flushIfElapsed elapsedNs).2
        entries ∧
      (normalizer.flushIfElapsed elapsedNs).2.terminal = normalizer.terminal ∧
      (normalizer.flushIfElapsed elapsedNs).2.allocatedMessageIds =
        normalizer.allocatedMessageIds := by
  unfold AgentMessageNormalizer.flushIfElapsed
  split
  · exact ⟨h.flush, rfl, rfl⟩
  · rw [List.append_nil]
    exact ⟨h, rfl, rfl⟩

/-- The message ids drawn in a call. -/
def AgentMessageNormalizer.Call.draws : AgentMessageNormalizer.Call → List RunLocalId
  | .text _ _ draws => draws
  | _ => []

/-- The state after a call: the facts fit the story told with it. -/
structure Answered (facts : List AgentMessageCandidate) (normalizer : AgentMessageNormalizer)
    (story : Story) (draws : List RunLocalId) (out : List AgentMessageCandidate)
    (normalizer' : AgentMessageNormalizer) (entries' : List (RunLocalId × SourceMessage)) :
    Prop where
  kept : Kept (facts ++ out) normalizer' entries'
  told : story = ⟨entries'.map Prod.snd, normalizer'.terminal⟩
  closed : normalizer'.terminal = true → normalizer'.openMessages = []
  allocated : ∀ id ∈ normalizer'.allocatedMessageIds,
    id ∈ normalizer.allocatedMessageIds ∨ id ∈ draws

theorem Kept.observeText (h : Kept facts normalizer entries) (hterminal : normalizer.terminal = false)
    (sourceMessageId : Option String) (chunk : List Char) (elapsedNs : ElapsedNs)
    (draws : List RunLocalId) :
    (normalizer.observeText sourceMessageId chunk elapsedNs draws = .error .unfinished ∧
      ∀ id ∈ draws, id ∈ normalizer.allocatedMessageIds) ∨
    ∃ out normalizer' entries',
      normalizer.observeText sourceMessageId chunk elapsedNs draws = .ok (out, normalizer') ∧
      Answered facts normalizer (Story.tell ⟨entries.map Prod.snd, false⟩
        (.text sourceMessageId chunk draws, elapsedNs)) draws out normalizer' entries' := by
  obtain ⟨hkept, hopen, hallocated⟩ := h.flushIfElapsed elapsedNs
  simp only [AgentMessageNormalizer.observeText, AgentMessageNormalizer.ensureOpen, hterminal,
    Bool.false_eq_true, if_false, ok_bind, Story.tell]
  rw [hterminal] at hopen
  by_cases hchunk : chunk = []
  · rw [if_pos (List.isEmpty_iff.mpr hchunk), if_pos (List.isEmpty_iff.mpr hchunk)]
    exact .inr ⟨_, _, entries, rfl, hkept, by rw [hopen], (fun hended => nomatch hopen.symm.trans hended),
      fun id hid => .inl (hallocated ▸ hid)⟩
  · rw [if_neg (mt List.isEmpty_iff.mp hchunk), if_neg (mt List.isEmpty_iff.mp hchunk)]
    rcases hkept.messageForSource sourceMessageId elapsedNs draws with
      ⟨herror, hall⟩ | ⟨id, opened, located, entries', hok, hlocated⟩
    · refine .inl ⟨?_, hallocated ▸ hall⟩
      rw [herror]
      rfl
    · obtain ⟨message, hentry, hended⟩ := hlocated.isOpen
      obtain ⟨out, normalizer', hcapture, hkept', hsame, hsameIds⟩ :=
        hlocated.kept.captureText hentry hended hchunk elapsedNs
      have hopen' : normalizer'.terminal = false := hsame.trans (hlocated.terminal.trans hopen)
      refine .inr ⟨(normalizer.flushIfElapsed elapsedNs).1 ++ opened ++ out, normalizer',
        entries'.map (addText id chunk), ?_, ?_, ?_, (fun hclosed => nomatch hopen'.symm.trans hclosed), ?_⟩
      · simp only [hok, ok_bind, hcapture]
      · simpa only [List.append_assoc] using hkept'
      · rw [hlocated.heard, hopen']
      · rw [hsameIds, ← hallocated]
        exact hlocated.allocated

theorem Kept.turnTerminal (h : Kept facts normalizer entries)
    (hterminal : normalizer.terminal = false) (elapsedNs : ElapsedNs) (sourceTruncated : Bool) :
    ∃ out normalizer' entries',
      normalizer.turnTerminal elapsedNs sourceTruncated = .ok (out, normalizer') ∧
      Answered facts normalizer (Story.tell ⟨entries.map Prod.snd, false⟩
        (.terminal sourceTruncated, elapsedNs)) [] out normalizer' entries' := by
  simp only [AgentMessageNormalizer.turnTerminal, AgentMessageNormalizer.ensureOpen, hterminal,
    Bool.false_eq_true, if_false, ok_bind]
  refine ⟨_, _, entries.map (endEntry (fun _ => true) sourceTruncated), rfl, ?_, ?_, fun _ => rfl,
    fun id hid => .inl hid⟩
  · have hkept := @Kept.finish _ _ _ h.flush rfl (fun _ => true) sourceTruncated elapsedNs
      { normalizer with
        openMessages := []
        completedExplicitMessageIds :=
          (normalizer.openMessages.map fun message =>
            { message with truncated := message.truncated || sourceTruncated }).foldl
              AgentMessageNormalizer.recordCompleted normalizer.completedExplicitMessageIds
        anonymousMessageId := none
        activeExplicitMessageId := none
        pendingDelta := none
        terminal := true }
      (List.filter_eq_nil_iff.mpr fun _ _ => Bool.false_ne_true).symm rfl
      (Option.filter_eq_none_iff.mpr fun _ _ => Bool.false_ne_true).symm
      (Option.filter_eq_none_iff.mpr fun _ _ => Bool.false_ne_true).symm rfl rfl
    rw [List.filter_true, List.append_assoc] at hkept
    rw [List.map_map]
    exact hkept
  · simp only [Story.tell, Bool.false_eq_true, if_false, List.map_map]
    refine congrArg (Story.mk · true) (List.map_congr_left fun entry _ => ?_)
    cases hended : entry.2.ended <;> simp [endEntry, hended]

/-- **One call**: it is answered, in step with the story, unless its draws are used up. -/
theorem Kept.call (h : Kept facts normalizer entries) (hterminal : normalizer.terminal = false)
    (input : AgentMessageNormalizer.Call × ElapsedNs) :
    (normalizer.call input = .error .unfinished ∧
      (∃ sourceMessageId text draws, input.1 = .text sourceMessageId text draws) ∧
      ∀ id ∈ input.1.draws, id ∈ normalizer.allocatedMessageIds) ∨
    ∃ out normalizer' entries', normalizer.call input = .ok (out, normalizer') ∧
      Answered facts normalizer (Story.tell ⟨entries.map Prod.snd, false⟩ input) input.1.draws out
        normalizer' entries' := by
  obtain ⟨call, elapsedNs⟩ := input
  cases call with
  | text sourceMessageId text draws =>
    rcases h.observeText hterminal sourceMessageId text elapsedNs draws with ⟨herror, hall⟩ | hok
    · exact .inl ⟨herror, ⟨_, _, _, rfl⟩, hall⟩
    · exact .inr hok
  | flushElapsed =>
    obtain ⟨hkept, hopen, hallocated⟩ := h.flushIfElapsed elapsedNs
    rw [hterminal] at hopen
    refine .inr ⟨_, _, entries, ?_, hkept, ?_, (fun hended => nomatch hopen.symm.trans hended),
      fun id hid => .inl (hallocated ▸ hid)⟩
    · simp only [AgentMessageNormalizer.call, AgentMessageNormalizer.flushElapsed,
        AgentMessageNormalizer.ensureOpen, hterminal, Bool.false_eq_true, if_false, ok_bind]
    · rw [hopen]
      rfl
  | other =>
    have hopen : normalizer.flushPending.2.terminal = false := hterminal
    refine .inr ⟨_, _, entries, ?_, h.flush, ?_, (fun hended => nomatch hopen.symm.trans hended),
      fun id hid => .inl hid⟩
    · simp only [AgentMessageNormalizer.call, AgentMessageNormalizer.observeOther,
        AgentMessageNormalizer.ensureOpen, hterminal, Bool.false_eq_true, if_false, ok_bind]
    · rw [hopen]
      rfl
  | terminal sourceTruncated => exact .inr (h.turnTerminal hterminal elapsedNs sourceTruncated)

end Calls

/-! ## Runs -/

/-- Each chunk of the calls has a draw that no call before it had. -/
def Fresh : List RunLocalId → List (AgentMessageNormalizer.Call × ElapsedNs) → Prop
  | _, [] => True
  | seen, (.text _ _ draws, _) :: inputs => (∃ id ∈ draws, id ∉ seen) ∧ Fresh (seen ++ draws) inputs
  | seen, _ :: inputs => Fresh seen inputs

theorem Fresh.tail {seen : List RunLocalId} {input : AgentMessageNormalizer.Call × ElapsedNs}
    {inputs : List (AgentMessageNormalizer.Call × ElapsedNs)} (h : Fresh seen (input :: inputs)) :
    Fresh (seen ++ input.1.draws) inputs := by
  obtain ⟨call, elapsedNs⟩ := input
  cases call with
  | text sourceMessageId text draws => exact h.2
  | flushElapsed => exact (List.append_nil seen).symm ▸ h
  | other => exact (List.append_nil seen).symm ▸ h
  | terminal sourceTruncated => exact (List.append_nil seen).symm ▸ h

theorem tell_terminal (story : Story) (hterminal : story.terminal = true)
    (input : AgentMessageNormalizer.Call × ElapsedNs) : story.tell input = story := by
  rw [Story.tell, if_pos hterminal]

theorem call_terminal {normalizer : AgentMessageNormalizer} (hterminal : normalizer.terminal = true)
    (input : AgentMessageNormalizer.Call × ElapsedNs) :
    normalizer.call input = .error .turnAlreadyTerminal := by
  obtain ⟨call, elapsedNs⟩ := input
  cases call <;>
    simp only [AgentMessageNormalizer.call, AgentMessageNormalizer.observeText,
      AgentMessageNormalizer.flushElapsed, AgentMessageNormalizer.observeOther,
      AgentMessageNormalizer.turnTerminal, AgentMessageNormalizer.ensureOpen, hterminal, if_true] <;>
    rfl

/-- **Any calls**: the facts keep in step with the story, and every call returns that has a new id
to draw. -/
theorem run_told (inputs : List (AgentMessageNormalizer.Call × ElapsedNs)) :
    ∀ {facts : List AgentMessageCandidate} {normalizer : AgentMessageNormalizer}
      {entries : List (RunLocalId × SourceMessage)} {seen : List RunLocalId},
      Kept facts normalizer entries →
      (normalizer.terminal = true → normalizer.openMessages = []) →
      (∀ id ∈ normalizer.allocatedMessageIds, id ∈ seen) →
      (normalizer.run inputs = .error .unfinished ∧ ¬Fresh seen inputs) ∨
      ∃ out normalizer' entries', normalizer.run inputs = .ok (out, normalizer') ∧
        Kept (facts ++ out) normalizer' entries' ∧
        inputs.foldl Story.tell ⟨entries.map Prod.snd, normalizer.terminal⟩ =
          ⟨entries'.map Prod.snd, normalizer'.terminal⟩ ∧
        (normalizer'.terminal = true → normalizer'.openMessages = []) := by
  induction inputs with
  | nil =>
    intro facts normalizer entries seen h hclosed _
    exact .inr ⟨[], normalizer, entries, rfl, (List.append_nil _).symm ▸ h, rfl, hclosed⟩
  | cons input inputs ih =>
    intro facts normalizer entries seen h hclosed hseen
    rw [List.foldl_cons, AgentMessageNormalizer.run]
    by_cases hterminal : normalizer.terminal = true
    · -- The turn has ended: the call is refused, and the story goes on without it.
      rw [call_terminal hterminal, tell_terminal _ hterminal]
      dsimp only
      have hseen' : ∀ id ∈ normalizer.allocatedMessageIds, id ∈ seen ++ input.1.draws :=
        fun id hid => List.mem_append_left _ (hseen id hid)
      rcases ih h hclosed hseen' with ⟨herror, hstale⟩ | hok
      · exact .inl ⟨herror, fun hfresh => hstale hfresh.tail⟩
      · exact .inr hok
    · have hopen := (Bool.not_eq_true _).mp hterminal
      rw [hopen]
      rcases h.call hopen input with ⟨herror, ⟨_, _, draws, htext⟩, hall⟩ |
        ⟨out, normalizer', entries', hcall, hanswered⟩
      · refine .inl ⟨by rw [herror], fun hfresh => ?_⟩
        obtain ⟨call, elapsedNs⟩ := input
        cases htext
        obtain ⟨⟨id, hid, hnew⟩, -⟩ := hfresh
        exact hnew (hseen id (hall id hid))
      · rw [hcall, hanswered.told]
        dsimp only
        have hseen' : ∀ id ∈ normalizer'.allocatedMessageIds, id ∈ seen ++ input.1.draws := by
          intro id hid
          rcases hanswered.allocated id hid with hid | hid
          · exact List.mem_append_left _ (hseen id hid)
          · exact List.mem_append_right _ hid
        rcases ih hanswered.kept hanswered.closed hseen' with
          ⟨herror, hstale⟩ | ⟨rest, last, entries'', hrun, hkept, htold, hlast⟩
        · refine .inl ⟨?_, fun hfresh => hstale hfresh.tail⟩
          rw [herror]
          rfl
        · refine .inr ⟨out ++ rest, last, entries'', ?_, ?_, htold, hlast⟩
          · rw [hrun]
            rfl
          · rwa [← List.append_assoc]

end Troupe.Agent.Diagnostics
