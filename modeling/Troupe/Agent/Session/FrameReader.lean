import Troupe.Agent.Session.Frames
import Troupe.Lib.Result

/-! # What the ACP frame reader gives

The reads of an `AcpFrameLimitedReader` against the stream that its inner reader brings.

`owed` is the account of a reader: what its reads still have to answer. Every step of the reader
keeps it, `exists_step` for a byte and `pollRead_answers` for a read, and a run of reads draws it
down. Results: **`acp_frame_reader`**, the reads give exactly the leading acceptable frames however
the stream arrives, and **`acp_frame_reader_empty_read`**, the reads that do not repeat the error. -/

namespace Troupe.Agent

open Troupe.Lib

/-! ## The account -/

namespace AcpFrameLimitedReader

variable {parsers : FrameParsers} {reader : AcpFrameLimitedReader} {next : AcpFrameLimitedReader}
  {room : Nat} {inner left : List InnerPoll} {answer : ReadAnswer}
  {failure? : Option AcpFrameFailure}

/-- What is sent on but not read. -/
def unsent (reader : AcpFrameLimitedReader) : List UInt8 :=
  reader.pending.drop reader.pendingOffset

/-- What the reads still have to answer when the inner reader still has `stream`: the bytes, and the
error after them. -/
def owed (parsers : FrameParsers) (reader : AcpFrameLimitedReader) (stream : List UInt8) :
    List UInt8 × Option AcpFrameFailure :=
  match reader.terminalFailure with
  | some failure => (reader.unsent, some failure)
  | none =>
    if reader.innerEof then (reader.unsent, none)
    else
      (reader.unsent ++ forwarded parsers (framesFrom reader.frame stream),
        failureOf parsers (framesFrom reader.frame stream))

/-- What the reader keeps of the frame it is in. -/
structure Reading (scan : JsonScan) (frameBytes : Nat) (frame : List UInt8) : Prop where
  scanned : scanFrame frame = some scan
  counted : frameBytes = frame.length
  within : frame.length ≤ acpFrameMaxBytes

/-- What holds of the reader after every read. -/
structure Sound (reader : AcpFrameLimitedReader) : Prop where
  offset_le : reader.pendingOffset ≤ reader.pending.length
  reading : reader.terminalFailure = none → reader.innerEof = false →
    Reading reader.toJsonScan reader.frameBytes reader.frame
  exceeded : reader.exceeded = decide (reader.terminalFailure = some .resourceLimit)
  violation : reader.protocolViolation = decide (reader.terminalFailure = some .protocolViolation)

theorem new_sound : new.Sound where
  offset_le := Nat.le_refl 0
  reading _ _ := ⟨rfl, rfl, Nat.zero_le _⟩
  exceeded := rfl
  violation := rfl

theorem owed_new (stream : List UInt8) :
    owed parsers new stream =
      (forwarded parsers (frames stream), failureOf parsers (frames stream)) := rfl

theorem owed_of_failed {failure : AcpFrameFailure}
    (hfailed : reader.terminalFailure = some failure) (stream : List UInt8) :
    owed parsers reader stream = (reader.unsent, some failure) := by
  rw [owed, hfailed]

theorem owed_of_ended (hlive : reader.terminalFailure = none) (hend : reader.innerEof = true)
    (stream : List UInt8) : owed parsers reader stream = (reader.unsent, none) := by
  rw [owed, hlive]
  exact if_pos hend

theorem owed_of_reading (hlive : reader.terminalFailure = none) (hopen : reader.innerEof = false)
    (stream : List UInt8) :
    owed parsers reader stream =
      (reader.unsent ++ forwarded parsers (framesFrom reader.frame stream),
        failureOf parsers (framesFrom reader.frame stream)) := by
  rw [owed, hlive]
  exact if_neg (by rw [hopen]; exact Bool.false_ne_true)

theorem Sound.recordFailure (hsound : reader.Sound) (hlive : reader.terminalFailure = none)
    (scan : JsonScan) (failure : AcpFrameFailure) :
    (recordFailure { reader with toJsonScan := scan } failure).Sound := by
  have hexceeded := hsound.exceeded
  have hviolation := hsound.violation
  rw [hlive] at hexceeded hviolation
  cases failure with
  | resourceLimit => exact ⟨hsound.offset_le, (nomatch ·), rfl, hviolation⟩
  | protocolViolation => exact ⟨hsound.offset_le, (nomatch ·), hexceeded, rfl⟩

theorem recordFailure_terminalFailure (failure : AcpFrameFailure) :
    (reader.recordFailure failure).terminalFailure = some failure := by
  cases failure <;> rfl

theorem recordFailure_unsent (failure : AcpFrameFailure) :
    (reader.recordFailure failure).unsent = reader.unsent := by
  cases failure <;> rfl

/-- The reader when its frame is sent on. -/
def sendFrame (reader : AcpFrameLimitedReader) (newline : Bool) : AcpFrameLimitedReader :=
  resetFrame { reader with
    pending := reader.pending ++ AcpFrame.wire ⟨reader.frame, newline⟩
    frame := [] }

theorem Sound.sendFrame (hsound : reader.Sound) (newline : Bool) :
    (reader.sendFrame newline).Sound where
  offset_le := by
    have hoffset := hsound.offset_le
    simp only [AcpFrameLimitedReader.sendFrame, resetFrame, List.length_append]
    omega
  reading _ _ := ⟨rfl, rfl, Nat.zero_le _⟩
  exceeded := hsound.exceeded
  violation := hsound.violation

theorem sendFrame_unsent (hsound : reader.Sound) (newline : Bool) :
    (reader.sendFrame newline).unsent =
      reader.unsent ++ AcpFrame.wire ⟨reader.frame, newline⟩ :=
  List.drop_append_of_le_length hsound.offset_le

/-- Finishing a frame finds what is wrong with it. -/
theorem finishFrame_eq (hreading : Reading reader.toJsonScan reader.frameBytes reader.frame)
    (newline : Bool) :
    finishFrame parsers reader newline =
      match frameFailure? parsers reader.frame with
      | some failure => .error failure
      | none => .ok (reader.sendFrame newline) := by
  have hsize : ¬(acpFrameMaxBytes < reader.frame.length ∨ scanFrame reader.frame = none) := by
    rw [hreading.scanned]
    simpa using hreading.within
  rw [finishFrame, frameFailure?, if_neg hsize]
  rcases parsedFrameWithinDepth parsers reader.frame with _ | _ | _
  · rfl
  · rfl
  · simp [sendFrame, AcpFrame.wire, ok_bind]

/-! ### What one step does to the account -/

/-- The reader after a byte and before `stream`: the same is owed, and `readBytes` goes on from
there unless the reader has failed. -/
structure Step (parsers : FrameParsers) (reader : AcpFrameLimitedReader) (byte : UInt8)
    (next : AcpFrameLimitedReader) : Prop where
  sound : next.Sound
  eof : next.innerEof = reader.innerEof
  owed : ∀ stream, owed parsers next stream = owed parsers reader (byte :: stream)
  reads : ∀ rest, readBytes parsers reader (byte :: rest) =
    if next.terminalFailure = none then readBytes parsers next rest else next

/-- The byte at which the frame turns out to be bad. -/
theorem step_of_failure {byte : UInt8} {scan : JsonScan} {failure : AcpFrameFailure}
    (hsound : reader.Sound) (hlive : reader.terminalFailure = none)
    (hopen : reader.innerEof = false)
    (hstop : ∀ stream, forwarded parsers (framesFrom reader.frame (byte :: stream)) = [] ∧
      failureOf parsers (framesFrom reader.frame (byte :: stream)) = some failure)
    (hreads : ∀ rest, readBytes parsers reader (byte :: rest) =
      recordFailure { reader with toJsonScan := scan } failure) :
    Step parsers reader byte (recordFailure { reader with toJsonScan := scan } failure) where
  sound := hsound.recordFailure hlive scan failure
  eof := by cases failure <;> rfl
  owed stream := by
    rw [owed_of_failed (recordFailure_terminalFailure failure), recordFailure_unsent,
      owed_of_reading hlive hopen, (hstop stream).1, (hstop stream).2, List.append_nil]
    rfl
  reads rest := by
    rw [hreads, recordFailure_terminalFailure, if_neg (Option.some_ne_none _)]

/-- A newline ends a frame. -/
theorem step_newline (hsound : reader.Sound) (hlive : reader.terminalFailure = none)
    (hopen : reader.innerEof = false) : ∃ next, Step parsers reader newlineByte next := by
  have hreading := hsound.reading hlive hopen
  have hreads (rest : List UInt8) : readBytes parsers reader (newlineByte :: rest) = _ :=
    if_pos rfl
  rw [finishFrame_eq hreading] at hreads
  rcases hframe : frameFailure? parsers reader.frame with _ | failure
  · simp only [hframe] at hreads
    refine ⟨reader.sendFrame true, hsound.sendFrame true, rfl, fun stream => ?_,
      fun rest => (hreads rest).trans (if_pos hlive).symm⟩
    obtain ⟨hforwarded, hfailure⟩ := forwarded_cons_of_none
      ⟨reader.frame, true⟩ hframe (framesFrom [] stream)
    rw [owed_of_reading hlive hopen, framesFrom, if_pos rfl, hforwarded, hfailure,
      ← List.append_assoc, ← sendFrame_unsent hsound]
    refine owed_of_reading ?_ ?_ stream
    · exact hlive
    · exact hopen
  · rw [hframe] at hreads
    refine ⟨_, step_of_failure hsound hlive hopen (fun stream => ?_) hreads⟩
    rw [framesFrom, if_pos rfl]
    exact forwarded_cons_of_failure ⟨reader.frame, true⟩ hframe (framesFrom [] stream)

/-- Any other byte goes to the frame. -/
theorem step_byte {byte : UInt8} (hsound : reader.Sound) (hlive : reader.terminalFailure = none)
    (hopen : reader.innerEof = false) (hbyte : byte ≠ newlineByte) :
    ∃ next, Step parsers reader byte next := by
  have hreading := hsound.reading hlive hopen
  have hframes : ∀ stream, framesFrom reader.frame (byte :: stream) =
      framesFrom (reader.frame ++ [byte]) stream := fun stream => by rw [framesFrom, if_neg hbyte]
  by_cases hfull : reader.frameBytes = acpFrameMaxBytes
  · have hspoiled : Spoiled (reader.frame ++ [byte]) := by
      left
      rw [List.length_append, ← hreading.counted, hfull]
      exact Nat.lt_succ_self _
    refine ⟨reader.recordFailure .resourceLimit, step_of_failure hsound hlive hopen
      (fun stream => ?_) fun rest => ?_⟩
    · rw [hframes]
      exact hspoiled.forwarded stream
    · rw [readBytes, if_neg hbyte, if_pos hfull]
  have hscan := scanFrame_concat reader.frame byte
  rw [hreading.scanned, Option.bind_some] at hscan
  rcases hstep : reader.toJsonScan.byteWithinLimit byte with ⟨_ | _, scan⟩
  · rw [hstep] at hscan
    have hspoiled : Spoiled (reader.frame ++ [byte]) := .inr hscan
    refine ⟨recordFailure { reader with toJsonScan := scan } .resourceLimit,
      step_of_failure hsound hlive hopen (fun stream => ?_) fun rest => ?_⟩
    · rw [hframes]
      exact hspoiled.forwarded stream
    · rw [readBytes, if_neg hbyte, if_neg hfull, hstep]
      rfl
  · rw [hstep] at hscan
    refine ⟨{ reader with
      toJsonScan := scan
      frameBytes := reader.frameBytes + 1
      frame := reader.frame ++ [byte] }, ?_, rfl, fun stream => ?_, fun rest => ?_⟩
    · refine ⟨hsound.offset_le, fun _ _ => ⟨hscan, ?_, ?_⟩, hsound.exceeded, hsound.violation⟩
      · simp [hreading.counted]
      · have hwithin := hreading.within
        rw [hreading.counted] at hfull
        simp only [List.length_append, List.length_singleton]
        omega
    · rw [owed_of_reading hlive hopen, hframes]
      refine owed_of_reading ?_ ?_ stream
      · exact hlive
      · exact hopen
    · rw [readBytes, if_neg hbyte, if_neg hfull, hstep]
      exact (if_pos hlive).symm

theorem exists_step (parsers : FrameParsers) (hsound : reader.Sound) (hlive : reader.terminalFailure = none)
    (hopen : reader.innerEof = false) (byte : UInt8) : ∃ next, Step parsers reader byte next := by
  by_cases hnewline : byte = newlineByte
  · rw [hnewline]
    exact step_newline hsound hlive hopen
  · exact step_byte hsound hlive hopen hnewline

/-- Reading bytes moves them into the account, whatever comes after them. -/
theorem readBytes_spec (parsers : FrameParsers) (hsound : reader.Sound) (hlive : reader.terminalFailure = none)
    (hopen : reader.innerEof = false) (bytes : List UInt8) :
    (readBytes parsers reader bytes).Sound ∧
      (readBytes parsers reader bytes).innerEof = false ∧
      ∀ stream, owed parsers (readBytes parsers reader bytes) stream =
        owed parsers reader (bytes ++ stream) := by
  induction bytes generalizing reader with
  | nil => exact ⟨hsound, hopen, fun stream => rfl⟩
  | cons byte rest ih =>
    obtain ⟨next, hstep⟩ := exists_step parsers hsound hlive hopen byte
    have heof := hstep.eof.trans hopen
    rw [hstep.reads]
    rcases hnext : next.terminalFailure with _ | failure
    · obtain ⟨hrest, hstill, howed⟩ := ih hstep.sound hnext heof
      rw [if_pos rfl]
      exact ⟨hrest, hstill, fun stream => (howed stream).trans (hstep.owed _)⟩
    · rw [if_neg (Option.some_ne_none _)]
      refine ⟨hstep.sound, heof, fun stream => ?_⟩
      rw [List.cons_append, ← hstep.owed, owed_of_failed hnext, owed_of_failed hnext]

/-- The end of the inner reader ends the last frame. -/
theorem readEnd_spec (parsers : FrameParsers) (hsound : reader.Sound) (hlive : reader.terminalFailure = none)
    (hopen : reader.innerEof = false) :
    (readEnd parsers reader).Sound ∧ (readEnd parsers reader).innerEof = true ∧
      ∀ stream, owed parsers (readEnd parsers reader) stream = owed parsers reader [] := by
  have hreading := hsound.reading hlive hopen
  have hended : Sound { reader with innerEof := true } :=
    ⟨hsound.offset_le, fun _ _ => hreading, hsound.exceeded, hsound.violation⟩
  rw [owed_of_reading hlive hopen]
  by_cases hempty : reader.frame = []
  · have hframes : framesFrom reader.frame [] = [] := by rw [framesFrom, if_pos hempty]
    rw [readEnd, if_pos hempty, hframes]
    refine ⟨hended, rfl, fun stream => ?_⟩
    rw [forwarded, List.takeWhile_nil, List.flatMap_nil, List.append_nil]
    refine owed_of_ended ?_ ?_ stream
    · exact hlive
    · rfl
  rw [readEnd, if_neg hempty, @finishFrame_eq parsers { reader with innerEof := true } hreading,
    framesFrom, if_neg hempty]
  rcases hframe : frameFailure? parsers reader.frame with _ | failure
  · obtain ⟨hforwarded, hfailure⟩ := forwarded_cons_of_none
      ⟨reader.frame, false⟩ hframe []
    refine ⟨hended.sendFrame false, rfl, fun stream => ?_⟩
    have hunsent := sendFrame_unsent hended false
    rw [hforwarded, hfailure, forwarded, List.takeWhile_nil, List.flatMap_nil, List.append_nil]
    refine (owed_of_ended ?_ ?_ stream).trans (congrArg (·, none) hunsent)
    · exact hlive
    · rfl
  · obtain ⟨hforwarded, hfailure⟩ := forwarded_cons_of_failure
      ⟨reader.frame, false⟩ hframe []
    refine ⟨hended.recordFailure hlive reader.toJsonScan failure, ?_, fun stream => ?_⟩
    · cases failure <;> rfl
    · rw [owed_of_failed (recordFailure_terminalFailure failure), recordFailure_unsent, hforwarded,
        hfailure, List.append_nil]
      rfl

theorem Sound.withPending (hsound : reader.Sound) {pending : List UInt8} {offset : Nat}
    (hoffset : offset ≤ pending.length) :
    Sound { reader with pending := pending, pendingOffset := offset } :=
  ⟨hoffset, hsound.reading, hsound.exceeded, hsound.violation⟩

/-- What `copy_pending` hands out is no longer unsent. -/
theorem copyPending_spec (hsound : reader.Sound) {bytes : List UInt8}
    (hcopy : reader.copyPending room = (bytes, next)) :
    next.Sound ∧ next.terminalFailure = reader.terminalFailure ∧ next.innerEof = reader.innerEof ∧
      next.frame = reader.frame ∧ bytes ++ next.unsent = reader.unsent ∧
      (0 < room → bytes = [] → reader.unsent = []) := by
  have hoffset := hsound.offset_le
  unfold copyPending at hcopy
  split at hcopy
  next hall =>
    obtain ⟨rfl, rfl⟩ := hcopy
    have hunsent : reader.unsent = [] := List.drop_eq_nil_of_le hall.ge
    exact ⟨hsound.withPending (Nat.le_refl 0), rfl, rfl, rfl, hunsent.symm, fun _ _ => hunsent⟩
  next hsome =>
    have hlength : reader.unsent.length = reader.pending.length - reader.pendingOffset :=
      List.length_drop
    have hcount := Nat.min_le_right room (reader.pending.length - reader.pendingOffset)
    have hbytes : 0 < room →
        reader.unsent.take (min room (reader.pending.length - reader.pendingOffset)) = [] →
        reader.unsent = [] := fun hroom hnone => by
      rw [← List.length_eq_zero_iff, List.length_take] at hnone
      rw [← List.length_eq_zero_iff]
      omega
    have hsplit := List.take_append_drop (min room (reader.pending.length - reader.pendingOffset))
      reader.unsent
    dsimp only at hcopy
    split at hcopy
    next hlast =>
      obtain ⟨rfl, rfl⟩ := hcopy
      refine ⟨hsound.withPending (Nat.le_refl 0), rfl, rfl, rfl, ?_, hbytes⟩
      refine (congrArg _ ?_).trans hsplit
      exact (List.drop_eq_nil_of_le (by omega)).symm
    next hmore =>
      obtain ⟨rfl, rfl⟩ := hcopy
      refine ⟨hsound.withPending (by omega), rfl, rfl, rfl, ?_, hbytes⟩
      refine (congrArg _ ?_).trans hsplit
      exact List.drop_drop.symm

/-- What `copy_pending` hands out is taken off the account. -/
theorem copyPending_owed (hsound : reader.Sound) {bytes : List UInt8}
    (hcopy : reader.copyPending room = (bytes, next))
    (stream : List UInt8) : owed parsers reader stream =
      (bytes ++ (owed parsers next stream).1, (owed parsers next stream).2) := by
  obtain ⟨_, hfailure, heof, hframe, hunsent, _⟩ := copyPending_spec hsound hcopy
  unfold owed
  rw [hfailure, heof, hframe, ← hunsent]
  rcases reader.terminalFailure with _ | failure
  · by_cases hend : reader.innerEof = true <;> simp [hend]
  · rfl

/-- The polls of the inner reader that bring no byte. -/
def interrupts (inner : List InnerPoll) : Nat := inner.countP (·.bytes = [])

/-- What a read answers is taken off the account, and it answers an end only when that is settled. -/
structure Answers (parsers : FrameParsers) (reader : AcpFrameLimitedReader)
    (inner : List InnerPoll) (room : Nat) (answer : ReadAnswer) (next : AcpFrameLimitedReader)
    (left : List InnerPoll) : Prop where
  sound : next.Sound
  account : owed parsers reader (inner.flatMap InnerPoll.bytes) =
    (answer.bytes ++ (owed parsers next (left.flatMap InnerPoll.bytes)).1,
      (owed parsers next (left.flatMap InnerPoll.bytes)).2)
  interrupts_le : interrupts left ≤ interrupts inner
  interrupted : answer = .pending ∨ answer = .innerError → interrupts left < interrupts inner
  failed : ∀ failure, answer = .error failure →
    next.terminalFailure = some failure ∧ next.unsent = []
  ended : 0 < room → answer = .ready [] →
    next.terminalFailure = none ∧ next.innerEof = true ∧ next.unsent = []

/-- A read that finds bytes to hand out. -/
theorem answers_of_bytes {byte : UInt8}
    {bytes : List UInt8} (hsound : next.Sound)
    (haccount : owed parsers reader (inner.flatMap InnerPoll.bytes) =
      (byte :: bytes ++ (owed parsers next (left.flatMap InnerPoll.bytes)).1,
        (owed parsers next (left.flatMap InnerPoll.bytes)).2))
    (hinterrupts : interrupts left ≤ interrupts inner) :
    Answers parsers reader inner room (.ready (byte :: bytes)) next left where
  sound := hsound
  account := haccount
  interrupts_le := hinterrupts
  interrupted := by rintro (h | h) <;> cases h
  failed _ h := by cases h
  ended _ h := by cases h

/-- A read that finds nothing to hand out and a failure. -/
theorem answers_of_failure {failure : AcpFrameFailure}
    (hsound : next.Sound)
    (haccount : owed parsers reader (inner.flatMap InnerPoll.bytes) =
      owed parsers next (left.flatMap InnerPoll.bytes))
    (hinterrupts : interrupts left ≤ interrupts inner)
    (hfailed : next.terminalFailure = some failure) (hunsent : next.unsent = []) :
    Answers parsers reader inner room (.error failure) next left where
  sound := hsound
  account := haccount
  interrupts_le := hinterrupts
  interrupted := by rintro (h | h) <;> cases h
  failed _ h := by
    cases h
    exact ⟨hfailed, hunsent⟩
  ended _ h := by cases h

/-- A read that finds nothing to hand out at the end. -/
theorem answers_of_end
    (hsound : next.Sound)
    (haccount : owed parsers reader (inner.flatMap InnerPoll.bytes) =
      owed parsers next (left.flatMap InnerPoll.bytes))
    (hinterrupts : interrupts left ≤ interrupts inner)
    (hended : 0 < room → next.terminalFailure = none ∧ next.innerEof = true ∧ next.unsent = []) :
    Answers parsers reader inner room (.ready []) next left where
  sound := hsound
  account := haccount
  interrupts_le := hinterrupts
  interrupted := by rintro (h | h) <;> cases h
  failed _ h := by cases h
  ended hroom _ := hended hroom

/-- A read that meets a poll without bytes. -/
theorem answers_of_interrupt {inner : List InnerPoll} {poll : InnerPoll}
    (hsound : reader.Sound) (hpoll : poll.bytes = [])
    (hanswer : answer = .pending ∨ answer = .innerError) :
    Answers parsers reader (poll :: inner) room answer reader inner := by
  have hfewer : interrupts inner < interrupts (poll :: inner) := by
    rw [interrupts, interrupts, List.countP_cons_of_pos (by simpa using hpoll)]
    exact Nat.lt_succ_self _
  refine ⟨hsound, ?_, hfewer.le, fun _ => hfewer, fun _ h => ?_, fun _ h => ?_⟩
  · rw [List.flatMap_cons, hpoll]
    rcases hanswer with rfl | rfl <;> rfl
  · rcases hanswer with rfl | rfl <;> cases h
  · rcases hanswer with rfl | rfl <;> cases h

/-- What `copy_pending` leaves when it finds nothing. -/
theorem copyPending_nothing (parsers : FrameParsers) (hsound : reader.Sound) (hroom : 0 < room)
    (hcopy : reader.copyPending room = ([], next)) :
    next.Sound ∧ next.terminalFailure = reader.terminalFailure ∧ next.innerEof = reader.innerEof ∧
      next.unsent = [] ∧ ∀ stream, owed parsers reader stream = owed parsers next stream := by
  obtain ⟨hnext, hfailure, heof, _, hunsent, hnothing⟩ := copyPending_spec hsound hcopy
  rw [List.nil_append, hnothing hroom rfl] at hunsent
  exact ⟨hnext, hfailure, heof, hunsent, fun stream => copyPending_owed hsound hcopy stream⟩

/-- The loop over the polls of the inner reader. -/
theorem pollInner_answers (hroom : 0 < room)
    (hsound : reader.Sound)
    (hlive : reader.terminalFailure = none) (hopen : reader.innerEof = false)
    (hpoll : pollInner parsers reader room inner = (answer, next, left)) :
    Answers parsers reader inner room answer next left := by
  induction inner generalizing reader with
  | nil =>
    obtain ⟨hendSound, hend, howed⟩ := readEnd_spec parsers hsound hlive hopen
    rw [pollInner] at hpoll
    rcases hcopy : (readEnd parsers reader).copyPending room with ⟨_ | ⟨byte, bytes⟩, copied⟩
    · obtain ⟨hcopied, _, heof, hunsent, haccount⟩ :=
        copyPending_nothing parsers hendSound hroom hcopy
      have hsame := (howed []).symm.trans (haccount [])
      simp only [hcopy] at hpoll
      rcases hfailure : copied.terminalFailure with _ | failure
      · simp only [hfailure, Prod.mk.injEq] at hpoll
        obtain ⟨rfl, rfl, rfl⟩ := hpoll
        exact answers_of_end hcopied hsame le_rfl fun _ => ⟨hfailure, heof.trans hend, hunsent⟩
      · simp only [hfailure, Prod.mk.injEq] at hpoll
        obtain ⟨rfl, rfl, rfl⟩ := hpoll
        exact answers_of_failure hcopied hsame le_rfl hfailure hunsent
    · simp only [hcopy, Prod.mk.injEq] at hpoll
      obtain ⟨rfl, rfl, rfl⟩ := hpoll
      exact answers_of_bytes (copyPending_spec hendSound hcopy).1
        ((howed []).symm.trans (copyPending_owed hendSound hcopy [])) le_rfl
  | cons poll inner ih =>
    cases poll with
    | pending =>
      rw [pollInner, Prod.mk.injEq, Prod.mk.injEq] at hpoll
      obtain ⟨rfl, rfl, rfl⟩ := hpoll
      exact answers_of_interrupt hsound rfl (by simp)
    | failed =>
      rw [pollInner, Prod.mk.injEq, Prod.mk.injEq] at hpoll
      obtain ⟨rfl, rfl, rfl⟩ := hpoll
      exact answers_of_interrupt hsound rfl (by simp)
    | data first rest =>
      obtain ⟨hreadSound, hstill, howed⟩ :=
        readBytes_spec parsers hsound hlive hopen (first :: rest)
      have hsame := (howed (inner.flatMap InnerPoll.bytes)).symm
      have hinterrupts : interrupts inner ≤ interrupts (.data first rest :: inner) :=
        (List.sublist_cons_self _ _).countP_le
      rw [pollInner] at hpoll
      rcases hcopy : (readBytes parsers reader (first :: rest)).copyPending room with
        ⟨_ | ⟨byte, bytes⟩, copied⟩
      · obtain ⟨hcopied, hfailed, heof, hunsent, haccount⟩ :=
          copyPending_nothing parsers hreadSound hroom hcopy
        replace hsame := hsame.trans (haccount _)
        simp only [hcopy] at hpoll
        rcases hfailure : copied.terminalFailure with _ | failure
        · simp only [hfailure] at hpoll
          have hrest := ih hcopied hfailure (heof.trans hstill) hpoll
          exact ⟨hrest.sound, hsame.trans hrest.account, hrest.interrupts_le.trans hinterrupts,
            fun h => (hrest.interrupted h).trans_le hinterrupts, hrest.failed, hrest.ended⟩
        · simp only [hfailure, Prod.mk.injEq] at hpoll
          obtain ⟨rfl, rfl, rfl⟩ := hpoll
          exact answers_of_failure hcopied hsame hinterrupts hfailure hunsent
      · simp only [hcopy, Prod.mk.injEq] at hpoll
        obtain ⟨rfl, rfl, rfl⟩ := hpoll
        exact answers_of_bytes (copyPending_spec hreadSound hcopy).1
          (hsame.trans (copyPending_owed hreadSound hcopy _)) hinterrupts

theorem pollRead_answers (hsound : reader.Sound)
    (hpoll : pollRead parsers reader inner room = (answer, next, left)) :
    Answers parsers reader inner room answer next left := by
  unfold pollRead at hpoll
  by_cases hempty : room = 0
  · rw [if_pos hempty, Prod.mk.injEq, Prod.mk.injEq] at hpoll
    obtain ⟨rfl, rfl, rfl⟩ := hpoll
    exact answers_of_end hsound rfl le_rfl fun hroom => absurd hempty hroom.ne'
  have hroom := Nat.pos_of_ne_zero hempty
  rw [if_neg hempty] at hpoll
  rcases hcopy : reader.copyPending room with ⟨_ | ⟨byte, bytes⟩, copied⟩
  · obtain ⟨hcopied, _, heof, hunsent, haccount⟩ :=
      copyPending_nothing parsers hsound hroom hcopy
    have hsame := haccount (inner.flatMap InnerPoll.bytes)
    simp only [hcopy] at hpoll
    rcases hfailure : copied.terminalFailure with _ | failure
    · simp only [hfailure] at hpoll
      by_cases hend : copied.innerEof = true
      · rw [if_pos hend, Prod.mk.injEq, Prod.mk.injEq] at hpoll
        obtain ⟨rfl, rfl, rfl⟩ := hpoll
        exact answers_of_end hcopied hsame le_rfl fun _ => ⟨hfailure, hend, hunsent⟩
      · rw [if_neg hend] at hpoll
        have hrest := pollInner_answers hroom hcopied hfailure (Bool.eq_false_iff.2 hend) hpoll
        exact ⟨hrest.sound, hsame.trans hrest.account, hrest.interrupts_le, hrest.interrupted,
          hrest.failed, hrest.ended⟩
    · simp only [hfailure, Prod.mk.injEq] at hpoll
      obtain ⟨rfl, rfl, rfl⟩ := hpoll
      exact answers_of_failure hcopied hsame le_rfl hfailure hunsent
  · simp only [hcopy, Prod.mk.injEq] at hpoll
    obtain ⟨rfl, rfl, rfl⟩ := hpoll
    exact answers_of_bytes (copyPending_spec hsound hcopy).1 (copyPending_owed hsound hcopy _)
      le_rfl

/-! ### Runs of reads -/

/-- The reader when everything is delivered. -/
structure Settled (reader : AcpFrameLimitedReader) (failure? : Option AcpFrameFailure) : Prop where
  sound : reader.Sound
  failure : reader.terminalFailure = failure?
  ended : failure? = none → reader.innerEof = true
  unsent : reader.unsent = []

theorem Settled.owed (hsettled : reader.Settled failure?)
    (stream : List UInt8) : owed parsers reader stream = ([], failure?) := by
  cases failure? with
  | some failure => rw [owed_of_failed hsettled.failure, hsettled.unsent]
  | none => rw [owed_of_ended hsettled.failure (hsettled.ended rfl), hsettled.unsent]

/-- A settled reader repeats its last answer. -/
theorem Settled.pollRead (parsers : FrameParsers) (hsettled : reader.Settled failure?)
    (inner : List InnerPoll) (room : Nat) : ∃ next : AcpFrameLimitedReader,
      pollRead parsers reader inner room = (lastAnswer failure? room, next, inner) ∧
        next.Settled failure? := by
  by_cases hempty : room = 0
  · refine ⟨reader, ?_, hsettled⟩
    rw [AcpFrameLimitedReader.pollRead, if_pos hempty, hempty, lastAnswer_zero]
  have hroom := Nat.pos_of_ne_zero hempty
  rcases hcopy : reader.copyPending room with ⟨_ | ⟨byte, bytes⟩, copied⟩
  · obtain ⟨hsound, hfailure, heof, hunsent, _⟩ :=
      copyPending_nothing parsers hsettled.sound hroom hcopy
    rw [hsettled.failure] at hfailure
    refine ⟨copied, ?_, hsound, hfailure, fun hnone => heof.trans (hsettled.ended hnone), hunsent⟩
    rw [AcpFrameLimitedReader.pollRead, if_neg hempty]
    simp only [hcopy, hfailure]
    cases failure? with
    | some failure => rw [lastAnswer_some hroom]
    | none =>
      rw [lastAnswer_none]
      exact if_pos (heof.trans (hsettled.ended rfl))
  · have hunsent := (copyPending_spec hsettled.sound hcopy).2.2.2.2.1
    rw [hsettled.unsent] at hunsent
    cases hunsent

theorem Settled.readAll (hsettled : reader.Settled failure?)
    (inner : List InnerPoll) (rooms : List Nat) :
    (∀ later ∈ (readAll parsers reader inner rooms).1, later.2 = lastAnswer failure? later.1) ∧
      (readAll parsers reader inner rooms).2.terminalFailure = failure? := by
  induction rooms generalizing reader with
  | nil => exact ⟨fun _ h => (nomatch h), hsettled.failure⟩
  | cons room rooms ih =>
    obtain ⟨next, hpoll, hnext⟩ := hsettled.pollRead parsers inner room
    obtain ⟨hanswers, hfailure⟩ := ih hnext
    rw [AcpFrameLimitedReader.readAll, hpoll]
    exact ⟨List.forall_mem_cons.2 ⟨rfl, hanswers⟩, hfailure⟩

theorem readAll_empty_room (inner : List InnerPoll) (rooms : List Nat) :
    ∀ entry ∈ (readAll parsers reader inner rooms).1, entry.1 = 0 → entry.2 = .ready [] := by
  induction rooms generalizing reader inner with
  | nil => exact fun _ h => (nomatch h)
  | cons room rooms ih =>
    refine List.forall_mem_cons.2 ⟨fun hempty => ?_, ih _⟩
    change room = 0 at hempty
    subst hempty
    rfl

/-- What a run delivers and records is what was owed. -/
theorem readAll_account (parsers : FrameParsers) (hsound : reader.Sound) (inner : List InnerPoll) (rooms : List Nat) :
    (readAll parsers reader inner rooms).2.Sound ∧
      ∃ left : List UInt8, owed parsers reader (inner.flatMap InnerPoll.bytes) =
        (delivered (readAll parsers reader inner rooms).1 ++
            (owed parsers (readAll parsers reader inner rooms).2 left).1,
          (owed parsers (readAll parsers reader inner rooms).2 left).2) := by
  induction rooms generalizing reader inner with
  | nil => exact ⟨hsound, _, rfl⟩
  | cons room rooms ih =>
    rcases hpoll : pollRead parsers reader inner room with ⟨answer, next, rest⟩
    have hanswers := pollRead_answers hsound hpoll
    obtain ⟨hfinal, left, haccount⟩ := ih hanswers.sound rest
    rw [readAll, hpoll]
    refine ⟨hfinal, left, hanswers.account.trans ?_⟩
    rw [haccount, ← List.append_assoc]
    rfl

/-- An answer that is an end: everything owed is delivered before it, and it is repeated. -/
theorem readAll_end (hsound : reader.Sound) {inner : List InnerPoll} {rooms : List Nat}
    {before after : List (Nat × ReadAnswer)}
    (hroom : 0 < room)
    (hanswer : answer = lastAnswer failure? room)
    (hrun : (readAll parsers reader inner rooms).1 = before ++ (room, answer) :: after) :
    owed parsers reader (inner.flatMap InnerPoll.bytes) = (delivered before, failure?) ∧
      (∀ later ∈ after, later.2 = lastAnswer failure? later.1) ∧
      (readAll parsers reader inner rooms).2.terminalFailure = failure? := by
  induction rooms generalizing reader inner before with
  | nil => cases before <;> cases hrun
  | cons first rooms ih =>
    rcases hpoll : pollRead parsers reader inner first with ⟨reply, next, rest⟩
    have hanswers := pollRead_answers hsound hpoll
    rw [readAll, hpoll] at hrun ⊢
    cases before with
    | nil =>
      obtain ⟨⟨rfl, rfl⟩, rfl⟩ := hrun
      have hsettled : next.Settled failure? := by
        cases failure? with
        | some failure =>
          rw [lastAnswer_some hroom] at hanswer
          obtain ⟨hfailed, hunsent⟩ := hanswers.failed failure hanswer
          exact ⟨hanswers.sound, hfailed, (nomatch ·), hunsent⟩
        | none =>
          rw [lastAnswer_none] at hanswer
          obtain ⟨hlive, hend, hunsent⟩ := hanswers.ended hroom hanswer
          exact ⟨hanswers.sound, hlive, fun _ => hend, hunsent⟩
      refine ⟨?_, hsettled.readAll rest rooms⟩
      rw [hanswers.account, hsettled.owed, hanswer]
      cases failure? with
      | some failure =>
        rw [lastAnswer_some hroom]
        rfl
      | none =>
        rw [lastAnswer_none]
        rfl
    | cons entry before =>
      obtain ⟨rfl, htail⟩ := List.cons.inj hrun
      obtain ⟨howed, hlater, hfinal⟩ := ih hanswers.sound htail
      refine ⟨?_, hlater, hfinal⟩
      rw [hanswers.account, howed]
      rfl

/-- Reads that meet no end are no more than the bytes owed and the polls without bytes. -/
theorem readAll_progress (hsound : reader.Sound) {inner : List InnerPoll} {rooms : List Nat}
    (hopen : ∀ entry ∈ (readAll parsers reader inner rooms).1, 0 < entry.1 →
      ∀ failure?, entry.2 ≠ lastAnswer failure? entry.1) :
    rooms.countP (0 < ·) ≤
      (owed parsers reader (inner.flatMap InnerPoll.bytes)).1.length + interrupts inner := by
  induction rooms generalizing reader inner with
  | nil => exact Nat.zero_le _
  | cons room rooms ih =>
    rcases hpoll : pollRead parsers reader inner room with ⟨answer, next, rest⟩
    have hanswers := pollRead_answers hsound hpoll
    rw [readAll, hpoll] at hopen
    obtain ⟨hfirst, hothers⟩ := List.forall_mem_cons.1 hopen
    have hrest := ih hanswers.sound hothers
    have hfewer := hanswers.interrupts_le
    rw [hanswers.account, List.length_append]
    by_cases hroom : 0 < room
    · rw [List.countP_cons_of_pos (by simpa using hroom)]
      have hnone := hfirst hroom none
      rw [lastAnswer_none] at hnone
      rcases answer with (_ | ⟨byte, bytes⟩) | failure | _ | _
      · exact absurd rfl hnone
      · simp only [ReadAnswer.bytes, List.length_cons]
        omega
      · exact absurd (lastAnswer_some hroom).symm (hfirst hroom (some failure))
      · have hless := hanswers.interrupted (.inr rfl)
        omega
      · have hless := hanswers.interrupted (.inl rfl)
        omega
    · rw [List.countP_cons_of_neg (by simpa using hroom)]
      omega

end AcpFrameLimitedReader

open AcpFrameLimitedReader in
/-- The reads give the leading acceptable frames of the stream, then either the end or what is wrong
with the next frame; neither depends on how the bytes come in or on the buffers they go to. -/
theorem acp_frame_reader (parsers : FrameParsers) (inner : List InnerPoll) (rooms : List Nat) :
    let stream := inner.flatMap InnerPoll.bytes
    let answers := (readAll parsers .new inner rooms).1
    let reader := (readAll parsers .new inner rooms).2
    delivered answers <+: forwarded parsers (frames stream) ∧
    (∀ before room failure after, answers = before ++ (room, .error failure) :: after →
      delivered before = forwarded parsers (frames stream) ∧
        failureOf parsers (frames stream) = some failure ∧
        ∀ later ∈ after, later.2 = if later.1 = 0 then .ready [] else .error failure) ∧
    (∀ before room after, 0 < room → answers = before ++ (room, .ready []) :: after →
      delivered before = forwarded parsers (frames stream) ∧
        failureOf parsers (frames stream) = none ∧ ∀ later ∈ after, later.2 = .ready []) ∧
    ((forwarded parsers (frames stream)).length + interrupts inner < rooms.countP (0 < ·) →
      ∃ entry ∈ answers, 0 < entry.1 ∧
        (entry.2 = .ready [] ∨ ∃ failure, entry.2 = .error failure)) ∧
    (∀ failure, reader.terminalFailure = some failure →
      failureOf parsers (frames stream) = some failure) ∧
    reader.exceeded = decide (reader.terminalFailure = some .resourceLimit) ∧
    reader.protocolViolation = decide (reader.terminalFailure = some .protocolViolation) ∧
    (failureOf parsers (frames stream) = none →
      forwarded parsers (frames stream) = stream) ∧
    (frames stream).flatMap AcpFrame.wire = stream ∧
    ∀ content, frameFailure? parsers content = none ↔ AcpFrame.Acceptable parsers content := by
  intro stream answers reader
  obtain ⟨hsound, left, haccount⟩ := readAll_account parsers new_sound inner rooms
  rw [owed_new] at haccount
  obtain ⟨hforwarded, hfailure⟩ := Prod.mk.inj haccount
  refine ⟨⟨_, hforwarded.symm⟩, ?_, ?_, ?_, ?_, hsound.exceeded, hsound.violation,
    forwarded_eq_of_failureOf, framesFrom_wire stream, fun _ => frameFailure?_eq_none⟩
  · intro before room failure after hrun
    have hroom : 0 < room := Nat.pos_of_ne_zero fun hempty => by
      have hready := readAll_empty_room inner rooms _
        (hrun ▸ List.mem_append_right before List.mem_cons_self) hempty
      cases hready
    obtain ⟨howed, hlater, _⟩ := readAll_end new_sound hroom (lastAnswer_some hroom).symm hrun
    obtain ⟨hall, hstop⟩ := Prod.mk.inj howed
    exact ⟨hall.symm, hstop, hlater⟩
  · intro before room after hroom hrun
    obtain ⟨howed, hlater, _⟩ := readAll_end new_sound hroom (lastAnswer_none room).symm hrun
    obtain ⟨hall, hstop⟩ := Prod.mk.inj howed
    exact ⟨hall.symm, hstop, fun later hmem => (hlater later hmem).trans (lastAnswer_none _)⟩
  · intro hmany
    by_contra hnone
    refine hmany.not_ge (readAll_progress new_sound fun entry hmem hroom failure? hlast => ?_)
    refine hnone ⟨entry, hmem, hroom, ?_⟩
    cases failure? with
    | some failure => exact .inr ⟨failure, hlast.trans (lastAnswer_some hroom)⟩
    | none => exact .inl (hlast.trans (lastAnswer_none _))
  · intro failure hrecorded
    rw [hfailure, owed_of_failed hrecorded]

/-- Parsers that take nothing. -/
def noJson : FrameParsers := ⟨fun _ => none, fun _ => .malformed⟩

open AcpFrameLimitedReader in
/-- After the error, a read into a full buffer still answers `Ok`. -/
theorem acp_frame_reader_empty_read :
    ¬∀ (parsers : FrameParsers) (inner : List InnerPoll) (rooms : List Nat)
      (before after : List (Nat × ReadAnswer)) (room : Nat) (failure : AcpFrameFailure),
      (readAll parsers .new inner rooms).1 = before ++ (room, .error failure) :: after →
        ∀ later ∈ after, later.2 = .error failure := by
  intro hall
  have hlater := hall noJson [.data '\x7b'.toUInt8 [newlineByte]] [1, 0] [] [(0, .ready [])] 1
    .protocolViolation rfl _ List.mem_cons_self
  cases hlater

end Troupe.Agent
