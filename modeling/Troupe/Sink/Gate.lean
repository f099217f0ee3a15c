import Troupe.Lib.Calls
import Troupe.Sink.Lifecycle

/-! # The gate of a sink

The handshake of `begin_enqueue` and `seal` over `active_enqueues` and the phase, and the latching of
the summary, for any number of calls in any interleaving.

Results: **`gate_step`**, every step keeps the gate; **`accepted_step`**, past the seal no enqueue
succeeds; `summary_step`, a summary that is set stays. -/

namespace Troupe.Sink

open Troupe.Lib

variable {V : Type}

/-! ## Stages -/

/-- The phase is `SEALED` or later. -/
def SinkPhase.past : SinkPhase → Bool
  | .opened | .sealing => false
  | .sealed | .closing | .closed => true

/-- The call is counted in `active_enqueues`. -/
def EnqueueStage.holds : EnqueueStage → Bool
  | .entering | .phaseOpen | .unaccounted | .returned _ => false
  | _ => true

/-- The call saw the phase `OPEN` while it was counted. -/
def EnqueueStage.inside : EnqueueStage → Bool
  | .entering | .phaseOpen | .unaccounted | .counted | .rejecting _ | .returned _ => false
  | _ => true

/-- The call did what it was called for. -/
def EnqueueStage.performed : EnqueueStage → Bool
  | .offered _ | .leaving _ | .returned (.ok _) | .panicked => true
  | _ => false

/-- The call is past the exchange of `terminal_accounted`. -/
def EnqueueStage.claims : EnqueueStage → Bool
  | .claimed | .sequenced | .admitting => true
  | stage => stage.performed

/-- The call returned `Ok`. -/
def EnqueueStage.accepted : EnqueueStage → Bool
  | .returned (.ok _) => true
  | _ => false

/-- The call exchanged the phase to `SEALING` and did not yet leave it. -/
def SealStage.owns : SealStage → Bool
  | .spinning | .drained | .latched | .panicked => true
  | _ => false

/-- The call saw no active enqueue. -/
def SealStage.quiet : SealStage → Bool
  | .drained | .latched | .panicked => true
  | _ => false

/-- The call exchanged the phase to `CLOSING` and did not yet leave it. -/
def CloseStage.owns : CloseStage → Bool
  | .reading .. | .latched _ => true
  | _ => false

/-- The call reads for the summary. -/
def CloseStage.reads : CloseStage → Bool
  | .reading .. => true
  | _ => false

/-- The summary that the call latched or returned. -/
def CloseStage.summary? : CloseStage → Option SinkDeliverySummary
  | .latched summary | .returned (.ok (.closed summary)) => some summary
  | _ => none

/-- The event that the call offered to the queue. -/
def EnqueueCall.offeredEvent (call : EnqueueCall V) : Option (QueueEvent (DispatchEvent V)) :=
  if call.stage.performed then call.request.event? else none

/-- The gaps of the request. -/
def EnqueueRequest.gaps : EnqueueRequest V → Nat
  | .sourceGaps count => count
  | _ => 0

/-- The truncated payloads of the request. -/
def EnqueueRequest.truncated : EnqueueRequest V → Nat
  | .truncatedPayloads count => count
  | _ => 0

/-- What a call that did its work recorded of a count of its request. -/
def EnqueueCall.recorded (count : EnqueueRequest V → Nat) (call : EnqueueCall V) : Nat :=
  if call.stage.performed then count call.request else 0

/-- The calls that returned `Ok`. -/
def SinkWorld.accepted (w : SinkWorld V) : List (EnqueueCall V) :=
  w.enqueues.filter (·.stage.accepted)

/-- The events of the calls that returned `Ok`. -/
def SinkWorld.acceptedEvents (w : SinkWorld V) : List (QueueEvent (DispatchEvent V)) :=
  w.accepted.filterMap (·.request.event?)

/-! ## What a step leaves alone -/

section Frames

variable {s s' : SinkState V}

/-- `record_enqueue_sequence` touches its own counter and the failure. -/
theorem recordEnqueueSequence_spec (s : SinkState V) (sequence : Nat) : ∃ last failure,
    s.recordEnqueueSequence sequence =
      { s with producers.lastEnqueuedSequence := last, unexpectedFailure := failure } := by
  unfold SinkState.recordEnqueueSequence
  by_cases hlast : s.producers.lastEnqueuedSequence < sequence
  · rw [if_pos hlast]
    exact ⟨_, _, rfl⟩
  · rw [if_neg hlast]
    exact ⟨_, _, rfl⟩

/-- Producers leave the gate and the delivery alone. -/
theorem enqueue_frame {call call' : EnqueueCall V} (h : EnqueueStep s call s' call') :
    s'.gate = s.gate ∧ s'.delivery = s.delivery ∧ call'.request = call.request := by
  cases h
  case sequence event _ _ =>
    obtain ⟨last, failure, hrecord⟩ := recordEnqueueSequence_spec s event.item.sequence
    rw [hrecord]
    exact ⟨rfl, rfl, rfl⟩
  all_goals exact ⟨rfl, rfl, rfl⟩

/-- A seal writes to the gate only. -/
theorem seal_frame {call call' : SealCall} (h : SealStep s call s' call') :
    s' = { s with gate := s'.gate } ∧ call'.facts = call.facts := by
  cases h <;> exact ⟨rfl, rfl⟩

/-- A close writes to the gate only, and leaves the facts of the seal alone. -/
theorem close_frame {call call' : CloseCall} (h : CloseStep s call s' call') :
    s' = { s with gate := s'.gate } ∧ call'.request = call.request ∧
      s'.gate.sealFacts = s.gate.sealFacts := by
  cases h <;> exact ⟨rfl, rfl, rfl⟩

/-- The driver leaves the gate and the producers' fields alone. -/
theorem driver_frame {d d' : Driver} (h : DriverStep s d s' d') :
    s'.gate = s.gate ∧ s'.producers = s.producers := by
  cases h <;> exact ⟨rfl, rfl⟩

end Frames

/-! ## The gate -/

/-- The handshake of producers, seals and closes. -/
structure Gate (w : SinkWorld V) : Prop where
  active : w.state.producers.activeEnqueues = w.enqueues.countP (·.stage.holds)
  /-- Past the spinning of a seal no producer is inside. -/
  shut : (w.state.gate.phase.past = true ∨ ∃ call ∈ w.seals, call.stage.quiet = true) →
    ∀ call ∈ w.enqueues, call.stage.inside = false
  sealing : w.seals.countP (·.stage.owns) = if w.state.gate.phase = .sealing then 1 else 0
  sealed : ∀ call ∈ w.seals, call.stage = .returned (.ok ()) → w.state.gate.phase.past = true
  closing : w.closes.countP (·.stage.owns) = if w.state.gate.phase = .closing then 1 else 0
  /-- No summary is set before the one call that reads for it has read. -/
  unset : w.state.gate.summary.isSome → (w.state.gate.phase = .closing ∨
    w.state.gate.phase = .closed) ∧ ∀ call ∈ w.closes, call.stage.reads = false
  latched : ∀ call ∈ w.closes, ∀ summary, call.stage.summary? = some summary →
    w.state.gate.summary = some summary

section Gate

variable {w w' : SinkWorld V} {s s' : SinkState V} {call call' : EnqueueCall V}

/-- A producer's step counts the call where it holds a guard. -/
theorem enqueue_active (h : EnqueueStep s call s' call')
    (hle : call.stage.holds.toNat ≤ s.producers.activeEnqueues) :
    s'.producers.activeEnqueues + call.stage.holds.toNat =
      s.producers.activeEnqueues + call'.stage.holds.toNat := by
  cases h
  case sequence request stage event _ ready =>
    obtain ⟨last, failure, hrecord⟩ := recordEnqueueSequence_spec s event.item.sequence
    rw [hrecord, ready]
    cases request.isTerminal <;> rfl
  case beginAdmit event _ _ _ _ _ =>
    cases s.queue.queue.beginAdmit s.budget event <;> rfl
  case admitPass event plan _ _ _ _ _ =>
    cases s.queue.queue.admitPass s.budget event plan <;> rfl
  case leave => simp only [EnqueueStage.holds, Bool.toNat_true, Bool.toNat_false] at hle ⊢; omega
  case reject => simp only [EnqueueStage.holds, Bool.toNat_true, Bool.toNat_false] at hle ⊢; omega
  all_goals rfl

/-- A producer gets inside only while the phase is `OPEN`. -/
theorem enqueue_inside (h : EnqueueStep s call s' call')
    (hinside : call'.stage.inside = true) :
    call.stage.inside = true ∨ s.gate.phase = .opened := by
  cases h
  case reloadPhase opened => exact .inr opened
  case sequence request stage event _ ready =>
    left
    rw [ready]
    cases request.isTerminal <;> rfl
  all_goals first | (left; rfl) | simp [EnqueueStage.inside] at hinside

theorem EnqueueStage.holds_of_inside {stage : EnqueueStage} (h : stage.inside = true) :
    stage.holds = true := by
  cases stage <;> first | rfl | simp [EnqueueStage.inside] at h

theorem Gate.sealing_of_owns (h : Gate w) {call : SealCall} (hcall : call ∈ w.seals)
    (howns : call.stage.owns = true) : w.state.gate.phase = .sealing := by
  by_contra hphase
  have hcount := h.sealing
  rw [if_neg hphase] at hcount
  exact List.countP_eq_zero.mp hcount call hcall howns

theorem Gate.closing_of_owns (h : Gate w) {call : CloseCall} (hcall : call ∈ w.closes)
    (howns : call.stage.owns = true) : w.state.gate.phase = .closing := by
  by_contra hphase
  have hcount := h.closing
  rw [if_neg hphase] at hcount
  exact List.countP_eq_zero.mp hcount call hcall howns

theorem SealStage.owns_of_quiet {stage : SealStage} (h : stage.quiet = true) :
    stage.owns = true := by
  cases stage <;> first | rfl | simp [SealStage.quiet] at h

/-- A producer's step keeps the gate. -/
theorem gate_enqueue {before after : List (EnqueueCall V)}
    (h : Gate w) (hcalls : w.enqueues = before ++ call :: after)
    (hstep : EnqueueStep w.state call s' call') :
    Gate { w with state := s', enqueues := before ++ call' :: after } := by
  obtain ⟨hgate, -, -⟩ := enqueue_frame hstep
  have hcount := h.active
  rw [hcalls] at hcount
  have hreplace := countP_replace before after call call' (·.stage.holds)
  constructor
  case active =>
    have hle : call.stage.holds.toNat ≤ w.state.producers.activeEnqueues := by
      rw [hcount, List.countP_append, List.countP_cons]
      cases call.stage.holds <;> simp
      omega
    have hactive := enqueue_active hstep hle
    simp only at hreplace ⊢
    omega
  case shut =>
    intro hshut
    simp only [hgate] at hshut
    have hold := h.shut hshut
    rw [hcalls] at hold
    refine forall_replace hold ?_
    by_contra hinside
    rw [Bool.not_eq_false] at hinside
    rcases enqueue_inside hstep hinside with hinside | hopened
    · rw [hold call (by simp)] at hinside
      cases hinside
    · rcases hshut with hpast | ⟨other, hother, hquiet⟩
      · rw [hopened] at hpast
        cases hpast
      · rw [h.sealing_of_owns hother (SealStage.owns_of_quiet hquiet)] at hopened
        cases hopened
  all_goals simp only [hgate]
  · exact h.sealing
  · exact h.sealed
  · exact h.closing
  · exact h.unset
  · exact h.latched

/-- A step of a seal keeps the gate. -/
theorem gate_seal {before after : List SealCall} {call call' : SealCall}
    (h : Gate w) (hcalls : w.seals = before ++ call :: after)
    (hstep : SealStep w.state call s' call') :
    Gate { w with state := s', seals := before ++ call' :: after } := by
  have hcall : call ∈ w.seals := by simp [hcalls]
  have hreplace := countP_replace before after call call' (·.stage.owns)
  have hcount := h.sealing
  have hsealed := h.sealed
  have hshut := h.shut
  rw [hcalls] at hcount hsealed hshut
  have hshut' (hquiet : call.stage.quiet = true) :
      ∀ call ∈ w.enqueues, call.stage.inside = false := hshut (.inr ⟨call, by simp, hquiet⟩)
  rw [hcount] at hreplace
  -- Where neither the phase nor the calls inside change, only the seal's own stage is new.
  have hsame (hgate : s' = w.state) (howns : call'.stage.owns = call.stage.owns)
      (hquiet : call'.stage.quiet = true → ∀ call ∈ w.enqueues, call.stage.inside = false)
      (hok : call'.stage ≠ .returned (.ok ())) :
      Gate { w with state := s', seals := before ++ call' :: after } := by
    subst hgate
    refine ⟨h.active, ?_, ?_, ?_, h.closing, h.unset, h.latched⟩
    · rintro (hpast | ⟨other, hother, hother'⟩)
      · exact hshut (.inl hpast)
      · rcases mem_replace (a := call) hother with rfl | hother
        · exact hquiet hother'
        · exact hshut (.inr ⟨other, hother, hother'⟩)
    · rw [howns] at hreplace
      exact Nat.add_right_cancel hreplace
    · exact forall_replace hsealed (fun hstage => absurd hstage hok)
  cases hstep with
  | check accounted => exact hsame rfl rfl nofun nofun
  | refuse finished unaccounted => exact hsame rfl rfl nofun nofun
  | late other => exact hsame rfl rfl nofun nofun
  | relatch set => exact hsame rfl rfl (fun _ => hshut' rfl) nofun
  | drain idle =>
    refine hsame rfl rfl (fun _ => ?_) nofun
    intro call hcall
    by_contra hinside
    rw [Bool.not_eq_false] at hinside
    have hnone := h.active
    rw [idle] at hnone
    exact List.countP_eq_zero.mp hnone.symm call hcall (EnqueueStage.holds_of_inside hinside)
  | exchange opened =>
    rw [opened] at hcount hreplace
    have hunset : w.state.gate.summary.isSome = false := by
      rw [Bool.eq_false_iff]
      intro hsome
      rcases (h.unset hsome).1 with hphase | hphase <;> rw [opened] at hphase <;> cases hphase
    have hnone := List.countP_eq_zero.mp hcount
    refine ⟨h.active, ?_, ?_, ?_, ?_, ?_, h.latched⟩
    · rintro (hpast | ⟨other, hother, hquiet⟩)
      · cases hpast
      · rcases mem_replace (a := (⟨_, .checked⟩ : SealCall)) hother with rfl | hother
        · cases hquiet
        · exact absurd (SealStage.owns_of_quiet hquiet) (hnone other hother)
    · exact hreplace
    · simp only [opened] at hsealed
      exact forall_replace (fun other hother hok => absurd (hsealed other hother hok) nofun) nofun
    · have hclosing := h.closing
      rw [opened] at hclosing
      exact hclosing
    · intro hsome
      rw [hunset] at hsome
      cases hsome
  | latch unset =>
    exact ⟨h.active, fun _ => hshut' rfl, Nat.add_right_cancel hreplace,
      forall_replace hsealed nofun, h.closing, h.unset, h.latched⟩
  | finish =>
    have hphase := h.sealing_of_owns hcall rfl
    rw [hphase] at hreplace
    refine ⟨h.active, fun _ => hshut' rfl, ?_, fun _ _ _ => rfl, ?_, ?_, h.latched⟩
    · exact Nat.add_right_cancel hreplace
    · have hclosing := h.closing
      rw [hphase] at hclosing
      exact hclosing
    · intro hsome
      rcases (h.unset hsome).1 with hphase' | hphase' <;> rw [hphase] at hphase' <;> cases hphase'

/-- A closed sink answers with its summary. -/
theorem closedAnswer_spec (s : SinkState V) : s.closedAnswer.owns = false ∧
    s.closedAnswer.reads = false ∧ s.closedAnswer.summary? = s.gate.summary := by
  unfold SinkState.closedAnswer
  cases s.gate.summary <;> exact ⟨rfl, rfl, rfl⟩

/-- What a step of a close can do to the gate. -/
inductive CloseMove (s : SinkState V) (call : CloseCall) : SinkState V → CloseCall → Prop
  | quiet {call' : CloseCall} (owns : call'.stage.owns = call.stage.owns)
      (reads : call'.stage.reads = true → call.stage.reads = true)
      (answers : call'.stage.summary? = none ∨ call'.stage.summary? = s.gate.summary) :
      CloseMove s call s call'
  | exchange {call' : CloseCall} (sealed : s.gate.phase = .sealed)
      (before : call.stage.owns = false) (after : call'.stage.owns = true)
      (silent : call'.stage.summary? = none) :
      CloseMove s call { s with gate.phase := .closing } call'
  | set {call' : CloseCall} {summary : SinkDeliverySummary} (unset : s.gate.summary = none)
      (before : call.stage.owns = true) (after : call'.stage = .latched summary) :
      CloseMove s call
        { s with gate.summary := some summary, gate.latchedBy := some call.request } call'
  | finish {call' : CloseCall} (before : call.stage.owns = true) (after : call'.stage.owns = false)
      (reads : call'.stage.reads = false)
      (same : call'.stage.summary? = call.stage.summary?) :
      CloseMove s call { s with gate.phase := .closed } call'

theorem close_move {call call' : CloseCall} (h : CloseStep s call s' call')
    (hreads : call.stage.reads = true → s.gate.summary = none) : CloseMove s call s' call' := by
  obtain ⟨hclosedOwns, hclosedReads, hclosed⟩ := closedAnswer_spec s
  cases h with
  | drainClosed closed =>
    exact .quiet hclosedOwns (fun hstage => absurd hstage (by simp [hclosedReads])) (.inr hclosed)
  | latchClosed closed =>
    exact .quiet hclosedOwns (fun hstage => absurd hstage (by simp [hclosedReads])) (.inr hclosed)
  | shutdownClosed set => exact .quiet rfl nofun (.inr set.symm)
  | read => exact .quiet rfl (fun _ => rfl) (.inl rfl)
  | exchange sealed => exact .exchange sealed rfl rfl rfl
  | set unset built => exact .set unset rfl rfl
  | finish => exact .finish rfl rfl rfl rfl
  | reset set =>
    rw [hreads rfl] at set
    cases set
  | _ => exact .quiet rfl nofun (.inl rfl)

/-- A step of a close keeps the gate. -/
theorem gate_close {before after : List CloseCall} {call call' : CloseCall}
    (h : Gate w) (hcalls : w.closes = before ++ call :: after)
    (hstep : CloseStep w.state call s' call') :
    Gate { w with state := s', closes := before ++ call' :: after } := by
  have hcall : call ∈ w.closes := by simp [hcalls]
  have hreplace := countP_replace before after call call' (·.stage.owns)
  have hcount := h.closing
  have hunset := h.unset
  have hlatched := h.latched
  rw [hcalls] at hcount hunset hlatched
  rw [hcount] at hreplace
  have hunread : call.stage.reads = true → w.state.gate.summary = none := by
    intro hreads
    by_contra hset
    have hnot := (hunset (Option.isSome_iff_ne_none.mpr hset)).2 call (by simp)
    rw [hreads] at hnot
    cases hnot
  cases close_move hstep hunread with
  | quiet owns reads answers =>
    rw [owns] at hreplace
    refine ⟨h.active, h.shut, h.sealing, h.sealed, Nat.add_right_cancel hreplace, ?_,
      forall_replace hlatched ?_⟩
    · intro hsome
      refine ⟨(hunset hsome).1, forall_replace (hunset hsome).2 ?_⟩
      have hold := (hunset hsome).2 call (by simp)
      rw [Bool.eq_false_iff] at hold ⊢
      exact fun hreads => hold (reads hreads)
    · intro summary hstage
      rcases answers with hnone | hsame
      · rw [hnone] at hstage
        cases hstage
      · exact hsame.symm.trans hstage
  | exchange sealed hbefore hafter silent =>
    have hnone : w.state.gate.summary.isSome = false := by
      rw [Bool.eq_false_iff]
      intro hsome
      rcases (hunset hsome).1 with hphase | hphase <;> rw [sealed] at hphase <;> cases hphase
    rw [sealed, hbefore, hafter] at hreplace
    have hpast := h.shut
    rw [sealed] at hpast
    refine ⟨h.active, hpast, ?_, fun _ _ _ => rfl, hreplace, ?_, ?_⟩
    · have hsealing := h.sealing
      rw [sealed] at hsealing
      exact hsealing
    · intro hsome
      rw [hnone] at hsome
      cases hsome
    · exact forall_replace hlatched (fun summary hstage => by rw [silent] at hstage; cases hstage)
  | @set _ summary unset hbefore hafter =>
    have hphase := h.closing_of_owns hcall hbefore
    have hone := hcount
    rw [hphase] at hone
    have hothers := countP_le_one (Nat.le_of_eq hone) hbefore
    rw [hbefore, hafter] at hreplace
    refine ⟨h.active, h.shut, h.sealing, h.sealed, Nat.add_right_cancel hreplace, ?_, ?_⟩
    · refine fun _ => ⟨.inl hphase, ?_⟩
      intro other hother
      by_contra hreads
      rw [Bool.not_eq_false] at hreads
      have howns : other.stage.owns = true := by
        cases hstage : other.stage <;> first | rfl | simp [hstage, CloseStage.reads] at hreads
      rcases List.mem_append.mp hother with hmem | hmem
      · rw [hothers other (List.mem_append_left _ hmem)] at howns
        cases howns
      · rcases List.mem_cons.mp hmem with rfl | hmem
        · rw [hafter] at hreads
          cases hreads
        · rw [hothers other (List.mem_append_right _ hmem)] at howns
          cases howns
    · have hnone : ∀ other ∈ before ++ call :: after, ∀ σ, other.stage.summary? = some σ →
          some summary = some σ := by
        intro other hother σ hstage
        rw [unset] at hlatched
        cases hlatched other hother σ hstage
      exact forall_replace hnone (fun σ hstage => by rw [hafter] at hstage; exact hstage)
  | finish hbefore hafter hreads same =>
    have hphase := h.closing_of_owns hcall hbefore
    rw [hphase, hbefore, hafter] at hreplace
    have hpast := h.shut
    rw [hphase] at hpast
    refine ⟨h.active, hpast, ?_, fun _ _ _ => rfl, Nat.add_right_cancel hreplace, ?_, ?_⟩
    · have hsealing := h.sealing
      rw [hphase] at hsealing
      exact hsealing
    · intro hsome
      exact ⟨.inr rfl, forall_replace (hunset hsome).2 hreads⟩
    · refine forall_replace hlatched ?_
      intro summary hstage
      rw [same] at hstage
      exact hlatched call (by simp) summary hstage

/-- **Every step keeps the gate.** -/
theorem gate_step (h : Gate w) (hstep : WorldStep w w') : Gate w' := by
  cases hstep with
  | beginEnqueue request =>
    refine ⟨?_, ?_, h.sealing, h.sealed, h.closing, h.unset, h.latched⟩
    · rw [List.countP_append]
      exact h.active
    · intro hshut call hcall
      rcases List.mem_append.mp hcall with hcall | hcall
      · exact h.shut hshut call hcall
      · rw [List.mem_singleton.mp hcall]
        rfl
  | beginSeal facts =>
    refine ⟨h.active, ?_, ?_, ?_, h.closing, h.unset, h.latched⟩
    · rintro (hpast | ⟨call, hcall, hquiet⟩)
      · exact h.shut (.inl hpast)
      · rcases List.mem_append.mp hcall with hcall | hcall
        · exact h.shut (.inr ⟨call, hcall, hquiet⟩)
        · rw [List.mem_singleton.mp hcall] at hquiet
          cases hquiet
    · rw [List.countP_append]
      exact h.sealing
    · intro call hcall hok
      rcases List.mem_append.mp hcall with hcall | hcall
      · exact h.sealed call hcall hok
      · rw [List.mem_singleton.mp hcall] at hok
        cases hok
  | beginClose request =>
    refine ⟨h.active, h.shut, h.sealing, h.sealed, ?_, ?_, ?_⟩
    · rw [List.countP_append]
      exact h.closing
    · intro hsome
      refine ⟨(h.unset hsome).1, fun call hcall => ?_⟩
      rcases List.mem_append.mp hcall with hcall | hcall
      · exact (h.unset hsome).2 call hcall
      · rw [List.mem_singleton.mp hcall]
        rfl
    · intro call hcall summary hstage
      rcases List.mem_append.mp hcall with hcall | hcall
      · exact h.latched call hcall summary hstage
      · rw [List.mem_singleton.mp hcall] at hstage
        cases hstage
  | enqueueCall calls step => exact gate_enqueue h calls step
  | sealCall calls step => exact gate_seal h calls step
  | closeCall calls step => exact gate_close h calls step
  | drive step =>
    obtain ⟨hgate, hproducers⟩ := driver_frame step
    constructor <;> simp only [hgate, hproducers]
    · exact h.active
    · exact h.shut
    · exact h.sealing
    · exact h.sealed
    · exact h.closing
    · exact h.unset
    · exact h.latched
  | discard unlocked => exact ⟨h.active, h.shut, h.sealing, h.sealed, h.closing, h.unset, h.latched⟩
  | requestCancel live once =>
    exact ⟨h.active, h.shut, h.sealing, h.sealed, h.closing, h.unset, h.latched⟩
  | requestStop => exact ⟨h.active, h.shut, h.sealing, h.sealed, h.closing, h.unset, h.latched⟩
  | other step => exact ⟨h.active, h.shut, h.sealing, h.sealed, h.closing, h.unset, h.latched⟩

/-- The phase never goes back over the seal. -/
theorem past_step (hpast : w.state.gate.phase.past = true) (hstep : WorldStep w w') :
    w'.state.gate.phase.past = true := by
  cases hstep with
  | enqueueCall calls step =>
    rw [(enqueue_frame step).1]
    exact hpast
  | sealCall calls step =>
    cases step with
    | exchange opened =>
      rw [opened] at hpast
      cases hpast
    | finish => rfl
    | _ => exact hpast
  | closeCall calls step => cases step <;> first | exact hpast | rfl
  | drive step =>
    rw [(driver_frame step).1]
    exact hpast
  | _ => exact hpast

/-- **Past the seal no call returns `Ok` that did not before.** -/
theorem accepted_step (h : Gate w) (hpast : w.state.gate.phase.past = true)
    (hstep : WorldStep w w') : w'.accepted = w.accepted := by
  cases hstep with
  | beginEnqueue request =>
    unfold SinkWorld.accepted
    rw [List.filter_append]
    exact List.append_nil _
  | @enqueueCall state before after call call' calls step =>
    have houtside := h.shut (.inl hpast) call (by simp [calls])
    have hsame : call.stage.accepted = false ∧ call'.stage.accepted = false := by
      cases step
      case sequence request stage event carries ready =>
        rw [ready]
        exact ⟨by cases request.isTerminal <;> rfl, rfl⟩
      all_goals first | exact ⟨rfl, rfl⟩ | cases houtside
    unfold SinkWorld.accepted
    rw [calls, List.filter_append, List.filter_append, List.filter_cons_of_neg (by simp [hsame.2]),
      List.filter_cons_of_neg (by simp [hsame.1])]
  | _ => rfl

/-- A summary that is set stays, and so does the note of who latched it. -/
theorem summary_step {summary : SinkDeliverySummary} (hset : w.state.gate.summary = some summary)
    (hstep : WorldStep w w') : w'.state.gate.summary = some summary ∧
      w'.state.gate.latchedBy = w.state.gate.latchedBy := by
  cases hstep with
  | enqueueCall calls step =>
    rw [(enqueue_frame step).1]
    exact ⟨hset, rfl⟩
  | sealCall calls step => cases step <;> exact ⟨hset, rfl⟩
  | closeCall calls step =>
    cases step with
    | set unset built =>
      rw [unset] at hset
      cases hset
    | _ => exact ⟨hset, rfl⟩
  | drive step =>
    rw [(driver_frame step).1]
    exact ⟨hset, rfl⟩
  | _ => exact ⟨hset, rfl⟩

/-- The sink keeps its names. -/
theorem ids_step (hstep : WorldStep w w') :
    w'.state.runId = w.state.runId ∧ w'.state.actId = w.state.actId := by
  cases hstep with
  | enqueueCall calls step =>
    cases step
    case sequence event _ _ =>
      obtain ⟨last, failure, hrecord⟩ := recordEnqueueSequence_spec w.state event.item.sequence
      rw [hrecord]
      exact ⟨rfl, rfl⟩
    all_goals exact ⟨rfl, rfl⟩
  | sealCall calls step => cases step <;> exact ⟨rfl, rfl⟩
  | closeCall calls step => cases step <;> exact ⟨rfl, rfl⟩
  | drive step => cases step <;> exact ⟨rfl, rfl⟩
  | _ => exact ⟨rfl, rfl⟩

end Gate

end Troupe.Sink
