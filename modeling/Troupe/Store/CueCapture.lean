import Mathlib.Data.List.Induction
import Troupe.Store.Accounting

/-! # Cue capture

The cues of a run are recorded while the ingress is not loaded: `begin_cue_capture` pauses the
recording at a high load and resumes it at a low one, and `finish_cue_capture` ends it
(`store/admission.rs`). A cue that is not recorded is counted, and the count is what remains of it.

* A run is a list of calls, in any order and with any arguments; a handle is used as often as one
  likes.
* `CueLedger` is history: the cues that were suppressed, and those the callers were told of.

Results: **`cueLedger_run`**, no count is lost, and **`cue_capture`**, when recording is paused. -/

namespace Troupe.Store

open Troupe.Core Troupe.Lib

/-! ## Calls -/

/-- A call of a method of the ingress, or of a handle it gave out. -/
inductive IngressCall where
  | beginCueCapture
  | finishCueCapture
  | reserve (size : AdmissionSize) (reservationClass : ReservationClass)
  | commit (reservation : IngressReservation) (event : AcceptedDiagnosticEvent)
  | drop (reservation : IngressReservation)
  | tryDequeue
  | markCommitted (notification : CommitNotification)
  | sealNormalIngress
  | sealForExternalCoreFailure
  | tryRecv
  | dropReceiver

/-- What the call makes of the ingress. -/
def SharedIngress.perform (shared : SharedIngress) : IngressCall → SharedIngress
  | .beginCueCapture => shared.beginCueCapture.2
  | .finishCueCapture => shared.finishCueCapture.2
  | .reserve size reservationClass => (shared.reserve size reservationClass).2
  | .commit reservation event => shared.commit reservation event
  | .drop reservation => shared.drop reservation
  | .tryDequeue => shared.tryDequeue.2
  | .markCommitted notification => (shared.markCommitted notification).2
  | .sealNormalIngress => shared.sealNormalIngress.2
  | .sealForExternalCoreFailure => shared.sealForExternalCoreFailure.2
  | .tryRecv => shared.tryRecv.2
  | .dropReceiver => shared.dropReceiver

/-- What has become of the suppressed cues. -/
structure CueLedger where
  /-- How often a cue was suppressed. -/
  suppressed : Nat
  /-- The counts of the `Resume` decisions, added up. -/
  resumed : Nat
  /-- The counts `finish_cue_capture` returned, added up. -/
  finished : Nat
  /-- How often a cue was suppressed while the counter was at its maximum. -/
  clamped : Nat
deriving DecidableEq

/-- What the call adds to the ledger. -/
def CueLedger.record (ledger : CueLedger) (shared : SharedIngress) : IngressCall → CueLedger
  | .beginCueCapture =>
    match shared.beginCueCapture.1 with
    | .capture => ledger
    | .suppress =>
      { ledger with
        suppressed := ledger.suppressed + 1
        clamped := ledger.clamped +
          if shared.state.cueCapturePaused ∧ shared.state.suppressedCues = u64Max then 1 else 0 }
    | .resume suppressedCues => { ledger with resumed := ledger.resumed + suppressedCues }
  | .finishCueCapture =>
    { ledger with finished := ledger.finished + shared.finishCueCapture.1.getD 0 }
  | _ => ledger

/-- An ingress and its ledger. -/
structure CueWorld where
  shared : SharedIngress
  ledger : CueLedger

namespace CueWorld

/-- A new ingress. -/
def new : CueWorld := ⟨.new, ⟨0, 0, 0, 0⟩⟩

def perform (w : CueWorld) (call : IngressCall) : CueWorld :=
  ⟨w.shared.perform call, w.ledger.record w.shared call⟩

/-- The world after the calls. -/
def run (calls : List IngressCall) : CueWorld := calls.foldl perform .new

theorem run_concat (calls : List IngressCall) (call : IngressCall) :
    run (calls ++ [call]) = (run calls).perform call := List.foldl_concat ..

end CueWorld

/-! ## What a call does to the recording -/

namespace IngressState

/-- A load at which recording pauses. -/
def Heavy (state : IngressState) : Prop :=
  cueCapturePauseEvents ≤ state.currentEvents ∨ cueCapturePauseCanonicalBytes ≤ state.currentBytes

/-- A load at which recording resumes. -/
def Light (state : IngressState) : Prop :=
  state.currentEvents ≤ cueCaptureResumeEvents ∧
    state.currentBytes ≤ cueCaptureResumeCanonicalBytes

instance (state : IngressState) : Decidable state.Heavy :=
  inferInstanceAs (Decidable (_ ∨ _))

instance (state : IngressState) : Decidable state.Light :=
  inferInstanceAs (Decidable (_ ∧ _))

end IngressState

/-- The recording and the counter are as they were. -/
def KeepsCues (shared shared' : SharedIngress) : Prop :=
  shared'.state.cueCapturePaused = shared.state.cueCapturePaused ∧
    shared'.state.suppressedCues = shared.state.suppressedCues

section Cues

variable {shared : SharedIngress}

theorem keepsCues_latch (failure : IngressCoreFailure) :
    KeepsCues shared (latchFailure shared failure) := by
  unfold KeepsCues
  rw [latchFailure_state]
  exact ⟨rfl, rfl⟩

theorem keepsCues_commit (reservation : IngressReservation) (event : AcceptedDiagnosticEvent) :
    KeepsCues shared (shared.commit reservation event) := by
  unfold SharedIngress.commit KeepsCues
  dsimp only
  split
  · exact ⟨rfl, rfl⟩
  · unfold pushOutstanding
    dsimp only
    rw [latchFailure_state]
    exact ⟨rfl, rfl⟩

theorem keepsCues_markCommitted (notification : CommitNotification) :
    KeepsCues shared (shared.markCommitted notification).2 := by
  unfold SharedIngress.markCommitted
  split
  · exact keepsCues_latch _
  · split
    · exact ⟨rfl, rfl⟩
    · split <;> exact ⟨rfl, rfl⟩

theorem keepsCues_tryDequeue : KeepsCues shared shared.tryDequeue.2 := by
  unfold SharedIngress.tryDequeue
  split <;> exact ⟨rfl, rfl⟩

/-- The call took a cue in, and the load is high with it. -/
def Fills (shared : SharedIngress) (call : IngressCall) : Prop :=
  ∃ size reservation, call = .reserve size .cue ∧
    (shared.reserve size .cue).1 = .ok reservation ∧ (shared.perform call).state.Heavy

/-- A granted reservation pauses the recording when it is one for a cue and the load is high. -/
theorem reserve_granted_cues {size : AdmissionSize} {reservationClass : ReservationClass}
    {reservation : IngressReservation}
    (h : (shared.reserve size reservationClass).1 = .ok reservation) :
    (shared.reserve size reservationClass).2.state.suppressedCues = shared.state.suppressedCues ∧
      ((shared.reserve size reservationClass).2.state.cueCapturePaused = true ↔
        shared.state.cueCapturePaused = true ∨
          reservationClass = .cue ∧ (shared.reserve size reservationClass).2.state.Heavy) := by
  unfold SharedIngress.reserve at h ⊢
  by_cases hone : size.eventCount = 1
  · rw [if_neg (not_not.mpr hone)] at h ⊢
    cases hclass : shared.state.checkClass reservationClass with
    | error error =>
      rw [hclass] at h
      cases h
    | ok =>
      rw [hclass] at h
      dsimp only at h ⊢
      unfold SharedIngress.reserveChecked at h ⊢
      rw [hone] at h ⊢
      dsimp only at h ⊢
      split at h
      next =>
        split at h
        · cases h
        · cases h
      next hexceeds =>
        rw [if_neg hexceeds]
        simp only [Bool.or_eq_true, not_or, Bool.not_eq_true] at hexceeds
        have hlimits : maxUncommittedEvents ≤ usizeMax ∧ maxUncommittedCanonicalBytes ≤ usizeMax := by
          decide
        have hevents : shared.state.reservedEvents + shared.state.outstanding.length + 1 ≤
            maxUncommittedEvents := exceeds_eq_false (by decide) hexceeds.1
        have hbytes : shared.state.reservedCanonicalBytes +
            shared.state.outstandingCanonicalBytes + size.canonicalBytes ≤
            maxUncommittedCanonicalBytes := exceeds_eq_false (by decide) hexceeds.2
        unfold IngressState.Heavy IngressState.currentEvents IngressState.currentBytes
        rw [saturatingAdd_of_le (show _ + shared.state.outstanding.length ≤ usizeMax by omega),
          saturatingAdd_of_le (show _ + shared.state.outstandingCanonicalBytes ≤ usizeMax by omega),
          checkedAdd_of_le
            (show shared.state.reservedEvents + shared.state.outstanding.length + 1 ≤ usizeMax by
              omega),
          checkedAdd_of_le
            (show shared.state.reservedCanonicalBytes + shared.state.outstandingCanonicalBytes +
              size.canonicalBytes ≤ usizeMax by omega),
          checkedAdd_of_le (show shared.state.reservedEvents + 1 ≤ usizeMax by omega),
          checkedAdd_of_le
            (show shared.state.reservedCanonicalBytes + size.canonicalBytes ≤ usizeMax by omega)]
        dsimp only
        rw [saturatingAdd_of_le (show _ + shared.state.outstanding.length ≤ usizeMax by omega),
          saturatingAdd_of_le (show _ + shared.state.outstandingCanonicalBytes ≤ usizeMax by omega),
          Nat.add_right_comm shared.state.reservedEvents,
          Nat.add_right_comm shared.state.reservedCanonicalBytes]
        refine ⟨rfl, ?_⟩
        simp
  · rw [if_pos hone] at h
    cases h

/-- A reservation leaves the counter alone, and pauses the recording when it takes a cue in and the
load is high with it. -/
theorem reserve_cues (size : AdmissionSize) (reservationClass : ReservationClass) :
    (shared.reserve size reservationClass).2.state.suppressedCues = shared.state.suppressedCues ∧
      ((shared.reserve size reservationClass).2.state.cueCapturePaused = true ↔
        shared.state.cueCapturePaused = true ∨ Fills shared (.reserve size reservationClass)) := by
  have hrefused {fault : Fault IngressAdmissionError} {shared' : SharedIngress}
      (hresult : shared.reserve size reservationClass = (.error fault, shared'))
      (hkeeps : KeepsCues shared shared') :
      shared'.state.suppressedCues = shared.state.suppressedCues ∧
        (shared'.state.cueCapturePaused = true ↔
          shared.state.cueCapturePaused = true ∨ Fills shared (.reserve size reservationClass)) := by
    refine ⟨hkeeps.2, ?_⟩
    rw [hkeeps.1]
    refine ⟨.inl, fun h => h.elim id ?_⟩
    rintro ⟨size', reservation, hcall, hgranted, -⟩
    cases hcall
    rw [hresult] at hgranted
    cases hgranted
  cases hanswer : (shared.reserve size reservationClass).1 with
  | error fault =>
    refine hrefused (Prod.ext hanswer rfl) ?_
    have hreserves := reserves shared size reservationClass
    generalize shared.reserve size reservationClass = result at hreserves hanswer
    cases hreserves with
    | refused error => exact ⟨rfl, rfl⟩
    | exhausted failure => exact keepsCues_latch failure
    | granted => cases hanswer
  | ok reservation =>
    obtain ⟨hstate, hpaused⟩ := reserve_granted_cues hanswer
    refine ⟨hstate, hpaused.trans (or_congr_right ⟨?_, ?_⟩)⟩
    · rintro ⟨rfl, hheavy⟩
      exact ⟨size, reservation, rfl, hanswer, hheavy⟩
    · rintro ⟨size', reservation', hcall, -, hheavy⟩
      cases hcall
      exact ⟨rfl, hheavy⟩

/-- What `begin_cue_capture` decides, and the state it leaves. -/
inductive BeginsCue (shared : SharedIngress) : CueCaptureDecision × SharedIngress → Prop
  | closed (isSealed : shared.state.normalIngressSealed = true) :
      BeginsCue shared (.capture, shared)
  | resumes (isOpen : shared.state.normalIngressSealed = false)
      (paused : shared.state.cueCapturePaused = true) (light : shared.state.Light) :
      BeginsCue shared
        (if shared.state.suppressedCues = 0 then .capture else .resume shared.state.suppressedCues,
          { shared with
            state := { shared.state with cueCapturePaused := false, suppressedCues := 0 } })
  | stays (isOpen : shared.state.normalIngressSealed = false)
      (paused : shared.state.cueCapturePaused = true) (loaded : ¬shared.state.Light) :
      BeginsCue shared
        (.suppress,
          { shared with
            state := { shared.state with
              suppressedCues := saturatingAdd u64Max shared.state.suppressedCues 1 } })
  | pauses (isOpen : shared.state.normalIngressSealed = false)
      (recording : shared.state.cueCapturePaused = false) (heavy : shared.state.Heavy) :
      BeginsCue shared
        (.suppress,
          { shared with state := { shared.state with cueCapturePaused := true, suppressedCues := 1 } })
  | records (isOpen : shared.state.normalIngressSealed = false)
      (recording : shared.state.cueCapturePaused = false) (free : ¬shared.state.Heavy) :
      BeginsCue shared (.capture, shared)

theorem beginsCue (shared : SharedIngress) : BeginsCue shared shared.beginCueCapture := by
  unfold SharedIngress.beginCueCapture
  dsimp only
  by_cases hsealed : shared.state.normalIngressSealed = true
  · rw [if_pos hsealed]
    exact .closed hsealed
  · rw [if_neg hsealed]
    rw [Bool.not_eq_true] at hsealed
    by_cases hpaused : shared.state.cueCapturePaused = true
    · rw [if_pos hpaused]
      split
      next hlight => exact .resumes hsealed hpaused hlight
      next hloaded => exact .stays hsealed hpaused hloaded
    · rw [if_neg hpaused]
      rw [Bool.not_eq_true] at hpaused
      split
      next hheavy => exact .pauses hsealed hpaused hheavy
      next hfree => exact .records hsealed hpaused hfree

/-- Other calls leave the counter alone, and only a reservation pauses the recording. -/
theorem perform_cues {call : IngressCall} (hbegin : call ≠ .beginCueCapture)
    (hfinish : call ≠ .finishCueCapture) :
    (shared.perform call).state.suppressedCues = shared.state.suppressedCues ∧
      ((shared.perform call).state.cueCapturePaused = true ↔
        shared.state.cueCapturePaused = true ∨ Fills shared call) := by
  have hkeeps (hcall : ∀ size, call ≠ .reserve size .cue)
      (h : KeepsCues shared (shared.perform call)) :
      (shared.perform call).state.suppressedCues = shared.state.suppressedCues ∧
        ((shared.perform call).state.cueCapturePaused = true ↔
          shared.state.cueCapturePaused = true ∨ Fills shared call) := by
    rw [h.1]
    exact ⟨h.2, .inl, fun hor => hor.elim id fun ⟨size, _, hreserve, _⟩ =>
      absurd hreserve (hcall size)⟩
  cases call with
  | beginCueCapture => exact absurd rfl hbegin
  | finishCueCapture => exact absurd rfl hfinish
  | reserve size reservationClass => exact reserve_cues size reservationClass
  | commit reservation event => exact hkeeps (fun _ h => nomatch h) (keepsCues_commit _ _)
  | drop reservation => exact hkeeps (fun _ h => nomatch h) ⟨rfl, rfl⟩
  | tryDequeue => exact hkeeps (fun _ h => nomatch h) keepsCues_tryDequeue
  | markCommitted notification =>
    exact hkeeps (fun _ h => nomatch h) (keepsCues_markCommitted _)
  | sealNormalIngress => exact hkeeps (fun _ h => nomatch h) ⟨rfl, rfl⟩
  | sealForExternalCoreFailure => exact hkeeps (fun _ h => nomatch h) ⟨rfl, rfl⟩
  | tryRecv => exact hkeeps (fun _ h => nomatch h) ⟨rfl, rfl⟩
  | dropReceiver => exact hkeeps (fun _ h => nomatch h) ⟨rfl, rfl⟩

end Cues

/-! ## No count is lost -/

/-- Every suppressed cue was told of, or is still counted. -/
structure CueInvariant (w : CueWorld) : Prop where
  counted : w.ledger.suppressed =
    w.ledger.resumed + w.ledger.finished + w.shared.state.suppressedCues + w.ledger.clamped
  /-- Nothing is counted while the cues are recorded. -/
  recording : w.shared.state.cueCapturePaused = false → w.shared.state.suppressedCues = 0
  bounded : w.shared.state.suppressedCues ≤ u64Max

section Ledger

variable {w : CueWorld}

theorem cueInvariant_begin (h : CueInvariant w) : CueInvariant (w.perform .beginCueCapture) := by
  obtain ⟨hcounted, hrecording, hbounded⟩ := h
  have hbegins := beginsCue w.shared
  unfold CueWorld.perform SharedIngress.perform CueLedger.record
  generalize w.shared.beginCueCapture = result at hbegins
  cases hbegins with
  | closed => exact ⟨hcounted, hrecording, hbounded⟩
  | resumes =>
    by_cases hzero : w.shared.state.suppressedCues = 0
    · simp only [hzero, if_true] at hcounted ⊢
      exact ⟨hcounted, fun _ => rfl, Nat.zero_le _⟩
    · simp only [hzero, if_false] at hcounted ⊢
      exact ⟨by dsimp only; omega, fun _ => rfl, Nat.zero_le _⟩
  | stays _ paused =>
    dsimp only
    by_cases hfull : w.shared.state.suppressedCues = u64Max
    · have hclamp : saturatingAdd u64Max u64Max 1 = u64Max := by decide
      rw [if_pos ⟨paused, hfull⟩, hfull, hclamp]
      exact ⟨by dsimp only; omega, fun hnot => absurd (paused.symm.trans hnot) (by decide),
        Nat.le_refl _⟩
    · rw [if_neg fun hboth => hfull hboth.2, saturatingAdd_of_le (by omega)]
      exact ⟨by dsimp only; omega, fun hnot => absurd (paused.symm.trans hnot) (by decide),
        by dsimp only; omega⟩
  | pauses _ recording =>
    have hzero := hrecording recording
    dsimp only
    rw [if_neg fun hboth => absurd (recording.symm.trans hboth.1) (by decide)]
    exact ⟨by dsimp only; omega, fun hnot => (nomatch hnot), show 1 ≤ u64Max by decide⟩
  | records => exact ⟨hcounted, hrecording, hbounded⟩

theorem cueInvariant_finish (h : CueInvariant w) : CueInvariant (w.perform .finishCueCapture) := by
  obtain ⟨hcounted, -, -⟩ := h
  refine ⟨?_, fun _ => rfl, Nat.zero_le _⟩
  unfold CueWorld.perform SharedIngress.perform CueLedger.record SharedIngress.finishCueCapture
  dsimp only
  by_cases hzero : 0 < w.shared.state.suppressedCues
  · rw [if_pos hzero, Option.getD_some]
    omega
  · rw [if_neg hzero, Option.getD_none]
    omega

/-- **Every call keeps the counts.** -/
theorem cueInvariant_perform (h : CueInvariant w) (call : IngressCall) :
    CueInvariant (w.perform call) := by
  by_cases hbegin : call = .beginCueCapture
  · rw [hbegin]
    exact cueInvariant_begin h
  by_cases hfinish : call = .finishCueCapture
  · rw [hfinish]
    exact cueInvariant_finish h
  obtain ⟨hsuppressed, hpaused⟩ := @perform_cues w.shared call hbegin hfinish
  have hledger : w.ledger.record w.shared call = w.ledger := by
    cases call <;> first | rfl | exact absurd rfl hbegin | exact absurd rfl hfinish
  obtain ⟨hcounted, hrecording, hbounded⟩ := h
  unfold CueWorld.perform
  rw [hledger]
  refine ⟨?_, fun hnot => ?_, ?_⟩
  · dsimp only
    rw [hsuppressed]
    exact hcounted
  · dsimp only at hnot ⊢
    rw [hsuppressed]
    refine hrecording ?_
    rw [Bool.eq_false_iff] at hnot ⊢
    exact fun hold => hnot (hpaused.mpr (.inl hold))
  · dsimp only
    rw [hsuppressed]
    exact hbounded

theorem cueLedger_run (calls : List IngressCall) : CueInvariant (.run calls) := by
  induction calls using List.reverseRecOn with
  | nil => exact ⟨rfl, fun _ => rfl, Nat.zero_le _⟩
  | append_singleton calls call ih =>
    rw [CueWorld.run_concat]
    exact cueInvariant_perform ih call

end Ledger

/-! ## When recording is paused -/

/-- The call pauses the recording: a cue is begun, or taken in, at a high load. -/
def Pauses (shared : SharedIngress) (call : IngressCall) : Prop :=
  call = .beginCueCapture ∧ shared.state.normalIngressSealed = false ∧ shared.state.Heavy ∨
    Fills shared call

/-- The call resumes the recording: a cue is begun at a low load, or the recording ends. -/
def Resumes (shared : SharedIngress) (call : IngressCall) : Prop :=
  call = .beginCueCapture ∧ shared.state.normalIngressSealed = false ∧ shared.state.Light ∨
    call = .finishCueCapture

section Pausing

variable {shared : SharedIngress}

theorem not_fills_begin : ¬Fills shared .beginCueCapture :=
  fun ⟨_, _, hcall, _⟩ => nomatch hcall

theorem pauses_iff (hrecording : shared.state.cueCapturePaused = false) (call : IngressCall) :
    (shared.perform call).state.cueCapturePaused = true ↔ Pauses shared call := by
  unfold Pauses
  by_cases hbegin : call = .beginCueCapture
  · subst hbegin
    have hbegins := beginsCue shared
    unfold SharedIngress.perform
    generalize shared.beginCueCapture = result at hbegins
    simp only [true_and, not_fills_begin, or_false]
    cases hbegins with
    | closed isSealed => simp [hrecording, isSealed]
    | resumes _ paused => rw [hrecording] at paused; cases paused
    | stays _ paused => rw [hrecording] at paused; cases paused
    | pauses isOpen _ heavy => simp [isOpen, heavy]
    | records isOpen _ free => simp [hrecording, free]
  by_cases hfinish : call = .finishCueCapture
  · subst hfinish
    refine iff_of_false (fun h => nomatch h) ?_
    rintro (⟨hcall, -⟩ | ⟨_, _, hcall, -⟩) <;> cases hcall
  rw [(perform_cues hbegin hfinish).2, hrecording]
  simp [hbegin]

theorem resumes_iff (hpaused : shared.state.cueCapturePaused = true) (call : IngressCall) :
    (shared.perform call).state.cueCapturePaused = false ↔ Resumes shared call := by
  unfold Resumes
  by_cases hbegin : call = .beginCueCapture
  · subst hbegin
    have hbegins := beginsCue shared
    unfold SharedIngress.perform
    generalize shared.beginCueCapture = result at hbegins
    simp only [true_and, reduceCtorEq, or_false]
    cases hbegins with
    | closed isSealed => simp [hpaused, isSealed]
    | resumes isOpen _ light => simp [isOpen, light]
    | stays isOpen _ loaded => simp [hpaused, loaded]
    | pauses _ recording => rw [hpaused] at recording; cases recording
    | records _ recording => rw [hpaused] at recording; cases recording
  by_cases hfinish : call = .finishCueCapture
  · subst hfinish
    exact iff_of_true rfl (.inr rfl)
  refine iff_of_false ?_ (by simp [hbegin, hfinish])
  rw [Bool.not_eq_false, (perform_cues hbegin hfinish).2]
  exact .inl hpaused

/-- A cue is suppressed when recording is paused after the decision, on an open ingress. -/
theorem suppress_iff (shared : SharedIngress) :
    shared.beginCueCapture.1 = .suppress ↔
      shared.state.normalIngressSealed = false ∧
        (shared.perform .beginCueCapture).state.cueCapturePaused = true := by
  have hbegins := beginsCue shared
  unfold SharedIngress.perform
  generalize shared.beginCueCapture = result at hbegins
  cases hbegins with
  | closed isSealed => simp [isSealed]
  | resumes =>
    simp only [Bool.false_eq_true, and_false, iff_false]
    split <;> simp
  | stays isOpen paused => simp [isOpen, paused]
  | pauses isOpen => simp [isOpen]
  | records isOpen recording => simp [recording]

end Pausing

/-- **No suppressed cue goes uncounted, and recording pauses and resumes at the two loads.** -/
theorem cue_capture (calls : List IngressCall) :
    CueInvariant (.run calls) ∧
      (∀ call, ((CueWorld.run calls).shared.state.cueCapturePaused = false →
          ((CueWorld.run (calls ++ [call])).shared.state.cueCapturePaused = true ↔
            Pauses (CueWorld.run calls).shared call)) ∧
        ((CueWorld.run calls).shared.state.cueCapturePaused = true →
          ((CueWorld.run (calls ++ [call])).shared.state.cueCapturePaused = false ↔
            Resumes (CueWorld.run calls).shared call))) ∧
      (∀ later, (CueWorld.run calls).shared.state.cueCapturePaused = true →
        (∀ before call after, later = before ++ call :: after →
          ¬Resumes (CueWorld.run (calls ++ before)).shared call) →
        (CueWorld.run (calls ++ later)).shared.state.cueCapturePaused = true) ∧
      ((CueWorld.run calls).shared.beginCueCapture.1 = .suppress ↔
        (CueWorld.run calls).shared.state.normalIngressSealed = false ∧
          (CueWorld.run (calls ++ [.beginCueCapture])).shared.state.cueCapturePaused = true) ∧
      ∀ call, call ≠ .beginCueCapture → call ≠ .finishCueCapture →
        (CueWorld.run (calls ++ [call])).shared.state.suppressedCues =
          (CueWorld.run calls).shared.state.suppressedCues := by
  refine ⟨cueLedger_run calls, fun call => ?_, fun later hpaused hlater => ?_, ?_,
    fun call hbegin hfinish => ?_⟩
  · rw [CueWorld.run_concat]
    exact ⟨fun h => pauses_iff h call, fun h => resumes_iff h call⟩
  · induction later using List.reverseRecOn with
    | nil => rwa [List.append_nil]
    | append_singleton later call ih =>
      have hbefore := ih fun before call' after hsplit =>
        hlater before call' (after ++ [call]) (by rw [hsplit, List.append_assoc]; rfl)
      have hcall := hlater later call [] rfl
      rw [← List.append_assoc, CueWorld.run_concat]
      by_contra hnot
      rw [Bool.not_eq_true] at hnot
      exact hcall ((resumes_iff hbefore call).mp hnot)
  · rw [CueWorld.run_concat]
    exact suppress_iff _
  · rw [CueWorld.run_concat]
    exact (perform_cues hbegin hfinish).1

/-- A load of three quarters does not pause the recording when no cue is among it, and
`finish_cue_capture` ends a pause at that load. -/
theorem cue_capture_loaded :
    (CueWorld.run [.reserve ⟨1, cueCapturePauseCanonicalBytes⟩ .normal]).shared.state.Heavy ∧
      (CueWorld.run [.reserve ⟨1, cueCapturePauseCanonicalBytes⟩
        .normal]).shared.state.cueCapturePaused = false ∧
      (CueWorld.run [.reserve ⟨1, cueCapturePauseCanonicalBytes⟩
        .cue]).shared.state.cueCapturePaused = true ∧
      ¬(CueWorld.run [.reserve ⟨1, cueCapturePauseCanonicalBytes⟩ .cue,
        .finishCueCapture]).shared.state.Light ∧
      (CueWorld.run [.reserve ⟨1, cueCapturePauseCanonicalBytes⟩ .cue,
        .finishCueCapture]).shared.state.cueCapturePaused = false := by
  decide

end Troupe.Store
