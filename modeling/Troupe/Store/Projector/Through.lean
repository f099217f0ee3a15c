import Troupe.Core.Validate

/-! # How far a read model has come

The five read models of `store/projector` keep the same three fields (`run_id`, `through_sequence`,
`through_elapsed_ns`), check the position of the next event against them (`validate_position`) and
advance them in the same way. `Through` is these fields, and each read model extends it.

* The error variants that `validate_position` returns are the same in the five error enumerations;
  they are grouped in `PositionError`.
* `model_schema_version` is a constant in every read model, so it is not stored and the checks of it
  are left out.

`Covers` says that a read model stands after a history of events, and `Next` that an event is the
one the hub assigns next: then the position is accepted (`validatePosition_next`,
`validateUntiedPosition_next`) and the read model covers one event more (`covers_advance`). -/

namespace Troupe.Store

open Troupe.Lib Troupe.Core

/-- The position fields of a read model. -/
structure Through where
  runId : CanonicalUuid
  throughSequence : SchemaU64
  throughElapsedNs : ElapsedNs
deriving DecidableEq

/-- The variants that every projection error has. -/
inductive PositionError where
  | runIdentityMismatch (expected actual : CanonicalUuid) (eventSequence : SchemaU64)
  | nonCanonicalSequence (expected actual : SchemaU64)
  | sequenceTie (eventSequence : SchemaU64)
  | sequenceExhausted (eventSequence : SchemaU64)
deriving DecidableEq

namespace Through

/-- The position fields of an empty read model. -/
def empty (runId : CanonicalUuid) : Through := ⟨runId, 0, 0⟩

/-- The event's sequence is the one after the last. -/
def validateSequence (through : Through) (event : DiagnosticEvent) : Except PositionError Unit :=
  match checkedAdd u64Max through.throughSequence.get 1 with
  | none => .error (.sequenceExhausted event.sequence)
  | some expected =>
    if event.sequence.get ≠ expected then
      .error (.nonCanonicalSequence (.ofNat expected) event.sequence)
    else
      .ok ()

/-- `validate_position` of `spans.rs`, `messages.rs` and `plans.rs`. -/
def validatePosition (through : Through) (event : DiagnosticEvent) : Except PositionError Unit :=
  if event.header.runId ≠ through.runId then
    .error (.runIdentityMismatch through.runId event.header.runId event.sequence)
  else
    through.validateSequence event

/-- `validate_position` of `counters.rs` and `usage.rs`, which name a repeated sequence. -/
def validateUntiedPosition (through : Through) (event : DiagnosticEvent) :
    Except PositionError Unit :=
  if event.header.runId ≠ through.runId then
    .error (.runIdentityMismatch through.runId event.header.runId event.sequence)
  else if 0 < through.throughSequence.get ∧ event.sequence = through.throughSequence then
    .error (.sequenceTie event.sequence)
  else
    through.validateSequence event

/-- The fields after `event` is applied. -/
def advance (through : Through) (event : DiagnosticEvent) : Through :=
  { through with
    throughSequence := event.sequence
    throughElapsedNs := through.throughElapsedNs.max event.elapsedNs }

end Through

/-! ## Histories -/

/-- `event` is the one the hub assigns after `history`: of the same run, with the next sequence. -/
structure Next (runId : CanonicalUuid) (history : List DiagnosticEvent) (event : DiagnosticEvent) :
    Prop where
  run : event.header.runId = runId
  sequence : event.sequence.get = history.length + 1

/-- The events of `history` are of one run and have the sequences `1, 2, …`. -/
inductive Dense (runId : CanonicalUuid) : List DiagnosticEvent → Prop
  | nil : Dense runId []
  | append {history : List DiagnosticEvent} {event : DiagnosticEvent} (dense : Dense runId history)
      (next : Next runId history event) : Dense runId (history ++ [event])

/-- The position fields are those of a read model to which exactly `history` was applied. -/
structure Through.Covers (through : Through) (runId : CanonicalUuid)
    (history : List DiagnosticEvent) : Prop where
  dense : Dense runId history
  run : through.runId = runId
  sequence : through.throughSequence.get = history.length
  elapsed : ∀ event ∈ history, event.elapsedNs ≤ through.throughElapsedNs

section Histories

variable {runId : CanonicalUuid} {history : List DiagnosticEvent} {event : DiagnosticEvent}
  {through : Through}

theorem Dense.mem (h : Dense runId history) :
    ∀ event ∈ history, event.header.runId = runId ∧ event.sequence.get ≤ history.length := by
  induction h with
  | nil => simp
  | append _ next ih =>
    intro event hevent
    rw [List.length_append, List.length_singleton]
    rcases List.mem_append.mp hevent with hevent | hevent
    · exact ⟨(ih event hevent).1, Nat.le_succ_of_le (ih event hevent).2⟩
    · rw [List.mem_singleton.mp hevent]
      exact ⟨next.run, Nat.le_of_eq next.sequence⟩

theorem Dense.lt_next (h : Dense runId history) (hnext : Next runId history event)
    {earlier : DiagnosticEvent} (hearlier : earlier ∈ history) :
    earlier.sequence < event.sequence := by
  rw [SchemaU64.lt_def, hnext.sequence]
  exact Nat.lt_succ_of_le (h.mem earlier hearlier).2

theorem Dense.eq_of_sequence (h : Dense runId history) : ∀ a ∈ history, ∀ b ∈ history,
    a.sequence = b.sequence → a = b := by
  induction h with
  | nil => simp
  | append dense next ih =>
    intro a ha b hb hab
    rcases List.mem_append.mp ha with ha | ha <;> rcases List.mem_append.mp hb with hb | hb
    · exact ih a ha b hb hab
    · rw [List.mem_singleton.mp hb] at hab
      exact absurd (hab ▸ dense.lt_next next ha) (Nat.lt_irrefl _)
    · rw [List.mem_singleton.mp ha] at hab
      exact absurd (hab ▸ dense.lt_next next hb) (Nat.lt_irrefl _)
    · rw [List.mem_singleton.mp ha, List.mem_singleton.mp hb]

theorem covers_empty : (Through.empty runId).Covers runId [] where
  dense := .nil
  run := rfl
  sequence := rfl
  elapsed := by simp

theorem covers_advance (h : through.Covers runId history) (hnext : Next runId history event) :
    (through.advance event).Covers runId (history ++ [event]) where
  dense := .append h.dense hnext
  run := h.run
  sequence := by
    rw [List.length_append, List.length_singleton]
    exact hnext.sequence
  elapsed := by
    intro earlier hearlier
    have hmax := ReferenceValidator.elapsed_le_max through.throughElapsedNs event.elapsedNs
    rcases List.mem_append.mp hearlier with hearlier | hearlier
    · exact Nat.le_trans (h.elapsed earlier hearlier) hmax.1
    · rw [List.mem_singleton.mp hearlier]
      exact hmax.2

theorem validateSequence_next (h : through.Covers runId history)
    (hnext : Next runId history event) : through.validateSequence event = .ok () := by
  have hle := event.sequence.le_max
  rw [hnext.sequence] at hle
  unfold Through.validateSequence
  rw [h.sequence, checkedAdd_of_le hle]
  exact if_neg (not_not.mpr hnext.sequence)

theorem validatePosition_next (h : through.Covers runId history)
    (hnext : Next runId history event) : through.validatePosition event = .ok () := by
  unfold Through.validatePosition
  rw [if_neg (not_not.mpr (hnext.run.trans h.run.symm))]
  exact validateSequence_next h hnext

/-- Only the next event is in its place. -/
theorem next_of_validatePosition (h : through.Covers runId history)
    (hok : through.validatePosition event = .ok ()) : Next runId history event := by
  unfold Through.validatePosition at hok
  rw [ite_error_eq_ok, not_not] at hok
  obtain ⟨hrun, hsequence⟩ := hok
  refine ⟨hrun.trans h.run, ?_⟩
  unfold Through.validateSequence at hsequence
  split at hsequence
  · cases hsequence
  · rename_i expected hexpected
    rw [ite_error_eq_ok, not_not] at hsequence
    rw [hsequence.1, ← h.sequence]
    exact (checkedAdd_eq_some.mp hexpected).2

theorem next_of_validateUntiedPosition (h : through.Covers runId history)
    (hok : through.validateUntiedPosition event = .ok ()) : Next runId history event := by
  unfold Through.validateUntiedPosition at hok
  rw [ite_error_eq_ok, ite_error_eq_ok] at hok
  refine next_of_validatePosition h ?_
  unfold Through.validatePosition
  rw [if_neg hok.1]
  exact hok.2.2

theorem validateUntiedPosition_next (h : through.Covers runId history)
    (hnext : Next runId history event) : through.validateUntiedPosition event = .ok () := by
  unfold Through.validateUntiedPosition
  rw [if_neg (not_not.mpr (hnext.run.trans h.run.symm)), if_neg]
  · exact validateSequence_next h hnext
  · rintro ⟨-, htie⟩
    have hsequence := hnext.sequence
    rw [htie, h.sequence] at hsequence
    omega

end Histories

end Troupe.Store
