import Mathlib.Data.Finset.Insert
import Mathlib.Data.List.AList
import Troupe.Core.Kinds
import Troupe.Lib.Emitter

/-! # Agent tool facts

`diagnostics/tool.rs`: what a provider reports of its tool calls in one turn, in any order, becomes
facts of which every call id has one `Started`, then `Updated`s, then one `Finished`. What does not
fit is answered with a gap and changes nothing; the end of the turn cancels the calls still open.

* The `HashMap` of open calls is an `AList`, the `HashSet` of finished ids a `Finset`; the code never
  iterates over either.
* ACP's enumerations are not exhaustive: `unknown` stands for the values the code does not name.

Headline results: `step_answered` says all a call can do, and **`tool_traces`** what the facts of any
sequence of calls look like. -/

namespace Troupe.Agent.Diagnostics

open Troupe.Core Troupe.Lib

/-! ## Observations and facts -/

/-- `AcpToolCallStatus`. -/
inductive AcpToolCallStatus where
  | pending
  | inProgress
  | completed
  | failed
  | unknown
deriving DecidableEq

/-- `AcpToolKind`. -/
inductive AcpToolKind where
  | read
  | edit
  | delete
  | move
  | search
  | execute
  | think
  | fetch
  | switchMode
  | other
  | unknown
deriving DecidableEq

/-- `SessionUpdate`, with the fields of a tool call that are read. -/
inductive SessionUpdate where
  | toolCall (toolCallId title : String) (kind : AcpToolKind) (status : AcpToolCallStatus)
  | toolCallUpdate (toolCallId : String) (title : Option String) (kind : Option AcpToolKind)
      (status : Option AcpToolCallStatus)
  | otherUpdate

/-- `AgentToolMetadata`. -/
structure AgentToolMetadata where
  sourceToolCallId : String
  title : String
  toolKind : ToolKind
  status : ToolCallStatus
deriving DecidableEq

/-- `AgentToolTerminalOutcome`. -/
inductive AgentToolTerminalOutcome where
  | completed
  | failed
  | cancelled
deriving DecidableEq

/-- `AgentToolErrorCode`. -/
inductive AgentToolErrorCode where
  | toolFailed
deriving DecidableEq

/-- `AgentToolSourceGapReason`. -/
inductive AgentToolSourceGapReason where
  | emptyToolCallId
  | duplicateActiveToolCall
  | finishedToolCallIdReused
  | updateBeforeStart
  | updateAfterFinish
  | invalidStatusTransition
  | activityAfterTurnTerminal
  | repeatedTurnTerminal
deriving DecidableEq

/-- `AgentToolCandidate`. -/
inductive AgentToolCandidate where
  | started (elapsedNs : Nat) (metadata : AgentToolMetadata)
  | updated (elapsedNs : Nat) (metadata : AgentToolMetadata)
  | finished (elapsedNs : Nat) (sourceToolCallId : String) (outcome : AgentToolTerminalOutcome)
      (errorCode : Option AgentToolErrorCode)
  | sourceGap (elapsedNs : Nat) (reason : AgentToolSourceGapReason)
      (sourceToolCallId : Option String)
deriving DecidableEq

/-- `finished`. -/
def finished (elapsedNs : Nat) (sourceToolCallId : String) (outcome : AgentToolTerminalOutcome) :
    AgentToolCandidate :=
  .finished elapsedNs sourceToolCallId outcome
    (if outcome = .failed then some .toolFailed else none)

/-- `valid_status_transition`. -/
def validStatusTransition (current next : ToolCallStatus) : Bool :=
  match current with
  | .pending => true
  | .inProgress => next != .pending
  | .completed | .failed => false

/-- `terminal_outcome`. -/
def terminalOutcome : ToolCallStatus → Option AgentToolTerminalOutcome
  | .completed => some .completed
  | .failed => some .failed
  | .pending | .inProgress => none

/-- `normalize_tool_kind`. -/
def normalizeToolKind : AcpToolKind → ToolKind
  | .read => .read
  | .edit => .edit
  | .delete => .delete
  | .move => .move
  | .search => .search
  | .execute => .execute
  | .think => .think
  | .fetch => .fetch
  | .switchMode => .switchMode
  | .other => .other
  | .unknown => .other

/-- `normalize_status`. -/
def normalizeStatus : AcpToolCallStatus → Option ToolCallStatus
  | .pending => some .pending
  | .inProgress => some .inProgress
  | .completed => some .completed
  | .failed => some .failed
  | .unknown => none

/-! ## The normalizer -/

/-- `AgentToolNormalizer`. `openTools` is its field `open`. -/
structure AgentToolNormalizer where
  openTools : AList fun _ : String => AgentToolMetadata
  openOrder : List String
  finished : Finset String
  terminal : Bool

namespace AgentToolNormalizer

/-- `AgentToolNormalizer::new`. -/
def new : AgentToolNormalizer := ⟨∅, [], ∅, false⟩

/-- `AgentToolNormalizer::reject_common`. -/
def rejectCommon (normalizer : AgentToolNormalizer) (sourceToolCallId : String) (elapsedNs : Nat) :
    Option AgentToolCandidate :=
  if normalizer.terminal then
    some (.sourceGap elapsedNs .activityAfterTurnTerminal (some sourceToolCallId))
  else if sourceToolCallId.isEmpty then
    some (.sourceGap elapsedNs .emptyToolCallId none)
  else
    none

/-- `AgentToolNormalizer::start`. -/
def start (normalizer : AgentToolNormalizer) (sourceToolCallId title : String)
    (toolKind : ToolKind) (status : ToolCallStatus) (elapsedNs : Nat) :
    List AgentToolCandidate × AgentToolNormalizer :=
  match normalizer.rejectCommon sourceToolCallId elapsedNs with
  | some candidate => ([candidate], normalizer)
  | none =>
    if sourceToolCallId ∈ normalizer.openTools then
      ([.sourceGap elapsedNs .duplicateActiveToolCall (some sourceToolCallId)], normalizer)
    else if sourceToolCallId ∈ normalizer.finished then
      ([.sourceGap elapsedNs .finishedToolCallIdReused (some sourceToolCallId)], normalizer)
    else
      let metadata := ⟨sourceToolCallId, title, toolKind, status⟩
      match terminalOutcome metadata.status with
      | some outcome =>
        ([.started elapsedNs metadata, Diagnostics.finished elapsedNs metadata.sourceToolCallId outcome],
          { normalizer with finished := insert metadata.sourceToolCallId normalizer.finished })
      | none =>
        ([.started elapsedNs metadata],
          { normalizer with
            openOrder := normalizer.openOrder ++ [metadata.sourceToolCallId]
            openTools := normalizer.openTools.insert metadata.sourceToolCallId metadata })

/-- `AgentToolNormalizer::update`. -/
def update (normalizer : AgentToolNormalizer) (sourceToolCallId : String) (title : Option String)
    (toolKind : Option ToolKind) (status : Option ToolCallStatus) (elapsedNs : Nat) :
    List AgentToolCandidate × AgentToolNormalizer :=
  match normalizer.rejectCommon sourceToolCallId elapsedNs with
  | some candidate => ([candidate], normalizer)
  | none =>
    if sourceToolCallId ∈ normalizer.finished then
      ([.sourceGap elapsedNs .updateAfterFinish (some sourceToolCallId)], normalizer)
    else
      match normalizer.openTools.lookup sourceToolCallId with
      | none => ([.sourceGap elapsedNs .updateBeforeStart (some sourceToolCallId)], normalizer)
      | some current =>
        let nextStatus := status.getD current.status
        if !validStatusTransition current.status nextStatus then
          ([.sourceGap elapsedNs .invalidStatusTransition (some sourceToolCallId)], normalizer)
        else
          let metadata : AgentToolMetadata :=
            { current with
              title := title.getD current.title
              toolKind := toolKind.getD current.toolKind
              status := nextStatus }
          match terminalOutcome metadata.status with
          | some outcome =>
            ([.updated elapsedNs metadata,
                Diagnostics.finished elapsedNs metadata.sourceToolCallId outcome],
              { normalizer with
                openTools := normalizer.openTools.erase sourceToolCallId
                finished := insert metadata.sourceToolCallId normalizer.finished })
          | none =>
            ([.updated elapsedNs metadata],
              { normalizer with openTools := normalizer.openTools.insert sourceToolCallId metadata })

/-- The loop of `turn_terminal`, over the `open_order` that was taken. -/
def cancel (elapsedNs : Nat) :
    List String → AgentToolNormalizer → List AgentToolCandidate × AgentToolNormalizer
  | [], normalizer => ([], normalizer)
  | sourceToolCallId :: order, normalizer =>
    if sourceToolCallId ∈ normalizer.openTools then
      let (candidates, normalizer) := cancel elapsedNs order
        { normalizer with
          openTools := normalizer.openTools.erase sourceToolCallId
          finished := insert sourceToolCallId normalizer.finished }
      (Diagnostics.finished elapsedNs sourceToolCallId .cancelled :: candidates, normalizer)
    else
      cancel elapsedNs order normalizer

/-- `AgentToolNormalizer::turn_terminal`. -/
def turnTerminal (normalizer : AgentToolNormalizer) (elapsedNs : Nat) :
    List AgentToolCandidate × AgentToolNormalizer :=
  if normalizer.terminal then
    ([.sourceGap elapsedNs .repeatedTurnTerminal none], normalizer)
  else
    cancel elapsedNs normalizer.openOrder { normalizer with terminal := true, openOrder := [] }

/-- `AgentToolNormalizer::observe_session_update`. -/
def observeSessionUpdate (normalizer : AgentToolNormalizer) (sessionUpdate : SessionUpdate)
    (elapsedNs : Nat) : List AgentToolCandidate × AgentToolNormalizer :=
  match sessionUpdate with
  | .toolCall toolCallId title kind status =>
    match normalizeStatus status with
    | none => ([], normalizer)
    | some status => normalizer.start toolCallId title (normalizeToolKind kind) status elapsedNs
  | .toolCallUpdate toolCallId title kind status =>
    match status with
    | some status =>
      match normalizeStatus status with
      | none => ([], normalizer)
      | some status =>
        normalizer.update toolCallId title (kind.map normalizeToolKind) (some status) elapsedNs
    | none => normalizer.update toolCallId title (kind.map normalizeToolKind) none elapsedNs
  | .otherUpdate => ([], normalizer)

/-- A call of the normalizer: an observation, by whichever entry, or the end of the turn. -/
inductive Call where
  /-- `observe_start`, and `observe` of a `Started`. -/
  | start (sourceToolCallId title : String) (toolKind : ToolKind) (status : ToolCallStatus)
  /-- `observe_update_fields`, and `observe` of an `Updated`. -/
  | update (sourceToolCallId : String) (title : Option String) (toolKind : Option ToolKind)
      (status : Option ToolCallStatus)
  /-- `observe_session_update`. -/
  | session (sessionUpdate : SessionUpdate)
  /-- `turn_terminal`. -/
  | terminal

/-- One call, with the clock's reading. -/
def step (normalizer : AgentToolNormalizer) (call : Call × Nat) :
    List AgentToolCandidate × AgentToolNormalizer :=
  match call with
  | (.start sourceToolCallId title toolKind status, elapsedNs) =>
    normalizer.start sourceToolCallId title toolKind status elapsedNs
  | (.update sourceToolCallId title toolKind status, elapsedNs) =>
    normalizer.update sourceToolCallId title toolKind status elapsedNs
  | (.session sessionUpdate, elapsedNs) =>
    normalizer.observeSessionUpdate sessionUpdate elapsedNs
  | (.terminal, elapsedNs) => normalizer.turnTerminal elapsedNs

/-! ## What a call can do -/

/-- All that a call does: nothing, a gap, one step of one tool call, or the end of the turn. -/
inductive Answered (normalizer : AgentToolNormalizer) (call : Call × Nat) :
    List AgentToolCandidate → AgentToolNormalizer → Prop
  | ignored : Answered normalizer call [] normalizer
  | gap (elapsedNs : Nat) (reason : AgentToolSourceGapReason) (sourceToolCallId : Option String) :
      Answered normalizer call [.sourceGap elapsedNs reason sourceToolCallId] normalizer
  | started (elapsedNs : Nat) (metadata : AgentToolMetadata)
      (running : normalizer.terminal = false)
      (fresh : metadata.sourceToolCallId ∉ normalizer.openTools)
      (unfinished : metadata.sourceToolCallId ∉ normalizer.finished) :
      Answered normalizer call [.started elapsedNs metadata]
        { normalizer with
          openOrder := normalizer.openOrder ++ [metadata.sourceToolCallId]
          openTools := normalizer.openTools.insert metadata.sourceToolCallId metadata }
  | startedFinished (elapsedNs : Nat) (metadata : AgentToolMetadata)
      (outcome : AgentToolTerminalOutcome)
      (running : normalizer.terminal = false)
      (fresh : metadata.sourceToolCallId ∉ normalizer.openTools)
      (unfinished : metadata.sourceToolCallId ∉ normalizer.finished) :
      Answered normalizer call
        [.started elapsedNs metadata,
          Diagnostics.finished elapsedNs metadata.sourceToolCallId outcome]
        { normalizer with finished := insert metadata.sourceToolCallId normalizer.finished }
  | updated (elapsedNs : Nat) (sourceToolCallId : String) (current metadata : AgentToolMetadata)
      (running : normalizer.terminal = false)
      (found : normalizer.openTools.lookup sourceToolCallId = some current)
      (same : metadata.sourceToolCallId = current.sourceToolCallId) :
      Answered normalizer call [.updated elapsedNs metadata]
        { normalizer with openTools := normalizer.openTools.insert sourceToolCallId metadata }
  | updatedFinished (elapsedNs : Nat) (sourceToolCallId : String)
      (current metadata : AgentToolMetadata) (outcome : AgentToolTerminalOutcome)
      (running : normalizer.terminal = false)
      (found : normalizer.openTools.lookup sourceToolCallId = some current)
      (same : metadata.sourceToolCallId = current.sourceToolCallId) :
      Answered normalizer call
        [.updated elapsedNs metadata,
          Diagnostics.finished elapsedNs metadata.sourceToolCallId outcome]
        { normalizer with
          openTools := normalizer.openTools.erase sourceToolCallId
          finished := insert metadata.sourceToolCallId normalizer.finished }
  | ended (elapsedNs : Nat) (ending : call.1 = .terminal)
      (running : normalizer.terminal = false) :
      Answered normalizer call
        (cancel elapsedNs normalizer.openOrder
          { normalizer with terminal := true, openOrder := [] }).1
        (cancel elapsedNs normalizer.openOrder
          { normalizer with terminal := true, openOrder := [] }).2

/-- A call that is not rejected comes before the end of the turn. -/
theorem rejectCommon_cases (normalizer : AgentToolNormalizer) (sourceToolCallId : String)
    (elapsedNs : Nat) :
    (∃ reason id, normalizer.rejectCommon sourceToolCallId elapsedNs =
      some (.sourceGap elapsedNs reason id)) ∨
    (normalizer.rejectCommon sourceToolCallId elapsedNs = none ∧ normalizer.terminal = false) := by
  unfold rejectCommon
  by_cases hterminal : normalizer.terminal
  · rw [if_pos hterminal]
    exact .inl ⟨_, _, rfl⟩
  · rw [if_neg hterminal]
    by_cases hempty : sourceToolCallId.isEmpty
    · rw [if_pos hempty]
      exact .inl ⟨_, _, rfl⟩
    · rw [if_neg hempty]
      exact .inr ⟨rfl, Bool.not_eq_true _ ▸ hterminal⟩

theorem start_answered (normalizer : AgentToolNormalizer) (sourceToolCallId title : String)
    (toolKind : ToolKind) (status : ToolCallStatus) (elapsedNs : Nat) (call : Call × Nat) :
    Answered normalizer call (normalizer.start sourceToolCallId title toolKind status elapsedNs).1
      (normalizer.start sourceToolCallId title toolKind status elapsedNs).2 := by
  unfold start
  rcases normalizer.rejectCommon_cases sourceToolCallId elapsedNs with
    ⟨reason, id, hreject⟩ | ⟨hreject, hrunning⟩
  · rw [hreject]
    exact .gap _ _ _
  · rw [hreject]
    dsimp only
    by_cases hopen : sourceToolCallId ∈ normalizer.openTools
    · rw [if_pos hopen]
      exact .gap _ _ _
    · rw [if_neg hopen]
      by_cases hfinished : sourceToolCallId ∈ normalizer.finished
      · rw [if_pos hfinished]
        exact .gap _ _ _
      · rw [if_neg hfinished]
        rcases terminalOutcome status with _ | outcome
        · exact .started elapsedNs ⟨sourceToolCallId, title, toolKind, status⟩ hrunning hopen
            hfinished
        · exact .startedFinished elapsedNs ⟨sourceToolCallId, title, toolKind, status⟩ outcome
            hrunning hopen hfinished

theorem update_answered (normalizer : AgentToolNormalizer) (sourceToolCallId : String)
    (title : Option String) (toolKind : Option ToolKind) (status : Option ToolCallStatus)
    (elapsedNs : Nat) (call : Call × Nat) :
    Answered normalizer call (normalizer.update sourceToolCallId title toolKind status elapsedNs).1
      (normalizer.update sourceToolCallId title toolKind status elapsedNs).2 := by
  unfold update
  rcases normalizer.rejectCommon_cases sourceToolCallId elapsedNs with
    ⟨reason, id, hreject⟩ | ⟨hreject, hrunning⟩
  · rw [hreject]
    exact .gap _ _ _
  · rw [hreject]
    dsimp only
    by_cases hfinished : sourceToolCallId ∈ normalizer.finished
    · rw [if_pos hfinished]
      exact .gap _ _ _
    · rw [if_neg hfinished]
      rcases hfound : normalizer.openTools.lookup sourceToolCallId with _ | current
      · exact .gap _ _ _
      · dsimp only
        by_cases hvalid : !validStatusTransition current.status (status.getD current.status)
        · rw [if_pos hvalid]
          exact .gap _ _ _
        · rw [if_neg hvalid]
          rcases terminalOutcome (status.getD current.status) with _ | outcome
          · exact .updated elapsedNs sourceToolCallId current _ hrunning hfound rfl
          · exact .updatedFinished elapsedNs sourceToolCallId current _ outcome hrunning hfound rfl

/-- **All a call can do.** -/
theorem step_answered (normalizer : AgentToolNormalizer) (call : Call × Nat) :
    Answered normalizer call (normalizer.step call).1 (normalizer.step call).2 := by
  rcases call with ⟨call, elapsedNs⟩
  cases call with
  | start sourceToolCallId title toolKind status => exact start_answered _ _ _ _ _ _ _
  | update sourceToolCallId title toolKind status => exact update_answered _ _ _ _ _ _ _
  | session sessionUpdate =>
    dsimp only [step, observeSessionUpdate]
    cases sessionUpdate with
    | toolCall toolCallId title kind status =>
      rcases hstatus : normalizeStatus status with _ | status' <;> simp only [hstatus]
      · exact .ignored
      · exact start_answered _ _ _ _ _ _ _
    | toolCallUpdate toolCallId title kind status =>
      rcases status with _ | status
      · exact update_answered _ _ _ _ _ _ _
      · rcases hstatus : normalizeStatus status with _ | status' <;> simp only [hstatus]
        · exact .ignored
        · exact update_answered _ _ _ _ _ _ _
    | otherUpdate => exact .ignored
  | terminal =>
    dsimp only [step, turnTerminal]
    by_cases hterminal : normalizer.terminal
    · rw [if_pos hterminal]
      exact .gap _ _ _
    · rw [if_neg hterminal]
      exact .ended elapsedNs rfl (Bool.not_eq_true _ ▸ hterminal)

/-- The loop of the turn's end, over ids that occur once: every open one is finished, in order. -/
theorem cancel_spec (elapsedNs : Nat) {order : List String} (hnodup : order.Nodup)
    (normalizer : AgentToolNormalizer) :
    (cancel elapsedNs order normalizer).1 =
        (order.filter (· ∈ normalizer.openTools)).map
          (Diagnostics.finished elapsedNs · .cancelled) ∧
      (cancel elapsedNs order normalizer).2.terminal = normalizer.terminal ∧
      (cancel elapsedNs order normalizer).2.openOrder = normalizer.openOrder ∧
      (∀ id, (cancel elapsedNs order normalizer).2.openTools.lookup id =
        if id ∈ order then none else normalizer.openTools.lookup id) ∧
      ∀ id, id ∈ (cancel elapsedNs order normalizer).2.finished ↔
        id ∈ normalizer.finished ∨ id ∈ order ∧ id ∈ normalizer.openTools := by
  induction order generalizing normalizer with
  | nil => simp [cancel]
  | cons first order ih =>
    obtain ⟨hfirst, hnodup⟩ := List.nodup_cons.mp hnodup
    unfold cancel
    by_cases hopen : first ∈ normalizer.openTools
    · rw [if_pos hopen]
      obtain ⟨hfacts, hterminal, horder, hlookup, hfinished⟩ := ih hnodup
        { normalizer with
          openTools := normalizer.openTools.erase first
          finished := insert first normalizer.finished }
      refine ⟨?_, hterminal, horder, ?_, ?_⟩
      · have hkept : order.filter (· ∈ normalizer.openTools.erase first) =
            order.filter (· ∈ normalizer.openTools) := by
          refine List.filter_congr fun id hid => ?_
          have hne : id ≠ first := fun h => hfirst (h ▸ hid)
          simp [AList.mem_erase, hne]
        dsimp only at hfacts ⊢
        rw [hfacts, hkept, List.filter_cons_of_pos (by simpa using hopen), List.map_cons]
      · intro id
        rw [hlookup]
        by_cases hid : id = first
        · subst hid
          simp
        · simp [hid, AList.lookup_erase_ne hid]
      · intro id
        rw [hfinished]
        by_cases hid : id = first
        · subst hid
          simp [hopen]
        · simp [hid, AList.mem_erase]
    · rw [if_neg hopen]
      obtain ⟨hfacts, hterminal, horder, hlookup, hfinished⟩ := ih hnodup normalizer
      refine ⟨?_, hterminal, horder, ?_, ?_⟩
      · rw [hfacts, List.filter_cons_of_neg (by simpa using hopen)]
      · intro id
        rw [hlookup]
        by_cases hid : id = first
        · subst hid
          simp [AList.lookup_eq_none.mpr hopen]
        · simp [hid]
      · intro id
        rw [hfinished]
        by_cases hid : id = first
        · subst hid
          simp [hopen]
        · simp [hid]

end AgentToolNormalizer

/-! ## Traces -/

/-- The kinds of fact a tool call has. -/
inductive FactKind where
  | started
  | updated
  | finished
deriving DecidableEq

namespace AgentToolCandidate

/-- The kind of a fact about the call `id`. -/
def kindFor (id : String) : AgentToolCandidate → Option FactKind
  | started _ metadata => if metadata.sourceToolCallId = id then some .started else none
  | updated _ metadata => if metadata.sourceToolCallId = id then some .updated else none
  | finished _ sourceToolCallId _ _ => if sourceToolCallId = id then some .finished else none
  | sourceGap _ _ _ => none

/-- The call a `Started` opens. -/
def startedId : AgentToolCandidate → Option String
  | started _ metadata => some metadata.sourceToolCallId
  | _ => none

/-- A gap. -/
def isGap : AgentToolCandidate → Bool
  | sourceGap _ _ _ => true
  | _ => false

end AgentToolCandidate

/-- The kinds of the facts about the call `id`, in order. -/
def kindsOf (id : String) (facts : List AgentToolCandidate) : List FactKind :=
  facts.filterMap (·.kindFor id)

/-- The calls that were started, in order. -/
def startedIds (facts : List AgentToolCandidate) : List String := facts.filterMap (·.startedId)

/-- How far a tool call is. -/
inductive Phase where
  | idle
  | opened
  | closed
deriving DecidableEq

/-- The facts a call may have next. -/
def Phase.next : Phase → FactKind → Option Phase
  | .idle, .started => some .opened
  | .opened, .updated => some .opened
  | .opened, .finished => some .closed
  | _, _ => none

/-- The kinds that lead from no fact to a phase. -/
def Phase.Trace (kinds : List FactKind) : Phase → Prop
  | .idle => kinds = []
  | .opened => ∃ updates, kinds = .started :: List.replicate updates .updated
  | .closed => ∃ updates, kinds = .started :: (List.replicate updates .updated ++ [.finished])

theorem Phase.Trace.next {kinds : List FactKind} {phase phase' : Phase} {kind : FactKind}
    (h : phase.Trace kinds) (hnext : phase.next kind = some phase') :
    phase'.Trace (kinds ++ [kind]) := by
  cases phase with
  | idle =>
    cases kind <;> cases hnext
    subst h
    exact ⟨0, rfl⟩
  | opened =>
    obtain ⟨updates, rfl⟩ := h
    cases kind <;> cases hnext
    · exact ⟨updates + 1, by rw [List.replicate_succ']; rfl⟩
    · exact ⟨updates, rfl⟩
  | closed => cases kind <;> cases hnext

theorem kindsOf_append (id : String) (facts facts' : List AgentToolCandidate) :
    kindsOf id (facts ++ facts') = kindsOf id facts ++ kindsOf id facts' := List.filterMap_append

theorem startedIds_append (facts facts' : List AgentToolCandidate) :
    startedIds (facts ++ facts') = startedIds facts ++ startedIds facts' := List.filterMap_append

namespace AgentToolNormalizer

/-- How far the call `id` is. -/
def phase (normalizer : AgentToolNormalizer) (id : String) : Phase :=
  if id ∈ normalizer.openTools then .opened
  else if id ∈ normalizer.finished then .closed
  else .idle

/-- The facts so far fit the state. -/
structure Traced (facts : List AgentToolCandidate) (normalizer : AgentToolNormalizer) : Prop where
  keyed : ∀ id metadata, normalizer.openTools.lookup id = some metadata →
    metadata.sourceToolCallId = id
  apart : ∀ id ∈ normalizer.openTools, id ∉ normalizer.finished
  traces : ∀ id, (normalizer.phase id).Trace (kindsOf id facts)
  known : ∀ id ∈ startedIds facts, id ∈ normalizer.openTools ∨ id ∈ normalizer.finished
  nodup : (startedIds facts).Nodup
  inOrder : normalizer.openOrder.Sublist (startedIds facts)
  listed : ∀ id ∈ normalizer.openTools, id ∈ normalizer.openOrder
  settled : normalizer.terminal = true → ∀ id, id ∉ normalizer.openTools

theorem traced_new : Traced [] new where
  keyed id metadata h := by simp [new] at h
  apart id h := by simp [new] at h
  traces id := rfl
  known id h := by simp [startedIds] at h
  nodup := List.nodup_nil
  inOrder := List.Sublist.refl _
  listed id h := by simp [new] at h
  settled h := by simp [new] at h

section

variable {facts : List AgentToolCandidate} {normalizer : AgentToolNormalizer}

theorem phase_of_mem {id : String} (h : id ∈ normalizer.openTools) :
    normalizer.phase id = .opened := if_pos h

theorem phase_of_finished {id : String} (h : id ∉ normalizer.openTools)
    (hfinished : id ∈ normalizer.finished) : normalizer.phase id = .closed := by
  rw [phase, if_neg h, if_pos hfinished]

theorem phase_of_fresh {id : String} (h : id ∉ normalizer.openTools)
    (hfinished : id ∉ normalizer.finished) : normalizer.phase id = .idle := by
  rw [phase, if_neg h, if_neg hfinished]

/-- A fact about another call is none of this one's. -/
theorem kindsOf_other {id : String} {out : List AgentToolCandidate}
    (h : ∀ fact ∈ out, fact.kindFor id = none) : kindsOf id (facts ++ out) = kindsOf id facts := by
  rw [kindsOf_append, kindsOf, kindsOf, List.filterMap_eq_nil_iff.mpr h, List.append_nil]

theorem Traced.not_started (h : Traced facts normalizer) {id : String}
    (hopen : id ∉ normalizer.openTools) (hfinished : id ∉ normalizer.finished) :
    id ∉ startedIds facts := fun hid => (h.known id hid).elim hopen hfinished

/-- Facts that start nothing. -/
theorem startedIds_kept {out : List AgentToolCandidate}
    (hout : startedIds out = []) : startedIds (facts ++ out) = startedIds facts := by
  rw [startedIds_append, hout, List.append_nil]

/-- A new call that stays open. -/
theorem Traced.started (h : Traced facts normalizer) {elapsedNs : Nat}
    {metadata : AgentToolMetadata} (hrunning : normalizer.terminal = false)
    (hfresh : metadata.sourceToolCallId ∉ normalizer.openTools)
    (hunfinished : metadata.sourceToolCallId ∉ normalizer.finished) :
    Traced (facts ++ [.started elapsedNs metadata])
      { normalizer with
        openOrder := normalizer.openOrder ++ [metadata.sourceToolCallId]
        openTools := normalizer.openTools.insert metadata.sourceToolCallId metadata } := by
  have hids : startedIds (facts ++ [.started elapsedNs metadata]) =
      startedIds facts ++ [metadata.sourceToolCallId] := by
    rw [startedIds_append]
    rfl
  have hnew := h.not_started hfresh hunfinished
  refine ⟨?_, ?_, ?_, ?_, ?_, ?_, ?_, ?_⟩
  · intro id found hfound
    by_cases hid : id = metadata.sourceToolCallId
    · subst hid
      rw [AList.lookup_insert, Option.some.injEq] at hfound
      rw [← hfound]
    · rw [AList.lookup_insert_ne hid] at hfound
      exact h.keyed id found hfound
  · intro id hid
    rcases (AList.mem_insert _).mp hid with rfl | hid
    · exact hunfinished
    · exact h.apart id hid
  · intro id
    by_cases hid : id = metadata.sourceToolCallId
    · subst hid
      have htrace := h.traces metadata.sourceToolCallId
      rw [phase_of_fresh hfresh hunfinished] at htrace
      rw [phase_of_mem ((AList.mem_insert _).mpr (.inl rfl)), kindsOf_append]
      have hkinds : kindsOf metadata.sourceToolCallId [.started elapsedNs metadata] =
          [.started] := by simp [kindsOf, AgentToolCandidate.kindFor]
      rw [hkinds]
      exact htrace.next rfl
    · rw [kindsOf_other (by simp [AgentToolCandidate.kindFor, Ne.symm hid])]
      have htrace := h.traces id
      unfold phase at htrace ⊢
      simpa only [AList.mem_insert, hid, false_or] using htrace
  · intro id hid
    rw [hids, List.mem_append, List.mem_singleton] at hid
    rcases hid with hid | rfl
    · exact (h.known id hid).imp_left fun hopen => (AList.mem_insert _).mpr (.inr hopen)
    · exact .inl ((AList.mem_insert _).mpr (.inl rfl))
  · rw [hids]
    exact List.nodup_append.mpr ⟨h.nodup, List.nodup_singleton _, fun id hid other hother heq =>
      hnew (by rwa [← List.mem_singleton.mp hother, ← heq])⟩
  · rw [hids]
    exact h.inOrder.append (List.Sublist.refl _)
  · intro id hid
    rcases (AList.mem_insert _).mp hid with rfl | hid
    · exact List.mem_append_right _ (List.mem_singleton_self _)
    · exact List.mem_append_left _ (h.listed id hid)
  · intro hterminal
    exact absurd (hrunning.symm.trans hterminal) Bool.false_ne_true

/-- A new call that is over at once. -/
theorem Traced.startedFinished (h : Traced facts normalizer) {elapsedNs : Nat}
    {metadata : AgentToolMetadata} {outcome : AgentToolTerminalOutcome}
    (hrunning : normalizer.terminal = false)
    (hfresh : metadata.sourceToolCallId ∉ normalizer.openTools)
    (hunfinished : metadata.sourceToolCallId ∉ normalizer.finished) :
    Traced (facts ++ [.started elapsedNs metadata,
        Diagnostics.finished elapsedNs metadata.sourceToolCallId outcome])
      { normalizer with finished := insert metadata.sourceToolCallId normalizer.finished } := by
  have hids : startedIds (facts ++ [.started elapsedNs metadata,
      Diagnostics.finished elapsedNs metadata.sourceToolCallId outcome]) =
        startedIds facts ++ [metadata.sourceToolCallId] := by
    rw [startedIds_append]
    rfl
  have hnew := h.not_started hfresh hunfinished
  refine ⟨h.keyed, ?_, ?_, ?_, ?_, ?_, h.listed, ?_⟩
  · intro id hid hfinished
    rcases Finset.mem_insert.mp hfinished with rfl | hfinished
    · exact hfresh hid
    · exact h.apart id hid hfinished
  · intro id
    by_cases hid : id = metadata.sourceToolCallId
    · subst hid
      have htrace := h.traces metadata.sourceToolCallId
      rw [phase_of_fresh hfresh hunfinished] at htrace
      have hkinds : kindsOf metadata.sourceToolCallId [.started elapsedNs metadata,
          Diagnostics.finished elapsedNs metadata.sourceToolCallId outcome] =
            [.started, .finished] := by
        simp [kindsOf, AgentToolCandidate.kindFor, Diagnostics.finished]
      have hphase : phase ⟨normalizer.openTools, normalizer.openOrder,
          insert metadata.sourceToolCallId normalizer.finished, normalizer.terminal⟩
            metadata.sourceToolCallId = .closed :=
        phase_of_finished hfresh (Finset.mem_insert_self _ _)
      rw [hphase, kindsOf_append, hkinds]
      have hopened := htrace.next (rfl : Phase.idle.next .started = some .opened)
      have hclosed := hopened.next (rfl : Phase.opened.next .finished = some .closed)
      rwa [List.append_assoc] at hclosed
    · rw [kindsOf_other
        (by simp [AgentToolCandidate.kindFor, Diagnostics.finished, Ne.symm hid])]
      have htrace := h.traces id
      unfold phase at htrace ⊢
      simpa only [Finset.mem_insert, hid, false_or] using htrace
  · intro id hid
    rw [hids, List.mem_append, List.mem_singleton] at hid
    rcases hid with hid | rfl
    · exact (h.known id hid).imp_right fun hfinished => Finset.mem_insert_of_mem hfinished
    · exact .inr (Finset.mem_insert_self _ _)
  · rw [hids]
    exact List.nodup_append.mpr ⟨h.nodup, List.nodup_singleton _, fun id hid other hother heq =>
      hnew (by rwa [← List.mem_singleton.mp hother, ← heq])⟩
  · rw [hids]
    exact h.inOrder.trans (List.sublist_append_left _ _)
  · intro hterminal
    exact absurd (hrunning.symm.trans hterminal) Bool.false_ne_true

/-- An open call that stays open. -/
theorem Traced.updated (h : Traced facts normalizer) {elapsedNs : Nat} {sourceToolCallId : String}
    {current metadata : AgentToolMetadata} (hrunning : normalizer.terminal = false)
    (hfound : normalizer.openTools.lookup sourceToolCallId = some current)
    (hsame : metadata.sourceToolCallId = current.sourceToolCallId) :
    Traced (facts ++ [.updated elapsedNs metadata])
      { normalizer with openTools := normalizer.openTools.insert sourceToolCallId metadata } := by
  have hkey : metadata.sourceToolCallId = sourceToolCallId :=
    hsame.trans (h.keyed _ _ hfound)
  have hopen : sourceToolCallId ∈ normalizer.openTools :=
    AList.lookup_isSome.mp (by rw [hfound]; rfl)
  have hmem : ∀ id, id ∈ normalizer.openTools.insert sourceToolCallId metadata ↔
      id ∈ normalizer.openTools := by
    intro id
    rw [AList.mem_insert, or_iff_right_of_imp]
    rintro rfl
    exact hopen
  have hids : startedIds (facts ++ [.updated elapsedNs metadata]) = startedIds facts := startedIds_kept rfl
  refine ⟨?_, fun id hid => h.apart id ((hmem id).mp hid), ?_, ?_, ?_, ?_, ?_, ?_⟩
  · intro id found hlookup
    by_cases hid : id = sourceToolCallId
    · subst hid
      rw [AList.lookup_insert, Option.some.injEq] at hlookup
      rw [← hlookup, hkey]
    · rw [AList.lookup_insert_ne hid] at hlookup
      exact h.keyed id found hlookup
  · intro id
    have htrace := h.traces id
    by_cases hid : id = sourceToolCallId
    · subst hid
      rw [phase_of_mem hopen] at htrace
      have hkinds : kindsOf id [.updated elapsedNs metadata] = [.updated] := by
        simp [kindsOf, AgentToolCandidate.kindFor, hkey]
      rw [phase_of_mem ((hmem id).mpr hopen), kindsOf_append, hkinds]
      exact htrace.next rfl
    · rw [kindsOf_other (by simp [AgentToolCandidate.kindFor, hkey, Ne.symm hid])]
      unfold phase at htrace ⊢
      simpa only [hmem] using htrace
  · intro id hid
    rw [hids] at hid
    exact (h.known id hid).imp_left (hmem id).mpr
  · rw [hids]
    exact h.nodup
  · rw [hids]
    exact h.inOrder
  · exact fun id hid => h.listed id ((hmem id).mp hid)
  · intro hterminal
    exact absurd (hrunning.symm.trans hterminal) Bool.false_ne_true

/-- An open call that is over. -/
theorem Traced.updatedFinished (h : Traced facts normalizer) {elapsedNs : Nat}
    {sourceToolCallId : String} {current metadata : AgentToolMetadata}
    {outcome : AgentToolTerminalOutcome} (hrunning : normalizer.terminal = false)
    (hfound : normalizer.openTools.lookup sourceToolCallId = some current)
    (hsame : metadata.sourceToolCallId = current.sourceToolCallId) :
    Traced (facts ++ [.updated elapsedNs metadata,
        Diagnostics.finished elapsedNs metadata.sourceToolCallId outcome])
      { normalizer with
        openTools := normalizer.openTools.erase sourceToolCallId
        finished := insert metadata.sourceToolCallId normalizer.finished } := by
  have hkey : metadata.sourceToolCallId = sourceToolCallId :=
    hsame.trans (h.keyed _ _ hfound)
  have hopen : sourceToolCallId ∈ normalizer.openTools :=
    AList.lookup_isSome.mp (by rw [hfound]; rfl)
  have hids : startedIds (facts ++ [.updated elapsedNs metadata,
      Diagnostics.finished elapsedNs metadata.sourceToolCallId outcome]) = startedIds facts :=
    startedIds_kept rfl
  rw [hkey] at hids ⊢
  refine ⟨?_, ?_, ?_, ?_, ?_, ?_, ?_, ?_⟩
  · intro id found hlookup
    by_cases hid : id = sourceToolCallId
    · subst hid
      rw [AList.lookup_erase] at hlookup
      cases hlookup
    · rw [AList.lookup_erase_ne hid] at hlookup
      exact h.keyed id found hlookup
  · intro id hid hfinished
    obtain ⟨hne, hid⟩ := AList.mem_erase.mp hid
    rcases Finset.mem_insert.mp hfinished with heq | hfinished
    · exact hne heq
    · exact h.apart id hid hfinished
  · intro id
    have htrace := h.traces id
    by_cases hid : id = sourceToolCallId
    · subst hid
      rw [phase_of_mem hopen] at htrace
      have hkinds : kindsOf id [.updated elapsedNs metadata,
          Diagnostics.finished elapsedNs id outcome] = [.updated, .finished] := by
        simp [kindsOf, AgentToolCandidate.kindFor, Diagnostics.finished, hkey]
      rw [phase_of_finished (fun hmem => (AList.mem_erase.mp hmem).1 rfl)
        (Finset.mem_insert_self _ _), kindsOf_append, hkinds]
      have hopened := htrace.next (rfl : Phase.opened.next .updated = some .opened)
      have hclosed := hopened.next (rfl : Phase.opened.next .finished = some .closed)
      rwa [List.append_assoc] at hclosed
    · rw [kindsOf_other
        (by simp [AgentToolCandidate.kindFor, Diagnostics.finished, hkey, Ne.symm hid])]
      unfold phase at htrace ⊢
      simpa [AList.mem_erase, hid] using htrace
  · intro id hid
    rw [hids] at hid
    by_cases heq : id = sourceToolCallId
    · subst heq
      exact .inr (Finset.mem_insert_self _ _)
    · exact (h.known id hid).imp (fun hmem => AList.mem_erase.mpr ⟨heq, hmem⟩)
        Finset.mem_insert_of_mem
  · rw [hids]
    exact h.nodup
  · rw [hids]
    exact h.inOrder
  · exact fun id hid => h.listed id (AList.mem_erase.mp hid).2
  · intro hterminal
    exact absurd (hrunning.symm.trans hterminal) Bool.false_ne_true

/-- The facts of the turn's end: one for each call in the list. -/
theorem kindsOf_finished (elapsedNs : Nat) {ids : List String} (hnodup : ids.Nodup) (id : String) :
    kindsOf id (ids.map (Diagnostics.finished elapsedNs · .cancelled)) =
      if id ∈ ids then [.finished] else [] := by
  induction ids with
  | nil => rfl
  | cons first ids ih =>
    obtain ⟨hfirst, hnodup⟩ := List.nodup_cons.mp hnodup
    have hrest := ih hnodup
    by_cases hid : first = id
    · subst hid
      rw [if_neg hfirst] at hrest
      rw [if_pos List.mem_cons_self, List.map_cons, kindsOf, List.filterMap_cons, ← kindsOf, hrest]
      simp [AgentToolCandidate.kindFor, Diagnostics.finished]
    · simp only [List.map_cons, kindsOf, List.filterMap_cons, List.mem_cons, Ne.symm hid, false_or]
      simpa [AgentToolCandidate.kindFor, Diagnostics.finished, hid, kindsOf] using hrest

/-- The end of the turn. -/
theorem Traced.ended (h : Traced facts normalizer) (elapsedNs : Nat) :
    Traced
      (facts ++ (cancel elapsedNs normalizer.openOrder
        { normalizer with terminal := true, openOrder := [] }).1)
      (cancel elapsedNs normalizer.openOrder
        { normalizer with terminal := true, openOrder := [] }).2 := by
  obtain ⟨hfacts, -, horder, hlookup, hfinished⟩ :=
    cancel_spec elapsedNs (h.inOrder.nodup h.nodup)
      { normalizer with terminal := true, openOrder := [] }
  generalize cancel elapsedNs normalizer.openOrder
    { normalizer with terminal := true, openOrder := [] } = result at hfacts horder hlookup hfinished ⊢
  dsimp only at hfacts horder hlookup hfinished
  have hnone : ∀ id, id ∉ result.2.openTools := by
    intro id
    rw [← AList.lookup_eq_none, hlookup]
    by_cases hid : id ∈ normalizer.openOrder
    · exact if_pos hid
    · rw [if_neg hid, AList.lookup_eq_none]
      exact fun hopen => hid (h.listed id hopen)
  have hids : startedIds (facts ++ result.1) = startedIds facts := by
    refine startedIds_kept ?_
    rw [hfacts, startedIds, List.filterMap_map]
    exact List.filterMap_eq_nil_iff.mpr fun _ _ => rfl
  have hfinished' : ∀ id, id ∈ result.2.finished ↔
      id ∈ normalizer.finished ∨ id ∈ normalizer.openTools := by
    intro id
    rw [hfinished, and_iff_right_of_imp (h.listed id)]
  refine ⟨?_, fun id hid => absurd hid (hnone id), ?_, ?_, ?_, ?_, ?_, fun _ => hnone⟩
  · intro id found hfound
    rw [AList.lookup_eq_none.mpr (hnone id)] at hfound
    cases hfound
  · intro id
    have htrace := h.traces id
    rw [kindsOf_append, hfacts, kindsOf_finished elapsedNs ((h.inOrder.nodup h.nodup).filter _)]
    by_cases hopen : id ∈ normalizer.openTools
    · rw [if_pos (List.mem_filter.mpr ⟨h.listed id hopen, by simpa using hopen⟩),
        phase_of_finished (hnone id) ((hfinished' id).mpr (.inr hopen))]
      rw [phase_of_mem hopen] at htrace
      exact htrace.next rfl
    · rw [if_neg (fun hmem => hopen (by simpa using (List.mem_filter.mp hmem).2)),
        List.append_nil]
      have hphase : result.2.phase id = normalizer.phase id := by
        unfold phase
        simp [hnone, hopen, hfinished']
      rwa [hphase]
  · intro id hid
    rw [hids] at hid
    exact .inr ((hfinished' id).mpr (h.known id hid).symm)
  · rw [hids]
    exact h.nodup
  · rw [horder]
    exact List.nil_sublist _
  · exact fun id hid => absurd hid (hnone id)

/-- A fact that is a gap belongs to no call. -/
theorem Traced.gap (h : Traced facts normalizer) (elapsedNs : Nat)
    (reason : AgentToolSourceGapReason) (sourceToolCallId : Option String) :
    Traced (facts ++ [.sourceGap elapsedNs reason sourceToolCallId]) normalizer := by
  have hids : startedIds (facts ++ [.sourceGap elapsedNs reason sourceToolCallId]) =
      startedIds facts := startedIds_kept rfl
  refine ⟨h.keyed, h.apart, fun id => ?_, ?_, ?_, ?_, h.listed, h.settled⟩
  · rw [kindsOf_other (by simp [AgentToolCandidate.kindFor])]
    exact h.traces id
  · rw [hids]
    exact h.known
  · rw [hids]
    exact h.nodup
  · rw [hids]
    exact h.inOrder

theorem Traced.step (h : Traced facts normalizer) (call : Call × Nat) :
    Traced (facts ++ (normalizer.step call).1) (normalizer.step call).2 := by
  have hanswered := normalizer.step_answered call
  generalize normalizer.step call = result at hanswered ⊢
  rcases result with ⟨out, normalizer'⟩
  cases hanswered with
  | ignored => rwa [List.append_nil]
  | gap elapsedNs reason id => exact h.gap elapsedNs reason id
  | started _ _ running fresh unfinished => exact h.started running fresh unfinished
  | startedFinished _ _ _ running fresh unfinished => exact h.startedFinished running fresh unfinished
  | updated _ _ _ _ running found same => exact h.updated running found same
  | updatedFinished _ _ _ _ _ running found same => exact h.updatedFinished running found same
  | ended elapsedNs => exact h.ended elapsedNs

/-- After any calls the facts fit the state. -/
theorem traced_emit (calls : List (Call × Nat)) :
    Traced (emit AgentToolNormalizer.step new calls).1 (emit AgentToolNormalizer.step new calls).2 :=
  emit_reaches (p := Traced) (fun _ _ call h => h.step call) traced_new calls

/-- After the end of the turn a call changes nothing and emits gaps only. -/
theorem step_of_terminal (hterminal : normalizer.terminal = true) (call : Call × Nat) :
    (normalizer.step call).2 = normalizer ∧
      ∀ fact ∈ (normalizer.step call).1, fact.isGap = true := by
  have hanswered := normalizer.step_answered call
  generalize normalizer.step call = result at hanswered ⊢
  rcases result with ⟨out, normalizer'⟩
  have hrunning : ∀ {p : Prop}, normalizer.terminal = false → p :=
    fun h => absurd (h.symm.trans hterminal) Bool.false_ne_true
  cases hanswered with
  | ignored => exact ⟨rfl, List.forall_mem_nil _⟩
  | gap elapsedNs reason id => exact ⟨rfl, List.forall_mem_singleton.mpr rfl⟩
  | started _ _ running => exact hrunning running
  | startedFinished _ _ _ running => exact hrunning running
  | updated _ _ _ _ running => exact hrunning running
  | updatedFinished _ _ _ _ _ running => exact hrunning running
  | ended _ _ running => exact hrunning running

/-- Nor do any calls. -/
theorem emit_of_terminal (hterminal : normalizer.terminal = true) (calls : List (Call × Nat)) :
    (emit AgentToolNormalizer.step normalizer calls).2 = normalizer ∧
      ∀ fact ∈ (emit AgentToolNormalizer.step normalizer calls).1, fact.isGap = true := by
  have hstep : ∀ (facts : List AgentToolCandidate) (state : AgentToolNormalizer)
      (call : Call × Nat), (state = normalizer ∧ ∀ fact ∈ facts, fact.isGap = true) →
      ((state.step call).2 = normalizer ∧
        ∀ fact ∈ facts ++ (state.step call).1, fact.isGap = true) := by
    rintro facts state call ⟨rfl, hfacts⟩
    obtain ⟨hstate, hout⟩ := step_of_terminal hterminal call
    exact ⟨hstate, fun fact hfact => (List.mem_append.mp hfact).elim (hfacts fact) (hout fact)⟩
  exact emit_reaches hstep ⟨rfl, List.forall_mem_nil _⟩ calls

theorem cancel_terminal (elapsedNs : Nat) (order : List String) (normalizer : AgentToolNormalizer) :
    (cancel elapsedNs order normalizer).2.terminal = normalizer.terminal := by
  induction order generalizing normalizer with
  | nil => rfl
  | cons first order ih =>
    unfold cancel
    by_cases hopen : first ∈ normalizer.openTools
    · rw [if_pos hopen]
      exact ih _
    · rw [if_neg hopen]
      exact ih normalizer

/-- The turn ends by `turn_terminal` only. -/
theorem step_running {call : Call × Nat} (hcall : call.1 ≠ .terminal) :
    (normalizer.step call).2.terminal = normalizer.terminal := by
  have hanswered := normalizer.step_answered call
  generalize normalizer.step call = result at hanswered ⊢
  rcases result with ⟨out, normalizer'⟩
  cases hanswered with
  | ended _ ending => exact absurd ending hcall
  | _ => rfl

theorem emit_running {calls : List (Call × Nat)} (hcalls : ∀ call ∈ calls, call.1 ≠ .terminal) :
    (emit AgentToolNormalizer.step normalizer calls).2.terminal = normalizer.terminal := by
  induction calls generalizing normalizer with
  | nil => rfl
  | cons call calls ih =>
    obtain ⟨hcall, hcalls⟩ := List.forall_mem_cons.mp hcalls
    exact (ih hcalls).trans (step_running hcall)

/-- After `turn_terminal` the turn has ended. -/
theorem step_terminal (elapsedNs : Nat) :
    (normalizer.step (.terminal, elapsedNs)).2.terminal = true := by
  dsimp only [step, turnTerminal]
  by_cases hterminal : normalizer.terminal
  · rw [if_pos hterminal]
    exact hterminal
  · rw [if_neg hterminal]
    exact cancel_terminal _ _ _

theorem cancel_no_gap (elapsedNs : Nat) (order : List String) (normalizer : AgentToolNormalizer) :
    ∀ fact ∈ (cancel elapsedNs order normalizer).1, fact.isGap = false := by
  induction order generalizing normalizer with
  | nil => exact List.forall_mem_nil _
  | cons first order ih =>
    unfold cancel
    by_cases hopen : first ∈ normalizer.openTools
    · rw [if_pos hopen]
      exact List.forall_mem_cons.mpr ⟨rfl, ih _⟩
    · rw [if_neg hopen]
      exact ih normalizer

/-- A call answered with a gap changes nothing, and the gap is its only fact. -/
theorem step_of_gap {call : Call × Nat} {fact : AgentToolCandidate}
    (hfact : fact ∈ (normalizer.step call).1) (hgap : fact.isGap = true) :
    (normalizer.step call) = ([fact], normalizer) := by
  have hanswered := normalizer.step_answered call
  generalize normalizer.step call = result at hanswered hfact ⊢
  rcases result with ⟨out, normalizer'⟩
  dsimp only at hfact
  cases hanswered with
  | ignored => exact absurd hfact List.not_mem_nil
  | gap elapsedNs reason id => rw [List.mem_singleton.mp hfact]
  | started =>
    rw [List.mem_singleton.mp hfact] at hgap
    cases hgap
  | startedFinished =>
    rcases List.mem_cons.mp hfact with rfl | hfact
    · cases hgap
    · rw [List.mem_singleton.mp hfact] at hgap
      cases hgap
  | updated =>
    rw [List.mem_singleton.mp hfact] at hgap
    cases hgap
  | updatedFinished =>
    rcases List.mem_cons.mp hfact with rfl | hfact
    · cases hgap
    · rw [List.mem_singleton.mp hfact] at hgap
      cases hgap
  | ended elapsedNs _ running =>
    rw [cancel_no_gap elapsedNs _ _ fact hfact] at hgap
    cases hgap

/-- Filtering a list by what one of its sublists has is filtering that sublist. -/
theorem filter_of_sublist {ids all : List String} (hsub : ids.Sublist all) (hnodup : all.Nodup)
    (hlisted : ∀ id ∈ normalizer.openTools, id ∈ ids) :
    ids.filter (· ∈ normalizer.openTools) = all.filter (· ∈ normalizer.openTools) := by
  refine (hsub.filter _).eq_of_length_le ?_
  refine (List.subperm_of_subset (hnodup.filter _) ?_).length_le
  intro id hid
  obtain ⟨-, hopen⟩ := List.mem_filter.mp hid
  exact List.mem_filter.mpr ⟨hlisted id (by simpa using hopen), hopen⟩

/-- The first end of the turn finishes the calls that have no `Finished` yet, in the order in which
they were started. -/
theorem ended_facts (calls : List (Call × Nat)) (elapsedNs : Nat)
    (hrunning : (emit AgentToolNormalizer.step new calls).2.terminal = false) :
    ((emit AgentToolNormalizer.step new calls).2.step (.terminal, elapsedNs)).1 =
      ((startedIds (emit AgentToolNormalizer.step new calls).1).filter fun id =>
        .finished ∉ kindsOf id (emit AgentToolNormalizer.step new calls).1).map
          (Diagnostics.finished elapsedNs · .cancelled) := by
  have h := traced_emit calls
  generalize emit AgentToolNormalizer.step new calls = result at h hrunning ⊢
  rcases result with ⟨facts, normalizer⟩
  dsimp only at h hrunning ⊢
  obtain ⟨hfacts, -⟩ := cancel_spec elapsedNs (h.inOrder.nodup h.nodup)
    { normalizer with terminal := true, openOrder := [] }
  have hended : (normalizer.step (.terminal, elapsedNs)).1 =
      (cancel elapsedNs normalizer.openOrder
        { normalizer with terminal := true, openOrder := [] }).1 := by
    dsimp only [step, turnTerminal]
    rw [hrunning]
    rfl
  rw [hended, hfacts]
  congr 1
  have hopen : ∀ id ∈ startedIds facts,
      (.finished ∉ kindsOf id facts ↔ id ∈ normalizer.openTools) := by
    intro id hid
    have htrace := h.traces id
    by_cases hmem : id ∈ normalizer.openTools
    · rw [phase_of_mem hmem] at htrace
      obtain ⟨updates, htrace⟩ := htrace
      simp [htrace, hmem, List.mem_replicate]
    · rw [phase_of_finished hmem ((h.known id hid).resolve_left hmem)] at htrace
      obtain ⟨updates, htrace⟩ := htrace
      simp [htrace, hmem]
  have hfilter : (startedIds facts).filter (fun id => .finished ∉ kindsOf id facts) =
      (startedIds facts).filter (· ∈ normalizer.openTools) :=
    List.filter_congr fun id hid => decide_eq_decide.mpr (hopen id hid)
  rw [hfilter]
  exact filter_of_sublist h.inOrder h.nodup h.listed

end

/-- A trace of facts about one call: none, or one `Started`, some `Updated`s and, once it is over, one
`Finished`. -/
def Lawful (kinds : List FactKind) (isOver : Bool) : Prop :=
  kinds = [] ∨ ∃ updates, kinds =
    .started :: (List.replicate updates .updated ++ if isOver then [.finished] else [])

theorem Traced.lawful {facts : List AgentToolCandidate} {normalizer : AgentToolNormalizer}
    (h : Traced facts normalizer) (id : String) :
    Lawful (kindsOf id facts) (decide (id ∉ normalizer.openTools)) := by
  have htrace := h.traces id
  by_cases hopen : id ∈ normalizer.openTools
  · rw [phase_of_mem hopen] at htrace
    obtain ⟨updates, htrace⟩ := htrace
    exact .inr ⟨updates, by simpa [hopen] using htrace⟩
  · by_cases hfinished : id ∈ normalizer.finished
    · rw [phase_of_finished hopen hfinished] at htrace
      obtain ⟨updates, htrace⟩ := htrace
      exact .inr ⟨updates, by simpa [hopen] using htrace⟩
    · rw [phase_of_fresh hopen hfinished] at htrace
      exact .inl htrace

/-- The start of a new call is told, and an update of an open one, unless its status cannot follow. -/
structure Tells (facts : List AgentToolCandidate) (normalizer : AgentToolNormalizer) : Prop where
  starts : ∀ id title toolKind status elapsedNs, id ≠ "" → kindsOf id facts = [] →
    (normalizer.step (.start id title toolKind status, elapsedNs)).1.head? =
      some (.started elapsedNs ⟨id, title, toolKind, status⟩)
  updates : ∀ id title toolKind status elapsedNs, id ≠ "" → .started ∈ kindsOf id facts →
    .finished ∉ kindsOf id facts →
    (normalizer.step (.update id title toolKind status, elapsedNs)).1 =
        [.sourceGap elapsedNs .invalidStatusTransition (some id)] ∨
      ∃ fact ∈ (normalizer.step (.update id title toolKind status, elapsedNs)).1,
        fact.kindFor id = some .updated

theorem Traced.tells {facts : List AgentToolCandidate} {normalizer : AgentToolNormalizer}
    (h : Traced facts normalizer) (hrunning : normalizer.terminal = false) :
    Tells facts normalizer := by
  have haccepted (id : String) (elapsedNs : Nat) (hid : id ≠ "") :
      normalizer.rejectCommon id elapsedNs = none := by simp [rejectCommon, hrunning, hid]
  constructor
  · intro id title toolKind status elapsedNs hid hnone
    have htrace := h.traces id
    unfold phase at htrace
    split at htrace
    · obtain ⟨updates, htrace⟩ := htrace
      rw [hnone] at htrace
      cases htrace
    split at htrace
    · obtain ⟨updates, htrace⟩ := htrace
      rw [hnone] at htrace
      cases htrace
    · rename_i hopen hfinished
      dsimp only [AgentToolNormalizer.step]
      rw [start, haccepted id elapsedNs hid, if_neg hopen, if_neg hfinished]
      dsimp only
      cases terminalOutcome status <;> rfl
  · intro id title toolKind status elapsedNs hid hstarted hunfinished
    have hopen : id ∈ normalizer.openTools := by
      have htrace := h.traces id
      unfold phase at htrace
      split at htrace
      · assumption
      split at htrace
      · obtain ⟨updates, htrace⟩ := htrace
        simp [htrace] at hunfinished
      · rw [show kindsOf id facts = [] from htrace] at hstarted
        cases hstarted
    obtain ⟨current, hcurrent⟩ := Option.isSome_iff_exists.mp (AList.lookup_isSome.mpr hopen)
    dsimp only [AgentToolNormalizer.step]
    rw [update, haccepted id elapsedNs hid, if_neg (h.apart id hopen), hcurrent]
    dsimp only
    split
    · exact .inl rfl
    · refine .inr ?_
      cases terminalOutcome (status.getD current.status) <;>
        exact ⟨_, List.mem_cons_self, if_pos (h.keyed id current hcurrent)⟩

/-- **The facts of a turn are well-formed call traces.** For any calls: every id's facts are a
`Started`, `Updated`s and at most one `Finished`, which stands at the end. A call answered with a gap
changes nothing; until the end of the turn, what fits a call's trace is told. The end of the turn finishes exactly the calls without a `Finished`, in the order of
their `Started`s, after which every started call has one; and calls after it emit gaps only. -/
theorem tool_traces (calls : List (Call × Nat)) :
    (∀ id, ∃ isOver, Lawful (kindsOf id (emit step new calls).1) isOver) ∧
    (∀ call, ∀ fact ∈ ((emit step new calls).2.step call).1, fact.isGap = true →
      (emit step new calls).2.step call = ([fact], (emit step new calls).2)) ∧
    ((∀ call ∈ calls, call.1 ≠ .terminal) →
      Tells (emit step new calls).1 (emit step new calls).2) ∧
    ∀ elapsedNs : Nat,
      ((∀ call ∈ calls, call.1 ≠ .terminal) →
        ((emit step new calls).2.step (.terminal, elapsedNs)).1 =
          ((startedIds (emit step new calls).1).filter fun id =>
            .finished ∉ kindsOf id (emit step new calls).1).map
              (Diagnostics.finished elapsedNs · .cancelled)) ∧
      (∀ id, Lawful (kindsOf id (emit step new (calls ++ [(.terminal, elapsedNs)])).1) true) ∧
      ∀ later, ∀ fact ∈
        (emit step (emit step new (calls ++ [(.terminal, elapsedNs)])).2 later).1,
          fact.isGap = true := by
  refine ⟨fun id => ⟨_, (traced_emit calls).lawful id⟩,
    fun call fact hfact hgap => step_of_gap hfact hgap,
    fun hcalls => (traced_emit calls).tells (emit_running hcalls), fun elapsedNs => ?_⟩
  have hended : (emit step new (calls ++ [(.terminal, elapsedNs)])).2.terminal = true := by
    rw [emit_append, emit_singleton]
    exact step_terminal elapsedNs
  refine ⟨fun hcalls => ended_facts calls elapsedNs (emit_running hcalls), fun id => ?_,
    fun later => (emit_of_terminal hended later).2⟩
  have htraced := traced_emit (calls ++ [(.terminal, elapsedNs)])
  have hlawful := htraced.lawful id
  rwa [decide_eq_true (htraced.settled hended id)] at hlawful

/-- Two calls, the first of which completes, and an update of a call that never started. -/
def shownCalls : List (Call × Nat) :=
  [(.start "read" "Read" .read .pending, 1), (.start "edit" "Edit" .edit .inProgress, 2),
    (.update "read" none none (some .completed), 3), (.update "move" none none none, 4)]

/-- At the end of that turn the second call is cancelled. -/
theorem tool_traces_cancelled :
    ((emit step new shownCalls).2.step (.terminal, 5)).1 =
      [.finished 5 "edit" .cancelled none] :=
  ((tool_traces shownCalls).2.2.2 5).1 (by simp [shownCalls])

end AgentToolNormalizer

end Troupe.Agent.Diagnostics
