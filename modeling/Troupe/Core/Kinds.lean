/-! # Closed enumerations

The enumerations of `kinds.rs`, and `DiagnosticEventKind` of `event.rs`, with the wire name `as_str`
gives each member. -/

namespace Troupe.Core

/-- `closed_string_enum!`: an enumeration with the wire name of each member. -/
class ClosedStringEnum (α : Type) where
  asStr : α → String
  /-- `ALL`, for the enumerations that have one. -/
  all : List α
  mem_all : ∀ value, value ∈ all := by intro value; cases value <;> decide
  /-- The names are distinct. -/
  nodup : (all.map asStr).Nodup := by decide +kernel

/-- `CausalRelation`. -/
inductive CausalRelation where
  | dispatch
  | return
  | handoff
  | retry
  | followsFrom
deriving DecidableEq

/-- `CausalRelation::as_str`. -/
def CausalRelation.asStr : CausalRelation → String
  | .dispatch => "dispatch"
  | .return => "return"
  | .handoff => "handoff"
  | .retry => "retry"
  | .followsFrom => "follows_from"

instance : ClosedStringEnum CausalRelation where
  asStr := CausalRelation.asStr
  all := [.dispatch, .return, .handoff, .retry, .followsFrom]

/-- `SpanKind`. -/
inductive SpanKind where
  | runLifecycle
  | productionPathResolution
  | productionLoad
  | productionConstruct
  | productionStart
  | productionStop
  | productionShutdown
  | sceneLifecycle
  | sceneDrain
  | sceneCleanup
  | actorHandleLifetime
  | cueMailboxWait
  | cueExecution
  | effectLifecycle
  | agentSessionOpening
  | agentSessionLifecycle
  | agentSessionClosing
  | actLifecycle
  | actCaller
  | agentTurn
  | agentThinking
  | toolCall
deriving DecidableEq

/-- `SpanKind::as_str`. -/
def SpanKind.asStr : SpanKind → String
  | .runLifecycle => "run.lifecycle"
  | .productionPathResolution => "production.path_resolution"
  | .productionLoad => "production.load"
  | .productionConstruct => "production.construct"
  | .productionStart => "production.start"
  | .productionStop => "production.stop"
  | .productionShutdown => "production.shutdown"
  | .sceneLifecycle => "scene.lifecycle"
  | .sceneDrain => "scene.drain"
  | .sceneCleanup => "scene.cleanup"
  | .actorHandleLifetime => "actor.handle_lifetime"
  | .cueMailboxWait => "cue.mailbox_wait"
  | .cueExecution => "cue.execution"
  | .effectLifecycle => "effect.lifecycle"
  | .agentSessionOpening => "agent.session.opening"
  | .agentSessionLifecycle => "agent.session.lifecycle"
  | .agentSessionClosing => "agent.session.closing"
  | .actLifecycle => "act.lifecycle"
  | .actCaller => "act.caller"
  | .agentTurn => "agent.turn"
  | .agentThinking => "agent.thinking"
  | .toolCall => "tool.call"

instance : ClosedStringEnum SpanKind where
  asStr := SpanKind.asStr
  all :=
    [.runLifecycle, .productionPathResolution, .productionLoad, .productionConstruct,
     .productionStart, .productionStop, .productionShutdown, .sceneLifecycle, .sceneDrain,
     .sceneCleanup, .actorHandleLifetime, .cueMailboxWait, .cueExecution, .effectLifecycle,
     .agentSessionOpening, .agentSessionLifecycle, .agentSessionClosing, .actLifecycle,
     .actCaller, .agentTurn, .agentThinking, .toolCall]

/-- `InstantKind`. -/
inductive InstantKind where
  | actorCast
  | cueAdmitted
  | cueEnqueued
  | cueDispatched
  | cueCancelRequested
  | effectCreated
  | effectReturned
  | effectConsumed
  | agentSessionReady
  | agentSessionBroken
  | actAdmitted
  | actWaitingReady
  | actPromptSubmitted
  | actCancelRequested
  | actSupervisorHandoff
  | agentTurnActivity
  | agentTurnTerminal
  | agentTurnSettled
  | toolUpdated
  | resultSubmitted
  | resultRejected
  | resultRepairRequested
  | resultAccepted
  | resultMissing
  | diagnosticComponentFailed
deriving DecidableEq

/-- `InstantKind::as_str`. -/
def InstantKind.asStr : InstantKind → String
  | .actorCast => "actor.cast"
  | .cueAdmitted => "cue.admitted"
  | .cueEnqueued => "cue.enqueued"
  | .cueDispatched => "cue.dispatched"
  | .cueCancelRequested => "cue.cancel_requested"
  | .effectCreated => "effect.created"
  | .effectReturned => "effect.returned"
  | .effectConsumed => "effect.consumed"
  | .agentSessionReady => "agent.session.ready"
  | .agentSessionBroken => "agent.session.broken"
  | .actAdmitted => "act.admitted"
  | .actWaitingReady => "act.waiting_ready"
  | .actPromptSubmitted => "act.prompt_submitted"
  | .actCancelRequested => "act.cancel_requested"
  | .actSupervisorHandoff => "act.supervisor_handoff"
  | .agentTurnActivity => "agent.turn.activity"
  | .agentTurnTerminal => "agent.turn.terminal"
  | .agentTurnSettled => "agent.turn.settled"
  | .toolUpdated => "tool.updated"
  | .resultSubmitted => "result.submitted"
  | .resultRejected => "result.rejected"
  | .resultRepairRequested => "result.repair_requested"
  | .resultAccepted => "result.accepted"
  | .resultMissing => "result.missing"
  | .diagnosticComponentFailed => "diagnostic.component_failed"

instance : ClosedStringEnum InstantKind where
  asStr := InstantKind.asStr
  all :=
    [.actorCast, .cueAdmitted, .cueEnqueued, .cueDispatched, .cueCancelRequested, .effectCreated,
     .effectReturned, .effectConsumed, .agentSessionReady, .agentSessionBroken, .actAdmitted,
     .actWaitingReady, .actPromptSubmitted, .actCancelRequested, .actSupervisorHandoff,
     .agentTurnActivity, .agentTurnTerminal, .agentTurnSettled, .toolUpdated, .resultSubmitted,
     .resultRejected, .resultRepairRequested, .resultAccepted, .resultMissing,
     .diagnosticComponentFailed]

/-- `CounterKind`. -/
inductive CounterKind where
  | actorMailboxDepth
  | cueActive
  | agentTurnActive
  | resultValidationRejections
  | diagnosticDroppedEvents
deriving DecidableEq

/-- `CounterKind::as_str`. -/
def CounterKind.asStr : CounterKind → String
  | .actorMailboxDepth => "actor.mailbox_depth"
  | .cueActive => "cue.active"
  | .agentTurnActive => "agent.turn.active"
  | .resultValidationRejections => "result.validation_rejections"
  | .diagnosticDroppedEvents => "diagnostic.dropped_events"

theorem CounterKind.asStr_injective : Function.Injective CounterKind.asStr := by
  intro a b h
  cases a <;> cases b <;> first | rfl | exact absurd h (by decide)

instance : ClosedStringEnum CounterKind where
  asStr := CounterKind.asStr
  all :=
    [.actorMailboxDepth, .cueActive, .agentTurnActive, .resultValidationRejections,
     .diagnosticDroppedEvents]

/-- `SpanOutcome`. -/
inductive SpanOutcome where
  | completed
  | cancelled
  | failed
deriving DecidableEq

/-- `SpanOutcome::as_str`. -/
def SpanOutcome.asStr : SpanOutcome → String
  | .completed => "completed"
  | .cancelled => "cancelled"
  | .failed => "failed"

instance : ClosedStringEnum SpanOutcome where
  asStr := SpanOutcome.asStr
  all := [.completed, .cancelled, .failed]

/-- `PlanEntryPriority`. -/
inductive PlanEntryPriority where
  | high
  | medium
  | low
deriving DecidableEq

/-- `PlanEntryPriority::as_str`. -/
def PlanEntryPriority.asStr : PlanEntryPriority → String
  | .high => "high"
  | .medium => "medium"
  | .low => "low"

instance : ClosedStringEnum PlanEntryPriority where
  asStr := PlanEntryPriority.asStr
  all := [.high, .medium, .low]

/-- `PlanEntryStatus`. -/
inductive PlanEntryStatus where
  | pending
  | inProgress
  | completed
deriving DecidableEq

/-- `PlanEntryStatus::as_str`. -/
def PlanEntryStatus.asStr : PlanEntryStatus → String
  | .pending => "pending"
  | .inProgress => "in_progress"
  | .completed => "completed"

instance : ClosedStringEnum PlanEntryStatus where
  asStr := PlanEntryStatus.asStr
  all := [.pending, .inProgress, .completed]

/-- `ContextSampleOrigin`. -/
inductive ContextSampleOrigin where
  | provider
  | carriedForward
deriving DecidableEq

/-- `ContextSampleOrigin::as_str`. -/
def ContextSampleOrigin.asStr : ContextSampleOrigin → String
  | .provider => "provider"
  | .carriedForward => "carried_forward"

instance : ClosedStringEnum ContextSampleOrigin where
  asStr := ContextSampleOrigin.asStr
  all := [.provider, .carriedForward]

/-- `UsageAvailability`. -/
inductive UsageAvailability where
  | available
  | partial_
  | unavailable
deriving DecidableEq

/-- `UsageAvailability::as_str`. -/
def UsageAvailability.asStr : UsageAvailability → String
  | .available => "available"
  | .partial_ => "partial"
  | .unavailable => "unavailable"

instance : ClosedStringEnum UsageAvailability where
  asStr := UsageAvailability.asStr
  all := [.available, .partial_, .unavailable]

/-- `UsageSource`. -/
inductive UsageSource where
  | acpPromptResponseUsage
deriving DecidableEq

/-- `UsageSource::as_str`. -/
def UsageSource.asStr : UsageSource → String
  | .acpPromptResponseUsage => "acp.prompt_response.usage"

instance : ClosedStringEnum UsageSource where
  asStr := UsageSource.asStr
  all := [.acpPromptResponseUsage]

/-- `UsageUnavailableReason`. -/
inductive UsageUnavailableReason where
  | promptNotSubmitted
  | sourceUnsupported
  | usageNotReported
  | turnSettlementUnknown
deriving DecidableEq

/-- `UsageUnavailableReason::as_str`. -/
def UsageUnavailableReason.asStr : UsageUnavailableReason → String
  | .promptNotSubmitted => "prompt_not_submitted"
  | .sourceUnsupported => "source_unsupported"
  | .usageNotReported => "usage_not_reported"
  | .turnSettlementUnknown => "turn_settlement_unknown"

instance : ClosedStringEnum UsageUnavailableReason where
  asStr := UsageUnavailableReason.asStr
  all := [.promptNotSubmitted, .sourceUnsupported, .usageNotReported, .turnSettlementUnknown]

/-- `CustomSeverity`. -/
inductive CustomSeverity where
  | debug
  | info
  | warning
  | error
deriving DecidableEq

/-- `CustomSeverity::as_str`. -/
def CustomSeverity.asStr : CustomSeverity → String
  | .debug => "debug"
  | .info => "info"
  | .warning => "warning"
  | .error => "error"

instance : ClosedStringEnum CustomSeverity where
  asStr := CustomSeverity.asStr
  all := [.debug, .info, .warning, .error]

/-- `ToolKind`. -/
inductive ToolKind where
  | read
  | edit
  | delete
  | move
  | search
  | execute
  | think
  | fetch
  | switchMode
  | other
deriving DecidableEq

/-- `ToolKind::as_str`. -/
def ToolKind.asStr : ToolKind → String
  | .read => "read"
  | .edit => "edit"
  | .delete => "delete"
  | .move => "move"
  | .search => "search"
  | .execute => "execute"
  | .think => "think"
  | .fetch => "fetch"
  | .switchMode => "switch_mode"
  | .other => "other"

instance : ClosedStringEnum ToolKind where
  asStr := ToolKind.asStr
  all := [.read, .edit, .delete, .move, .search, .execute, .think, .fetch, .switchMode, .other]

/-- `ToolCallStatus`. -/
inductive ToolCallStatus where
  | pending
  | inProgress
  | completed
  | failed
deriving DecidableEq

/-- `ToolCallStatus::as_str`. -/
def ToolCallStatus.asStr : ToolCallStatus → String
  | .pending => "pending"
  | .inProgress => "in_progress"
  | .completed => "completed"
  | .failed => "failed"

instance : ClosedStringEnum ToolCallStatus where
  asStr := ToolCallStatus.asStr
  all := [.pending, .inProgress, .completed, .failed]

/-- `DiagnosticComponent`. -/
inductive DiagnosticComponent where
  | sink
deriving DecidableEq

/-- `DiagnosticComponent::as_str`. -/
def DiagnosticComponent.asStr : DiagnosticComponent → String
  | .sink => "sink"

instance : ClosedStringEnum DiagnosticComponent where
  asStr := DiagnosticComponent.asStr
  all := [.sink]

/-- `ComponentFailureStage`. -/
inductive ComponentFailureStage where
  | enqueue
  | callback
deriving DecidableEq

/-- `ComponentFailureStage::as_str`. -/
def ComponentFailureStage.asStr : ComponentFailureStage → String
  | .enqueue => "enqueue"
  | .callback => "callback"

instance : ClosedStringEnum ComponentFailureStage where
  asStr := ComponentFailureStage.asStr
  all := [.enqueue, .callback]

/-- `ComponentFailureErrorCode`. -/
inductive ComponentFailureErrorCode where
  | deliveryQueueUnavailable
  | callbackRaised
  | callbackInvalidReturn
deriving DecidableEq

/-- `ComponentFailureErrorCode::as_str`. -/
def ComponentFailureErrorCode.asStr : ComponentFailureErrorCode → String
  | .deliveryQueueUnavailable => "delivery_queue_unavailable"
  | .callbackRaised => "callback_raised"
  | .callbackInvalidReturn => "callback_invalid_return"

instance : ClosedStringEnum ComponentFailureErrorCode where
  asStr := ComponentFailureErrorCode.asStr
  all := [.deliveryQueueUnavailable, .callbackRaised, .callbackInvalidReturn]

/-- `DiagnosticEventKind`. -/
inductive DiagnosticEventKind where
  | spanStarted
  | spanFinished
  | instantOccurred
  | counterSampled
  | agentMessageDelta
  | agentMessageCompleted
  | agentPlanSnapshot
  | contextUsageSampled
  | actTokenUsageFinalized
  | observationGap
  | customSpanStarted
  | customSpanFinished
  | customInstantOccurred
  | customCounterSampled
deriving DecidableEq

/-- `DiagnosticEventKind::as_str`. -/
def DiagnosticEventKind.asStr : DiagnosticEventKind → String
  | .spanStarted => "span_started"
  | .spanFinished => "span_finished"
  | .instantOccurred => "instant_occurred"
  | .counterSampled => "counter_sampled"
  | .agentMessageDelta => "agent_message_delta"
  | .agentMessageCompleted => "agent_message_completed"
  | .agentPlanSnapshot => "agent_plan_snapshot"
  | .contextUsageSampled => "context_usage_sampled"
  | .actTokenUsageFinalized => "act_token_usage_finalized"
  | .observationGap => "observation_gap"
  | .customSpanStarted => "custom_span_started"
  | .customSpanFinished => "custom_span_finished"
  | .customInstantOccurred => "custom_instant_occurred"
  | .customCounterSampled => "custom_counter_sampled"

instance : ClosedStringEnum DiagnosticEventKind where
  asStr := DiagnosticEventKind.asStr
  all :=
    [.spanStarted, .spanFinished, .instantOccurred, .counterSampled, .agentMessageDelta,
     .agentMessageCompleted, .agentPlanSnapshot, .contextUsageSampled, .actTokenUsageFinalized,
     .observationGap, .customSpanStarted, .customSpanFinished, .customInstantOccurred,
     .customCounterSampled]

end Troupe.Core
