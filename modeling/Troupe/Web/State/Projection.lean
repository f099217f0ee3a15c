import Troupe.Web.State.Queries

/-! # The live projections

The projections of `state/reducer.ts`: eight buckets of items, each changed by the events of some
kinds and bounded by a capacity.

* `BucketPolicy` are the arguments `upsertBounded` is called with for one kind of item.
* `changedOf` and `lost` are for the statements (`ProjectionBucket.lost`). -/

namespace Troupe.Web.State

open Troupe.Core

/-! ## Buckets -/

/-- `emptyBucket`. -/
def emptyBucket {T : Type} (baseThrough : Nat) : ProjectionBucket T :=
  ⟨baseThrough, [], none, false, []⟩

/-- `createLiveProjection`. -/
def createLiveProjection (baseThrough : Nat) : LiveProjection where
  spans := emptyBucket baseThrough
  messages := emptyBucket baseThrough
  counters := emptyBucket baseThrough
  contextUsage := emptyBucket baseThrough
  actUsage := emptyBucket baseThrough
  tools := emptyBucket baseThrough
  results := emptyBucket baseThrough
  gaps := {
    toProjectionBucket := emptyBucket baseThrough
    declaredDroppedCount := 0
    hasUnknownDroppedCount := false }

/-- `later`. -/
def later (left : Option Nat) (right : Nat) : Nat :=
  match left with
  | none => right
  | some left => if left < right then right else left

/-- The arguments of `upsertBounded` but the bucket and the item. -/
structure BucketPolicy (T K : Type) where
  capacity : Nat
  keyOf : T → K
  sequenceOf : T → Nat
  touch : Bool
  dropIndexOf : List T → Nat
  /-- The sequence of the event that changed an item last. -/
  changedOf : T → Nat

section Upsert

variable {T K : Type} [DecidableEq K] (policy : BucketPolicy T K)

/-- The items of `upsertBounded` before its loop. -/
def placeItem (items : List T) (item : T) : List T :=
  match items.findIdx? fun candidate => policy.keyOf candidate = policy.keyOf item with
  | some existing =>
    if policy.touch then items.eraseIdx existing ++ [item] else items.set existing item
  | none => items ++ [item]

/-- The loop of `upsertBounded`, which runs `excess` times: the items it leaves, and those it drops. -/
def dropExcess (dropIndexOf : List T → Nat) : Nat → List T → List T × List T
  | 0, items => (items, [])
  | excess + 1, items =>
    let requestedIndex := dropIndexOf items
    let dropIndex := if requestedIndex < items.length then requestedIndex else 0
    let rest := dropExcess dropIndexOf excess (items.eraseIdx dropIndex)
    (rest.1, items[dropIndex]?.toList ++ rest.2)

/-- `upsertBounded`. -/
def upsertBounded (bucket : ProjectionBucket T) (item : T) : ProjectionBucket T :=
  let placed := placeItem policy bucket.items item
  let bounded := dropExcess policy.dropIndexOf (placed.length - policy.capacity) placed
  { bucket with
    items := bounded.1
    droppedThrough := bounded.2.foldl
      (fun through dropped => some (later through (policy.sequenceOf dropped)))
      bucket.droppedThrough
    needsServerRefresh := bucket.needsServerRefresh || !bounded.2.isEmpty
    lost := bucket.lost ++ bounded.2.map policy.changedOf }

end Upsert

/-- `markRefresh`. -/
def markRefresh {T : Type} (bucket : ProjectionBucket T) : ProjectionBucket T :=
  { bucket with needsServerRefresh := true }

/-- `markRefresh`, when `refresh` is set. -/
def markRefreshIf {T : Type} (refresh : Bool) (bucket : ProjectionBucket T) : ProjectionBucket T :=
  if refresh then markRefresh bucket else bucket

/-- `markDropped`. -/
def markDropped {T : Type} (bucket : ProjectionBucket T) (sequence : Nat) : ProjectionBucket T :=
  { bucket with
    droppedThrough := some (later bucket.droppedThrough sequence)
    needsServerRefresh := true }

/-! ## Spans -/

/-- `spanSequence`. -/
def spanSequence (span : ProjectedSpan) : Nat :=
  match span.finish, span.start with
  | some finish, _ => finish.header.sequence.get
  | none, some start => start.header.sequence.get
  | none, none => span.spanId

/-- The event that changed a span last: its start or its finish, whichever came later. -/
def spanChangedThrough (span : ProjectedSpan) : Nat :=
  max ((span.start.map fun start => start.header.sequence.get).getD 0)
    ((span.finish.map fun finish => finish.header.sequence.get).getD 0)

/-- `completedSpanIndex`. -/
def completedSpanIndex (spans : List ProjectedSpan) : Nat :=
  (spans.findIdx? fun span => span.finish.isSome).getD 0

/-- The spans' arguments of `upsertBounded`. -/
def spanPolicy : BucketPolicy ProjectedSpan Nat where
  capacity := spanCapacity
  keyOf := ProjectedSpan.spanId
  sequenceOf := spanSequence
  touch := false
  dropIndexOf := completedSpanIndex
  changedOf := spanChangedThrough

/-- The span of a bucket with an id. -/
def findSpan (bucket : ProjectionBucket ProjectedSpan) (spanId : Nat) : Option ProjectedSpan :=
  bucket.items.find? fun span => span.spanId = spanId

/-- `projectSpan` of a start. -/
def projectSpanStart (bucket : ProjectionBucket ProjectedSpan) (start : SpanStartEvent) :
    ProjectionBucket ProjectedSpan :=
  let spanId := start.header.sequence.get
  let existing := findSpan bucket spanId
  let updated := upsertBounded spanPolicy bucket
    { spanId, start := some start, finish := existing.bind ProjectedSpan.finish }
  markRefreshIf (existing.bind ProjectedSpan.start).isSome updated

/-- Whether a start and a finish are of different families. -/
def familyMismatch : SpanStartEvent → SpanFinishEvent → Bool
  | .builtIn _, .builtIn _ => false
  | .custom _, .custom _ => false
  | _, _ => true

/-- `projectSpan` of a finish. -/
def projectSpanFinish (bucket : ProjectionBucket ProjectedSpan) (spanId : Nat)
    (finish : SpanFinishEvent) : ProjectionBucket ProjectedSpan :=
  let existing := findSpan bucket spanId
  let start := existing.bind ProjectedSpan.start
  let updated := upsertBounded spanPolicy bucket { spanId, start, finish := some finish }
  markRefreshIf
    (existing.isNone || (existing.bind ProjectedSpan.finish).isSome ||
      start.any (familyMismatch · finish))
    updated

/-- `projectSpan`. -/
def projectSpan (bucket : ProjectionBucket ProjectedSpan) (event : DiagnosticEvent) :
    ProjectionBucket ProjectedSpan :=
  match event with
  | .spanStarted event => projectSpanStart bucket (.builtIn event)
  | .customSpanStarted event => projectSpanStart bucket (.custom event)
  | .spanFinished event => projectSpanFinish bucket event.spanId.get (.builtIn event)
  | .customSpanFinished event => projectSpanFinish bucket event.spanId.get (.custom event)
  | _ => bucket

/-! ## Messages -/

/-- The UTF-16 code units of a text. -/
def codeUnits (text : String) : List UInt16 :=
  text.toList.flatMap fun c =>
    let value := c.val.toNat
    if value < 0x10000 then [UInt16.ofNat value]
    else
      [UInt16.ofNat (0xd800 + (value - 0x10000) / 0x400),
       UInt16.ofNat (0xdc00 + (value - 0x10000) % 0x400)]

/-- `trimMessageText`. -/
def trimMessageText (text : List UInt16) : List UInt16 × Bool :=
  if text.length ≤ messageTextCodeUnitCapacity then (text, false)
  else
    let start := text.length - messageTextCodeUnitCapacity
    let low := text[start]?.any fun codeUnit => 0xdc00 ≤ codeUnit && codeUnit ≤ 0xdfff
    (text.drop (if low then start + 1 else start), true)

/-- The messages' arguments of `upsertBounded`; `sequenceOf` is `messageSequence`. -/
def messagePolicy : BucketPolicy ProjectedMessage RunLocalId where
  capacity := messageCapacity
  keyOf := ProjectedMessage.messageId
  sequenceOf := ProjectedMessage.latestSequence
  touch := true
  dropIndexOf _ := 0
  changedOf := ProjectedMessage.latestSequence

/-- The message of a bucket with an id. -/
def findMessage (bucket : ProjectionBucket ProjectedMessage) (messageId : RunLocalId) :
    Option ProjectedMessage :=
  bucket.items.find? fun message => message.messageId = messageId

/-- `invalidMessageIdentity`, of the scope and the source id of an event; a completion has none. -/
def invalidMessageIdentity (existing : ProjectedMessage) (scope : DiagnosticScope)
    (sourceMessageId : Option String) : Bool :=
  existing.scope != scope ||
    (sourceMessageId.isSome && existing.sourceMessageId.isSome &&
      sourceMessageId != existing.sourceMessageId)

/-- The text a delta makes of a message, before it is trimmed. -/
def deltaText (existing : Option ProjectedMessage) (event : AgentMessageDelta) : List UInt16 :=
  (existing.map ProjectedMessage.text).getD [] ++ codeUnits event.textDelta

/-- `projectMessage` of a delta whose message is open. -/
def projectDelta (bucket : ProjectionBucket ProjectedMessage) (existing : Option ProjectedMessage)
    (event : AgentMessageDelta) : ProjectionBucket ProjectedMessage :=
  let sequence := event.header.sequence.get
  let trimmed := trimMessageText (deltaText existing event)
  let complete :=
    (existing.map ProjectedMessage.textCompleteFromStart).getD (bucket.baseThrough == 0) &&
      !trimmed.2
  let updated := upsertBounded messagePolicy bucket {
    messageId := event.messageId
    scope := event.header.scope
    firstSequence := (existing.map ProjectedMessage.firstSequence).getD sequence
    latestSequence := sequence
    latestElapsedNs := event.header.elapsedNs.get
    sourceMessageId := existing.bind ProjectedMessage.sourceMessageId <|> event.sourceMessageId
    text := trimmed.1
    textCompleteFromStart := complete
    textTruncatedBefore :=
      (existing.map ProjectedMessage.textTruncatedBefore).getD false || trimmed.2
    completion := none }
  markRefreshIf (trimmed.2 || !complete)
    { updated with lost := updated.lost ++ if trimmed.2 then [sequence] else [] }

/-- `projectMessage` of a completion. -/
def projectCompletion (bucket : ProjectionBucket ProjectedMessage)
    (existing : Option ProjectedMessage) (event : AgentMessageCompleted) :
    ProjectionBucket ProjectedMessage :=
  let sequence := event.header.sequence.get
  let complete :=
    (existing.map ProjectedMessage.textCompleteFromStart).getD (bucket.baseThrough == 0)
  let updated := upsertBounded messagePolicy bucket {
    messageId := event.messageId
    scope := event.header.scope
    firstSequence := (existing.map ProjectedMessage.firstSequence).getD sequence
    latestSequence := sequence
    latestElapsedNs := event.header.elapsedNs.get
    sourceMessageId := existing.bind ProjectedMessage.sourceMessageId
    text := (existing.map ProjectedMessage.text).getD []
    textCompleteFromStart := complete
    textTruncatedBefore := (existing.map ProjectedMessage.textTruncatedBefore).getD false
    completion := some event }
  markRefreshIf ((existing.bind ProjectedMessage.completion).isSome || !complete) updated

/-- `projectMessage`. -/
def projectMessage (bucket : ProjectionBucket ProjectedMessage) (event : DiagnosticEvent) :
    ProjectionBucket ProjectedMessage :=
  match event with
  | .agentMessageDelta event =>
    let existing := findMessage bucket event.messageId
    if existing.any (invalidMessageIdentity · event.header.scope event.sourceMessageId) then
      markRefresh bucket
    else if (existing.bind ProjectedMessage.completion).isSome then markRefresh bucket
    else projectDelta bucket existing event
  | .agentMessageCompleted event =>
    let existing := findMessage bucket event.messageId
    if existing.any (invalidMessageIdentity · event.header.scope none) then markRefresh bucket
    else projectCompletion bucket existing event
  | _ => bucket

/-! ## Counters and usage -/

/-- `counterKey`; the dimensions of a sample are the entries of its record, sorted. -/
def counterKey : CounterEvent → CounterKey
  | .builtIn event => .builtIn event.header.scope event.counterKind
  | .custom event => .custom event.header.scope event.name event.unit event.dimensions.toList

/-- The counters' arguments of `upsertBounded`. -/
def counterPolicy : BucketPolicy ProjectedCounter CounterKey where
  capacity := counterSeriesCapacity
  keyOf := ProjectedCounter.seriesKey
  sequenceOf counter := counter.event.header.sequence.get
  touch := true
  dropIndexOf _ := 0
  changedOf counter := counter.event.header.sequence.get

/-- `tagMismatch` of `projectCounter`. -/
def tagMismatch : CounterEvent → CounterEvent → Bool
  | .custom event, .custom existing =>
    match event.value, existing.value with
    | .integer _, .integer _ => false
    | .decimal _, .decimal _ => false
    | _, _ => true
  | _, _ => false

/-- `projectCounter` of a sample. -/
def projectSample (bucket : ProjectionBucket ProjectedCounter) (event : CounterEvent) :
    ProjectionBucket ProjectedCounter :=
  let seriesKey := counterKey event
  let existing := bucket.items.find? fun counter => counter.seriesKey = seriesKey
  markRefreshIf (existing.any fun existing => tagMismatch event existing.event)
    (upsertBounded counterPolicy bucket { seriesKey, event })

/-- `projectCounter`. -/
def projectCounter (bucket : ProjectionBucket ProjectedCounter) (event : DiagnosticEvent) :
    ProjectionBucket ProjectedCounter :=
  match event with
  | .counterSampled event => projectSample bucket (.builtIn event)
  | .customCounterSampled event => projectSample bucket (.custom event)
  | _ => bucket

/-- The context samples' arguments of `upsertBounded`. -/
def contextUsagePolicy : BucketPolicy ProjectedContextUsage DiagnosticScope where
  capacity := contextUsageCapacity
  keyOf := ProjectedContextUsage.scopeKey
  sequenceOf usage := usage.event.header.sequence.get
  touch := true
  dropIndexOf _ := 0
  changedOf usage := usage.event.header.sequence.get

/-- `projectContextUsage` of a sample. -/
def projectContextSample (bucket : ProjectionBucket ProjectedContextUsage)
    (event : ContextUsageSampled) : ProjectionBucket ProjectedContextUsage :=
  upsertBounded contextUsagePolicy bucket { scopeKey := event.header.scope, event }

/-- `projectContextUsage`. -/
def projectContextUsage (bucket : ProjectionBucket ProjectedContextUsage) (event : DiagnosticEvent) :
    ProjectionBucket ProjectedContextUsage :=
  match event with
  | .contextUsageSampled event => projectContextSample bucket event
  | _ => bucket

/-- The act usages' arguments of `upsertBounded`. -/
def actUsagePolicy : BucketPolicy ProjectedActUsage String where
  capacity := actUsageCapacity
  keyOf := ProjectedActUsage.actKey
  sequenceOf usage := usage.event.header.sequence.get
  touch := true
  dropIndexOf _ := 0
  changedOf usage := usage.event.header.sequence.get

/-- `projectActUsage`. -/
def projectActUsage (bucket : ProjectionBucket ProjectedActUsage) (event : DiagnosticEvent) :
    ProjectionBucket ProjectedActUsage :=
  match event with
  | .actTokenUsageFinalized event =>
    let actId := event.header.scope.actId
    let actKey := (actId.map RunLocalId.value).getD
      ("missing-act:" ++ toString event.header.sequence.get)
    let duplicate := bucket.items.any fun usage => usage.actKey = actKey
    markRefreshIf (actId.isNone || duplicate) (upsertBounded actUsagePolicy bucket { actKey, event })
  | _ => bucket

/-! ## Tools -/

/-- `latestToolFact`. -/
def latestToolFact (bucket : ProjectionBucket ProjectedToolFact) (toolCallId : Option RunLocalId)
    (spanId : Option Nat) : Option ProjectedToolFact :=
  bucket.items.reverse.find? fun fact =>
    (spanId.isSome && fact.spanId == spanId) || (toolCallId.isSome && fact.toolCallId == toolCallId)

/-- The tool facts' arguments of `upsertBounded`. -/
def toolPolicy : BucketPolicy ProjectedToolFact Nat where
  capacity := toolFactCapacity
  keyOf := ProjectedToolFact.sequence
  sequenceOf := ProjectedToolFact.sequence
  touch := false
  dropIndexOf _ := 0
  changedOf := ProjectedToolFact.sequence

/-- `appendToolFact`. -/
def appendToolFact (bucket : ProjectionBucket ProjectedToolFact) (fact : ProjectedToolFact) :
    ProjectionBucket ProjectedToolFact :=
  markRefreshIf fact.toolCallId.isNone (upsertBounded toolPolicy bucket fact)

/-- The start of a span that is a tool call, with its `toolDetail`. -/
def toolStart (span : ProjectedSpan) : Option (SpanStarted × ToolCallDetail) :=
  match span.start with
  | some (.builtIn start) =>
    match start.detail with
    | .toolCall detail => some (start, detail)
    | _ => none
  | _ => none

/-- `projectTool` of the finish of a span: the fact of a call that was seen before. -/
def finishedToolFact (event : SpanFinished) (start : Option (SpanStarted × ToolCallDetail))
    (previous : Option ProjectedToolFact) : ProjectedToolFact :=
  let detail := start.map Prod.snd
  { phase := .finished
    sequence := event.header.sequence.get
    elapsedNs := event.header.elapsedNs.get
    scope := event.header.scope
    toolCallId := event.header.scope.toolCallId <|> previous.bind ProjectedToolFact.toolCallId <|>
      start.bind fun start => start.1.header.scope.toolCallId
    spanId := some event.spanId.get
    title := previous.bind ProjectedToolFact.title <|> detail.map ToolCallDetail.title
    toolKind := previous.bind ProjectedToolFact.toolKind <|> detail.map ToolCallDetail.toolKind
    status :=
      match event.outcome with
      | .completed => some .completed
      | .failed => some .failed
      | .cancelled => none
    outcome := some event.outcome
    errorCode := event.errorCode <|> previous.bind ProjectedToolFact.errorCode <|>
      detail.bind ToolCallDetail.errorCode }

/-- `projectTool` of the finish of a span. -/
def projectToolFinish (bucket : ProjectionBucket ProjectedToolFact)
    (spans : ProjectionBucket ProjectedSpan) (event : SpanFinished) :
    ProjectionBucket ProjectedToolFact :=
  let start := (findSpan spans event.spanId.get).bind toolStart
  let previous := latestToolFact bucket event.header.scope.toolCallId (some event.spanId.get)
  if start.isNone && previous.isNone then
    markRefreshIf event.header.scope.toolCallId.isSome bucket
  else
    markRefreshIf start.isNone (appendToolFact bucket (finishedToolFact event start previous))

/-- `projectTool`. -/
def projectTool (bucket : ProjectionBucket ProjectedToolFact)
    (spans : ProjectionBucket ProjectedSpan) (event : DiagnosticEvent) :
    ProjectionBucket ProjectedToolFact :=
  match event with
  | .spanStarted event =>
    match event.detail with
    | .toolCall detail =>
      appendToolFact bucket {
        phase := .started
        sequence := event.header.sequence.get
        elapsedNs := event.header.elapsedNs.get
        scope := event.header.scope
        toolCallId := event.header.scope.toolCallId
        spanId := some event.header.sequence.get
        title := some detail.title
        toolKind := some detail.toolKind
        status := some detail.status
        outcome := none
        errorCode := detail.errorCode }
    | _ => bucket
  | .instantOccurred event =>
    match event.detail with
    | .toolUpdated detail =>
      let containing := event.containingSpanId.map SchemaU64.get
      let previous := latestToolFact bucket event.header.scope.toolCallId containing
      appendToolFact bucket {
        phase := .updated
        sequence := event.header.sequence.get
        elapsedNs := event.header.elapsedNs.get
        scope := event.header.scope
        toolCallId := event.header.scope.toolCallId <|> previous.bind ProjectedToolFact.toolCallId
        spanId := containing <|> previous.bind ProjectedToolFact.spanId
        title := some detail.title
        toolKind := some detail.toolKind
        status := some detail.status
        outcome := none
        errorCode := detail.errorCode }
    | _ => bucket
  | .spanFinished event => projectToolFinish bucket spans event
  | _ => bucket

/-! ## Results and gaps -/

/-- The result facts' arguments of `upsertBounded`. -/
def resultPolicy : BucketPolicy ProjectedResultFact Nat where
  capacity := resultFactCapacity
  keyOf := ProjectedResultFact.sequence
  sequenceOf := ProjectedResultFact.sequence
  touch := false
  dropIndexOf _ := 0
  changedOf := ProjectedResultFact.sequence

/-- `isResultKind`, with the detail of such an instant. -/
def resultDetail? : InstantDetail → Option (ProjectedResultKind × ResultTransitionDetail)
  | .resultSubmitted detail => some (.submitted, detail)
  | .resultRejected detail => some (.rejected, detail)
  | .resultRepairRequested detail => some (.repairRequested, detail)
  | .resultAccepted detail => some (.accepted, detail)
  | .resultMissing detail => some (.missing, detail)
  | _ => none

/-- `projectResult`. -/
def projectResult (bucket : ProjectionBucket ProjectedResultFact) (event : DiagnosticEvent) :
    ProjectionBucket ProjectedResultFact :=
  match event with
  | .instantOccurred event =>
    match resultDetail? event.detail with
    | none => bucket
    | some (resultKind, detail) =>
      upsertBounded resultPolicy bucket {
        resultKind
        sequence := event.header.sequence.get
        elapsedNs := event.header.elapsedNs.get
        scope := event.header.scope
        actId := event.header.scope.actId
        containingSpanId := event.containingSpanId.map SchemaU64.get
        issue := detail.issue
        errorCode := detail.errorCode }
  | _ => bucket

/-- The gaps' arguments of `upsertBounded`. -/
def gapPolicy : BucketPolicy ObservationGap Nat where
  capacity := gapCapacity
  keyOf gap := gap.header.sequence.get
  sequenceOf gap := gap.header.sequence.get
  touch := false
  dropIndexOf _ := 0
  changedOf gap := gap.header.sequence.get

/-- `projectGap`. -/
def projectGap (bucket : GapProjection) (event : DiagnosticEvent) : GapProjection :=
  match event with
  | .observationGap event =>
    { toProjectionBucket := upsertBounded gapPolicy bucket.toProjectionBucket event
      declaredDroppedCount :=
        bucket.declaredDroppedCount + (event.droppedCount.map SchemaU64.get).getD 0
      hasUnknownDroppedCount := bucket.hasUnknownDroppedCount || event.droppedCount.isNone }
  | _ => bucket

/-! ## One event -/

/-- `gapAffects`. -/
def gapAffects (event : DiagnosticEvent) (kinds : List DiagnosticEventKind) : Bool :=
  match event with
  | .observationGap gap => gap.affectedKind.all kinds.contains
  | _ => false

/-- `projectEvent`. -/
def projectEvent (projection : LiveProjection) (event : DiagnosticEvent) : LiveProjection :=
  let spans := projectSpan projection.spans event
  { spans := markRefreshIf
      (gapAffects event [.spanStarted, .spanFinished, .customSpanStarted, .customSpanFinished]) spans
    messages := markRefreshIf (gapAffects event [.agentMessageDelta, .agentMessageCompleted])
      (projectMessage projection.messages event)
    counters := markRefreshIf (gapAffects event [.counterSampled, .customCounterSampled])
      (projectCounter projection.counters event)
    contextUsage := markRefreshIf (gapAffects event [.contextUsageSampled])
      (projectContextUsage projection.contextUsage event)
    actUsage := markRefreshIf (gapAffects event [.actTokenUsageFinalized])
      (projectActUsage projection.actUsage event)
    tools := markRefreshIf (gapAffects event [.spanStarted, .spanFinished, .instantOccurred])
      (projectTool projection.tools spans event)
    results := markRefreshIf (gapAffects event [.instantOccurred])
      (projectResult projection.results event)
    gaps := projectGap projection.gaps event }

end Troupe.Web.State
