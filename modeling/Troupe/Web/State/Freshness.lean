import Troupe.Web.State.Session

/-! # Cached answers that are not stale

An answer becomes stale in two ways: an event or a watermark that comes after it marks it
(`invalidateQueries`, `invalidateAllQueries`), and an answer that comes late is compared with the
live edge and the cursor (`cacheQueryForCurrentState`). `Current` is what both leave of an answer
that is not marked:

* either nothing after its capture is committed, or everything committed has been delivered and the
  base of the live edge is not after its capture;
* no event delivered after its capture is one it depends on.

Headline result: **`cached_answers_current`**, for every run of the reducer. -/

namespace Troupe.Web.State

open Troupe.Core

variable {Value : Type}

/-- An answer is about all that is committed. -/
structure Current (session : Session Value) (result : CachedQueryResult Value) : Prop where
  known : session.state.cursor.committedWatermark ≤ result.capturedThrough ∨
    (session.state.cursor.deliveredThrough = session.state.cursor.committedWatermark ∧
      session.state.live.baseThrough ≤ result.capturedThrough)
  unaffected : ∀ event ∈ session.delivered, result.capturedThrough < sequenceOf event →
    queryDependsOnEvent result.dependency event = false

/-- What holds of the query cache at every moment. -/
structure Answers (session : Session Value) : Prop where
  valid : session.state.queries.Valid
  capacity : session.state.queries.capacity = queryResultCapacity
  keyed : ∀ {key result}, session.state.queries.entries.lookup key = some result → result.key = key
  current : ∀ {key result}, session.state.queries.entries.lookup key = some result →
    result.stale = false → Current session result

section Invalidation

variable {session : Session Value}

/-- Marking answers keeps the cache, when the answers it leaves alone stay current. -/
theorem Answers.mapValues (h : Answers session) {session' : Session Value}
    {mark : CachedQueryResult Value → CachedQueryResult Value}
    (hqueries : session'.state.queries = { session.state.queries with
      entries := State.mapValues mark session.state.queries.entries })
    (hkey : ∀ result, (mark result).key = result.key)
    (hcurrent : ∀ result, (mark result).stale = false →
      mark result = result ∧ (Current session result → Current session' result)) :
    Answers session' := by
  have hlookup {key : String} {result : CachedQueryResult Value}
      (hresult : session'.state.queries.entries.lookup key = some result) :
      ∃ before, session.state.queries.entries.lookup key = some before ∧ mark before = result := by
    rw [hqueries] at hresult
    dsimp only at hresult
    rwa [lookup_mapValues, Option.map_eq_some_iff] at hresult
  refine ⟨?_, ?_, fun hresult => ?_, fun hresult hfresh => ?_⟩
  · rw [hqueries]
    exact h.valid.mapValues mark
  · rw [hqueries]
    exact h.capacity
  · obtain ⟨before, hbefore, rfl⟩ := hlookup hresult
    exact (hkey before).trans (h.keyed hbefore)
  · obtain ⟨before, hbefore, rfl⟩ := hlookup hresult
    obtain ⟨hsame, hkeeps⟩ := hcurrent before hfresh
    rw [hsame] at hfresh ⊢
    exact hkeeps (h.current hbefore hfresh)

/-- An event keeps the answers that do not depend on it current. -/
theorem Current.accepted {result : CachedQueryResult Value} (hedge : Edge session)
    {event : DiagnosticEvent} (haccepts : accepts session.state event)
    (h : Current session result)
    (hunaffected : ¬ (result.capturedThrough < event.sequence.get ∧
      queryDependsOnEvent result.dependency event)) :
    Current ⟨acceptedEvent session.state event, session.delivered ++ [event]⟩ result := by
  have hnext : event.sequence.get = session.state.cursor.deliveredThrough + 1 := haccepts.2
  have hcommitted := hedge.committed
  have hcursor := hedge.cursor
  constructor
  · dsimp only [acceptedEvent, appendLiveEvent]
    rcases h.known with hknown | ⟨hall, hbase⟩
    · by_cases hafter : result.capturedThrough < event.sequence.get <;> omega
    · omega
  · intro other hother hafter
    rcases List.mem_append.mp hother with hold | hnew
    · exact h.unaffected other hold hafter
    · rw [List.mem_singleton.mp hnew] at hafter ⊢
      exact Bool.eq_false_iff.mpr fun hdepends => hunaffected ⟨hafter, hdepends⟩

theorem Answers.accepted (h : Answers session) (hedge : Edge session) {event : DiagnosticEvent}
    (haccepts : accepts session.state event) :
    Answers ⟨acceptedEvent session.state event, session.delivered ++ [event]⟩ := by
  refine h.mapValues rfl (fun result => ?_) fun result hfresh => ?_
  · split
    · rfl
    · rfl
  · split at hfresh
    · cases hfresh
    · rename_i hunaffected
      rw [if_neg hunaffected]
      exact ⟨rfl, fun hcurrent => hcurrent.accepted hedge haccepts hunaffected⟩

/-- A later watermark leaves alone the answers captured at it or after it. -/
theorem Answers.observed (h : Answers session) (watermark : Nat)
    (deliveryIssue : Option DeliveryIssue) :
    Answers ⟨{ withWatermark session.state watermark with deliveryIssue }, session.delivered⟩ := by
  refine h.mapValues rfl (fun result => ?_) fun result hfresh => ?_
  · split
    · rfl
    · rfl
  · split at hfresh
    · cases hfresh
    · rename_i hcaptured
      rw [if_neg hcaptured]
      exact ⟨rfl, fun hcurrent => ⟨.inl (Nat.not_lt.mp hcaptured), hcurrent.unaffected⟩⟩

/-- An empty cache. -/
theorem Answers.empty (h : session.state.queries = createQueryCache) : Answers session := by
  refine ⟨?_, ?_, fun hresult => ?_, fun hresult => ?_⟩
  · rw [h]
    exact createFixedLru_valid _
  · rw [h]
    rfl
  · rw [h] at hresult
    cases hresult
  · rw [h] at hresult
    cases hresult

/-- A step that changes neither the cache nor what the answers are about. -/
theorem Answers.frame (h : Answers session) {state : DiagnosticState Value}
    (hcursor : state.cursor = session.state.cursor) (hlive : state.live = session.state.live)
    (hqueries : state.queries = session.state.queries) : Answers ⟨state, session.delivered⟩ := by
  refine ⟨hqueries ▸ h.valid, hqueries ▸ h.capacity, fun hresult => ?_, fun hresult hfresh => ?_⟩
  · exact h.keyed (hqueries ▸ hresult)
  · obtain ⟨hknown, hunaffected⟩ := h.current (hqueries ▸ hresult) hfresh
    exact ⟨by rwa [hcursor, hlive], hunaffected⟩

end Invalidation

/-! ## Late answers -/

section Late

variable {session : Session Value}

/-- The loop of `cacheQueryForCurrentState`. -/
theorem foldl_staleIfAffected {result candidate : CachedQueryResult Value}
    {events : List DiagnosticEvent}
    (h : (events.foldl (staleIfAffected result) candidate).stale = false) :
    events.foldl (staleIfAffected result) candidate = candidate ∧ candidate.stale = false ∧
    ∀ event ∈ events, result.capturedThrough < sequenceOf event →
      queryDependsOnEvent result.dependency event = false := by
  induction events generalizing candidate with
  | nil => exact ⟨rfl, h, List.forall_mem_nil _⟩
  | cons event rest ih =>
    rw [List.foldl_cons] at h ⊢
    obtain ⟨hsame, hfresh, hrest⟩ := ih h
    rw [hsame]
    unfold staleIfAffected at hfresh ⊢
    split at hfresh
    · cases hfresh
    rename_i hunaffected
    rw [if_neg hunaffected]
    refine ⟨rfl, hfresh, List.forall_mem_cons.mpr ⟨fun hafter => ?_, hrest⟩⟩
    exact Bool.eq_false_iff.mpr fun hdepends => hunaffected (by simp [hafter, hdepends])

/-- What `cacheQueryResult` leaves not stale is the answer itself, or was there. -/
theorem lookup_cacheQueryResult {cache : QueryCache Value} {result found : CachedQueryResult Value}
    {key : String} (h : (cacheQueryResult cache result).entries.lookup key = some found) :
    (key = result.key ∧ found.key = result.key ∧ (found.stale = false → found = result)) ∨
      cache.entries.lookup key = some found := by
  unfold cacheQueryResult at h
  dsimp only at h
  rcases lookup_lruSet h with ⟨hkey, hfound⟩ | hold
  · refine .inl ⟨hkey, ?_⟩
    rw [hfound]
    split
    · exact ⟨rfl, fun _ => rfl⟩
    split
    · exact ⟨rfl, nofun⟩
    · exact ⟨rfl, fun _ => rfl⟩
  · exact .inr hold

/-- **A late answer is marked when it may be out of date**: the answer that goes into the cache is
stale, or it is the answer received and is current. -/
theorem candidate_current (hedge : Edge session) (result : CachedQueryResult Value) :
    ∃ candidate,
      cacheQueryForCurrentState session.state result =
        cacheQueryResult session.state.queries candidate ∧
      (candidate.stale = false → Current session candidate) := by
  unfold cacheQueryForCurrentState
  dsimp only
  refine ⟨_, rfl, ?_⟩
  split
  · intro hfresh
    cases hfresh
  · rename_i hknown
    intro hfresh
    obtain ⟨hsame, -, hunaffected⟩ := foldl_staleIfAffected hfresh
    rw [hsame]
    have hcommitted := hedge.committed
    by_cases hcaptured : result.capturedThrough < session.state.cursor.committedWatermark
    · simp only [historyUnknown, hcaptured, decide_true, Bool.and_true, Bool.or_eq_true,
        decide_eq_true_eq, not_or, Nat.not_lt, Bool.not_eq_true] at hknown
      obtain ⟨⟨hbase, hdropped⟩, hall⟩ := hknown
      refine ⟨.inr ⟨Nat.le_antisymm hcommitted hall, hbase⟩, fun event hevent hafter => ?_⟩
      exact hunaffected event (hedge.mem_events hdropped hevent hafter) hafter
    · refine ⟨.inl (Nat.not_lt.mp hcaptured), fun event hevent hafter => ?_⟩
      have hbounds := (hedge.mem_bounds hevent).2
      omega

theorem Answers.cached (h : Answers session) (hedge : Edge session)
    (result : CachedQueryResult Value) :
    Answers ⟨{ session.state with queries := cacheQueryForCurrentState session.state result },
      session.delivered⟩ := by
  obtain ⟨candidate, hqueries, hcurrent⟩ := candidate_current hedge result
  rw [hqueries]
  refine ⟨lruSet_valid h.valid _ _, capacity_lruSet.trans h.capacity, fun hfound => ?_,
    fun hfound hfresh => ?_⟩
  · rcases lookup_cacheQueryResult hfound with ⟨hkey, hfoundKey, -⟩ | hold
    · exact hfoundKey.trans hkey.symm
    · exact h.keyed hold
  · rcases lookup_cacheQueryResult hfound with ⟨-, -, hsame⟩ | hold
    · obtain rfl := hsame hfresh
      exact ⟨(hcurrent hfresh).known, (hcurrent hfresh).unaffected⟩
    · exact ⟨(h.current hold hfresh).known, (h.current hold hfresh).unaffected⟩

end Late

/-! ## Runs -/

section Runs

variable {session session' : Session Value} {action : DiagnosticStateAction Value}

theorem Answers.moved (h : Answers session) (hedge : Edge session)
    (hmoved : Moved session action session') : Answers session' := by
  cases hmoved with
  | accepted event haccepts => exact h.accepted hedge haccepts
  | observed _ watermark deliveryIssue _ => exact h.observed watermark deliveryIssue
  | replaced snapshot state hstate =>
    obtain ⟨-, -, -, -, hqueries, -⟩ := snapshotState_eq_ok hstate
    exact .empty hqueries
  | paused _ =>
    obtain ⟨pauseState, hpause⟩ := pause_eq session.state
    rw [hpause]
    exact h.frame rfl rfl rfl
  | resumed =>
    obtain ⟨pauseState, hresume⟩ := resume_eq session.state
    rw [hresume]
    exact h.frame rfl rfl rfl
  | cached result => exact h.cached hedge result
  | kept _ state hkept => exact h.frame hkept.cursor hkept.live hkept.queries

/-- **What the cache presents as fresh is fresh.** Along every run of the reducer the cache has at
most `QUERY_RESULT_CAPACITY` answers, one for each key. For an answer that is not stale, every
sequence after its capture up to the committed watermark has been delivered, and no event delivered
after its capture is one its query depends on. -/
theorem cached_answers_current {state : DiagnosticState Value} (h : Started state)
    (actions : List (DiagnosticStateAction Value)) :
    let session := (Session.new state).run actions
    session.state.queries.entries.keys.Nodup ∧
    session.state.queries.entries.keys.length ≤ queryResultCapacity ∧
    ∀ key result, session.state.queries.entries.lookup key = some result →
      result.key = key ∧
      (result.stale = false →
        (∀ n, result.capturedThrough < n → n ≤ session.state.cursor.committedWatermark →
          ∃ event ∈ session.delivered, sequenceOf event = n) ∧
        ∀ event ∈ session.delivered, result.capturedThrough < sequenceOf event →
          queryDependsOnEvent result.dependency event = false) := by
  intro session
  have hboth : Edge session ∧ Answers session := by
    obtain ⟨watermark, elapsedNs, projection, hcursor, hlive, hqueries, -⟩ := h.base
    exact run_kept (p := fun session => Edge session ∧ Answers session)
      (fun _ _ _ hinv hmoved => ⟨hinv.1.moved hmoved, hinv.2.moved hinv.1 hmoved⟩)
      ⟨.of_base hcursor hlive, .empty hqueries⟩ actions
  obtain ⟨hedge, hanswers⟩ := hboth
  refine ⟨AList.keys_nodup _, hanswers.capacity ▸ hanswers.valid.size_le, fun key result hresult => ?_⟩
  refine ⟨hanswers.keyed hresult, fun hfresh => ?_⟩
  have hcurrent := hanswers.current hresult hfresh
  refine ⟨fun n hcaptured hcommitted => ?_, hcurrent.unaffected⟩
  rcases hcurrent.known with hknown | ⟨hall, hbase⟩
  · omega
  · exact hedge.exists_delivered (Nat.lt_of_le_of_lt hbase hcaptured) (hall ▸ hcommitted)

/-- An answer about the spans that have started, captured before the first event. -/
def spansAnswer : CachedQueryResult Unit where
  key := "spans"
  capturedThrough := 0
  value := ()
  stale := false
  invalidatedThrough := none
  dependency := ⟨some [.spanStarted], none, none⟩

/-- The answer comes between two samples. -/
def spansActions : List (DiagnosticStateAction Unit) :=
  [.eventReceived (sampleAt ⟨1, by decide⟩ (by decide)), .queryCached spansAnswer,
   .eventReceived (sampleAt ⟨2, by decide⟩ (by decide))]

/-- The answer about the spans is current: both samples were delivered, and neither concerns it. -/
theorem spansAnswer_current :
    let session := (Session.new (createDiagnosticState ⟨1⟩ 0 0)).run spansActions
    session.state.queries.entries.lookup "spans" = some spansAnswer ∧
    session.state.cursor.committedWatermark = 2 ∧
    (∀ n, 0 < n → n ≤ 2 → ∃ event ∈ session.delivered, sequenceOf event = n) ∧
    ∀ event ∈ session.delivered, 0 < sequenceOf event →
      queryDependsOnEvent spansAnswer.dependency event = false := by
  intro session
  have hfound : session.state.queries.entries.lookup "spans" = some spansAnswer := rfl
  obtain ⟨hdelivered, hunaffected⟩ :=
    ((cached_answers_current (.created ⟨1⟩ 0 0) spansActions).2.2 _ _ hfound).2 rfl
  exact ⟨hfound, rfl, hdelivered, hunaffected⟩

end Runs

end Troupe.Web.State
