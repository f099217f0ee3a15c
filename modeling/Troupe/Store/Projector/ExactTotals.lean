import Troupe.Store.Projector.Projectors

/-! # Usage totals are exact

What the totals of `usage.rs` stand for. A usage counts for a share (`UsageShare`): the scene and the
actor it is counted under, its availability and its token counts. `exactTotal` adds up shares in
unbounded numbers; a total of the read model, with its 64-bit counts and decimal texts, denotes such a
sum (`UsageAggregate.total`), and no two totals denote the same one.

* `DiagnosticScope`s of scenes and of actors are the keys of the scoped totals; a usage without a
  scene is counted in neither.
* `scope_contains` of `usage.rs` is written out there a second time; it is the reference validator's.

Result: **`usage_totals_exact`**, over every stream the usage projector accepts. -/

namespace Troupe.Core

open Troupe.Lib

theorem digitsValue_eq_lib (digits : List Char) : digitsValue digits = Lib.digitsValue digits := by
  unfold digitsValue Lib.digitsValue
  rw [Nat.ofDigitChars_eq_foldl]

/-- The number a token count stands for. -/
def TokenCount.toNat (count : TokenCount) : Nat := digitsValue count.value.toList

/-- A canonical text is digits, without a zero that could be left out. -/
theorem TokenCount.digits (count : TokenCount) : Digits count.value.toList ∧
    (count.value.toList = ['0'] ∨ ∃ c rest, count.value.toList = c :: rest ∧ c ≠ '0') := by
  have hcanonical := count.canonical
  unfold validateCanonicalNonnegativeInteger at hcanonical
  simp only [ite_error_eq_ok, Bool.not_eq_true, Bool.not_eq_eq_eq_not, Bool.not_true] at hcanonical
  obtain ⟨hempty, hdigits, hzero, -⟩ := hcanonical
  have hall : Digits count.value.toList := by simpa [Digits] using hdigits
  refine ⟨hall, ?_⟩
  cases htext : count.value.toList with
  | nil =>
    rw [String.isEmpty_eq_false_iff] at hempty
    exact absurd (String.toList_inj.mp (htext.trans String.toList_empty.symm)) hempty
  | cons c rest =>
    rw [htext] at hzero
    by_cases hc : c = '0'
    · cases rest with
      | nil => exact Or.inl (by rw [hc])
      | cons => simp [hc] at hzero
    · exact Or.inr ⟨c, rest, rfl, hc⟩

theorem TokenCount.toNat_injective {a b : TokenCount} (h : a.toNat = b.toNat) : a = b := by
  obtain ⟨hadigits, ha⟩ := a.digits
  obtain ⟨hbdigits, hb⟩ := b.digits
  unfold TokenCount.toNat at h
  rw [digitsValue_eq_lib, digitsValue_eq_lib] at h
  have htext := String.toList_inj.mp (digits_eq_of_digitsValue hadigits hbdigits ha hb h)
  cases a
  cases b
  cases htext
  rfl

end Troupe.Core

namespace Troupe.Store

open Troupe.Lib Troupe.Core

/-! ## Exact sums -/

/-- The sum of some numbers, if there are any. -/
def sumOf? : List Nat → Option Nat
  | [] => none
  | numbers => some numbers.sum

/-- One token field over several acts, in unbounded numbers. -/
structure FieldTotal where
  knownSum : Option Nat
  reportedActs : Nat
  finalizedActs : Nat
deriving DecidableEq

/-- The total of one token field, a value for each act. -/
def fieldTotal (values : List (Option TokenCount)) : FieldTotal where
  knownSum := sumOf? ((values.filterMap id).map TokenCount.toNat)
  reportedActs := (values.filterMap id).length
  finalizedActs := values.length

/-- Several acts, in unbounded numbers. -/
structure UsageTotal where
  finalizedActs : Nat
  reportedActs : Nat
  availableActs : Nat
  partialActs : Nat
  unavailableActs : Nat
  providerTotalTokens : FieldTotal
  inputTokens : FieldTotal
  outputTokens : FieldTotal
  thoughtTokens : FieldTotal
  cachedReadTokens : FieldTotal
  cachedWriteTokens : FieldTotal
deriving DecidableEq

/-- What a usage counts for, and where. -/
structure UsageShare where
  sceneId : Option RunLocalId
  actorId : Option RunLocalId
  availability : UsageAvailability
  tokens : UsageTokens
deriving DecidableEq

/-- The share of a recorded usage. -/
def ProjectedActUsage.share (usage : ProjectedActUsage) : UsageShare :=
  ⟨usage.scope.sceneId, usage.scope.actorId, usage.availability, usage.tokens⟩

/-- The scopes of its own a share is counted under: its scene, and its actor in that scene. -/
def UsageShare.scopes (share : UsageShare) : List DiagnosticScope :=
  match share.sceneId, share.actorId with
  | none, _ => []
  | some sceneId, none => [{ DiagnosticScope.run with sceneId := some sceneId }]
  | some sceneId, some actorId =>
    [{ DiagnosticScope.run with sceneId := some sceneId },
      { DiagnosticScope.run with sceneId := some sceneId, actorId := some actorId }]

/-- The exact total of some shares. -/
def exactTotal (shares : List UsageShare) : UsageTotal where
  finalizedActs := shares.length
  reportedActs := shares.countP (·.availability ≠ .unavailable)
  availableActs := shares.countP (·.availability = .available)
  partialActs := shares.countP (·.availability = .partial_)
  unavailableActs := shares.countP (·.availability = .unavailable)
  providerTotalTokens := fieldTotal (shares.map (·.tokens.providerTotalTokens))
  inputTokens := fieldTotal (shares.map (·.tokens.inputTokens))
  outputTokens := fieldTotal (shares.map (·.tokens.outputTokens))
  thoughtTokens := fieldTotal (shares.map (·.tokens.thoughtTokens))
  cachedReadTokens := fieldTotal (shares.map (·.tokens.cachedReadTokens))
  cachedWriteTokens := fieldTotal (shares.map (·.tokens.cachedWriteTokens))

/-- What a field total denotes. -/
def UsageFieldAggregate.total (aggregate : UsageFieldAggregate) : FieldTotal where
  knownSum := aggregate.knownSum.map TokenCount.toNat
  reportedActs := aggregate.reportedActs.get
  finalizedActs := aggregate.finalizedActs.get

/-- What a total denotes. -/
def UsageAggregate.total (aggregate : UsageAggregate) : UsageTotal where
  finalizedActs := aggregate.finalizedActs.get
  reportedActs := aggregate.reportedActs.get
  availableActs := aggregate.availableActs.get
  partialActs := aggregate.partialActs.get
  unavailableActs := aggregate.unavailableActs.get
  providerTotalTokens := aggregate.providerTotalTokens.total
  inputTokens := aggregate.inputTokens.total
  outputTokens := aggregate.outputTokens.total
  thoughtTokens := aggregate.thoughtTokens.total
  cachedReadTokens := aggregate.cachedReadTokens.total
  cachedWriteTokens := aggregate.cachedWriteTokens.total

theorem sumOf?_concat (numbers : List Nat) (number : Nat) :
    sumOf? (numbers ++ [number]) = some ((sumOf? numbers).getD 0 + number) := by
  cases numbers with
  | nil => simp [sumOf?]
  | cons first rest => simp [sumOf?, Nat.add_assoc]

theorem sumOf?_perm {xs ys : List Nat} (h : xs.Perm ys) : sumOf? xs = sumOf? ys := by
  cases xs with
  | nil => rw [h.nil_eq]
  | cons x xs =>
    cases ys with
    | nil => cases h.eq_nil
    | cons y ys => exact congrArg some h.sum_eq

theorem fieldTotal_perm {values values' : List (Option TokenCount)} (h : values.Perm values') :
    fieldTotal values = fieldTotal values' := by
  have hreported : (values.filterMap id).Perm (values'.filterMap id) := h.filterMap id
  unfold fieldTotal
  rw [sumOf?_perm (hreported.map _), hreported.length_eq, h.length_eq]

/-- **The order of the shares does not matter.** -/
theorem exactTotal_perm {shares shares' : List UsageShare} (h : shares.Perm shares') :
    exactTotal shares = exactTotal shares' := by
  unfold exactTotal
  simp only [h.length_eq, h.countP_eq, fieldTotal_perm (h.map _)]

theorem exactTotal_counts (shares : List UsageShare) :
    (exactTotal shares).finalizedActs =
        (exactTotal shares).reportedActs + (exactTotal shares).unavailableActs ∧
      (exactTotal shares).reportedActs =
        (exactTotal shares).availableActs + (exactTotal shares).partialActs := by
  induction shares with
  | nil => exact ⟨rfl, rfl⟩
  | cons share shares ih =>
    simp only [exactTotal, List.length_cons, List.countP_cons, ne_eq, decide_not] at ih ⊢
    cases share.availability <;> simp <;> omega

theorem UsageFieldAggregate.total_injective {a b : UsageFieldAggregate} (h : a.total = b.total) :
    a = b := by
  obtain ⟨hsum, hreported, hfinalized⟩ := FieldTotal.mk.injEq .. ▸ h
  obtain ⟨asum, areported, afinalized⟩ := a
  obtain ⟨bsum, breported, bfinalized⟩ := b
  cases SchemaU64.get_injective hreported
  cases SchemaU64.get_injective hfinalized
  cases Option.map_injective (fun _ _ => TokenCount.toNat_injective) hsum
  rfl

/-- Totals that denote the same sums are the same. -/
theorem UsageAggregate.total_injective {a b : UsageAggregate} (h : a.total = b.total) : a = b := by
  simp only [total, UsageTotal.mk.injEq] at h
  obtain ⟨hf, hr, ha, hp, hu, hprovider, hinput, houtput, hthought, hread, hwrite⟩ := h
  cases a
  cases b
  rw [UsageAggregate.mk.injEq]
  exact ⟨SchemaU64.get_injective hf, SchemaU64.get_injective hr, SchemaU64.get_injective ha,
    SchemaU64.get_injective hp, SchemaU64.get_injective hu,
    UsageFieldAggregate.total_injective hprovider, UsageFieldAggregate.total_injective hinput,
    UsageFieldAggregate.total_injective houtput, UsageFieldAggregate.total_injective hthought,
    UsageFieldAggregate.total_injective hread, UsageFieldAggregate.total_injective hwrite⟩

/-! ## Recording a usage -/

section Record

theorem incrementCount_eq_ok {value next eventSequence : SchemaU64}
    (h : incrementCount value eventSequence = .ok next) : next.get = value.get + 1 := by
  unfold incrementCount SchemaU64.checkedSucc at h
  split at h
  · rename_i hnext
    split at hnext
    · cases hnext
      cases h
      rfl
    · cases hnext
  · cases h

theorem parseTokenCount_eq_ok {text : String} {count : TokenCount}
    (h : parseTokenCount text = .ok count) : count.value = text := by
  unfold parseTokenCount at h
  split at h
  · cases h
    rfl
  · cases h

/-- Adding token counts adds the numbers. -/
theorem sumTokenCounts_toNat {current : Option TokenCount} {incoming sum : TokenCount}
    {eventSequence : SchemaU64} (h : sumTokenCounts current incoming eventSequence = .ok sum) :
    sum.toNat = (current.map TokenCount.toNat).getD 0 + incoming.toNat := by
  unfold sumTokenCounts at h
  have hvalue := parseTokenCount_eq_ok (mapError_eq_ok.mp h)
  unfold TokenCount.toNat
  rw [hvalue, digitsValue_repr]
  cases current <;> rfl

theorem UsageFieldAggregate.record_total {aggregate result : UsageFieldAggregate}
    {values : List (Option TokenCount)} {value : Option TokenCount} {eventSequence : SchemaU64}
    (htotal : aggregate.total = fieldTotal values)
    (h : aggregate.record value eventSequence = .ok result) :
    result.total = fieldTotal (values ++ [value]) := by
  simp only [total, fieldTotal, FieldTotal.mk.injEq] at htotal
  obtain ⟨hsum, hreported, hfinalized⟩ := htotal
  obtain ⟨finalized, hfinalizedOk, h⟩ := bind_eq_ok.mp h
  have hnext := incrementCount_eq_ok hfinalizedOk
  cases value with
  | none =>
    cases h
    simp [total, fieldTotal, hsum, hreported, hnext, hfinalized, List.filterMap_append]
  | some value =>
    obtain ⟨reported, hreportedOk, h⟩ := bind_eq_ok.mp h
    obtain ⟨sum, hsumOk, h⟩ := bind_eq_ok.mp h
    cases h
    have hadded := sumTokenCounts_toNat hsumOk
    rw [hsum] at hadded
    simp [total, fieldTotal, hnext, hfinalized, incrementCount_eq_ok hreportedOk, hreported, hadded,
      List.filterMap_append, sumOf?_concat]

/-- Counting the availability adds to the counts it is about, and to nothing else. -/
theorem UsageAggregate.recordAvailability_total {aggregate counted : UsageAggregate}
    {usage : ProjectedActUsage} (h : aggregate.recordAvailability usage = .ok counted) :
    counted.total = { aggregate.total with
      reportedActs :=
        aggregate.total.reportedActs + if usage.availability ≠ .unavailable then 1 else 0
      availableActs := aggregate.total.availableActs + if usage.availability = .available then 1 else 0
      partialActs := aggregate.total.partialActs + if usage.availability = .partial_ then 1 else 0
      unavailableActs :=
        aggregate.total.unavailableActs + if usage.availability = .unavailable then 1 else 0 } := by
  unfold recordAvailability at h
  cases havailability : usage.availability with
  | available =>
    simp only [havailability, bind_eq_ok, Except.ok.injEq] at h
    obtain ⟨reported, hreported, available, havailable, rfl⟩ := h
    simp [total, incrementCount_eq_ok hreported, incrementCount_eq_ok havailable]
  | partial_ =>
    simp only [havailability, bind_eq_ok, Except.ok.injEq] at h
    obtain ⟨reported, hreported, partialActs, hpartial, rfl⟩ := h
    simp [total, incrementCount_eq_ok hreported, incrementCount_eq_ok hpartial]
  | unavailable =>
    simp only [havailability, bind_eq_ok, Except.ok.injEq] at h
    obtain ⟨unavailable, hunavailable, rfl⟩ := h
    simp [total, incrementCount_eq_ok hunavailable]

/-- **A recorded usage adds its share.** -/
theorem UsageAggregate.record_total {aggregate result : UsageAggregate} {shares : List UsageShare}
    {usage : ProjectedActUsage} (htotal : aggregate.total = exactTotal shares)
    (h : aggregate.record usage = .ok result) : result.total = exactTotal (shares ++ [usage.share]) := by
  obtain ⟨finalized, hfinalized, h⟩ := bind_eq_ok.mp h
  obtain ⟨counted, hcounted, h⟩ := bind_eq_ok.mp h
  obtain ⟨provider, hprovider, h⟩ := bind_eq_ok.mp h
  obtain ⟨input, hinput, h⟩ := bind_eq_ok.mp h
  obtain ⟨output, houtput, h⟩ := bind_eq_ok.mp h
  obtain ⟨thought, hthought, h⟩ := bind_eq_ok.mp h
  obtain ⟨read, hread, h⟩ := bind_eq_ok.mp h
  obtain ⟨write, hwrite, h⟩ := bind_eq_ok.mp h
  cases h
  have hnext := incrementCount_eq_ok hfinalized
  have hcounts := recordAvailability_total hcounted
  simp only [total, exactTotal, UsageTotal.mk.injEq] at htotal hcounts
  obtain ⟨hf, hr, ha, hp, hu, tprovider, tinput, toutput, tthought, tread, twrite⟩ := htotal
  obtain ⟨cf, cr, ca, cp, cu, cprovider, cinput, coutput, cthought, cread, cwrite⟩ := hcounts
  simp only [total, exactTotal, UsageTotal.mk.injEq, List.map_append, List.map_singleton,
    List.length_append, List.length_singleton, List.countP_append, List.countP_singleton, cf, cr, ca,
    cp, cu, hr, ha, hp, hu, hnext, hf, decide_eq_true_eq, true_and,
    UsageFieldAggregate.record_total (cprovider.trans tprovider) hprovider,
    UsageFieldAggregate.record_total (cinput.trans tinput) hinput,
    UsageFieldAggregate.record_total (coutput.trans toutput) houtput,
    UsageFieldAggregate.record_total (cthought.trans tthought) hthought,
    UsageFieldAggregate.record_total (cread.trans tread) hread,
    UsageFieldAggregate.record_total (cwrite.trans twrite) hwrite]
  cases havailability : usage.availability <;> simp [ProjectedActUsage.share, havailability]

theorem UsageAggregate.total_empty : UsageAggregate.empty.total = exactTotal [] := rfl

/-- The total over all records is their exact total. -/
theorem aggregateRecords_total {usages : List ProjectedActUsage} {aggregate : UsageAggregate}
    (h : aggregateRecords usages = .ok aggregate) :
    aggregate.total = exactTotal (usages.map ProjectedActUsage.share) := by
  induction usages using List.reverseRecOn generalizing aggregate with
  | nil =>
    cases h
    rfl
  | append_singleton usages usage ih =>
    obtain ⟨before, hbefore, hrecord⟩ := foldlM_concat_eq_ok.mp h
    rw [List.map_append]
    exact UsageAggregate.record_total (ih hbefore) hrecord

end Record

/-! ## Totals by scope -/

/-- The scoped totals are those of the shares that `under` puts under each scope; a scope without
any has no total. -/
structure ScopedTotals (aggregates : List ScopedUsageAggregate)
    (under : DiagnosticScope → List UsageShare) : Prop where
  keyed : Keyed ScopedUsageAggregate.scope aggregates
  exact_ : ∀ entry ∈ aggregates, entry.aggregate.total = exactTotal (under entry.scope)
  named : ∀ scope, (∃ entry ∈ aggregates, entry.scope = scope) ↔ under scope ≠ []

section Scoped

variable {aggregates result : List ScopedUsageAggregate} {usage : ProjectedActUsage}
  {under : DiagnosticScope → List UsageShare}

/-- One more share under one scope. -/
theorem recordScopedAggregate_total {scope : DiagnosticScope} (h : ScopedTotals aggregates under)
    (hok : recordScopedAggregate aggregates scope usage = .ok result) :
    ScopedTotals result (Function.update under scope (under scope ++ [usage.share])) := by
  obtain ⟨hkeyed, item, hitem, hwritten, hmem⟩ := upsert_ok h.keyed
    (by
      intro old item hold hnew
      obtain ⟨_, -, hitem⟩ := bind_eq_ok.mp hnew
      cases hitem
      exact hold)
    (by
      intro item hnew
      obtain ⟨_, -, hitem⟩ := bind_eq_ok.mp hnew
      cases hitem
      rfl)
    hok
  have htotal : item.aggregate.total = exactTotal (under scope ++ [usage.share]) := by
    rcases hwritten with ⟨old, hold, hscope, hupdate⟩ | ⟨hnone, hinsert⟩
    · obtain ⟨aggregate, hrecord, hnew⟩ := bind_eq_ok.mp hupdate
      cases hnew
      rw [← hscope]
      exact UsageAggregate.record_total (h.exact_ old hold) hrecord
    · obtain ⟨aggregate, hrecord, hnew⟩ := bind_eq_ok.mp hinsert
      cases hnew
      have hempty : under scope = [] := by
        by_contra hne
        obtain ⟨old, hold, hscope⟩ := (h.named scope).mpr hne
        exact hnone old hold hscope
      rw [hempty]
      exact UsageAggregate.record_total UsageAggregate.total_empty hrecord
  refine ⟨hkeyed, fun entry hentry => ?_, fun other => ?_⟩
  · rcases (hmem entry).mp hentry with rfl | ⟨hold, hne⟩
    · rw [hitem, Function.update_self]
      exact htotal
    · rw [Function.update_of_ne hne]
      exact h.exact_ entry hold
  · by_cases hother : other = scope
    · subst hother
      rw [Function.update_self]
      exact iff_of_true ⟨item, (hmem item).mpr (Or.inl rfl), hitem⟩ (by simp)
    · rw [Function.update_of_ne hother, ← h.named other]
      constructor
      · rintro ⟨entry, hentry, rfl⟩
        rcases (hmem entry).mp hentry with rfl | ⟨hold, -⟩
        · exact absurd hitem hother
        · exact ⟨entry, hold, rfl⟩
      · rintro ⟨entry, hentry, rfl⟩
        exact ⟨entry, (hmem entry).mpr (Or.inr ⟨hentry, hother⟩), rfl⟩

/-- One more usage, under its scene and under its actor. -/
theorem recordScopedAggregates_total (h : ScopedTotals aggregates under)
    (hok : recordScopedAggregates aggregates usage = .ok result) :
    ScopedTotals result fun scope =>
      under scope ++ if scope ∈ usage.share.scopes then [usage.share] else [] := by
  unfold recordScopedAggregates at hok
  cases hscene : usage.scope.sceneId with
  | none =>
    rw [hscene] at hok
    cases hok
    have hnone : usage.share.scopes = [] := by simp [UsageShare.scopes, ProjectedActUsage.share, hscene]
    simpa [hnone] using h
  | some sceneId =>
    rw [hscene] at hok
    obtain ⟨scenes, hscenes, hok⟩ := bind_eq_ok.mp hok
    have hscenesTotal := recordScopedAggregate_total h hscenes
    cases hactor : usage.scope.actorId with
    | none =>
      rw [hactor] at hok
      cases hok
      convert hscenesTotal using 1
      funext scope
      by_cases hscope : scope = { DiagnosticScope.run with sceneId := some sceneId }
      · simp [hscope, UsageShare.scopes, ProjectedActUsage.share, hscene, hactor]
      · simp [hscope, UsageShare.scopes, ProjectedActUsage.share, hscene, hactor]
    | some actorId =>
      rw [hactor] at hok
      convert recordScopedAggregate_total hscenesTotal hok using 1
      have hscopes : usage.share.scopes = [{ DiagnosticScope.run with sceneId := some sceneId },
          { DiagnosticScope.run with sceneId := some sceneId, actorId := some actorId }] := by
        simp [UsageShare.scopes, ProjectedActUsage.share, hscene, hactor]
      have hne : ({ DiagnosticScope.run with sceneId := some sceneId, actorId := some actorId } :
          DiagnosticScope) ≠ { DiagnosticScope.run with sceneId := some sceneId } := by
        simp [DiagnosticScope.run]
      funext scope
      rw [hscopes, Function.update_of_ne hne]
      by_cases hactorScope :
          scope = { DiagnosticScope.run with sceneId := some sceneId, actorId := some actorId }
      · simp [hactorScope]
      · rw [Function.update_of_ne hactorScope]
        by_cases hsceneScope : scope = { DiagnosticScope.run with sceneId := some sceneId }
        · simp [hsceneScope]
        · simp [hactorScope, hsceneScope]

theorem aggregateRecordsByScope_total {usages : List ProjectedActUsage}
    (h : aggregateRecordsByScope usages = .ok aggregates) :
    ScopedTotals aggregates fun scope =>
      (usages.map ProjectedActUsage.share).filter (scope ∈ ·.scopes) := by
  induction usages using List.reverseRecOn generalizing aggregates with
  | nil =>
    cases h
    exact ⟨List.Pairwise.nil, by simp, by simp⟩
  | append_singleton usages usage ih =>
    obtain ⟨before, hbefore, hrecord⟩ := foldlM_concat_eq_ok.mp h
    simpa only [List.map_append, List.filter_append, List.map_singleton, List.filter_singleton,
      Bool.cond_decide] using recordScopedAggregates_total (ih hbefore) hrecord

end Scoped

/-! ## Over a stream -/

namespace Usage

/-- `scope_contains`. -/
def scopeContains (parent child : DiagnosticScope) : Bool := Core.scopeContains parent child

/-- `aggregate_within_scope`, over `usages_within_scope`. -/
def aggregateWithinScope (model : UsageReadModel) (scope : DiagnosticScope) :
    Except UsageProjectionError UsageAggregate := do
  validate model
  aggregateRecords (model.usages.filter (scopeContains scope ·.scope))

/-- The record of a terminal usage. -/
def usageOf? : DiagnosticEvent → Option ProjectedActUsage
  | .actTokenUsageFinalized event => event.header.scope.actId.map (.fromEvent event)
  | _ => none

section Stream

variable {runId : CanonicalUuid} {history events : List DiagnosticEvent} {event : DiagnosticEvent}
  {model model' : UsageReadModel} {scope : DiagnosticScope}

/-- A share's own scopes are those of scenes and actors that contain its usage. -/
theorem mem_scopes_iff {usage other : ProjectedActUsage} (h : scope ∈ other.share.scopes) :
    scope ∈ usage.share.scopes ↔ scopeContains scope usage.scope = true := by
  have hform : (∃ sceneId, scope = { DiagnosticScope.run with sceneId := some sceneId }) ∨
      ∃ sceneId actorId, scope =
        { DiagnosticScope.run with sceneId := some sceneId, actorId := some actorId } := by
    unfold UsageShare.scopes at h
    split at h
    · cases h
    · rename_i sceneId _ _
      exact Or.inl ⟨sceneId, List.mem_singleton.mp h⟩
    · rename_i sceneId actorId _ _
      rcases List.mem_cons.mp h with h | h
      · exact Or.inl ⟨sceneId, h⟩
      · exact Or.inr ⟨sceneId, actorId, List.mem_singleton.mp h⟩
  rcases hform with ⟨sceneId, rfl⟩ | ⟨sceneId, actorId, rfl⟩
  · have hscene : scopeContains { DiagnosticScope.run with sceneId := some sceneId } usage.scope = true ↔
        usage.scope.sceneId = some sceneId := by
      simp [scopeContains, Core.scopeContains, optionalIdContains, DiagnosticScope.run]
    rw [hscene]
    unfold UsageShare.scopes ProjectedActUsage.share
    cases usage.scope.sceneId with
    | none => simp
    | some other =>
      cases usage.scope.actorId <;> simp [DiagnosticScope.run, eq_comm]
  · have hactor : scopeContains
          { DiagnosticScope.run with sceneId := some sceneId, actorId := some actorId } usage.scope =
          true ↔ usage.scope.sceneId = some sceneId ∧ usage.scope.actorId = some actorId := by
      simp [scopeContains, Core.scopeContains, optionalIdContains, DiagnosticScope.run]
    rw [hactor]
    unfold UsageShare.scopes ProjectedActUsage.share
    cases usage.scope.sceneId with
    | none => simp
    | some other =>
      cases usage.scope.actorId <;> simp [DiagnosticScope.run, eq_comm]

theorem shares_within {usages : List ProjectedActUsage} {other : ProjectedActUsage}
    (h : scope ∈ other.share.scopes) :
    (usages.map ProjectedActUsage.share).filter (scope ∈ ·.scopes) =
      (usages.filter (scopeContains scope ·.scope)).map ProjectedActUsage.share := by
  rw [List.filter_map]
  congr 1
  refine List.filter_congr fun usage _ => ?_
  simp [mem_scopes_iff h, Function.comp]

theorem scopeContains_run (child : DiagnosticScope) : scopeContains .run child = true := rfl

/-- A terminal usage is recorded as it stands. -/
theorem candidateForEvent_usages (h : Summarises model runId history)
    (hnext : Next runId history event) (hok : candidateForEvent model event = .ok model') :
    model'.usages = model.usages ++ (usageOf? event).toList := by
  obtain ⟨candidate, hcandidate, rfl⟩ := (candidateForEvent_eq_ok h hnext).mp hok
  cases event with
  | actTokenUsageFinalized finalized =>
    obtain ⟨actId, _, _, hact, -, -, -, rfl⟩ := (finalizeUsage_eq_ok h.holds).mp hcandidate
    simp [usageOf?, hact]
  | _ =>
    cases hcandidate
    simp [usageOf?]

/-- A projector that has applied exactly `history`. -/
def Follows (runId : CanonicalUuid) (history : List DiagnosticEvent)
    (projector : Projector UsageReadModel) : Prop :=
  Summarises projector.model runId history ∧ projector.model.usages = history.filterMap usageOf?

theorem follows_apply (seen : List DiagnosticEvent) (projector : Projector UsageReadModel)
    (event : DiagnosticEvent) (projector' : Projector UsageReadModel)
    (h : Follows runId seen projector)
    (hok : UsageProjector.apply projector event = (.ok (), projector')) :
    Follows runId (seen ++ [event]) projector' := by
  obtain ⟨-, hcandidate⟩ := Projector.apply_eq_ok.mp hok
  obtain ⟨hsummary, husages⟩ := h
  obtain ⟨_, hposition, -⟩ := bind_eq_ok.mp hcandidate
  have hnext := next_of_validateUntiedPosition hsummary.covers (mapError_eq_ok.mp hposition)
  refine ⟨candidateForEvent_summarises hsummary hnext hcandidate, ?_⟩
  rw [candidateForEvent_usages hsummary hnext hcandidate, husages, List.filterMap_append]
  cases husage : usageOf? event <;> simp [husage]

theorem projectUsage_follows (h : projectUsage runId events = .ok model) :
    Summarises model runId events ∧ model.usages = events.filterMap usageOf? := by
  obtain ⟨projector, hrun, rfl⟩ := outcome_eq_ok.mp h
  exact applyAll_invariant (Follows runId) follows_apply [] ⟨summarises_empty runId, rfl⟩ hrun

/-- A total over the usages within a scope that denotes their exact sum is the recomputed one. -/
theorem aggregateWithinScope_eq (h : Summarises model runId history) {aggregate : UsageAggregate}
    (htotal : aggregate.total =
      exactTotal ((model.usages.filter (scopeContains scope ·.scope)).map ProjectedActUsage.share)) :
    aggregateWithinScope model scope = .ok aggregate := by
  have hlength : (model.usages.filter (scopeContains scope ·.scope)).length ≤ u64Max := by
    have hfiltered := List.length_filter_le (scopeContains scope ·.scope) model.usages
    have hsequence := model.throughSequence.le_max
    have hfewer := h.holds.length_le
    rw [h.covers.sequence] at hsequence
    omega
  obtain ⟨recomputed, hrecomputed, -⟩ := aggregateRecords_ok hlength
  unfold aggregateWithinScope
  rw [validate_ok h, ok_bind, hrecomputed,
    UsageAggregate.total_injective ((aggregateRecords_total hrecomputed).trans htotal.symm)]

end Stream

end Usage

section Exact

variable {runId : CanonicalUuid} {events : List DiagnosticEvent} {model : UsageReadModel}

/-- The counts of a total add up. -/
def UsageAggregate.Balanced (aggregate : UsageAggregate) : Prop :=
  aggregate.finalizedActs.get = aggregate.reportedActs.get + aggregate.unavailableActs.get ∧
    aggregate.reportedActs.get = aggregate.availableActs.get + aggregate.partialActs.get

theorem UsageAggregate.balanced_of_total {aggregate : UsageAggregate} {shares : List UsageShare}
    (h : aggregate.total = exactTotal shares) : aggregate.Balanced := by
  have hcounts := exactTotal_counts shares
  rw [← h] at hcounts
  exact hcounts

/-- The scoped totals of a model, in terms of its records. -/
theorem scopedTotals_of_follows (h : Usage.Summarises model runId events) :
    ScopedTotals model.scopedAggregates fun scope =>
      (model.usages.map ProjectedActUsage.share).filter (scope ∈ ·.scopes) :=
  aggregateRecordsByScope_total h.holds.byScope

/-- A scope has a total exactly when a recorded usage is counted under it. -/
theorem ScopedTotals.mem_scopes {aggregates : List ScopedUsageAggregate} {shares : List UsageShare}
    (h : ScopedTotals aggregates fun scope => shares.filter (scope ∈ ·.scopes))
    (scope : DiagnosticScope) :
    scope ∈ aggregates.map ScopedUsageAggregate.scope ↔ ∃ share ∈ shares, scope ∈ share.scopes := by
  rw [List.mem_map, h.named scope, ne_eq, List.filter_eq_nil_iff]
  simp

/-- Scoped totals of the same shares are the same, in some order. -/
theorem ScopedTotals.perm {aggregates aggregates' : List ScopedUsageAggregate}
    {shares shares' : List UsageShare} (hshares : shares.Perm shares')
    (h : ScopedTotals aggregates fun scope => shares.filter (scope ∈ ·.scopes))
    (h' : ScopedTotals aggregates' fun scope => shares'.filter (scope ∈ ·.scopes)) :
    aggregates.Perm aggregates' := by
  have hincluded {xs ys : List ScopedUsageAggregate} {us vs : List UsageShare} (hperm : us.Perm vs)
      (hx : ScopedTotals xs fun scope => us.filter (scope ∈ ·.scopes))
      (hy : ScopedTotals ys fun scope => vs.filter (scope ∈ ·.scopes)) : ∀ x ∈ xs, x ∈ ys := by
    intro x hmem
    have hnamed := (hx.named x.scope).mp ⟨x, hmem, rfl⟩
    obtain ⟨y, hymem, hscope⟩ := (hy.named x.scope).mpr fun hnil => hnamed (by
      have := hperm.filter (x.scope ∈ ·.scopes)
      rw [hnil] at this
      exact this.eq_nil)
    have htotal : x.aggregate = y.aggregate := by
      refine UsageAggregate.total_injective ?_
      rw [hx.exact_ x hmem, hy.exact_ y hymem, hscope]
      exact exactTotal_perm (hperm.filter _)
    have hsame : x = y := by
      cases x
      cases y
      cases hscope
      cases htotal
      rfl
    exact hsame ▸ hymem
  have hnodup {xs : List ScopedUsageAggregate} (hx : Keyed ScopedUsageAggregate.scope xs) :
      xs.Nodup := hx.imp fun hne heq => hne (congrArg _ heq)
  exact (List.perm_ext_iff_of_nodup (hnodup h.keyed) (hnodup h'.keyed)).mpr fun x =>
    ⟨hincluded hshares h h' x, hincluded hshares.symm h' h x⟩

/-- **Totals are exact.** Whatever the usage projector accepts: the run's total and every scoped total
denote the exact sums over the records in their scope, as does a recomputation from these records; the
counts add up; there is one total for each scene and each actor with a usage; what usages add up to does
not depend on their order; and the read model passes its own check. -/
theorem usage_totals_exact (h : projectUsage runId events = .ok model) :
    model.usages = events.filterMap Usage.usageOf? ∧
    model.aggregate.total = exactTotal (model.usages.map ProjectedActUsage.share) ∧
    Usage.aggregateWithinScope model .run = .ok model.aggregate ∧
    (∀ entry ∈ model.scopedAggregates,
      entry.aggregate.total = exactTotal ((model.usages.filter
        (Usage.scopeContains entry.scope ·.scope)).map ProjectedActUsage.share) ∧
      Usage.aggregateWithinScope model entry.scope = .ok entry.aggregate) ∧
    model.aggregate.Balanced ∧
    (∀ entry ∈ model.scopedAggregates, entry.aggregate.Balanced) ∧
    (model.scopedAggregates.map ScopedUsageAggregate.scope).Nodup ∧
    (∀ scope, scope ∈ model.scopedAggregates.map ScopedUsageAggregate.scope ↔
      ∃ usage ∈ model.usages, scope ∈ usage.share.scopes) ∧
    (∀ runId' events' model', projectUsage runId' events' = .ok model' →
      ((events'.filterMap Usage.usageOf?).map ProjectedActUsage.share).Perm
        ((events.filterMap Usage.usageOf?).map ProjectedActUsage.share) →
      model'.aggregate = model.aggregate ∧
        model'.scopedAggregates.Perm model.scopedAggregates) ∧
    Usage.validate model = .ok () := by
  obtain ⟨hsummary, husages⟩ := Usage.projectUsage_follows h
  have hrun := aggregateRecords_total hsummary.holds.aggregate
  have hscopes := scopedTotals_of_follows hsummary
  have hwithin : ∀ entry ∈ model.scopedAggregates, entry.aggregate.total = exactTotal
      ((model.usages.filter (Usage.scopeContains entry.scope ·.scope)).map
        ProjectedActUsage.share) := fun entry hentry => by
    obtain ⟨share, hshare, hmem⟩ := (hscopes.mem_scopes entry.scope).mp (List.mem_map_of_mem hentry)
    obtain ⟨usage, -, rfl⟩ := List.mem_map.mp hshare
    rw [hscopes.exact_ entry hentry, Usage.shares_within hmem]
  refine ⟨husages, hrun, ?_, fun entry hentry => ⟨hwithin entry hentry,
    Usage.aggregateWithinScope_eq hsummary (hwithin entry hentry)⟩,
    UsageAggregate.balanced_of_total hrun, fun entry hentry =>
    UsageAggregate.balanced_of_total (hscopes.exact_ entry hentry), List.pairwise_map.mpr hscopes.keyed,
    fun scope => ?_, fun runId' events' model' h' hperm => ?_, Usage.validate_ok hsummary⟩
  · refine Usage.aggregateWithinScope_eq hsummary ?_
    have hall : model.usages.filter (Usage.scopeContains .run ·.scope) = model.usages :=
      List.filter_eq_self.mpr fun usage _ => Usage.scopeContains_run usage.scope
    rw [hall, hrun]
  · rw [hscopes.mem_scopes scope]
    simp
  · obtain ⟨hsummary', husages'⟩ := Usage.projectUsage_follows h'
    rw [← husages, ← husages'] at hperm
    refine ⟨UsageAggregate.total_injective ?_, ScopedTotals.perm hperm
      (scopedTotals_of_follows hsummary') hscopes⟩
    rw [hrun, aggregateRecords_total hsummary'.holds.aggregate]
    exact exactTotal_perm hperm

end Exact

/-- An act of the actor `actor-1` in the scene `scene-1`, with `input` input tokens reported. -/
def shownUsage (sequence : SchemaU64) (actId : RunLocalId) (input : TokenCount)
    (h : 0 < sequence.get) : DiagnosticEvent :=
  .actTokenUsageFinalized
    { header := ⟨⟨1⟩, sequence, 10, { DiagnosticScope.run with
        sceneId := some ⟨"scene-1", by decide +kernel⟩
        actorId := some ⟨"actor-1", by decide +kernel⟩
        actId := some actId }, [], h⟩
      availability := .partial_
      source := some .acpPromptResponseUsage
      unavailableReason := none
      tokens := ⟨none, some input, none, none, none, none⟩
      valid := rfl }

/-- Two acts. -/
def shownUsages : List DiagnosticEvent :=
  [shownUsage 1 ⟨"act-1", by decide +kernel⟩ ⟨"18446744073709551615", by decide +kernel⟩ SchemaU64.one_pos,
    shownUsage 2 ⟨"act-2", by decide +kernel⟩ ⟨"1", by decide +kernel⟩ SchemaU64.two_pos]

/-- Their tokens add up to a number that does not fit in 64 bits. -/
theorem usage_totals_exact_shown : ∃ model, projectUsage ⟨1⟩ shownUsages = .ok model ∧
    model.aggregate.total.inputTokens = ⟨some (2 ^ 64), 2, 2⟩ := by
  have hok : ∃ model, projectUsage ⟨1⟩ shownUsages = .ok model := by
    cases hresult : projectUsage ⟨1⟩ shownUsages with
    | ok model => exact ⟨model, rfl⟩
    | error fault =>
      have : (projectUsage ⟨1⟩ shownUsages).isOk = true := by decide +kernel
      rw [hresult] at this
      cases this
  obtain ⟨model, hmodel⟩ := hok
  obtain ⟨husages, htotal, -⟩ := usage_totals_exact hmodel
  refine ⟨model, hmodel, ?_⟩
  rw [htotal, husages]
  decide +kernel

end Troupe.Store
