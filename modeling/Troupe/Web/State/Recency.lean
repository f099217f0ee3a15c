import Troupe.Web.State.Lru

/-! # Runs of a cache

What `lruSet`, `lruGet` and `lruDelete` make of a cache in any sequence.

* A run keeps the keys in the order they were used: a key is used by being written, and by being
  read where it is found. `UsedBefore` compares the last uses of two keys.
* `EvictsOldest` is what a write may let go: no more than the capacity demands, the keys used before
  all that stay, each reported with its value.

Headline results: `run_recent`, **`lruSet_evictsOldest`**. -/

namespace Troupe.Web.State

variable {K V : Type}

/-- A call of one of the functions of `state/lru.ts` that change a cache. -/
inductive LruCall (K V : Type) where
  | set (key : K) (value : V)
  | get (key : K)
  | delete (key : K)

/-- A cache, with the keys used so far, the newest last. -/
structure LruSession (K V : Type) where
  state : FixedLru K V
  uses : List K

/-- `older` was used last before `newer` was. -/
def UsedBefore (uses : List K) (older newer : K) : Prop :=
  ∃ earlier later, uses = earlier ++ newer :: later ∧ older ∉ newer :: later

/-- What a write lets go of the entries it finds, the new one among them. -/
structure EvictsOldest [DecidableEq K] (capacity : Nat) (uses : List K) (before : AList fun _ : K => V)
    (write : LruWrite K V) : Prop where
  size : write.evicted.length = before.keys.length - capacity
  left : write.state.entries.keys.length = min before.keys.length capacity
  nodup : (write.evicted.map Prod.fst).Nodup
  reported : ∀ key value, (key, value) ∈ write.evicted ↔
    before.lookup key = some value ∧ key ∉ write.state.entries
  kept : ∀ key ∈ write.state.entries,
    write.state.entries.lookup key = before.lookup key
  oldest : ∀ evicted ∈ write.evicted, ∀ key ∈ write.state.entries, UsedBefore uses evicted.1 key

/-- A new cache. -/
def LruSession.new (capacity : Nat) : LruSession K V := ⟨createFixedLru capacity, []⟩

section Session

variable [DecidableEq K]

/-- A call. -/
def FixedLru.call (state : FixedLru K V) : LruCall K V → FixedLru K V
  | .set key value => (lruSet state key value).state
  | .get key => (lruGet state key).state
  | .delete key => lruDelete state key

/-- The keys a call uses. -/
def FixedLru.usedBy (state : FixedLru K V) : LruCall K V → List K
  | .set key _ => [key]
  | .get key => if key ∈ state.entries then [key] else []
  | .delete _ => []

/-- A call, and what it uses. -/
def LruSession.step (session : LruSession K V) (call : LruCall K V) : LruSession K V :=
  ⟨session.state.call call, session.uses ++ session.state.usedBy call⟩

/-- A sequence of calls. -/
def LruSession.run (session : LruSession K V) (calls : List (LruCall K V)) : LruSession K V :=
  calls.foldl LruSession.step session

end Session

/-! ## Recency -/

section Recency

variable {uses : List K} {older newer key : K}

theorem UsedBefore.append (h : UsedBefore uses older newer) (hkey : older ≠ key) :
    UsedBefore (uses ++ [key]) older newer := by
  obtain ⟨earlier, later, huses, hlast⟩ := h
  refine ⟨earlier, later ++ [key], by rw [huses]; simp, ?_⟩
  simpa [hkey] using hlast

theorem usedBefore_last (hkey : older ≠ key) : UsedBefore (uses ++ [key]) older key :=
  ⟨uses, [], rfl, by simpa using hkey⟩

/-- Using a key moves it behind the others. -/
theorem pairwise_touched [DecidableEq K] {order : List K} (h : order.Pairwise (UsedBefore uses))
    (key : K) :
    (order.filter (· ≠ key) ++ [key]).Pairwise (UsedBefore (uses ++ [key])) := by
  have hother : ∀ other ∈ order.filter (· ≠ key), other ≠ key := fun other hmem => by
    simpa using (List.mem_filter.mp hmem).2
  refine List.pairwise_append.mpr ⟨?_, List.pairwise_singleton _ key, fun other hmem last hlast => ?_⟩
  · exact (h.filter _).imp_of_mem fun {other} {last} hmem _ hbefore =>
      hbefore.append (hother other hmem)
  · rw [List.mem_singleton.mp hlast]
    exact usedBefore_last (hother other hmem)

end Recency

/-! ## Runs -/

/-- What every run of a cache keeps. -/
structure LruSession.Recent (session : LruSession K V) : Prop extends session.state.Valid where
  recent : session.state.order.Pairwise (UsedBefore session.uses)

theorem new_recent (capacity : Nat) : (LruSession.new capacity : LruSession K V).Recent :=
  ⟨createFixedLru_valid capacity, .nil⟩

section Runs

variable [DecidableEq K] {session : LruSession K V}

theorem LruSession.Recent.step (h : session.Recent) (call : LruCall K V) :
    (session.step call).Recent := by
  cases call with
  | set key value =>
    refine ⟨lruSet_valid h.toValid key value, ?_⟩
    change (lruSet session.state key value).state.order.Pairwise
      (UsedBefore (session.uses ++ [key]))
    rw [(lruSet_eq h.toValid key value).1]
    exact (pairwise_touched h.recent key).drop
  | get key =>
    by_cases hmem : key ∈ session.state.entries
    · have hstate : session.state.call (.get key) = { session.state with
          order := session.state.order.filter (· ≠ key) ++ [key] } := lruGet_order h.toValid hmem
      have huses : session.state.usedBy (.get key : LruCall K V) = [key] := if_pos hmem
      rw [LruSession.step, hstate, huses]
      exact ⟨touched_valid h.toValid hmem, pairwise_touched h.recent key⟩
    · have hstate : session.state.call (.get key) = session.state := by
        rw [FixedLru.call, lruGet, AList.lookup_eq_none.mpr hmem]
      have huses : session.state.usedBy (.get key : LruCall K V) = [] := if_neg hmem
      rw [LruSession.step, hstate, huses, List.append_nil]
      exact h
  | delete key =>
    refine ⟨lruDelete_valid h.toValid key, ?_⟩
    change (lruDelete session.state key).order.Pairwise (UsedBefore (session.uses ++ []))
    rw [List.append_nil, lruDelete]
    split
    · exact h.recent.filter _
    · exact h.recent

theorem LruSession.Recent.run (h : session.Recent) (calls : List (LruCall K V)) :
    (session.run calls).Recent := by
  induction calls generalizing session with
  | nil => exact h
  | cons call rest ih => exact ih (h.step call)

theorem capacity_call (state : FixedLru K V) (call : LruCall K V) :
    (state.call call).capacity = state.capacity := by
  cases call with
  | set key value => exact capacity_lruSet
  | get key =>
    change (lruGet state key).state.capacity = state.capacity
    unfold lruGet
    split
    · rfl
    split <;> rfl
  | delete key =>
    change (lruDelete state key).capacity = state.capacity
    unfold lruDelete
    split <;> rfl

theorem capacity_run (session : LruSession K V) (calls : List (LruCall K V)) :
    (session.run calls).state.capacity = session.state.capacity := by
  induction calls generalizing session with
  | nil => rfl
  | cons call rest ih => exact (ih (session.step call)).trans (capacity_call session.state call)

/-- What is reported under the keys that are let go. -/
theorem map_fst_reported {entries : AList fun _ : K => V} {dropped : List K}
    (h : ∀ key ∈ dropped, key ∈ entries) :
    (dropped.filterMap fun key => (entries.lookup key).map (key, ·)).map Prod.fst = dropped := by
  induction dropped with
  | nil => rfl
  | cons key rest ih =>
    obtain ⟨value, hvalue⟩ :=
      Option.isSome_iff_exists.mp (AList.lookup_isSome.mpr (h key List.mem_cons_self))
    rw [List.filterMap_cons, hvalue]
    simp [ih fun key hkey => h key (List.mem_cons_of_mem _ hkey)]

theorem mem_reported {entries : AList fun _ : K => V} {dropped : List K} {key : K} {value : V} :
    (key, value) ∈ dropped.filterMap (fun key => (entries.lookup key).map (key, ·)) ↔
      key ∈ dropped ∧ entries.lookup key = some value := by
  simp only [List.mem_filterMap, Option.map_eq_some_iff, Prod.mk.injEq]
  constructor
  · rintro ⟨key', hkey, value', hvalue, rfl, rfl⟩
    exact ⟨hkey, hvalue⟩
  · rintro ⟨hkey, hvalue⟩
    exact ⟨key, hkey, value, hvalue, rfl, rfl⟩

/-- **A write lets the least recently used keys go**, and reports them. -/
theorem lruSet_evictsOldest (h : session.Recent) (key : K) (value : V) :
    EvictsOldest session.state.capacity (session.uses ++ [key])
      (session.state.entries.insert key value) (lruSet session.state key value) := by
  obtain ⟨horder, hevicted, hlookup⟩ := lruSet_eq h.toValid key value
  have hvalid := lruSet_valid h.toValid key value
  have htouched := touched_nodup h.nodup key
  have hrecent := pairwise_touched h.recent key
  have hmem (other : K) : other ∈ session.state.order.filter (· ≠ key) ++ [key] ↔
      other ∈ session.state.entries.insert key value := by
    rw [mem_touched, AList.mem_insert, h.mem]
  generalize session.state.order.filter (· ≠ key) ++ [key] = order at *
  generalize session.state.entries.insert key value = before at *
  generalize lruSet session.state key value = write at *
  have hsize : order.length = before.keys.length :=
    ((List.perm_ext_iff_of_nodup htouched before.nodupKeys).mpr hmem).length_eq
  have hexcess : before.keys.length - session.state.capacity ≤ order.length := by omega
  rw [hsize] at horder hevicted hlookup
  obtain ⟨excess, hsame⟩ : ∃ excess, before.keys.length - session.state.capacity = excess := ⟨_, rfl⟩
  rw [hsame] at horder hevicted hlookup hexcess
  have hkeys : write.evicted.map Prod.fst = order.take excess := by
    rw [hevicted]
    exact map_fst_reported fun other hother => (hmem other).mp (List.mem_of_mem_take hother)
  constructor
  · rw [← List.length_map Prod.fst, hkeys, List.length_take, hsame, Nat.min_eq_left hexcess]
  · have hperm : write.state.order.Perm write.state.entries.keys :=
      (List.perm_ext_iff_of_nodup hvalid.nodup write.state.entries.nodupKeys).mpr hvalid.mem
    rw [← hperm.length_eq, horder, List.length_drop]
    omega
  · rw [hkeys]
    exact htouched.sublist (List.take_sublist excess order)
  · intro other value'
    rw [hevicted, mem_reported, ← AList.lookup_eq_none, hlookup]
    constructor
    · rintro ⟨hdropped, hvalue⟩
      exact ⟨hvalue, if_pos hdropped⟩
    · rintro ⟨hvalue, hnone⟩
      refine ⟨?_, hvalue⟩
      by_contra hkept
      rw [if_neg hkept, hvalue] at hnone
      cases hnone
  · intro other hother
    rw [hlookup]
    split
    · rename_i hdropped
      have hnone := hlookup other
      rw [if_pos hdropped] at hnone
      exact absurd hother (AList.lookup_eq_none.mp hnone)
    · rfl
  · intro evicted hlost other hother
    have hdropped : evicted.1 ∈ order.take excess := hkeys ▸ List.mem_map_of_mem hlost
    have hkept : other ∈ order.drop excess := horder ▸ (hvalid.mem other).mpr hother
    rw [← List.take_append_drop excess order] at hrecent
    exact (List.pairwise_append.mp hrecent).2.2 evicted.1 hdropped other hkept

end Runs

end Troupe.Web.State
