import Mathlib.Data.List.AList
import Mathlib.Data.List.Perm.Basic

/-! # Fixed-capacity caches

`state/lru.ts`. A cache is a `Map` with the keys in the order of their last use; `lruSet` makes a key
the newest and lets the oldest keys go until the capacity holds.

* A `Map` is an `AList`: it has one entry for a key. The keys are those on which `Object.is` is the
  equality of the map, as it is on all but the zeros; the values are those that are not `undefined`.
* `FixedLru.Valid`: the order lists the keys of the map, once each, and no more than the capacity.
  `createFixedLru` makes such a cache, `lruSet` keeps it one, and what it leaves under a key was there
  or is what was written (`lookup_lruSet`). -/

namespace Troupe.Web.State

/-- `FixedLru`. -/
structure FixedLru (K V : Type) where
  capacity : Nat
  entries : AList fun _ : K => V
  order : List K

/-- `LruWrite`. -/
structure LruWrite (K V : Type) where
  state : FixedLru K V
  evicted : List (K × V)

/-- `LruRead`. -/
structure LruRead (K V : Type) where
  state : FixedLru K V
  value : Option V

section Lru

variable {K V : Type}

/-- `createFixedLru`, of a positive capacity. -/
def createFixedLru (capacity : Nat) : FixedLru K V := ⟨capacity, ∅, []⟩

/-- The values of a map, each changed in place. -/
def mapValues (f : V → V) (entries : AList fun _ : K => V) : AList fun _ : K => V where
  entries := entries.entries.map fun entry => ⟨entry.1, f entry.2⟩
  nodupKeys := by
    rw [List.NodupKeys, List.keys, List.map_map]
    exact entries.nodupKeys

/-- What the functions of the file rely on. -/
structure FixedLru.Valid (state : FixedLru K V) : Prop where
  nodup : state.order.Nodup
  mem : ∀ key, key ∈ state.order ↔ key ∈ state.entries
  bounded : state.order.length ≤ state.capacity

theorem FixedLru.Valid.size_le {state : FixedLru K V} (h : state.Valid) :
    state.entries.keys.length ≤ state.capacity := by
  have hperm : state.order.Perm state.entries.keys :=
    (List.perm_ext_iff_of_nodup h.nodup state.entries.nodupKeys).mpr h.mem
  exact hperm.length_eq ▸ h.bounded

theorem createFixedLru_valid (capacity : Nat) :
    (createFixedLru capacity : FixedLru K V).Valid := by
  refine ⟨List.nodup_nil, fun key => ?_, Nat.zero_le _⟩
  exact iff_of_false List.not_mem_nil (AList.notMem_empty key)

theorem keys_mapValues (f : V → V) (entries : AList fun _ : K => V) :
    (mapValues f entries).keys = entries.keys := by
  unfold mapValues AList.keys List.keys
  rw [List.map_map]
  rfl

/-- Changing values in place keeps the keys. -/
theorem FixedLru.Valid.mapValues {state : FixedLru K V} (h : state.Valid) (f : V → V) :
    ({ state with entries := mapValues f state.entries } : FixedLru K V).Valid := by
  refine ⟨h.nodup, fun key => ?_, h.bounded⟩
  rw [AList.mem_keys, keys_mapValues, ← AList.mem_keys]
  exact h.mem key

section Operations

variable [DecidableEq K]

/-- The loop of `lruSet`. -/
def evictOldest (capacity : Nat) :
    List K → (AList fun _ : K => V) → List (K × V) → LruWrite K V
  | [], entries, evicted => ⟨⟨capacity, entries, []⟩, evicted⟩
  | oldest :: order, entries, evicted =>
    if capacity < (oldest :: order).length then
      evictOldest capacity order (entries.erase oldest)
        (evicted ++ ((entries.lookup oldest).map (oldest, ·)).toList)
    else
      ⟨⟨capacity, entries, oldest :: order⟩, evicted⟩

/-- `lruSet`. -/
def lruSet (state : FixedLru K V) (key : K) (value : V) : LruWrite K V :=
  evictOldest state.capacity (state.order.filter (· ≠ key) ++ [key])
    (state.entries.insert key value) []

/-- `lruGet`. -/
def lruGet (state : FixedLru K V) (key : K) : LruRead K V :=
  match state.entries.lookup key with
  | none => ⟨state, none⟩
  | some value =>
    if state.order.getLast? = some key then ⟨state, some value⟩
    else ⟨{ state with order := state.order.filter (· ≠ key) ++ [key] }, some value⟩

/-- `lruDelete`. -/
def lruDelete (state : FixedLru K V) (key : K) : FixedLru K V :=
  if key ∈ state.entries then
    { state with
      entries := state.entries.erase key
      order := state.order.filter (· ≠ key) }
  else state

theorem lookup_mapValues (f : V → V) (entries : AList fun _ : K => V) (key : K) :
    (mapValues f entries).lookup key = (entries.lookup key).map f := by
  change List.dlookup key (entries.entries.map _) = _
  rw [AList.lookup]
  induction entries.entries with
  | nil => rfl
  | cons entry rest ih =>
    obtain ⟨k, v⟩ := entry
    by_cases hk : k = key
    · subst hk
      simp
    · simp [List.dlookup_cons_ne, Ne.symm hk, ih]

section Eviction

variable {capacity : Nat} {order : List K} {entries : AList fun _ : K => V}
  {evicted : List (K × V)}

theorem capacity_evictOldest :
    (evictOldest capacity order entries evicted).state.capacity = capacity := by
  induction order generalizing entries evicted with
  | nil => rfl
  | cons oldest order ih =>
    rw [evictOldest]
    split
    · exact ih
    · rfl

theorem evictOldest_valid (hnodup : order.Nodup) (hmem : ∀ key, key ∈ order ↔ key ∈ entries) :
    (evictOldest capacity order entries evicted).state.Valid := by
  induction order generalizing entries evicted with
  | nil => exact ⟨hnodup, hmem, Nat.zero_le _⟩
  | cons oldest order ih =>
    rw [evictOldest]
    split
    · obtain ⟨hnew, hrest⟩ := List.nodup_cons.mp hnodup
      refine ih hrest fun key => ?_
      rw [AList.mem_erase, ← hmem, List.mem_cons]
      constructor
      · intro hkey
        exact ⟨fun heq => hnew (heq ▸ hkey), .inr hkey⟩
      · rintro ⟨hne, heq | hkey⟩
        · exact absurd heq hne
        · exact hkey
    · rename_i hfits
      exact ⟨hnodup, hmem, Nat.not_lt.mp hfits⟩

/-- The loop drops the head of the order until the capacity holds, and reports what it drops. -/
theorem evictOldest_eq (hnodup : order.Nodup) :
    let dropped := order.take (order.length - capacity)
    (evictOldest capacity order entries evicted).state.order =
        order.drop (order.length - capacity) ∧
      (evictOldest capacity order entries evicted).evicted =
        evicted ++ dropped.filterMap (fun key => (entries.lookup key).map (key, ·)) ∧
      ∀ key, (evictOldest capacity order entries evicted).state.entries.lookup key =
        if key ∈ dropped then none else entries.lookup key := by
  induction order generalizing entries evicted with
  | nil => simp [evictOldest]
  | cons oldest order ih =>
    obtain ⟨hnew, hrest⟩ := List.nodup_cons.mp hnodup
    by_cases hfull : capacity < (oldest :: order).length
    · obtain ⟨horder, hevicted, hlookup⟩ := @ih (entries.erase oldest)
        (evicted ++ ((entries.lookup oldest).map (oldest, ·)).toList) hrest
      have hlength : (oldest :: order).length - capacity = order.length - capacity + 1 := by
        simp only [List.length_cons] at hfull ⊢
        omega
      rw [evictOldest, if_pos hfull, hlength, List.take_succ_cons, List.drop_succ_cons]
      refine ⟨horder, ?_, fun key => ?_⟩
      · rw [hevicted, List.append_assoc, List.filterMap_cons]
        congr 1
        have hsame : (order.take (order.length - capacity)).filterMap
            (fun key => ((entries.erase oldest).lookup key).map (key, ·)) =
            (order.take (order.length - capacity)).filterMap
              (fun key => (entries.lookup key).map (key, ·)) := by
          refine List.filterMap_congr fun key hkey => ?_
          rw [AList.lookup_erase_ne]
          rintro rfl
          exact hnew (List.mem_of_mem_take hkey)
        rw [hsame]
        cases entries.lookup oldest <;> rfl
      · rw [hlookup]
        by_cases hkey : key = oldest
        · subst hkey
          simp [AList.lookup_erase]
        · simp [hkey, AList.lookup_erase_ne hkey]
    · have hlength : (oldest :: order).length - capacity = 0 := by omega
      rw [evictOldest, if_neg hfull, hlength]
      simp

/-- What is left in the map was there. -/
theorem lookup_evictOldest {key : K} {value : V}
    (h : (evictOldest capacity order entries evicted).state.entries.lookup key = some value) :
    entries.lookup key = some value := by
  induction order generalizing entries evicted with
  | nil => exact h
  | cons oldest order ih =>
    rw [evictOldest] at h
    split at h
    · have hleft := ih h
      by_cases hkey : key = oldest
      · rw [hkey, AList.lookup_erase] at hleft
        cases hleft
      · rwa [AList.lookup_erase_ne hkey] at hleft
    · exact h

end Eviction

variable {state : FixedLru K V}

theorem capacity_lruSet {key : K} {value : V} :
    (lruSet state key value).state.capacity = state.capacity := capacity_evictOldest

/-- An order in which a key is the newest. -/
theorem touched_nodup {order : List K} (h : order.Nodup) (key : K) :
    (order.filter (· ≠ key) ++ [key]).Nodup := by
  refine List.nodup_append.mpr ⟨h.filter _, List.nodup_singleton key, ?_⟩
  intro other hother last hlast
  rw [List.mem_singleton.mp hlast]
  simpa using (List.mem_filter.mp hother).2

theorem mem_touched {order : List K} {key other : K} :
    other ∈ order.filter (· ≠ key) ++ [key] ↔ other = key ∨ other ∈ order := by
  rw [List.mem_append, List.mem_filter, List.mem_singleton]
  by_cases hother : other = key
  · simp [hother]
  · simp [hother]

theorem lruSet_valid (h : state.Valid) (key : K) (value : V) :
    (lruSet state key value).state.Valid := by
  refine evictOldest_valid (touched_nodup h.nodup key) fun other => ?_
  rw [mem_touched, AList.mem_insert, h.mem]

/-- What a write lets go. -/
theorem lruSet_eq (h : state.Valid) (key : K) (value : V) :
    let order := state.order.filter (· ≠ key) ++ [key]
    let entries := state.entries.insert key value
    let dropped := order.take (order.length - state.capacity)
    (lruSet state key value).state.order = order.drop (order.length - state.capacity) ∧
      (lruSet state key value).evicted =
        dropped.filterMap (fun key => (entries.lookup key).map (key, ·)) ∧
      ∀ key', (lruSet state key value).state.entries.lookup key' =
        if key' ∈ dropped then none else entries.lookup key' :=
  evictOldest_eq (touched_nodup h.nodup key)

/-- A write leaves what it wrote. -/
theorem lookup_lruSet_self (h : state.Valid) (hpos : 0 < state.capacity) (key : K) (value : V) :
    (lruSet state key value).state.entries.lookup key = some value := by
  obtain ⟨-, -, hlookup⟩ := lruSet_eq h key value
  rw [hlookup, if_neg, AList.lookup_insert]
  rw [List.take_append_of_le_length (by simp only [List.length_append, List.length_singleton]; omega)]
  intro hmem
  have hother := (List.mem_filter.mp (List.mem_of_mem_take hmem)).2
  simp at hother

theorem lruGet_entries {key : K} : (lruGet state key).state.entries = state.entries := by
  unfold lruGet
  split
  · rfl
  split <;> rfl

theorem lruGet_value {key : K} : (lruGet state key).value = state.entries.lookup key := by
  unfold lruGet
  split
  · rename_i hnone
    exact hnone.symm
  · rename_i hvalue
    rw [hvalue]
    split <;> rfl

/-- A read that finds its key makes it the newest. -/
theorem lruGet_order (h : state.Valid) {key : K} (hmem : key ∈ state.entries) :
    (lruGet state key).state =
      { state with order := state.order.filter (· ≠ key) ++ [key] } := by
  obtain ⟨value, hvalue⟩ := Option.isSome_iff_exists.mp (AList.lookup_isSome.mpr hmem)
  unfold lruGet
  rw [hvalue]
  dsimp only
  split
  · rename_i hlast
    obtain ⟨older, horder⟩ := List.getLast?_eq_some_iff.mp hlast
    have hnodup := h.nodup
    rw [horder] at hnodup
    have hold : key ∉ older := fun hkey =>
      (List.nodup_append.mp hnodup).2.2 key hkey key (List.mem_singleton_self key) rfl
    have hfilter : older.filter (· ≠ key) = older := by
      refine List.filter_eq_self.mpr fun other hother => decide_eq_true ?_
      rintro rfl
      exact hold hother
    rw [horder, List.filter_append, hfilter]
    simp [← horder]
  · rfl

theorem touched_valid (h : state.Valid) {key : K} (hmem : key ∈ state.entries) :
    ({ state with order := state.order.filter (· ≠ key) ++ [key] } : FixedLru K V).Valid := by
  have hkey := (h.mem key).mpr hmem
  refine ⟨touched_nodup h.nodup key, fun other => ?_, ?_⟩
  · rw [mem_touched, h.mem]
    constructor
    · rintro (rfl | hother)
      · exact hmem
      · exact hother
    · exact .inr
  · have herase : state.order.filter (· ≠ key) = state.order.erase key := by
      rw [h.nodup.erase_eq_filter]
      refine List.filter_congr fun other _ => ?_
      by_cases hother : other = key <;> simp [hother]
    have hpos := List.length_pos_of_mem hkey
    have hbounded := h.bounded
    dsimp only
    rw [herase, List.length_append, List.length_erase_of_mem hkey, List.length_singleton]
    omega

theorem lruDelete_valid (h : state.Valid) (key : K) : (lruDelete state key).Valid := by
  unfold lruDelete
  split
  · refine ⟨h.nodup.filter _, fun other => ?_, Nat.le_trans (List.length_filter_le _ _) h.bounded⟩
    rw [AList.mem_erase, List.mem_filter, h.mem, and_comm]
    simp
  · exact h

theorem lookup_lruDelete {key other : K} :
    (lruDelete state key).entries.lookup other =
      if other = key then none else state.entries.lookup other := by
  unfold lruDelete
  by_cases hkey : other = key
  · rw [if_pos hkey, hkey]
    split
    · exact AList.lookup_erase key _
    · rename_i habsent
      exact AList.lookup_eq_none.mpr habsent
  · rw [if_neg hkey]
    split
    · exact AList.lookup_erase_ne hkey
    · rfl

/-- What a write leaves under a key is the value written, or what was there. -/
theorem lookup_lruSet {key other : K} {value value' : V}
    (h : (lruSet state key value).state.entries.lookup other = some value') :
    (other = key ∧ value' = value) ∨ state.entries.lookup other = some value' := by
  have hinserted := lookup_evictOldest h
  by_cases hkey : other = key
  · rw [hkey, AList.lookup_insert] at hinserted
    exact .inl ⟨hkey, (Option.some.inj hinserted).symm⟩
  · rw [AList.lookup_insert_ne hkey] at hinserted
    exact .inr hinserted

end Operations

end Lru

end Troupe.Web.State
