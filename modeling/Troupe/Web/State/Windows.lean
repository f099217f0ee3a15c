import Troupe.Web.State.Queries
import Troupe.Web.State.Recency

/-! # The windows of a page

`state/windows.ts` moves windows between the place of the visible one and a cache of the others. Each
of its three functions is a few calls on the cache (`WindowCall.lruCalls`), so that what runs of a
cache keep (`Recency.lean`) holds of the windows.

* `Placed`: the visible window is not among the others, and each of these is under its own id.
* `Loses`: the window that is let go is the one used before all the others, and the cache is full.

Headline result: **`window_cache`**. -/

namespace Troupe.Web.State

open Troupe.Lib

/-! ## The calls -/

/-- `cacheAdjacentWindow`. -/
def cacheAdjacentWindow (state : WindowState) (window : EventWindow) :
    Except RangeError WindowState := do
  let candidate ← createEventWindow window
  return if state.visible.any fun visible => visible.id = candidate.id then state
    else { state with adjacent := (lruSet state.adjacent candidate.id candidate).state }

/-- `promoteAdjacentWindow`. -/
def promoteAdjacentWindow (state : WindowState) (id : String) : Except RangeError WindowState :=
  let read := lruGet state.adjacent id
  match read.value with
  | none => .ok state
  | some window => activateWindow { state with adjacent := lruDelete read.state id } window

/-- A call of one of the functions of `state/windows.ts` that move windows. -/
inductive WindowCall where
  | cache (window : EventWindow)
  | activate (window : EventWindow)
  | promote (id : String)

/-- What a call does. -/
def WindowState.call (windows : WindowState) : WindowCall → Except RangeError WindowState
  | .cache window => cacheAdjacentWindow windows window
  | .activate window => activateWindow windows window
  | .promote id => promoteAdjacentWindow windows id

/-- The calls of `activateWindow` on the cache. -/
def activatingCalls (visible : Option EventWindow) (window : EventWindow) :
    List (LruCall String EventWindow) :=
  match visible with
  | none => [.delete window.id]
  | some visible =>
    if visible.id = window.id then [] else [.delete window.id, .set visible.id visible]

/-- The calls of a function on the cache. -/
def WindowState.lruCalls (windows : WindowState) : WindowCall → List (LruCall String EventWindow)
  | .cache window =>
    if windows.visible.any fun visible => visible.id = window.id then []
    else [.set window.id window]
  | .activate window => activatingCalls windows.visible window
  | .promote id =>
    match windows.adjacent.entries.lookup id with
    | none => []
    | some window => [.get id, .delete id] ++ activatingCalls windows.visible window

/-- The windows, with the ids used so far of the cache. -/
structure WindowSession where
  windows : WindowState
  uses : List String

/-- The cache of a session. -/
def WindowSession.lru (session : WindowSession) : LruSession String EventWindow :=
  ⟨session.windows.adjacent, session.uses⟩

/-- A call; one that throws leaves the windows alone. -/
def WindowSession.step (session : WindowSession) (call : WindowCall) : WindowSession :=
  match session.windows.call call with
  | .ok windows => ⟨windows, (session.lru.run (session.windows.lruCalls call)).uses⟩
  | .error _ => session

/-- A sequence of calls. -/
def WindowSession.run (session : WindowSession) (calls : List WindowCall) : WindowSession :=
  calls.foldl WindowSession.step session

/-- The windows a page begins with. -/
def WindowSession.new : WindowSession := ⟨createWindowState, []⟩

/-! ## Where a window is -/

/-- Each window has one place. -/
structure WindowState.Placed (windows : WindowState) : Prop where
  visible : ∀ window, windows.visible = some window → window.id ∉ windows.adjacent.entries
  adjacent : ∀ id window, windows.adjacent.entries.lookup id = some window → window.id = id

/-- A window was let go as the one of the cache used before all the others. -/
structure WindowSession.Loses (session : WindowSession) (id : String) : Prop where
  full : session.windows.adjacent.entries.keys.length = session.windows.adjacent.capacity
  oldest : ∀ other ∈ session.windows.adjacent.entries, UsedBefore session.uses id other

/-- What every run of the calls keeps. -/
structure WindowSession.Kept (session : WindowSession) : Prop where
  lru : session.lru.Recent
  capacity : session.windows.adjacent.capacity = adjacentWindowCapacity
  placed : session.windows.Placed

section Calls

variable {windows next : WindowState} {window : EventWindow} {uses : List String}
  {adjacent : FixedLru String EventWindow}

theorem createEventWindow_eq_ok {candidate : EventWindow}
    (h : createEventWindow window = .ok candidate) : candidate = window := by
  unfold createEventWindow at h
  split at h
  · cases h
  split at h
  · cases h
  split at h
  · cases h
  obtain ⟨-, -, h⟩ := bind_eq_ok.mp h
  cases h
  rfl

theorem activateWindow_eq_ok (h : activateWindow windows window = .ok next) (uses : List String) :
    next = ⟨some window,
      (LruSession.run ⟨windows.adjacent, uses⟩ (activatingCalls windows.visible window)).state⟩ := by
  obtain ⟨candidate, hcandidate, h⟩ := bind_eq_ok.mp h
  cases createEventWindow_eq_ok hcandidate
  cases h
  unfold activatingCalls
  cases windows.visible with
  | none => rfl
  | some visible =>
    dsimp only
    split <;> rfl

/-- The windows are what the calls on the cache make of it. -/
theorem call_lru {call : WindowCall} (h : windows.call call = .ok next) (uses : List String) :
    next.adjacent = (LruSession.run ⟨windows.adjacent, uses⟩ (windows.lruCalls call)).state := by
  cases call with
  | cache window =>
    obtain ⟨candidate, hcandidate, h⟩ := bind_eq_ok.mp h
    cases createEventWindow_eq_ok hcandidate
    cases h
    rw [WindowState.lruCalls]
    split <;> rfl
  | activate window => rw [activateWindow_eq_ok h uses, WindowState.lruCalls]
  | promote id =>
    rw [WindowState.call, promoteAdjacentWindow, lruGet_value] at h
    rw [WindowState.lruCalls]
    split at h
    · cases h
      rfl
    · rw [activateWindow_eq_ok h
        (LruSession.run ⟨windows.adjacent, uses⟩ [.get id, .delete id]).uses]
      rfl

/-- The windows after an activation, by what was visible. -/
theorem activateWindow_cases (h : activateWindow windows window = .ok next) :
    (windows.visible = none ∧ next = ⟨some window, lruDelete windows.adjacent window.id⟩) ∨
    ∃ visible, windows.visible = some visible ∧
      ((visible.id = window.id ∧ next = ⟨some window, windows.adjacent⟩) ∨
        (visible.id ≠ window.id ∧ next = ⟨some window,
          (lruSet (lruDelete windows.adjacent window.id) visible.id visible).state⟩)) := by
  obtain ⟨candidate, hcandidate, h⟩ := bind_eq_ok.mp h
  cases createEventWindow_eq_ok hcandidate
  cases h
  cases windows.visible with
  | none => exact .inl ⟨rfl, rfl⟩
  | some visible =>
    refine .inr ⟨visible, rfl, ?_⟩
    by_cases hsame : visible.id = window.id
    · exact .inl ⟨hsame, if_pos hsame⟩
    · exact .inr ⟨hsame, if_neg hsame⟩

/-- Forgetting a key keeps the others under theirs. -/
theorem keyed_lruDelete
    (h : ∀ id window, adjacent.entries.lookup id = some window → window.id = id) (key : String) :
    ∀ id window, (lruDelete adjacent key).entries.lookup id = some window → window.id = id := by
  intro id window hwindow
  rw [lookup_lruDelete] at hwindow
  split at hwindow
  · cases hwindow
  · exact h id window hwindow

theorem keyed_lruSet
    (h : ∀ id window, adjacent.entries.lookup id = some window → window.id = id)
    (window : EventWindow) :
    ∀ id held, (lruSet adjacent window.id window).state.entries.lookup id = some held →
      held.id = id := by
  intro id held hheld
  rcases lookup_lruSet hheld with ⟨rfl, rfl⟩ | hbefore
  · rfl
  · exact h id held hbefore

theorem not_mem_lruDelete (adjacent : FixedLru String EventWindow) (key : String) :
    key ∉ (lruDelete adjacent key).entries := by
  rw [← AList.lookup_eq_none, lookup_lruDelete, if_pos rfl]

/-- A write puts no other key in. -/
theorem not_mem_lruSet {key other : String}
    {window : EventWindow} (h : other ∉ adjacent.entries) (hne : other ≠ key) :
    other ∉ (lruSet adjacent key window).state.entries := by
  intro hmem
  obtain ⟨held, hheld⟩ := Option.isSome_iff_exists.mp (AList.lookup_isSome.mpr hmem)
  rcases lookup_lruSet hheld with ⟨heq, -⟩ | hbefore
  · exact hne heq
  · exact h (AList.lookup_isSome.mp (by rw [hbefore]; rfl))

theorem activateWindow_placed (h : activateWindow windows window = .ok next)
    (hplaced : windows.Placed) : next.Placed := by
  rcases activateWindow_cases h with ⟨-, rfl⟩ | ⟨visible, hvisible, ⟨hsame, rfl⟩ | ⟨hother, rfl⟩⟩
  · refine ⟨?_, keyed_lruDelete hplaced.adjacent window.id⟩
    rintro _ ⟨⟩
    exact not_mem_lruDelete windows.adjacent window.id
  · refine ⟨?_, hplaced.adjacent⟩
    rintro _ ⟨⟩
    exact hsame ▸ hplaced.visible visible hvisible
  · refine ⟨?_, keyed_lruSet (keyed_lruDelete hplaced.adjacent window.id) visible⟩
    rintro _ ⟨⟩
    exact not_mem_lruSet (not_mem_lruDelete windows.adjacent window.id) (Ne.symm hother)

/-- Taking a window out of the cache. -/
theorem Placed.taken (hplaced : windows.Placed) (id : String) :
    WindowState.Placed { windows with
      adjacent := lruDelete (lruGet windows.adjacent id).state id } := by
  constructor
  · intro visible hvisible hmem
    refine hplaced.visible visible hvisible ?_
    rw [← AList.lookup_isSome, lookup_lruDelete, lruGet_entries] at hmem
    split at hmem
    · cases hmem
    · exact AList.lookup_isSome.mp hmem
  · refine keyed_lruDelete (fun other held hheld => hplaced.adjacent other held ?_) id
    rwa [lruGet_entries] at hheld

theorem call_placed {call : WindowCall} (h : windows.call call = .ok next)
    (hplaced : windows.Placed) : next.Placed := by
  cases call with
  | cache window =>
    obtain ⟨candidate, hcandidate, h⟩ := bind_eq_ok.mp h
    cases createEventWindow_eq_ok hcandidate
    cases h
    split
    · exact hplaced
    · rename_i hother
      refine ⟨fun visible hvisible => ?_, keyed_lruSet hplaced.adjacent window⟩
      refine not_mem_lruSet (hplaced.visible visible hvisible) fun hsame => hother ?_
      rw [hvisible]
      exact decide_eq_true hsame
  | activate window => exact activateWindow_placed h hplaced
  | promote id =>
    rw [WindowState.call, promoteAdjacentWindow, lruGet_value] at h
    split at h
    · cases h
      exact hplaced
    · exact activateWindow_placed h (Placed.taken hplaced id)

/-- A window that was in the cache, after another one was written. -/
theorem lruSet_holds (shown : EventWindow) {lru : LruSession String EventWindow} (h : lru.Recent)
    {held visible : EventWindow} (hheld : lru.state.entries.lookup held.id = some held)
    (hne : held.id ≠ visible.id) :
    (lruSet lru.state visible.id visible).state.entries.lookup held.id = some held ∨
      WindowSession.Loses ⟨⟨some shown, (lruSet lru.state visible.id visible).state⟩,
        lru.uses ++ [visible.id]⟩ held.id := by
  have hevicts := lruSet_evictsOldest h visible.id visible
  have hbefore : (lru.state.entries.insert visible.id visible).lookup held.id = some held :=
    (AList.lookup_insert_ne hne).trans hheld
  by_cases hkept : held.id ∈ (lruSet lru.state visible.id visible).state.entries
  · exact .inl ((hevicts.kept held.id hkept).trans hbefore)
  · have hlost := (hevicts.reported held.id held).mpr ⟨hbefore, hkept⟩
    have hsome := List.length_pos_of_mem hlost
    refine .inr ⟨?_, hevicts.oldest _ hlost⟩
    change (lruSet lru.state visible.id visible).state.entries.keys.length =
      (lruSet lru.state visible.id visible).state.capacity
    rw [hevicts.left, capacity_lruSet]
    have hsize := hevicts.size
    omega

/-- An activation loses no other window, but the least recently used one. -/
theorem activateWindow_holds (h : activateWindow windows window = .ok next)
    (hlru : LruSession.Recent ⟨windows.adjacent, uses⟩) (hpos : 0 < windows.adjacent.capacity)
    (hplaced : windows.Placed) {held : EventWindow} (hheld : windows.Holds held)
    (hne : held.id ≠ window.id) :
    next.Holds held ∨ WindowSession.Loses ⟨next,
      (LruSession.run ⟨windows.adjacent, uses⟩ (activatingCalls windows.visible window)).uses⟩
        held.id := by
  have hdeleted : ∀ id, windows.adjacent.entries.lookup id = some held →
      (lruDelete windows.adjacent window.id).entries.lookup held.id = some held := by
    intro id hid
    rw [lookup_lruDelete, if_neg hne, hplaced.adjacent id held hid]
    exact hid
  rcases activateWindow_cases h with
    ⟨hnone, rfl⟩ | ⟨visible, hvisible, ⟨hsame, rfl⟩ | ⟨hother, rfl⟩⟩
  · rcases hheld with hvisible | ⟨id, hid⟩
    · rw [hnone] at hvisible
      cases hvisible
    · exact .inl (.inr ⟨held.id, hdeleted id hid⟩)
  · rcases hheld with hshown | ⟨id, hid⟩
    · rw [hvisible] at hshown
      cases hshown
      exact absurd hsame hne
    · exact .inl (.inr ⟨id, hid⟩)
  · have hcalls : activatingCalls windows.visible window =
        [.delete window.id, .set visible.id visible] := by
      unfold activatingCalls
      rw [hvisible]
      exact if_neg hother
    rcases hheld with hshown | ⟨id, hid⟩
    · rw [hvisible] at hshown
      cases hshown
      refine .inl (.inr ⟨held.id, lookup_lruSet_self (lruDelete_valid hlru.toValid _) ?_ _ _⟩)
      exact (capacity_call windows.adjacent (.delete window.id : LruCall String EventWindow)) ▸ hpos
    · have hmid := hlru.step (.delete window.id)
      have hvisibleNe : held.id ≠ visible.id := by
        intro hsame
        refine hplaced.visible visible hvisible ?_
        rw [← hsame, hplaced.adjacent id held hid]
        exact AList.lookup_isSome.mp (by rw [hid]; rfl)
      rcases lruSet_holds window hmid (hdeleted id hid) hvisibleNe with hkept | hlost
      · exact .inl (.inr ⟨held.id, hkept⟩)
      · rw [hcalls]
        exact .inr hlost

/-- What a call makes the visible window, by its id. -/
def WindowCall.moves : WindowCall → Option String
  | .cache _ => none
  | .activate window => some window.id
  | .promote id => some id

theorem call_holds {call : WindowCall} (h : windows.call call = .ok next)
    (hlru : LruSession.Recent ⟨windows.adjacent, uses⟩) (hpos : 0 < windows.adjacent.capacity)
    (hplaced : windows.Placed) {id : String} (hmoves : call.moves = some id) {held : EventWindow}
    (hheld : windows.Holds held) (hne : held.id ≠ id) :
    next.Holds held ∨ WindowSession.Loses ⟨next,
      (LruSession.run ⟨windows.adjacent, uses⟩ (windows.lruCalls call)).uses⟩ held.id := by
  cases call with
  | cache window => cases hmoves
  | activate window =>
    cases hmoves
    exact activateWindow_holds h hlru hpos hplaced hheld hne
  | promote id =>
    cases hmoves
    rw [WindowState.call, promoteAdjacentWindow, lruGet_value] at h
    rw [WindowState.lruCalls]
    split at h
    · cases h
      exact .inl hheld
    · rename_i window hwindow
      have hid : window.id = id := hplaced.adjacent id window hwindow
      refine activateWindow_holds h (hlru.run [.get id, .delete id]) ?_ (Placed.taken hplaced id) ?_
        (hid ▸ hne)
      · have hcapacity := capacity_run ⟨windows.adjacent, uses⟩
          ([.get id, .delete id] : List (LruCall String EventWindow))
        exact hcapacity ▸ hpos
      · rcases hheld with hshown | ⟨other, hother⟩
        · exact .inl hshown
        · refine .inr ⟨held.id, ?_⟩
          rw [lookup_lruDelete, if_neg hne, lruGet_entries, hplaced.adjacent other held hother]
          exact hother

end Calls

/-! ## Runs -/

section Runs

variable {session : WindowSession}

theorem WindowSession.Kept.step (h : session.Kept) (call : WindowCall) :
    (session.step call).Kept := by
  unfold WindowSession.step
  split
  · rename_i next hnext
    have hadjacent := call_lru hnext session.uses
    have hlru : (⟨next, (session.lru.run (session.windows.lruCalls call)).uses⟩ :
        WindowSession).lru = session.lru.run (session.windows.lruCalls call) := by
      rw [WindowSession.lru, hadjacent]
      rfl
    refine ⟨hlru ▸ h.lru.run _, ?_, call_placed hnext h.placed⟩
    dsimp only
    rw [hadjacent, capacity_run]
    exact h.capacity
  · exact h

theorem new_kept : WindowSession.new.Kept := by
  refine ⟨new_recent adjacentWindowCapacity, rfl, ?_, ?_⟩
  · rintro window ⟨⟩
  · intro id window hwindow
    cases hwindow

theorem WindowSession.Kept.run (h : session.Kept) (calls : List WindowCall) :
    (session.run calls).Kept := by
  induction calls generalizing session with
  | nil => exact h
  | cons call rest ih => exact ih (h.step call)

/-- One call on windows as every run keeps them. -/
theorem step_holds (h : session.Kept) {call : WindowCall} {id : String}
    (hmoves : call.moves = some id) {held : EventWindow} (hheld : session.windows.Holds held)
    (hne : held.id ≠ id) :
    (session.step call).windows.Holds held ∨ (session.step call).Loses held.id := by
  unfold WindowSession.step
  split
  · rename_i next hnext
    have hpos : 0 < session.windows.adjacent.capacity := by
      rw [h.capacity]
      decide
    exact call_holds hnext h.lru hpos h.placed hmoves hheld hne
  · exact .inl hheld

/-- A window that is activated is shown. -/
theorem step_visible {call : WindowCall} {windows : WindowState} {window candidate : EventWindow}
    (hcall : session.windows.call call = activateWindow windows window)
    (hcandidate : createEventWindow window = .ok candidate) :
    (session.step call).windows.visible = some window := by
  obtain ⟨next, hnext⟩ : ∃ next, activateWindow windows window = .ok next := by
    rw [activateWindow, hcandidate]
    exact ⟨_, rfl⟩
  unfold WindowSession.step
  rw [hcall, hnext]
  rcases activateWindow_cases hnext with ⟨-, rfl⟩ | ⟨visible, -, ⟨-, rfl⟩ | ⟨-, rfl⟩⟩ <;> rfl

/-- **A cache and its order agree, and the least recently used goes**, in every sequence of calls;
and the windows of a page are each in one place, none but the least recently used is lost, and a
window that is activated or promoted is shown. -/
theorem window_cache :
    (∀ {K V : Type} [DecidableEq K] (capacity : Nat) (calls : List (LruCall K V)),
      let session := (LruSession.new capacity).run calls
      session.state.order.Nodup ∧ session.state.order.Perm session.state.entries.keys ∧
        session.state.order.length ≤ capacity ∧
        ∀ key value, EvictsOldest capacity (session.uses ++ [key])
          (session.state.entries.insert key value) (lruSet session.state key value)) ∧
    ∀ calls : List WindowCall,
      let session := WindowSession.new.run calls
      (∀ window, session.windows.visible = some window →
        window.id ∉ session.windows.adjacent.entries) ∧
      (∀ window candidate, createEventWindow window = .ok candidate →
        (session.step (.activate window)).windows.visible = some window ∧
          ∀ id, session.windows.adjacent.entries.lookup id = some window →
            (session.step (.promote id)).windows.visible = some window) ∧
      ∀ call id held, call.moves = some id → session.windows.Holds held → held.id ≠ id →
        (session.step call).windows.Holds held ∨ (session.step call).Loses held.id := by
  constructor
  · intro K V _ capacity calls session
    have hrecent := (new_recent capacity).run calls
    have hcapacity : session.state.capacity = capacity :=
      capacity_run (LruSession.new capacity) calls
    refine ⟨hrecent.nodup, ?_, hcapacity ▸ hrecent.bounded, fun key value => ?_⟩
    · exact (List.perm_ext_iff_of_nodup hrecent.nodup session.state.entries.nodupKeys).mpr
        hrecent.mem
    · exact hcapacity ▸ lruSet_evictsOldest hrecent key value
  · intro calls session
    have hkept := new_kept.run calls
    refine ⟨hkept.placed.visible, fun window candidate hcandidate =>
      ⟨step_visible rfl hcandidate, fun id hcached => ?_⟩, fun call id held hmoves hheld hne =>
        step_holds hkept hmoves hheld hne⟩
    have hcall : session.windows.call (.promote id) = activateWindow { session.windows with
        adjacent := lruDelete (lruGet session.windows.adjacent id).state id } window := by
      rw [WindowState.call, promoteAdjacentWindow, lruGet_value, hcached]
    exact step_visible hcall hcandidate

end Runs

end Troupe.Web.State
