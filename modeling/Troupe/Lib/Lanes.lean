import Mathlib.Algebra.Order.Ring.Int
import Mathlib.Data.List.Basic
import Mathlib.Data.List.Induction
import Mathlib.Data.List.Nodup
import Mathlib.Data.Nat.Basic
import Mathlib.Order.Basic
import Mathlib.Tactic.Common

/-! # Lanes of nested intervals

Intervals are put on lanes so that on each lane they nest or lie apart. An interval goes to the
first lane it fits; a lane is the stack of the finishes of its intervals that may still enclose the
next one, the latest on top, and `none` is the finish of an interval that does not end.

* `allocateLanes` is the greedy allocation, of intervals in the order of their starts.
* `NestedOrApart` is what two intervals of one lane are: **`allocateLanes_nested`**.
* `firstFit` is the allocation without the stacks, a lane at a time: **`firstFit_eq`**.
* `nest` reads brackets with a stack. **`Timeline.nests_iff`**: the brackets of intervals close in
  order exactly when the intervals nest or lie apart, and **`nest_leftOpen`**: what is left on the
  stack are the intervals still open.
* **`pairwise_mergeSort_stable`** is the order of a list after a stable sort. -/

namespace Troupe.Lib

/-- An interval, which may not have ended. -/
structure Interval (τ : Type) where
  start : τ
  finish : Option τ
deriving DecidableEq

section Allocation

variable {τ : Type} [LinearOrder τ] {intervals : List (Interval τ)}

/-- A finish that is not later. -/
def FinishesBy (finish enclosing : Option τ) : Prop :=
  ∀ b ∈ enclosing, ∃ a ∈ finish, a ≤ b

instance (finish enclosing : Option τ) : Decidable (FinishesBy finish enclosing) :=
  inferInstanceAs (Decidable (∀ b ∈ enclosing, ∃ a ∈ finish, a ≤ b))

/-- The second interval lies within the first one, or after it. -/
def NestedOrApart (first second : Interval τ) : Prop :=
  (∃ finish ∈ first.finish, finish < second.start) ∨ FinishesBy second.finish first.finish

instance (first second : Interval τ) : Decidable (NestedOrApart first second) :=
  inferInstanceAs (Decidable ((∃ finish ∈ first.finish, finish < second.start) ∨
    FinishesBy second.finish first.finish))

/-- Drop the intervals that are over at `start`. -/
def popFinished (start : τ) : List (Option τ) → List (Option τ)
  | some finish :: rest =>
    if finish < start then popFinished start rest else some finish :: rest
  | stack => stack

/-- Whether an interval with this finish lies within the one on top. -/
def fitsLane : List (Option τ) → Option τ → Bool
  | [], _ => true
  | none :: _, _ => true
  | some enclosing :: _, some finish => decide (finish ≤ enclosing)
  | some _ :: _, none => false

/-- The first lane an interval fits, and the lanes as the search leaves them. -/
def findLane (interval : Interval τ) :
    List (List (Option τ)) → Option Nat × List (List (Option τ))
  | [] => (none, [])
  | stack :: rest =>
    let stack := popFinished interval.start stack
    if fitsLane stack interval.finish then (some 0, stack :: rest)
    else
      let (found, rest) := findLane interval rest
      (found.map (· + 1), stack :: rest)

/-- The lane of an interval, and the lanes after it. -/
def allocateLane (lanes : List (List (Option τ))) (interval : Interval τ) :
    Nat × List (List (Option τ)) :=
  match findLane interval lanes with
  | (some lane, lanes) => (lane, lanes.modify lane (interval.finish :: ·))
  | (none, lanes) => (lanes.length, lanes ++ [[interval.finish]])

/-- The lanes of intervals, one by one. -/
def allocateLanes : List (List (Option τ)) → List (Interval τ) → List Nat
  | _, [] => []
  | lanes, interval :: rest =>
    let (lane, lanes) := allocateLane lanes interval
    lane :: allocateLanes lanes rest

theorem FinishesBy.trans {a b c : Option τ} (hab : FinishesBy a b) (hbc : FinishesBy b c) :
    FinishesBy a c := by
  intro z hz
  obtain ⟨y, hy, hyz⟩ := hbc z hz
  obtain ⟨x, hx, hxy⟩ := hab y hy
  exact ⟨x, hx, hxy.trans hyz⟩

/-- What is on a lane: its stack is a chain, and the intervals put on it are on the stack or were
over before `time`. -/
structure LaneHolds (time : τ) (placed : List (Interval τ)) (stack : List (Option τ)) : Prop where
  chain : stack.Pairwise FinishesBy
  covers : ∀ interval ∈ placed, interval.finish ∈ stack ∨ ∃ finish ∈ interval.finish, finish < time
  stacked : ∀ finish ∈ stack, ∃ interval ∈ placed, interval.finish = finish

variable {time : τ} {placed : List (Interval τ)} {stack : List (Option τ)} {interval : Interval τ}

theorem popFinished_suffix (start : τ) (stack : List (Option τ)) :
    popFinished start stack <:+ stack := by
  induction stack with
  | nil => exact List.suffix_refl _
  | cons top rest ih =>
    cases top with
    | none => exact List.suffix_refl _
    | some finish =>
      unfold popFinished
      split
      · exact ih.trans (List.suffix_cons _ _)
      · exact List.suffix_refl _

theorem popFinished_idem (start : τ) (stack : List (Option τ)) :
    popFinished start (popFinished start stack) = popFinished start stack := by
  induction stack with
  | nil => rfl
  | cons top rest ih =>
    cases top with
    | none => rfl
    | some finish =>
      by_cases hover : finish < start
      · simp only [popFinished, if_pos hover]
        exact ih
      · simp only [popFinished, if_neg hover]

/-- What is dropped is over. -/
theorem mem_popFinished (start : τ) {stack : List (Option τ)} {finish : Option τ}
    (h : finish ∈ stack) : finish ∈ popFinished start stack ∨ ∃ f ∈ finish, f < start := by
  induction stack with
  | nil => cases h
  | cons top rest ih =>
    cases top with
    | none => exact .inl h
    | some f =>
      unfold popFinished
      split
      · rename_i hover
        rcases List.mem_cons.mp h with rfl | hrest
        · exact .inr ⟨f, rfl, hover⟩
        · exact ih hrest
      · exact .inl h

theorem LaneHolds.pop (h : LaneHolds time placed stack) {start : τ} (hlater : time ≤ start) :
    LaneHolds start placed (popFinished start stack) := by
  refine ⟨h.chain.sublist (popFinished_suffix start stack).sublist, ?_, ?_⟩
  · intro interval hplaced
    rcases h.covers interval hplaced with hmem | ⟨finish, hfinish, hlt⟩
    · exact mem_popFinished start hmem
    · exact .inr ⟨finish, hfinish, hlt.trans_le hlater⟩
  · intro finish hmem
    exact h.stacked finish ((popFinished_suffix start stack).subset hmem)

theorem LaneHolds.later (h : LaneHolds time placed stack) {start : τ} (hlater : time ≤ start) :
    LaneHolds start placed stack := by
  refine ⟨h.chain, ?_, h.stacked⟩
  intro interval hplaced
  rcases h.covers interval hplaced with hmem | ⟨finish, hfinish, hlt⟩
  · exact .inl hmem
  · exact .inr ⟨finish, hfinish, hlt.trans_le hlater⟩

/-- An interval that fits lies within all of the stack. -/
theorem fitsLane_within (hchain : stack.Pairwise FinishesBy) {finish : Option τ}
    (h : fitsLane stack finish = true) : ∀ enclosing ∈ stack, FinishesBy finish enclosing := by
  cases stack with
  | nil =>
    intro enclosing hmem
    cases hmem
  | cons top rest =>
    have htop : FinishesBy finish top := by
      cases top with
      | none =>
        intro b hb
        cases hb
      | some enclosing =>
        cases finish with
        | none => cases h
        | some f =>
          intro b hb
          cases hb
          exact ⟨f, rfl, of_decide_eq_true h⟩
    intro enclosing hmem
    rcases List.mem_cons.mp hmem with rfl | hrest
    · exact htop
    · exact htop.trans (List.rel_of_pairwise_cons hchain hrest)

/-- An interval put on a lane it fits nests in the lane's intervals or lies after them. -/
theorem LaneHolds.push (h : LaneHolds interval.start placed stack)
    (hfits : fitsLane stack interval.finish = true) :
    LaneHolds interval.start (placed ++ [interval]) (interval.finish :: stack) ∧
      ∀ other ∈ placed, NestedOrApart other interval := by
  have hwithin := fitsLane_within h.chain hfits
  refine ⟨⟨List.pairwise_cons.mpr ⟨hwithin, h.chain⟩, ?_, ?_⟩, ?_⟩
  · intro other hother
    rcases List.mem_append.mp hother with hplaced | hnew
    · exact (h.covers other hplaced).imp_left (List.mem_cons_of_mem _)
    · rw [List.mem_singleton.mp hnew]
      exact .inl List.mem_cons_self
  · intro finish hmem
    rcases List.mem_cons.mp hmem with rfl | hold
    · exact ⟨interval, List.mem_append_right _ (List.mem_singleton_self _), rfl⟩
    · obtain ⟨other, hother, hfinish⟩ := h.stacked finish hold
      exact ⟨other, List.mem_append_left _ hother, hfinish⟩
  · intro other hother
    rcases h.covers other hother with hmem | hover
    · exact .inr (hwithin _ hmem)
    · exact .inl hover

/-- The intervals put on a lane, of those with their lanes. -/
def onLane (placed : List (Interval τ × Nat)) (lane : Nat) : List (Interval τ) :=
  (placed.filter fun entry => entry.2 = lane).map Prod.fst

/-- What is on the lanes. -/
structure LanesHold (time : τ) (placed : List (Interval τ × Nat))
    (lanes : List (List (Option τ))) : Prop where
  lane : ∀ (k : Nat) stack, lanes[k]? = some stack → LaneHolds time (onLane placed k) stack
  used : ∀ entry ∈ placed, entry.2 < lanes.length

theorem LanesHold.empty (time : τ) : LanesHold time [] [] :=
  ⟨fun _ _ hget => (nomatch hget), fun _ hentry => (nomatch hentry)⟩

variable {lanes lanes' : List (List (Option τ))} {placements : List (Interval τ × Nat)}

/-- The search keeps what is on the lanes, and the lane it finds fits. -/
theorem findLane_holds {found : Option Nat} (hfind : findLane interval lanes = (found, lanes')) :
    lanes'.length = lanes.length ∧
      (∀ (k : Nat) stack, lanes'[k]? = some stack →
        lanes[k]? = some stack ∨ ∃ before, lanes[k]? = some before ∧
          stack = popFinished interval.start before) ∧
        ∀ k ∈ found, ∃ before, lanes[k]? = some before ∧
          lanes'[k]? = some (popFinished interval.start before) ∧
            fitsLane (popFinished interval.start before) interval.finish = true := by
  induction lanes generalizing found lanes' with
  | nil =>
    cases hfind
    exact ⟨rfl, fun k stack hget => .inl hget, fun k hk => (nomatch hk)⟩
  | cons first rest ih =>
    unfold findLane at hfind
    dsimp only at hfind
    by_cases hfits : fitsLane (popFinished interval.start first) interval.finish = true
    · rw [if_pos hfits] at hfind
      cases hfind
      refine ⟨rfl, ?_, ?_⟩
      · intro k stack hget
        cases k with
        | zero =>
          cases hget
          exact .inr ⟨first, rfl, rfl⟩
        | succ k => exact .inl hget
      · intro k hk
        cases hk
        exact ⟨first, rfl, rfl, hfits⟩
    · rw [if_neg hfits] at hfind
      cases hrest : findLane interval rest with
      | mk found' rest' =>
        rw [hrest] at hfind
        cases hfind
        obtain ⟨hlength, hkept, hfound⟩ := ih hrest
        refine ⟨congrArg (· + 1) hlength, ?_, ?_⟩
        · intro k stack hget
          cases k with
          | zero =>
            cases hget
            exact .inr ⟨first, rfl, rfl⟩
          | succ k => exact hkept k stack hget
        · intro k hk
          obtain ⟨k', hk', rfl⟩ := Option.map_eq_some_iff.mp hk
          exact hfound k' hk'

omit [LinearOrder τ] in
theorem onLane_append (entry : Interval τ × Nat) (lane : Nat) :
    onLane (placements ++ [entry]) lane =
      if entry.2 = lane then onLane placements lane ++ [entry.1] else onLane placements lane := by
  unfold onLane
  rw [List.filter_append, List.map_append]
  by_cases h : entry.2 = lane
  · rw [if_pos h, List.filter_cons_of_pos (by simpa using h)]
    rfl
  · rw [if_neg h, List.filter_cons_of_neg (by simpa using h), List.filter_nil, List.map_nil,
      List.append_nil]

omit [LinearOrder τ] in
theorem mem_onLane {lane : Nat} : interval ∈ onLane placements lane ↔
    (interval, lane) ∈ placements := by
  unfold onLane
  simp

/-- One interval is put on a lane where it nests in every interval or lies after it. -/
theorem allocateLane_holds (h : LanesHold time placements lanes) (hlater : time ≤ interval.start)
    {lane : Nat} (hallocate : allocateLane lanes interval = (lane, lanes')) :
    LanesHold interval.start (placements ++ [(interval, lane)]) lanes' ∧
      ∀ other, (other, lane) ∈ placements → NestedOrApart other interval := by
  unfold allocateLane at hallocate
  cases hfind : findLane interval lanes with
  | mk found searched =>
    obtain ⟨hlength, hkept, hfound⟩ := findLane_holds hfind
    have hsearched (k : Nat) (stack : List (Option τ)) (hget : searched[k]? = some stack) :
        LaneHolds interval.start (onLane placements k) stack := by
      rcases hkept k stack hget with hsame | ⟨before, hbefore, rfl⟩
      · exact (h.lane k stack hsame).later hlater
      · exact (h.lane k before hbefore).pop hlater
    rw [hfind] at hallocate
    cases found with
    | none =>
      cases hallocate
      have hfresh : onLane placements searched.length = [] := by
        rw [List.eq_nil_iff_forall_not_mem]
        intro other hother
        have hused := h.used _ (mem_onLane.mp hother)
        rw [hlength] at hused
        exact absurd hused (Nat.lt_irrefl _)
      refine ⟨⟨?_, ?_⟩, ?_⟩
      · intro k stack hget
        rw [onLane_append]
        by_cases hk : searched.length = k
        · rw [if_pos hk, ← hk, hfresh]
          rw [← hk, List.getElem?_concat_length] at hget
          cases hget
          refine ⟨List.pairwise_singleton _ _, ?_, ?_⟩
          · intro other hother
            rw [List.mem_singleton.mp hother]
            exact .inl List.mem_cons_self
          · intro finish hmem
            rw [List.mem_singleton.mp hmem]
            exact ⟨interval, List.mem_singleton_self _, rfl⟩
        · rw [if_neg hk]
          obtain ⟨hlt, -⟩ := List.getElem?_eq_some_iff.mp hget
          rw [List.length_append, List.length_singleton] at hlt
          rw [List.getElem?_append_left (by omega)] at hget
          exact hsearched k stack hget
      · intro entry hentry
        rw [List.length_append, List.length_singleton]
        rcases List.mem_append.mp hentry with hplaced | hnew
        · have := h.used entry hplaced
          omega
        · rw [List.mem_singleton.mp hnew]
          exact Nat.lt_succ_self _
      · intro other hother
        rw [← mem_onLane, hfresh] at hother
        cases hother
    | some k =>
      cases hallocate
      obtain ⟨before, hbefore, hget, hfits⟩ := hfound lane rfl
      obtain ⟨hpushed, hnested⟩ := (hsearched lane _ hget).push hfits
      refine ⟨⟨?_, ?_⟩, ?_⟩
      · intro j stack hj
        rw [onLane_append]
        rw [List.getElem?_modify] at hj
        by_cases hjk : lane = j
        · rw [if_pos hjk]
          rw [← hjk, hget] at hj
          simp only [Option.map_eq_map, Option.map_some, if_true, Option.some.injEq] at hj
          rw [← hj, ← hjk]
          exact hpushed
        · rw [if_neg hjk]
          refine hsearched j stack ?_
          simpa [hjk] using hj
      · intro entry hentry
        rw [List.length_modify]
        rcases List.mem_append.mp hentry with hplaced | hnew
        · have := h.used entry hplaced
          omega
        · rw [List.mem_singleton.mp hnew]
          exact (List.getElem?_eq_some_iff.mp hget).choose
      · intro other hother
        exact hnested other (mem_onLane.mpr hother)

theorem length_allocateLanes (lanes : List (List (Option τ))) (intervals : List (Interval τ)) :
    (allocateLanes lanes intervals).length = intervals.length := by
  induction intervals generalizing lanes with
  | nil => rfl
  | cons interval rest ih => exact congrArg (· + 1) (ih _)

/-- The placements of an allocation that goes on from others. -/
theorem allocateLanes_holds (h : LanesHold time placements lanes)
    (hlater : ∀ interval ∈ intervals, time ≤ interval.start)
    (hsorted : intervals.Pairwise fun a b => a.start ≤ b.start)
    (hnested : placements.Pairwise fun a b => a.2 = b.2 → NestedOrApart a.1 b.1) :
    (placements ++ intervals.zip (allocateLanes lanes intervals)).Pairwise fun a b =>
      a.2 = b.2 → NestedOrApart a.1 b.1 := by
  induction intervals generalizing time placements lanes with
  | nil =>
    rw [List.zip_nil_left, List.append_nil]
    exact hnested
  | cons interval rest ih =>
    obtain ⟨hfirst, hrest⟩ := List.pairwise_cons.mp hsorted
    unfold allocateLanes
    cases hallocate : allocateLane lanes interval with
    | mk lane lanes' =>
      obtain ⟨hholds, hnew⟩ :=
        allocateLane_holds h (hlater interval List.mem_cons_self) hallocate
      have hgo := ih hholds hfirst hrest (List.pairwise_append.mpr ⟨hnested,
        List.pairwise_singleton _ _, fun a ha b hb hlane => by
          rw [List.mem_singleton.mp hb] at hlane ⊢
          exact hnew a.1 (by rw [show lane = a.2 from hlane.symm]; exact ha)⟩)
      rw [List.append_assoc] at hgo
      exact hgo

theorem first_starts {first : Interval τ}
    (hsorted : (first :: intervals).Pairwise fun a b => a.start ≤ b.start) :
    ∀ interval ∈ first :: intervals, first.start ≤ interval.start := by
  intro interval hmem
  rcases List.mem_cons.mp hmem with rfl | hrest
  · exact le_rfl
  · exact List.rel_of_pairwise_cons hsorted hrest

/-- **Two intervals of one lane nest or lie apart.** -/
theorem allocateLanes_nested
    (hsorted : intervals.Pairwise fun a b => a.start ≤ b.start) :
    (intervals.zip (allocateLanes [] intervals)).Pairwise fun a b =>
      a.2 = b.2 → NestedOrApart a.1 b.1 := by
  cases intervals with
  | nil => exact List.Pairwise.nil
  | cons first rest =>
    exact allocateLanes_holds (LanesHold.empty first.start) (first_starts hsorted) hsorted List.Pairwise.nil

/-! ### First fit -/

/-- The first lane where an interval nests in every interval or lies after it. -/
def firstFitLane (placed : List (Interval τ × Nat)) (interval : Interval τ) : Nat :=
  let lanes := placed.foldr (fun entry lanes => max (entry.2 + 1) lanes) 0
  ((List.range lanes).find? fun lane =>
    decide (∀ other ∈ onLane placed lane, NestedOrApart other interval)).getD lanes

/-- Intervals put on their lanes one by one, after those already placed. -/
def firstFit : List (Interval τ × Nat) → List (Interval τ) → List (Interval τ × Nat)
  | placed, [] => placed
  | placed, interval :: rest =>
    firstFit (placed ++ [(interval, firstFitLane placed interval)]) rest

omit [LinearOrder τ] in
theorem lane_lt_lanes {entry : Interval τ × Nat} (h : entry ∈ placements) :
    entry.2 < placements.foldr (fun entry lanes => max (entry.2 + 1) lanes) 0 := by
  induction placements with
  | nil => cases h
  | cons first rest ih =>
    rw [List.foldr_cons]
    rcases List.mem_cons.mp h with rfl | hrest
    · exact (Nat.lt_succ_self _).trans_le (le_max_left _ _)
    · exact (ih hrest).trans_le (le_max_right _ _)

theorem firstFitLane_eq {lane : Nat}
    (hfits : ∀ other ∈ onLane placements lane, NestedOrApart other interval)
    (hfirst : ∀ j < lane, ¬∀ other ∈ onLane placements j, NestedOrApart other interval) :
    firstFitLane placements interval = lane := by
  unfold firstFitLane
  dsimp only
  by_cases hlane : lane < placements.foldr (fun entry lanes => max (entry.2 + 1) lanes) 0
  · have hfind := List.find?_range_eq_some (p := fun lane =>
      decide (∀ other ∈ onLane placements lane, NestedOrApart other interval)).mpr
      ⟨decide_eq_true hfits, List.mem_range.mpr hlane, fun j hj => by simpa using hfirst j hj⟩
    rw [hfind]
    rfl
  · rw [not_lt] at hlane
    have hnone := List.find?_eq_none (p := fun lane =>
      decide (∀ other ∈ onLane placements lane, NestedOrApart other interval)).mpr
      fun j hj => decide_eq_true_iff.not.mpr (hfirst j ((List.mem_range.mp hj).trans_le hlane))
    rw [hnone]
    refine (hlane.lt_or_eq.resolve_left fun hlt => hfirst _ hlt fun other hother => ?_)
    exact absurd (lane_lt_lanes (mem_onLane.mp hother)) (lt_irrefl _)

/-- An interval fits a lane exactly when it nests in the lane's intervals or lies after them. -/
theorem LaneHolds.fits_iff (h : LaneHolds time placed stack) (hlater : time ≤ interval.start) :
    fitsLane (popFinished interval.start stack) interval.finish = true ↔
      ∀ other ∈ placed, NestedOrApart other interval := by
  have hpopped := h.pop hlater
  constructor
  · exact fun hfits => (hpopped.push hfits).2
  · intro hnested
    cases hstack : popFinished interval.start stack with
    | nil => rfl
    | cons top rest =>
      cases top with
      | none => rfl
      | some enclosing =>
        have hgoing : ¬enclosing < interval.start := by
          intro hover
          have hkept := popFinished_idem interval.start stack
          rw [hstack] at hkept
          unfold popFinished at hkept
          rw [if_pos hover] at hkept
          have hlength := (popFinished_suffix interval.start rest).length_le
          rw [hkept, List.length_cons] at hlength
          omega
        rw [hstack] at hpopped
        obtain ⟨other, hother, hfinish⟩ := hpopped.stacked _ List.mem_cons_self
        rcases hnested other hother with ⟨finish, hmem, hover⟩ | hwithin
        · rw [hfinish] at hmem
          cases hmem
          exact absurd hover hgoing
        · obtain ⟨finish, hmem, hle⟩ := hwithin enclosing hfinish
          rw [hmem]
          exact decide_eq_true hle

/-- The lanes before the one that is found do not fit. -/
theorem findLane_first {found : Option Nat} (hfind : findLane interval lanes = (found, lanes'))
    {k : Nat} {before : List (Option τ)} (hget : lanes[k]? = some before)
    (hk : ∀ lane ∈ found, k < lane) :
    ¬fitsLane (popFinished interval.start before) interval.finish = true := by
  induction lanes generalizing found lanes' k with
  | nil => cases hget
  | cons first rest ih =>
    unfold findLane at hfind
    dsimp only at hfind
    by_cases hfits : fitsLane (popFinished interval.start first) interval.finish = true
    · rw [if_pos hfits] at hfind
      cases hfind
      exact absurd (hk 0 rfl) (Nat.not_lt_zero _)
    · rw [if_neg hfits] at hfind
      cases hrest : findLane interval rest with
      | mk found' rest' =>
        rw [hrest] at hfind
        cases hfind
        cases k with
        | zero =>
          cases hget
          exact hfits
        | succ k =>
          refine ih hrest hget fun lane hlane => ?_
          exact Nat.lt_of_succ_lt_succ (hk (lane + 1) (by rw [hlane]; rfl))

/-- The lane of an interval is the first one it fits. -/
theorem allocateLane_first (h : LanesHold time placements lanes) (hlater : time ≤ interval.start) :
    (allocateLane lanes interval).1 = firstFitLane placements interval := by
  cases hallocate : allocateLane lanes interval with
  | mk lane lanes' =>
    obtain ⟨-, hnested⟩ := allocateLane_holds h hlater hallocate
    refine (firstFitLane_eq (fun other hother => hnested other (mem_onLane.mp hother)) ?_).symm
    intro j hj hfits
    unfold allocateLane at hallocate
    cases hfind : findLane interval lanes with
    | mk found searched =>
      rw [hfind] at hallocate
      have hlength := (findLane_holds hfind).1
      have hlanes : j < lanes.length ∧ ∀ k ∈ found, j < k := by
        cases found with
        | none =>
          cases hallocate
          exact ⟨hlength ▸ hj, fun k hk => (nomatch hk)⟩
        | some k =>
          cases hallocate
          obtain ⟨before, hbefore, -⟩ := (findLane_holds hfind).2.2 lane rfl
          refine ⟨hj.trans (List.getElem?_eq_some_iff.mp hbefore).1, fun k hk => ?_⟩
          cases hk
          exact hj
      have hget := List.getElem?_eq_getElem hlanes.1
      exact findLane_first hfind hget hlanes.2 (((h.lane j _ hget).fits_iff hlater).mpr hfits)

theorem firstFit_eq_append (h : LanesHold time placements lanes)
    (hlater : ∀ interval ∈ intervals, time ≤ interval.start)
    (hsorted : intervals.Pairwise fun a b => a.start ≤ b.start) :
    firstFit placements intervals =
      placements ++ intervals.zip (allocateLanes lanes intervals) := by
  induction intervals generalizing time placements lanes with
  | nil =>
    rw [List.zip_nil_left, List.append_nil]
    rfl
  | cons interval rest ih =>
    obtain ⟨hfirst, hrest⟩ := List.pairwise_cons.mp hsorted
    have hlane := allocateLane_first h (hlater interval List.mem_cons_self)
    unfold allocateLanes firstFit
    cases hallocate : allocateLane lanes interval with
    | mk lane lanes' =>
      rw [hallocate] at hlane
      obtain ⟨hholds, -⟩ := allocateLane_holds h (hlater interval List.mem_cons_self) hallocate
      rw [← hlane, ih hholds hfirst hrest, List.append_assoc]
      rfl

/-- **The allocation is first fit.** -/
theorem firstFit_eq
    (hsorted : intervals.Pairwise fun a b => a.start ≤ b.start) :
    firstFit [] intervals = intervals.zip (allocateLanes [] intervals) := by
  cases intervals with
  | nil => rfl
  | cons first rest =>
    exact firstFit_eq_append (LanesHold.empty first.start) (first_starts hsorted) hsorted

end Allocation

/-! ## Brackets -/

/-- The start or the finish of the interval with a label. -/
inductive Bracket (ι : Type) where
  | opens (label : ι)
  | closes (label : ι)
deriving DecidableEq

/-- The label of a bracket. -/
def Bracket.label {ι : Type} : Bracket ι → ι
  | .opens label => label
  | .closes label => label

/-- The bracket with its label renamed. -/
def Bracket.map {ι κ : Type} (f : ι → κ) : Bracket ι → Bracket κ
  | .opens label => .opens (f label)
  | .closes label => .closes (f label)

/-- The label a bracket opens. -/
def Bracket.opened {ι : Type} : Bracket ι → Option ι
  | .opens label => some label
  | .closes _ => none

section Brackets

variable {ι : Type} [DecidableEq ι]

/-- Read a bracket: what closes is on top. -/
def nest : List ι → Bracket ι → Option (List ι)
  | stack, .opens label => some (label :: stack)
  | top :: rest, .closes label => if top = label then some rest else none
  | [], .closes _ => none

/-- The labels that brackets open and do not close, the latest first. -/
def leftOpen (brackets : List (Bracket ι)) : List ι :=
  ((brackets.filterMap Bracket.opened).filter fun label => .closes label ∉ brackets).reverse

variable {brackets : List (Bracket ι)} {stack : List ι} {label : ι}

omit [DecidableEq ι] in
theorem mem_opened : label ∈ brackets.filterMap Bracket.opened ↔ .opens label ∈ brackets := by
  rw [List.mem_filterMap]
  constructor
  · rintro ⟨b, hb, hopened⟩
    cases b with
    | opens other =>
      cases hopened
      exact hb
    | closes other => cases hopened
  · intro h
    exact ⟨.opens label, h, rfl⟩

theorem mem_leftOpen : label ∈ leftOpen brackets ↔
    .opens label ∈ brackets ∧ .closes label ∉ brackets := by
  unfold leftOpen
  rw [List.mem_reverse, List.mem_filter, mem_opened, decide_eq_true_iff]

theorem nest_closes {stack' : List ι} :
    nest stack (.closes label) = some stack' ↔ stack = label :: stack' := by
  cases stack with
  | nil => simp [nest]
  | cons top rest =>
    by_cases htop : top = label
    · simp [nest, htop]
    · simp [nest, htop]

/-- Reading one bracket more. -/
theorem nest_concat {bracket : Bracket ι} :
    (brackets ++ [bracket]).foldlM nest [] = some stack ↔
      ∃ before, brackets.foldlM nest [] = some before ∧ nest before bracket = some stack := by
  rw [List.foldlM_append]
  cases brackets.foldlM nest [] with
  | none => simp
  | some before => simp

/-- What is on the stack or was closed, was opened. -/
theorem opened_of_nest (h : brackets.foldlM nest [] = some stack) :
    (∀ l ∈ stack, .opens l ∈ brackets) ∧ ∀ l, .closes l ∈ brackets → .opens l ∈ brackets := by
  induction brackets using List.reverseRecOn generalizing stack with
  | nil =>
    cases h
    exact ⟨fun l hl => (nomatch hl), fun l hl => (nomatch hl)⟩
  | append_singleton brackets bracket ih =>
    obtain ⟨before, hbefore, hlast⟩ := nest_concat.mp h
    obtain ⟨hstack, hclosed⟩ := ih hbefore
    have hkeep {l : ι} (hl : Bracket.opens l ∈ brackets) : .opens l ∈ brackets ++ [bracket] :=
      List.mem_append_left _ hl
    cases bracket with
    | opens label =>
      cases hlast
      constructor
      · intro l hl
        rcases List.mem_cons.mp hl with rfl | hl
        · exact List.mem_append_right _ (List.mem_singleton_self _)
        · exact hkeep (hstack l hl)
      · intro l hl
        exact hkeep (hclosed l (by simpa using hl))
    | closes label =>
      obtain rfl := nest_closes.mp hlast
      constructor
      · intro l hl
        exact hkeep (hstack l (List.mem_cons_of_mem _ hl))
      · intro l hl
        rcases List.mem_append.mp hl with hl | hl
        · exact hkeep (hclosed l hl)
        · cases List.mem_singleton.mp hl
          exact hkeep (hstack label List.mem_cons_self)

/-- **Where each label is opened once, a reading that succeeds leaves what is left open.** -/
theorem nest_leftOpen (honce : (brackets.filterMap Bracket.opened).Nodup)
    (h : brackets.foldlM nest [] = some stack) : stack = leftOpen brackets := by
  induction brackets using List.reverseRecOn generalizing stack with
  | nil =>
    cases h
    rfl
  | append_singleton brackets bracket ih =>
    obtain ⟨before, hbefore, hlast⟩ := nest_concat.mp h
    rw [List.filterMap_append] at honce
    have honce' := (List.nodup_append.mp honce).1
    have hstack := ih honce' hbefore
    cases bracket with
    | opens label =>
      cases hlast
      have hfresh : .opens label ∉ brackets := by
        intro hmem
        have hlast : label ∈ [Bracket.opens label].filterMap Bracket.opened :=
          List.mem_singleton_self label
        exact (List.nodup_append.mp honce).2.2 label (mem_opened.mpr hmem) label hlast rfl
      have hnot : .closes label ∉ brackets := fun hmem =>
        hfresh ((opened_of_nest hbefore).2 label hmem)
      have hsame : ∀ l : ι, .closes l ∉ brackets ++ [.opens label] ↔ .closes l ∉ brackets := by
        intro l
        simp
      unfold leftOpen at hstack ⊢
      simp only [List.filterMap_append, List.filterMap_cons, List.filterMap_nil, Bracket.opened,
        List.filter_append, List.reverse_append, hsame]
      rw [List.filter_cons_of_pos (by simpa using hnot), ← hstack]
      rfl
    | closes label =>
      obtain rfl := nest_closes.mp hlast
      have hnodup : (leftOpen brackets).Nodup := List.nodup_reverse.mpr (honce'.filter _)
      rw [← hstack] at hnodup
      have hrest : (label :: stack).filter (· ≠ label) = stack := by
        rw [List.filter_cons_of_neg (by simp), List.filter_eq_self]
        intro l hl
        have hne : l ≠ label := fun heq => (List.nodup_cons.mp hnodup).1 (heq ▸ hl)
        simpa using hne
      rw [← hrest, hstack]
      unfold leftOpen
      rw [List.filter_reverse, List.filter_filter, List.filterMap_append]
      simp [Bracket.opened, and_comm]

end Brackets

/-! ## Timelines -/

section Timeline

variable {ι τ : Type} [DecidableEq ι] [LinearOrder τ]

/-- The brackets of labelled intervals, in the order of their moments. -/
structure Timeline (intervals : List (ι × Interval τ)) (brackets : List (τ × Bracket ι)) :
    Prop where
  sorted : brackets.Pairwise fun a b => a.1 < b.1
  labels : ∀ a ∈ intervals, ∀ b ∈ intervals, a.1 = b.1 → a = b
  ordered : ∀ entry ∈ intervals, ∀ finish ∈ entry.2.finish, entry.2.start < finish
  opens : ∀ moment label, (moment, .opens label) ∈ brackets ↔
    ∃ entry ∈ intervals, entry.1 = label ∧ entry.2.start = moment
  closes : ∀ moment label, (moment, .closes label) ∈ brackets ↔
    ∃ entry ∈ intervals, entry.1 = label ∧ entry.2.finish = some moment

variable {intervals : List (ι × Interval τ)} {brackets before after : List (τ × Bracket ι)}
  {a b : ι × Interval τ} {moment : τ} {x : Bracket ι}

omit [DecidableEq ι] in
/-- There is one bracket at a moment. -/
theorem Timeline.unique (h : Timeline intervals brackets) {x y : Bracket ι}
    (hx : (moment, x) ∈ brackets) (hy : (moment, y) ∈ brackets) : x = y := by
  have hnodup : (brackets.map Prod.fst).Nodup :=
    List.pairwise_map.mpr (h.sorted.imp fun hlt => hlt.ne)
  exact congrArg Prod.snd (List.inj_on_of_nodup_map hnodup hx hy rfl)

omit [DecidableEq ι] in
/-- A bracket earlier than one of the list stands before it. -/
theorem Timeline.mem_before (h : Timeline intervals (before ++ (moment, x) :: after))
    {earlier : τ} {y : Bracket ι} (hmem : (earlier, y) ∈ before ++ (moment, x) :: after)
    (hlt : earlier < moment) : (earlier, y) ∈ before := by
  obtain ⟨-, hafter, -⟩ := List.pairwise_append.mp h.sorted
  rcases List.mem_append.mp hmem with hbefore | hrest
  · exact hbefore
  · rcases List.mem_cons.mp hrest with heq | hrest
    · cases heq
      exact absurd hlt (lt_irrefl _)
    · exact absurd (hlt.trans (List.rel_of_pairwise_cons hafter hrest)) (lt_irrefl _)

omit [DecidableEq ι] in
theorem Timeline.lt_of_mem_before (h : Timeline intervals (before ++ (moment, x) :: after))
    {earlier : τ} {y : Bracket ι} (hmem : (earlier, y) ∈ before) : earlier < moment :=
  (List.pairwise_append.mp h.sorted).2.2 _ hmem _ List.mem_cons_self

omit [DecidableEq ι] in
/-- A label is opened once. -/
theorem Timeline.openedOnce (h : Timeline intervals brackets) :
    ((brackets.map Prod.snd).filterMap Bracket.opened).Nodup := by
  rw [List.filterMap_map]
  refine List.pairwise_filterMap.mpr (h.sorted.imp_of_mem fun {x y} hx hy hlt l hl l' hl' => ?_)
  rintro rfl
  obtain ⟨moment, _ | _⟩ := x
  · obtain ⟨moment', _ | _⟩ := y
    · cases hl
      cases hl'
      obtain ⟨a, ha, hlabel, hstart⟩ := (h.opens _ _).mp hx
      obtain ⟨b, hb, hlabel', hstart'⟩ := (h.opens _ _).mp hy
      obtain rfl := h.labels a ha b hb (hlabel.trans hlabel'.symm)
      rw [hstart.symm.trans hstart'] at hlt
      exact lt_irrefl _ hlt
    · cases hl'
  · cases hl

/-- What is left open, around a label that is. -/
theorem leftOpen_split {pre post : List (Bracket ι)} {label : ι}
    (hopen : .closes label ∉ pre ++ .opens label :: post) :
    leftOpen (pre ++ .opens label :: post) =
      ((post.filterMap Bracket.opened).filter
        fun l => .closes l ∉ pre ++ .opens label :: post).reverse ++
        label :: ((pre.filterMap Bracket.opened).filter
          fun l => .closes l ∉ pre ++ .opens label :: post).reverse := by
  have hopened : (pre ++ .opens label :: post).filterMap Bracket.opened =
      pre.filterMap Bracket.opened ++ label :: post.filterMap Bracket.opened := by
    rw [List.filterMap_append]
    rfl
  unfold leftOpen
  rw [hopened, List.filter_append, List.filter_cons_of_pos (by simpa using hopen),
    List.reverse_append, List.reverse_cons, List.append_assoc]
  rfl

variable {label : ι}

omit [DecidableEq ι] in
/-- Before an interval's finish: its start, and nothing of its finish. -/
theorem Timeline.started (h : Timeline intervals (before ++ (moment, .closes label) :: after))
    (ha : a ∈ intervals) (hlabel : a.1 = label) (hfinish : a.2.finish = some moment) :
    ∃ pre post, before = pre ++ (a.2.start, .opens label) :: post ∧
      .closes label ∉ before.map Prod.snd := by
  have hlt := h.ordered a ha moment hfinish
  have hopens := (h.opens a.2.start label).mpr ⟨a, ha, hlabel, rfl⟩
  obtain ⟨pre, post, hsplit⟩ := List.append_of_mem (h.mem_before hopens hlt)
  refine ⟨pre, post, hsplit, fun hmem => ?_⟩
  obtain ⟨⟨earlier, _⟩, hbefore, rfl⟩ := List.mem_map.mp hmem
  obtain ⟨b, hb, hlabel', hfinish'⟩ := (h.closes _ _).mp (List.mem_append_left _ hbefore)
  obtain rfl := h.labels b hb a ha (hlabel'.trans hlabel.symm)
  rw [hfinish, Option.some.injEq] at hfinish'
  exact absurd (h.lt_of_mem_before hbefore) (hfinish' ▸ lt_irrefl _)

omit [DecidableEq ι] in
/-- The intervals that are over by then. -/
theorem Timeline.over_iff (h : Timeline intervals (before ++ (moment, .closes label) :: after))
    (hb : b ∈ intervals) :
    .closes b.1 ∈ before.map Prod.snd ↔ ∃ finish ∈ b.2.finish, finish < moment := by
  constructor
  · intro hmem
    obtain ⟨⟨earlier, _⟩, hbefore, heq⟩ := List.mem_map.mp hmem
    obtain rfl : _ = Bracket.closes b.1 := heq
    obtain ⟨b', hb', hlabel', hfinish'⟩ := (h.closes _ _).mp (List.mem_append_left _ hbefore)
    obtain rfl := h.labels b' hb' b hb hlabel'
    exact ⟨earlier, hfinish', h.lt_of_mem_before hbefore⟩
  · rintro ⟨finish, hfinish, hlt⟩
    have hcloses := (h.closes finish b.1).mpr ⟨b, hb, rfl, hfinish⟩
    exact List.mem_map.mpr ⟨_, h.mem_before hcloses hlt, rfl⟩

/-- **At an interval's finish its label is on top exactly when the intervals that started after it
are over.** -/
theorem Timeline.top_iff (h : Timeline intervals (before ++ (moment, .closes label) :: after))
    (ha : a ∈ intervals) (hlabel : a.1 = label) (hfinish : a.2.finish = some moment) :
    (∃ rest, leftOpen (before.map Prod.snd) = label :: rest) ↔
      ∀ b ∈ intervals, a.2.start < b.2.start → NestedOrApart a.2 b.2 := by
  obtain ⟨pre, post, hsplit, hopen⟩ := h.started ha hlabel hfinish
  have hmap : before.map Prod.snd = pre.map Prod.snd ++ .opens label :: post.map Prod.snd := by
    rw [hsplit, List.map_append]
    rfl
  have honce := h.openedOnce
  rw [List.map_append, List.filterMap_append] at honce
  have hbefore := (List.nodup_append.mp honce).1
  rw [hmap, List.filterMap_append] at hbefore
  have hleft := leftOpen_split (hmap ▸ hopen)
  rw [← hmap] at hleft
  have hlast : label ∉ (post.map Prod.snd).filterMap Bracket.opened :=
    (List.nodup_cons.mp (List.nodup_append.mp hbefore).2.1).1
  -- the label is on top when nothing opened after it is still open
  have htop : (∃ rest, leftOpen (before.map Prod.snd) = label :: rest) ↔
      ∀ l ∈ (post.map Prod.snd).filterMap Bracket.opened, .closes l ∈ before.map Prod.snd := by
    rw [hleft]
    constructor
    · rintro ⟨rest, hrest⟩ l hl
      by_contra hgoing
      have hmem : l ∈ ((post.map Prod.snd).filterMap Bracket.opened).filter
          fun l => .closes l ∉ before.map Prod.snd :=
        List.mem_filter.mpr ⟨hl, by simpa using hgoing⟩
      rw [← List.mem_reverse] at hmem
      cases hreverse : (((post.map Prod.snd).filterMap Bracket.opened).filter
          fun l => .closes l ∉ before.map Prod.snd).reverse with
      | nil =>
        rw [hreverse] at hmem
        cases hmem
      | cons first others =>
        rw [hreverse, List.cons_append] at hrest
        have hfirst : first ∈ first :: others := List.mem_cons_self
        rw [← hreverse, List.mem_reverse, (List.cons.inj hrest).1] at hfirst
        exact hlast (List.mem_filter.mp hfirst).1
    · intro hover
      have hnone : ((post.map Prod.snd).filterMap Bracket.opened).filter
          (fun l => .closes l ∉ before.map Prod.snd) = [] :=
        List.filter_eq_nil_iff.mpr fun l hl => by simpa using hover l hl
      rw [hnone]
      exact ⟨_, rfl⟩
  rw [htop]
  rw [hsplit] at h
  obtain ⟨hsorted, -, -⟩ := List.pairwise_append.mp h.sorted
  obtain ⟨-, hpost, hcross⟩ := List.pairwise_append.mp hsorted
  constructor
  · intro hover b hb hlater
    by_cases hbegun : b.2.start < moment
    · have hopens := h.mem_before ((h.opens b.2.start b.1).mpr ⟨b, hb, rfl, rfl⟩) hbegun
      have hin : (b.2.start, .opens b.1) ∈ post := by
        rcases List.mem_append.mp hopens with hpre | hrest
        · exact absurd (hcross _ hpre _ List.mem_cons_self) hlater.asymm
        · rcases List.mem_cons.mp hrest with heq | hpost
          · exact absurd (congrArg Prod.fst heq) hlater.ne'
          · exact hpost
      have hclosed := hover b.1 (mem_opened.mpr (List.mem_map.mpr ⟨_, hin, rfl⟩))
      rw [hsplit] at hclosed
      obtain ⟨finish, hf, hlt⟩ := (h.over_iff hb).mp hclosed
      refine .inr fun enclosing henclosing => ?_
      rw [hfinish, Option.mem_some_iff] at henclosing
      exact ⟨finish, hf, henclosing ▸ hlt.le⟩
    · refine .inl ⟨moment, hfinish, lt_of_le_of_ne (not_lt.mp hbegun) fun heq => ?_⟩
      have hopens := (h.opens b.2.start b.1).mpr ⟨b, hb, rfl, rfl⟩
      rw [← heq] at hopens
      cases h.unique hopens (List.mem_append_right _ List.mem_cons_self)
  · intro hnested l hl
    obtain ⟨⟨start, _⟩, hin, rfl⟩ := List.mem_map.mp (mem_opened.mp hl)
    have hbegun : (start, .opens l) ∈ pre ++ (a.2.start, .opens label) :: post :=
      List.mem_append_right _ (List.mem_cons_of_mem _ hin)
    obtain ⟨b, hb, rfl, rfl⟩ := (h.opens _ _).mp (List.mem_append_left _ hbegun)
    rw [hsplit, h.over_iff hb]
    have hlater : a.2.start < b.2.start := List.rel_of_pairwise_cons hpost hin
    rcases hnested b hb hlater with ⟨finish, hf, hapart⟩ | hwithin
    · rw [hfinish, Option.mem_some_iff] at hf
      exact absurd (hapart.trans (h.lt_of_mem_before hbegun)) (hf ▸ lt_irrefl _)
    · obtain ⟨finish, hf, hle⟩ := hwithin moment hfinish
      refine ⟨finish, hf, lt_of_le_of_ne hle fun heq => ?_⟩
      have hcloses := (h.closes finish b.1).mpr ⟨b, hb, rfl, hf⟩
      rw [heq] at hcloses
      have hsame := h.unique hcloses (List.mem_append_right _ List.mem_cons_self)
      rw [Bracket.closes.injEq] at hsame
      obtain rfl := h.labels b hb a ha (hsame.trans hlabel.symm)
      exact lt_irrefl _ hlater

/-- **The brackets close in order exactly when the intervals nest or lie apart.** -/
theorem Timeline.nests_iff (h : Timeline intervals brackets) :
    (∃ stack, (brackets.map Prod.snd).foldlM nest [] = some stack) ↔
      ∀ a ∈ intervals, ∀ b ∈ intervals, a.2.start < b.2.start → NestedOrApart a.2 b.2 := by
  constructor
  · rintro ⟨stack, hnest⟩ a ha b hb hlater
    cases hfinish : a.2.finish with
    | none =>
      refine .inr fun enclosing henclosing => ?_
      rw [hfinish] at henclosing
      cases henclosing
    | some moment =>
      obtain ⟨before, after, rfl⟩ :=
        List.append_of_mem ((h.closes moment a.1).mpr ⟨a, ha, rfl, hfinish⟩)
      refine (h.top_iff ha rfl hfinish).mp ?_ b hb hlater
      have honce := h.openedOnce
      rw [List.map_append, List.filterMap_append] at honce
      rw [List.map_append, List.map_cons, List.append_cons, List.foldlM_append] at hnest
      obtain ⟨closed, hclosed, -⟩ := Option.bind_eq_some_iff.mp hnest
      obtain ⟨stack, hstack, hlast⟩ := nest_concat.mp hclosed
      rw [← nest_leftOpen (List.nodup_append.mp honce).1 hstack]
      exact ⟨_, nest_closes.mp hlast⟩
  · intro hnested
    -- every prefix is read
    suffices hprefix : ∀ before after : List (τ × Bracket ι), brackets = before ++ after →
        ∃ stack, (before.map Prod.snd).foldlM nest [] = some stack from
      hprefix brackets [] (List.append_nil _).symm
    intro before
    induction before using List.reverseRecOn with
    | nil => exact fun after _ => ⟨[], rfl⟩
    | append_singleton before bracket ih =>
      intro after hsplit
      rw [← List.append_cons] at hsplit
      obtain ⟨stack, hstack⟩ := ih _ hsplit
      subst hsplit
      rw [List.map_append, List.map_singleton]
      obtain ⟨moment, label | label⟩ := bracket
      · exact ⟨label :: stack, nest_concat.mpr ⟨stack, hstack, rfl⟩⟩
      · obtain ⟨a, ha, hlabel, hfinish⟩ :=
          (h.closes moment label).mp (List.mem_append_right _ List.mem_cons_self)
        have honce := h.openedOnce
        rw [List.map_append, List.filterMap_append] at honce
        obtain ⟨rest, hrest⟩ := (h.top_iff ha hlabel hfinish).mpr (hnested a ha)
        rw [← nest_leftOpen (List.nodup_append.mp honce).1 hstack] at hrest
        exact ⟨rest, nest_concat.mpr ⟨stack, hstack, nest_closes.mpr hrest⟩⟩

end Timeline

/-! ## Stable sorts -/

/-- In a stable sort, what comes later is larger, or as large and later in the list. -/
theorem pairwise_mergeSort_stable {α : Type} {le : α → α → Bool} {R : α → α → Prop} {l : List α}
    (htrans : ∀ a b c, le a b = true → le b c = true → le a c = true)
    (htotal : ∀ a b, (le a b || le b a) = true) (h : l.Pairwise R) :
    (l.mergeSort le).Pairwise fun a b => le a b = true ∧ (le b a = true → R a b) := by
  rw [← List.mergeSort_zipIdx, List.pairwise_map]
  have hsorted := List.pairwise_mergeSort (List.zipIdxLE_trans htrans) (List.zipIdxLE_total htotal)
    l.zipIdx
  have hnodup : (l.zipIdx.mergeSort (List.zipIdxLE le)).Pairwise fun a b => a.2 ≠ b.2 := by
    refine ((List.mergeSort_perm _ _).pairwise_iff fun hne => hne.symm).mpr ?_
    rw [← List.pairwise_map (f := Prod.snd) (R := (· ≠ ·)), List.zipIdx_map_snd]
    exact List.nodup_range'
  refine (hsorted.and hnodup).imp_of_mem fun {a b} ha hb hab => ?_
  obtain ⟨hle, hne⟩ := hab
  rw [List.mem_mergeSort] at ha hb
  obtain ⟨x, i⟩ := a
  obtain ⟨y, j⟩ := b
  rw [List.mk_mem_zipIdx_iff_getElem?] at ha hb
  unfold List.zipIdxLE at hle
  split at hle
  · rename_i hxy
    refine ⟨hxy, fun hyx => ?_⟩
    rw [if_pos hyx, decide_eq_true_iff] at hle
    have hlt : i < j := lt_of_le_of_ne hle hne
    obtain ⟨hi, rfl⟩ := List.getElem?_eq_some_iff.mp ha
    obtain ⟨hj, rfl⟩ := List.getElem?_eq_some_iff.mp hb
    exact List.pairwise_iff_getElem.mp h i j hi hj hlt
  · cases hle

end Troupe.Lib
