import Mathlib.Data.Int.ConditionallyCompleteOrder
import Mathlib.Algebra.Order.BigOperators.Group.List
import Mathlib.Algebra.Order.Group.Nat
import Mathlib.Data.List.Nodup
import Mathlib.Data.String.Basic
import Troupe.Cli.CleanupPolicy

/-! # What a cleanup selects, by policy

* `age` places a run by its times, its identity and its path; `cleanup_order` compares by it
  (`isLE_cleanupOrder`), so that the sorted runs are one list for all orders of an inventory.
* `Selects`: the preview shows a run of the inventory as selected. `Allowed` is what a policy allows it
  to select.

Headline result: **`cleanup_selects`**. -/

namespace Troupe.Cli

open Troupe.Lib Troupe.Core

/-! ## The order -/

/-- What is absent is last. -/
def latest {α β : Type} (f : α → β) (value : Option α) : WithTop β := value.map f

section Order

variable {Path : Type} [LinearOrder Path]

/-- The place of a run in the order of a cleanup. -/
def CleanupInventoryRun.age (run : CleanupInventoryRun Path) :
    WithTop ℤ ×ₗ WithTop ℤ ×ₗ WithTop String ×ₗ Path :=
  toLex (latest (·.instant.sinceEpoch) run.endedAt,
    toLex (latest (·.instant.sinceEpoch) run.startedAt, toLex (latest displayUuid run.runId, run.path)))

theorem isLE_then {α : Type} [LinearOrder α] {a b : α} {more : Ordering} :
    ((compare a b).then more).isLE = true ↔ a < b ∨ a = b ∧ more.isLE = true := by
  rcases lt_trichotomy a b with hlt | heq | hgt
  · rw [compare_lt_iff_lt.mpr hlt]
    simp [hlt]
  · rw [heq, compare_eq_iff_eq.mpr rfl]
    simp
  · rw [compare_gt_iff_gt.mpr hgt]
    simp [hgt.ne', hgt.le.not_gt]

theorem isLE_compare {α : Type} [LinearOrder α] {a b : α} :
    (compare a b).isLE = true ↔ a ≤ b := by
  have hthen : ((compare a b).then .eq).isLE = true ↔ a < b ∨ a = b ∧ Ordering.eq.isLE = true :=
    isLE_then
  rw [Ordering.then_eq] at hthen
  rw [hthen, le_iff_lt_or_eq]
  simp

/-- Optional values compare as their places. -/
theorem compareOptional_eq {α β : Type} [LinearOrder β] {f : α → β} {cmp : α → α → Ordering}
    (h : ∀ a b, cmp a b = compare (f a) (f b)) (left right : Option α) :
    compareOptional cmp left right = compare (latest f left) (latest f right) := by
  cases left with
  | none =>
    cases right with
    | none => exact (compare_eq_iff_eq.mpr rfl).symm
    | some b => exact (compare_gt_iff_gt.mpr (WithTop.coe_lt_top (f b))).symm
  | some a =>
    cases right with
    | none => exact (compare_lt_iff_lt.mpr (WithTop.coe_lt_top (f a))).symm
    | some b =>
      rw [compareOptional, h]
      rcases lt_trichotomy (f a) (f b) with hlt | heq | hgt
      · rw [compare_lt_iff_lt.mpr hlt]
        exact (compare_lt_iff_lt.mpr (WithTop.coe_lt_coe.mpr hlt)).symm
      · rw [compare_eq_iff_eq.mpr heq]
        exact (compare_eq_iff_eq.mpr (congrArg WithTop.some heq)).symm
      · rw [compare_gt_iff_gt.mpr hgt]
        exact (compare_gt_iff_gt.mpr (WithTop.coe_lt_coe.mpr hgt)).symm

theorem UtcTimestamp.normal (timestamp : UtcTimestamp) : timestamp.instant.Normal := by
  obtain ⟨-, -, -, hnormal, -⟩ := parseUtcTimestamp_eq_some.mp timestamp.parsed
  exact hnormal

theorem compareOptionalTimestamp_eq (left right : Option UtcTimestamp) :
    compareOptionalTimestamp left right =
      compare (latest (·.instant.sinceEpoch) left) (latest (·.instant.sinceEpoch) right) :=
  compareOptional_eq (f := fun timestamp : UtcTimestamp => timestamp.instant.sinceEpoch)
    (fun a b => UtcInstant.compare_eq a.normal b.normal) left right

theorem compareOptionalRunId_eq (left right : Option CanonicalUuid) :
    compareOptionalRunId left right =
      compare (latest displayUuid left) (latest displayUuid right) :=
  compareOptional_eq (fun _ _ => rfl) left right

/-- **The order of a cleanup is by place.** -/
theorem isLE_cleanupOrder (left right : CleanupInventoryRun Path) :
    (cleanupOrder left right).isLE = true ↔ left.age ≤ right.age := by
  unfold cleanupOrder
  rw [compareOptionalTimestamp_eq, compareOptionalTimestamp_eq, compareOptionalRunId_eq,
    Ordering.then_assoc, Ordering.then_assoc, isLE_then, isLE_then, isLE_then]
  unfold CleanupInventoryRun.age
  rw [Prod.Lex.toLex_le_toLex, Prod.Lex.toLex_le_toLex, Prod.Lex.toLex_le_toLex,
    isLE_compare]

end Order

/-! ## What a loop selects -/

section Loops

variable {Path : Type} {run : CleanupInventoryRun Path} {runs listed : List (CleanupInventoryRun Path)}

/-- A run without what a policy writes into it. -/
def CleanupInventoryRun.unmarked (run : CleanupInventoryRun Path) : CleanupInventoryRun Path :=
  { run with selected := false, selectionReason := none, skippedReason := none }

/-- A run is shown as selected. -/
def SelectedIn (runs : List (CleanupInventoryRun Path)) (run : CleanupInventoryRun Path) : Prop :=
  ∃ shown ∈ runs, shown.unmarked = run ∧ shown.selected = true

/-- The runs of an inventory, some skipped but none selected. -/
structure Unselected (runs listed : List (CleanupInventoryRun Path)) : Prop where
  same : runs.map CleanupInventoryRun.unmarked = listed
  unselected : ∀ run ∈ runs, run.selected = false

theorem CleanupInventoryRun.Listed.unmarked_eq (h : run.Listed) :
    run.unmarked = run := by
  unfold CleanupInventoryRun.unmarked
  rw [← h.unselected, ← h.noSelection, ← h.noSkip]

theorem selectedIn_cons {run shown : CleanupInventoryRun Path}
    {rest : List (CleanupInventoryRun Path)} :
    SelectedIn (shown :: rest) run ↔
      (shown.unmarked = run ∧ shown.selected = true) ∨ SelectedIn rest run := by
  unfold SelectedIn
  simp

theorem unselected_not_selectedIn
    (h : Unselected runs listed) (run : CleanupInventoryRun Path) : ¬ SelectedIn runs run := by
  rintro ⟨shown, hshown, -, hselected⟩
  rw [h.unselected shown hshown] at hselected
  cases hselected

theorem Unselected.tail {shown : CleanupInventoryRun Path}
    {rest listed : List (CleanupInventoryRun Path)} (h : Unselected (shown :: rest) listed) :
    ∃ others, listed = shown.unmarked :: others ∧ Unselected rest others :=
  ⟨_, h.same.symm, rfl, fun run hrun => h.unselected run (List.mem_cons_of_mem _ hrun)⟩

theorem unselected_of_listed
    (h : ∀ run ∈ runs, run.Listed) : Unselected runs runs :=
  ⟨List.map_congr_left (fun run hrun => (h run hrun).unmarked_eq) |>.trans (List.map_id runs),
    fun run hrun => (h run hrun).unselected⟩

theorem markIncompleteBatchRuns_unselected
    (h : ∀ run ∈ runs, run.Listed) :
    Unselected (markIncompleteBatchRuns runs) runs := by
  constructor
  · unfold markIncompleteBatchRuns
    rw [List.map_map]
    refine (List.map_congr_left fun run hrun => ?_).trans (List.map_id runs)
    dsimp only [Function.comp_apply]
    split <;> exact (h run hrun).unmarked_eq
  · intro run hrun
    obtain ⟨before, hbefore, rfl⟩ := List.mem_map.mp hrun
    split <;> exact (h before hbefore).unselected

/-- A loop that treats each run by itself. -/
theorem selectedIn_map
    {f : CleanupInventoryRun Path → CleanupInventoryRun Path} {p : CleanupInventoryRun Path → Prop}
    (hf : ∀ run ∈ runs, (f run).unmarked = run ∧ ((f run).selected = true ↔ p run))
    (run : CleanupInventoryRun Path) : SelectedIn (runs.map f) run ↔ run ∈ runs ∧ p run := by
  constructor
  · rintro ⟨shown, hshown, rfl, hselected⟩
    obtain ⟨before, hbefore, rfl⟩ := List.mem_map.mp hshown
    rw [(hf before hbefore).1]
    exact ⟨hbefore, (hf before hbefore).2.mp hselected⟩
  · rintro ⟨hmem, hp⟩
    exact ⟨f run, List.mem_map_of_mem hmem, (hf run hmem).1, (hf run hmem).2.mpr hp⟩

theorem selectExact_selects (h : run.Listed) :
    (selectExact run).unmarked = run ∧
      ((selectExact run).selected = true ↔ run.protectionReason = none) := by
  unfold selectExact
  split
  · rename_i hfree
    exact ⟨h.unmarked_eq, iff_of_true rfl hfree⟩
  · rename_i hprotected
    exact ⟨h.unmarked_eq, iff_of_false (by rw [h.unselected]; decide) hprotected⟩

theorem isEligibleCompleted_iff :
    run.isEligibleCompleted = true ↔
      run.protectionReason = none ∧ run.state = .completed := by
  simp [CleanupInventoryRun.isEligibleCompleted]

theorem selectOlder_selects (h : run.Listed) (cutoff : UtcInstant) :
    (selectOlder cutoff run).unmarked = run ∧
      ((selectOlder cutoff run).selected = true ↔ run.isEligibleCompleted = true ∧
        ∃ endedAt, run.endedAt = some endedAt ∧ endedAt.instant.compare cutoff = .lt) := by
  have hfalse : ¬ run.selected = true := by
    rw [h.unselected]
    decide
  rw [isEligibleCompleted_iff]
  unfold selectOlder
  split
  · rename_i hprotected
    exact ⟨h.unmarked_eq, iff_of_false hfalse fun hall => hprotected hall.1.1⟩
  rename_i hfree
  have hfree := Decidable.not_not.mp hfree
  split
  · rename_i hincomplete
    refine ⟨h.unmarked_eq, iff_of_false hfalse fun hall => ?_⟩
    rw [hincomplete] at hall
    cases hall.1.2
  rename_i hcomplete
  have hcompleted : run.state = .completed := by
    cases hstate : run.state with
    | completed => rfl
    | incomplete => exact absurd hstate hcomplete
    | unknown => exact absurd hstate (h.known hfree)
  split
  · rename_i hended
    obtain ⟨endedAt, hat, hbefore⟩ := (Option.any_eq_true _ _).mp hended
    exact ⟨h.unmarked_eq, iff_of_true rfl ⟨⟨hfree, hcompleted⟩, endedAt, hat, by simpa using hbefore⟩⟩
  · rename_i hended
    refine ⟨h.unmarked_eq, iff_of_false hfalse ?_⟩
    rintro ⟨-, endedAt, hat, hbefore⟩
    exact hended (by simp [hat, hbefore])

/-! ### The completed runs by position -/

/-- The number of completed runs. -/
def completedCount (runs : List (CleanupInventoryRun Path)) : Nat :=
  runs.countP fun run => run.state = .completed

/-- The loop selects the eligible runs with so few completed ones before them. -/
theorem selectOutside_selects {selectCount position : Nat}
    (h : Unselected runs listed)
    (run : CleanupInventoryRun Path) :
    SelectedIn (selectOutside selectCount position runs) run ↔
      ∃ before after, listed = before ++ run :: after ∧ run.isEligibleCompleted = true ∧
        position + completedCount before < selectCount := by
  induction runs generalizing position listed with
  | nil =>
    have hlisted : listed = [] := h.same.symm
    rw [hlisted]
    simp [selectOutside, SelectedIn]
  | cons shown rest ih =>
    obtain ⟨others, rfl, hrest⟩ := h.tail
    have hunselected := h.unselected shown List.mem_cons_self
    have hstate : shown.unmarked.state = shown.state := rfl
    -- the runs after the first have it before them
    have hlater (next : Nat)
        (hnext : ∀ before : List (CleanupInventoryRun Path),
          position + completedCount (shown.unmarked :: before) = next + completedCount before) :
        (∃ before after, shown.unmarked :: others = before ++ run :: after ∧
            run.isEligibleCompleted = true ∧ position + completedCount before < selectCount) ↔
          (shown.unmarked = run ∧ run.isEligibleCompleted = true ∧ position < selectCount) ∨
          ∃ before after, others = before ++ run :: after ∧ run.isEligibleCompleted = true ∧
            next + completedCount before < selectCount := by
      constructor
      · rintro ⟨before, after, heq, heligible, hlt⟩
        cases before with
        | nil =>
          obtain ⟨hsame, -⟩ := List.cons.inj heq
          exact .inl ⟨hsame, heligible, by simpa [completedCount] using hlt⟩
        | cons first before =>
          obtain ⟨rfl, hothers⟩ := List.cons.inj heq
          exact .inr ⟨before, after, hothers, heligible, by rw [← hnext]; exact hlt⟩
      · rintro (⟨rfl, heligible, hlt⟩ | ⟨before, after, rfl, heligible, hlt⟩)
        · exact ⟨[], others, rfl, heligible, by simpa [completedCount] using hlt⟩
        · exact ⟨shown.unmarked :: before, after, rfl, heligible, by rw [hnext]; exact hlt⟩
    rw [selectOutside]
    split
    · rename_i hcompleted
      rw [selectedIn_cons, ih hrest, hlater (position + 1) fun before => by
        simp only [completedCount, List.countP_cons, hstate, hcompleted, decide_true, if_true]
        omega]
      refine or_congr ?_ Iff.rfl
      split
      · rename_i hprotected
        refine iff_of_false (fun hshown => ?_) ?_
        · rw [hunselected] at hshown
          cases hshown.2
        · rintro ⟨rfl, heligible, -⟩
          exact hprotected (isEligibleCompleted_iff.mp heligible).1
      · rename_i hfree
        split
        · rename_i hlt
          refine and_congr_right fun hsame => iff_of_true rfl ⟨?_, hlt⟩
          rw [← hsame]
          exact isEligibleCompleted_iff.mpr ⟨Decidable.not_not.mp hfree, hcompleted⟩
        · rename_i hge
          refine iff_of_false (fun hshown => ?_) fun hall => hge hall.2.2
          exact absurd hshown.2 (by rw [CleanupInventoryRun.skip, hunselected]; decide)
    · rename_i hother
      rw [selectedIn_cons, ih hrest, hlater position fun before => by
        simp [completedCount, hstate, hother]]
      refine or_congr (iff_of_false (fun hshown => ?_) ?_) Iff.rfl
      · rw [hunselected] at hshown
        cases hshown.2
      · rintro ⟨rfl, heligible, -⟩
        exact hother (isEligibleCompleted_iff.mp heligible).2

/-! ### The budget -/

/-- The sum of the known sizes. -/
def knownBytes (runs : List (CleanupInventoryRun Path)) : Nat :=
  (runs.map fun run => (run.bytes.map UInt64.toNat).getD 0).sum

/-- The eligible runs. -/
def eligibleRuns (runs : List (CleanupInventoryRun Path)) : List (CleanupInventoryRun Path) :=
  runs.filter CleanupInventoryRun.isEligibleCompleted

/-- What a budget selects of the eligible runs, oldest first: the shortest prefix that makes the rest
fit, or all. -/
structure ShortestPrefix (budget remaining : Nat) (eligible selected : List (CleanupInventoryRun Path)) :
    Prop where
  isPrefix : selected <+: eligible
  fits : remaining ≤ budget + knownBytes selected ∨ selected = eligible
  shortest : ∀ shorter, shorter <+: selected → shorter ≠ selected →
    budget + knownBytes shorter < remaining

theorem knownBytes_cons (run : CleanupInventoryRun Path) (rest : List (CleanupInventoryRun Path)) :
    knownBytes (run :: rest) = (run.bytes.map UInt64.toNat).getD 0 + knownBytes rest := rfl

/-- The loop selects the shortest prefix, and no `expect` and no subtraction of it fails. -/
theorem selectOverBudget_selects {budget remaining : Nat}
    (h : Unselected runs listed)
    (hbytes : ∀ run ∈ listed, run.isEligibleCompleted = true → run.bytes.isSome = true)
    (hsum : knownBytes (eligibleRuns listed) ≤ remaining) :
    ∃ shown selected, selectOverBudget budget remaining runs = .ok shown ∧
      shown.map CleanupInventoryRun.unmarked = listed ∧
      (∀ run, SelectedIn shown run ↔ run ∈ selected) ∧
      ShortestPrefix budget remaining (eligibleRuns listed) selected := by
  induction runs generalizing remaining listed with
  | nil =>
    have hlisted : listed = [] := h.same.symm
    rw [hlisted]
    refine ⟨[], [], rfl, rfl, fun run => ?_, List.nil_prefix, .inr rfl, ?_⟩
    · simp [SelectedIn]
    · intro shorter hshorter hne
      exact absurd (List.prefix_nil.mp hshorter) hne
  | cons run rest ih =>
    obtain ⟨others, rfl, hrest⟩ := h.tail
    have hunselected := h.unselected run List.mem_cons_self
    have hbytesRest := fun run hrun => hbytes run (List.mem_cons_of_mem _ hrun)
    have hsame : run.unmarked.isEligibleCompleted = run.isEligibleCompleted := rfl
    rw [selectOverBudget]
    by_cases heligible : run.isEligibleCompleted = true
    · have hlisted : eligibleRuns (run.unmarked :: others) = run.unmarked :: eligibleRuns others :=
        List.filter_cons_of_pos (hsame.trans heligible)
      rw [hlisted, knownBytes_cons] at hsum
      rw [if_pos heligible, hlisted]
      split
      · rename_i hfits
        obtain ⟨shown, selected, hshown, hmarked, hselects, hprefix⟩ :=
          ih hrest hbytesRest (le_of_add_le_right hsum)
        have hnone : selected = [] := by
          by_contra hsome
          have hmore := hprefix.shortest [] List.nil_prefix (Ne.symm hsome)
          exact absurd (Nat.lt_of_le_of_lt (Nat.le_add_right budget _) hmore) (Nat.not_lt.mpr hfits)
        subst hnone
        refine ⟨run.skip .withinTotalByteBudget :: shown, [], by rw [hshown]; rfl, ?_,
          fun other => ?_, List.nil_prefix, .inl ?_, ?_⟩
        · rw [List.map_cons, hmarked]
          rfl
        · rw [selectedIn_cons, hselects, CleanupInventoryRun.skip, hunselected]
          simp
        · exact hfits.trans (Nat.le_add_right _ _)
        · intro shorter hshorter hne
          exact absurd (List.prefix_nil.mp hshorter) hne
      · rename_i hover
        obtain ⟨bytes, hsize⟩ := Option.isSome_iff_exists.mp
          (hbytes run.unmarked List.mem_cons_self (hsame.trans heligible))
        have hknown : run.bytes = some bytes := hsize
        rw [show run.unmarked.bytes = run.bytes from rfl, hknown] at hsum
        simp only [Option.map_some, Option.getD_some] at hsum
        have hsub : checkedSub remaining bytes.toNat = some (remaining - bytes.toNat) :=
          checkedSub_eq_some.mpr (by omega)
        have hless : knownBytes (eligibleRuns others) ≤ remaining - bytes.toNat := by omega
        obtain ⟨shown, selected, hshown, hmarked, hselects, hprefix⟩ := ih hrest hbytesRest hless
        refine ⟨run.select .totalBytesOverBudget :: shown, run.unmarked :: selected, ?_, ?_,
          fun other => ?_, ?_, ?_, ?_⟩
        · rw [hknown, orPanic, ok_bind, hsub, orPanic, ok_bind, hshown]
          rfl
        · rw [List.map_cons, hmarked]
          rfl
        · rw [selectedIn_cons, hselects, List.mem_cons, eq_comm (a := other)]
          exact or_congr (and_iff_left rfl) Iff.rfl
        · exact List.cons_prefix_cons.mpr ⟨rfl, hprefix.isPrefix⟩
        · rcases hprefix.fits with hfits | hall
          · refine .inl ?_
            rw [knownBytes_cons, show run.unmarked.bytes = some bytes from hknown]
            simp only [Option.map_some, Option.getD_some]
            omega
          · exact .inr (congrArg _ hall)
        · intro shorter hshorter hne
          cases shorter with
          | nil => exact Nat.not_le.mp hover
          | cons first shorter =>
            obtain ⟨rfl, hrestPrefix⟩ := List.cons_prefix_cons.mp hshorter
            have hmore := hprefix.shortest shorter hrestPrefix fun heq => hne (by rw [heq])
            rw [knownBytes_cons, show run.unmarked.bytes = some bytes from hknown]
            simp only [Option.map_some, Option.getD_some]
            omega
    · have hlisted : eligibleRuns (run.unmarked :: others) = eligibleRuns others :=
        List.filter_cons_of_neg (by rw [hsame]; exact heligible)
      rw [hlisted] at hsum
      rw [if_neg heligible, hlisted]
      obtain ⟨shown, selected, hshown, hmarked, hselects, hprefix⟩ := ih hrest hbytesRest hsum
      refine ⟨run :: shown, selected, by rw [hshown]; rfl, ?_, fun other => ?_, hprefix⟩
      · rw [List.map_cons, hmarked]
      · rw [selectedIn_cons, hselects, hunselected]
        simp

/-! ### Sums -/

/-- The sizes are summed when all are known. -/
theorem sumAllBytes_eq (runs : List (CleanupInventoryRun Path)) :
    sumAllBytes runs =
      if ∀ run ∈ runs, run.bytes.isSome = true then some (knownBytes runs) else none := by
  have hfold (runs : List (CleanupInventoryRun Path)) (total : Nat) :
      runs.foldlM (fun total run => run.bytes.map fun bytes => total + bytes.toNat) total =
        if ∀ run ∈ runs, run.bytes.isSome = true then some (total + knownBytes runs) else none := by
    induction runs generalizing total with
    | nil => simp [knownBytes]
    | cons run rest ih =>
      rw [List.foldlM_cons]
      cases hbytes : run.bytes with
      | none =>
        rw [if_neg fun hall => by simpa [hbytes] using hall run List.mem_cons_self]
        rfl
      | some bytes =>
        change List.foldlM _ (total + bytes.toNat) rest = _
        rw [ih]
        simp [hbytes, knownBytes_cons, Nat.add_assoc]
  unfold sumAllBytes
  rw [hfold, Nat.zero_add]

/-- The sizes of the selected runs are summed. -/
theorem sumSelectedBytes_eq
    (h : ∀ run ∈ runs, run.selected = true → run.bytes.isSome = true) :
    sumSelectedBytes runs = .ok (knownBytes (runs.filter CleanupInventoryRun.selected)) := by
  have hfold (runs : List (CleanupInventoryRun Path))
      (h : ∀ run ∈ runs, run.bytes.isSome = true) (total : Nat) :
      runs.foldlM (fun total run => do
        let bytes ← orPanic "selected archives have known bytes" run.bytes
        return total + bytes.toNat) total =
        (.ok (total + knownBytes runs) : Except (Fault CleanupPolicyError) Nat) := by
    induction runs generalizing total with
    | nil => rfl
    | cons run rest ih =>
      obtain ⟨hrun, hrest⟩ := List.forall_mem_cons.mp h
      obtain ⟨bytes, hbytes⟩ := Option.isSome_iff_exists.mp hrun
      rw [List.foldlM_cons, hbytes]
      change List.foldlM _ (total + bytes.toNat) rest = _
      rw [ih hrest, knownBytes_cons, hbytes, ← Nat.add_assoc]
      rfl
  unfold sumSelectedBytes
  rw [hfold _ fun run hrun => h run (List.mem_of_mem_filter hrun) (List.mem_filter.mp hrun).2,
    Nat.zero_add]

/-- What is selected and what is left are all. -/
theorem knownBytes_filter (runs : List (CleanupInventoryRun Path)) :
    knownBytes (runs.filter CleanupInventoryRun.selected) +
      knownBytes (runs.filter fun run => !run.selected) = knownBytes runs := by
  induction runs with
  | nil => rfl
  | cons run rest ih =>
    cases hselected : run.selected with
    | true =>
      rw [List.filter_cons_of_pos hselected, List.filter_cons_of_neg (by simp [hselected]),
        knownBytes_cons, knownBytes_cons, ← ih]
      omega
    | false =>
      rw [List.filter_cons_of_neg (by simp [hselected]), List.filter_cons_of_pos (by simp [hselected]),
        knownBytes_cons, knownBytes_cons, ← ih]
      omega

/-- The remaining bytes are those of the runs that are left. -/
theorem subtractSelected_eq
    (h : ∀ run ∈ runs, run.selected = true → run.bytes.isSome = true) :
    subtractSelected (sumAllBytes runs) (knownBytes (runs.filter CleanupInventoryRun.selected)) =
      .ok (sumAllBytes (runs.filter fun run => !run.selected)) := by
  have hleft : (∀ run ∈ runs.filter fun run => !run.selected, run.bytes.isSome = true) ↔
      ∀ run ∈ runs, run.bytes.isSome = true := by
    constructor
    · intro hall run hrun
      cases hselected : run.selected with
      | true => exact h run hrun hselected
      | false => exact hall run (List.mem_filter.mpr ⟨hrun, by simp [hselected]⟩)
    · exact fun hall run hrun => hall run (List.mem_of_mem_filter hrun)
  have hsum := knownBytes_filter runs
  rw [sumAllBytes_eq, sumAllBytes_eq]
  by_cases hknown : ∀ run ∈ runs, run.bytes.isSome = true
  · have hsub : checkedSub (knownBytes runs)
        (knownBytes (runs.filter CleanupInventoryRun.selected)) =
          some (knownBytes (runs.filter fun run => !run.selected)) :=
      checkedSub_eq_some.mpr (by omega)
    rw [if_pos hknown, if_pos (hleft.mpr hknown), subtractSelected, hsub]
    rfl
  · rw [if_neg hknown, if_neg (mt hleft.mp hknown)]
    rfl

end Loops

/-! ## Previews -/

section Previews

variable {Path : Type} [LinearOrder Path]

/-- The runs in the order of a cleanup. -/
def sortedRuns (runs : List (CleanupInventoryRun Path)) : List (CleanupInventoryRun Path) :=
  runs.mergeSort fun left right => (cleanupOrder left right).isLE

theorem sortedRuns_perm (runs : List (CleanupInventoryRun Path)) : (sortedRuns runs).Perm runs :=
  List.mergeSort_perm _ _

theorem sortedRuns_pairwise (runs : List (CleanupInventoryRun Path)) :
    (sortedRuns runs).Pairwise fun left right => left.age ≤ right.age := by
  refine (List.pairwise_mergeSort (fun a b c hab hbc => ?_) (fun a b => ?_) runs).imp
    fun h => (isLE_cleanupOrder _ _).mp h
  · rw [isLE_cleanupOrder] at *
    exact hab.trans hbc
  · rw [Bool.or_eq_true, isLE_cleanupOrder, isLE_cleanupOrder]
    exact le_total _ _

omit [LinearOrder Path] in
/-- The runs of an inventory are told apart by their place. -/
theorem CleanupInventory.age_inj (inventory : CleanupInventory Path)
    {run other : CleanupInventoryRun Path} (hrun : run ∈ inventory.runs)
    (hother : other ∈ inventory.runs) (h : run.age = other.age) : run = other := by
  unfold CleanupInventoryRun.age at h
  simp only [EmbeddingLike.apply_eq_iff_eq, Prod.mk.injEq] at h
  exact List.inj_on_of_nodup_map inventory.distinct hrun hother h.2.2.2

/-- **The sorted runs do not depend on the order of the inventory.** -/
theorem sortedRuns_eq_of_perm (inventory : CleanupInventory Path)
    {runs : List (CleanupInventoryRun Path)} (h : runs.Perm inventory.runs) :
    sortedRuns runs = sortedRuns inventory.runs := by
  refine List.Perm.eq_of_pairwise (fun a b ha hb hab hba => ?_) (sortedRuns_pairwise runs)
    (sortedRuns_pairwise inventory.runs)
    ((sortedRuns_perm runs).trans (h.trans (sortedRuns_perm inventory.runs).symm))
  refine inventory.age_inj ?_ ((sortedRuns_perm _).mem_iff.mp hb) (le_antisymm hab hba)
  exact h.mem_iff.mp ((sortedRuns_perm runs).mem_iff.mp ha)

theorem CleanupInventory.sorted_pairwise (inventory : CleanupInventory Path) :
    (sortedRuns inventory.runs).Pairwise fun left right => left.age < right.age := by
  have hnodup : (sortedRuns inventory.runs).Nodup :=
    (sortedRuns_perm _).nodup_iff.mpr (List.Nodup.of_map _ inventory.distinct)
  refine (List.Pairwise.and (sortedRuns_pairwise inventory.runs) hnodup).imp_of_mem
    fun hleft hright hboth => lt_of_le_of_ne hboth.1 fun heq => hboth.2 ?_
  exact inventory.age_inj ((sortedRuns_perm _).mem_iff.mp hleft)
    ((sortedRuns_perm _).mem_iff.mp hright) heq

/-- A preview shows a run as selected. -/
def CleanupPreview.Selects (preview : CleanupPreview Path) (run : CleanupInventoryRun Path) : Prop :=
  SelectedIn preview.runs run

/-- The number of completed runs of an inventory that are newer. -/
def newerCount (runs : List (CleanupInventoryRun Path)) (run : CleanupInventoryRun Path) : Nat :=
  runs.countP fun newer => newer.state = .completed ∧ run.age < newer.age

/-- What a policy allows a preview to select. -/
structure Allowed (inventory : CleanupInventory Path) (policy : CleanupPolicySpec) (now : Int)
    (preview : CleanupPreview Path) : Prop where
  listed : ∀ run, preview.Selects run → run ∈ inventory.runs
  unprotected : ∀ run, preview.Selects run → run.protectionReason = none
  complete : ∀ run, preview.Selects run → run.state = .completed ∨
    ∃ runId, policy = .run runId ∧ run.runId = some runId
  exactRun : ∀ runId, policy = .run runId → ∀ run, preview.Selects run ↔
    run ∈ inventory.runs ∧ run.runId = some runId ∧ run.protectionReason = none
  olderThan : ∀ age, policy = .olderThan age → ∀ run, preview.Selects run ↔
    run ∈ inventory.runs ∧ run.isEligibleCompleted = true ∧ ∃ endedAt, run.endedAt = some endedAt ∧
      endedAt.instant.sinceEpoch < now - age.toNat * 1000000000
  keepRuns : ∀ keep, policy = .keepRuns keep → ∀ run, preview.Selects run ↔
    run ∈ inventory.runs ∧ run.isEligibleCompleted = true ∧
      keep.toNat ≤ newerCount inventory.runs run
  unknownBytes : ∀ budget, policy = .maxTotalBytes budget →
    (∃ run ∈ inventory.runs, run.bytes = none) → ∀ run, ¬ preview.Selects run
  maxTotalBytes : ∀ budget, policy = .maxTotalBytes budget →
    (∀ run ∈ inventory.runs, run.bytes.isSome = true) →
    ∀ oldestFirst, oldestFirst.Perm (eligibleRuns inventory.runs) →
      (oldestFirst.Pairwise fun older newer => older.age < newer.age) →
      ∃ selected, (∀ run, preview.Selects run ↔ run ∈ selected) ∧
        ShortestPrefix budget.toNat (knownBytes inventory.runs) oldestFirst selected
  remaining : preview.remainingBytes = sumAllBytes (preview.runs.filter fun run => !run.selected)
  satisfied : ∀ budget, policy = .maxTotalBytes budget → (preview.satisfied = true ↔
    ∃ remaining, preview.remainingBytes = some remaining ∧ remaining ≤ budget.toNat)

section Apply

variable {policy : CleanupPolicySpec} {now : UtcInstant}
  {runs shown : List (CleanupInventoryRun Path)}

/-- A preview, of what the policy makes of the sorted runs. -/
theorem selectPreview_eq (production : Path) (h : applyPolicy policy now (sortedRuns runs) = .ok shown)
    (hbytes : ∀ run, SelectedIn shown run → run.bytes.isSome = true) :
    ∃ preview, selectPreview production policy now runs = .ok preview ∧ preview.runs = shown ∧
      preview.remainingBytes = sumAllBytes (shown.filter fun run => !run.selected) ∧
      preview.satisfied = (operationFailure policy preview.remainingBytes).isNone := by
  have hknown : ∀ run ∈ shown, run.selected = true → run.bytes.isSome = true :=
    fun run hrun hselected => hbytes run.unmarked ⟨run, hrun, rfl, hselected⟩
  unfold selectPreview
  change ∃ preview, (applyPolicy policy now (sortedRuns runs) >>= _) = _ ∧ _
  rw [h, ok_bind, sumSelectedBytes_eq hknown, ok_bind, subtractSelected_eq hknown, ok_bind]
  exact ⟨_, rfl, rfl, rfl, rfl⟩

omit [LinearOrder Path] in
theorem satisfied_iff {preview : CleanupPreview Path} {budget : UInt64}
    (h : preview.satisfied =
      (operationFailure (.maxTotalBytes budget) preview.remainingBytes).isNone) :
    preview.satisfied = true ↔
      ∃ remaining, preview.remainingBytes = some remaining ∧ remaining ≤ budget.toNat := by
  rw [h]
  cases preview.remainingBytes with
  | none => simp [operationFailure]
  | some remaining =>
    change (if budget.toNat < remaining then some _ else none).isNone = true ↔ _
    split
    · rename_i hover
      simpa using hover
    · rename_i hfits
      simpa using hfits

/-- The completed runs before a run, of those of a sorted list. -/
theorem newerCount_eq {before after : List (CleanupInventoryRun Path)}
    {run : CleanupInventoryRun Path}
    (h : (before ++ run :: after).Pairwise fun left right => left.age < right.age) :
    newerCount (before ++ run :: after) run = completedCount after := by
  obtain ⟨-, hafter, hcross⟩ := List.pairwise_append.mp h
  obtain ⟨hnewer, -⟩ := List.pairwise_cons.mp hafter
  have hbefore : newerCount before run = 0 := by
    refine List.countP_eq_zero.mpr fun older holder => ?_
    have hlt := hcross older holder run List.mem_cons_self
    simp [hlt.le.not_gt]
  have hrest : newerCount after run = completedCount after := by
    refine List.countP_congr fun newer hmem => ?_
    simp [hnewer newer hmem]
  have hself : newerCount [run] run = 0 := by simp [newerCount]
  unfold newerCount at *
  rw [List.append_cons, List.countP_append, List.countP_append, hbefore, hself, hrest]
  omega

omit [LinearOrder Path] in
theorem completedCount_append_cons {before after : List (CleanupInventoryRun Path)}
    {run : CleanupInventoryRun Path} (h : run.state = .completed) :
    completedCount (before ++ run :: after) =
      completedCount before + (completedCount after + 1) := by
  unfold completedCount
  rw [List.countP_append, List.countP_cons_of_pos (by simpa using h)]

omit [LinearOrder Path] in
theorem completedCount_marked {marked listed : List (CleanupInventoryRun Path)}
    (h : Unselected marked listed) :
    (marked.filter fun run => run.state = .completed).length = completedCount listed := by
  rw [← h.same, completedCount, List.countP_map, ← List.countP_eq_length_filter]
  rfl

/-- `KeepRuns` selects the eligible runs with at least so many completed ones that are newer. -/
theorem keepRuns_selects (inventory : CleanupInventory Path) (keep : UInt64)
    {marked : List (CleanupInventoryRun Path)} (h : Unselected marked (sortedRuns inventory.runs))
    (run : CleanupInventoryRun Path) :
    SelectedIn (selectOutside ((marked.filter fun run => run.state = .completed).length -
        min keep.toNat usizeMax) 0 marked) run ↔
      run ∈ inventory.runs ∧ run.isEligibleCompleted = true ∧
        keep.toNat ≤ newerCount inventory.runs run := by
  have hkeep : min keep.toNat usizeMax = keep.toNat :=
    Nat.min_eq_left (Nat.le_sub_one_of_lt keep.toNat_lt)
  have hcount (other : CleanupInventoryRun Path) :
      newerCount inventory.runs other = newerCount (sortedRuns inventory.runs) other :=
    ((sortedRuns_perm inventory.runs).countP_eq _).symm
  have hsorted := inventory.sorted_pairwise
  rw [selectOutside_selects h, completedCount_marked h, hkeep, hcount,
    ← (sortedRuns_perm inventory.runs).mem_iff]
  constructor
  · rintro ⟨before, after, hlisted, heligible, hlt⟩
    rw [hlisted] at hsorted hlt ⊢
    rw [completedCount_append_cons (isEligibleCompleted_iff.mp heligible).2] at hlt
    rw [newerCount_eq hsorted]
    exact ⟨by simp, heligible, by omega⟩
  · rintro ⟨hmem, heligible, hle⟩
    obtain ⟨before, after, hlisted⟩ := List.append_of_mem hmem
    refine ⟨before, after, hlisted, heligible, ?_⟩
    rw [hlisted] at hsorted hle ⊢
    rw [newerCount_eq hsorted] at hle
    rw [completedCount_append_cons (isEligibleCompleted_iff.mp heligible).2]
    omega

end Apply

omit [LinearOrder Path] in
theorem applyPolicy_keepRuns (keep : UInt64) (now : UtcInstant)
    (runs : List (CleanupInventoryRun Path)) :
    applyPolicy (.keepRuns keep) now runs =
      .ok (selectOutside (((markIncompleteBatchRuns runs).filter
        fun run => run.state = .completed).length - min keep.toNat usizeMax) 0
        (markIncompleteBatchRuns runs)) := rfl

section Selections

variable (inventory : CleanupInventory Path) (production : Path) (now : Int)

theorem CleanupInventory.sorted_listed :
    ∀ run ∈ sortedRuns inventory.runs, run.Listed := fun run hrun =>
  inventory.listed run ((sortedRuns_perm _).mem_iff.mp hrun)

omit [LinearOrder Path] in
/-- The runs a policy selects are eligible, when it is for no run in particular. -/
theorem allowed_of_eligible (policy : CleanupPolicySpec) {preview : CleanupPreview Path}
    (heligible : ∀ run, preview.Selects run →
      run ∈ inventory.runs ∧ run.isEligibleCompleted = true) :
    (∀ run, preview.Selects run → run ∈ inventory.runs) ∧
      (∀ run, preview.Selects run → run.protectionReason = none) ∧
      (∀ run, preview.Selects run → run.state = .completed ∨
        ∃ runId, policy = .run runId ∧ run.runId = some runId) :=
  ⟨fun run h => (heligible run h).1,
    fun run h => (isEligibleCompleted_iff.mp (heligible run h).2).1,
    fun run h => .inl (isEligibleCompleted_iff.mp (heligible run h).2).2⟩

omit [LinearOrder Path] in
theorem CleanupInventory.eligible_bytes {run : CleanupInventoryRun Path} (hrun : run ∈ inventory.runs)
    (h : run.isEligibleCompleted = true) : run.bytes.isSome = true :=
  (inventory.listed run hrun).bytes (isEligibleCompleted_iff.mp h).1

theorem run_allowed (runId : CanonicalUuid) :
    ((∀ run ∈ inventory.runs, run.runId ≠ some runId) ∧
      previewFromInventory production (.run runId) now inventory.runs =
        .error (.raised ⟨.targetNotFound,
          "Run " ++ displayUuid runId ++ " is not present in the cleanup inventory"⟩)) ∨
    ∃ preview, previewFromInventory production (.run runId) now inventory.runs = .ok preview ∧
      Allowed inventory (.run runId) now preview := by
  by_cases hnone : ∀ run ∈ inventory.runs, run.runId ≠ some runId
  · have hempty : (sortedRuns inventory.runs).filter (fun run => run.runId = some runId) = [] := by
      refine List.filter_eq_nil_iff.mpr fun run hrun => ?_
      simpa using hnone run ((sortedRuns_perm _).mem_iff.mp hrun)
    refine .inl ⟨hnone, ?_⟩
    unfold previewFromInventory selectPreview
    change (applyPolicy _ _ (sortedRuns inventory.runs) >>= _) = _
    rw [applyPolicy, hempty]
    rfl
  · have hselects (run : CleanupInventoryRun Path) :
        SelectedIn (((sortedRuns inventory.runs).filter fun run => run.runId = some runId).map
          selectExact) run ↔
          run ∈ inventory.runs ∧ run.runId = some runId ∧ run.protectionReason = none := by
      rw [selectedIn_map (p := fun run => run.protectionReason = none) fun run hrun =>
        selectExact_selects (inventory.sorted_listed run (List.mem_of_mem_filter hrun)),
        List.mem_filter, decide_eq_true_eq, (sortedRuns_perm _).mem_iff, and_assoc]
    have happly : applyPolicy (.run runId) (.fromSystemTime now) (sortedRuns inventory.runs) =
        .ok (((sortedRuns inventory.runs).filter fun run => run.runId = some runId).map
          selectExact) := by
      rw [applyPolicy]
      refine if_neg fun hempty => hnone fun run hrun hid => ?_
      have hmem : run ∈ (sortedRuns inventory.runs).filter fun run => run.runId = some runId :=
        List.mem_filter.mpr ⟨(sortedRuns_perm _).mem_iff.mpr hrun, by simpa using hid⟩
      rw [List.isEmpty_iff.mp hempty] at hmem
      cases hmem
    obtain ⟨preview, hpreview, hruns, hremaining, hsatisfied⟩ :=
      selectPreview_eq production happly fun run hrun =>
        (inventory.listed run ((hselects run).mp hrun).1).bytes ((hselects run).mp hrun).2.2
    have hpreviewSelects (run : CleanupInventoryRun Path) : preview.Selects run ↔
        run ∈ inventory.runs ∧ run.runId = some runId ∧ run.protectionReason = none := by
      rw [CleanupPreview.Selects, hruns]
      exact hselects run
    refine .inr ⟨preview, hpreview, fun run h => ((hpreviewSelects run).mp h).1,
      fun run h => ((hpreviewSelects run).mp h).2.2,
      fun run h => .inr ⟨runId, rfl, ((hpreviewSelects run).mp h).2.1⟩, ?_, ?_, ?_, ?_, ?_, ?_, ?_⟩
    · rintro _ ⟨⟩
      exact hpreviewSelects
    · rintro _ ⟨⟩
    · rintro _ ⟨⟩
    · rintro _ ⟨⟩
    · rintro _ ⟨⟩
    · rw [hremaining, hruns]
    · rintro _ ⟨⟩

theorem olderThan_allowed (age : UInt64) :
    ∃ preview, previewFromInventory production (.olderThan age) now inventory.runs = .ok preview ∧
      Allowed inventory (.olderThan age) now preview := by
  have hcutoff (endedAt : UtcTimestamp) :
      endedAt.instant.compare ((UtcInstant.fromSystemTime now).subtract age.toNat) = .lt ↔
        endedAt.instant.sinceEpoch < now - age.toNat * 1000000000 := by
    rw [UtcInstant.compare_eq endedAt.normal
      (UtcInstant.subtract_normal (UtcInstant.fromSystemTime_normal now) age.toNat),
      compare_lt_iff_lt, UtcInstant.subtract_sinceEpoch, UtcInstant.fromSystemTime_sinceEpoch]
  have hselects (run : CleanupInventoryRun Path) :
      SelectedIn ((sortedRuns inventory.runs).map
        (selectOlder ((UtcInstant.fromSystemTime now).subtract age.toNat))) run ↔
        run ∈ inventory.runs ∧ run.isEligibleCompleted = true ∧ ∃ endedAt,
          run.endedAt = some endedAt ∧
            endedAt.instant.sinceEpoch < now - age.toNat * 1000000000 := by
    rw [selectedIn_map fun run hrun => selectOlder_selects (inventory.sorted_listed run hrun) _,
      (sortedRuns_perm _).mem_iff]
    simp only [hcutoff]
  have happly : applyPolicy (.olderThan age) (.fromSystemTime now) (sortedRuns inventory.runs) =
      .ok ((sortedRuns inventory.runs).map
        (selectOlder ((UtcInstant.fromSystemTime now).subtract age.toNat))) := rfl
  obtain ⟨preview, hpreview, hruns, hremaining, hsatisfied⟩ :=
    selectPreview_eq production happly fun run hrun =>
      inventory.eligible_bytes ((hselects run).mp hrun).1 ((hselects run).mp hrun).2.1
  have hpreviewSelects (run : CleanupInventoryRun Path) := hselects run
  rw [← hruns] at hpreviewSelects
  obtain ⟨hlisted, hunprotected, hcomplete⟩ :=
    allowed_of_eligible inventory (.olderThan age) fun run (h : preview.Selects run) =>
      ⟨((hpreviewSelects run).mp h).1, ((hpreviewSelects run).mp h).2.1⟩
  refine ⟨preview, hpreview, hlisted, hunprotected, hcomplete, ?_, ?_, ?_, ?_, ?_, ?_, ?_⟩
  · rintro _ ⟨⟩
  · rintro _ ⟨⟩
    exact hpreviewSelects
  · rintro _ ⟨⟩
  · rintro _ ⟨⟩
  · rintro _ ⟨⟩
  · rw [hremaining, hruns]
  · rintro _ ⟨⟩

theorem keepRuns_allowed (keep : UInt64) :
    ∃ preview, previewFromInventory production (.keepRuns keep) now inventory.runs = .ok preview ∧
      Allowed inventory (.keepRuns keep) now preview := by
  have hselects := keepRuns_selects inventory keep
    (markIncompleteBatchRuns_unselected inventory.sorted_listed)
  obtain ⟨preview, hpreview, hruns, hremaining, hsatisfied⟩ :=
    selectPreview_eq production (applyPolicy_keepRuns keep (.fromSystemTime now)
      (sortedRuns inventory.runs)) fun run hrun =>
      inventory.eligible_bytes ((hselects run).mp hrun).1 ((hselects run).mp hrun).2.1
  have hpreviewSelects (run : CleanupInventoryRun Path) := hselects run
  rw [← hruns] at hpreviewSelects
  obtain ⟨hlisted, hunprotected, hcomplete⟩ :=
    allowed_of_eligible inventory (.keepRuns keep) fun run (h : preview.Selects run) =>
      ⟨((hpreviewSelects run).mp h).1, ((hpreviewSelects run).mp h).2.1⟩
  refine ⟨preview, hpreview, hlisted, hunprotected, hcomplete, ?_, ?_, ?_, ?_, ?_, ?_, ?_⟩
  · rintro _ ⟨⟩
  · rintro _ ⟨⟩
  · rintro _ ⟨⟩
    exact hpreviewSelects
  · rintro _ ⟨⟩
  · rintro _ ⟨⟩
  · rw [hremaining, hruns]
  · rintro _ ⟨⟩

/-- The oldest-first list of the eligible runs is the one the loop goes through. -/
theorem CleanupInventory.oldestFirst_eq {oldestFirst : List (CleanupInventoryRun Path)}
    (hperm : oldestFirst.Perm (eligibleRuns inventory.runs))
    (hsorted : oldestFirst.Pairwise fun older newer => older.age < newer.age) :
    oldestFirst = eligibleRuns (sortedRuns inventory.runs) := by
  refine List.Perm.eq_of_pairwise (fun a b _ _ hab hba => absurd (lt_trans hab hba) (lt_irrefl _))
    hsorted (inventory.sorted_pairwise.filter _) (hperm.trans ?_)
  exact ((sortedRuns_perm inventory.runs).filter _).symm

omit [LinearOrder Path] in
theorem knownBytes_perm {runs others : List (CleanupInventoryRun Path)} (h : runs.Perm others) :
    knownBytes runs = knownBytes others := (h.map _).sum_nat

omit [LinearOrder Path] in
/-- A policy that only skips changes no size. -/
theorem sumAllBytes_marked {marked listed : List (CleanupInventoryRun Path)}
    (h : marked.map CleanupInventoryRun.unmarked = listed) :
    sumAllBytes marked = sumAllBytes listed := by
  subst h
  unfold sumAllBytes
  rw [List.foldlM_map]
  rfl

omit [LinearOrder Path] in
theorem knownBytes_eligible_le (runs : List (CleanupInventoryRun Path)) :
    knownBytes (eligibleRuns runs) ≤ knownBytes runs :=
  ((List.filter_sublist (p := CleanupInventoryRun.isEligibleCompleted)).map _).sum_le_sum
    fun _ _ => Nat.zero_le _

theorem maxTotalBytes_allowed (budget : UInt64) :
    ∃ preview, previewFromInventory production (.maxTotalBytes budget) now inventory.runs =
        .ok preview ∧
      Allowed inventory (.maxTotalBytes budget) now preview := by
  have hmarked := markIncompleteBatchRuns_unselected inventory.sorted_listed
  have htotal := sumAllBytes_marked hmarked.same
  rw [sumAllBytes_eq (sortedRuns inventory.runs),
    knownBytes_perm (sortedRuns_perm inventory.runs)] at htotal
  simp only [(sortedRuns_perm inventory.runs).mem_iff] at htotal
  have heligibleBytes : ∀ run ∈ sortedRuns inventory.runs,
      run.isEligibleCompleted = true → run.bytes.isSome = true := fun run hrun =>
    inventory.eligible_bytes ((sortedRuns_perm inventory.runs).mem_iff.mp hrun)
  by_cases hknown : ∀ run ∈ inventory.runs, run.bytes.isSome = true
  · rw [if_pos hknown] at htotal
    have hsum : knownBytes (eligibleRuns (sortedRuns inventory.runs)) ≤
        knownBytes inventory.runs := by
      rw [← knownBytes_perm (sortedRuns_perm inventory.runs)]
      exact knownBytes_eligible_le _
    obtain ⟨shown, selected, hshown, -, hselects, hprefix⟩ :=
      @selectOverBudget_selects Path _ _ budget.toNat _ hmarked heligibleBytes hsum
    have hselected (run : CleanupInventoryRun Path) (h : run ∈ selected) :
        run ∈ inventory.runs ∧ run.isEligibleCompleted = true := by
      obtain ⟨hrun, heligible⟩ := List.mem_filter.mp (List.IsPrefix.subset hprefix.isPrefix h)
      exact ⟨(sortedRuns_perm _).mem_iff.mp hrun, heligible⟩
    have happly : applyPolicy (.maxTotalBytes budget) (.fromSystemTime now)
        (sortedRuns inventory.runs) = .ok shown := by
      rw [applyPolicy]
      simp only [htotal]
      exact hshown
    obtain ⟨preview, hpreview, hruns, hremaining, hsatisfied⟩ :=
      selectPreview_eq production happly fun run hrun =>
        inventory.eligible_bytes (hselected run ((hselects run).mp hrun)).1
          (hselected run ((hselects run).mp hrun)).2
    rw [← hruns] at hselects
    obtain ⟨hlisted, hunprotected, hcomplete⟩ :=
      allowed_of_eligible inventory (.maxTotalBytes budget)
        fun run (h : preview.Selects run) => hselected run ((hselects run).mp h)
    refine ⟨preview, hpreview, hlisted, hunprotected, hcomplete, ?_, ?_, ?_, ?_, ?_, ?_, ?_⟩
    · rintro _ ⟨⟩
    · rintro _ ⟨⟩
    · rintro _ ⟨⟩
    · rintro _ ⟨⟩ ⟨run, hrun, hunknown⟩
      have hbytes := hknown run hrun
      rw [hunknown] at hbytes
      cases hbytes
    · rintro _ ⟨⟩ - oldestFirst hperm hsorted
      rw [inventory.oldestFirst_eq hperm hsorted]
      exact ⟨selected, hselects, hprefix⟩
    · rw [hremaining, hruns]
    · rintro _ ⟨⟩
      exact satisfied_iff hsatisfied
  · rw [if_neg hknown] at htotal
    have hnone := unselected_not_selectedIn hmarked
    have happly : applyPolicy (.maxTotalBytes budget) (.fromSystemTime now)
        (sortedRuns inventory.runs) =
          .ok (markIncompleteBatchRuns (sortedRuns inventory.runs)) := by
      rw [applyPolicy]
      simp only [htotal]
    obtain ⟨preview, hpreview, hruns, hremaining, hsatisfied⟩ :=
      selectPreview_eq production happly fun run hrun => absurd hrun (hnone run)
    rw [← hruns] at hnone
    obtain ⟨hlisted, hunprotected, hcomplete⟩ :=
      allowed_of_eligible inventory (.maxTotalBytes budget)
        fun run (h : preview.Selects run) => absurd h (hnone run)
    refine ⟨preview, hpreview, hlisted, hunprotected, hcomplete, ?_, ?_, ?_, ?_, ?_, ?_, ?_⟩
    · rintro _ ⟨⟩
    · rintro _ ⟨⟩
    · rintro _ ⟨⟩
    · rintro _ ⟨⟩ -
      exact hnone
    · rintro _ ⟨⟩ hall
      exact absurd hall hknown
    · rw [hremaining, hruns]
    · rintro _ ⟨⟩
      exact satisfied_iff hsatisfied

/-- **A cleanup selects what its policy allows**, of every inventory in any order, and no `expect` and
no subtraction of it fails; its order is by the instants that the timestamps denote. -/
theorem cleanup_selects (policy : CleanupPolicySpec) :
    (∀ other : CleanupInventory Path, other.runs.Perm inventory.runs →
      previewFromInventory production policy now other.runs =
        previewFromInventory production policy now inventory.runs) ∧
    ((∃ runId, policy = .run runId ∧ (∀ run ∈ inventory.runs, run.runId ≠ some runId) ∧
        previewFromInventory production policy now inventory.runs =
          .error (.raised ⟨.targetNotFound,
            "Run " ++ displayUuid runId ++ " is not present in the cleanup inventory"⟩)) ∨
      ∃ preview, previewFromInventory production policy now inventory.runs = .ok preview ∧
        Allowed inventory policy now preview) ∧
    (∀ left right : CleanupInventoryRun Path,
      (cleanupOrder left right).isLE = true ↔ left.age ≤ right.age) ∧
    ∀ bytes instant, parseUtcTimestamp bytes = some instant ↔
      ∃ time : CivilTime, time.Valid ∧ time.text = bytes ∧ instant.Normal ∧
        instant.sinceEpoch = time.sinceEpoch := by
  refine ⟨fun other hperm => ?_, ?_, isLE_cleanupOrder, fun bytes instant => ?_⟩
  · unfold previewFromInventory selectPreview
    have hsorted := sortedRuns_eq_of_perm inventory hperm
    unfold sortedRuns at hsorted
    simp only [hsorted]
  · cases policy with
    | run runId =>
      rcases run_allowed inventory production now runId with ⟨hnone, herror⟩ | hallowed
      · exact .inl ⟨runId, rfl, hnone, herror⟩
      · exact .inr hallowed
    | olderThan age => exact .inr (olderThan_allowed inventory production now age)
    | keepRuns keep => exact .inr (keepRuns_allowed inventory production now keep)
    | maxTotalBytes budget => exact .inr (maxTotalBytes_allowed inventory production now budget)
  · exact parseUtcTimestamp_eq_some

theorem newYear_parsed : parseUtcTimestamp "2026-01-01T00:00:00Z".toUTF8.data.toList =
    some ⟨1767225600, 0⟩ := by decide +kernel

/-- Midnight of a new year. -/
def newYear : UtcTimestamp := ⟨_, _, newYear_parsed⟩

/-- A completed archive, an incomplete one and a protected one. -/
def shownInventory : CleanupInventory ℕ where
  runs := [.inspected ⟨1⟩ 0 100 newYear (some newYear) true none,
    .inspected ⟨2⟩ 1 50 newYear none false none, .«protected» none 2 none .active]
  listed := by simp [CleanupInventoryRun.inspected_listed, CleanupInventoryRun.protected_listed]
  distinct := by decide

theorem cleanup_selects_shown : ∃ preview,
    previewFromInventory 0 (.keepRuns 1) 0 shownInventory.runs = .ok preview ∧
      Allowed shownInventory (.keepRuns 1) 0 preview := by
  rcases (cleanup_selects shownInventory 0 0 (.keepRuns 1)).2.1 with ⟨runId, hpolicy, -⟩ | hallowed
  · cases hpolicy
  · exact hallowed

end Selections

end Previews

end Troupe.Cli
