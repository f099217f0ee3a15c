import Mathlib.Logic.Basic

/-! # Binary search for the last index

`lastIndex` halves `[low, high)` and remembers the last index that passed. When the indices that pass
come before those that do not, what it remembers in the end is the last that passes. -/

namespace Troupe.Lib

/-- Search `[low, high)`, where `best` passed last; `none` when a test fails to answer. -/
def lastIndex (test : Nat → Option Bool) (low high best : Nat) : Option Nat :=
  if low < high then
    let middle := low + (high - low) / 2
    (test middle).bind fun passed =>
      if passed then lastIndex test (middle + 1) high middle else lastIndex test low middle best
  else
    some best
termination_by high - low

/-- **The search finds the last index that passes.** The invariant is that `best` passes, that no
index below `low` is above `best`, and that no index from `high` on passes. -/
theorem lastIndex_spec {test : Nat → Option Bool} {passes : Nat → Prop} [DecidablePred passes]
    {n low high best : Nat} (htest : ∀ i < n, test i = some (decide (passes i)))
    (hdown : ∀ i j, i ≤ j → passes j → passes i) (hhigh : high ≤ n) (hle : low ≤ high)
    (hbest : passes best) (hlow : low ≤ best + 1) (habove : ∀ i, high ≤ i → i < n → ¬passes i) :
    ∃ last, lastIndex test low high best = some last ∧ passes last ∧
      ∀ i < n, passes i → i ≤ last := by
  induction low, high, best using lastIndex.induct with
  | case1 low high best hlt middle ih ih' =>
    unfold lastIndex
    rw [if_pos hlt]
    have hmiddle : low ≤ middle ∧ middle < high := by
      dsimp only [middle]
      omega
    show ∃ last, ((test middle).bind _) = some last ∧ _
    rw [htest middle (by omega)]
    by_cases hpasses : passes middle
    · rw [decide_eq_true hpasses]
      exact ih hhigh (by omega) hpasses (Nat.le_refl _) habove
    · rw [decide_eq_false hpasses]
      refine ih' (by omega) hmiddle.1 hbest hlow fun i hi _ hpass => ?_
      exact hpasses (hdown middle i hi hpass)
  | case2 low high best hlt =>
    unfold lastIndex
    rw [if_neg hlt]
    refine ⟨best, rfl, hbest, fun i hi hpass => ?_⟩
    rcases Nat.lt_or_ge i high with hbelow | hge
    · omega
    · exact absurd hpass (habove i hge hi)

end Troupe.Lib
