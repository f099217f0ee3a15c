import Mathlib.Logic.Relation

/-! # Transition systems

A component that several parties use at once is a relation `step` on its states, one step for each
operation that runs under its lock; a run is `Relation.ReflTransGen step`. An invariant is shown for
one step and then holds along every run. -/

namespace Troupe.Lib

open Relation (ReflTransGen)

variable {σ : Type} {step : σ → σ → Prop}

/-- What every step keeps, every run keeps. -/
theorem run_invariant {p : σ → Prop} (hstep : ∀ s t, p s → step s t → p t) {s t : σ} (hs : p s)
    (hrun : ReflTransGen step s t) : p t := by
  induction hrun with
  | refl => exact hs
  | tail _ h ih => exact hstep _ _ ih h

/-- What every step from a state with `i` keeps, every run from such a state keeps, when `i` is
itself kept. -/
theorem run_invariant_under {i p : σ → Prop} (hinv : ∀ s t, i s → step s t → i t)
    (hstep : ∀ s t, i s → p s → step s t → p t) {s t : σ} (hi : i s) (hs : p s)
    (hrun : ReflTransGen step s t) : p t := by
  have hboth : i t ∧ p t :=
    run_invariant (p := fun s => i s ∧ p s)
      (fun a b hab hstep' => ⟨hinv a b hab.1 hstep', hstep a b hab.1 hab.2 hstep'⟩)
      ⟨hi, hs⟩ hrun
  exact hboth.2

end Troupe.Lib
