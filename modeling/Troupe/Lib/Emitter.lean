import Mathlib.Data.List.Basic

/-! # Machines that emit

`step s input` is a method on `&mut self` that returns a `Vec` of facts: the facts come with the state
it leaves behind. `emit` runs it over a list of inputs and strings the facts together. A property of
the facts so far and the state that one step keeps holds after any inputs (`emit_invariant`). -/

namespace Troupe.Lib

section Emitter

variable {σ ι ο : Type} {step : σ → ι → List ο × σ}

/-- The facts of a list of inputs, and the state after them. -/
def emit (step : σ → ι → List ο × σ) : σ → List ι → List ο × σ
  | s, [] => ([], s)
  | s, input :: inputs =>
    let (facts, s') := step s input
    let (rest, last) := emit step s' inputs
    (facts ++ rest, last)

theorem emit_append (s : σ) (inputs inputs' : List ι) :
    emit step s (inputs ++ inputs') =
      ((emit step s inputs).1 ++ (emit step (emit step s inputs).2 inputs').1,
        (emit step (emit step s inputs).2 inputs').2) := by
  induction inputs generalizing s with
  | nil => rfl
  | cons input inputs ih =>
    simp only [List.cons_append, emit, ih, List.append_assoc]

theorem emit_singleton (s : σ) (input : ι) : emit step s [input] = step s input := by
  simp [emit]

/-- What every step keeps of the facts so far and the state holds after any inputs. -/
theorem emit_invariant {p : List ο → σ → Prop}
    (hstep : ∀ facts s input, p facts s → p (facts ++ (step s input).1) (step s input).2)
    {facts : List ο} {s : σ} (hs : p facts s) (inputs : List ι) :
    p (facts ++ (emit step s inputs).1) (emit step s inputs).2 := by
  induction inputs generalizing facts s with
  | nil => simpa [emit] using hs
  | cons input inputs ih =>
    have hrest := ih (hstep facts s input hs)
    rwa [List.append_assoc] at hrest

/-- The same, from no facts. -/
theorem emit_reaches {p : List ο → σ → Prop}
    (hstep : ∀ facts s input, p facts s → p (facts ++ (step s input).1) (step s input).2)
    {s : σ} (hs : p [] s) (inputs : List ι) : p (emit step s inputs).1 (emit step s inputs).2 := by
  simpa using emit_invariant hstep hs inputs

end Emitter

end Troupe.Lib
