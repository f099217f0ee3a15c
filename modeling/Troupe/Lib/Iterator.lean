import Mathlib.Data.List.Basic

/-! # Iterators

An iterator is a function from its state to the next item and the state after it, where the call
itself may panic. `Yields` says that an iterator gives some items, one a call, and then ends for
good: the state at the end is one it does not leave. -/

namespace Troupe.Lib

variable {ε σ α : Type} {next : σ → Except ε (Option α × σ)}

/-- The iterator gives these items, then ends and stays at its end. -/
inductive Yields (next : σ → Except ε (Option α × σ)) : σ → List α → Prop
  | done {state : σ} (h : next state = .ok (none, state)) : Yields next state []
  | item {state state' : σ} {item : α} {items : List α} (h : next state = .ok (some item, state'))
      (rest : Yields next state' items) : Yields next state (item :: items)

namespace Yields

/-- States whose next call is the same give the same items, when there is one. -/
theorem congr_next {state state' : σ} {item : α} {items : List α} (h : next state = next state')
    (hyields : Yields next state' (item :: items)) : Yields next state (item :: items) := by
  cases hyields with
  | item hitem rest => exact .item (h.trans hitem) rest

end Yields

end Troupe.Lib
