import Std.Do.WP.SimpLemmas
import Mathlib.Logic.Basic

/-! # Results of fallible functions

`Except` is Rust's `Result`, with `?` as `bind`. `Fault` separates an error value a function returns
from a panic (`expect`, a failed `assert`): a panic is never an answer, so results about panics say
that they are not reached. The lemmas peel one `?` at a time off a run that ended in `ok`. -/

namespace Troupe.Lib

/-- How a fallible Rust function can fail to return: with an error value, or by panicking. -/
inductive Fault (ε : Type) where
  | raised (error : ε)
  | panicked (message : String)
deriving DecidableEq

/-- An error value converted; a panic stays one. -/
def Fault.map {ε ε' : Type} (f : ε → ε') : Fault ε → Fault ε'
  | raised error => raised (f error)
  | panicked message => panicked message

section Except

variable {ε α β : Type} {x : Except ε α}

theorem bind_eq_ok {f : α → Except ε β} {b : β} :
    x >>= f = .ok b ↔ ∃ a, x = .ok a ∧ f a = .ok b := by
  cases x with
  | error e => simp [bind, Except.bind]
  | ok a => simp [bind, Except.bind]

theorem ok_bind {a : α} {f : α → Except ε β} : (.ok a >>= f) = f a := rfl

theorem map_eq_ok {f : α → β} {b : β} :
    f <$> x = .ok b ↔ ∃ a, x = .ok a ∧ f a = b := by
  cases x with
  | error e => simp [Functor.map, Except.map]
  | ok a => simp [Functor.map, Except.map]

/-- When the rest of a computation cannot fail, a failure is the first part's. -/
theorem bind_total_eq_error {f : α → Except ε β} {e : ε}
    (htotal : ∀ a, ∃ b, f a = .ok b) (h : x >>= f = .error e) : x = .error e := by
  cases x with
  | error e' =>
    simp only [bind, Except.bind, Except.error.injEq] at h
    rw [h]
  | ok a =>
    obtain ⟨b, hb⟩ := htotal a
    simp only [bind, Except.bind, hb] at h
    cases h

theorem mapError_eq_ok {ε' : Type} {f : ε → ε'} {a : α} :
    x.mapError f = .ok a ↔ x = .ok a := by
  cases x <;> simp [Except.mapError]

theorem mapError_eq_error {ε' : Type} {f : ε → ε'} {e' : ε'} :
    x.mapError f = .error e' ↔ ∃ e, x = .error e ∧ f e = e' := by
  cases x <;> simp [Except.mapError]

theorem toOption_eq_some {a : α} :
    x.toOption = some a ↔ x = .ok a := by
  cases x <;> simp [Except.toOption]

/-- A check that passed, with its errors converted, is out of the way. -/
theorem mapError_bind_of_ok {ε' : Type} {f : ε → ε'} {g : α → Except ε' β} {a : α}
    (h : x = .ok a) : (x.mapError f >>= g) = g a := by
  rw [h]
  rfl

/-- A loop that only checks succeeds when every item passes. -/
theorem forM_eq_ok {f : α → Except ε Unit} {items : List α} :
    items.forM f = .ok () ↔ ∀ item ∈ items, f item = .ok () := by
  induction items with
  | nil => simp [pure, Except.pure]
  | cons item items ih =>
    rw [show (item :: items).forM f = (f item >>= fun _ => items.forM f) from rfl, bind_eq_ok, ih,
      List.forall_mem_cons]
    constructor
    · rintro ⟨⟨⟩, hitem, hitems⟩
      exact ⟨hitem, hitems⟩
    · rintro ⟨hitem, hitems⟩
      exact ⟨(), hitem, hitems⟩

/-- A loop that checks each item against those seen before it. -/
def forMSeen (f : List α → α → Except ε Unit) : List α → List α → Except ε Unit
  | _, [] => .ok ()
  | seen, item :: rest => do
    f seen item
    forMSeen f (seen ++ [item]) rest

theorem forMSeen_eq_ok {f : List α → α → Except ε Unit} {items : List α} (seen : List α)
    (h : ∀ before item after, items = before ++ item :: after → f (seen ++ before) item = .ok ()) :
    forMSeen f seen items = .ok () := by
  induction items generalizing seen with
  | nil => rfl
  | cons item rest ih =>
    have hitem := h [] item rest rfl
    rw [List.append_nil] at hitem
    unfold forMSeen
    rw [hitem]
    refine ih (seen ++ [item]) fun before next after hrest => ?_
    rw [List.append_assoc]
    exact h (item :: before) next after (by rw [hrest]; rfl)

/-- A guard `if c then error else ok`. -/
theorem ite_error_eq_ok {c : Prop} [Decidable c] {e : ε} {a : α} :
    (if c then .error e else x) = .ok a ↔ ¬c ∧ x = .ok a := by
  by_cases h : c <;> simp [h]

/-- A guard that throws before the rest of a computation. -/
theorem ite_throw_eq_ok {c : Prop} [Decidable c] {e : ε} {f : β → Except ε α}
    {a : α} : (if c then throw e >>= f else x) = .ok a ↔ ¬c ∧ x = .ok a :=
  ite_error_eq_ok

/-- A fold over a concatenation runs the first part, then the second from where it ended. -/
theorem foldlM_append_eq_ok {f : β → α → Except ε β} {xs ys : List α} {b c : β} :
    (xs ++ ys).foldlM f b = .ok c ↔ ∃ m, xs.foldlM f b = .ok m ∧ ys.foldlM f m = .ok c := by
  rw [List.foldlM_append, bind_eq_ok]

/-- A fold over one item more is one step more. -/
theorem foldlM_concat_of_ok {f : β → α → Except ε β} {xs : List α} {x : α} {b m : β}
    (h : xs.foldlM f b = .ok m) : (xs ++ [x]).foldlM f b = f m x := by
  rw [List.foldlM_append, h, ok_bind, List.foldlM_cons]
  cases f m x <;> rfl

theorem foldlM_concat_eq_ok {f : β → α → Except ε β} {xs : List α} {x : α} {b c : β} :
    (xs ++ [x]).foldlM f b = .ok c ↔ ∃ m, xs.foldlM f b = .ok m ∧ f m x = .ok c := by
  constructor
  · intro h
    obtain ⟨m, hm, -⟩ := foldlM_append_eq_ok.mp h
    rw [foldlM_concat_of_ok hm] at h
    exact ⟨m, hm, h⟩
  · rintro ⟨m, hm, h⟩
    rw [foldlM_concat_of_ok hm, h]

/-- The computation ends well with `post`, or with an error that is allowed. -/
def Settles (allowed : ε → Prop) (post : α → Prop) : Except ε α → Prop
  | .ok a => post a
  | .error e => allowed e

variable {allowed : ε → Prop} {post : α → Prop} {x : Except ε α}

theorem Settles.imp {post' : α → Prop} (h : Settles allowed post x) (himp : ∀ a, post a → post' a) :
    Settles allowed post' x := by
  cases x with
  | error e => exact h
  | ok a => exact himp a h

theorem Settles.bind {f : α → Except ε β} {post' : β → Prop} (h : Settles allowed post x)
    (hf : ∀ a, post a → Settles allowed post' (f a)) : Settles allowed post' (x >>= f) := by
  cases x with
  | error e => exact h
  | ok a => exact hf a h

theorem Settles.mapError {ε' : Type} (h : Settles allowed post x) (f : ε → ε') :
    Settles (fun fault => ∃ e, fault = f e ∧ allowed e) post (x.mapError f) := by
  cases x with
  | error e => exact ⟨e, rfl, h⟩
  | ok a => exact h

end Except

end Troupe.Lib
