import Troupe.Lib.Result

/-! # Programs with a state that can fail

`ExceptT ε (StateM σ)` keeps the state a program had when it failed. `Meets x s post fails` says of
one run where it may end: well in `post`, with an error in `fails`. The rules follow the program:
`Meets.bind` goes over a step, `Meets.forM` over a loop. -/

namespace Troupe.Lib

section Effect

variable {ε σ α β : Type} {post : α → σ → Prop} {fails : ε → σ → Prop}

/-- The program run from `s` ends well in `post`, or fails in `fails`. -/
def Meets (x : ExceptT ε (StateM σ) α) (s : σ) (post : α → σ → Prop) (fails : ε → σ → Prop) :
    Prop :=
  match x.run s with
  | (.ok a, s') => post a s'
  | (.error e, s') => fails e s'

/-- A computation without a state as a program. -/
def lift (x : Except ε α) : ExceptT ε (StateM σ) α := ExceptT.mk fun s => (x, s)

theorem Meets.pure {a : α} {s : σ} (h : post a s) :
    Meets (Pure.pure a : ExceptT ε (StateM σ) α) s post fails := h

theorem Meets.throw {e : ε} {s : σ} (h : fails e s) :
    Meets (MonadExcept.throw e : ExceptT ε (StateM σ) α) s post fails := h

theorem run_bind (x : ExceptT ε (StateM σ) α) (f : α → ExceptT ε (StateM σ) β) (s : σ) :
    (x >>= f).run s = match x.run s with
      | (.ok a, s') => (f a).run s'
      | (.error e, s') => (.error e, s') := by
  show (match x.run s with
    | (result, s') => ExceptT.bindCont f result s') = _
  rcases x.run s with ⟨⟨⟩, s'⟩ <;> rfl

theorem lift_ok_bind {a : α} {f : α → ExceptT ε (StateM σ) β} :
    (Lib.lift (.ok a) >>= f : ExceptT ε (StateM σ) β) = f a := rfl

/-- **A step, and the rest from where it ended.** -/
theorem Meets.bind {x : ExceptT ε (StateM σ) α} {f : α → ExceptT ε (StateM σ) β} {s : σ}
    {post' : β → σ → Prop} (h : Meets x s post fails)
    (hf : ∀ a s', post a s' → Meets (f a) s' post' fails) : Meets (x >>= f) s post' fails := by
  unfold Meets at h ⊢
  rw [run_bind]
  rcases hx : x.run s with ⟨⟨⟩, s'⟩
  · rw [hx] at h
    exact h
  · rw [hx] at h
    exact hf _ s' h

theorem Meets.imp {x : ExceptT ε (StateM σ) α} {s : σ} {post' : α → σ → Prop}
    {fails' : ε → σ → Prop} (h : Meets x s post fails) (hpost : ∀ a s', post a s' → post' a s')
    (hfails : ∀ e s', fails e s' → fails' e s') : Meets x s post' fails' := by
  unfold Meets at h ⊢
  rcases hx : x.run s with ⟨⟨⟩, s'⟩
  · rw [hx] at h
    exact hfails _ _ h
  · rw [hx] at h
    exact hpost _ _ h

/-- A loop keeps what each pass through it advances. -/
theorem Meets.forM {γ : Type} {f : γ → ExceptT ε (StateM σ) PUnit} {items : List γ} {s : σ}
    (inv : List γ → σ → Prop) (h : inv [] s)
    (hstep : ∀ seen item rest s, items = seen ++ item :: rest → inv seen s →
      Meets (f item) s (fun _ s' => inv (seen ++ [item]) s') fails) :
    Meets (items.forM f) s (fun _ s' => inv items s') fails := by
  suffices hall : ∀ seen rest s, items = seen ++ rest → inv seen s →
      Meets (rest.forM f) s (fun _ s' => inv items s') fails from hall [] items s rfl h
  intro seen rest
  induction rest generalizing seen with
  | nil =>
    intro s hsplit hseen
    rw [List.append_nil] at hsplit
    exact Meets.pure (hsplit ▸ hseen)
  | cons item rest ih =>
    intro s hsplit hseen
    exact (hstep seen item rest s hsplit hseen).bind fun _ s' hnext =>
      ih (seen ++ [item]) s' (hsplit.trans (List.append_cons _ _ _)) hnext

end Effect

end Troupe.Lib
