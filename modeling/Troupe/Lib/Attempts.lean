import Troupe.Lib.Result

/-! # Operations that change a state in place

`op : σ → α → Except ε Unit × σ` is a method on `&mut self` that returns a `Result`: its answer comes
with the state it leaves behind. `applyAll` runs it over a list and stops at the first error,
`attemptAll` offers every item, whatever became of those before it.

* An operation that leaves the state alone when it fails (`Atomic`) gets, from a list of attempts, to
  where the successful ones alone lead (`applyAll_succeeded`).
* An operation that succeeds exactly when it does on each of several parts of its state does so over
  a list as well (`applyAll_parts`, `applyAll_of_parts`). -/

namespace Troupe.Lib

section Attempts

variable {σ α ε : Type} {op : σ → α → Except ε Unit × σ} {s s' : σ} {items : List α}

/-- The operation over a list, up to the first error. -/
def applyAll (op : σ → α → Except ε Unit × σ) : σ → List α → Except ε Unit × σ
  | s, [] => (.ok (), s)
  | s, item :: rest =>
    match op s item with
    | (.ok (), s') => applyAll op s' rest
    | (.error error, s') => (.error error, s')

/-- The operation on every item of a list in turn: the answers, and the state at the end. -/
def attemptAll (op : σ → α → Except ε Unit × σ) : σ → List α → List (Except ε Unit) × σ
  | s, [] => ([], s)
  | s, item :: rest =>
    let (answer, s') := op s item
    let (answers, last) := attemptAll op s' rest
    (answer :: answers, last)

/-- The items on which `attemptAll` succeeded. -/
def succeeded (op : σ → α → Except ε Unit × σ) : σ → List α → List α
  | _, [] => []
  | s, item :: rest =>
    match op s item with
    | (.ok (), s') => item :: succeeded op s' rest
    | (.error _, s') => succeeded op s' rest

/-- What `applyAll` comes to: the last state, seen through `model`. -/
def outcome {μ : Type} (model : σ → μ) : Except ε Unit × σ → Except ε μ
  | (.ok (), s) => .ok (model s)
  | (.error error, _) => .error error

/-- A failing operation leaves the state alone. -/
def Atomic (op : σ → α → Except ε Unit × σ) : Prop :=
  ∀ s item error, (op s item).1 = .error error → (op s item).2 = s

theorem outcome_eq_ok {μ : Type} {model : σ → μ} {result : Except ε Unit × σ} {m : μ} :
    outcome model result = .ok m ↔ ∃ s, result = (.ok (), s) ∧ model s = m := by
  rcases result with ⟨⟨⟩, s⟩ <;> simp [outcome]

theorem applyAll_cons_eq_ok {item : α} : applyAll op s (item :: items) = (.ok (), s') ↔
    ∃ middle, op s item = (.ok (), middle) ∧ applyAll op middle items = (.ok (), s') := by
  rw [applyAll]
  rcases hop : op s item with ⟨⟨⟩, middle⟩ <;> simp

/-- Every attempt succeeds exactly when none stops the run, and then both end in one state. -/
theorem applyAll_eq_ok_iff_attemptAll : applyAll op s items = (.ok (), s') ↔
    (∀ answer ∈ (attemptAll op s items).1, answer = .ok ()) ∧ (attemptAll op s items).2 = s' := by
  induction items generalizing s with
  | nil => simp [applyAll, attemptAll]
  | cons item rest ih =>
    rw [applyAll_cons_eq_ok]
    rcases hop : op s item with ⟨⟨⟩ | ⟨⟨⟩⟩, middle⟩
    · simp [attemptAll, hop]
    · simp [attemptAll, hop, ih]

/-- **Failed attempts leave no trace.** -/
theorem applyAll_succeeded (hatomic : Atomic op) (s : σ) (items : List α) :
    applyAll op s (succeeded op s items) = (.ok (), (attemptAll op s items).2) := by
  induction items generalizing s with
  | nil => rfl
  | cons item rest ih =>
    rcases hop : op s item with ⟨error | ⟨⟨⟩⟩, middle⟩
    · have hsame := hatomic s item error (by rw [hop])
      rw [hop] at hsame
      subst hsame
      simpa only [succeeded, attemptAll, hop] using ih middle
    · simp only [succeeded, attemptAll, hop]
      exact applyAll_cons_eq_ok.mpr ⟨middle, hop, ih middle⟩

/-- What each attempt keeps, and then answers, every attempt of a list answers. -/
theorem attemptAll_answers (inv : σ → Prop) {good : Except ε Unit → Prop}
    (hstep : ∀ s item, inv s → good (op s item).1 ∧ inv (op s item).2) (hs : inv s) :
    ∀ answer ∈ (attemptAll op s items).1, good answer := by
  induction items generalizing s with
  | nil => exact fun _ h => nomatch h
  | cons item rest ih =>
    obtain ⟨hgood, hinv⟩ := hstep s item hs
    intro answer hanswer
    rcases List.mem_cons.mp hanswer with rfl | hanswer
    · exact hgood
    · exact ih hinv answer hanswer

/-- What each success keeps, a run without errors keeps. -/
theorem applyAll_invariant (inv : List α → σ → Prop)
    (hstep : ∀ seen s item s', inv seen s → op s item = (.ok (), s') → inv (seen ++ [item]) s')
    (seen : List α) (hs : inv seen s) (hrun : applyAll op s items = (.ok (), s')) :
    inv (seen ++ items) s' := by
  induction items generalizing s seen with
  | nil =>
    cases hrun
    rwa [List.append_nil]
  | cons item rest ih =>
    obtain ⟨middle, hop, hrest⟩ := applyAll_cons_eq_ok.mp hrun
    rw [List.append_cons]
    exact ih (seen ++ [item]) (hstep seen s item middle hs hop) hrest

end Attempts

/-! ## Operations on several parts -/

section Parts

variable {ι σ α ε : Type} {τ : ι → Type} {δ : ι → Type} {op : σ → α → Except ε Unit × σ}
  (part : (i : ι) → τ i → α → Except (δ i) Unit × τ i) {view : (i : ι) → σ → τ i}

/-- A run of the whole is a run of every part. -/
theorem applyAll_parts
    (hstep : ∀ s item s', op s item = (.ok (), s') →
      ∀ i, part i (view i s) item = (.ok (), view i s'))
    {s s' : σ} {items : List α} (hrun : applyAll op s items = (.ok (), s')) (i : ι) :
    applyAll (part i) (view i s) items = (.ok (), view i s') := by
  induction items generalizing s with
  | nil =>
    cases hrun
    rfl
  | cons item rest ih =>
    obtain ⟨middle, hop, hrest⟩ := applyAll_cons_eq_ok.mp hrun
    exact applyAll_cons_eq_ok.mpr ⟨view i middle, hstep s item middle hop i, ih hrest⟩

/-- **When no part fails, the whole does not.** -/
theorem applyAll_of_parts
    (hstep : ∀ s item s', op s item = (.ok (), s') →
      ∀ i, part i (view i s) item = (.ok (), view i s'))
    (hback : ∀ s item, (∀ i, ∃ t, part i (view i s) item = (.ok (), t)) →
      ∃ s', op s item = (.ok (), s'))
    {s : σ} {items : List α} (hruns : ∀ i, ∃ t, applyAll (part i) (view i s) items = (.ok (), t)) :
    ∃ s', applyAll op s items = (.ok (), s') := by
  induction items generalizing s with
  | nil => exact ⟨s, rfl⟩
  | cons item rest ih =>
    have hheads : ∀ i, ∃ t, part i (view i s) item = (.ok (), t) := fun i => by
      obtain ⟨_, hrun⟩ := hruns i
      obtain ⟨middle, hpart, -⟩ := applyAll_cons_eq_ok.mp hrun
      exact ⟨middle, hpart⟩
    obtain ⟨middle, hop⟩ := hback s item hheads
    have htails : ∀ i, ∃ t, applyAll (part i) (view i middle) rest = (.ok (), t) := fun i => by
      obtain ⟨last, hrun⟩ := hruns i
      obtain ⟨next, hpart, hrest⟩ := applyAll_cons_eq_ok.mp hrun
      cases (hstep s item middle hop i).symm.trans hpart
      exact ⟨last, hrest⟩
    obtain ⟨s', hrest⟩ := ih htails
    exact ⟨s', applyAll_cons_eq_ok.mpr ⟨middle, hop, hrest⟩⟩

end Parts

end Troupe.Lib
