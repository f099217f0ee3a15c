import Mathlib.Data.List.Basic

/-! # Recognizers

A recognizer takes its input letter by letter: after each it wants more, is done, or has found that
the input is wrong. `recognize` runs it over an input, which it may leave in the middle;
`recognize_append` says that the cut does not matter. `Recognizes` ties the states to the words that
are still to come, and **`recognize_complete_iff`**, **`recognize_invalid_iff`** say where a run ends. -/

namespace Troupe.Lib

variable {σ α : Type}

/-- What a recognizer makes of one letter. -/
inductive Verdict (σ : Type) where
  | more (next : σ)
  | done
  | reject

/-- What a recognizer makes of an input; `rest` stands behind the word. -/
inductive Recognition (σ α : Type) where
  | incomplete (state : σ)
  | complete (rest : List α)
  | invalid

/-- The run of a recognizer. -/
def recognize (step : σ → α → Verdict σ) (state : σ) : List α → Recognition σ α
  | [] => .incomplete state
  | letter :: rest =>
    match step state letter with
    | .more next => recognize step next rest
    | .done => .complete rest
    | .reject => .invalid

/-- The run goes on with more input. -/
def Recognition.resume (step : σ → α → Verdict σ) (input : List α) :
    Recognition σ α → Recognition σ α
  | .incomplete state => recognize step state input
  | .complete rest => .complete (rest ++ input)
  | .invalid => .invalid

section Run

variable {step : σ → α → Verdict σ} {state next : σ} {input rest : List α} {letter : α}

theorem recognize_cons_of_more (hstep : step state letter = .more next) (rest : List α) :
    recognize step state (letter :: rest) = recognize step next rest := by
  rw [recognize, hstep]

theorem recognize_cons_of_done (hstep : step state letter = .done) (rest : List α) :
    recognize step state (letter :: rest) = .complete rest := by
  rw [recognize, hstep]

theorem recognize_cons_of_reject (hstep : step state letter = .reject) (rest : List α) :
    recognize step state (letter :: rest) = .invalid := by
  rw [recognize, hstep]

theorem recognize_append (left right : List α) :
    recognize step state (left ++ right) = (recognize step state left).resume step right := by
  induction left generalizing state with
  | nil => rfl
  | cons letter left ih =>
    rw [List.cons_append]
    rcases hstep : step state letter with next | _ | _
    · rw [recognize_cons_of_more hstep, recognize_cons_of_more hstep, ih]
    · rw [recognize_cons_of_done hstep, recognize_cons_of_done hstep, Recognition.resume]
    · rw [recognize_cons_of_reject hstep, recognize_cons_of_reject hstep, Recognition.resume]

end Run

/-- What a verdict leaves to come. -/
def Verdict.Leaves (accepts : σ → List α → Prop) (rest : List α) : Verdict σ → Prop
  | .more next => accepts next rest
  | .done => rest = []
  | .reject => False

/-- `accepts state` are the words that a recognizer in `state` is done with at their last letter. -/
structure Recognizes (step : σ → α → Verdict σ) (accepts : σ → List α → Prop) : Prop where
  nil : ∀ state, ¬accepts state []
  cons : ∀ state letter rest,
    accepts state (letter :: rest) ↔ (step state letter).Leaves accepts rest

section Recognizes

variable {step : σ → α → Verdict σ} {accepts : σ → List α → Prop} {state next : σ}
  {input rest : List α} {letter : α}

theorem Recognizes.more (h : Recognizes step accepts) (hstep : step state letter = .more next)
    (rest : List α) : accepts state (letter :: rest) ↔ accepts next rest := by
  rw [h.cons, hstep, Verdict.Leaves]

theorem Recognizes.done (h : Recognizes step accepts) (hstep : step state letter = .done)
    (rest : List α) : accepts state (letter :: rest) ↔ rest = [] := by
  rw [h.cons, hstep, Verdict.Leaves]

theorem Recognizes.reject (h : Recognizes step accepts) (hstep : step state letter = .reject)
    (rest : List α) : ¬accepts state (letter :: rest) := by
  rw [h.cons, hstep, Verdict.Leaves]
  exact id

/-- A run is done exactly when the input starts with a word. -/
theorem recognize_complete_iff (h : Recognizes step accepts) :
    recognize step state input = .complete rest ↔
      ∃ word, accepts state word ∧ input = word ++ rest := by
  induction input generalizing state with
  | nil =>
    refine iff_of_false (fun hrun => by cases hrun) ?_
    rintro ⟨word, hword, happend⟩
    obtain ⟨rfl, _⟩ := List.append_eq_nil_iff.1 happend.symm
    exact h.nil state hword
  | cons letter input ih =>
    have hcons : ∀ {word : List α}, accepts state word → letter :: input = word ++ rest →
        ∃ tail, word = letter :: tail ∧ accepts state (letter :: tail) ∧ input = tail ++ rest := by
      intro word hword happend
      cases word with
      | nil => exact absurd hword (h.nil state)
      | cons first tail =>
        obtain ⟨rfl, hinput⟩ := List.cons.inj happend
        exact ⟨tail, rfl, hword, hinput⟩
    rcases hstep : step state letter with next | _ | _
    · rw [recognize_cons_of_more hstep, ih]
      constructor
      · rintro ⟨word, hword, rfl⟩
        exact ⟨letter :: word, (h.more hstep word).2 hword, rfl⟩
      · rintro ⟨word, hword, happend⟩
        obtain ⟨tail, rfl, haccepts, hinput⟩ := hcons hword happend
        exact ⟨tail, (h.more hstep tail).1 haccepts, hinput⟩
    · rw [recognize_cons_of_done hstep, Recognition.complete.injEq]
      constructor
      · rintro rfl
        exact ⟨[letter], (h.done hstep []).2 rfl, rfl⟩
      · rintro ⟨word, hword, happend⟩
        obtain ⟨tail, rfl, haccepts, hinput⟩ := hcons hword happend
        rw [(h.done hstep tail).1 haccepts] at hinput
        exact hinput
    · rw [recognize_cons_of_reject hstep]
      refine iff_of_false (fun hrun => by cases hrun) ?_
      rintro ⟨word, hword, happend⟩
      obtain ⟨tail, rfl, haccepts, _⟩ := hcons hword happend
      exact h.reject hstep tail haccepts

/-- In the middle of an input the state knows the words that complete it. -/
theorem recognize_incomplete (h : Recognizes step accepts)
    (hrun : recognize step state input = .incomplete next) (word : List α) :
    accepts state (input ++ word) ↔ accepts next word := by
  induction input generalizing state with
  | nil =>
    cases hrun
    rfl
  | cons letter input ih =>
    rcases hstep : step state letter with mid | _ | _
    · rw [recognize_cons_of_more hstep] at hrun
      rw [List.cons_append, h.more hstep, ih hrun]
    · rw [recognize_cons_of_done hstep] at hrun
      cases hrun
    · rw [recognize_cons_of_reject hstep] at hrun
      cases hrun

/-- Where the run stops, no word is left to come. -/
theorem recognize_invalid (h : Recognizes step accepts)
    (hrun : recognize step state input = .invalid) (word : List α) :
    ¬accepts state (input ++ word) := by
  induction input generalizing state with
  | nil => cases hrun
  | cons letter input ih =>
    rcases hstep : step state letter with mid | _ | _
    · rw [recognize_cons_of_more hstep] at hrun
      rw [List.cons_append, h.more hstep]
      exact ih hrun
    · rw [recognize_cons_of_done hstep] at hrun
      cases hrun
    · exact h.reject hstep _

variable {live : σ → Prop}

theorem recognize_live (hkept : ∀ state letter next, live state → step state letter = .more next →
    live next) (hlive : live state) (hrun : recognize step state input = .incomplete next) :
    live next := by
  induction input generalizing state with
  | nil =>
    cases hrun
    exact hlive
  | cons letter input ih =>
    rcases hstep : step state letter with mid | _ | _
    · rw [recognize_cons_of_more hstep] at hrun
      exact ih (hkept state letter mid hlive hstep) hrun
    · rw [recognize_cons_of_done hstep] at hrun
      cases hrun
    · rw [recognize_cons_of_reject hstep] at hrun
      cases hrun

/-- When every live state has a word to come, a run is in the middle exactly when some word goes on
behind the input. -/
theorem recognize_incomplete_iff (h : Recognizes step accepts)
    (hkept : ∀ state letter next, live state → step state letter = .more next → live next)
    (hword : ∀ state, live state → ∃ word, accepts state word) (hlive : live state) :
    (∃ next, recognize step state input = .incomplete next) ↔
      ∃ word ≠ [], accepts state (input ++ word) := by
  constructor
  · rintro ⟨next, hrun⟩
    obtain ⟨word, haccepts⟩ := hword next (recognize_live hkept hlive hrun)
    refine ⟨word, ?_, (recognize_incomplete h hrun word).2 haccepts⟩
    rintro rfl
    exact h.nil next haccepts
  · rintro ⟨word, hne, haccepts⟩
    rcases hrun : recognize step state input with next | rest | _
    · exact ⟨next, rfl⟩
    · have hwhole : recognize step state (input ++ word) = .complete (rest ++ word) := by
        rw [recognize_append, hrun, Recognition.resume]
      have hdone : recognize step state (input ++ word) = .complete [] :=
        (recognize_complete_iff h).2 ⟨_, haccepts, (List.append_nil _).symm⟩
      rw [hwhole] at hdone
      exact absurd (List.append_eq_nil_iff.1 (Recognition.complete.inj hdone)).2 hne
    · exact absurd haccepts (recognize_invalid h hrun word)

end Recognizes

end Troupe.Lib
