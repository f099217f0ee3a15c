import Troupe.Lib.Delimited

/-! # Texts that can be read back

`ReadsBack ok text next` says that the texts of the values in `ok`, put before what `next` allows,
tell the values and what follows them. The lemmas build such texts from others: one after another
(**`ReadsBack.seq`**), of a value that may be missing (**`ReadsBack.option`**), and as a list in
brackets (**`ReadsBack.bracketed`**). -/

namespace Troupe.Lib

variable {α β : Type}

/-- The text of a value and what follows it can be told apart. -/
def ReadsBack (ok : α → Prop) (text : α → List Char) (next : List Char → Prop) : Prop :=
  ∀ a b r s, ok a → ok b → next r → next s → text a ++ r = text b ++ s → a = b ∧ r = s

/-- The text begins with a fixed one. -/
def StartsWith (text rest : List Char) : Prop := ∃ more, rest = text ++ more

/-- Anything may follow. -/
def Anything (_rest : List Char) : Prop := True

namespace ReadsBack

variable {ok : α → Prop} {text : α → List Char} {next next' : List Char → Prop}

theorem mono (h : ReadsBack ok text next) (hnext : ∀ r, next' r → next r) :
    ReadsBack ok text next' :=
  fun a b r s ha hb hr hs heq => h a b r s ha hb (hnext r hr) (hnext s hs) heq

theorem restrict (h : ReadsBack ok text next) {ok' : α → Prop} (hok : ∀ a, ok' a → ok a) :
    ReadsBack ok' text next :=
  fun a b r s ha hb => h a b r s (hok a ha) (hok b hb)

/-- Texts of one kind of characters. -/
theorem of_all {p : Char → Bool} (hinj : ∀ a b, ok a → ok b → text a = text b → a = b)
    (hall : ∀ a, ok a → (text a).all p = true) :
    ReadsBack ok text fun r => ∀ c ∈ r.head?, p c = false := by
  intro a b r s ha hb hr hs heq
  obtain ⟨htext, hrest⟩ := list_append_inj_of_all (hall a ha) (hall b hb) hr hs heq
  exact ⟨hinj a b ha hb htext, hrest⟩

/-- A fixed text before. -/
theorem prepend (h : ReadsBack ok text next) (before : List Char) :
    ReadsBack ok (fun a => before ++ text a) next := by
  intro a b r s ha hb hr hs heq
  rw [List.append_assoc, List.append_assoc, List.append_cancel_left_eq] at heq
  exact h a b r s ha hb hr hs heq

/-- A fixed text behind. -/
theorem close {after : List Char} (h : ReadsBack ok text (StartsWith after)) :
    ReadsBack ok (fun a => text a ++ after) Anything := by
  intro a b r s ha hb _ _ heq
  rw [List.append_assoc, List.append_assoc] at heq
  obtain ⟨hab, hrest⟩ := h a b _ _ ha hb ⟨r, rfl⟩ ⟨s, rfl⟩ heq
  exact ⟨hab, List.append_cancel_left hrest⟩

/-- One text after another. -/
theorem seq {ok' : β → Prop} {text' : β → List Char} (h : ReadsBack ok text next)
    (h' : ReadsBack ok' text' next') (hnext : ∀ b r, ok' b → next' r → next (text' b ++ r)) :
    ReadsBack (fun p : α × β => ok p.1 ∧ ok' p.2) (fun p => text p.1 ++ text' p.2) next' := by
  rintro ⟨a, a'⟩ ⟨b, b'⟩ r s ⟨ha, ha'⟩ ⟨hb, hb'⟩ hr hs heq
  rw [List.append_assoc, List.append_assoc] at heq
  obtain ⟨rfl, hrest⟩ := h a b _ _ ha hb (hnext a' r ha' hr) (hnext b' s hb' hs) heq
  obtain ⟨rfl, hend⟩ := h' a' b' r s ha' hb' hr hs hrest
  exact ⟨rfl, hend⟩

end ReadsBack

/-- The text of a value that may be missing. -/
def optionText (text : α → List Char) : Option α → List Char
  | none => []
  | some a => text a

theorem ReadsBack.option {ok : α → Prop} {text : α → List Char} {next : List Char → Prop}
    (h : ReadsBack ok text next) (hne : ∀ a r s, ok a → next s → text a ++ r ≠ s) :
    ReadsBack (fun o : Option α => ∀ a ∈ o, ok a) (optionText text) next := by
  rintro (_ | a) (_ | b) r s ha hb hr hs heq
  · exact ⟨rfl, heq⟩
  · exact absurd heq.symm (hne b s r (hb b rfl) hr)
  · exact absurd heq (hne a r s (ha a rfl) hs)
  · obtain ⟨rfl, hrest⟩ := h a b r s (ha a rfl) (hb b rfl) hr hs heq
    exact ⟨rfl, hrest⟩

/-! ## Lists in brackets -/

/-- The items after the first, and the closing bracket. -/
def bracketedRest (text : α → List Char) : List α → List Char
  | [] => [']']
  | a :: rest => ',' :: (text a ++ bracketedRest text rest)

/-- A list in brackets, its items behind commas. -/
def bracketed (text : α → List Char) : List α → List Char
  | [] => ['[', ']']
  | a :: rest => '[' :: (text a ++ bracketedRest text rest)

/-- What may follow an item. -/
def EndsItem (rest : List Char) : Prop := ∀ c ∈ rest.head?, c = ',' ∨ c = ']'

theorem endsItem_bracketedRest (text : α → List Char) (items : List α) (rest : List Char) :
    EndsItem (bracketedRest text items ++ rest) := by
  cases items <;> simp [EndsItem, bracketedRest]

theorem ReadsBack.bracketed {ok : α → Prop} {text : α → List Char} (h : ReadsBack ok text EndsItem)
    (hne : ∀ a r s, ok a → text a ++ r ≠ ']' :: s) :
    ReadsBack (fun items : List α => ∀ a ∈ items, ok a) (Troupe.Lib.bracketed text) Anything := by
  have hrest : ReadsBack (fun items : List α => ∀ a ∈ items, ok a) (bracketedRest text)
      Anything := by
    intro items
    induction items with
    | nil =>
      rintro (_ | ⟨b, items'⟩) r s - - - - heq
      · exact ⟨rfl, (List.cons.inj heq).2⟩
      · exact absurd (List.cons.inj heq).1 (by decide)
    | cons a items ih =>
      rintro (_ | ⟨b, items'⟩) r s ha hb hr hs heq
      · exact absurd (List.cons.inj heq).1 (by decide)
      · simp only [bracketedRest, List.cons_append, List.append_assoc, List.cons.injEq,
          true_and] at heq
        obtain ⟨ha, hitems⟩ := List.forall_mem_cons.1 ha
        obtain ⟨hb, hitems'⟩ := List.forall_mem_cons.1 hb
        obtain ⟨rfl, htail⟩ := h a b _ _ ha hb (endsItem_bracketedRest text items r)
          (endsItem_bracketedRest text items' s) heq
        obtain ⟨rfl, hend⟩ := ih items' r s hitems hitems' hr hs htail
        exact ⟨rfl, hend⟩
  rintro (_ | ⟨a, items⟩) (_ | ⟨b, items'⟩) r s ha hb hr hs heq
  · exact ⟨rfl, by simpa [Troupe.Lib.bracketed] using heq⟩
  · simp only [Troupe.Lib.bracketed, List.cons_append, List.append_assoc, List.cons.injEq,
      true_and, List.nil_append] at heq
    exact absurd heq.symm (hne b _ _ (hb b List.mem_cons_self))
  · simp only [Troupe.Lib.bracketed, List.cons_append, List.append_assoc, List.cons.injEq,
      true_and, List.nil_append] at heq
    exact absurd heq (hne a _ _ (ha a List.mem_cons_self))
  · simp only [Troupe.Lib.bracketed, List.cons_append, List.append_assoc, List.cons.injEq,
      true_and] at heq
    obtain ⟨ha, hitems⟩ := List.forall_mem_cons.1 ha
    obtain ⟨hb, hitems'⟩ := List.forall_mem_cons.1 hb
    obtain ⟨rfl, htail⟩ := h a b _ _ ha hb (endsItem_bracketedRest text items r)
      (endsItem_bracketedRest text items' s) heq
    obtain ⟨rfl, hend⟩ := hrest items items' r s hitems hitems' hr hs htail
    exact ⟨rfl, hend⟩

end Troupe.Lib
