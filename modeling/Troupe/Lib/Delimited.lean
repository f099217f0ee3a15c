import Mathlib.Data.List.Basic

/-! # Texts with a recognizable end

A text put before another can be read back when its end shows: the text is all of one kind of
characters and the next one is not of that kind (**`append_inj_of_all`**), or its size is known
(**`append_inj_of_size`**). -/

namespace Troupe.Lib

section Delimited

variable {a b x y : String} {p : Char → Bool}

/-- The text does not begin with a character of the kind. -/
def BeginsOutside (p : Char → Bool) (text : String) : Prop :=
  ∀ c ∈ text.toList.head?, p c = false

theorem beginsOutside_empty : BeginsOutside p "" := by
  intro c hc
  cases hc

/-- A text begins as its first part does. -/
theorem beginsOutside_append {c : Char} {rest : List Char} (hp : p c = false)
    (ha : a.toList = c :: rest) : BeginsOutside p (a ++ x) := by
  intro d hd
  rw [String.toList_append, ha] at hd
  cases hd
  exact hp

theorem takeWhile_append_of_all {l m : List Char} (hl : l.all p = true)
    (hm : ∀ c ∈ m.head?, p c = false) : (l ++ m).takeWhile p = l := by
  rw [List.takeWhile_append_of_pos (List.all_eq_true.mp hl)]
  cases m with
  | nil => simp
  | cons c rest => rw [List.takeWhile_cons_of_neg (by simp [hm c rfl]), List.append_nil]

theorem list_append_inj_of_all {l l' m m' : List Char} (hl : l.all p = true) (hl' : l'.all p = true)
    (hm : ∀ c ∈ m.head?, p c = false) (hm' : ∀ c ∈ m'.head?, p c = false)
    (h : l ++ m = l' ++ m') : l = l' ∧ m = m' := by
  have hfirst : l = l' := by
    rw [← takeWhile_append_of_all hl hm, h, takeWhile_append_of_all hl' hm']
  rw [hfirst, List.append_cancel_left_eq] at h
  exact ⟨hfirst, h⟩

/-- **Texts of one kind of characters, before others.** -/
theorem append_inj_of_all (ha : a.toList.all p = true) (hb : b.toList.all p = true)
    (hx : BeginsOutside p x) (hy : BeginsOutside p y) (h : a ++ x = b ++ y) : a = b ∧ x = y := by
  have hlist := congrArg String.toList h
  rw [String.toList_append, String.toList_append] at hlist
  obtain ⟨hfirst, hrest⟩ := list_append_inj_of_all ha hb hx hy hlist
  exact ⟨String.toList_inj.mp hfirst, String.toList_inj.mp hrest⟩

/-- **Texts of one size, before others.** -/
theorem append_inj_of_size (hsize : a.utf8ByteSize = b.utf8ByteSize) (h : a ++ x = b ++ y) :
    a = b ∧ x = y := by
  have hlist := congrArg String.toList h
  rw [String.toList_append, String.toList_append] at hlist
  -- the longer of the two has nothing more
  have hmore (c d : String) (l : List Char) (hl : d.toList = c.toList ++ l)
      (hcd : c.utf8ByteSize = d.utf8ByteSize) : l = [] := by
    have htext : d = c ++ String.ofList l := by
      rw [← String.toList_inj, hl, String.toList_append, String.toList_ofList]
    rw [htext, String.utf8ByteSize_append] at hcd
    have hzero : (String.ofList l).utf8ByteSize = 0 := by omega
    rw [String.utf8ByteSize_eq_zero_iff] at hzero
    rw [← String.toList_ofList (l := l), hzero]
    rfl
  have hfirst : a.toList = b.toList := by
    rcases List.append_eq_append_iff.mp hlist with ⟨l, hl, -⟩ | ⟨l, hl, -⟩
    · rw [hl, hmore a b l hl hsize, List.append_nil]
    · rw [hl, hmore b a l hl hsize.symm, List.append_nil]
  rw [hfirst, List.append_cancel_left_eq] at hlist
  exact ⟨String.toList_inj.mp hfirst, String.toList_inj.mp hlist⟩

/-- What follows a common text. -/
theorem append_left_inj_text (h : a ++ x = a ++ y) : x = y :=
  (append_inj_of_size rfl h).2

end Delimited

section Rendered

variable {α : Type} {f : α → String}

/-- The text of a value shows where it ends, whatever follows. -/
def SelfDelimiting (f : α → String) : Prop := ∀ a b x y, f a ++ x = f b ++ y → a = b ∧ x = y

/-- **A list of such texts is read back**, whatever separates them. -/
theorem SelfDelimiting.intercalate_injective (h : SelfDelimiting f) (hne : ∀ a, f a ≠ "")
    (separator : String) :
    Function.Injective fun items : List α => separator.intercalate (items.map f) := by
  intro items items' heq
  have hcons (a : α) (rest : List α) : ∃ x, separator.intercalate ((a :: rest).map f) = f a ++ x := by
    cases rest with
    | nil => exact ⟨"", by simp⟩
    | cons b rest =>
      refine ⟨separator ++ separator.intercalate ((b :: rest).map f), ?_⟩
      simp only [List.map_cons, String.intercalate_cons_cons, String.append_assoc]
  have hnil (a : α) (rest : List α) : separator.intercalate ((a :: rest).map f) ≠ "" := by
    intro hempty
    obtain ⟨x, hx⟩ := hcons a rest
    rw [hx, String.append_eq_empty_iff] at hempty
    exact hne a hempty.1
  have hshort (a b : α) (rest : List α) :
      separator.intercalate ([a].map f) ≠ separator.intercalate ((a :: b :: rest).map f) := by
    intro hsame
    have hrest : f a ++ "" = f a ++ (separator ++ separator.intercalate ((b :: rest).map f)) := by
      simpa [String.append_assoc] using hsame
    exact hnil b rest (String.append_eq_empty_iff.mp (append_left_inj_text hrest).symm).2
  induction items generalizing items' with
  | nil =>
    cases items' with
    | nil => rfl
    | cons a rest => exact absurd heq.symm (hnil a rest)
  | cons a rest ih =>
    cases items' with
    | nil => exact absurd heq (hnil a rest)
    | cons b rest' =>
      obtain ⟨x, hx⟩ := hcons a rest
      obtain ⟨y, hy⟩ := hcons b rest'
      have heads := hx.symm.trans (heq.trans hy)
      obtain ⟨rfl, -⟩ := h a b x y heads
      congr 1
      cases rest with
      | nil =>
        cases rest' with
        | nil => rfl
        | cons c rest' => exact absurd heq (hshort a c rest')
      | cons c rest =>
        cases rest' with
        | nil => exact absurd heq.symm (hshort a c rest)
        | cons d rest' =>
          refine ih ?_
          simp only [List.map_cons, String.intercalate_cons_cons, String.append_assoc] at heq
          exact append_left_inj_text (append_left_inj_text heq)

end Rendered

end Troupe.Lib
