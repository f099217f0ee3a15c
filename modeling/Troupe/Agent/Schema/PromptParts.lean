import Troupe.Agent.Schema.Prompt

/-! # The parts of a prompt

The numbers, ranges and choices of a scalar read back (`ReadsBack`).

* How a float is written is a parameter; `FloatText.Lawful` says what is relied on, for finite
  floats: different floats have different texts, `Display` writes digits with at most one point, and
  `serde_json` writes a JSON number.

Results: **`integerRange_readsBack`**, **`floatRange_readsBack`**, and `quotes_readBack`,
`integers_readBack`, `booleans_readBack`, `floats_readBack` for the choices. -/

namespace Troupe.Agent

open Troupe.Lib Json

/-! ## Numbers -/

theorem toDigits_injective : Function.Injective (Nat.toDigits 10) := by
  intro a b hsame
  have hread := Nat.ofDigitChars_ten_toDigits (n := a)
  rw [hsame, Nat.ofDigitChars_ten_toDigits] at hread
  exact hread.symm

theorem toDigits_all {value : Nat} : (Nat.toDigits 10 value).all Char.isDigit = true :=
  List.all_eq_true.2 fun _ => toDigits_isDigit _

/-- A number before what is no digit. -/
theorem naturals_readBack : ReadsBack (fun _ => True) (Nat.toDigits 10)
    fun r => ∀ c ∈ r.head?, c.isDigit = false :=
  .of_all (fun _ _ _ _ => fun h => toDigits_injective h) fun _ _ => toDigits_all

/-- A digit or a minus. -/
def isIntegerChar (c : Char) : Bool := c.isDigit || c == '-'

theorem isIntegerChar_of_isDigit {c : Char} (h : c.isDigit = true) : isIntegerChar c = true := by
  rw [isIntegerChar, h, Bool.true_or]

theorem integerText_all (value : Int) : (integerText value).all isIntegerChar = true := by
  have hdigits : ∀ number, (Nat.toDigits 10 number).all isIntegerChar = true := fun number =>
    List.all_eq_true.2 fun c hmem => isIntegerChar_of_isDigit (toDigits_isDigit c hmem)
  cases value with
  | ofNat value => exact hdigits value
  | negSucc value =>
    rw [integerText, List.all_cons, hdigits]
    rfl

theorem integerText_injective : Function.Injective integerText := by
  have hminus : ∀ (number : Nat) (rest : List Char), Nat.toDigits 10 number ≠ '-' :: rest := by
    intro number rest heq
    have hmem : '-' ∈ Nat.toDigits 10 number := heq ▸ List.mem_cons_self
    exact absurd (toDigits_isDigit _ hmem) (by decide)
  intro a b hsame
  cases a with
  | ofNat a =>
    cases b with
    | ofNat b => rw [toDigits_injective hsame]
    | negSucc b => exact absurd hsame (hminus a _)
  | negSucc a =>
    cases b with
    | ofNat b => exact absurd hsame.symm (hminus b _)
    | negSucc b => rw [Nat.succ.inj (toDigits_injective (List.cons.inj hsame).2)]

/-- What is documented of the texts of finite floats. -/
structure FloatText.Lawful (floats : FloatText) : Prop where
  display_injective : ∀ a b : Float64, a.isFinite = true → b.isFinite = true →
    floats.display a = floats.display b → a = b
  display_form : ∀ a : Float64, a.isFinite = true → ∃ whole fraction,
    (floats.display a).toList = whole ++ fraction ∧ whole.all isIntegerChar = true ∧
      (fraction = [] ∨ ∃ digits, fraction = '.' :: digits ∧ digits ≠ [] ∧
        digits.all Char.isDigit = true)
  json_injective : ∀ a b : Float64, a.isFinite = true → b.isFinite = true →
    floats.json a = floats.json b → a = b
  json_form : ∀ a : Float64, a.isFinite = true →
    ∃ number : JsonNumber, (floats.json a).toList = number.text

/-- Before two points a text with at most one point inside of it reads back. -/
theorem points_cancel {x x' m m' r s : List Char} (hx : x.all (· ≠ '.') = true)
    (hx' : x'.all (· ≠ '.') = true)
    (hm : m = [] ∨ ∃ digits, m = '.' :: digits ∧ digits ≠ [] ∧ digits.all (· ≠ '.') = true)
    (hm' : m' = [] ∨ ∃ digits, m' = '.' :: digits ∧ digits ≠ [] ∧ digits.all (· ≠ '.') = true)
    (heq : x ++ m ++ ("..".toList ++ r) = x' ++ m' ++ ("..".toList ++ s)) :
    x ++ m = x' ++ m' ∧ r = s := by
  have hhead : ∀ {m r : List Char}, (m = [] ∨ ∃ digits, m = '.' :: digits ∧ digits ≠ [] ∧
      digits.all (· ≠ '.') = true) →
      ∀ c ∈ (m ++ ("..".toList ++ r)).head?, decide (c ≠ '.') = false := by
    rintro m r (rfl | ⟨digits, rfl, -⟩) c hc <;> simp at hc <;> simp [← hc]
  rw [List.append_assoc, List.append_assoc] at heq
  obtain ⟨rfl, htail⟩ := list_append_inj_of_all hx hx' (hhead hm) (hhead hm') heq
  have hmixed : ∀ {digits r s : List Char}, digits ≠ [] → digits.all (· ≠ '.') = true →
      '.' :: r ≠ digits ++ ('.' :: s) := by
    rintro (_ | ⟨first, digits⟩) r s hne hall hsame
    · exact hne rfl
    · obtain ⟨rfl, -⟩ := List.cons.inj hsame
      simp at hall
  rcases hm with rfl | ⟨digits, rfl, hne, hall⟩ <;>
    rcases hm' with rfl | ⟨digits', rfl, hne', hall'⟩
  · exact ⟨rfl, by simpa using htail⟩
  · exact absurd (by simpa using htail) (hmixed hne' hall')
  · exact absurd (by simpa using htail.symm) (hmixed hne hall)
  · have hpoint : ∀ {r : List Char}, ∀ c ∈ ("..".toList ++ r).head?, decide (c ≠ '.') = false := by
      intro r c hc
      simp at hc
      simp [← hc]
    obtain ⟨rfl, hrest⟩ := list_append_inj_of_all hall hall' hpoint hpoint (List.cons.inj htail).2
    exact ⟨rfl, by simpa using hrest⟩

/-! ## Ranges and choices -/

section Range

variable {α : Type} {ok : α → Prop} {text : α → List Char} {limit least greatest : String}

/-- A bound whose texts are all of one kind of characters. -/
theorem boundText_readsBack {p : Char → Bool}
    (hinj : ∀ a b, ok a → ok b → text a = text b → a = b) (hall : ∀ a, ok a → (text a).all p = true)
    (hlimit : limit.toList.all p = true) (hne : ∀ a, ok a → text a ≠ limit.toList) :
    ReadsBack (fun o => ∀ a ∈ o, ok a) (boundText text limit)
      fun r => ∀ c ∈ r.head?, p c = false := by
  refine .of_all ?_ ?_
  · rintro (_ | a) (_ | b) ha hb hsame
    · rfl
    · exact absurd hsame.symm (hne b (hb b rfl))
    · exact absurd hsame (hne a (ha a rfl))
    · rw [hinj a b (ha a rfl) (hb b rfl) hsame]
  · rintro (_ | a) ha
    · exact hlimit
    · exact hall a (ha a rfl)

/-- What follows a range: choices, or the end. -/
def AfterRange (rest : List Char) : Prop :=
  StartsWith "; one of ".toList rest ∨ StartsWith ">".toList rest

/-- A range, when both its bounds read back. -/
theorem rangeText_readsBack
    (hleast : ReadsBack (fun o => ∀ a ∈ o, ok a) (boundText text least) (StartsWith "..".toList))
    (hgreatest : ReadsBack (fun o => ∀ a ∈ o, ok a) (boundText text greatest) AfterRange) :
    ReadsBack (fun range : Option α × Option α => (∀ a ∈ range.1, ok a) ∧ ∀ a ∈ range.2, ok a)
      (rangeText text least greatest) AfterRange := by
  have hrange := (hleast.close.seq hgreatest fun _ _ _ _ => trivial).prepend
    "; inclusive range ".toList
  have hnone : ∀ range : Option α × Option α, ¬(range.1.isSome ∨ range.2.isSome) →
      range = (none, none) := by
    rintro ⟨_ | _, _ | _⟩ h <;> simp at h ⊢
  intro a b r s ha hb hr hs heq
  have hne : ∀ {rest more}, AfterRange rest → "; inclusive range ".toList ++ more ≠ rest := by
    rintro rest more (⟨tail, rfl⟩ | ⟨tail, rfl⟩) hsame <;> simp at hsame
  unfold rangeText at heq
  by_cases hsomea : a.1.isSome ∨ a.2.isSome <;> by_cases hsomeb : b.1.isSome ∨ b.2.isSome
  · rw [if_pos hsomea, if_pos hsomeb] at heq
    exact hrange a b r s ha hb hr hs (by simpa using heq)
  · rw [if_pos hsomea, if_neg hsomeb] at heq
    exact absurd (by simpa using heq) (hne hs)
  · rw [if_neg hsomea, if_pos hsomeb] at heq
    exact absurd (by simpa using heq.symm) (hne hr)
  · rw [if_neg hsomea, if_neg hsomeb] at heq
    exact ⟨(hnone a hsomea).trans (hnone b hsomeb).symm, heq⟩

/-- Choices, when each reads back. -/
theorem choicesText_readsBack (h : ReadsBack ok text EndsItem)
    (hne : ∀ a r s, ok a → text a ++ r ≠ ']' :: s) :
    ReadsBack (fun o : Option (List α) => ∀ choices ∈ o, ∀ a ∈ choices, ok a) (choicesText text)
      (StartsWith ">".toList) := by
  have hlist : ReadsBack (fun items : List α => ∀ a ∈ items, ok a)
      (fun items => "; one of ".toList ++ bracketed text items) (StartsWith ">".toList) :=
    ((h.bracketed hne).prepend "; one of ".toList).mono fun _ _ => trivial
  refine hlist.option fun a r s _ hs heq => ?_
  obtain ⟨tail, rfl⟩ := hs
  simp at heq

/-- A smallest length, before what does not begin like it. -/
theorem minimumText_readsBack (label : String) {next : List Char → Prop}
    (hdigit : ∀ r, next r → ∀ c ∈ r.head?, c.isDigit = false)
    (hne : ∀ r s, next s → label.toList ++ r ≠ s) :
    ReadsBack (fun _ => True) (minimumText label) next := by
  have hsome := (naturals_readBack.mono hdigit).prepend label.toList
  refine (hsome.option fun a r s _ hs => ?_).restrict fun _ _ _ _ => trivial
  rw [List.append_assoc]
  exact hne _ s hs

theorem ne_bracket_of_all {p : Char → Bool} (hp : p ']' = false) {word : List Char}
    (hall : word.all p = true) (hne : word ≠ []) (r s : List Char) : word ++ r ≠ ']' :: s := by
  intro heq
  cases word with
  | nil => exact hne rfl
  | cons first rest =>
    obtain ⟨rfl, -⟩ := List.cons.inj heq
    rw [List.all_cons, hp, Bool.false_and] at hall
    cases hall

end Range

theorem integerChar_ne {c d : Char} (h : isIntegerChar c = true) (hd : isIntegerChar d = false) :
    c ≠ d := by
  rintro rfl
  rw [h] at hd
  cases hd

theorem all_ne_of_integer {word : List Char} {d : Char} (h : word.all isIntegerChar = true)
    (hd : isIntegerChar d = false) : d ∉ word :=
  fun hmem => integerChar_ne (List.all_eq_true.1 h d hmem) hd rfl

theorem afterRange_head {rest : List Char} (h : AfterRange rest) :
    ∀ c ∈ rest.head?, decide (c ≠ ';' ∧ c ≠ '>') = false := by
  rcases h with ⟨tail, rfl⟩ | ⟨tail, rfl⟩ <;> intro c hc <;> simp at hc <;> simp [← hc]

theorem points_head {rest : List Char} (h : StartsWith "..".toList rest) :
    ∀ c ∈ rest.head?, decide (c ≠ '.') = false := by
  obtain ⟨tail, rfl⟩ := h
  intro c hc
  simp at hc
  simp [← hc]

theorem integerRange_readsBack :
    ReadsBack (fun _ => True) (rangeText integerText "int64-min" "int64-max") AfterRange := by
  have hname : ∀ (a : Int) (name : String), 'i' ∈ name.toList → integerText a ≠ name.toList :=
    fun a name hmem hsame => all_ne_of_integer (integerText_all a) (by decide) (hsame ▸ hmem)
  have hall : ∀ (a : Int) (d : Char), isIntegerChar d = false → ∀ c ∈ integerText a, c ≠ d :=
    fun a d hd c hmem hsame => all_ne_of_integer (integerText_all a) hd (hsame ▸ hmem)
  have hleast : ReadsBack (fun o : Option Int => ∀ a ∈ o, True) (boundText integerText "int64-min")
      (StartsWith "..".toList) :=
    (boundText_readsBack (fun _ _ _ _ h => integerText_injective h)
      (fun a _ => List.all_eq_true.2 fun c hmem => decide_eq_true (hall a '.' (by decide) c hmem))
      (by decide) fun a _ => hname a _ (by decide)).mono fun _ => points_head
  have hgreatest : ReadsBack (fun o : Option Int => ∀ a ∈ o, True)
      (boundText integerText "int64-max") AfterRange :=
    (boundText_readsBack (fun _ _ _ _ h => integerText_injective h)
      (fun a _ => List.all_eq_true.2 fun c hmem => decide_eq_true
        ⟨hall a ';' (by decide) c hmem, hall a '>' (by decide) c hmem⟩)
      (by decide) fun a _ => hname a _ (by decide)).mono fun _ => afterRange_head
  exact (rangeText_readsBack hleast hgreatest).restrict fun _ _ =>
    ⟨fun _ _ => trivial, fun _ _ => trivial⟩

theorem endsItem_head {p : Char → Bool} (hcomma : p ',' = false) (hbracket : p ']' = false)
    {rest : List Char} (h : EndsItem rest) : ∀ c ∈ rest.head?, p c = false := by
  intro c hc
  rcases h c hc with rfl | rfl
  · exact hcomma
  · exact hbracket

theorem quotes_readBack :
    ReadsBack (fun _ => True) (choicesText quote) (StartsWith ">".toList) := by
  have hquote : ReadsBack (fun _ => True) quote EndsItem := fun _ _ _ _ _ _ _ _ heq =>
    quote_append_cancel heq
  refine (choicesText_readsBack hquote fun a r s _ heq => ?_).restrict fun _ _ _ _ _ _ => trivial
  exact absurd (List.cons.inj heq).1 (by decide)

theorem integers_readBack :
    ReadsBack (fun _ => True) (choicesText integerText) (StartsWith ">".toList) := by
  have hinteger : ReadsBack (fun _ => True) integerText EndsItem :=
    (ReadsBack.of_all (fun _ _ _ _ h => integerText_injective h) fun a _ => integerText_all a).mono
      fun _ => endsItem_head (by decide) (by decide)
  refine (choicesText_readsBack hinteger fun a r s _ => ?_).restrict fun _ _ _ _ _ _ => trivial
  refine ne_bracket_of_all (by decide) (integerText_all a) ?_ r s
  cases a with
  | ofNat value => exact Nat.toDigits_ne_nil
  | negSucc value => exact List.cons_ne_nil _ _

theorem booleans_readBack :
    ReadsBack (fun _ => True) (choicesText boolText) (StartsWith ">".toList) := by
  have hboolean : ReadsBack (fun _ => True) boolText EndsItem := by
    rintro (_ | _) (_ | _) r s - - - - heq <;> simp [boolText] at heq ⊢
    · exact heq
    · exact heq
  refine (choicesText_readsBack hboolean fun a r s _ heq => ?_).restrict fun _ _ _ _ _ _ => trivial
  cases a <;> simp [boolText] at heq

section Floats

variable {floats : FloatText}

/-- A text with at most one point, which has something behind it. -/
def OnePoint (word : List Char) : Prop :=
  ∃ whole fraction, word = whole ++ fraction ∧ whole.all (· ≠ '.') = true ∧
    (fraction = [] ∨
      ∃ digits, fraction = '.' :: digits ∧ digits ≠ [] ∧ digits.all (· ≠ '.') = true)

theorem onePoint_cancel {a b r s : List Char} (ha : OnePoint a) (hb : OnePoint b)
    (heq : a ++ ("..".toList ++ r) = b ++ ("..".toList ++ s)) : a = b ∧ r = s := by
  obtain ⟨x, m, rfl, hx, hm⟩ := ha
  obtain ⟨x', m', rfl, hx', hm'⟩ := hb
  exact points_cancel hx hx' hm hm' heq

theorem all_ne_point {word : List Char} (h : word.all isIntegerChar = true) :
    word.all (· ≠ '.') = true :=
  List.all_eq_true.2 fun _ hmem =>
    decide_eq_true (integerChar_ne (List.all_eq_true.1 h _ hmem) (by decide))

/-- The characters of a float in `Display`. -/
def isFloatChar (c : Char) : Bool := isIntegerChar c || c == '.'

theorem FloatText.Lawful.display_onePoint (hlawful : floats.Lawful) {a : Float64}
    (ha : a.isFinite = true) : OnePoint (floats.display a).toList := by
  obtain ⟨whole, fraction, htext, hwhole, hfraction⟩ := hlawful.display_form a ha
  refine ⟨whole, fraction, htext, all_ne_point hwhole, hfraction.imp_right ?_⟩
  rintro ⟨digits, rfl, hne, hdigits⟩
  refine ⟨digits, rfl, hne, all_ne_point (List.all_eq_true.2 fun c hmem => ?_)⟩
  exact isIntegerChar_of_isDigit (List.all_eq_true.1 hdigits c hmem)

theorem FloatText.Lawful.display_all (hlawful : floats.Lawful) {a : Float64}
    (ha : a.isFinite = true) : (floats.display a).toList.all isFloatChar = true := by
  have hinteger : ∀ {word : List Char}, word.all isIntegerChar = true →
      word.all isFloatChar = true := fun h =>
    List.all_eq_true.2 fun c hmem => by
      rw [isFloatChar, List.all_eq_true.1 h c hmem, Bool.true_or]
  obtain ⟨whole, fraction, htext, hwhole, hfraction⟩ := hlawful.display_form a ha
  rw [htext, List.all_append, hinteger hwhole, Bool.true_and]
  rcases hfraction with rfl | ⟨digits, rfl, -, hdigits⟩
  · rfl
  · rw [List.all_cons, hinteger (List.all_eq_true.2 fun c hmem =>
      isIntegerChar_of_isDigit (List.all_eq_true.1 hdigits c hmem))]
    rfl

theorem floatRange_readsBack (hlawful : floats.Lawful) :
    ReadsBack (fun range : Option Float64 × Option Float64 =>
        (∀ a ∈ range.1, a.isFinite = true) ∧ ∀ a ∈ range.2, a.isFinite = true)
      (rangeText (fun value => (floats.display value).toList) "float64-min" "float64-max")
      AfterRange := by
  have hchars : ∀ a : Float64, a.isFinite = true → ∀ d, isFloatChar d = false →
      d ∉ (floats.display a).toList := fun a ha d hd hmem => by
    rw [List.all_eq_true.1 (hlawful.display_all ha) d hmem] at hd
    cases hd
  have hname : ∀ a : Float64, a.isFinite = true → ∀ name : String, 'f' ∈ name.toList →
      (floats.display a).toList ≠ name.toList :=
    fun a ha name hmem hsame => hchars a ha 'f' (by decide) (hsame ▸ hmem)
  have hinj : ∀ a b : Float64, a.isFinite = true → b.isFinite = true →
      (floats.display a).toList = (floats.display b).toList → a = b :=
    fun a b ha hb hsame => hlawful.display_injective a b ha hb (String.toList_inj.1 hsame)
  have honePoint : ∀ o : Option Float64, (∀ a ∈ o, a.isFinite = true) →
      OnePoint (boundText (fun value => (floats.display value).toList) "float64-min" o) := by
    rintro (_ | a) ha
    · exact ⟨"float64-min".toList, [], rfl, by decide, .inl rfl⟩
    · exact hlawful.display_onePoint (ha a rfl)
  refine rangeText_readsBack ?_ ?_
  · rintro a b r s ha hb ⟨r, rfl⟩ ⟨s, rfl⟩ heq
    obtain ⟨htext, rfl⟩ := onePoint_cancel (honePoint a ha) (honePoint b hb) heq
    refine ⟨?_, rfl⟩
    rcases a with _ | a <;> rcases b with _ | b
    · rfl
    · exact absurd htext.symm (hname b (hb b rfl) _ (by decide))
    · exact absurd htext (hname a (ha a rfl) _ (by decide))
    · rw [hinj a b (ha a rfl) (hb b rfl) htext]
  · refine (boundText_readsBack hinj (fun a ha => List.all_eq_true.2 fun c hmem =>
      decide_eq_true ⟨?_, ?_⟩) (by decide) fun a ha => hname a ha _ (by decide)).mono
        fun _ => afterRange_head
    · rintro rfl
      exact hchars a ha ';' (by decide) hmem
    · rintro rfl
      exact hchars a ha '>' (by decide) hmem

theorem floats_readBack (hlawful : floats.Lawful) :
    ReadsBack (fun o : Option (List Float64) => ∀ choices ∈ o, ∀ a ∈ choices, a.isFinite = true)
      (choicesText fun value => (floats.json value).toList) (StartsWith ">".toList) := by
  have hnumber : ∀ a : Float64, a.isFinite = true →
      (floats.json a).toList.all isNumberChar = true := fun a ha => by
    obtain ⟨number, htext⟩ := hlawful.json_form a ha
    rw [htext]
    exact List.all_eq_true.2 number.isNumberChar_of_mem
  have hfloat : ReadsBack (fun a : Float64 => a.isFinite = true)
      (fun value => (floats.json value).toList) EndsItem :=
    (ReadsBack.of_all (fun a b ha hb h => hlawful.json_injective a b ha hb (String.toList_inj.1 h))
      hnumber).mono fun _ => endsItem_head (by decide) (by decide)
  refine choicesText_readsBack hfloat fun a r s ha => ?_
  refine ne_bracket_of_all (by decide) (hnumber a ha) ?_ r s
  obtain ⟨number, htext⟩ := hlawful.json_form a ha
  rw [htext]
  intro hnil
  have hvalid := number.valid
  rw [hnil] at hvalid
  cases hvalid

end Floats

end Troupe.Agent
