import Troupe.Lib.Text

/-! # Cutting a text at a byte

A `str` is cut at a byte index, which has to be a character boundary. `byteSplit` is the cut, `none`
where Rust panics, and `boundaryBelow` the loop that steps back from a limit to a boundary.

Result: **`prefixSplit_spec`**. The longest prefix within a limit is always a proper cut, and it is
empty only when the first character does not fit. -/

namespace Troupe.Lib

/-- `(&text[..at], &text[at..])`. -/
def byteSplit : List Char → Nat → Option (List Char × List Char)
  | text, 0 => some ([], text)
  | [], _ + 1 => none
  | c :: text, n + 1 =>
    if c.utf8Size ≤ n + 1 then
      (byteSplit text (n + 1 - c.utf8Size)).map fun (before, after) => (c :: before, after)
    else
      none

/-- `is_char_boundary`. -/
def isCharBoundary (text : List Char) (index : Nat) : Bool := (byteSplit text index).isSome

/-- `while prefix_len > 0 && !text.is_char_boundary(prefix_len) { prefix_len -= 1 }`. -/
def boundaryBelow (text : List Char) : Nat → Nat
  | 0 => 0
  | n + 1 => if isCharBoundary text (n + 1) then n + 1 else boundaryBelow text n

theorem byteSplit_eq_some {text before after : List Char} {n : Nat} :
    byteSplit text n = some (before, after) ↔ text = before ++ after ∧ utf8Size before = n := by
  induction text generalizing before n with
  | nil =>
    cases n with
    | zero =>
      rw [byteSplit, Option.some.injEq, Prod.mk.injEq]
      constructor
      · rintro ⟨rfl, rfl⟩
        exact ⟨rfl, rfl⟩
      · rintro ⟨happend, -⟩
        obtain ⟨rfl, rfl⟩ := List.append_eq_nil_iff.mp happend.symm
        exact ⟨rfl, rfl⟩
    | succ n =>
      rw [byteSplit]
      constructor
      · rintro ⟨⟩
      · rintro ⟨happend, hsize⟩
        obtain ⟨rfl, rfl⟩ := List.append_eq_nil_iff.mp happend.symm
        cases hsize
  | cons c text ih =>
    have hpos := Char.utf8Size_pos c
    cases n with
    | zero =>
      rw [byteSplit, Option.some.injEq, Prod.mk.injEq]
      constructor
      · rintro ⟨rfl, rfl⟩
        exact ⟨rfl, rfl⟩
      · rintro ⟨happend, hsize⟩
        rcases before with _ | ⟨d, before⟩
        · exact ⟨rfl, happend⟩
        · have hd := Char.utf8Size_pos d
          rw [utf8Size_cons] at hsize
          omega
    | succ n =>
      rw [byteSplit]
      constructor
      · intro h
        obtain ⟨hfits, h⟩ := Option.ite_none_right_eq_some.mp h
        obtain ⟨⟨before', after'⟩, hsplit, heq⟩ := Option.map_eq_some_iff.mp h
        obtain ⟨rfl, rfl⟩ := Prod.mk.inj heq
        obtain ⟨rfl, hsize⟩ := ih.mp hsplit
        exact ⟨rfl, by rw [utf8Size_cons, hsize]; omega⟩
      · rintro ⟨happend, hsize⟩
        rcases before with _ | ⟨d, before⟩
        · cases hsize
        · obtain ⟨rfl, rfl⟩ := List.cons.inj happend
          rw [utf8Size_cons] at hsize
          rw [if_pos (by omega), ih.mpr ⟨rfl, by omega⟩]
          rfl

theorem isCharBoundary_iff {text : List Char} {n : Nat} :
    isCharBoundary text n = true ↔ ∃ before after, text = before ++ after ∧ utf8Size before = n := by
  unfold isCharBoundary
  rw [Option.isSome_iff_exists]
  constructor
  · rintro ⟨⟨before, after⟩, h⟩
    exact ⟨before, after, byteSplit_eq_some.mp h⟩
  · rintro ⟨before, after, h⟩
    exact ⟨(before, after), byteSplit_eq_some.mpr h⟩

theorem boundaryBelow_spec (text : List Char) (limit : Nat) :
    boundaryBelow text limit ≤ limit ∧ isCharBoundary text (boundaryBelow text limit) = true ∧
      ∀ n ≤ limit, isCharBoundary text n = true → n ≤ boundaryBelow text limit := by
  induction limit with
  | zero => exact ⟨Nat.le_refl _, isCharBoundary_iff.mpr ⟨[], text, rfl, rfl⟩, fun n hn _ => hn⟩
  | succ limit ih =>
    obtain ⟨hle, hboundary, hmax⟩ := ih
    unfold boundaryBelow
    by_cases h : isCharBoundary text (limit + 1)
    · rw [if_pos h]
      exact ⟨Nat.le_refl _, h, fun n hn _ => hn⟩
    · rw [if_neg h]
      refine ⟨Nat.le_succ_of_le hle, hboundary, fun n hn hsplit => ?_⟩
      refine hmax n ?_ hsplit
      rcases Nat.lt_or_eq_of_le hn with hlt | rfl
      · exact Nat.le_of_lt_succ hlt
      · exact absurd hsplit h

/-- `utf8_prefix_len`. -/
def utf8PrefixLen (text : List Char) (limit : Nat) : Nat :=
  if utf8Size text ≤ limit then utf8Size text else boundaryBelow text limit

/-- **The cut at `utf8_prefix_len` does not panic**; the prefix is within the limit, and the next
character would not be. -/
theorem prefixSplit_spec (text : List Char) (limit : Nat) :
    ∃ before after, byteSplit text (utf8PrefixLen text limit) = some (before, after) ∧
      text = before ++ after ∧ utf8Size before = utf8PrefixLen text limit ∧
      utf8Size before ≤ limit ∧
      ∀ c rest, after = c :: rest → limit < utf8Size before + c.utf8Size := by
  unfold utf8PrefixLen
  by_cases hfits : utf8Size text ≤ limit
  · rw [if_pos hfits]
    exact ⟨text, [], byteSplit_eq_some.mpr ⟨(List.append_nil _).symm, rfl⟩,
      (List.append_nil _).symm, rfl, hfits, fun _ _ h => nomatch h⟩
  · rw [if_neg hfits]
    obtain ⟨hle, hboundary, hmax⟩ := boundaryBelow_spec text limit
    obtain ⟨before, after, htext, hsize⟩ := isCharBoundary_iff.mp hboundary
    refine ⟨before, after, byteSplit_eq_some.mpr ⟨htext, hsize⟩, htext, hsize, by omega, ?_⟩
    rintro c rest rfl
    by_contra hlt
    have hnext : isCharBoundary text (utf8Size before + c.utf8Size) = true :=
      isCharBoundary_iff.mpr ⟨before ++ [c], rest, by simp [htext], by simp⟩
    have hpos := Char.utf8Size_pos c
    have hbound := hmax _ (by omega) hnext
    omega

/-- Four bytes are enough for some progress. -/
theorem prefix_ne_nil {text before after : List Char} {limit : Nat} (htext : text = before ++ after)
    (hne : text ≠ []) (hlimit : 4 ≤ limit)
    (hmax : ∀ c rest, after = c :: rest → limit < utf8Size before + c.utf8Size) : before ≠ [] := by
  rintro rfl
  rcases text with _ | ⟨c, text⟩
  · exact hne rfl
  · have hbound := hmax c text htext.symm
    have hsize := Char.utf8Size_le_four c
    rw [utf8Size_nil] at hbound
    omega

end Troupe.Lib
