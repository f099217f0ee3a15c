import Mathlib.Data.List.Basic

/-! # Frames out of chunks

A decoder that keeps what it has received and takes frames from its front: a frame is content up to a
terminator, of at most `limit` bytes, and what has no terminator yet may not be longer than that either.

* `FrameSearch` finds the first frame, and finds the same one when more bytes follow.
* `drain` takes the frames of a buffer until there is none or one is refused. `feed` does it chunk by
  chunk.
* `Torn`: a frame is in reach whose content is within the limit and whose terminator ends more than one
  byte behind it. A cut in front of that end makes the rest of it too long.

Headline results: **`feed_eq_drain`** without a torn frame, and `exists_feed_ne` with one. -/

namespace Troupe.Lib

/-- What a decoder has yielded, and the state it is in or why it stopped. -/
structure Decoded (φ ε σ : Type) where
  frames : List φ
  outcome : Except ε σ

namespace Decoded

variable {φ ε σ τ : Type}

/-- Go on from where a decoder is. -/
def andThen (decoded : Decoded φ ε σ) (more : σ → Decoded φ ε τ) : Decoded φ ε τ :=
  match decoded.outcome with
  | .error error => ⟨decoded.frames, .error error⟩
  | .ok state => ⟨decoded.frames ++ (more state).frames, (more state).outcome⟩

/-- One frame before the others. -/
def after (frame : φ) (decoded : Decoded φ ε σ) : Decoded φ ε σ :=
  ⟨frame :: decoded.frames, decoded.outcome⟩

theorem after_andThen (frame : φ) (decoded : Decoded φ ε σ) (more : σ → Decoded φ ε τ) :
    (decoded.after frame).andThen more = (decoded.andThen more).after frame := by
  unfold andThen after
  dsimp only
  cases decoded.outcome <;> rfl

theorem andThen_assoc {υ : Type} (decoded : Decoded φ ε σ) (f : σ → Decoded φ ε τ)
    (g : τ → Decoded φ ε υ) :
    (decoded.andThen f).andThen g = decoded.andThen fun state => (f state).andThen g := by
  unfold andThen
  cases decoded.outcome with
  | error error => rfl
  | ok state =>
    dsimp only
    cases (f state).outcome with
    | error error => rfl
    | ok next =>
      dsimp only
      rw [List.append_assoc]

theorem andThen_congr {decoded : Decoded φ ε σ} {f g : σ → Decoded φ ε τ}
    (h : ∀ state, decoded.outcome = .ok state → f state = g state) :
    decoded.andThen f = decoded.andThen g := by
  unfold andThen
  cases houtcome : decoded.outcome with
  | error error => rfl
  | ok state =>
    have hsame := h state houtcome
    dsimp only
    rw [hsame]

end Decoded

/-- A search for the first frame: where its content ends and where its terminator does. -/
structure FrameSearch (α : Type) where
  find : List α → Option (Nat × Nat)
  /-- The longest terminator. -/
  width : Nat
  content_lt {buffer : List α} {content framed : Nat} :
    find buffer = some (content, framed) → content < framed
  framed_le {buffer : List α} {content framed : Nat} :
    find buffer = some (content, framed) → framed ≤ content + width ∧ framed ≤ buffer.length
  append {buffer : List α} {ends : Nat × Nat} (more : List α) :
    find buffer = some ends → find (buffer ++ more) = some ends
  of_append {buffer more : List α} {content framed : Nat} :
    find (buffer ++ more) = some (content, framed) → framed ≤ buffer.length →
      find buffer = some (content, framed)

namespace FrameSearch

variable {α φ ε : Type} (search : FrameSearch α) (limit : Nat) (tooLong : ε)
  (parse : List α → Except ε φ)

/-- The first frame of a buffer, and what is behind it. -/
def next (buffer : List α) : Except ε (Option (φ × List α)) :=
  match search.find buffer with
  | none => if limit < buffer.length then .error tooLong else .ok none
  | some (content, framed) =>
    if limit < content then .error tooLong
    else (parse (buffer.take content)).map fun frame => some (frame, buffer.drop framed)

section Next

variable {search limit tooLong parse} {buffer : List α}

theorem next_of_none (h : search.find buffer = none) :
    search.next limit tooLong parse buffer =
      if limit < buffer.length then .error tooLong else .ok none := by
  unfold next
  rw [h]

theorem next_of_some {content framed : Nat} (h : search.find buffer = some (content, framed)) :
    search.next limit tooLong parse buffer =
      if limit < content then .error tooLong
      else (parse (buffer.take content)).map fun frame => some (frame, buffer.drop framed) := by
  unfold next
  rw [h]

theorem length_lt_of_next {frame : φ} {rest : List α}
    (h : search.next limit tooLong parse buffer = .ok (some (frame, rest))) :
    rest.length < buffer.length := by
  cases hfind : search.find buffer with
  | none =>
    rw [next_of_none hfind] at h
    split at h <;> cases h
  | some ends =>
    obtain ⟨content, framed⟩ := ends
    rw [next_of_some hfind] at h
    split at h
    · cases h
    cases hparse : parse (buffer.take content) with
    | error error =>
      rw [hparse] at h
      cases h
    | ok parsed =>
      rw [hparse] at h
      cases h
      have hlt := search.content_lt hfind
      have hle := (search.framed_le hfind).2
      rw [List.length_drop]
      omega

end Next

/-- All the frames of a buffer. -/
def drain (buffer : List α) : Decoded φ ε (List α) :=
  match _hnext : search.next limit tooLong parse buffer with
  | .error error => ⟨[], .error error⟩
  | .ok none => ⟨[], .ok buffer⟩
  | .ok (some (frame, rest)) => (drain rest).after frame
termination_by buffer.length
decreasing_by exact length_lt_of_next _hnext

/-- Chunk after chunk, and after each all the frames there are. -/
def feed (buffer : List α) : List (List α) → Decoded φ ε (List α)
  | [] => ⟨[], .ok buffer⟩
  | chunk :: chunks =>
    (drain search limit tooLong parse (buffer ++ chunk)).andThen fun tail => feed tail chunks

/-- A frame within the limit is in reach whose terminator is not. -/
inductive Torn : List α → Prop
  | here {buffer : List α} {content framed : Nat} :
      search.find buffer = some (content, framed) → content ≤ limit → limit + 1 < framed →
      Torn buffer
  | later {buffer : List α} {content framed : Nat} {frame : φ} :
      search.find buffer = some (content, framed) → content ≤ limit →
      parse (buffer.take content) = .ok frame → Torn (buffer.drop framed) → Torn buffer

variable {search limit tooLong parse} {buffer : List α}

theorem drain_error {error : ε} (h : search.next limit tooLong parse buffer = .error error) :
    search.drain limit tooLong parse buffer = ⟨[], .error error⟩ := by
  rw [drain]
  split <;> simp_all

theorem drain_none (h : search.next limit tooLong parse buffer = .ok none) :
    search.drain limit tooLong parse buffer = ⟨[], .ok buffer⟩ := by
  rw [drain]
  split <;> simp_all

theorem drain_frame {frame : φ} {rest : List α}
    (h : search.next limit tooLong parse buffer = .ok (some (frame, rest))) :
    search.drain limit tooLong parse buffer =
      (search.drain limit tooLong parse rest).after frame := by
  rw [drain]
  split <;> simp_all

/-- What is left has no frame. -/
theorem drain_tail {tail : List α}
    (h : (search.drain limit tooLong parse buffer).outcome = .ok tail) :
    search.drain limit tooLong parse tail = ⟨[], .ok tail⟩ := by
  induction hlength : buffer.length using Nat.strongRecOn generalizing buffer with
  | ind length ih =>
    subst hlength
    cases hnext : search.next limit tooLong parse buffer with
    | error error =>
      rw [drain_error hnext] at h
      cases h
    | ok found =>
      cases found with
      | none =>
        rw [drain_none hnext] at h
        cases h
        exact drain_none hnext
      | some found =>
        rw [drain_frame hnext] at h
        exact ih _ (length_lt_of_next hnext) h rfl

theorem length_le_of_drained
    (h : search.drain limit tooLong parse buffer = ⟨[], .ok buffer⟩) : buffer.length ≤ limit := by
  cases hnext : search.next limit tooLong parse buffer with
  | error error =>
    rw [drain_error hnext] at h
    cases h
  | ok found =>
    cases found with
    | some found =>
      rw [drain_frame hnext] at h
      cases h
    | none =>
      cases hfind : search.find buffer with
      | none =>
        rw [next_of_none hfind] at hnext
        by_contra hlong
        rw [if_pos (Nat.lt_of_not_le hlong)] at hnext
        cases hnext
      | some ends =>
        rw [next_of_some (Prod.eta ends ▸ hfind)] at hnext
        split at hnext
        · cases hnext
        · cases hparse : parse (buffer.take ends.1) <;> rw [hparse] at hnext <;> cases hnext

/-- Draining goes on over a cut, unless a frame is torn. -/
theorem drain_append {more : List α} (htorn : ¬ search.Torn limit parse (buffer ++ more)) :
    search.drain limit tooLong parse (buffer ++ more) =
        (search.drain limit tooLong parse buffer).andThen
          (fun tail => search.drain limit tooLong parse (tail ++ more)) ∧
      ∀ tail, (search.drain limit tooLong parse buffer).outcome = .ok tail →
        ¬ search.Torn limit parse (tail ++ more) := by
  induction hlength : buffer.length using Nat.strongRecOn generalizing buffer with
  | ind length ih =>
    subst hlength
    cases hfind : search.find buffer with
    | none =>
      by_cases hlong : limit < buffer.length
      · have hboth : search.next limit tooLong parse (buffer ++ more) = .error tooLong := by
          cases hmore : search.find (buffer ++ more) with
          | none =>
            rw [next_of_none hmore, List.length_append]
            exact if_pos (Nat.lt_add_right _ hlong)
          | some ends =>
            obtain ⟨content, framed⟩ := ends
            rw [next_of_some hmore]
            -- the terminator ends behind the cut, so the content is too long
            refine if_pos (Nat.lt_of_not_le fun hfits => htorn (.here hmore hfits ?_))
            by_contra hnear
            rw [search.of_append hmore (by omega)] at hfind
            cases hfind
        have hnext : search.next limit tooLong parse buffer = .error tooLong := by
          rw [next_of_none hfind]
          exact if_pos hlong
        rw [drain_error hboth, drain_error hnext]
        exact ⟨rfl, fun tail h => (nomatch h)⟩
      · have hnext : search.next limit tooLong parse buffer = .ok none := by
          rw [next_of_none hfind]
          exact if_neg hlong
        rw [drain_none hnext]
        refine ⟨rfl, ?_⟩
        rintro _ ⟨⟩
        exact htorn
    | some ends =>
      obtain ⟨content, framed⟩ := ends
      have hmore := search.append more hfind
      have hlt := search.content_lt hfind
      have hle := (search.framed_le hfind).2
      have htake : (buffer ++ more).take content = buffer.take content :=
        List.take_append_of_le_length (by omega)
      have hdrop : (buffer ++ more).drop framed = buffer.drop framed ++ more :=
        List.drop_append_of_le_length hle
      have hboth := @next_of_some α φ ε search limit tooLong parse _ _ _ hmore
      have hnext := @next_of_some α φ ε search limit tooLong parse _ _ _ hfind
      rw [htake, hdrop] at hboth
      by_cases hlong : limit < content
      · rw [if_pos hlong] at hboth hnext
        rw [drain_error hboth, drain_error hnext]
        exact ⟨rfl, fun tail h => (nomatch h)⟩
      rw [if_neg hlong] at hboth hnext
      cases hparse : parse (buffer.take content) with
      | error error =>
        rw [hparse] at hboth hnext
        rw [drain_error hboth, drain_error hnext]
        exact ⟨rfl, fun tail h => (nomatch h)⟩
      | ok frame =>
        rw [hparse] at hboth hnext
        have hrest : ¬ search.Torn limit parse (buffer.drop framed ++ more) := by
          intro hlater
          rw [← hdrop] at hlater
          exact htorn (.later hmore (Nat.le_of_not_lt hlong) (htake ▸ hparse) hlater)
        obtain ⟨heq, htail⟩ := ih _ (length_lt_of_next hnext) hrest rfl
        rw [drain_frame hboth, drain_frame hnext, Decoded.after_andThen, heq]
        exact ⟨rfl, htail⟩

/-- **Without a torn frame the cuts make no difference.** -/
theorem feed_eq_drain {chunks : List (List α)}
    (hbuffer : search.drain limit tooLong parse buffer = ⟨[], .ok buffer⟩)
    (htorn : ¬ search.Torn limit parse (buffer ++ chunks.flatten)) :
    search.feed limit tooLong parse buffer chunks =
      search.drain limit tooLong parse (buffer ++ chunks.flatten) := by
  induction chunks generalizing buffer with
  | nil => rw [feed, List.flatten_nil, List.append_nil, hbuffer]
  | cons chunk chunks ih =>
    rw [List.flatten_cons, ← List.append_assoc] at htorn ⊢
    obtain ⟨heq, hrest⟩ := @drain_append α φ ε search limit tooLong parse _ _ htorn
    rw [feed, heq]
    exact Decoded.andThen_congr fun tail htail => ih (drain_tail htail) (hrest tail htail)

theorem find_nil : search.find [] = none := by
  cases hfind : search.find [] with
  | none => rfl
  | some ends =>
    obtain ⟨content, framed⟩ := ends
    have hlt := search.content_lt hfind
    have hle := (search.framed_le hfind).2
    rw [List.length_nil] at hle
    omega

theorem drain_nil : search.drain limit tooLong parse [] = ⟨[], .ok []⟩ := by
  refine drain_none ?_
  rw [next_of_none find_nil]
  exact if_neg (Nat.not_lt_zero _)

/-- A frame found is the same with nothing behind it. -/
theorem find_take {content framed : Nat} (h : search.find buffer = some (content, framed)) :
    search.find (buffer.take framed) = some (content, framed) := by
  have hle := (search.framed_le h).2
  refine @FrameSearch.of_append α search _ (buffer.drop framed) _ _ ?_ ?_
  · rw [List.take_append_drop]
    exact h
  · rw [List.length_take]
    omega

/-- What comes of the first frame alone. -/
theorem next_take {content framed : Nat} (h : search.find buffer = some (content, framed))
    (hfits : content ≤ limit) :
    search.next limit tooLong parse (buffer.take framed) =
      (parse (buffer.take content)).map fun frame => some (frame, []) := by
  have hlt := search.content_lt h
  rw [next_of_some (find_take h), if_neg (Nat.not_lt.mpr hfits), List.take_take,
    Nat.min_eq_left (Nat.le_of_lt hlt), List.drop_eq_nil_of_le (List.length_take_le _ _)]

/-- A frame as a chunk of its own. -/
theorem feed_frame {content framed : Nat} {frame : φ} {chunks : List (List α)}
    (h : search.find buffer = some (content, framed)) (hfits : content ≤ limit)
    (hparse : parse (buffer.take content) = .ok frame) :
    search.feed limit tooLong parse [] (buffer.take framed :: chunks) =
      (search.feed limit tooLong parse [] chunks).after frame := by
  have hnext : search.next limit tooLong parse (buffer.take framed) = .ok (some (frame, [])) := by
    rw [next_take h hfits, hparse]
    rfl
  rw [feed, List.nil_append, drain_frame hnext, drain_nil]
  rfl

theorem length_singletons (items : List α) {bound : Nat} (hbound : 1 ≤ bound) :
    ∀ chunk ∈ items.map ([·]), chunk.length ≤ bound := by
  intro chunk hchunk
  obtain ⟨item, -, rfl⟩ := List.mem_map.mp hchunk
  exact hbound

theorem flatten_singletons (items : List α) : (items.map ([·])).flatten = items := by
  rw [← List.flatMap_def]
  exact List.flatMap_singleton' items

/-- With a torn frame it does, for chunks that hold no more than a frame. -/
theorem exists_feed_ne (hparse : ∀ content, parse content ≠ .error tooLong)
    (htorn : search.Torn limit parse buffer) :
    ∃ chunks chunks' : List (List α), chunks.flatten = buffer ∧ chunks'.flatten = buffer ∧
      (∀ chunk ∈ chunks ++ chunks', chunk.length ≤ limit + search.width) ∧
      search.feed limit tooLong parse [] chunks ≠ search.feed limit tooLong parse [] chunks' := by
  induction htorn with
  | @here buffer content framed hfind hfits hfar =>
    have hwidth := (search.framed_le hfind).1
    have hle := (search.framed_le hfind).2
    refine ⟨buffer.take (limit + 1) :: (buffer.drop (limit + 1)).map ([·]),
      buffer.take framed :: (buffer.drop framed).map ([·]), ?_, ?_, ?_, fun hsame => ?_⟩
    · rw [List.flatten_cons, flatten_singletons, List.take_append_drop]
    · rw [List.flatten_cons, flatten_singletons, List.take_append_drop]
    · simp only [List.mem_append, List.mem_cons]
      rintro chunk ((rfl | hchunk) | (rfl | hchunk))
      · exact Nat.le_trans (List.length_take_le _ _) (by omega)
      · exact length_singletons _ (by omega) chunk hchunk
      · exact Nat.le_trans (List.length_take_le _ _) (by omega)
      · exact length_singletons _ (by omega) chunk hchunk
    · -- cut in front of the end of the terminator, the frame is too long
      have hnone : search.find (buffer.take (limit + 1)) = none := by
        cases hcut : search.find (buffer.take (limit + 1)) with
        | none => rfl
        | some ends =>
          have hwhole := search.append (buffer.drop (limit + 1)) hcut
          rw [List.take_append_drop, hfind] at hwhole
          cases hwhole
          have hshort := (search.framed_le hcut).2
          rw [List.length_take] at hshort
          omega
      have herror : search.next limit tooLong parse (buffer.take (limit + 1)) = .error tooLong := by
        rw [next_of_none hnone, List.length_take]
        exact if_pos (by omega)
      rw [feed, List.nil_append, drain_error herror] at hsame
      cases hcontent : parse (buffer.take content) with
      | error error =>
        have hnext : search.next limit tooLong parse (buffer.take framed) = .error error := by
          rw [next_take hfind hfits, hcontent]
          rfl
        rw [feed, List.nil_append, drain_error hnext] at hsame
        cases hsame
        exact hparse _ hcontent
      | ok frame =>
        rw [feed_frame hfind hfits hcontent] at hsame
        cases hsame
  | @later buffer content framed frame hfind hfits hcontent _ ih =>
    have hwidth := (search.framed_le hfind).1
    obtain ⟨chunks, chunks', hflatten, hflatten', hlength, hne⟩ := ih
    refine ⟨buffer.take framed :: chunks, buffer.take framed :: chunks', ?_, ?_, ?_, ?_⟩
    · rw [List.flatten_cons, hflatten, List.take_append_drop]
    · rw [List.flatten_cons, hflatten', List.take_append_drop]
    · have hframe : (buffer.take framed).length ≤ limit + search.width :=
        Nat.le_trans (List.length_take_le _ _) (by omega)
      simp only [List.mem_append, List.mem_cons] at hlength ⊢
      rintro chunk ((rfl | hchunk) | (rfl | hchunk))
      · exact hframe
      · exact hlength chunk (.inl hchunk)
      · exact hframe
      · exact hlength chunk (.inr hchunk)
    · rw [feed_frame hfind hfits hcontent, feed_frame hfind hfits hcontent]
      intro hsame
      have hframes := congrArg Decoded.frames hsame
      have houtcome := congrArg Decoded.outcome hsame
      refine hne ?_
      generalize search.feed limit tooLong parse [] chunks = left at *
      generalize search.feed limit tooLong parse [] chunks' = right at *
      cases left
      cases right
      cases houtcome
      cases hframes
      rfl

end FrameSearch

end Troupe.Lib
