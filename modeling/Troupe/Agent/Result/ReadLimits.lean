import Troupe.Agent.Result.ChunkedFraming

/-! # What the read limiter guarantees

* `observe_append`: reading in pieces or at once is the same.
* `observeHead_spec`: a head ends at its first CR LF CR LF.
* `Bounded` is kept by every step (`step_bounded`), so no head is counted past its limit.

Results: **`http_read_limiter`**, these with where a chunked body ends, and
**`chunked_body_lenient`**, a body that the tracker takes and the grammar of HTTP/1.1 does not. -/

namespace Troupe.Agent

open Troupe.Lib Chunked

namespace Http1ReadPhase

variable {debugAssertions : Bool} {bytes terminatorPrefix : Nat} {left right input : List UInt8}

/-! ## Reading in pieces -/

theorem observeHead_append :
    observeHead debugAssertions bytes terminatorPrefix (left ++ right) =
      (observeHead debugAssertions bytes terminatorPrefix left).bind
        (observe debugAssertions · right) := by
  induction left generalizing bytes terminatorPrefix with
  | nil => rfl
  | cons byte left ih =>
    rw [List.cons_append, observeHead, observeHead]
    by_cases hassert : debugAssertions = true ∧ mcpHttpHeadMaxBytes < bytes + 1
    · rw [if_pos hassert, if_pos hassert, Option.bind_none]
    rw [if_neg hassert, if_neg hassert]
    rcases advanceHttpHeadTerminator terminatorPrefix byte with ⟨_ | _, _⟩
    · exact ih
    · rfl

theorem observe_fixed (remaining : Nat) :
    observe debugAssertions (.fixedBody remaining) input =
      if remaining < input.length then observeHead debugAssertions 0 0 (input.drop remaining)
      else some (.fixedBody (remaining - input.length)) := by
  rw [observe]
  by_cases hpast : remaining < input.length
  · have hmin : min remaining input.length = remaining := by omega
    simp [hmin, hpast]
  · have hmin : min remaining input.length = input.length := by omega
    simp [hmin, hpast]

open ChunkedBodyTracker in
theorem observe_chunked (tracker : ChunkedBodyTracker) :
    observe debugAssertions (.chunkedBody tracker) input =
      match recognize stepByte tracker.phase input with
      | .incomplete next => some (.chunkedBody ⟨next⟩)
      | .complete rest => observeHead debugAssertions 0 0 rest
      | .invalid => some .opaqueBody := by
  have hconsumes := consume_consumes tracker input
  rw [observe]
  rcases hresult : tracker.consume input with ⟨progress, next⟩
  rw [hresult] at hconsumes
  rcases hrecognize : recognize stepByte tracker.phase input with state | rest | _ <;>
    rw [hrecognize] at hconsumes
  · obtain ⟨rfl, rfl⟩ := Prod.mk.inj hconsumes
    rfl
  · obtain ⟨consumed, -, rfl, hcomplete⟩ := hconsumes
    rw [Nat.zero_add] at hcomplete
    obtain rfl : progress = .complete consumed := hcomplete
    rfl
  · obtain ⟨rfl, -⟩ := Prod.mk.inj hconsumes
    rfl

/-- Reading in pieces or at once is the same. -/
theorem observe_append (phase : Http1ReadPhase) :
    observe debugAssertions phase (left ++ right) =
      (observe debugAssertions phase left).bind (observe debugAssertions · right) := by
  cases phase with
  | head bytes terminatorPrefix => exact observeHead_append
  | awaitingBodyFraming trailing => simp [observe]
  | fixedBody remaining =>
    rw [observe_fixed, observe_fixed]
    by_cases hpast : remaining < left.length
    · rw [if_pos hpast, if_pos (by rw [List.length_append]; omega), ← observeHead_append,
        List.drop_append_of_le_length (Nat.le_of_lt hpast)]
    · rw [if_neg hpast, Option.bind_some, observe_fixed, List.length_append,
        List.drop_append, List.drop_eq_nil_of_le (Nat.le_of_not_lt hpast), List.nil_append,
        Nat.sub_sub]
      have hsame : remaining < left.length + right.length ↔
          remaining - left.length < right.length := by omega
      simp only [hsame]
  | chunkedBody tracker =>
    rw [observe_chunked, observe_chunked, recognize_append]
    rcases recognize ChunkedBodyTracker.stepByte tracker.phase left with next | rest | _
    · rw [Recognition.resume, Option.bind_some, observe_chunked]
    · exact observeHead_append
    · rfl
  | opaqueBody => rfl

/-- Without the assertions every read is observed. -/
theorem observeHead_release : observeHead false bytes terminatorPrefix input ≠ none := by
  induction input generalizing bytes terminatorPrefix with
  | nil => exact Option.some_ne_none _
  | cons byte rest ih =>
    rw [observeHead, if_neg (by simp)]
    rcases advanceHttpHeadTerminator terminatorPrefix byte with ⟨_ | _, _⟩
    · exact ih
    · exact Option.some_ne_none _

theorem observe_release (phase : Http1ReadPhase) (input : List UInt8) :
    observe false phase input ≠ none := by
  cases phase with
  | head bytes terminatorPrefix => exact observeHead_release
  | awaitingBodyFraming trailing => exact Option.some_ne_none _
  | fixedBody remaining =>
    rw [observe_fixed]
    by_cases hpast : remaining < input.length
    · rw [if_pos hpast]
      exact observeHead_release
    · rw [if_neg hpast]
      exact Option.some_ne_none _
  | chunkedBody tracker =>
    rw [observe_chunked]
    rcases recognize ChunkedBodyTracker.stepByte tracker.phase input with next | rest | _
    · exact Option.some_ne_none _
    · exact observeHead_release
    · exact Option.some_ne_none _
  | opaqueBody => exact Option.some_ne_none _

/-- Where the assertions hold they change nothing. -/
theorem observeHead_of_some {phase : Http1ReadPhase}
    (hobserve : observeHead true bytes terminatorPrefix input = some phase) :
    observeHead false bytes terminatorPrefix input = some phase := by
  induction input generalizing bytes terminatorPrefix with
  | nil => exact hobserve
  | cons byte rest ih =>
    rw [observeHead] at hobserve ⊢
    rw [if_neg (by simp)]
    by_cases hassert : true = true ∧ mcpHttpHeadMaxBytes < bytes + 1
    · rw [if_pos hassert] at hobserve
      cases hobserve
    rw [if_neg hassert] at hobserve
    rcases hadvance : advanceHttpHeadTerminator terminatorPrefix byte with ⟨_ | _, next⟩ <;>
      rw [hadvance] at hobserve
    · exact ih hobserve
    · exact hobserve

theorem observe_of_some {phase next : Http1ReadPhase}
    (hobserve : observe true phase input = some next) : observe false phase input = some next := by
  cases phase with
  | head bytes terminatorPrefix => exact observeHead_of_some hobserve
  | awaitingBodyFraming trailing => exact hobserve
  | fixedBody remaining =>
    rw [observe_fixed] at hobserve ⊢
    by_cases hpast : remaining < input.length
    · rw [if_pos hpast] at hobserve ⊢
      exact observeHead_of_some hobserve
    · rw [if_neg hpast] at hobserve ⊢
      exact hobserve
  | chunkedBody tracker =>
    rw [observe_chunked] at hobserve ⊢
    rcases hrecognize : recognize ChunkedBodyTracker.stepByte tracker.phase input with
      next | rest | _ <;> rw [hrecognize] at hobserve
    · exact hobserve
    · exact observeHead_of_some hobserve
    · exact hobserve
  | opaqueBody => exact hobserve

/-! ## The end of a head -/

/-- What ends a head. -/
def headEnd : List UInt8 := [cr, lf, cr, lf]

/-- How much of `headEnd` the bytes read so far end with. -/
def terminatorPrefixOf (read : List UInt8) : Nat :=
  if [cr, lf, cr] <:+ read then 3
  else if [cr, lf] <:+ read then 2
  else if [cr] <:+ read then 1
  else 0

theorem concat_suffix_concat (ending read : List UInt8) (last byte : UInt8) :
    ending ++ [last] <:+ read ++ [byte] ↔ last = byte ∧ ending <:+ read := by
  rw [← List.reverse_prefix, List.reverse_concat, List.reverse_concat, List.cons_prefix_cons,
    List.reverse_prefix]

/-- The automaton knows how much of `headEnd` was read. -/
theorem advance_spec (read : List UInt8) (byte : UInt8) :
    advanceHttpHeadTerminator (terminatorPrefixOf read) byte =
      if headEnd <:+ read ++ [byte] then (true, 3)
      else (false, terminatorPrefixOf (read ++ [byte])) := by
  have hend : headEnd <:+ read ++ [byte] ↔ lf = byte ∧ [cr, lf, cr] <:+ read :=
    concat_suffix_concat [cr, lf, cr] read lf byte
  have hthree : [cr, lf, cr] <:+ read ++ [byte] ↔ cr = byte ∧ [cr, lf] <:+ read :=
    concat_suffix_concat [cr, lf] read cr byte
  have htwo : [cr, lf] <:+ read ++ [byte] ↔ lf = byte ∧ [cr] <:+ read :=
    concat_suffix_concat [cr] read lf byte
  have hone : [cr] <:+ read ++ [byte] ↔ cr = byte ∧ [] <:+ read :=
    concat_suffix_concat [] read cr byte
  have hlast : [cr, lf] <:+ read → ¬[cr] <:+ read := fun hlf hcr => by
    have hshort : [cr] <:+ [cr, lf] := List.suffix_of_suffix_length_le hcr hlf (by decide)
    exact absurd hshort (by decide)
  have hthird : [cr, lf, cr] <:+ read → [cr] <:+ read :=
    ([cr, lf].suffix_append [cr]).trans
  have hcrlf : cr ≠ lf := by decide
  simp only [terminatorPrefixOf, hend, hthree, htwo, hone, List.nil_suffix, and_true]
  by_cases hthree' : [cr, lf, cr] <:+ read
  · have hcr := hthird hthree'
    have hnolf : ¬[cr, lf] <:+ read := fun hlf => hlast hlf hcr
    rw [if_pos hthree', advanceHttpHeadTerminator]
    by_cases hbyte : byte = cr
    · simp [hbyte, hcrlf.symm, hnolf]
    · by_cases hline : byte = lf <;> simp [hbyte, hline, hcrlf.symm, hthree', eq_comm, hnolf]
  rw [if_neg hthree']
  by_cases htwo' : [cr, lf] <:+ read
  · have hnocr := hlast htwo'
    rw [if_pos htwo', advanceHttpHeadTerminator]
    by_cases hbyte : byte = cr
    · simp [hbyte, htwo', hthree']
    · simp [hbyte, Ne.symm hbyte, hthree', hnocr]
  rw [if_neg htwo']
  by_cases hone' : [cr] <:+ read
  · rw [if_pos hone', advanceHttpHeadTerminator]
    by_cases hbyte : byte = cr
    · simp [hbyte, hthree', htwo', hcrlf.symm]
    · by_cases hline : byte = lf <;>
        simp [hbyte, hline, Ne.symm hbyte, hone', hthree', htwo', hcrlf, eq_comm]
  · rw [if_neg hone', advanceHttpHeadTerminator]
    by_cases hbyte : byte = cr <;> simp [hbyte, hone', hthree', htwo', eq_comm]

/-- `head` is a whole head: it ends with `headEnd`, and no beginning of it does. -/
structure WholeHead (head : List UInt8) : Prop where
  ends : headEnd <:+ head
  first : ∀ before, before <+: head → headEnd <:+ before → before = head

theorem WholeHead.unique {head head' rest rest' : List UInt8} (hhead : WholeHead head)
    (hhead' : WholeHead head') (hsame : head ++ rest = head' ++ rest') : rest = rest' := by
  have heq : head = head' := by
    rcases List.prefix_or_prefix_of_prefix (List.prefix_append head rest)
      (hsame ▸ List.prefix_append head' rest') with hle | hle
    · exact hhead'.first head hle hhead.ends
    · exact (hhead.first head' hle hhead'.ends).symm
  exact List.append_cancel_left (heq ▸ hsame)

/-- The loop over a head of which `read` is read. -/
theorem observeHead_spec (read : List UInt8)
    (hread : ∀ before, before <+: read → ¬headEnd <:+ before) {phase : Http1ReadPhase}
    (hobserve : observeHead debugAssertions bytes (terminatorPrefixOf read) input = some phase) :
    (∃ head trailing, phase = .awaitingBodyFraming trailing ∧ read ++ input = head ++ trailing ∧
        WholeHead head) ∨
      (∃ terminatorPrefix, phase = .head (bytes + input.length) terminatorPrefix) ∧
        ∀ before, before <+: read ++ input → ¬headEnd <:+ before := by
  induction input generalizing bytes read with
  | nil =>
    cases hobserve
    rw [List.append_nil]
    exact .inr ⟨⟨_, rfl⟩, hread⟩
  | cons byte rest ih =>
    rw [observeHead, advance_spec] at hobserve
    by_cases hassert : debugAssertions = true ∧ mcpHttpHeadMaxBytes < bytes + 1
    · rw [if_pos hassert] at hobserve
      cases hobserve
    rw [if_neg hassert] at hobserve
    by_cases hend : headEnd <:+ read ++ [byte]
    · rw [if_pos hend] at hobserve
      cases hobserve
      refine .inl ⟨read ++ [byte], rest, rfl, by simp, hend, fun before hbefore hends => ?_⟩
      exact (List.prefix_concat_iff.1 hbefore).resolve_right fun hle => hread before hle hends
    · rw [if_neg hend] at hobserve
      have hnext : ∀ before, before <+: read ++ [byte] → ¬headEnd <:+ before :=
        fun before hbefore hends => by
          rcases List.prefix_concat_iff.1 hbefore with rfl | hle
          · exact hend hends
          · exact hread before hle hends
      have hrest := ih (read ++ [byte]) hnext hobserve
      rw [List.append_assoc, List.singleton_append, Nat.add_assoc, Nat.add_comm 1] at hrest
      exact hrest

theorem not_headEnd_nil : ∀ before : List UInt8, before <+: [] → ¬headEnd <:+ before := by
  intro before hbefore hends
  rw [List.prefix_nil.1 hbefore] at hends
  cases List.suffix_nil.1 hends

/-- A head phase ends exactly with a whole head. -/
theorem observe_newHead_eq_awaiting {trailing : List UInt8} :
    observe false newHead input = some (.awaitingBodyFraming trailing) ↔
      ∃ head, input = head ++ trailing ∧ WholeHead head := by
  constructor
  · intro hobserve
    rcases observeHead_spec [] not_headEnd_nil hobserve with
      ⟨head, rest, hphase, hinput, hhead⟩ | ⟨⟨_, hphase⟩, _⟩
    · cases hphase
      exact ⟨head, hinput, hhead⟩
    · cases hphase
  · rintro ⟨head, rfl, hhead⟩
    obtain ⟨phase, hobserve⟩ := Option.ne_none_iff_exists'.1
      (observe_release newHead (head ++ trailing))
    rcases observeHead_spec [] not_headEnd_nil hobserve with
      ⟨head', rest, hphase, hinput, hhead'⟩ | ⟨_, hnone⟩
    · rw [hobserve, hphase, hhead.unique hhead' hinput]
    · exact absurd hhead.ends (hnone head (List.prefix_append head trailing))

/-- Without a whole head every byte is counted. -/
theorem observe_newHead_of_not
    (hnone : ∀ head trailing, input = head ++ trailing → ¬WholeHead head) :
    ∃ terminatorPrefix, observe false newHead input = some (.head input.length terminatorPrefix) := by
  obtain ⟨phase, hobserve⟩ := Option.ne_none_iff_exists'.1 (observe_release newHead input)
  rcases observeHead_spec [] not_headEnd_nil hobserve with
    ⟨head, rest, _, hinput, hhead⟩ | ⟨⟨terminatorPrefix, hphase⟩, _⟩
  · exact absurd hhead (hnone head rest hinput)
  · rw [Nat.zero_add] at hphase
    exact ⟨terminatorPrefix, hobserve.trans (congrArg some hphase)⟩

/-- A whole chunked body is followed by the next head. -/
theorem observe_framedBody {body : List UInt8} (hbody : FramedBody body) (rest : List UInt8) :
    observe debugAssertions (.chunkedBody .new) (body ++ rest) =
      observe debugAssertions newHead rest := by
  have hcomplete : recognize ChunkedBodyTracker.stepByte ChunkedBodyTracker.sizePhase
      (body ++ rest) = .complete rest :=
    (recognize_complete_iff ChunkedBodyTracker.recognizes).2
      ⟨body, (ChunkedBodyTracker.accepts_sizePhase body).2 hbody, rfl⟩
  rw [observe_chunked]
  simp only [ChunkedBodyTracker.new, hcomplete]
  rfl

/-! ## The limit of a head -/

/-- What is counted of a head and kept behind it is within the limit. -/
def Bounded : Http1ReadPhase → Prop
  | .head bytes _ => bytes ≤ mcpHttpHeadMaxBytes
  | .awaitingBodyFraming trailing => trailing.length ≤ mcpHttpHeadMaxBytes
  | .fixedBody _ | .chunkedBody _ | .opaqueBody => True

/-- A phase can observe `length` bytes. -/
def Fits (length : Nat) : Http1ReadPhase → Prop
  | .head bytes _ => bytes + length ≤ mcpHttpHeadMaxBytes
  | .awaitingBodyFraming _ => False
  | .fixedBody remaining => length ≤ remaining ∨ length ≤ mcpHttpHeadMaxBytes
  | .chunkedBody _ | .opaqueBody => length ≤ mcpHttpHeadMaxBytes

theorem observeHead_bounded (hfits : bytes + input.length ≤ mcpHttpHeadMaxBytes) :
    ∃ next, observeHead debugAssertions bytes terminatorPrefix input = some next ∧
      Bounded next := by
  induction input generalizing bytes terminatorPrefix with
  | nil => exact ⟨_, rfl, hfits⟩
  | cons byte rest ih =>
    rw [List.length_cons] at hfits
    rw [observeHead, if_neg (by omega)]
    rcases advanceHttpHeadTerminator terminatorPrefix byte with ⟨_ | _, _⟩
    · exact ih (by omega)
    · exact ⟨_, rfl, show rest.length ≤ mcpHttpHeadMaxBytes by omega⟩

theorem observe_bounded (debugAssertions : Bool) {phase : Http1ReadPhase}
    (hfits : Fits input.length phase) :
    ∃ next, observe debugAssertions phase input = some next ∧ Bounded next := by
  have hhead : ∀ {rest : List UInt8}, rest.length ≤ mcpHttpHeadMaxBytes →
      ∃ next, observeHead debugAssertions 0 0 rest = some next ∧ Bounded next := fun hrest =>
    observeHead_bounded (by omega)
  cases phase with
  | head bytes terminatorPrefix => exact observeHead_bounded hfits
  | awaitingBodyFraming trailing => exact hfits.elim
  | fixedBody remaining =>
    rw [observe_fixed]
    by_cases hpast : remaining < input.length
    · rw [if_pos hpast]
      refine hhead ?_
      have hle := hfits.resolve_left (Nat.not_le_of_lt hpast)
      rw [List.length_drop]
      omega
    · rw [if_neg hpast]
      exact ⟨_, rfl, trivial⟩
  | chunkedBody tracker =>
    rw [observe_chunked]
    rcases hrecognize : recognize ChunkedBodyTracker.stepByte tracker.phase input with
      next | rest | _
    · exact ⟨_, rfl, trivial⟩
    · obtain ⟨word, -, rfl⟩ := (recognize_complete_iff ChunkedBodyTracker.recognizes).1 hrecognize
      refine hhead ?_
      have hle : (word ++ rest).length ≤ mcpHttpHeadMaxBytes := hfits
      rw [List.length_append] at hle
      omega
    · exact ⟨_, rfl, trivial⟩
  | opaqueBody => exact ⟨_, rfl, trivial⟩

end Http1ReadPhase

namespace Http1ReadLimiter

open Http1ReadPhase

/-- What a connection does: a poll that reads nothing, a read within its allowance, and the framing
of a body that is awaited. -/
inductive Step : Http1ReadLimiter → Http1ReadLimiter → Prop
  | poll (limiter : Http1ReadLimiter) (capacity : Nat) : Step limiter (limiter.allowance capacity).2
  | read {limiter granted next : Http1ReadLimiter} {capacity allowed : Nat} {input : List UInt8} :
      limiter.allowance capacity = (some allowed, granted) → input.length ≤ allowed →
      granted.observe true input = some next → Step limiter next
  | frame {limiter next : Http1ReadLimiter} {framing : RequestBodyFraming} :
      limiter.setBodyFraming true framing = some next → Step limiter next

variable {limiter granted next : Http1ReadLimiter} {capacity allowed : Nat} {input : List UInt8}

theorem allowance_bounded (hbounded : Bounded limiter.phase) (capacity : Nat) :
    Bounded (limiter.allowance capacity).2.phase := by
  unfold allowance
  split
  next => exact hbounded
  next => exact hbounded
  next =>
    split
    next => exact Nat.zero_le _
    next => exact hbounded
  next => exact hbounded
  next => exact hbounded

/-- An allowance is never too long. -/
theorem allowance_fits (hbounded : Bounded limiter.phase)
    (hallowance : limiter.allowance capacity = (some allowed, granted))
    (hinput : input.length ≤ allowed) : Fits input.length granted.phase := by
  rcases limiter with ⟨phase⟩
  cases phase with
  | head bytes terminatorPrefix =>
    simp only [allowance, Prod.mk.injEq, Option.some.injEq] at hallowance
    obtain ⟨rfl, rfl⟩ := hallowance
    have hle : bytes ≤ mcpHttpHeadMaxBytes := hbounded
    change bytes + input.length ≤ mcpHttpHeadMaxBytes
    omega
  | awaitingBodyFraming trailing => simp [allowance] at hallowance
  | fixedBody remaining =>
    by_cases hzero : remaining = 0
    · simp only [allowance, if_pos hzero, Prod.mk.injEq, Option.some.injEq] at hallowance
      obtain ⟨rfl, rfl⟩ := hallowance
      change 0 + input.length ≤ mcpHttpHeadMaxBytes
      omega
    · simp only [allowance, if_neg hzero, Prod.mk.injEq, Option.some.injEq] at hallowance
      obtain ⟨rfl, rfl⟩ := hallowance
      exact .inl (by omega)
  | chunkedBody tracker | opaqueBody =>
    simp only [allowance, Prod.mk.injEq, Option.some.injEq] at hallowance
    obtain ⟨rfl, rfl⟩ := hallowance
    change input.length ≤ mcpHttpHeadMaxBytes
    omega

/-- A read within its allowance is observed. -/
theorem read_bounded (hbounded : Bounded limiter.phase)
    (hallowance : limiter.allowance capacity = (some allowed, granted))
    (hinput : input.length ≤ allowed) :
    ∃ next, granted.observe true input = some next ∧ Bounded next.phase := by
  obtain ⟨phase, hobserve, hphase⟩ :=
    observe_bounded true (allowance_fits hbounded hallowance hinput)
  exact ⟨⟨phase⟩, by rw [observe, hobserve]; rfl, hphase⟩

/-- A body that is awaited can be framed. -/
theorem frame_bounded {trailing : List UInt8} (hbounded : Bounded limiter.phase)
    (hphase : limiter.phase = .awaitingBodyFraming trailing) (framing : RequestBodyFraming) :
    ∃ next, limiter.setBodyFraming true framing = some next ∧ Bounded next.phase := by
  obtain rfl : limiter = ⟨.awaitingBodyFraming trailing⟩ := congrArg mk hphase
  cases framing with
  | fixed remaining =>
    have hfits : Fits trailing.length (.fixedBody remaining) := .inr hbounded
    obtain ⟨phase, hobserve, hnext⟩ := observe_bounded true hfits
    exact ⟨⟨phase⟩, congrArg (Option.map mk) hobserve, hnext⟩
  | chunked =>
    have hfits : Fits trailing.length (.chunkedBody .new) := hbounded
    obtain ⟨phase, hobserve, hnext⟩ := observe_bounded true hfits
    exact ⟨⟨phase⟩, congrArg (Option.map mk) hobserve, hnext⟩

theorem awaiting_of_frame {framing : RequestBodyFraming}
    (hframe : limiter.setBodyFraming true framing = some next) :
    ∃ trailing, limiter.phase = .awaitingBodyFraming trailing := by
  rcases limiter with ⟨_ | trailing | _ | _ | _⟩
  case awaitingBodyFraming => exact ⟨trailing, rfl⟩
  all_goals cases hframe

theorem step_bounded (limiter next : Http1ReadLimiter) (hbounded : Bounded limiter.phase)
    (hstep : Step limiter next) : Bounded next.phase := by
  cases hstep with
  | poll capacity => exact allowance_bounded hbounded capacity
  | read hallowance hinput hobserve =>
    obtain ⟨next', hobserve', hnext⟩ := read_bounded hbounded hallowance hinput
    cases hobserve.symm.trans hobserve'
    exact hnext
  | frame hframe =>
    obtain ⟨trailing, hphase⟩ := awaiting_of_frame hframe
    obtain ⟨next', hframe', hnext⟩ := frame_bounded hbounded hphase _
    cases hframe.symm.trans hframe'
    exact hnext

theorem run_bounded (hrun : Relation.ReflTransGen Step new limiter) : Bounded limiter.phase :=
  run_invariant step_bounded (Nat.zero_le _) hrun

end Http1ReadLimiter

open Http1ReadPhase in
/-- The read limiter does not depend on how its bytes come in, counts no head past its limit, ends
a head at its first CR LF CR LF, and takes a chunked body exactly as it is framed. -/
theorem http_read_limiter :
    (∀ debugAssertions phase left right,
      observe debugAssertions phase (left ++ right) =
        (observe debugAssertions phase left).bind (observe debugAssertions · right)) ∧
    (∀ phase input, observe false phase input ≠ none) ∧
    (∀ phase input next, observe true phase input = some next →
      observe false phase input = some next) ∧
    (∀ limiter, Relation.ReflTransGen Http1ReadLimiter.Step .new limiter →
      (∀ capacity allowed granted input, limiter.allowance capacity = (some allowed, granted) →
        input.length ≤ allowed → granted.observe true input ≠ none) ∧
      (∀ trailing framing, limiter.phase = .awaitingBodyFraming trailing →
        limiter.setBodyFraming true framing ≠ none) ∧
      ∀ bytes terminatorPrefix, limiter.phase = .head bytes terminatorPrefix →
        bytes ≤ mcpHttpHeadMaxBytes) ∧
    (∀ input trailing, observe false newHead input = some (.awaitingBodyFraming trailing) ↔
      ∃ head, input = head ++ trailing ∧ WholeHead head) ∧
    (∀ input, (∀ head trailing, input = head ++ trailing → ¬WholeHead head) →
      ∃ terminatorPrefix,
        observe false newHead input = some (.head input.length terminatorPrefix)) ∧
    (∀ input consumed, (ChunkedBodyTracker.new.consume input).1 = .complete consumed ↔
      consumed ≤ input.length ∧ FramedBody (input.take consumed)) ∧
    (∀ input, (ChunkedBodyTracker.new.consume input).1 = .incomplete ↔
      ∃ more ≠ [], FramedBody (input ++ more)) ∧
    (∀ input, (ChunkedBodyTracker.new.consume input).1 = .invalid ↔
      (∀ consumed ≤ input.length, ¬FramedBody (input.take consumed)) ∧
        ∀ more, ¬FramedBody (input ++ more)) ∧
    (∀ debugAssertions body rest, FramedBody body →
      observe debugAssertions (.chunkedBody .new) (body ++ rest) =
        observe debugAssertions newHead rest) ∧
    ∀ body, Body (2 ^ 64) StrictExt StrictLine body → FramedBody body := by
  refine ⟨fun _ phase _ _ => observe_append phase, observe_release, fun _ _ _ => observe_of_some,
    fun limiter hrun => ?_, fun _ _ => observe_newHead_eq_awaiting,
    fun _ => observe_newHead_of_not, fun _ _ => ChunkedBodyTracker.consume_complete_iff,
    fun _ => ChunkedBodyTracker.consume_incomplete_iff,
    fun _ => ChunkedBodyTracker.consume_invalid_iff, fun _ _ rest hbody =>
    observe_framedBody hbody rest, fun _ => Body.loose⟩
  have hbounded := Http1ReadLimiter.run_bounded hrun
  refine ⟨fun capacity allowed granted input hallowance hinput => ?_,
    fun trailing framing hphase => ?_, fun bytes terminatorPrefix hphase => ?_⟩
  · obtain ⟨next, hobserve, -⟩ := Http1ReadLimiter.read_bounded hbounded hallowance hinput
    rw [hobserve]
    exact Option.some_ne_none _
  · obtain ⟨next, hframe, -⟩ := Http1ReadLimiter.frame_bounded hbounded hphase framing
    rw [hframe]
    exact Option.some_ne_none _
  · rw [hphase] at hbounded
    exact hbounded

/-- A last chunk with a blank behind its size: `0 CR LF CR LF`. -/
def blankBody : List UInt8 := [48, 32, cr, lf, cr, lf]

theorem not_sizeLine_blankBody {bytes tail : List UInt8} {size : Nat}
    (hline : SizeLine StrictExt bytes size) : bytes ++ crlf ++ tail ≠ blankBody := by
  obtain ⟨digits, extension, rfl, hne, hread, hext⟩ := hline
  intro hbody
  obtain rfl : extension = [] := hext.semicolon.resolve_right fun hmem => by
    have hsemicolon : (59 : UInt8) ∈ blankBody := by
      rw [← hbody]
      simp [hmem]
    exact absurd hsemicolon (by decide)
  match digits with
  | [] => exact hne rfl
  | [digit] => simp [blankBody, crlf, cr] at hbody
  | first :: second :: digits =>
    simp only [blankBody, List.append_nil, List.cons_append, List.cons.injEq] at hbody
    obtain ⟨rfl, rfl, -⟩ := hbody
    cases hread

/-- The tracker also takes bodies that the grammar of HTTP/1.1 excludes. -/
theorem chunked_body_lenient :
    ¬∀ input consumed, (ChunkedBodyTracker.new.consume input).1 = .complete consumed →
      Body (2 ^ 64) StrictExt StrictLine (input.take consumed) := by
  intro hall
  have hcomplete : (ChunkedBodyTracker.new.consume blankBody).1 = .complete 6 :=
    ChunkedBodyTracker.consume_complete_iff.2 ⟨by decide, by
      have hline : SizeLine LooseExt [48, 32] 0 :=
        ⟨[48], [32], rfl, List.cons_ne_nil _ _, rfl, [32], [], rfl,
          List.forall_mem_singleton.2 (.inl rfl), .inl rfl⟩
      exact .last hline .done⟩
  have hbody := hall blankBody 6 hcomplete
  generalize hbytes : blankBody.take 6 = bytes at hbody
  cases hbody with
  | last hline _ => exact not_sizeLine_blankBody hline hbytes.symm
  | @chunk bytes data rest hline _ _ _ =>
    rw [List.append_assoc (bytes ++ crlf), List.append_assoc (bytes ++ crlf)] at hbytes
    exact not_sizeLine_blankBody hline hbytes.symm

end Troupe.Agent
