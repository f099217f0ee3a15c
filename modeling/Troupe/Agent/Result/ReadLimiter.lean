import Mathlib.Algebra.Order.Ring.Int
import Troupe.Lib.Chunked
import Troupe.Lib.Recognizer
import Troupe.Lib.Transition

/-! # The HTTP/1.1 read limiter

`Http1ReadLimiter` of `result/mod.rs`: it follows the bytes of a connection from head to body to the
next head, to bound what is read of a head.

* A failed `debug_assert!` and a panic are `none`; `debugAssertions` is whether the build has them.
* Wakers are left out. A slice is never longer than `usize::MAX`, so the casts between `usize` and
  `u64` lose nothing; the checked arithmetic on a chunk size is kept.
* The loops run over what is left of their input. -/

namespace Troupe.Agent

open Troupe.Lib Chunked

/-- `MCP_HTTP_HEAD_MAX_BYTES`. -/
def mcpHttpHeadMaxBytes : Nat := 32 * 1024

/-- `RequestBodyFraming`. -/
inductive RequestBodyFraming where
  | fixed (remaining : Nat)
  | chunked
deriving DecidableEq

/-! ## Chunked bodies -/

/-- `ChunkedReadPhase`. -/
inductive ChunkedReadPhase where
  | size (value : Nat) (sawDigit inLinearWhitespace inExtension sawCarriageReturn : Bool)
  | data (remaining : Nat)
  | dataCarriageReturn
  | dataLineFeed
  | trailerLine (hasBytes sawCarriageReturn : Bool)
  | invalid
deriving DecidableEq

/-- A turn of the loop in `Data` may take no byte. -/
def ChunkedReadPhase.rank : ChunkedReadPhase → Nat
  | .data _ => 1
  | .size .. | .dataCarriageReturn | .dataLineFeed | .trailerLine .. | .invalid => 0

theorem ChunkedReadPhase.rank_le (phase : ChunkedReadPhase) : phase.rank ≤ 1 := by
  cases phase <;> simp [rank]

/-- `ChunkedProgress`. -/
inductive ChunkedProgress where
  | incomplete
  | complete (consumed : Nat)
  | invalid
deriving DecidableEq

/-- `ChunkedBodyTracker`. -/
structure ChunkedBodyTracker where
  phase : ChunkedReadPhase
deriving DecidableEq

namespace ChunkedBodyTracker

/-- `size_phase`. -/
def sizePhase : ChunkedReadPhase := .size 0 false false false false

/-- `ChunkedBodyTracker::new`. -/
def new : ChunkedBodyTracker := ⟨sizePhase⟩

/-- The arm of `consume` for `Size`. -/
def sizeByte (value : Nat) (sawDigit inLinearWhitespace inExtension sawCarriageReturn : Bool)
    (byte : UInt8) : Verdict ChunkedReadPhase :=
  if sawCarriageReturn then
    if byte ≠ lf then .reject
    else if value = 0 then .more (.trailerLine false false)
    else .more (.data value)
  else if inExtension then
    if byte = cr then .more (.size value sawDigit inLinearWhitespace inExtension true)
    else if byte = lf then .reject
    else .more (.size value sawDigit inLinearWhitespace inExtension sawCarriageReturn)
  else if inLinearWhitespace then
    if byte = ' '.toUInt8 ∨ byte = '\t'.toUInt8 then
      .more (.size value sawDigit inLinearWhitespace inExtension sawCarriageReturn)
    else if byte = ';'.toUInt8 then
      .more (.size value sawDigit inLinearWhitespace true sawCarriageReturn)
    else if byte = cr then .more (.size value sawDigit inLinearWhitespace inExtension true)
    else .reject
  else if byte = cr ∧ sawDigit then
    .more (.size value sawDigit inLinearWhitespace inExtension true)
  else if byte = ';'.toUInt8 ∧ sawDigit then
    .more (.size value sawDigit inLinearWhitespace true sawCarriageReturn)
  else if (byte = ' '.toUInt8 ∨ byte = '\t'.toUInt8) ∧ sawDigit then
    .more (.size value sawDigit true inExtension sawCarriageReturn)
  else
    match hexDigit? byte with
    | some digit =>
      if value * 16 + digit < 2 ^ 64 then
        .more (.size (value * 16 + digit) true inLinearWhitespace inExtension sawCarriageReturn)
      else .reject
    | none => .reject

/-- The arm of `consume` for `TrailerLine`. -/
def trailerByte (hasBytes sawCarriageReturn : Bool) (byte : UInt8) : Verdict ChunkedReadPhase :=
  if sawCarriageReturn then
    if byte ≠ lf then .reject
    else if !hasBytes then .done
    else .more (.trailerLine false false)
  else if byte = cr then .more (.trailerLine hasBytes true)
  else if byte = lf then .reject
  else .more (.trailerLine true sawCarriageReturn)

/-- The loop of `consume`, before the `index`-th byte of its input. -/
def consumeFrom (phase : ChunkedReadPhase) (index : Nat) (input : List UInt8) :
    ChunkedProgress × ChunkedReadPhase :=
  match input with
  | [] => (.incomplete, phase)
  | byte :: rest =>
    match phase with
    | .size value sawDigit inLinearWhitespace inExtension sawCarriageReturn =>
      match sizeByte value sawDigit inLinearWhitespace inExtension sawCarriageReturn byte with
      | .more phase => consumeFrom phase (index + 1) rest
      | .done => (.complete (index + 1), phase)
      | .reject => (.invalid, .invalid)
    | .data remaining =>
      let consumed := min remaining (rest.length + 1)
      if remaining - consumed = 0 then
        consumeFrom .dataCarriageReturn (index + consumed) ((byte :: rest).drop consumed)
      else
        consumeFrom (.data (remaining - consumed)) (index + consumed) ((byte :: rest).drop consumed)
    | .dataCarriageReturn =>
      if byte ≠ cr then (.invalid, .invalid)
      else consumeFrom .dataLineFeed (index + 1) rest
    | .dataLineFeed =>
      if byte ≠ lf then (.invalid, .invalid)
      else consumeFrom sizePhase (index + 1) rest
    | .trailerLine hasBytes sawCarriageReturn =>
      match trailerByte hasBytes sawCarriageReturn byte with
      | .more phase => consumeFrom phase (index + 1) rest
      | .done => (.complete (index + 1), phase)
      | .reject => (.invalid, .invalid)
    | .invalid => (.invalid, .invalid)
termination_by 2 * input.length + phase.rank
decreasing_by
  all_goals simp only [List.length_cons, List.length_drop]
  all_goals grind [ChunkedReadPhase.rank, ChunkedReadPhase.rank_le]

/-- `ChunkedBodyTracker::consume`. -/
def consume (tracker : ChunkedBodyTracker) (input : List UInt8) :
    ChunkedProgress × ChunkedBodyTracker :=
  let (progress, phase) := consumeFrom tracker.phase 0 input
  (progress, ⟨phase⟩)

end ChunkedBodyTracker

/-! ## The phases of a connection -/

/-- `advance_http_head_terminator`. -/
def advanceHttpHeadTerminator (terminatorPrefix : Nat) (byte : UInt8) : Bool × Nat :=
  if (terminatorPrefix = 0 ∨ terminatorPrefix = 1 ∨ terminatorPrefix = 3) ∧ byte = cr then
    (false, 1)
  else if terminatorPrefix = 1 ∧ byte = lf then (false, 2)
  else if terminatorPrefix = 2 ∧ byte = cr then (false, 3)
  else if terminatorPrefix = 3 ∧ byte = lf then (true, terminatorPrefix)
  else (false, 0)

/-- `Http1ReadPhase`. -/
inductive Http1ReadPhase where
  | head (bytes terminatorPrefix : Nat)
  | awaitingBodyFraming (trailing : List UInt8)
  | fixedBody (remaining : Nat)
  | chunkedBody (tracker : ChunkedBodyTracker)
  | opaqueBody
deriving DecidableEq

namespace Http1ReadPhase

/-- `Http1ReadPhase::head`. -/
def newHead : Http1ReadPhase := .head 0 0

/-- The arm of `observe` for `Head`. -/
def observeHead (debugAssertions : Bool) (bytes terminatorPrefix : Nat) :
    List UInt8 → Option Http1ReadPhase
  | [] => some (.head bytes terminatorPrefix)
  | byte :: rest =>
    if debugAssertions ∧ mcpHttpHeadMaxBytes < bytes + 1 then none
    else
      match advanceHttpHeadTerminator terminatorPrefix byte with
      | (true, _) => some (.awaitingBodyFraming rest)
      | (false, terminatorPrefix) => observeHead debugAssertions (bytes + 1) terminatorPrefix rest

/-- `Http1ReadPhase::observe`. -/
def observe (debugAssertions : Bool) (phase : Http1ReadPhase) (input : List UInt8) :
    Option Http1ReadPhase :=
  match phase with
  | .head bytes terminatorPrefix => observeHead debugAssertions bytes terminatorPrefix input
  | .awaitingBodyFraming trailing => some (.awaitingBodyFraming (trailing ++ input))
  | .fixedBody remaining =>
    let consumed := min remaining input.length
    let remaining := remaining - consumed
    if consumed < input.length then
      if debugAssertions ∧ remaining ≠ 0 then none
      else observeHead debugAssertions 0 0 (input.drop consumed)
    else
      some (.fixedBody remaining)
  | .chunkedBody tracker =>
    match tracker.consume input with
    | (.incomplete, tracker) => some (.chunkedBody tracker)
    | (.complete consumed, _) => observeHead debugAssertions 0 0 (input.drop consumed)
    | (.invalid, _) => some .opaqueBody
  | .opaqueBody => some .opaqueBody

end Http1ReadPhase

/-- `Http1ReadLimiter`. -/
structure Http1ReadLimiter where
  phase : Http1ReadPhase
deriving DecidableEq

namespace Http1ReadLimiter

/-- `Http1ReadLimiter::new`. -/
def new : Http1ReadLimiter := ⟨.newHead⟩

/-- `Http1ReadLimiter::allowance`. -/
def allowance (limiter : Http1ReadLimiter) (capacity : Nat) : Option Nat × Http1ReadLimiter :=
  match limiter.phase with
  | .head bytes _ => (some (min capacity (mcpHttpHeadMaxBytes - bytes)), limiter)
  | .awaitingBodyFraming _ => (none, limiter)
  | .fixedBody remaining =>
    if remaining = 0 then (some (min capacity mcpHttpHeadMaxBytes), ⟨.newHead⟩)
    else (some (min capacity remaining), limiter)
  | .chunkedBody _ | .opaqueBody => (some (min capacity mcpHttpHeadMaxBytes), limiter)

/-- `Http1ReadLimiter::observe`. -/
def observe (debugAssertions : Bool) (limiter : Http1ReadLimiter) (input : List UInt8) :
    Option Http1ReadLimiter :=
  (limiter.phase.observe debugAssertions input).map Http1ReadLimiter.mk

/-- `Http1ReadLimiter::set_body_framing`. -/
def setBodyFraming (debugAssertions : Bool) (limiter : Http1ReadLimiter)
    (framing : RequestBodyFraming) : Option Http1ReadLimiter :=
  match limiter.phase with
  | .awaitingBodyFraming trailing =>
    let body : Http1ReadPhase :=
      match framing with
      | .fixed remaining => .fixedBody remaining
      | .chunked => .chunkedBody .new
    (body.observe debugAssertions trailing).map Http1ReadLimiter.mk
  | .head .. | .fixedBody _ | .chunkedBody _ | .opaqueBody => none

end Http1ReadLimiter

end Troupe.Agent
