import Troupe.Query.Reader

/-! # Finite event queries

`query/events.rs`: a query's bounds are resolved against the captured watermark, and the events
within them are read a page at a time. The iterator checks that the sequences it gives are
consecutive: at a row out of turn, at an empty page and at a failed read it reports one error, and
from then on nothing.

Headline results:
* `resolve_bounds`: the resolved bounds are `after ≤ through ≤ W`, for all 64-bit arguments.
* `DensePrefix.yields`: over a dense prefix exactly the events `after + 1..through`.
* `yields_any`: over any answers of the store a consecutive start of them, then at most one error.
* `yields_damaged`: which error, where a page is damaged at a place the query reaches. -/

namespace Troupe.Query

open Troupe.Core Troupe.Lib

/-- `FiniteEventQuery`. -/
inductive FiniteEventQuery where
  | after (afterExclusive : SchemaU64)
  | tail (count : SchemaU64)
  | range (afterExclusive throughInclusive : SchemaU64)

/-- `CapturedEventRange`. -/
structure CapturedEventRange where
  capturedWatermark : SchemaU64
  afterExclusive : SchemaU64
  throughInclusive : SchemaU64

/-- `FiniteEventQuery::resolve`. -/
def FiniteEventQuery.resolve (query : FiniteEventQuery) (capturedWatermark : SchemaU64) :
    CapturedEventRange :=
  let watermark := capturedWatermark
  match query with
  | after afterExclusive =>
    ⟨watermark, if afterExclusive.get < watermark.get then afterExclusive else watermark, watermark⟩
  | tail count =>
    ⟨watermark, ⟨watermark.get - count.get, (Nat.sub_le _ _).trans watermark.le_max⟩, watermark⟩
  | range afterExclusive throughInclusive =>
    let through :=
      if throughInclusive.get < watermark.get then throughInclusive else watermark
    ⟨watermark, if afterExclusive.get < through.get then afterExclusive else through, through⟩

/-- `CapturedEventRange::is_empty`. -/
def CapturedEventRange.isEmpty (range : CapturedEventRange) : Bool :=
  range.afterExclusive.get == range.throughInclusive.get

/-- An addition or a subtraction that left the range of `u64`. -/
inductive Overflow where
  | overflow
deriving DecidableEq

/-- `a + b` on `u64`. -/
def add (a b : Nat) : Except Overflow Nat :=
  match checkedAdd u64Max a b with
  | some sum => .ok sum
  | none => .error .overflow

/-- `a - b` on `u64`. -/
def sub (a b : Nat) : Except Overflow Nat :=
  match checkedSub a b with
  | some difference => .ok difference
  | none => .error .overflow

/-- `CapturedEventRange::first_sequence`. -/
def CapturedEventRange.firstSequence (range : CapturedEventRange) :
    Except Overflow (Option Nat) :=
  if range.isEmpty then
    .ok none
  else
    some <$> add range.afterExclusive.get 1

/-- `EventQueryError`. -/
inductive EventQueryError (ε : Type) where
  | reader (error : ReaderFailure ε)
  | nonDenseSequence (profile : ReaderProfile) (expected : Nat) (actual : Option SchemaU64)

/-- `FiniteEventIter`, less its source. -/
structure FiniteEventIter where
  range : CapturedEventRange
  nextSequence : Option Nat
  page : List CapturedEvent

section Iter

variable {ε : Type} (crates : Crates) (source : CapturedEventSource ε)

/-- An item of the iterator. -/
abbrev FiniteEventItem (ε : Type) : Type := Except (EventQueryError ε) CapturedEvent

/-- `query_events`. -/
def queryEvents (query : FiniteEventQuery) : Except Overflow FiniteEventIter := do
  let range := query.resolve source.capturedWatermark
  let nextSequence ← range.firstSequence
  .ok ⟨range, nextSequence, []⟩

namespace FiniteEventIter

/-- `FiniteEventIter::non_dense`. -/
def nonDense (iter : FiniteEventIter) (expected : Nat) (actual : Option SchemaU64) :
    EventQueryError ε × FiniteEventIter :=
  (.nonDenseSequence source.profile expected actual, { iter with nextSequence := none, page := [] })

/-- `FiniteEventIter::next`, from a page that still has an event. -/
def takeEvent (iter : FiniteEventIter) (expected : Nat) (event : CapturedEvent)
    (page : List CapturedEvent) : Except Overflow (Option (FiniteEventItem ε) × FiniteEventIter) :=
  if event.sequence.get ≠ expected then
    let (error, iter) := nonDense source { iter with page } expected (some event.sequence)
    .ok (some (.error error), iter)
  else do
    let nextSequence ←
      if expected = iter.range.throughInclusive.get then .ok none else some <$> add expected 1
    .ok (some (.ok event), { iter with nextSequence, page })

/-- `FiniteEventIter::next`. A page that is read and has events ends the loop in its next turn. -/
def next (iter : FiniteEventIter) :
    Except Overflow (Option (FiniteEventItem ε) × FiniteEventIter) :=
  match iter.nextSequence with
  | none => .ok (none, iter)
  | some expected =>
    match iter.page with
    | event :: page => takeEvent source iter expected event page
    | [] => do
      let afterExclusive ← sub expected 1
      match source.readEventPage crates afterExclusive with
      | .error error => .ok (some (.error (.reader error)), { iter with nextSequence := none })
      | .ok page =>
        match page.events with
        | [] =>
          let (error, iter) := nonDense source iter expected none
          .ok (some (.error error), iter)
        | event :: events => takeEvent source { iter with page := page.events } expected event events

end FiniteEventIter

end Iter

/-! ## Bounds -/

/-- **The resolved bounds lie in order within the watermark**, whatever was asked. -/
theorem resolve_bounds (query : FiniteEventQuery) (watermark : SchemaU64) :
    (query.resolve watermark).capturedWatermark = watermark ∧
      (query.resolve watermark).afterExclusive.get ≤
        (query.resolve watermark).throughInclusive.get ∧
      (query.resolve watermark).throughInclusive.get ≤ watermark.get := by
  cases query with
  | after afterExclusive =>
    refine ⟨rfl, ?_, Nat.le_refl _⟩
    dsimp only [FiniteEventQuery.resolve]
    split
    · rename_i h
      exact Nat.le_of_lt h
    · exact Nat.le_refl _
  | tail count => exact ⟨rfl, Nat.sub_le _ _, Nat.le_refl _⟩
  | range afterExclusive throughInclusive =>
    refine ⟨rfl, ?_, ?_⟩
    · dsimp only [FiniteEventQuery.resolve]
      split <;> split <;> omega
    · dsimp only [FiniteEventQuery.resolve]
      split
      · rename_i h
        exact Nat.le_of_lt h
      · exact Nat.le_refl _

theorem add_of_le {a b : Nat} (h : a + b ≤ u64Max) : add a b = .ok (a + b) := by
  rw [add, checkedAdd_of_le h]

theorem sub_of_le {a b : Nat} (h : b ≤ a) : sub a b = .ok (a - b) := by
  rw [sub, checkedSub, if_pos h]

/-- The `next_sequence` that stands at `sequence`: none beyond the last one. -/
def CapturedEventRange.place (range : CapturedEventRange) (sequence : Nat) : Option Nat :=
  if sequence = range.throughInclusive.get + 1 then none else some sequence

theorem place_of_le {range : CapturedEventRange} {sequence : Nat}
    (h : sequence ≤ range.throughInclusive.get) : range.place sequence = some sequence :=
  if_neg (by omega)

/-- Making the iterator adds one to `after` only below `through`. -/
theorem queryEvents_ok {ε : Type} (source : CapturedEventSource ε) (query : FiniteEventQuery) :
    queryEvents source query =
      .ok ⟨query.resolve source.capturedWatermark,
        (query.resolve source.capturedWatermark).place
          ((query.resolve source.capturedWatermark).afterExclusive.get + 1), []⟩ := by
  obtain ⟨-, hle, hthrough⟩ := resolve_bounds query source.capturedWatermark
  have hmax := source.capturedWatermark.le_max
  unfold queryEvents CapturedEventRange.firstSequence CapturedEventRange.place
  dsimp only
  by_cases hempty : (query.resolve source.capturedWatermark).isEmpty
  · rw [if_pos hempty, if_pos (by simpa [CapturedEventRange.isEmpty] using hempty)]
    rfl
  · have hne : (query.resolve source.capturedWatermark).afterExclusive.get ≠
        (query.resolve source.capturedWatermark).throughInclusive.get := by
      simpa [CapturedEventRange.isEmpty] using hempty
    rw [if_neg hempty, if_neg (by omega), add_of_le (by omega)]
    rfl

/-! ## One call -/

namespace FiniteEventIter

variable {ε : Type} {crates : Crates} {source : CapturedEventSource ε}
  {range : CapturedEventRange} {page : List CapturedEvent} {event : CapturedEvent} {expected : Nat}

/-- The next event is passed on; adding one stays below `through`. -/
theorem takeEvent_right {nextSequence : Option Nat} {held : List CapturedEvent}
    (hevent : event.sequence.get = expected) (hle : expected ≤ range.throughInclusive.get) :
    takeEvent source ⟨range, nextSequence, held⟩ expected event page =
      .ok (some (.ok event), ⟨range, range.place (expected + 1), page⟩) := by
  have hmax := range.throughInclusive.le_max
  unfold takeEvent CapturedEventRange.place
  rw [if_neg (not_not.mpr hevent)]
  by_cases hlast : expected = range.throughInclusive.get
  · rw [if_pos hlast, if_pos (by omega)]
    rfl
  · rw [if_neg hlast, if_neg (by omega), add_of_le (by omega)]
    rfl

/-- An event out of turn is one error, and nothing is left. -/
theorem takeEvent_wrong {nextSequence : Option Nat} {held : List CapturedEvent}
    (hevent : event.sequence.get ≠ expected) :
    takeEvent source ⟨range, nextSequence, held⟩ expected event page =
      .ok (some (.error (.nonDenseSequence source.profile expected (some event.sequence))),
        ⟨range, none, []⟩) := by
  unfold takeEvent nonDense
  rw [if_pos hevent]

/-- Without a next sequence the iterator has ended. -/
theorem yields_none : Yields (next crates source) ⟨range, none, page⟩ [] := .done rfl

theorem next_cons (events : List CapturedEvent) :
    next crates source ⟨range, some expected, event :: events⟩ =
      takeEvent source ⟨range, some expected, event :: events⟩ expected event events := rfl

/-- A page that was read is used as if it had been there. -/
theorem next_page (range : CapturedEventRange) {read : CapturedEventPage} (hpos : 0 < expected)
    (hread : source.readEventPage crates (expected - 1) = .ok read) (hne : read.events ≠ []) :
    next crates source ⟨range, some expected, []⟩ =
      next crates source ⟨range, some expected, read.events⟩ := by
  rcases hevents : read.events with _ | ⟨event, events⟩
  · exact absurd hevents hne
  · simp only [next, sub_of_le (show 1 ≤ expected from hpos), ok_bind, hread, hevents]

/-- A page that cannot be read is one error, and nothing is left. -/
theorem next_unread {error : ReaderFailure ε} (hpos : 0 < expected)
    (hread : source.readEventPage crates (expected - 1) = .error error) :
    next crates source ⟨range, some expected, []⟩ =
      .ok (some (.error (.reader error)), ⟨range, none, []⟩) := by
  simp only [next, sub_of_le (show 1 ≤ expected from hpos), ok_bind, hread]

/-- So is an empty page. -/
theorem next_missing {read : CapturedEventPage} (hpos : 0 < expected)
    (hread : source.readEventPage crates (expected - 1) = .ok read) (hempty : read.events = []) :
    next crates source ⟨range, some expected, []⟩ =
      .ok (some (.error (.nonDenseSequence source.profile expected none)), ⟨range, none, []⟩) := by
  simp only [next, sub_of_le (show 1 ≤ expected from hpos), ok_bind, hread, hempty]
  rfl

/-- Events in turn are given one a call. -/
theorem yields_right {good rest : List CapturedEvent} {items : List (FiniteEventItem ε)}
    (hgood : good.map (·.sequence.get) = List.range' expected good.length)
    (hle : expected + good.length ≤ range.throughInclusive.get + 1)
    (hrest : Yields (next crates source)
      ⟨range, range.place (expected + good.length), rest⟩ items) :
    Yields (next crates source) ⟨range, range.place expected, good ++ rest⟩
      (good.map .ok ++ items) := by
  induction good generalizing expected with
  | nil => exact hrest
  | cons event good ih =>
    simp only [List.map_cons, List.length_cons, List.range'_succ, List.cons.injEq] at hgood
    obtain ⟨hevent, hgood⟩ := hgood
    rw [List.length_cons] at hle hrest
    rw [place_of_le (by omega)]
    have hnext : next crates source ⟨range, some expected, event :: good ++ rest⟩ =
        .ok (some (.ok event), ⟨range, range.place (expected + 1), good ++ rest⟩) := by
      rw [List.cons_append, next_cons, takeEvent_right hevent (by omega)]
    refine .item hnext (ih hgood (by omega) ?_)
    rwa [Nat.add_assoc, Nat.add_comm 1]

end FiniteEventIter

/-! ## Dense prefixes -/

namespace CapturedEventSource.DensePrefix

variable {ε : Type} {crates : Crates} {source : CapturedEventSource ε}
  {rows : List EventRow} {stored : List DiagnosticEvent}

/-- Wherever the page boundary is: with a start of the events after the `i`-th at hand, the iterator
gives those up to `through`. -/
theorem yields_from (h : source.DensePrefix crates rows stored) {range : CapturedEventRange}
    (hrange : range.throughInclusive.get ≤ stored.length) (n i : Nat) (page : List CapturedEvent)
    (hi : i + n = range.throughInclusive.get) (hpage : page <+: capture crates (stored.drop i)) :
    Yields (FiniteEventIter.next crates source) ⟨range, range.place (i + 1), page⟩
      ((capture crates ((stored.take range.throughInclusive.get).drop i)).map .ok) := by
  induction n generalizing i page with
  | zero =>
    rw [List.drop_eq_nil_of_le (by rw [List.length_take]; omega), CapturedEventRange.place,
      if_pos (by omega)]
    exact FiniteEventIter.yields_none
  | succ n ih =>
    have hlt : i < stored.length := by omega
    -- one event, whatever follows it in its page
    have hstep : ∀ events : List CapturedEvent, events ≠ [] →
        events <+: capture crates (stored.drop i) →
        Yields (FiniteEventIter.next crates source) ⟨range, some (i + 1), events⟩
          ((capture crates ((stored.take range.throughInclusive.get).drop i)).map .ok) := by
      intro events hne hprefix
      rw [List.drop_eq_getElem_cons hlt] at hprefix
      rw [List.drop_eq_getElem_cons (by rw [List.length_take]; omega), List.getElem_take]
      rcases events with _ | ⟨event, events⟩
      · exact absurd rfl hne
      · obtain ⟨rfl, hrest⟩ := List.cons_prefix_cons.mp hprefix
        refine .item ?_ (ih (i + 1) events (by omega) hrest)
        have hsequence : (⟨stored[i], (stored[i]).toVec crates⟩ : CapturedEvent).sequence.get =
            i + 1 := h.sequence_getElem hlt
        rw [FiniteEventIter.next_cons, FiniteEventIter.takeEvent_right hsequence (by omega)]
    rw [place_of_le (by omega)]
    rcases page with _ | ⟨event, events⟩
    · obtain ⟨read, hread, hevents⟩ := h.readEventPage_ok hlt
      have hne : read.events ≠ [] := by
        rw [hevents, Ne, ← List.length_eq_zero_iff, List.length_take, length_capture,
          List.length_drop, capturedEventPageSize]
        omega
      have hyields := hstep read.events hne (hevents ▸ List.take_prefix _ _)
      rw [List.drop_eq_getElem_cons (by rw [List.length_take]; omega)] at hyields ⊢
      exact hyields.congr_next (FiniteEventIter.next_page range (Nat.succ_pos i) hread hne)
    · exact hstep _ (List.cons_ne_nil _ _) hpage

/-- The events a query asks for: those within its resolved bounds. -/
def asked (query : FiniteEventQuery) (source : CapturedEventSource ε)
    (stored : List DiagnosticEvent) : List DiagnosticEvent :=
  (stored.take (query.resolve source.capturedWatermark).throughInclusive.get).drop
    (query.resolve source.capturedWatermark).afterExclusive.get

theorem yields (h : source.DensePrefix crates rows stored) (query : FiniteEventQuery) :
    ∃ iter, queryEvents source query = .ok iter ∧
      Yields (FiniteEventIter.next crates source) iter
        ((capture crates (asked query source stored)).map .ok) := by
  obtain ⟨-, hle, hthrough⟩ := resolve_bounds query source.capturedWatermark
  refine ⟨_, queryEvents_ok source query, ?_⟩
  exact h.yields_from (by rw [h.length]; exact hthrough) _ _ _ (Nat.add_sub_cancel' hle)
    List.nil_prefix

/-- The sequences asked for: `after + 1..through`. -/
theorem asked_sequences (h : source.DensePrefix crates rows stored) (query : FiniteEventQuery) :
    (asked query source stored).map (·.header.sequence.get) =
      List.range' ((query.resolve source.capturedWatermark).afterExclusive.get + 1)
        ((query.resolve source.capturedWatermark).throughInclusive.get -
          (query.resolve source.capturedWatermark).afterExclusive.get) := by
  obtain ⟨-, -, hthrough⟩ := resolve_bounds query source.capturedWatermark
  have hlength := h.length
  rw [asked, List.map_drop, List.map_take, h.sequence]
  refine List.ext_getElem ?_ fun i _ _ => ?_
  · simp only [List.length_drop, List.length_take, List.length_range']
    omega
  · simp only [List.getElem_drop, List.getElem_take, List.getElem_range']
    omega

/-- Filtering the whole prefix by the bounds gives the same events. -/
theorem asked_eq_filter (h : source.DensePrefix crates rows stored) (query : FiniteEventQuery) :
    capture crates (asked query source stored) =
      (capture crates stored).filter fun event =>
        (query.resolve source.capturedWatermark).afterExclusive.get < event.sequence.get &&
          event.sequence.get ≤ (query.resolve source.capturedWatermark).throughInclusive.get := by
  obtain ⟨-, hle, hthrough⟩ := resolve_bounds query source.capturedWatermark
  unfold asked
  generalize (query.resolve source.capturedWatermark).afterExclusive.get = after at hle ⊢
  generalize (query.resolve source.capturedWatermark).throughInclusive.get = through at hle ⊢
  have hsplit : stored = stored.take after ++
      ((stored.take through).drop after ++ stored.drop through) := by
    have hmin : (stored.take through).take after = stored.take after := by
      rw [List.take_take, Nat.min_eq_left hle]
    rw [← List.append_assoc, ← hmin, List.take_append_drop, List.take_append_drop]
  conv_rhs => rw [hsplit]
  simp only [capture, List.filter_map, List.filter_append, List.map_append]
  rw [List.filter_eq_nil_iff.mpr ?_, List.filter_eq_self.mpr ?_, List.filter_eq_nil_iff.mpr ?_]
  · simp
  · intro event hevent
    obtain ⟨i, hi, rfl⟩ := List.mem_drop_iff_getElem.mp hevent
    have hsequence := h.sequence_getElem (i := through + i) (by omega)
    simp only [Function.comp, CapturedEvent.sequence, hsequence, Bool.and_eq_true,
      decide_eq_true_eq]
    omega
  · intro event hevent
    obtain ⟨i, hi, rfl⟩ := List.mem_drop_iff_getElem.mp hevent
    rw [List.length_take] at hi
    have hsequence := h.sequence_getElem (i := after + i) (by omega)
    simp only [Function.comp, CapturedEvent.sequence, List.getElem_take, hsequence,
      Bool.and_eq_true, decide_eq_true_eq]
    omega
  · intro event hevent
    obtain ⟨i, hi, rfl⟩ := List.mem_take_iff_getElem.mp hevent
    have hsequence := h.sequence_getElem (i := i) (by omega)
    simp only [Function.comp, CapturedEvent.sequence, hsequence, Bool.and_eq_true,
      decide_eq_true_eq]
    omega

/-- A tail of `n` events: the last `min n W`. -/
theorem asked_tail (h : source.DensePrefix crates rows stored) (count : SchemaU64) :
    asked (.tail count) source stored <:+ stored ∧
      (asked (.tail count) source stored).length = min count.get source.capturedWatermark.get := by
  have hlength := h.length
  have htake : stored.take source.capturedWatermark.get = stored :=
    List.take_of_length_le (by omega)
  dsimp only [asked, FiniteEventQuery.resolve]
  rw [htake, List.length_drop]
  exact ⟨List.drop_suffix _ _, by omega⟩

end CapturedEventSource.DensePrefix

/-! ## Any store -/

section Damage

variable {ε : Type} (crates : Crates) (source : CapturedEventSource ε)

/-- Pages read one after another, the first at sequence `expected`: no page is empty, and their
events are the next ones, in order. -/
inductive RightPages : Nat → List CapturedEvent → Prop
  | nil (expected : Nat) : RightPages expected []
  | page {expected : Nat} {page : CapturedEventPage} {events : List CapturedEvent}
      (read : source.readEventPage crates (expected - 1) = .ok page) (some : page.events ≠ [])
      (inTurn : page.events.map (·.sequence.get) = List.range' expected page.events.length)
      (rest : RightPages (expected + page.events.length) events) :
      RightPages expected (page.events ++ events)

/-- The page read at sequence `expected` is damaged after the events `good`, which the error says. -/
inductive DamagedPage (expected : Nat) : List CapturedEvent → EventQueryError ε → Prop
  /-- The page, one of its rows or one of its events could not be read. -/
  | unread {error : ReaderFailure ε}
      (read : source.readEventPage crates (expected - 1) = .error error) :
      DamagedPage expected [] (.reader error)
  /-- No row is left. -/
  | missing {page : CapturedEventPage} (read : source.readEventPage crates (expected - 1) = .ok page)
      (empty : page.events = []) :
      DamagedPage expected [] (.nonDenseSequence source.profile expected none)
  /-- The row after `good` is another one than the next. -/
  | outOfTurn {page : CapturedEventPage} {good rest : List CapturedEvent} {bad : CapturedEvent}
      (read : source.readEventPage crates (expected - 1) = .ok page)
      (events : page.events = good ++ bad :: rest)
      (inTurn : good.map (·.sequence.get) = List.range' expected good.length)
      (wrong : bad.sequence.get ≠ expected + good.length) :
      DamagedPage expected good
        (.nonDenseSequence source.profile (expected + good.length) (some bad.sequence))

section

variable {crates source} {range : CapturedEventRange} {expected : Nat}

/-- A damaged page gives its right start, one error and nothing more, when the damage lies within
the bounds. -/
theorem DamagedPage.yields {good : List CapturedEvent} {error : EventQueryError ε}
    (h : DamagedPage crates source expected good error) (hpos : 0 < expected)
    (hle : expected + good.length ≤ range.throughInclusive.get) :
    Yields (FiniteEventIter.next crates source) ⟨range, some expected, []⟩
      (good.map .ok ++ [.error error]) := by
  cases h with
  | unread read =>
    exact .item (FiniteEventIter.next_unread hpos read) FiniteEventIter.yields_none
  | missing read empty =>
    exact .item (FiniteEventIter.next_missing hpos read empty) FiniteEventIter.yields_none
  | @outOfTurn page good rest bad read events inTurn wrong =>
    have hne : page.events ≠ [] := by
      rw [events]
      exact List.append_ne_nil_of_right_ne_nil _ (List.cons_ne_nil _ _)
    have hyields : Yields (FiniteEventIter.next crates source)
        ⟨range, range.place expected, good ++ bad :: rest⟩ (good.map .ok ++ [.error
          (.nonDenseSequence source.profile (expected + good.length) (some bad.sequence))]) := by
      refine FiniteEventIter.yields_right inTurn (by omega) ?_
      rw [place_of_le hle]
      exact .item (by rw [FiniteEventIter.next_cons, FiniteEventIter.takeEvent_wrong wrong])
        FiniteEventIter.yields_none
    rw [place_of_le (by omega), ← events] at hyields
    have hnext := FiniteEventIter.next_page range hpos read hne
    rcases good with _ | ⟨first, good⟩
    · exact hyields.congr_next hnext
    · exact hyields.congr_next hnext

/-- Right pages are passed on, then the damaged one. -/
theorem yields_damaged {pages good : List CapturedEvent} {error : EventQueryError ε}
    (hpages : RightPages crates source expected pages) (hpos : 0 < expected)
    (hdamaged : DamagedPage crates source (expected + pages.length) good error)
    (hle : expected + pages.length + good.length ≤ range.throughInclusive.get) :
    Yields (FiniteEventIter.next crates source) ⟨range, some expected, []⟩
      ((pages ++ good).map .ok ++ [.error error]) := by
  induction hpages with
  | nil expected => exact hdamaged.yields hpos hle
  | @page expected page events read some inTurn rest ih =>
    rw [List.length_append] at hle hdamaged
    have hrest := ih (by omega) (by rwa [Nat.add_assoc]) (by omega)
    have hyields : Yields (FiniteEventIter.next crates source)
        ⟨range, range.place expected, page.events ++ []⟩
          (page.events.map .ok ++ ((events ++ good).map .ok ++ [.error error])) := by
      refine FiniteEventIter.yields_right inTurn (by omega) ?_
      rwa [place_of_le (by omega)]
    rw [place_of_le (by omega), List.append_nil] at hyields
    rw [List.append_assoc, List.map_append, List.append_assoc]
    have hnext := FiniteEventIter.next_page range hpos read some
    rcases hevents : page.events with _ | ⟨event, rest⟩
    · exact absurd hevents some
    · rw [hevents] at hyields hnext
      exact hyields.congr_next hnext

end

/-- An event of a page that the store answered. -/
def Served (event : CapturedEvent) : Prop :=
  ∃ after page, source.readEventPage crates after = .ok page ∧ event ∈ page.events

/-- A query's items from sequence `expected` on: events in turn, up to the last one or to the first
error, which ends them. -/
structure Answered (range : CapturedEventRange) (expected : Nat) (good : List CapturedEvent)
    (failure : Option (EventQueryError ε)) : Prop where
  inTurn : good.map (·.sequence.get) = List.range' expected good.length
  served : ∀ event ∈ good, Served crates source event
  complete : failure = none → expected + good.length = range.throughInclusive.get + 1
  early : failure.isSome → expected + good.length ≤ range.throughInclusive.get

/-- The items of `good` and the error, if there is one. -/
def itemsOf (good : List CapturedEvent) (failure : Option (EventQueryError ε)) :
    List (FiniteEventItem ε) :=
  good.map .ok ++ (failure.map .error).toList

variable {crates source}

/-- What one call does with an event: pass it on in its turn, or end. -/
theorem takeEvent_cases {range : CapturedEventRange} {expected : Nat} {event : CapturedEvent} {page : List CapturedEvent}
    {nextSequence : Option Nat} {held : List CapturedEvent}
    (hle : expected ≤ range.throughInclusive.get) (hserved : Served crates source event) :
    (∃ error, FiniteEventIter.takeEvent source ⟨range, nextSequence, held⟩ expected event page =
      .ok (some (.error error), ⟨range, none, []⟩)) ∨
    (event.sequence.get = expected ∧ Served crates source event ∧
      FiniteEventIter.takeEvent source ⟨range, nextSequence, held⟩ expected event page =
        .ok (some (.ok event), ⟨range, range.place (expected + 1), page⟩)) := by
  by_cases hevent : event.sequence.get = expected
  · exact .inr ⟨hevent, hserved, FiniteEventIter.takeEvent_right hevent hle⟩
  · exact .inl ⟨_, FiniteEventIter.takeEvent_wrong hevent⟩

/-- What one call does: end with one error, or give the next event, from a page of the store. -/
theorem next_cases (range : CapturedEventRange) {expected : Nat} {page : List CapturedEvent} (hpos : 0 < expected)
    (hle : expected ≤ range.throughInclusive.get)
    (hpage : ∀ event ∈ page, Served crates source event) :
    (∃ error, FiniteEventIter.next crates source ⟨range, some expected, page⟩ =
      .ok (some (.error error), ⟨range, none, []⟩)) ∨
    ∃ event rest, event.sequence.get = expected ∧ Served crates source event ∧
      (∀ event ∈ rest, Served crates source event) ∧
      FiniteEventIter.next crates source ⟨range, some expected, page⟩ =
        .ok (some (.ok event), ⟨range, range.place (expected + 1), rest⟩) := by
  have hcons : ∀ event events, (∀ held ∈ event :: events, Served crates source held) →
      (∃ error, FiniteEventIter.next crates source ⟨range, some expected, event :: events⟩ =
        .ok (some (.error error), ⟨range, none, []⟩)) ∨
      ∃ event' rest, event'.sequence.get = expected ∧ Served crates source event' ∧
        (∀ held ∈ rest, Served crates source held) ∧
        FiniteEventIter.next crates source ⟨range, some expected, event :: events⟩ =
          .ok (some (.ok event'), ⟨range, range.place (expected + 1), rest⟩) := by
    intro event events hevents
    obtain ⟨hevent, hrest⟩ := List.forall_mem_cons.mp hevents
    rw [FiniteEventIter.next_cons]
    rcases takeEvent_cases hle hevent with herror | ⟨hsequence, hserved, hnext⟩
    · exact .inl herror
    · exact .inr ⟨event, events, hsequence, hserved, hrest, hnext⟩
  rcases page with _ | ⟨event, events⟩
  · rcases hread : source.readEventPage crates (expected - 1) with error | page
    · exact .inl ⟨_, FiniteEventIter.next_unread hpos hread⟩
    · by_cases hempty : page.events = []
      · exact .inl ⟨_, FiniteEventIter.next_missing hpos hread hempty⟩
      · rw [FiniteEventIter.next_page range hpos hread hempty]
        have hserved : ∀ event ∈ page.events, Served crates source event :=
          fun event hevent => ⟨_, page, hread, hevent⟩
        rcases hevents : page.events with _ | ⟨event, events⟩
        · exact absurd hevents hempty
        · exact hcons event events (hevents ▸ hserved)
  · exact hcons event events hpage

/-- **Whatever the store answers**: events in turn, then the end or one error and the end. -/
theorem yields_any {range : CapturedEventRange} (n expected : Nat) (page : List CapturedEvent) (hpos : 0 < expected)
    (hn : expected + n = range.throughInclusive.get + 1)
    (hpage : ∀ event ∈ page, Served crates source event) :
    ∃ good failure, Answered crates source range expected good failure ∧
      Yields (FiniteEventIter.next crates source) ⟨range, range.place expected, page⟩
        (itemsOf good failure) := by
  induction n generalizing expected page with
  | zero =>
    refine ⟨[], none, ⟨rfl, List.forall_mem_nil _, fun _ => hn, fun hsome => ?_⟩, ?_⟩
    · exact absurd hsome Bool.false_ne_true
    rw [CapturedEventRange.place, if_pos (by omega)]
    exact FiniteEventIter.yields_none
  | succ n ih =>
    rw [place_of_le (by omega)]
    rcases next_cases range hpos (by omega) hpage with
      ⟨error, hnext⟩ | ⟨event, rest, hsequence, hserved, hrest, hnext⟩
    · refine ⟨[], some error, ⟨rfl, List.forall_mem_nil _, fun hnone => ?_, fun _ => ?_⟩, ?_⟩
      · exact absurd hnone (Option.some_ne_none error)
      · rw [List.length_nil]
        omega
      · exact .item hnext FiniteEventIter.yields_none
    · obtain ⟨good, failure, hanswered, hyields⟩ :=
        ih (expected + 1) rest (Nat.succ_pos _) (by omega) hrest
      refine ⟨event :: good, failure, ⟨?_, ?_, ?_, ?_⟩, .item hnext hyields⟩
      · rw [List.map_cons, List.length_cons, List.range'_succ, hsequence, hanswered.inTurn]
      · exact List.forall_mem_cons.mpr ⟨hserved, hanswered.served⟩
      · intro hnone
        have := hanswered.complete hnone
        rw [List.length_cons]
        omega
      · intro hsome
        have := hanswered.early hsome
        rw [List.length_cons]
        omega

end Damage

/-! ## The queries -/

open CapturedEventSource (capture)

section Queries

variable {ε : Type}

/-- **A finite event query over a captured store.** The bounds are in order within the watermark and
no arithmetic overflows; a dense prefix gives exactly its events within them, which are those of the
iterator over the whole prefix, and a tail is the end of the prefix; any other store gives events in
turn and at most one error, and a damage at a place the query reaches gives the events before it and
that error. -/
theorem finite_query_exact (crates : Crates) (source : CapturedEventSource ε)
    (query : FiniteEventQuery) :
    let range := query.resolve source.capturedWatermark
    let first := range.afterExclusive.get + 1
    (range.afterExclusive.get ≤ range.throughInclusive.get ∧
      range.throughInclusive.get ≤ source.capturedWatermark.get) ∧
    ∃ iter, queryEvents source query = .ok iter ∧ iter.range = range ∧
      (∀ rows stored, source.DensePrefix crates rows stored →
        ∃ events : List DiagnosticEvent,
          Yields (FiniteEventIter.next crates source) iter ((capture crates events).map .ok) ∧
          events.map (·.header.sequence.get) =
            List.range' first (range.throughInclusive.get - range.afterExclusive.get) ∧
          Yields (source.capturedNext crates) source.events ((capture crates stored).map .ok) ∧
          capture crates events = (capture crates stored).filter (fun event =>
            range.afterExclusive.get < event.sequence.get &&
              event.sequence.get ≤ range.throughInclusive.get) ∧
          ∀ count, query = .tail count →
            events <:+ stored ∧ events.length = min count.get source.capturedWatermark.get) ∧
      (∃ good failure, Answered crates source range first good failure ∧
        Yields (FiniteEventIter.next crates source) iter (itemsOf good failure)) ∧
      ∀ pages good error, RightPages crates source first pages →
        DamagedPage crates source (first + pages.length) good error →
        first + pages.length + good.length ≤ range.throughInclusive.get →
        Yields (FiniteEventIter.next crates source) iter
          ((pages ++ good).map .ok ++ [.error error]) := by
  intro range first
  obtain ⟨-, hle, hthrough⟩ := resolve_bounds query source.capturedWatermark
  have hfirst : 0 < first := Nat.succ_pos _
  refine ⟨⟨hle, hthrough⟩, ⟨range, range.place first, []⟩, queryEvents_ok source query, rfl,
    ?_, ?_, ?_⟩
  · intro rows stored h
    obtain ⟨iter, hiter, hyields⟩ := h.yields query
    rw [queryEvents_ok source query, Except.ok.injEq] at hiter
    subst hiter
    refine ⟨_, hyields, h.asked_sequences query, h.capturedNext_yields, h.asked_eq_filter query, ?_⟩
    rintro count rfl
    exact h.asked_tail count
  · exact yields_any (range.throughInclusive.get - range.afterExclusive.get) first [] hfirst
      (by dsimp only [first, range]; omega) (List.forall_mem_nil _)
  · intro pages good error hpages hdamaged hreach
    rw [place_of_le (by omega)]
    exact yields_damaged hpages hfirst hdamaged hreach

end Queries

/-- An instant of run 1. -/
def instant (sequence : SchemaU64) (h : 0 < sequence.get) : DiagnosticEvent :=
  .instantOccurred ⟨.at sequence 0 [] h, .cueAdmitted, none⟩

theorem instant_reads (sequence : SchemaU64) (h : 0 < sequence.get) :
    DiagnosticEvent.fromSlice plainCrates ((instant sequence h).toVec plainCrates) =
      .ok (instant sequence h) :=
  (fromSlice_toVec_iff plainCrates _).mpr nofun

/-- The row of an instant, under a key of its own. -/
noncomputable def instantRow (key : Nat) (sequence : SchemaU64) (h : 0 < sequence.get) : EventRow :=
  ⟨key, (instant sequence h).toVec plainCrates⟩

/-- A capture of run 1. -/
noncomputable def capturedRows (rows : List EventRow) (watermark : SchemaU64) :
    CapturedEventSource Empty :=
  ⟨.ofRows rows, ⟨1⟩, watermark, .active, "diagnostics.sqlite3"⟩

/-- Two events, the later row stored first. -/
noncomputable def twoRows : List EventRow := [instantRow 2 2 SchemaU64.two_pos, instantRow 1 1 SchemaU64.one_pos]

theorem twoRows_dense : (capturedRows twoRows 2).DensePrefix plainCrates twoRows
    [instant 1 (by decide), instant 2 (by decide)] where
  connection := rfl
  keys := by decide
  pos := by simp [twoRows, instantRow]
  length := rfl
  row := by
    intro event hevent
    rcases List.mem_cons.mp hevent with rfl | hevent
    · exact .tail _ (.head _)
    · rw [List.mem_singleton.mp hevent]
      exact .head _
  sequence := rfl
  runId := by simp [instant, DiagnosticEvent.header, DiagnosticEventHeader.at, capturedRows]
  reads := by
    intro event hevent
    rcases List.mem_cons.mp hevent with rfl | hevent
    · exact instant_reads _ _
    · rw [List.mem_singleton.mp hevent]
      exact instant_reads _ _

/-- The last event of two. -/
theorem finite_query_exact_tail :
    ∃ iter, queryEvents (capturedRows twoRows 2) (.tail 1) = .ok iter ∧
      ∃ events : List DiagnosticEvent, events.map (·.header.sequence.get) = [2] ∧
        Yields (FiniteEventIter.next plainCrates (capturedRows twoRows 2)) iter
          ((capture plainCrates events).map .ok) := by
  obtain ⟨-, iter, hiter, -, hdense, -⟩ :=
    finite_query_exact plainCrates (capturedRows twoRows 2) (.tail 1)
  obtain ⟨events, hyields, hsequences, -⟩ := hdense twoRows _ twoRows_dense
  exact ⟨iter, hiter, events, hsequences, hyields⟩

/-- Three rows, the last of which holds another event with sequence 2. -/
noncomputable def misplacedRows : List EventRow :=
  [instantRow 1 1 SchemaU64.one_pos, instantRow 2 2 SchemaU64.two_pos, instantRow 3 2 SchemaU64.two_pos]

theorem decode_instant (rows : List EventRow) {watermark sequence : SchemaU64}
    (h : 0 < sequence.get) (hle : sequence.get ≤ watermark.get) :
    (capturedRows rows watermark).decodeEvent plainCrates
        ((instant sequence h).toVec plainCrates) =
      .ok ⟨instant sequence h, (instant sequence h).toVec plainCrates⟩ := by
  unfold CapturedEventSource.decodeEvent
  rw [instant_reads]
  dsimp only
  rw [if_neg]
  rintro (hrun | hzero | hbeyond | hbytes)
  · exact hrun rfl
  · exact absurd hzero (Nat.ne_of_gt h)
  · exact absurd hle (Nat.not_le.mpr hbeyond)
  · exact hbytes rfl

theorem misplaced_page :
    (capturedRows misplacedRows 3).readEventPage plainCrates 0 =
      .ok ⟨capture plainCrates [instant 1 (by decide), instant 2 (by decide),
        instant 2 (by decide)], some 2⟩ := by
  have hselect : (capturedRows misplacedRows 3).connection.selectPage 0
      (capturedRows misplacedRows 3).capturedWatermark.get capturedEventPageSize =
        .ok (misplacedRows.map fun row => .ok row.canonicalJson) := by
    have hsorted : misplacedRows.mergeSort EventRow.before = misplacedRows :=
      List.mergeSort_of_pairwise (by simp [misplacedRows, instantRow, EventRow.before])
    change Except.ok (((misplacedRows.mergeSort EventRow.before).take capturedEventPageSize).map
      fun row => Except.ok row.canonicalJson) = _
    rw [hsorted]
    rfl
  have hread : ∀ (sequence : SchemaU64) (h : 0 < sequence.get), sequence.get ≤ 3 →
      (capturedRows misplacedRows 3).readRow plainCrates
          (.ok ((instant sequence h).toVec plainCrates)) =
        .ok ⟨instant sequence h, (instant sequence h).toVec plainCrates⟩ :=
    fun sequence h hle => decode_instant misplacedRows h hle
  refine CapturedEventSource.readEventPage_eq (by decide) hselect ?_
  simp only [misplacedRows, instantRow, List.map_cons, List.map_nil, List.mapM_cons, List.mapM_nil]
  simp only [misplacedRows, instantRow] at hread
  rw [hread 1 (by decide) (by decide), hread 2 (by decide) (by decide)]
  rfl

/-- The first page of this store has a row out of turn, and a query for the first event alone does
not notice it: it gives that event and ends. -/
theorem misplaced_row_unseen :
    ∃ page iter, (capturedRows misplacedRows 3).readEventPage plainCrates 0 = .ok page ∧
      page.events.map (·.sequence.get) = [1, 2, 2] ∧
      queryEvents (capturedRows misplacedRows 3) (.range 0 1) = .ok iter ∧
      Yields (FiniteEventIter.next plainCrates (capturedRows misplacedRows 3)) iter
        ((capture plainCrates [instant 1 (by decide)]).map .ok) := by
  refine ⟨_, _, misplaced_page, rfl, queryEvents_ok _ _, ?_⟩
  have hnext : FiniteEventIter.next plainCrates (capturedRows misplacedRows 3)
      ⟨FiniteEventQuery.resolve (.range 0 1) 3, some 1, []⟩ =
        .ok (some (.ok ⟨instant 1 (by decide), (instant 1 (by decide)).toVec plainCrates⟩),
          ⟨FiniteEventQuery.resolve (.range 0 1) 3, none,
            capture plainCrates [instant 2 (by decide), instant 2 (by decide)]⟩) := by
    rw [FiniteEventIter.next_page _ (by decide) misplaced_page (List.cons_ne_nil _ _)]
    exact FiniteEventIter.takeEvent_right rfl (by decide)
  exact .item hnext FiniteEventIter.yields_none

end Troupe.Query
