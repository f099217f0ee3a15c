import Troupe.Perfetto.Catalog
import Troupe.Store.Projector.Counters

/-! # Identities of tracks and series

Which tracks of a trace are one. The exporter names a track by a text it concatenates from what the
track shows; the names and dimensions in it are whatever a production gives.

* `CounterSeries`, `SpanRole` and `TraceTrack` are what the exporter makes identities of, and
  `identity` calls the functions that make them.
* `CounterSeries.identity_injective`: a series is read back from its text. A component carries its
  length, and the alternative without one, `none` for a missing unit, begins with a letter.
* The path of a scope ends where the tag of the next step is none of a scope (`scopeTail_inj`).

Headline result: **`identities_separate`**. -/

namespace Troupe.Perfetto

open Troupe.Lib Troupe.Core Troupe.Store

/-! ## Series -/

/-- The series of counters of a trace. -/
inductive CounterSeries where
  | builtIn (kind : CounterKind)
  | custom (name : String) (unit : Option String) (dimensions : DiagnosticDimensions)
  | contextUsed
  | contextWindow
  | contextCost (currency : CurrencyCode)
  | usage (field : UsageField)
  | coverage (counter : Fin usageCoverageCounters.length)

/-- The identity of a series. -/
def CounterSeries.identity : CounterSeries → String
  | builtIn kind => builtinCounterSeries kind.asStr
  | custom name unit dimensions => customCounterSeries name unit dimensions
  | contextUsed => contextCounterSeries "used_tokens"
  | contextWindow => contextCounterSeries "window_tokens"
  | contextCost currency => contextCostSeries currency.value
  | usage field => usageCounterSeries field.asStr
  | coverage counter => usageCoverageSeries (usageCoverageCounters.get counter)

theorem component_begins (value : String) : ∃ c rest, (component value).toList = c :: rest ∧
    c.isDigit = true := by
  unfold component
  have hdigits := toString_all_isDigit value.utf8ByteSize
  have hne : (toString value.utf8ByteSize).toList ≠ [] := by
    rw [toList_toString]
    exact Nat.toDigits_ne_nil
  obtain ⟨c, rest, hlist⟩ := List.exists_cons_of_ne_nil hne
  refine ⟨c, rest ++ ":".toList ++ value.toList, ?_, ?_⟩
  · simp only [String.toList_append, hlist, List.cons_append]
  · rw [hlist, List.all_cons, Bool.and_eq_true] at hdigits
    exact hdigits.1

theorem component_ne_empty (value : String) : component value ≠ "" := by
  obtain ⟨c, rest, hlist, -⟩ := component_begins value
  intro h
  rw [h] at hlist
  cases hlist

/-- The text of a unit shows where it ends, also when there is none. -/
theorem unit_inj {unit unit' : Option String} {x y : String}
    (h : (unit.map component).getD "none" ++ x = (unit'.map component).getD "none" ++ y) :
    unit = unit' ∧ x = y := by
  have hnone (value x y : String) : component value ++ x ≠ "none" ++ y := by
    intro hsame
    obtain ⟨c, rest, hlist, hdigit⟩ := component_begins value
    have hhead := congrArg (fun text => text.toList.head?) hsame
    simp only [String.toList_append, hlist] at hhead
    cases hhead
    exact absurd hdigit (by decide)
  cases unit with
  | none =>
    cases unit' with
    | none => exact ⟨rfl, append_left_inj_text h⟩
    | some value => exact absurd h.symm (hnone value y x)
  | some value =>
    cases unit' with
    | none => exact absurd h (hnone value x y)
    | some value' =>
      obtain ⟨rfl, hrest⟩ := component_inj h
      exact ⟨rfl, hrest⟩

/-- The type of a dimension is told by what its text begins with. -/
theorem dimensionValue_injective : Function.Injective dimensionValue := by
  intro a b h
  cases a <;> cases b
  case boolean.boolean value value' =>
    cases value <;> cases value' <;> first | rfl | exact absurd h (by decide)
  case integer.integer value value' =>
    cases value; cases value'
    cases append_left_inj_text h
    rfl
  case decimal.decimal value value' =>
    cases value; cases value'
    cases append_left_inj_text h
    rfl
  case string.string => rw [component_injective (append_left_inj_text h)]
  all_goals exact absurd h (append_ne (by decide))

/-- The text of a dimension. -/
def dimensionText (entry : String × DiagnosticDimension) : String :=
  component entry.1 ++ "=" ++ component (dimensionValue entry.2)

theorem dimensionText_selfDelimiting : SelfDelimiting dimensionText := by
  rintro ⟨key, value⟩ ⟨key', value'⟩ x y h
  simp only [dimensionText, String.append_assoc] at h
  obtain ⟨rfl, hrest⟩ := component_inj h
  obtain ⟨hvalue, hmore⟩ := component_inj (append_left_inj_text hrest)
  exact ⟨Prod.ext rfl (dimensionValue_injective hvalue), hmore⟩

theorem dimensionText_ne_empty (entry : String × DiagnosticDimension) : dimensionText entry ≠ "" := by
  intro h
  simp only [dimensionText, String.append_eq_empty_iff] at h
  exact component_ne_empty _ h.2

theorem customCounterSeries_eq (name : String) (unit : Option String)
    (dimensions : DiagnosticDimensions) :
    customCounterSeries name unit dimensions = "custom:" ++ (component name ++ ("|unit:" ++
      ((unit.map component).getD "none" ++ ("|dimensions:" ++
        component (String.intercalate "," (dimensions.toList.map dimensionText)))))) := by
  change "custom:" ++ component name ++ "|unit:" ++ (unit.map component).getD "none" ++
    "|dimensions:" ++ component (String.intercalate "," (dimensions.toList.map dimensionText)) = _
  simp only [String.append_assoc]

/-- **A custom series is read back from its text.** -/
theorem customCounterSeries_inj {name name' : String} {unit unit' : Option String}
    {dimensions dimensions' : DiagnosticDimensions}
    (h : customCounterSeries name unit dimensions = customCounterSeries name' unit' dimensions') :
    name = name' ∧ unit = unit' ∧ dimensions = dimensions' := by
  rw [customCounterSeries_eq, customCounterSeries_eq] at h
  obtain ⟨hname, hrest⟩ := component_inj (append_left_inj_text h)
  obtain ⟨hunit, hrest⟩ := unit_inj (append_left_inj_text hrest)
  have hdimensions := component_injective (append_left_inj_text hrest)
  exact ⟨hname, hunit, Std.ExtTreeMap.toList_inj.mp
    (dimensionText_selfDelimiting.intercalate_injective dimensionText_ne_empty "," hdimensions)⟩

/-- What the identity of a series begins with. -/
def CounterSeries.family : CounterSeries → String
  | builtIn _ => "builtin:"
  | custom _ _ _ => "custom:"
  | contextUsed => "context:u"
  | contextWindow => "context:w"
  | contextCost _ => "context:c"
  | usage _ => "usage:k"
  | coverage _ => "usage:c"

theorem begins_append {whole f r : String} (h : whole = f ++ r) (x : String) :
    ∃ rest, whole ++ x = f ++ rest := ⟨r ++ x, by rw [h, String.append_assoc]⟩

theorem CounterSeries.begins (series : CounterSeries) :
    ∃ rest, series.identity = series.family ++ rest := by
  cases series with
  | builtIn kind => exact ⟨_, rfl⟩
  | custom name unit dimensions => exact ⟨_, customCounterSeries_eq name unit dimensions⟩
  | contextUsed =>
    have htext : "context:" ++ "used_tokens" = "context:u" ++ "sed_tokens" := by decide +kernel
    exact ⟨_, htext⟩
  | contextWindow =>
    have htext : "context:" ++ "window_tokens" = "context:w" ++ "indow_tokens" := by decide +kernel
    exact ⟨_, htext⟩
  | contextCost currency => exact begins_append (f := "context:c") (r := "umulative_cost:") (by decide +kernel) _
  | usage field => exact begins_append (f := "usage:k") (r := "nown:") (by decide +kernel) _
  | coverage counter => exact begins_append (f := "usage:c") (r := "overage:") (by decide +kernel) _

/-- **A series is read back from its identity.** -/
theorem CounterSeries.identity_injective : Function.Injective CounterSeries.identity := by
  intro a b h
  have hfamily : ((a.family.toList.zip b.family.toList).any fun e => e.1 != e.2) = false := by
    obtain ⟨x, hx⟩ := a.begins
    obtain ⟨y, hy⟩ := b.begins
    rw [hx, hy] at h
    by_contra hdiffer
    exact append_ne (by simpa using hdiffer) h
  cases a <;> cases b
  case builtIn.builtIn => rw [CounterKind.asStr_injective (component_injective (append_left_inj_text h))]
  case custom.custom =>
    obtain ⟨rfl, rfl, rfl⟩ := customCounterSeries_inj h
    rfl
  case contextUsed.contextUsed => rfl
  case contextWindow.contextWindow => rfl
  case contextCost.contextCost currency currency' =>
    cases currency; cases currency'
    cases component_injective (append_left_inj_text h)
    rfl
  case usage.usage field field' =>
    have hname := append_left_inj_text h
    cases field <;> cases field' <;> first | rfl | exact absurd hname (by decide)
  case coverage.coverage counter counter' =>
    have hname := append_left_inj_text h
    have hinj : Function.Injective usageCoverageCounters.get :=
      List.nodup_iff_injective_get.mp (by decide)
    rw [hinj hname]
  all_goals exact absurd hfamily (by simp only [family]; decide)

/-! ## Tracks -/

/-- The role of a span. -/
inductive SpanRole where
  | builtIn (kind : SpanKind)
  | custom (name : String)

/-- The text of a role. -/
def SpanRole.text : SpanRole → String
  | builtIn kind => kind.asStr
  | custom name => "custom:" ++ name

/-- The tracks of a trace. -/
inductive TraceTrack where
  | metadata
  | scope (scope : DiagnosticScope)
  | counter (scope : DiagnosticScope) (series : CounterSeries)
  | span (scope : DiagnosticScope) (role : SpanRole) (lane : Nat)

/-- The identity of a track. -/
def TraceTrack.identity : TraceTrack → String
  | .metadata => rootTrackIdentity ++ "/metadata"
  | .scope place => scopeTrackIdentity place
  | .counter place series => counterTrackIdentity (scopeTrackIdentity place) series.identity
  | .span place role lane => laneIdentity (scopeTrackIdentity place) role.text lane

theorem SpanRole.text_injective : Function.Injective SpanRole.text := by
  have hcustom (kind : SpanKind) (name : String) : kind.asStr ≠ "custom:" ++ name := by
    intro h
    have hprefix : ¬"custom:".toList.isPrefixOf kind.asStr.toList := by
      cases kind <;> decide +kernel
    rw [h] at hprefix
    exact hprefix (isPrefixOf_append _ _)
  intro a b h
  cases a with
  | builtIn kind =>
    cases b with
    | builtIn kind' =>
      rw [List.inj_on_of_nodup_map ClosedStringEnum.nodup (ClosedStringEnum.mem_all kind)
        (ClosedStringEnum.mem_all kind') h]
    | custom name => exact absurd h (hcustom kind name)
  | custom name =>
    cases b with
    | builtIn kind => exact absurd h.symm (hcustom kind name)
    | custom name' => rw [append_left_inj_text h]

/-- What an identity adds to the path of its scope: nothing, or a step whose tag is none of a
scope. -/
inductive ScopeTail : String → Prop
  | here : ScopeTail ""
  | step {tag rest : String} (h : tag ∈ ["metadata", "counter", "span"])
      (hrest : BeginsOutside isTagChar rest) : ScopeTail ("/" ++ (tag ++ rest))

theorem tailTags_all : ∀ tag ∈ ["metadata", "counter", "span"],
    tag.toList.all isTagChar = true := by
  decide +kernel

theorem tailStep_ne_empty (text : String) : "/" ++ text ≠ "" := by
  intro h
  have hlist := congrArg String.toList h
  simp at hlist

theorem ScopeTail.pathEnd {tail : String} (h : ScopeTail tail) : PathEnd tail := by
  cases h with
  | here => exact beginsOutside_empty
  | step _ _ =>
    exact beginsOutside_append (show ('/' != '/') = false by decide) (show "/".toList = ['/'] from rfl)

/-- A step into a scope is no tail. -/
theorem segment_ne_tail {tag label value x tail : String} (h : (tag, label) ∈ scopeTags)
    (htail : ScopeTail tail) : (segmentStep tag label value).text ++ x ≠ tail := by
  obtain ⟨htag, hmetadata, hcounter, hspan, -⟩ := scopeTags_spec _ h
  have htext : (segmentStep tag label value).text ++ x =
      "/" ++ (tag ++ (":" ++ (component value ++ x))) := by
    simp only [segmentStep, String.append_assoc]
  intro heq
  rw [htext] at heq
  cases htail with
  | here => exact tailStep_ne_empty _ heq
  | step hother hrest =>
    obtain ⟨hsame, -⟩ := tag_inj htag (tailTags_all _ hother) (colon_outside _) hrest heq
    simp only [List.mem_cons, List.not_mem_nil, or_false] at hother
    rcases hother with rfl | rfl | rfl
    · exact hmetadata hsame
    · exact hcounter hsame
    · exact hspan hsame

/-- The path goes through scopes only. -/
abbrev IsScopePath (path : List TrackStep) : Prop :=
  ∀ step ∈ path, ∃ tag label value, (tag, label) ∈ scopeTags ∧ step = segmentStep tag label value

theorem scopePath_isScopePath (scope : DiagnosticScope) : IsScopePath (scopePath scope) := by
  intro step hmem
  obtain ⟨⟨tag, value, label⟩, hsegment, rfl⟩ := List.mem_map.mp hmem
  exact ⟨tag, label, value, scopeSegments_tags scope _ hsegment, rfl⟩

theorem IsScopePath.isPath {path : List TrackStep} (h : IsScopePath path) : IsPath "" path := by
  intro step hmem
  obtain ⟨tag, label, value, htag, rfl⟩ := h step hmem
  exact .segment htag value

theorem pathTail_end {path : List TrackStep} (h : IsScopePath path) {tail : String}
    (htail : ScopeTail tail) : PathEnd (pathText path ++ tail) := by
  cases path with
  | nil =>
    rw [pathText, String.empty_append]
    exact htail.pathEnd
  | cons step rest =>
    obtain ⟨more, htext⟩ := (h.isPath step List.mem_cons_self).begins
    rw [pathText, htext, String.append_assoc, String.append_assoc]
    exact beginsOutside_append (show ('/' != '/') = false by decide) (show "/".toList = ['/'] from rfl)

theorem pathTail_inj {path path' : List TrackStep} {tail tail' : String} (hpath : IsScopePath path)
    (hpath' : IsScopePath path') (htail : ScopeTail tail) (htail' : ScopeTail tail')
    (h : pathText path ++ tail = pathText path' ++ tail') : path = path' ∧ tail = tail' := by
  induction path generalizing path' with
  | nil =>
    cases path' with
    | nil => exact ⟨rfl, by simpa [pathText] using h⟩
    | cons step rest =>
      obtain ⟨tag, label, value, htag, rfl⟩ := hpath' step List.mem_cons_self
      rw [pathText, pathText, String.append_assoc, String.empty_append] at h
      exact absurd h.symm (segment_ne_tail htag htail)
  | cons step rest ih =>
    obtain ⟨hstep, hsteps⟩ := List.forall_mem_cons.mp hpath
    cases path' with
    | nil =>
      obtain ⟨tag, label, value, htag, rfl⟩ := hstep
      rw [pathText, pathText, String.append_assoc, String.empty_append] at h
      exact absurd h (segment_ne_tail htag htail')
    | cons step' rest' =>
      obtain ⟨hstep', hsteps'⟩ := List.forall_mem_cons.mp hpath'
      rw [pathText, pathText, String.append_assoc, String.append_assoc] at h
      obtain ⟨rfl, hrest⟩ := (hpath.isPath step List.mem_cons_self).inj
        (hpath'.isPath step' List.mem_cons_self) (pathTail_end hsteps htail)
        (pathTail_end hsteps' htail') h
      obtain ⟨rfl, hsame⟩ := ih hsteps hsteps' hrest
      exact ⟨rfl, hsame⟩

/-- **The identity of a scope shows where it ends.** -/
theorem scopeTail_inj {scope scope' : DiagnosticScope} {tail tail' : String}
    (htail : ScopeTail tail) (htail' : ScopeTail tail')
    (h : scopeTrackIdentity scope ++ tail = scopeTrackIdentity scope' ++ tail') :
    scope = scope' ∧ tail = tail' := by
  rw [scopeTrackIdentity_eq, scopeTrackIdentity_eq, identityOf, identityOf, String.append_assoc,
    String.append_assoc] at h
  obtain ⟨hpath, hsame⟩ := pathTail_inj (scopePath_isScopePath scope)
    (scopePath_isScopePath scope') htail htail' (append_left_inj_text h)
  exact ⟨scopePath_injective hpath, hsame⟩

/-- The scope a track is under; the metadata is under the run. -/
def TraceTrack.place : TraceTrack → DiagnosticScope
  | .metadata => .run
  | .scope place => place
  | .counter place _ => place
  | .span place _ _ => place

/-- What a track adds to the identity of its scope. -/
def TraceTrack.tail : TraceTrack → String
  | .metadata => "/" ++ ("metadata" ++ "")
  | .scope _ => ""
  | .counter _ series => "/" ++ ("counter" ++ (":" ++ component series.identity))
  | .span _ role lane =>
    "/" ++ ("span" ++ (":" ++ (component role.text ++ ("/lane:" ++ laneText lane))))

theorem TraceTrack.identity_eq (track : TraceTrack) :
    track.identity = scopeTrackIdentity track.place ++ track.tail := by
  cases track with
  | metadata => decide +kernel
  | scope place => exact String.append_empty.symm
  | counter place series =>
    simp only [identity, counterTrackIdentity, segmentIdentity, tail, TraceTrack.place,
      String.append_assoc]
  | span place role lane =>
    have htext : "/span:" = "/" ++ ("span" ++ ":") := by decide +kernel
    simp only [identity, laneIdentity, tail, TraceTrack.place, htext, String.append_assoc]

theorem TraceTrack.tail_isTail (track : TraceTrack) : ScopeTail track.tail := by
  cases track with
  | metadata => exact .step (by simp) beginsOutside_empty
  | scope place => exact .here
  | counter place series => exact .step (by simp) (colon_outside _)
  | span place role lane => exact .step (by simp) (colon_outside _)

/-- **A track is read back from its identity.** -/
theorem TraceTrack.identity_injective : Function.Injective TraceTrack.identity := by
  intro a b h
  rw [a.identity_eq, b.identity_eq] at h
  obtain ⟨hplace, htail⟩ := scopeTail_inj a.tail_isTail b.tail_isTail h
  have htags {tag tag' rest rest' : String} (htag : tag ∈ ["metadata", "counter", "span"])
      (htag' : tag' ∈ ["metadata", "counter", "span"]) (hrest : BeginsOutside isTagChar rest)
      (hrest' : BeginsOutside isTagChar rest')
      (heq : "/" ++ (tag ++ rest) = "/" ++ (tag' ++ rest')) : tag = tag' ∧ rest = rest' :=
    tag_inj (tailTags_all _ htag) (tailTags_all _ htag') hrest hrest' heq
  cases a <;> cases b
  case metadata.metadata => rfl
  case scope.scope => exact congrArg TraceTrack.scope hplace
  case counter.counter place series place' series' =>
    obtain ⟨-, hrest⟩ := htags (by simp) (by simp) (colon_outside _) (colon_outside _) htail
    have hseries := CounterSeries.identity_injective
      (component_injective (append_left_inj_text hrest))
    rw [hseries, show place = place' from hplace]
  case span.span place role lane place' role' lane' =>
    obtain ⟨-, hrest⟩ := htags (by simp) (by simp) (colon_outside _) (colon_outside _) htail
    obtain ⟨hrole, hlane⟩ := component_inj (append_left_inj_text hrest)
    rw [SpanRole.text_injective hrole, laneText_injective (append_left_inj_text hlane),
      show place = place' from hplace]
  case scope.metadata => exact absurd htail.symm (tailStep_ne_empty _)
  case scope.counter => exact absurd htail.symm (tailStep_ne_empty _)
  case scope.span => exact absurd htail.symm (tailStep_ne_empty _)
  case metadata.scope => exact absurd htail (tailStep_ne_empty _)
  case counter.scope => exact absurd htail (tailStep_ne_empty _)
  case span.scope => exact absurd htail (tailStep_ne_empty _)
  case metadata.counter =>
    exact absurd (htags (by simp) (by simp) beginsOutside_empty (colon_outside _) htail).1
      (by decide)
  case metadata.span =>
    exact absurd (htags (by simp) (by simp) beginsOutside_empty (colon_outside _) htail).1
      (by decide)
  case counter.metadata =>
    exact absurd (htags (by simp) (by simp) (colon_outside _) beginsOutside_empty htail).1
      (by decide)
  case span.metadata =>
    exact absurd (htags (by simp) (by simp) (colon_outside _) beginsOutside_empty htail).1
      (by decide)
  case counter.span =>
    exact absurd (htags (by simp) (by simp) (colon_outside _) (colon_outside _) htail).1 (by decide)
  case span.counter =>
    exact absurd (htags (by simp) (by simp) (colon_outside _) (colon_outside _) htail).1 (by decide)

/-- **Two tracks never share an identity**, nor do two series a key.

The identities of tracks are read back, so that the numbers a catalog gives them are one for one
track only; and the exporter's identities and the runtime's keys tell the same custom series apart. -/
theorem identities_separate :
    Function.Injective TraceTrack.identity ∧
      (∀ (ids : DenseIdentityMap) (a b : TraceTrack) (id : Nat),
        ids.id a.identity = .ok id → ids.id b.identity = .ok id → a = b) ∧
      ∀ (scope scope' : DiagnosticScope) (name name' : String) (unit unit' : Option String)
        (dimensions dimensions' : DiagnosticDimensions),
        (canonicalSeriesKey (.custom scope name unit dimensions) =
            canonicalSeriesKey (.custom scope' name' unit' dimensions') ↔
          scope = scope' ∧ name = name' ∧ unit = unit' ∧ dimensions = dimensions') ∧
        (counterTrackIdentity (scopeTrackIdentity scope) (customCounterSeries name unit dimensions) =
            counterTrackIdentity (scopeTrackIdentity scope')
              (customCounterSeries name' unit' dimensions') ↔
          scope = scope' ∧ name = name' ∧ unit = unit' ∧ dimensions = dimensions') := by
  refine ⟨TraceTrack.identity_injective, fun ids a b id ha hb => ?_,
    fun scope scope' name name' unit unit' dimensions dimensions' => ⟨⟨fun h => ?_, ?_⟩,
      ⟨fun h => ?_, ?_⟩⟩⟩
  · refine TraceTrack.identity_injective ?_
    unfold DenseIdentityMap.id at ha hb
    split at ha
    · rename_i hmem
      split at hb
      · cases ha
        exact ((List.idxOf_inj hmem).mp (Nat.succ.inj (Except.ok.inj hb)).symm)
      · cases hb
    · cases ha
  · cases canonicalSeriesKey_injective h
    exact ⟨rfl, rfl, rfl, rfl⟩
  · rintro ⟨rfl, rfl, rfl, rfl⟩
    rfl
  · cases @TraceTrack.identity_injective (.counter scope (.custom name unit dimensions))
      (.counter scope' (.custom name' unit' dimensions')) h
    exact ⟨rfl, rfl, rfl, rfl⟩
  · rintro ⟨rfl, rfl, rfl, rfl⟩
    rfl

end Troupe.Perfetto
