import Troupe.Lib.Delimited
import Troupe.Perfetto.Collect

/-! # Identities as paths

The identity of a track is the text of a path of steps from the root: scopes, then a counter or a
lane. The text of a step shows where it ends, so an identity determines its path
(**`identityOf_inj`**), and with it the parent, the name, the depth and the kind of the track
(`definitionOf`). Registering a track under an identity that is known therefore never conflicts. -/

namespace Troupe.Perfetto

open Troupe.Lib Troupe.Core

/-! ## Numbers and components -/

theorem toList_toString (n : Nat) : (toString n).toList = Nat.toDigits 10 n := Nat.toList_repr

theorem toString_all_isDigit (n : Nat) : (toString n).toList.all Char.isDigit = true := by
  rw [toList_toString]
  exact List.all_eq_true.mpr toDigits_isDigit

theorem toString_nat_inj {a b : Nat} (h : toString a = toString b) : a = b := by
  have hdigits := congrArg String.toList h
  rw [toList_toString, toList_toString] at hdigits
  rw [← Nat.ofDigitChars_toDigits (b := 10) (n := a) (by decide) (by decide), hdigits,
    Nat.ofDigitChars_toDigits (by decide) (by decide)]

/-- **A component is read back from what it is put before.** -/
theorem component_inj {v w x y : String} (h : component v ++ x = component w ++ y) :
    v = w ∧ x = y := by
  unfold component at h
  simp only [String.append_assoc] at h
  have houtside (text : String) : BeginsOutside Char.isDigit (":" ++ text) :=
    beginsOutside_append (show Char.isDigit ':' = false by decide)
      (show ":".toList = [':'] from rfl)
  obtain ⟨hsize, htext⟩ := append_inj_of_all (toString_all_isDigit _) (toString_all_isDigit _)
    (houtside _) (houtside _) h
  exact append_inj_of_size (toString_nat_inj hsize) (append_left_inj_text htext)

theorem component_injective {v w : String} (h : component v = component w) : v = w := by
  have happend : component v ++ "" = component w ++ "" := by rw [h]
  exact (component_inj happend).1

theorem laneText_all_isDigit (lane : Nat) : (laneText lane).toList.all Char.isDigit = true := by
  unfold laneText
  rw [String.toList_ofList, List.all_append, Bool.and_eq_true]
  refine ⟨?_, List.all_eq_true.mpr toDigits_isDigit⟩
  rw [List.all_eq_true]
  intro c hc
  rw [(List.mem_replicate.mp hc).2]
  rfl

theorem laneText_injective {a b : Nat} (h : laneText a = laneText b) : a = b := by
  have hvalue (lane : Nat) : Nat.ofDigitChars 10 (laneText lane).toList 0 = lane := by
    unfold laneText
    rw [String.toList_ofList, Nat.ofDigitChars_append, Nat.ofDigitChars_replicate_zero,
      Nat.mul_zero, Nat.ofDigitChars_toDigits (by decide) (by decide)]
  rw [← hvalue a, h, hvalue b]

/-! ## Names -/

/-- The counters whose series is fixed, with their names. -/
def fixedCounters : List (String × String) :=
  [(contextCounterSeries "used_tokens", "context used tokens"),
   (contextCounterSeries "window_tokens", "context window tokens")] ++
    (UsageField.all.map fun field => (usageCounterSeries field.asStr, "known " ++ field.asStr)) ++
    usageCoverageCounters.map fun coverage =>
      (usageCoverageSeries coverage, "Act usage " ++ coverage)

/-- The text begins with a small letter. -/
def BeginsLower (text : String) : Prop := (text.toList.head?.any Char.isLower) = true

/-- The name of a counter with a series. -/
inductive SeriesName : String → String → Prop
  | builtin (kind : String) (h : BeginsLower kind) : SeriesName (builtinCounterSeries kind) kind
  | custom (name : String) (unit : Option String) (dimensions : DiagnosticDimensions)
      (h : BeginsLower name) : SeriesName (customCounterSeries name unit dimensions) name
  | cost (currency : String) :
      SeriesName (contextCostSeries currency) ("cumulative cost " ++ currency)
  | fixed {series name : String} (h : (series, name) ∈ fixedCounters) : SeriesName series name

/-- A fixed series begins as no other does. -/
theorem fixedCounters_begin : ∀ entry ∈ fixedCounters,
    ¬"builtin:".toList.isPrefixOf entry.1.toList ∧ ¬"custom:".toList.isPrefixOf entry.1.toList ∧
      ¬"context:cumulative_cost:".toList.isPrefixOf entry.1.toList := by
  decide +kernel

theorem isPrefixOf_append (a x : String) : a.toList.isPrefixOf (a ++ x).toList = true := by
  rw [String.toList_append, List.isPrefixOf_iff_prefix]
  exact List.prefix_append _ _

/-- Texts that begin differently. -/
theorem append_ne {a b x y : String}
    (h : (a.toList.zip b.toList).any (fun e => e.1 != e.2) = true) : a ++ x ≠ b ++ y := by
  intro heq
  have hlist := congrArg String.toList heq
  rw [String.toList_append, String.toList_append] at hlist
  have hsame : ∀ e ∈ a.toList.zip b.toList, e.1 = e.2 := by
    intro e he
    obtain ⟨i, hi, rfl⟩ := List.mem_iff_getElem.mp he
    rw [List.length_zip] at hi
    have hat := congrArg (·[i]?) hlist
    simp only [List.getElem?_append_left (show i < a.toList.length by omega),
      List.getElem?_append_left (show i < b.toList.length by omega)] at hat
    rw [List.getElem_zip]
    simpa [List.getElem?_eq_getElem (show i < a.toList.length by omega),
      List.getElem?_eq_getElem (show i < b.toList.length by omega)] using hat
  obtain ⟨e, he, hne⟩ := List.any_eq_true.mp h
  exact (bne_iff_ne.mp hne) (hsame e he)

/-- **A series has one name.** -/
theorem SeriesName.unique {series series' name name' : String} (h : SeriesName series name)
    (h' : SeriesName series' name') (heq : series = series') : name = name' := by
  cases h with
  | builtin kind =>
    cases h' with
    | builtin kind' => exact component_injective (append_left_inj_text heq)
    | custom name unit dimensions =>
      exact absurd heq (by
        unfold builtinCounterSeries customCounterSeries
        simp only [String.append_assoc]
        exact append_ne (by decide))
    | cost currency => exact absurd heq (append_ne (by decide))
    | fixed hmem =>
      have hprefix := (fixedCounters_begin _ hmem).1
      rw [← heq] at hprefix
      exact absurd (isPrefixOf_append _ _) hprefix
  | custom name unit dimensions =>
    obtain ⟨rest, hcustom⟩ : ∃ rest, customCounterSeries name unit dimensions =
        "custom:" ++ (component name ++ ("|unit:" ++ rest)) := by
      unfold customCounterSeries
      simp only [String.append_assoc]
      exact ⟨_, rfl⟩
    rw [hcustom] at heq
    cases h' with
    | builtin kind' => exact absurd heq (append_ne (by decide))
    | custom name' unit' dimensions' =>
      unfold customCounterSeries at heq
      simp only [String.append_assoc] at heq
      exact (component_inj (append_left_inj_text heq)).1
    | cost currency => exact absurd heq (append_ne (by decide))
    | fixed hmem =>
      have hprefix := (fixedCounters_begin _ hmem).2.1
      rw [← heq] at hprefix
      exact absurd (isPrefixOf_append _ _) hprefix
  | cost currency =>
    cases h' with
    | builtin kind' => exact absurd heq (append_ne (by decide))
    | custom name unit dimensions =>
      exact absurd heq (by
        unfold contextCostSeries customCounterSeries
        simp only [String.append_assoc]
        exact append_ne (by decide))
    | cost currency' => rw [component_injective (append_left_inj_text heq)]
    | fixed hmem =>
      have hprefix := (fixedCounters_begin _ hmem).2.2
      rw [← heq] at hprefix
      exact absurd (isPrefixOf_append _ _) hprefix
  | fixed hmem =>
    cases h' with
    | builtin kind' =>
      have hprefix := (fixedCounters_begin _ hmem).1
      rw [heq] at hprefix
      exact absurd (isPrefixOf_append _ _) hprefix
    | custom name unit dimensions =>
      have hprefix := (fixedCounters_begin _ hmem).2.1
      rw [heq] at hprefix
      unfold customCounterSeries at hprefix
      simp only [String.append_assoc] at hprefix
      exact absurd (isPrefixOf_append _ _) hprefix
    | cost currency' =>
      have hprefix := (fixedCounters_begin _ hmem).2.2
      rw [heq] at hprefix
      exact absurd (isPrefixOf_append _ _) hprefix
    | fixed hmem' =>
      have hone : ∀ a ∈ fixedCounters, ∀ b ∈ fixedCounters, a.1 = b.1 → a.2 = b.2 := by
        decide +kernel
      exact hone _ hmem _ hmem' heq

/-- The display name of the spans of a role. -/
inductive RoleName : String → String → Prop
  | builtin (kind : SpanKind) : RoleName kind.asStr kind.asStr
  | custom (name : String) (h : BeginsLower name) : RoleName ("custom:" ++ name) name

/-- **A role has one display name.** -/
theorem RoleName.unique {role role' name name' : String} (h : RoleName role name)
    (h' : RoleName role' name') (heq : role = role') : name = name' := by
  have hbuiltin (kind : SpanKind) : ¬"custom:".toList.isPrefixOf kind.asStr.toList := by
    cases kind <;> decide +kernel
  cases h with
  | builtin kind =>
    cases h' with
    | builtin kind' => exact heq
    | custom name' =>
      have hprefix := hbuiltin kind
      rw [heq] at hprefix
      exact absurd (isPrefixOf_append _ _) hprefix
  | custom name =>
    cases h' with
    | builtin kind =>
      have hprefix := hbuiltin kind
      rw [← heq] at hprefix
      exact absurd (isPrefixOf_append _ _) hprefix
    | custom name' => exact append_left_inj_text heq

/-! ## Names that are not the metadata's -/

/-- The name begins as the name of the metadata does. -/
def Marked (name : String) : Prop := ∃ rest, name = traceMetadataPrefix ++ rest

theorem not_marked_append {a x : String}
    (h : (a.toList.zip traceMetadataPrefix.toList).any (fun e => e.1 != e.2) = true) :
    ¬Marked (a ++ x) :=
  fun ⟨_, heq⟩ => append_ne h heq

theorem not_marked_of_beginsLower {name : String} (h : BeginsLower name) : ¬Marked name := by
  rintro ⟨rest, rfl⟩
  have hhead : (traceMetadataPrefix ++ rest).toList.head? = some 'T' := by
    rw [String.toList_append, show traceMetadataPrefix.toList =
      'T' :: "roupe metadata | ".toList by decide +kernel]
    rfl
  unfold BeginsLower at h
  rw [hhead] at h
  exact absurd h (by decide)

theorem SeriesName.not_marked {series name : String} (h : SeriesName series name) :
    ¬Marked name := by
  cases h with
  | builtin kind hlower => exact not_marked_of_beginsLower hlower
  | custom name unit dimensions hlower => exact not_marked_of_beginsLower hlower
  | cost currency => exact not_marked_append (by decide +kernel)
  | fixed hmem =>
    have hall : ∀ entry ∈ fixedCounters,
        ((entry.2.toList.zip traceMetadataPrefix.toList).any fun e => e.1 != e.2) = true := by
      decide +kernel
    have hname := not_marked_append (x := "") (hall _ hmem)
    rwa [String.append_empty] at hname

theorem RoleName.beginsLower {role name : String} (h : RoleName role name) : BeginsLower name := by
  cases h with
  | builtin kind =>
    unfold BeginsLower
    cases kind <;> decide +kernel
  | custom name hlower => exact hlower

theorem laneName_not_marked {displayName : String} (h : BeginsLower displayName) (lane : Nat) :
    ¬Marked (laneName displayName lane) := by
  refine not_marked_of_beginsLower ?_
  unfold laneName
  split
  · unfold BeginsLower at h ⊢
    rw [String.append_assoc, String.append_assoc, String.toList_append, List.head?_append]
    cases hhead : displayName.toList.head? with
    | none =>
      rw [hhead] at h
      cases h
    | some c =>
      rw [hhead] at h
      exact h
  · exact h

/-! ## Steps -/

/-- One step of a path: what it adds to the identity, and the name and kind of the track there. -/
structure TrackStep where
  text : String
  name : String
  kind : TrackKind
deriving DecidableEq

/-- The tags of the scopes, with their labels. -/
def scopeTags : List (String × String) :=
  [("scene", "Scene"), ("actor", "Actor"), ("cue", "Cue"), ("effect", "Effect"), ("act", "Act"),
   ("tool", "Tool"), ("session", "Session generation")]

/-- The step into a scope. -/
def segmentStep (tag label value : String) : TrackStep :=
  ⟨"/" ++ tag ++ ":" ++ component value, label ++ " " ++ value, .timeline⟩

/-- The step to a counter. -/
def counterStep (series name : String) : TrackStep :=
  ⟨"/" ++ "counter" ++ ":" ++ component series, name, .counter⟩

/-- The step to a lane. -/
def laneStep (role displayName : String) (lane : Nat) : TrackStep :=
  ⟨"/span:" ++ component role ++ "/lane:" ++ laneText lane, laneName displayName lane, .timeline⟩

/-- The step to the metadata. -/
def metadataStep (metadataName : String) : TrackStep := ⟨"/metadata", metadataName, .timeline⟩

/-- The steps there are. -/
inductive IsStep (metadataName : String) : TrackStep → Prop
  | metadata : IsStep metadataName (metadataStep metadataName)
  | segment {tag label : String} (h : (tag, label) ∈ scopeTags) (value : String) :
      IsStep metadataName (segmentStep tag label value)
  | counter {series name : String} (h : SeriesName series name) :
      IsStep metadataName (counterStep series name)
  | lane {role displayName : String} (h : RoleName role displayName) (lane : Nat) :
      IsStep metadataName (laneStep role displayName lane)

/-- A character of a tag. -/
def isTagChar (c : Char) : Bool := c != ':' && c != '/'

/-- The text ends, or goes on with a step. -/
abbrev PathEnd (text : String) : Prop := BeginsOutside (· != '/') text

variable {metadataName : String} {x y : String}

theorem PathEnd.outside {p : Char → Bool} (hp : p '/' = false) (h : PathEnd x) :
    BeginsOutside p x := by
  intro c hc
  have hslash := h c hc
  rw [bne_eq_false_iff_eq] at hslash
  rw [hslash]
  exact hp

/-- **The tags of two steps whose texts agree are one.** -/
theorem tag_inj {tag tag' rest rest' : String} (htag : tag.toList.all isTagChar = true)
    (htag' : tag'.toList.all isTagChar = true) (hrest : BeginsOutside isTagChar rest)
    (hrest' : BeginsOutside isTagChar rest')
    (h : "/" ++ (tag ++ rest) = "/" ++ (tag' ++ rest')) : tag = tag' ∧ rest = rest' :=
  append_inj_of_all htag htag' hrest hrest' (append_left_inj_text h)

theorem scopeTags_spec : ∀ entry ∈ scopeTags, entry.1.toList.all isTagChar = true ∧
    entry.1 ≠ "metadata" ∧ entry.1 ≠ "counter" ∧ entry.1 ≠ "span" ∧
      ∀ other ∈ scopeTags, entry.1 = other.1 → entry = other := by
  decide +kernel

theorem segmentStep_not_marked {tag label : String} (h : (tag, label) ∈ scopeTags)
    (value : String) : ¬Marked (segmentStep tag label value).name := by
  have hall : ∀ entry ∈ scopeTags,
      ((entry.2.toList.zip traceMetadataPrefix.toList).any fun e => e.1 != e.2) = true := by
    decide +kernel
  unfold segmentStep
  dsimp only
  rw [String.append_assoc]
  exact not_marked_append (hall _ h)

theorem colon_outside (text : String) : BeginsOutside isTagChar (":" ++ text) :=
  beginsOutside_append (show isTagChar ':' = false by decide) (show ":".toList = [':'] from rfl)

/-- The tag of a step, and what stands after it. -/
inductive StepTag (metadataName : String) : TrackStep → String → String → Prop
  | metadata : StepTag metadataName (metadataStep metadataName) "metadata" ""
  | segment {tag label : String} (h : (tag, label) ∈ scopeTags) (value : String) :
      StepTag metadataName (segmentStep tag label value) tag (":" ++ component value)
  | counter {series name : String} (h : SeriesName series name) :
      StepTag metadataName (counterStep series name) "counter" (":" ++ component series)
  | lane {role displayName : String} (h : RoleName role displayName) (lane : Nat) :
      StepTag metadataName (laneStep role displayName lane) "span"
        (":" ++ (component role ++ ("/lane:" ++ laneText lane)))

theorem IsStep.tag {step : TrackStep} (h : IsStep metadataName step) :
    ∃ tag rest, StepTag metadataName step tag rest := by
  cases h with
  | metadata => exact ⟨_, _, .metadata⟩
  | segment htag value => exact ⟨_, _, .segment htag value⟩
  | counter hname => exact ⟨_, _, .counter hname⟩
  | lane hname lane => exact ⟨_, _, .lane hname lane⟩

theorem StepTag.text_eq {step : TrackStep} {tag rest : String}
    (h : StepTag metadataName step tag rest) :
    step.text = "/" ++ (tag ++ rest) ∧ tag.toList.all isTagChar = true ∧
      ∀ x, PathEnd x → BeginsOutside isTagChar (rest ++ x) := by
  cases h with
  | metadata =>
    have htext : "/metadata" = "/" ++ ("metadata" ++ "") := by decide +kernel
    refine ⟨htext, by decide +kernel, fun x hx => ?_⟩
    rw [String.empty_append]
    exact hx.outside (by decide)
  | segment htag value =>
    refine ⟨?_, (scopeTags_spec _ htag).1, fun x _ => ?_⟩
    · simp only [segmentStep, String.append_assoc]
    · rw [String.append_assoc]
      exact colon_outside _
  | counter hname =>
    refine ⟨?_, by decide +kernel, fun x _ => ?_⟩
    · simp only [counterStep, String.append_assoc]
    · rw [String.append_assoc]
      exact colon_outside _
  | lane hname lane =>
    refine ⟨?_, by decide +kernel, fun x _ => ?_⟩
    · simp only [laneStep, ← String.append_assoc]
      rfl
    · rw [String.append_assoc]
      exact colon_outside _

/-- **The text of a step shows where it ends.** -/
theorem IsStep.inj {a b : TrackStep} (ha : IsStep metadataName a) (hb : IsStep metadataName b)
    (hx : PathEnd x) (hy : PathEnd y) (h : a.text ++ x = b.text ++ y) : a = b ∧ x = y := by
  obtain ⟨tag, rest, ha⟩ := ha.tag
  obtain ⟨tag', rest', hb⟩ := hb.tag
  obtain ⟨htext, htag, hrest⟩ := ha.text_eq
  obtain ⟨htext', htag', hrest'⟩ := hb.text_eq
  rw [htext, htext'] at h
  simp only [String.append_assoc] at h
  obtain ⟨hsame, hmore⟩ := tag_inj htag htag' (hrest x hx) (hrest' y hy) h
  cases ha with
  | metadata =>
    cases hb with
    | metadata => exact ⟨rfl, by simpa using hmore⟩
    | segment hscope value => exact absurd hsame.symm (scopeTags_spec _ hscope).2.1
    | counter hname => exact absurd hsame (by decide)
    | lane hname lane => exact absurd hsame (by decide)
  | segment hscope value =>
    cases hb with
    | metadata => exact absurd hsame (scopeTags_spec _ hscope).2.1
    | segment hscope' value' =>
      have hlabel := (scopeTags_spec _ hscope).2.2.2.2 _ hscope' hsame
      simp only [String.append_assoc] at hmore
      obtain ⟨rfl, hrest⟩ := component_inj (append_left_inj_text hmore)
      cases hlabel
      exact ⟨rfl, hrest⟩
    | counter hname => exact absurd hsame (scopeTags_spec _ hscope).2.2.1
    | lane hname lane => exact absurd hsame (scopeTags_spec _ hscope).2.2.2.1
  | counter hname =>
    cases hb with
    | metadata => exact absurd hsame (by decide)
    | segment hscope value => exact absurd hsame.symm (scopeTags_spec _ hscope).2.2.1
    | counter hname' =>
      simp only [String.append_assoc] at hmore
      obtain ⟨rfl, hrest⟩ := component_inj (append_left_inj_text hmore)
      rw [hname.unique hname' rfl]
      exact ⟨rfl, hrest⟩
    | lane hname' lane => exact absurd hsame (by decide)
  | lane hname lane =>
    cases hb with
    | metadata => exact absurd hsame (by decide)
    | segment hscope value => exact absurd hsame.symm (scopeTags_spec _ hscope).2.2.2.1
    | counter hname' => exact absurd hsame (by decide)
    | lane hname' lane' =>
      simp only [String.append_assoc] at hmore
      obtain ⟨rfl, hrest⟩ := component_inj (append_left_inj_text hmore)
      obtain ⟨hlane, hrest⟩ := append_inj_of_all (laneText_all_isDigit _) (laneText_all_isDigit _)
        (hx.outside (by decide)) (hy.outside (by decide)) (append_left_inj_text hrest)
      rw [hname.unique hname' rfl, laneText_injective hlane]
      exact ⟨rfl, hrest⟩

/-! ## Paths -/

/-- The text of a path. -/
def pathText : List TrackStep → String
  | [] => ""
  | step :: rest => step.text ++ pathText rest

/-- The identity of the track at the end of a path. -/
def identityOf (path : List TrackStep) : String := rootTrackIdentity ++ pathText path

/-- A path of steps there are. -/
abbrev IsPath (metadataName : String) (path : List TrackStep) : Prop :=
  ∀ step ∈ path, IsStep metadataName step

/-- The track at the end of a path. -/
def definitionOf (rootName : String) (path : List TrackStep) : TrackDefinition where
  canonicalIdentity := identityOf path
  parentIdentity := if path = [] then none else some (identityOf path.dropLast)
  name := (path.getLast?.map TrackStep.name).getD rootName
  depth := path.length
  kind := (path.getLast?.map TrackStep.kind).getD .timeline

theorem IsStep.begins {step : TrackStep} (h : IsStep metadataName step) :
    ∃ rest, step.text = "/" ++ rest := by
  obtain ⟨tag, rest, htag⟩ := h.tag
  exact ⟨_, htag.text_eq.1⟩

theorem pathText_end {path : List TrackStep} (h : IsPath metadataName path) :
    PathEnd (pathText path) := by
  cases path with
  | nil => exact beginsOutside_empty
  | cons step rest =>
    obtain ⟨more, htext⟩ := (h step List.mem_cons_self).begins
    unfold pathText
    rw [htext, String.append_assoc]
    exact beginsOutside_append (show ('/' != '/') = false by decide)
      (show "/".toList = ['/'] from rfl)

theorem pathText_inj {path path' : List TrackStep} (h : IsPath metadataName path)
    (h' : IsPath metadataName path') (heq : pathText path = pathText path') : path = path' := by
  induction path generalizing path' with
  | nil =>
    cases path' with
    | nil => rfl
    | cons step rest =>
      obtain ⟨more, htext⟩ := (h' step List.mem_cons_self).begins
      have hlist := congrArg String.toList heq
      simp [pathText, htext] at hlist
  | cons step rest ih =>
    cases path' with
    | nil =>
      obtain ⟨more, htext⟩ := (h step List.mem_cons_self).begins
      have hlist := congrArg String.toList heq
      simp [pathText, htext] at hlist
    | cons step' rest' =>
      obtain ⟨hstep, hsteps⟩ := List.forall_mem_cons.mp h
      obtain ⟨hstep', hsteps'⟩ := List.forall_mem_cons.mp h'
      obtain ⟨rfl, hrest⟩ :=
        hstep.inj hstep' (pathText_end hsteps) (pathText_end hsteps') heq
      rw [ih hsteps hsteps' hrest]

/-- **An identity determines its path.** -/
theorem identityOf_inj {path path' : List TrackStep} (h : IsPath metadataName path)
    (h' : IsPath metadataName path') (heq : identityOf path = identityOf path') : path = path' :=
  pathText_inj h h' (append_left_inj_text heq)

theorem pathText_append (path path' : List TrackStep) :
    pathText (path ++ path') = pathText path ++ pathText path' := by
  induction path with
  | nil => exact (String.empty_append).symm
  | cons step rest ih =>
    rw [List.cons_append, pathText, pathText, ih, String.append_assoc]

theorem identityOf_concat (path : List TrackStep) (step : TrackStep) :
    identityOf (path ++ [step]) = identityOf path ++ step.text := by
  unfold identityOf
  rw [pathText_append, ← String.append_assoc]
  exact congrArg (identityOf path ++ ·) String.append_empty

/-- The track a step further. -/
theorem definitionOf_concat (rootName : String) (path : List TrackStep) (step : TrackStep) :
    definitionOf rootName (path ++ [step]) =
      ⟨identityOf path ++ step.text, some (identityOf path), step.name, path.length + 1,
        step.kind⟩ := by
  unfold definitionOf
  rw [identityOf_concat, List.getLast?_concat, List.dropLast_concat, List.length_append,
    if_neg (by simp)]
  rfl

end Troupe.Perfetto
