import Troupe.Perfetto.Paths

/-! # The catalog under construction

`Catalogued` is what holds of the catalog while tracks are registered: each track is the one at the
end of a path, the track it hangs from is there too, and no identity is there twice. A method that
registers what lies under a known track keeps it, or runs out of budget (**`register_settles`**);
there is no other error. -/

namespace Troupe.Perfetto

open Troupe.Lib Troupe.Core

/-! ## Budget -/

/-- An error that says a limit was reached: what is required does not fit it, or not in a `u64`. -/
def LimitError : ProjectionError → Prop
  | .structuralIndexLimitExceeded _ limit required => limit < required ∨ required = u64Max
  | .identityExhausted _ required maximum => maximum < required
  | _ => False

/-- The budget was only used. -/
structure Grows (before after : StructuralIndexBudget) : Prop where
  limits : after.limits = before.limits
  entries : before.usage.entries ≤ after.usage.entries

theorem Grows.refl (budget : StructuralIndexBudget) : Grows budget budget := ⟨rfl, le_rfl⟩

theorem Grows.trans {a b c : StructuralIndexBudget} (h : Grows a b) (h' : Grows b c) : Grows a c :=
  ⟨h'.limits.trans h.limits, h.entries.trans h'.entries⟩

theorem required_settles (dimension : StructuralIndexDimension) (limit used more : Nat) :
    Settles LimitError (fun required => required = used + more ∧ required ≤ u64Max)
      (StructuralIndexBudget.required dimension limit used more) := by
  unfold StructuralIndexBudget.required checkedAdd
  by_cases hsum : used + more ≤ u64Max
  · rw [if_pos hsum]
    dsimp only
    by_cases hlimit : limit < used + more
    · rw [if_pos hlimit]
      exact .inl hlimit
    · rw [if_neg hlimit]
      exact ⟨rfl, hsum⟩
  · rw [if_neg hsum]
    exact .inr rfl

/-- **`reserve` counts the entries, or runs out.** -/
theorem reserve_settles (budget : StructuralIndexBudget) (entries ownedPayloadBytes : Nat) :
    Settles LimitError (fun after => Grows budget after ∧
        after.usage.entries = budget.usage.entries + entries ∧ after.usage.entries ≤ u64Max)
      (budget.reserve entries ownedPayloadBytes) := by
  unfold StructuralIndexBudget.reserve
  refine (required_settles _ _ _ _).bind fun required hrequired => ?_
  obtain ⟨rfl, hle⟩ := hrequired
  refine (required_settles _ _ _ _).bind fun payload _ => ?_
  exact ⟨⟨rfl, Nat.le_add_right _ _⟩, rfl, hle⟩

theorem reserveOwned_settles (budget : StructuralIndexBudget) (entries : Nat)
    (values : List String) :
    Settles LimitError (fun after => Grows budget after ∧
        after.usage.entries = budget.usage.entries + entries ∧ after.usage.entries ≤ u64Max)
      (budget.reserveOwned entries values) :=
  reserve_settles budget entries _

theorem reserveOwned_grows (budget : StructuralIndexBudget) (entries : Nat)
    (values : List String) :
    Settles LimitError (Grows budget) (budget.reserveOwned entries values) :=
  (reserveOwned_settles budget entries values).imp fun _ h => h.1

/-! ## Registered tracks -/

variable {rootName metadataName : String}

/-- The track at the end of a path is registered. -/
def Has (rootName : String) (builder : TrackCatalogBuilder) (path : List TrackStep) : Prop :=
  definitionOf rootName path ∈ builder.definitions

/-- What holds of the catalog while tracks are registered. -/
structure Catalogued (rootName metadataName : String) (builder : TrackCatalogBuilder) : Prop where
  paths : ∀ definition ∈ builder.definitions,
    ∃ path, IsPath metadataName path ∧ definition = definitionOf rootName path
  parents : ∀ path step, IsPath metadataName (path ++ [step]) →
    Has rootName builder (path ++ [step]) → Has rootName builder path
  distinct : builder.definitions.Pairwise fun a b => a.canonicalIdentity ≠ b.canonicalIdentity
  marked : ∀ definition ∈ builder.definitions, Marked definition.name →
    definition = definitionOf rootName [metadataStep metadataName]

/-- More tracks are registered. -/
def Extends (before after : TrackCatalogBuilder) : Prop :=
  before.definitions <+: after.definitions

theorem Extends.refl (builder : TrackCatalogBuilder) : Extends builder builder :=
  List.prefix_refl _

theorem Extends.trans {a b c : TrackCatalogBuilder} (h : Extends a b) (h' : Extends b c) :
    Extends a c :=
  List.IsPrefix.trans h h'

theorem Has.extend {builder builder' : TrackCatalogBuilder} {path : List TrackStep}
    (h : Has rootName builder path) (hextends : Extends builder builder') :
    Has rootName builder' path :=
  hextends.subset h

section Builder

variable {builder : TrackCatalogBuilder} {path : List TrackStep} {step : TrackStep}

theorem isPath_concat : IsPath metadataName (path ++ [step]) ↔
    IsPath metadataName path ∧ IsStep metadataName step := by
  rw [IsPath, List.forall_mem_append, List.forall_mem_singleton]

theorem Catalogued.get?_of_has (h : Catalogued rootName metadataName builder)
    (hpath : IsPath metadataName path) (hhas : Has rootName builder path) :
    builder.get? (identityOf path) = some (definitionOf rootName path) := by
  unfold TrackCatalogBuilder.get?
  cases hfind : builder.definitions.find?
      fun definition => decide (definition.canonicalIdentity = identityOf path) with
  | none =>
    have hnone := List.find?_eq_none.mp hfind _ hhas
    exact absurd rfl (of_decide_eq_false (Bool.eq_false_iff.mpr hnone))
  | some definition =>
    have hidentity := List.find?_some hfind
    rw [decide_eq_true_iff] at hidentity
    obtain ⟨path', hpath', rfl⟩ := h.paths definition (List.mem_of_find?_eq_some hfind)
    rw [identityOf_inj hpath' hpath hidentity]

theorem Catalogued.get?_of_not_has (h : Catalogued rootName metadataName builder)
    (hpath : IsPath metadataName path) (hhas : ¬Has rootName builder path) :
    builder.get? (identityOf path) = none := by
  unfold TrackCatalogBuilder.get?
  rw [List.find?_eq_none]
  intro definition hmem hidentity
  obtain ⟨path', hpath', rfl⟩ := h.paths definition hmem
  obtain rfl := identityOf_inj hpath' hpath (of_decide_eq_true hidentity)
  exact hhas hmem

/-- The catalog with one track more. -/
theorem Catalogued.concat (h : Catalogued rootName metadataName builder)
    (hpath : IsPath metadataName path) (hparent : ∀ parent step, path = parent ++ [step] →
      Has rootName builder parent) (hhas : ¬Has rootName builder path)
    (hmarked : Marked (definitionOf rootName path).name → path = [metadataStep metadataName]) :
    Catalogued rootName metadataName ⟨builder.definitions ++ [definitionOf rootName path]⟩ := by
  refine ⟨?_, ?_, ?_, ?_⟩
  · intro definition hmem
    rcases List.mem_append.mp hmem with hold | hnew
    · exact h.paths definition hold
    · exact ⟨path, hpath, List.mem_singleton.mp hnew⟩
  · intro parent step hsteps hmem
    rcases List.mem_append.mp hmem with hold | hnew
    · exact List.mem_append_left _ (h.parents parent step hsteps hold)
    · have hidentity := congrArg TrackDefinition.canonicalIdentity (List.mem_singleton.mp hnew)
      have hsame := identityOf_inj hsteps hpath hidentity
      exact List.mem_append_left _ (hparent parent step hsame.symm)
  · refine List.pairwise_append.mpr ⟨h.distinct, List.pairwise_singleton _ _, ?_⟩
    intro definition hmem new hnew hidentity
    rw [List.mem_singleton.mp hnew] at hidentity
    obtain ⟨path', hpath', rfl⟩ := h.paths definition hmem
    obtain rfl := identityOf_inj hpath' hpath hidentity
    exact hhas hmem
  · intro definition hmem hname
    rcases List.mem_append.mp hmem with hold | hnew
    · exact h.marked definition hold hname
    · rw [List.mem_singleton.mp hnew] at hname ⊢
      rw [hmarked hname]

/-- What registering a path leaves. -/
structure Registered (rootName metadataName : String) (builder : TrackCatalogBuilder)
    (budget : StructuralIndexBudget) (path : List TrackStep)
    (result : TrackCatalogBuilder × StructuralIndexBudget) : Prop where
  catalogued : Catalogued rootName metadataName result.1
  extends_ : Extends builder result.1
  has : Has rootName result.1 path
  grows : Grows budget result.2

/-- **A track under a known one is registered, or the budget runs out.** -/
theorem register_settles (h : Catalogued rootName metadataName builder)
    (hpath : IsPath metadataName (path ++ [step])) (hparent : Has rootName builder path)
    (hmarked : Marked step.name → path ++ [step] = [metadataStep metadataName])
    (budget : StructuralIndexBudget) :
    Settles LimitError (Registered rootName metadataName builder budget (path ++ [step]))
      (builder.register (identityOf path ++ step.text) (some (identityOf path)) step.name step.kind
        budget) := by
  have hsteps := (isPath_concat.mp hpath).1
  have hdepth : builder.depthUnder (some (identityOf path)) = .ok (path.length + 1) := by
    unfold TrackCatalogBuilder.depthUnder
    dsimp only
    rw [h.get?_of_has hsteps hparent]
    rfl
  unfold TrackCatalogBuilder.register
  rw [hdepth, ok_bind, ← identityOf_concat]
  by_cases hhas : Has rootName builder (path ++ [step])
  · rw [h.get?_of_has hpath hhas, definitionOf_concat]
    dsimp only
    rw [if_neg (by simp)]
    exact ⟨h, .refl _, hhas, .refl _⟩
  · rw [h.get?_of_not_has hpath hhas]
    dsimp only
    refine (reserveOwned_grows _ _ _).bind fun after hgrows => ?_
    have hnew := h.concat hpath (fun parent last heq => by
      rw [(List.append_inj' heq rfl).1] at hparent
      exact hparent) hhas (by
        rw [definitionOf_concat]
        exact hmarked)
    rw [definitionOf_concat, ← identityOf_concat] at hnew
    refine ⟨hnew, List.prefix_append _ _, ?_, hgrows⟩
    unfold Has
    rw [definitionOf_concat, ← identityOf_concat]
    exact List.mem_append_right _ (List.mem_singleton_self _)

/-- The catalog starts with the root. -/
theorem new_settles (metadataName : String) (hroot : ¬Marked rootName)
    (budget : StructuralIndexBudget) :
    Settles LimitError (fun result => Registered rootName metadataName ⟨[]⟩ budget [] result ∧
        budget.usage.entries < result.2.usage.entries)
      (TrackCatalogBuilder.new rootName budget) := by
  have hempty : Catalogued rootName metadataName ⟨[]⟩ :=
    ⟨fun _ hmem => (nomatch hmem), fun _ _ _ hmem => (nomatch hmem), List.Pairwise.nil,
      fun _ hmem => (nomatch hmem)⟩
  have hidentity : rootTrackIdentity = identityOf [] := by decide +kernel
  unfold TrackCatalogBuilder.new TrackCatalogBuilder.register
  refine (reserveOwned_settles _ _ _).bind fun after hafter => ?_
  obtain ⟨hgrows, hentries, -⟩ := hafter
  have hpath : IsPath metadataName [] := fun _ hstep => (nomatch hstep)
  have hnew := hempty.concat hpath (fun parent step heq => absurd heq (by simp))
    (fun hmem => (nomatch hmem)) (fun hname => absurd hname hroot)
  exact ⟨⟨by rw [hidentity]; exact hnew, List.nil_prefix,
    by rw [hidentity]; exact List.mem_singleton_self _, hgrows⟩,
    hentries ▸ Nat.lt_succ_self _⟩

end Builder

/-! ## Scopes -/

/-- The path of a scope. -/
def scopePath (scope : DiagnosticScope) : List TrackStep :=
  (scopeSegments scope).map fun (tag, value, label) => segmentStep tag label value

theorem segmentIdentity_eq (path : List TrackStep) (tag label value : String) :
    segmentIdentity (identityOf path) tag value =
      identityOf (path ++ [segmentStep tag label value]) := by
  rw [identityOf_concat]
  simp only [segmentIdentity, segmentStep, String.append_assoc]

theorem scopeSegments_tags (scope : DiagnosticScope) :
    ∀ segment ∈ scopeSegments scope, (segment.1, segment.2.2) ∈ scopeTags := by
  intro segment hmem
  simp only [scopeSegments, List.mem_append, List.mem_map, or_assoc] at hmem
  rcases hmem with ⟨id, -, rfl⟩ | ⟨id, -, rfl⟩ | ⟨id, -, rfl⟩ | ⟨id, -, rfl⟩ | ⟨id, -, rfl⟩ |
    ⟨id, -, rfl⟩ | ⟨id, -, rfl⟩ <;> simp [scopeTags]

theorem scopePath_isPath (scope : DiagnosticScope) : IsPath metadataName (scopePath scope) := by
  intro step hmem
  obtain ⟨⟨tag, value, label⟩, hsegment, rfl⟩ := List.mem_map.mp hmem
  exact .segment (scopeSegments_tags scope _ hsegment) value

/-- The identity of a scope's track is that of its path. -/
theorem scopeTrackIdentity_eq (scope : DiagnosticScope) :
    scopeTrackIdentity scope = identityOf (scopePath scope) := by
  have hfold (segments : List (String × String × String)) (path : List TrackStep) :
      segments.foldl (fun parent (tag, value, _) => segmentIdentity parent tag value)
        (identityOf path) =
        identityOf
          (path ++ segments.map fun (tag, value, label) => segmentStep tag label value) := by
    induction segments generalizing path with
    | nil => rw [List.map_nil, List.append_nil]; rfl
    | cons segment rest ih =>
      obtain ⟨tag, value, label⟩ := segment
      rw [List.foldl_cons, List.map_cons, List.append_cons, ← ih]
      dsimp only
      rw [segmentIdentity_eq path tag label value]
  have hroot : rootTrackIdentity = identityOf [] := by decide +kernel
  unfold scopeTrackIdentity
  rw [hroot, hfold]
  rfl

theorem lookup_segment {α : Type} (key tag label : String) (value : Option α) (f : α → String) :
    (value.toList.map fun id => (tag, f id, label)).lookup key =
      if key = tag then value.map fun id => (f id, label) else none := by
  cases value with
  | none => simp
  | some id =>
    by_cases hkey : key = tag
    · simp [hkey]
    · simp [hkey]

theorem segmentStep_inj {tag tag' label label' value value' : String}
    (h : (tag, label) ∈ scopeTags) (h' : (tag', label') ∈ scopeTags)
    (heq : segmentStep tag label value = segmentStep tag' label' value') :
    (tag, value, label) = (tag', value', label') := by
  have htext := congrArg TrackStep.text heq
  simp only [segmentStep, String.append_assoc] at htext
  obtain ⟨htag, hrest⟩ := tag_inj (scopeTags_spec _ h).1 (scopeTags_spec _ h').1
    (colon_outside _) (colon_outside _) htext
  obtain rfl := component_injective (append_left_inj_text hrest)
  have hlabel := (scopeTags_spec _ h).2.2.2.2 _ h' htag
  cases hlabel
  rfl

theorem segments_inj {segments segments' : List (String × String × String)}
    (h : ∀ segment ∈ segments, (segment.1, segment.2.2) ∈ scopeTags)
    (h' : ∀ segment ∈ segments', (segment.1, segment.2.2) ∈ scopeTags)
    (heq : (segments.map fun (tag, value, label) => segmentStep tag label value) =
      segments'.map fun (tag, value, label) => segmentStep tag label value) :
    segments = segments' := by
  induction segments generalizing segments' with
  | nil => exact (List.map_eq_nil_iff.mp heq.symm).symm
  | cons segment rest ih =>
    cases segments' with
    | nil => cases heq
    | cons segment' rest' =>
      obtain ⟨hsegment, hrest⟩ := List.forall_mem_cons.mp h
      obtain ⟨hsegment', hrest'⟩ := List.forall_mem_cons.mp h'
      obtain ⟨hhead, htail⟩ := List.cons.inj heq
      have hsame : segment = segment' := segmentStep_inj hsegment hsegment' hhead
      rw [hsame, ih hrest hrest' htail]

/-- **A scope is read back from its path.** -/
theorem scopePath_injective {scope scope' : DiagnosticScope}
    (h : scopePath scope = scopePath scope') : scope = scope' := by
  have hsegments := segments_inj (scopeSegments_tags scope) (scopeSegments_tags scope') h
  have hid (a b : Option RunLocalId) (label : String)
      (heq : (a.map fun id => (id.value, label)) = b.map fun id => (id.value, label)) : a = b := by
    refine Option.map_injective (fun x y hxy => ?_) heq
    exact RunLocalId.value_injective (congrArg Prod.fst hxy)
  have hlookup (key : String) := congrArg (List.lookup key) hsegments
  simp only [scopeSegments, List.lookup_append, lookup_segment] at hlookup
  obtain ⟨scene, actor, cue, effect, act, tool, session⟩ := scope
  obtain ⟨scene', actor', cue', effect', act', tool', session'⟩ := scope'
  have hscene := hid _ _ _ (by simpa using hlookup "scene")
  have hactor := hid _ _ _ (by simpa using hlookup "actor")
  have hcue := hid _ _ _ (by simpa using hlookup "cue")
  have heffect := hid _ _ _ (by simpa using hlookup "effect")
  have hact := hid _ _ _ (by simpa using hlookup "act")
  have htool := hid _ _ _ (by simpa using hlookup "tool")
  have hsession : session = session' := by
    have hmap : (session.map fun g => (toString g.get, "Session generation")) =
        session'.map fun g => (toString g.get, "Session generation") := by
      simpa using hlookup "session"
    refine Option.map_injective (fun x y hxy => ?_) hmap
    exact SchemaU64.get_injective (toString_nat_inj (congrArg Prod.fst hxy))
  rw [hscene, hactor, hcue, heffect, hact, htool, hsession]

section Registering

variable {builder : TrackCatalogBuilder} {path : List TrackStep} {budget : StructuralIndexBudget}

theorem registerSegments_settles (segments : List (String × String × String))
    (hsegments : ∀ segment ∈ segments, (segment.1, segment.2.2) ∈ scopeTags)
    (h : Catalogued rootName metadataName builder) (hpath : IsPath metadataName path)
    (hhas : Has rootName builder path) :
    Settles LimitError (fun result =>
        result.1 = identityOf
          (path ++ segments.map fun (tag, value, label) => segmentStep tag label value) ∧
        Registered rootName metadataName builder budget
          (path ++ segments.map fun (tag, value, label) => segmentStep tag label value) result.2)
      (TrackCatalogBuilder.registerSegments segments (identityOf path) builder budget) := by
  induction segments generalizing path builder budget with
  | nil =>
    rw [List.map_nil, List.append_nil]
    exact ⟨rfl, h, .refl _, hhas, .refl _⟩
  | cons segment rest ih =>
    obtain ⟨tag, value, label⟩ := segment
    obtain ⟨hsegment, hrest⟩ := List.forall_mem_cons.mp hsegments
    have hstep : IsPath metadataName (path ++ [segmentStep tag label value]) :=
      isPath_concat.mpr ⟨hpath, .segment hsegment value⟩
    have hregister := register_settles h hstep hhas
      (fun hname => absurd hname (segmentStep_not_marked hsegment value)) budget
    rw [← identityOf_concat, ← segmentIdentity_eq] at hregister
    unfold TrackCatalogBuilder.registerSegments
    refine hregister.bind fun result hresult => ?_
    rw [segmentIdentity_eq path tag label value]
    refine (ih hrest hresult.catalogued hstep hresult.has).imp fun final hfinal => ?_
    rw [List.append_assoc] at hfinal
    exact ⟨hfinal.1, hfinal.2.catalogued, hresult.extends_.trans hfinal.2.extends_, hfinal.2.has,
      hresult.grows.trans hfinal.2.grows⟩

theorem isPath_nil : IsPath metadataName [] := fun _ hmem => (nomatch hmem)

theorem rootTrackIdentity_eq : rootTrackIdentity = identityOf [] := by decide +kernel

/-- **The tracks of a scope are registered, and its identity returned.** -/
theorem registerScope_settles (scope : DiagnosticScope)
    (h : Catalogued rootName metadataName builder) (hroot : Has rootName builder []) :
    Settles LimitError (fun result => result.1 = scopeTrackIdentity scope ∧
        Registered rootName metadataName builder budget (scopePath scope) result.2)
      (builder.registerScope scope budget) := by
  unfold TrackCatalogBuilder.registerScope
  rw [rootTrackIdentity_eq]
  refine (registerSegments_settles (scopeSegments scope) (scopeSegments_tags scope) h isPath_nil
    hroot).imp fun result hresult => ?_
  rw [scopeTrackIdentity_eq]
  exact hresult

theorem counterTrackIdentity_eq (path : List TrackStep) (series name : String) :
    counterTrackIdentity (identityOf path) series =
      identityOf (path ++ [counterStep series name]) := by
  rw [identityOf_concat]
  simp only [counterTrackIdentity, segmentIdentity, counterStep, String.append_assoc]

theorem registerCounter_settles {series name : String}
    (h : Catalogued rootName metadataName builder) (hpath : IsPath metadataName path)
    (hhas : Has rootName builder path) (hname : SeriesName series name) :
    Settles LimitError
      (Registered rootName metadataName builder budget (path ++ [counterStep series name]))
      (builder.registerCounter (identityOf path) series name budget) := by
  unfold TrackCatalogBuilder.registerCounter
  rw [counterTrackIdentity_eq path series name, identityOf_concat]
  exact register_settles h (isPath_concat.mpr ⟨hpath, .counter hname⟩) hhas
    (fun hmarked => absurd hmarked hname.not_marked) budget

theorem registerMetadata_settles (h : Catalogued rootName metadataName builder)
    (hroot : Has rootName builder []) :
    Settles LimitError
      (Registered rootName metadataName builder budget [metadataStep metadataName])
      (builder.registerMetadata metadataName budget) := by
  unfold TrackCatalogBuilder.registerMetadata
  have hpath : IsPath metadataName ([] ++ [metadataStep metadataName]) :=
    isPath_concat.mpr ⟨isPath_nil, .metadata⟩
  rw [rootTrackIdentity_eq]
  exact register_settles h hpath hroot (fun _ => rfl) budget

/-! ## Lanes -/

theorem laneIdentity_eq (path : List TrackStep) (role displayName : String) (lane : Nat) :
    laneIdentity (identityOf path) role lane =
      identityOf (path ++ [laneStep role displayName lane]) := by
  rw [identityOf_concat]
  simp only [laneIdentity, laneStep, String.append_assoc]

/-- The interval of a span whose track is known. -/
def KnownInterval (rootName metadataName : String) (builder : TrackCatalogBuilder)
    (interval : SpanInterval) : Prop :=
  RoleName interval.role interval.displayName ∧ ∃ path, IsPath metadataName path ∧
    Has rootName builder path ∧ interval.parentTrackIdentity = identityOf path

/-- What registering lanes leaves. -/
structure LanesRegistered (rootName metadataName : String) (builder : TrackCatalogBuilder)
    (budget : StructuralIndexBudget) (entries : List (SpanInterval × Nat))
    (result : List (SchemaU64 × String) × TrackCatalogBuilder × StructuralIndexBudget) : Prop where
  assignments : result.1 = entries.map fun entry =>
    (entry.1.startSequence, laneIdentity entry.1.parentTrackIdentity entry.1.role entry.2)
  catalogued : Catalogued rootName metadataName result.2.1
  extends_ : Extends builder result.2.1
  has : ∀ entry ∈ entries, ∃ path, IsPath metadataName path ∧ Has rootName result.2.1 path ∧
    laneIdentity entry.1.parentTrackIdentity entry.1.role entry.2 = identityOf path
  grows : Grows budget result.2.2

/-- **The lanes of known intervals are registered.** -/
theorem registerLanes_settles (entries : List (SpanInterval × Nat))
    (h : Catalogued rootName metadataName builder)
    (hknown : ∀ entry ∈ entries, KnownInterval rootName metadataName builder entry.1) :
    Settles LimitError (LanesRegistered rootName metadataName builder budget entries)
      (registerLanes entries builder budget) := by
  induction entries generalizing builder budget with
  | nil => exact ⟨rfl, h, .refl _, fun _ hmem => (nomatch hmem), .refl _⟩
  | cons entry rest ih =>
    obtain ⟨interval, lane⟩ := entry
    obtain ⟨⟨hrole, path, hpath, hhas, hparent⟩, hrest⟩ := List.forall_mem_cons.mp hknown
    have hstep : IsPath metadataName
        (path ++ [laneStep interval.role interval.displayName lane]) :=
      isPath_concat.mpr ⟨hpath, .lane hrole lane⟩
    have hregister := register_settles h hstep hhas
      (fun hname => absurd hname (laneName_not_marked hrole.beginsLower lane)) budget
    rw [← identityOf_concat, ← laneIdentity_eq, ← hparent] at hregister
    unfold registerLanes
    refine hregister.bind fun result hresult => ?_
    refine (reserveOwned_grows _ _ _).bind fun after hafter => ?_
    have hknown' : ∀ entry ∈ rest, KnownInterval rootName metadataName result.1 entry.1 := by
      intro other hother
      obtain ⟨hrole', path', hpath', hhas', hparent'⟩ := hrest other hother
      exact ⟨hrole', path', hpath', hhas'.extend hresult.extends_, hparent'⟩
    refine (ih hresult.catalogued hknown').bind fun final hfinal => ?_
    refine ⟨?_, hfinal.catalogued, hresult.extends_.trans hfinal.extends_, ?_,
      (hresult.grows.trans hafter).trans hfinal.grows⟩
    · rw [List.map_cons, ← hfinal.assignments]
    · intro other hother
      rcases List.mem_cons.mp hother with rfl | hother
      · exact ⟨_, hstep, hresult.has.extend hfinal.extends_, by
          rw [hparent]
          exact laneIdentity_eq _ _ _ _⟩
      · exact hfinal.has other hother

end Registering

/-! ## The finished catalog -/

/-- What holds of the finished catalog. -/
structure Finished (rootName metadataName : String) (builder : TrackCatalogBuilder)
    (catalog : TrackCatalog) : Prop where
  catalogued : Catalogued rootName metadataName builder
  ids : catalog.ids.identities.Perm (builder.definitions.map (·.canonicalIdentity))
  order : catalog.descriptorOrder = builder.definitions.mergeSort descriptorLe

theorem assign_settles (identities : List String) (space : IdentitySpace) (maximum : Nat) :
    Settles LimitError (fun map => map.identities.Perm identities)
      (DenseIdentityMap.assign identities space maximum) := by
  unfold DenseIdentityMap.assign
  by_cases hmaximum : maximum < identities.length
  · rw [if_pos hmaximum]
    exact hmaximum
  · rw [if_neg hmaximum]
    exact List.mergeSort_perm _ _

theorem reserveAll_settles {α : Type} (budget : StructuralIndexBudget) (items : List α)
    (step : StructuralIndexBudget → α → Except ProjectionError StructuralIndexBudget)
    (hstep : ∀ budget item, Settles LimitError (Grows budget) (step budget item)) :
    Settles LimitError (Grows budget) (items.foldlM step budget) := by
  induction items generalizing budget with
  | nil => exact Grows.refl budget
  | cons item rest ih =>
    rw [List.foldlM_cons]
    refine (hstep budget item).bind fun after hafter => ?_
    exact (ih after).imp fun final hfinal => hafter.trans hfinal

/-- **A catalog is finished, or a limit reached.** -/
theorem finish_settles {builder : TrackCatalogBuilder}
    (h : Catalogued rootName metadataName builder) (maximumIds : Nat)
    (budget : StructuralIndexBudget) :
    Settles LimitError (fun result => Finished rootName metadataName builder result.1 ∧
      Grows budget result.2) (builder.finish maximumIds budget) := by
  unfold TrackCatalogBuilder.finish
  refine (reserveAll_settles budget _ _ fun before identity => ?_).bind fun after hafter => ?_
  · refine (reserveOwned_grows _ _ _).bind fun middle hmiddle => ?_
    exact (reserveOwned_grows _ _ _).imp fun final hfinal => hmiddle.trans hfinal
  · refine (assign_settles _ _ _).bind fun ids hids => ?_
    exact ⟨⟨h, hids, rfl⟩, hafter⟩

section Finished

variable {builder : TrackCatalogBuilder} {catalog : TrackCatalog} {definition : TrackDefinition}

/-- The number of an identity. -/
def DenseIdentityMap.number (map : DenseIdentityMap) (identity : String) : Nat :=
  map.identities.idxOf identity + 1

theorem id_of_mem {map : DenseIdentityMap} {identity : String} (h : identity ∈ map.identities) :
    map.id identity = .ok (map.number identity) := if_pos h

theorem number_inj {map : DenseIdentityMap} {a b : String} (ha : a ∈ map.identities)
    (h : map.number a = map.number b) : a = b :=
  (List.idxOf_inj ha).mp (Nat.succ.inj h)

/-- A registered track has its number. -/
theorem Finished.id_of_has (h : Finished rootName metadataName builder catalog)
    {path : List TrackStep} (hhas : Has rootName builder path) :
    identityOf path ∈ catalog.ids.identities :=
  h.ids.mem_iff.mpr (List.mem_map.mpr ⟨_, hhas, rfl⟩)

/-- The descriptor of a track. -/
def descriptorOf (catalog : TrackCatalog) (definition : TrackDefinition) : TrackDescriptorInfo where
  uuid := catalog.ids.number definition.canonicalIdentity
  parentUuid := definition.parentIdentity.map catalog.ids.number
  name := definition.name
  isCounter := definition.kind == .counter

theorem Finished.parent_has (h : Finished rootName metadataName builder catalog)
    (hmem : definition ∈ builder.definitions) {parent : String}
    (hparent : definition.parentIdentity = some parent) :
    ∃ definition' ∈ builder.definitions, definition'.canonicalIdentity = parent ∧
      definition.depth = definition'.depth + 1 := by
  obtain ⟨path, hpath, rfl⟩ := h.catalogued.paths definition hmem
  rcases List.eq_nil_or_concat path with rfl | ⟨before, step, rfl⟩
  · cases hparent
  · rw [List.concat_eq_append] at hpath hmem hparent ⊢
    refine ⟨_, h.catalogued.parents before step hpath hmem, ?_, ?_⟩
    · rw [definitionOf_concat] at hparent
      cases hparent
      rfl
    · rw [definitionOf_concat]
      rfl

theorem Finished.mem_order (h : Finished rootName metadataName builder catalog)
    :
    definition ∈ catalog.descriptorOrder ↔ definition ∈ builder.definitions := by
  rw [h.order, List.mem_mergeSort]

/-- **No `expect` of `descriptors` fails.** -/
theorem Finished.descriptors (h : Finished rootName metadataName builder catalog) :
    catalog.descriptors = some (catalog.descriptorOrder.map (descriptorOf catalog)) := by
  have hone (definition : TrackDefinition) (hmem : definition ∈ builder.definitions) :
      catalog.descriptor definition = some (descriptorOf catalog definition) := by
    have hid := id_of_mem (h.ids.mem_iff.mpr (List.mem_map.mpr ⟨definition, hmem, rfl⟩))
    unfold TrackCatalog.descriptor descriptorOf
    rw [hid]
    cases hparent : definition.parentIdentity with
    | none => rfl
    | some parent =>
      obtain ⟨other, hother, rfl, -⟩ := h.parent_has hmem hparent
      dsimp only
      rw [id_of_mem (h.ids.mem_iff.mpr (List.mem_map.mpr ⟨other, hother, rfl⟩))]
      rfl
  have hall (order : List TrackDefinition)
      (horder : ∀ definition ∈ order, definition ∈ builder.definitions) :
      order.mapM catalog.descriptor = some (order.map (descriptorOf catalog)) := by
    induction order with
    | nil => rfl
    | cons definition rest ih =>
      obtain ⟨hfirst, hrest⟩ := List.forall_mem_cons.mp horder
      rw [List.mapM_cons, hone definition hfirst, ih hrest]
      rfl
  exact hall _ fun definition hmem => h.mem_order.mp hmem

/-- **The descriptors have distinct ids.** -/
theorem Finished.distinct (h : Finished rootName metadataName builder catalog) :
    (catalog.descriptorOrder.map (descriptorOf catalog)).Pairwise fun a b => a.uuid ≠ b.uuid := by
  rw [List.pairwise_map]
  have hdistinct : catalog.descriptorOrder.Pairwise fun a b =>
      a.canonicalIdentity ≠ b.canonicalIdentity := by
    rw [h.order]
    exact ((List.mergeSort_perm _ _).pairwise_iff fun hne => hne.symm).mpr h.catalogued.distinct
  refine hdistinct.imp_of_mem fun {a b} ha _ hne hsame => hne (number_inj ?_ hsame)
  exact h.ids.mem_iff.mpr (List.mem_map.mpr ⟨a, h.mem_order.mp ha, rfl⟩)

theorem descriptorLe_trans (a b c : TrackDefinition) (hab : descriptorLe a b = true)
    (hbc : descriptorLe b c = true) : descriptorLe a c = true := by
  simp only [descriptorLe, Bool.or_eq_true, Bool.and_eq_true, decide_eq_true_eq,
    beq_iff_eq] at hab hbc ⊢
  rcases hab with hab | ⟨hab, hle⟩
  · rcases hbc with hbc | ⟨hbc, -⟩
    · exact .inl (hab.trans hbc)
    · exact .inl (hbc ▸ hab)
  · rcases hbc with hbc | ⟨hbc, hle'⟩
    · exact .inl (hab ▸ hbc)
    · exact .inr ⟨hab.trans hbc, String.le_trans hle hle'⟩

theorem descriptorLe_total (a b : TrackDefinition) :
    (descriptorLe a b || descriptorLe b a) = true := by
  simp only [descriptorLe, Bool.or_eq_true, Bool.and_eq_true, decide_eq_true_eq, beq_iff_eq]
  rcases Nat.lt_trichotomy a.depth b.depth with hlt | heq | hlt
  · exact .inl (.inl hlt)
  · rcases String.le_total a.canonicalIdentity b.canonicalIdentity with hle | hle
    · exact .inl (.inr ⟨heq, hle⟩)
    · exact .inr (.inr ⟨heq.symm, hle⟩)
  · exact .inr (.inl hlt)

/-- **A descriptor comes after its parent's.** -/
theorem Finished.parent_before (h : Finished rootName metadataName builder catalog)
    {before after : List TrackDefinition}
    (hsplit : catalog.descriptorOrder = before ++ definition :: after) {parent : Nat}
    (hparent : (descriptorOf catalog definition).parentUuid = some parent) :
    ∃ other ∈ before, (descriptorOf catalog other).uuid = parent := by
  obtain ⟨identity, hidentity, rfl⟩ := Option.map_eq_some_iff.mp hparent
  have hmem : definition ∈ builder.definitions :=
    h.mem_order.mp (hsplit ▸ List.mem_append_right _ List.mem_cons_self)
  obtain ⟨other, hother, rfl, hdepth⟩ := h.parent_has hmem hidentity
  refine ⟨other, ?_, rfl⟩
  have horder := h.mem_order.mpr hother
  rw [hsplit] at horder
  rcases List.mem_append.mp horder with hbefore | hrest
  · exact hbefore
  · exfalso
    have hsorted := List.pairwise_mergeSort descriptorLe_trans descriptorLe_total
      builder.definitions
    rw [← h.order, hsplit] at hsorted
    rcases List.mem_cons.mp hrest with rfl | hafter
    · omega
    · have hle := List.rel_of_pairwise_cons (List.pairwise_append.mp hsorted).2.1 hafter
      simp only [descriptorLe, Bool.or_eq_true, Bool.and_eq_true, decide_eq_true_eq,
        beq_iff_eq] at hle
      omega

end Finished

end Troupe.Perfetto
