import Mathlib.Data.List.Basic
import Mathlib.Data.List.Nodup

/-! # The names of actors

Model of `orchestration/actor_registry.rs`: `ActorRegistry`, whose methods run under one lock, and
the `RegistryReservation`s that parties hold.

* An `Arc<ActorIdentity>` is a number, allocated once: an address is not used again while an `Arc` or
  a `Weak` still points to it. `Arc::ptr_eq` and `Weak::ptr_eq` compare numbers.
* A `Weak<T>` upgrades while its capability is alive.
* The `HashMap` is a list of its entries in some order.

`step` interleaves the calls of any parties. A reservation is dropped before `commit`, after it, or
while `commit` unwinds between the registry and its own flag. -/

namespace Troupe.Orchestration

/-- `NameKey`: the code points of a name. -/
abbrev NameKey := List UInt32

/-- `NameKey::is_reserved_scene_name`. -/
def NameKey.isReservedSceneName (key : NameKey) : Bool :=
  let sceneWord : List UInt32 := "scene-".toList.map Char.val
  key.length == sceneWord.length + 36 && sceneWord.isPrefixOf key &&
    ((key.drop sceneWord.length).zipIdx.all fun (value, index) =>
      if index = 8 ∨ index = 13 ∨ index = 18 ∨ index = 23 then value == '-'.val
      else (0x30 ≤ value && value ≤ 0x39) || (0x61 ≤ value && value ≤ 0x66))

abbrev ActorIdentity := Nat

/-- `RegistryEntry`. -/
inductive RegistryEntry (T : Type) where
  | reserved (identity : ActorIdentity)
  | live (identity : ActorIdentity) (capability : T)

/-- Who the entry belongs to. -/
def RegistryEntry.identity {T : Type} : RegistryEntry T → ActorIdentity
  | .reserved identity => identity
  | .live identity _ => identity

/-- `ActorRegistry`. -/
structure ActorRegistry (T : Type) where
  entries : List (NameKey × RegistryEntry T)
  /-- A `HashMap` has one entry for a key. -/
  distinct : (entries.map Prod.fst).Nodup

namespace ActorRegistry

variable {T : Type} {value : RegistryEntry T} {alive : T → Bool}

def empty : ActorRegistry T := ⟨[], List.nodup_nil⟩

/-- `HashMap::get`. -/
def entry (registry : ActorRegistry T) (key : NameKey) : Option (RegistryEntry T) :=
  registry.entries.lookup key

/-- `HashMap::remove`. -/
def remove (registry : ActorRegistry T) (key : NameKey) : ActorRegistry T where
  entries := registry.entries.filter fun item => item.1 ≠ key
  distinct := (List.filter_sublist.map _).nodup registry.distinct

/-- `HashMap::insert`. -/
def insert (registry : ActorRegistry T) (key : NameKey) (entry : RegistryEntry T) :
    ActorRegistry T where
  entries := (key, entry) :: (registry.remove key).entries
  distinct := by
    refine List.nodup_cons.2 ⟨?_, (registry.remove key).distinct⟩
    rintro hmem
    obtain ⟨item, hitem, hkey⟩ := List.mem_map.1 hmem
    exact absurd hkey (of_decide_eq_true (List.mem_filter.1 hitem).2)

/-- `ActorRegistry::reserve`. -/
def reserve (registry : ActorRegistry T) (key : NameKey) (identity : ActorIdentity) :
    Bool × ActorRegistry T :=
  if (registry.entry key).isSome then (false, registry)
  else (true, registry.insert key (.reserved identity))

/-- The entry is a reservation of this identity. -/
def isReservedBy (registry : ActorRegistry T) (key : NameKey) (identity : ActorIdentity) : Bool :=
  match registry.entry key with
  | some (.reserved current) => current = identity
  | _ => false

/-- `ActorRegistry::commit`; nothing when its assertion fails. -/
def commit (registry : ActorRegistry T) (key : NameKey) (identity : ActorIdentity)
    (capability : T) : Option (ActorRegistry T) :=
  if registry.isReservedBy key identity then some (registry.insert key (.live identity capability))
  else none

/-- `ActorRegistry::rollback`. -/
def rollback (registry : ActorRegistry T) (key : NameKey) (identity : ActorIdentity) :
    ActorRegistry T :=
  if registry.isReservedBy key identity then registry.remove key else registry

/-- `ActorRegistry::detach`. -/
def detach (registry : ActorRegistry T) (key : NameKey) (identity : ActorIdentity) :
    ActorRegistry T :=
  match registry.entry key with
  | some (.live current _) => if current = identity then registry.remove key else registry
  | _ => registry

/-- `ActorRegistry::get`. -/
def get (registry : ActorRegistry T) (alive : T → Bool) (key : NameKey) :
    Option T × ActorRegistry T :=
  match registry.entry key with
  | some (.live _ capability) =>
    if alive capability then (some capability, registry) else (none, registry.remove key)
  | _ => (none, registry)

/-- The capability of an entry, if it upgrades. -/
def upgrade (alive : T → Bool) : RegistryEntry T → Option T
  | .reserved _ => none
  | .live _ capability => if alive capability then some capability else none

/-- The entry stays in a snapshot. -/
def retained (alive : T → Bool) : RegistryEntry T → Bool
  | .reserved _ => true
  | .live _ capability => alive capability

/-- `ActorRegistry::snapshot`. -/
def snapshot (registry : ActorRegistry T) (alive : T → Bool) : List T × ActorRegistry T :=
  (registry.entries.filterMap fun item => upgrade alive item.2,
    { entries := registry.entries.filter fun item => retained alive item.2
      distinct := (List.filter_sublist.map _).nodup registry.distinct })

/-! ## Entries after a call -/

variable {registry : ActorRegistry T} {key key' : NameKey} {identity : ActorIdentity}

theorem entry_eq_some :
    registry.entry key = some value ↔ (key, value) ∈ registry.entries := by
  obtain ⟨entries, hdistinct⟩ := registry
  unfold entry
  induction entries with
  | nil => simp
  | cons item entries ih =>
    obtain ⟨first, found⟩ := item
    obtain ⟨hnew, hrest⟩ := List.nodup_cons.1 hdistinct
    by_cases hkey : key = first
    · subst hkey
      have habsent : (key, value) ∉ entries := fun hmem =>
        hnew (List.mem_map.2 ⟨_, hmem, rfl⟩)
      simp [habsent, eq_comm]
    · have hlookup : List.lookup key ((first, found) :: entries) = List.lookup key entries := by
        rw [List.lookup_cons, beq_eq_false_iff_ne.2 hkey]
      rw [hlookup, ih hrest]
      simp [hkey]

/-- Two registries agree on a key when they hold the same of it. -/
theorem entry_congr {registry' : ActorRegistry T}
    (h : ∀ value, (key, value) ∈ registry.entries ↔ (key, value) ∈ registry'.entries) :
    registry.entry key = registry'.entry key :=
  Option.ext fun value => entry_eq_some.trans ((h value).trans entry_eq_some.symm)

@[simp] theorem entry_remove_self (registry : ActorRegistry T) (key : NameKey) :
    (registry.remove key).entry key = none := by
  rw [Option.eq_none_iff_forall_ne_some]
  intro value hvalue
  have hmem := entry_eq_some.1 hvalue
  exact absurd rfl (of_decide_eq_true (List.mem_filter.1 hmem).2)

theorem entry_remove_ne (h : key' ≠ key) : (registry.remove key).entry key' = registry.entry key' :=
  entry_congr fun value => by simp [remove, h]

@[simp] theorem entry_insert_self (registry : ActorRegistry T) (key : NameKey)
    (value : RegistryEntry T) : (registry.insert key value).entry key = some value :=
  entry_eq_some.2 List.mem_cons_self

theorem entry_insert_ne (value : RegistryEntry T) (h : key' ≠ key) :
    (registry.insert key value).entry key' = registry.entry key' :=
  (entry_congr fun other => by simp [insert, h]).trans (entry_remove_ne h)

theorem isReservedBy_iff :
    registry.isReservedBy key identity = true ↔ registry.entry key = some (.reserved identity) := by
  unfold isReservedBy
  rcases registry.entry key with _ | ⟨current⟩ | ⟨current, capability⟩ <;> simp

theorem entry_remove : (registry.remove key).entry key' = some value ↔
    registry.entry key' = some value ∧ key' ≠ key := by
  by_cases hkey : key' = key
  · subst hkey
    simp
  · simp [entry_remove_ne hkey, hkey]

theorem entry_insert {entry value : RegistryEntry T} :
    (registry.insert key entry).entry key' = some value ↔
      (key' = key ∧ entry = value) ∨ (key' ≠ key ∧ registry.entry key' = some value) := by
  by_cases hkey : key' = key
  · subst hkey
    simp
  · simp [entry_insert_ne _ hkey, hkey]

theorem reserve_of_free (h : registry.entry key = none) :
    registry.reserve key identity = (true, registry.insert key (.reserved identity)) := by
  simp [reserve, h]

theorem reserve_of_taken (h : registry.entry key = some value) :
    registry.reserve key identity = (false, registry) := by
  simp [reserve, h]

/-- A rollback removes nothing but the reservation of this identity. -/
theorem entry_rollback :
    (registry.rollback key identity).entry key' = some value ↔
      registry.entry key' = some value ∧ ¬(key' = key ∧ value = .reserved identity) := by
  unfold rollback
  by_cases hreserved : registry.entry key = some (.reserved identity)
  · rw [if_pos (isReservedBy_iff.2 hreserved), entry_remove]
    refine and_congr_right fun hvalue => not_congr ⟨?_, And.left⟩
    rintro rfl
    rw [hreserved] at hvalue
    exact ⟨rfl, (Option.some.inj hvalue).symm⟩
  · rw [if_neg fun h => hreserved (isReservedBy_iff.1 h)]
    refine (and_iff_left_of_imp fun hvalue => ?_).symm
    rintro ⟨rfl, rfl⟩
    exact hreserved hvalue

/-- A detach removes nothing but the committed entry of this identity. -/
theorem entry_detach :
    (registry.detach key identity).entry key' = some value ↔
      registry.entry key' = some value ∧
        ¬(key' = key ∧ ∃ capability, value = .live identity capability) := by
  unfold detach
  split
  next current capability hentry =>
    by_cases hcurrent : current = identity
    · subst hcurrent
      rw [if_pos rfl, entry_remove]
      refine and_congr_right fun hvalue => not_congr ⟨?_, And.left⟩
      rintro rfl
      rw [hentry] at hvalue
      exact ⟨rfl, capability, (Option.some.inj hvalue).symm⟩
    · rw [if_neg hcurrent]
      refine (and_iff_left_of_imp fun hvalue => ?_).symm
      rintro ⟨rfl, other, rfl⟩
      rw [hentry] at hvalue
      exact hcurrent (RegistryEntry.live.inj (Option.some.inj hvalue)).1
  next hentry =>
    refine (and_iff_left_of_imp fun hvalue => ?_).symm
    rintro ⟨rfl, capability, rfl⟩
    exact hentry _ _ hvalue

theorem get_fst {capability : T} :
    (registry.get alive key).1 = some capability ↔
      ∃ identity, registry.entry key = some (.live identity capability) ∧
        alive capability = true := by
  unfold get
  split
  next current found hentry =>
    by_cases halive : alive found = true
    · rw [if_pos halive]
      constructor
      · intro h
        cases h
        exact ⟨current, hentry, halive⟩
      · rintro ⟨identity, h, -⟩
        rw [hentry] at h
        cases h
        rfl
    · rw [if_neg halive]
      refine ⟨nofun, ?_⟩
      rintro ⟨identity, h, halive'⟩
      rw [hentry] at h
      cases h
      exact absurd halive' halive
  next hentry =>
    refine ⟨nofun, ?_⟩
    rintro ⟨identity, h, -⟩
    exact absurd h (hentry _ _)

/-- `get` removes nothing but an entry whose capability is gone. -/
theorem entry_get :
    (registry.get alive key).2.entry key' = some value ↔
      registry.entry key' = some value ∧ (key' = key → retained alive value = true) := by
  unfold get
  split
  next current found hentry =>
    have hfound : ∀ value, registry.entry key = some value → value = .live current found :=
      fun value h => Option.some.inj (h.symm.trans hentry)
    by_cases halive : alive found = true
    · rw [if_pos halive]
      refine (and_iff_left_of_imp fun hvalue => ?_).symm
      rintro rfl
      rw [hfound _ hvalue]
      exact halive
    · rw [if_neg halive, entry_remove]
      refine and_congr_right fun hvalue => ⟨fun hne heq => absurd heq hne, ?_⟩
      rintro hretained rfl
      rw [hfound _ hvalue] at hretained
      exact halive (hretained rfl)
  next hentry =>
    refine (and_iff_left_of_imp fun hvalue => ?_).symm
    rintro rfl
    cases value with
    | reserved => rfl
    | live identity capability => exact absurd hvalue (hentry _ _)

theorem mem_snapshot {capability : T} :
    capability ∈ (registry.snapshot alive).1 ↔
      ∃ key identity, registry.entry key = some (.live identity capability) ∧
        alive capability = true := by
  simp only [snapshot, List.mem_filterMap, Prod.exists, entry_eq_some]
  constructor
  · rintro ⟨key, value, hmem, hupgrade⟩
    cases value with
    | reserved => cases hupgrade
    | live identity found =>
      by_cases halive : alive found = true
      · rw [upgrade, if_pos halive] at hupgrade
        cases hupgrade
        exact ⟨key, identity, hmem, halive⟩
      · rw [upgrade, if_neg halive] at hupgrade
        cases hupgrade
  · rintro ⟨key, identity, hmem, halive⟩
    exact ⟨key, _, hmem, if_pos halive⟩

/-- A snapshot removes nothing but entries whose capability is gone. -/
theorem entry_snapshot :
    (registry.snapshot alive).2.entry key = some value ↔
      registry.entry key = some value ∧ retained alive value = true := by
  rw [entry_eq_some, entry_eq_some]
  exact List.mem_filter

end ActorRegistry

/-! ## Parties -/

/-- `RegistryReservation`, with whether its `commit` has been to the registry. -/
structure RegistryReservation where
  key : NameKey
  identity : ActorIdentity
  committed : Bool
  published : Bool

/-- The registry, what the parties hold, and the capabilities that are alive. -/
structure ProductionState (T : Type) where
  registry : ActorRegistry T
  reservations : ActorIdentity → Option RegistryReservation
  nextIdentity : ActorIdentity
  alive : T → Bool
  /-- An assertion has failed. -/
  asserted : Bool

/-- What a party does. -/
inductive Event (T : Type) where
  | reserve (key : NameKey) (identity : ActorIdentity)
  | commit (key : NameKey) (identity : ActorIdentity) (capability : T)
  | setCommitted (identity : ActorIdentity)
  | drop (identity : ActorIdentity)
  | detach (key : NameKey) (identity : ActorIdentity)
  | get (key : NameKey)
  | snapshot
  | die (capability : T)

section System

variable {T : Type} [DecidableEq T] {identity : ActorIdentity} {event : Event T} {key : NameKey}

def ProductionState.new (alive : T → Bool) : ProductionState T :=
  ⟨.empty, fun _ => none, 0, alive, false⟩

/-- One call, where it can be made. -/
def step (s : ProductionState T) : Event T → Option (ProductionState T)
  | .reserve key identity =>
    -- `reserve_name` refuses the names of scenes, and gives every reservation an identity of its own
    if key.isReservedSceneName ∨ identity ≠ s.nextIdentity then none
    else
      let (reserved, registry) := s.registry.reserve key identity
      some { s with
        registry
        reservations := if reserved then
          Function.update s.reservations identity (some ⟨key, identity, false, false⟩)
          else s.reservations
        nextIdentity := identity + 1 }
  | .commit key identity capability =>
    match s.reservations identity with
    | some reservation =>
      if reservation.key ≠ key ∨ reservation.published ∨ !s.alive capability then none
      else
        match s.registry.commit key identity capability with
        | none => some { s with asserted := true }
        | some registry => some { s with
            registry
            reservations := Function.update s.reservations identity
              (some { reservation with published := true }) }
    | none => none
  | .setCommitted identity =>
    match s.reservations identity with
    | some reservation =>
      if reservation.published then some { s with
        reservations := Function.update s.reservations identity
          (some { reservation with committed := true }) }
      else none
    | none => none
  | .drop identity =>
    match s.reservations identity with
    | some reservation => some { s with
        registry := if reservation.committed then s.registry
          else s.registry.rollback reservation.key identity
        reservations := Function.update s.reservations identity none }
    | none => none
  | .detach key identity => some { s with registry := s.registry.detach key identity }
  | .get key => some { s with registry := (s.registry.get s.alive key).2 }
  | .snapshot => some { s with registry := (s.registry.snapshot s.alive).2 }
  | .die capability => some { s with alive := Function.update s.alive capability false }

/-- A sequence of calls, and where it leads. -/
inductive Runs (alive : T → Bool) : List (Event T) → ProductionState T → Prop where
  | start : Runs alive [] (.new alive)
  | call {events : List (Event T)} {s s' : ProductionState T} {event : Event T}
      (h : Runs alive events s) (hstep : step s event = some s') : Runs alive (events ++ [event]) s'

/-- The capability was committed under the name, and not detached since. -/
def Committed (events : List (Event T)) (key : NameKey) (identity : ActorIdentity)
    (capability : T) : Prop :=
  ∃ before after, events = before ++ .commit key identity capability :: after ∧
    .detach key identity ∉ after

omit [DecidableEq T] in
theorem committed_concat {events : List (Event T)}
    {capability : T} :
    Committed (events ++ [event]) key identity capability ↔
      (Committed events key identity capability ∧ event ≠ .detach key identity) ∨
        event = .commit key identity capability := by
  constructor
  · rintro ⟨before, after, hsplit, hafter⟩
    rcases List.eq_nil_or_concat after with rfl | ⟨after, last, rfl⟩
    · obtain ⟨-, hevent⟩ := List.append_inj' hsplit rfl
      exact .inr (List.cons.inj hevent).1
    · rw [List.concat_eq_append, ← List.cons_append, ← List.append_assoc] at hsplit
      obtain ⟨rfl, hevent⟩ := List.append_inj' hsplit rfl
      obtain ⟨rfl, -⟩ := List.cons.inj hevent
      rw [List.concat_eq_append, List.mem_append, List.mem_singleton, not_or] at hafter
      exact .inl ⟨⟨before, after, rfl, hafter.1⟩, fun h => hafter.2 h.symm⟩
  · rintro (⟨⟨before, after, rfl, hafter⟩, hevent⟩ | rfl)
    · refine ⟨before, after ++ [event], by simp, ?_⟩
      rw [List.mem_append, List.mem_singleton, not_or]
      exact ⟨hafter, fun h => hevent h.symm⟩
    · exact ⟨events, [], rfl, List.not_mem_nil⟩

/-- What holds a name: a reservation that is not committed, or a committed capability that is
alive. -/
def Holds (events : List (Event T)) (s : ProductionState T) (key : NameKey) :
    RegistryEntry T → Prop
  | .reserved identity => ∃ reservation, s.reservations identity = some reservation ∧
      reservation.key = key ∧ reservation.published = false
  | .live identity capability =>
    Committed events key identity capability ∧ s.alive capability = true

/-- The registry says what the parties did. -/
structure Invariant (events : List (Event T)) (s : ProductionState T) : Prop where
  allocated : ∀ identity reservation, s.reservations identity = some reservation →
    identity < s.nextIdentity
  flagged : ∀ identity reservation, s.reservations identity = some reservation →
    reservation.committed = true → reservation.published = true
  owned : ∀ key identity, s.registry.entry key = some (.reserved identity) ↔
    Holds events s key (.reserved identity)
  committed : ∀ key identity capability,
    s.registry.entry key = some (.live identity capability) →
      Committed events key identity capability
  spent : ∀ key identity capability, Committed events key identity capability →
    identity < s.nextIdentity ∧
      ∀ reservation, s.reservations identity = some reservation → reservation.published = true
  held : ∀ key identity capability, Holds events s key (.live identity capability) →
    s.registry.entry key = some (.live identity capability)
  quiet : s.asserted = false

variable {alive : T → Bool} {events : List (Event T)} {s s' : ProductionState T}

omit [DecidableEq T] in
theorem invariant_new (alive : T → Bool) : Invariant [] (.new alive : ProductionState T) where
  allocated := nofun
  flagged := nofun
  owned key identity := by simp [ProductionState.new, ActorRegistry.entry, ActorRegistry.empty, Holds]
  committed := nofun
  spent := by
    rintro key identity capability ⟨before, after, hsplit, -⟩
    simp at hsplit
  held := by
    rintro key identity capability ⟨⟨before, after, hsplit, -⟩, -⟩
    simp at hsplit
  quiet := rfl

omit [DecidableEq T] in
/-- What is known of every reservation, when one is replaced. -/
theorem forall_update {reservations : ActorIdentity → Option RegistryReservation}
    {p : ActorIdentity → RegistryReservation → Prop}
    {replaced : Option RegistryReservation} (hreplaced : ∀ r ∈ replaced, p identity r)
    (h : ∀ identity r, reservations identity = some r → p identity r) (identity' : ActorIdentity)
    (r : RegistryReservation)
    (hupdate : Function.update reservations identity replaced identity' = some r) :
    p identity' r := by
  by_cases hidentity : identity' = identity
  · rw [hidentity, Function.update_self] at hupdate
    exact hidentity ▸ hreplaced r hupdate
  · rw [Function.update_of_ne hidentity] at hupdate
    exact h identity' r hupdate

omit [DecidableEq T] in
/-- What is committed after a call that is neither a commit nor a detach. -/
theorem committed_other
    {capability : T} (hcommit : event ≠ .commit key identity capability)
    (hdetach : event ≠ .detach key identity) :
    Committed (events ++ [event]) key identity capability ↔
      Committed events key identity capability := by
  rw [committed_concat]
  simp [hcommit, hdetach]

theorem Invariant.reserve (h : Invariant events s)
    (hstep : step s (.reserve key identity) = some s') :
    Invariant (events ++ [.reserve key identity]) s' := by
  have hcommitted : ∀ key' identity' capability,
      Committed (events ++ [.reserve key identity]) key' identity' capability ↔
        Committed events key' identity' capability :=
    fun _ _ _ => committed_other nofun nofun
  dsimp only [step] at hstep
  by_cases hrefused : key.isReservedSceneName ∨ identity ≠ s.nextIdentity
  · rw [if_pos hrefused] at hstep
    cases hstep
  rw [if_neg hrefused] at hstep
  rw [not_or, not_not] at hrefused
  obtain ⟨-, rfl⟩ := hrefused
  cases hentry : s.registry.entry key with
  | some value =>
    rw [ActorRegistry.reserve_of_taken hentry] at hstep
    cases hstep
    exact {
      allocated := fun identity reservation hheld =>
        Nat.lt_succ_of_lt (h.allocated identity reservation hheld)
      flagged := h.flagged
      owned := h.owned
      committed := fun key' identity' capability hlive =>
        (hcommitted _ _ _).2 (h.committed key' identity' capability hlive)
      spent := fun key' identity' capability hspent => by
        obtain ⟨hlt, hpublished⟩ := h.spent _ _ _ ((hcommitted key' identity' capability).1 hspent)
        exact ⟨Nat.lt_succ_of_lt hlt, hpublished⟩
      held := fun key' identity' capability hholds =>
        h.held key' identity' capability ⟨(hcommitted _ _ _).1 hholds.1, hholds.2⟩
      quiet := h.quiet }
  | none =>
    rw [ActorRegistry.reserve_of_free hentry] at hstep
    cases hstep
    have hnew : s.reservations s.nextIdentity = none := by
      by_contra hsome
      obtain ⟨reservation, hreservation⟩ := Option.ne_none_iff_exists'.1 hsome
      exact absurd (h.allocated _ _ hreservation) (Nat.lt_irrefl _)
    exact {
      allocated := forall_update (fun _ _ => Nat.lt_succ_self _) fun identity reservation hheld =>
        Nat.lt_succ_of_lt (h.allocated identity reservation hheld)
      flagged := forall_update (by rintro _ ⟨rfl⟩; nofun) h.flagged
      owned := fun key' identity' => by
        show (s.registry.insert key _).entry key' = _ ↔ _
        rw [ActorRegistry.entry_insert]
        simp only [Holds, if_true]
        by_cases hidentity : identity' = s.nextIdentity
        · subst hidentity
          rw [Function.update_self]
          constructor
          · rintro (⟨rfl, -⟩ | ⟨-, hreserved⟩)
            · exact ⟨_, rfl, rfl, rfl⟩
            · obtain ⟨reservation, hreservation, -⟩ := (h.owned _ _).1 hreserved
              rw [hnew] at hreservation
              cases hreservation
          · rintro ⟨reservation, hreservation, rfl, -⟩
            cases hreservation
            exact .inl ⟨rfl, rfl⟩
        · rw [Function.update_of_ne hidentity]
          refine Iff.trans ⟨?_, fun hreserved => .inr ⟨?_, hreserved⟩⟩ (h.owned key' identity')
          · rintro (⟨-, hsame⟩ | ⟨-, hreserved⟩)
            · exact absurd (RegistryEntry.reserved.inj hsame).symm hidentity
            · exact hreserved
          · rintro rfl
            rw [hentry] at hreserved
            cases hreserved
      committed := fun key' identity' capability hlive => by
        rcases ActorRegistry.entry_insert.1 hlive with ⟨-, hsame⟩ | ⟨-, hlive⟩
        · cases hsame
        · exact (hcommitted _ _ _).2 (h.committed key' identity' capability hlive)
      spent := fun key' identity' capability hspent => by
        obtain ⟨hlt, hpublished⟩ := h.spent _ _ _ ((hcommitted key' identity' capability).1 hspent)
        refine ⟨Nat.lt_succ_of_lt hlt, fun reservation hheld => hpublished reservation ?_⟩
        dsimp only at hheld
        rwa [if_pos rfl, Function.update_of_ne (Nat.ne_of_lt hlt)] at hheld
      held := fun key' identity' capability hholds => by
        have hlive := h.held key' identity' capability
          ⟨(hcommitted _ _ _).1 hholds.1, hholds.2⟩
        refine ActorRegistry.entry_insert.2 (.inr ⟨?_, hlive⟩)
        rintro rfl
        rw [hentry] at hlive
        cases hlive
      quiet := h.quiet }

theorem Invariant.commit (h : Invariant events s)
    {capability : T} (hstep : step s (.commit key identity capability) = some s') :
    Invariant (events ++ [.commit key identity capability]) s' := by
  dsimp only [step] at hstep
  cases hreservation : s.reservations identity with
  | none =>
    rw [hreservation] at hstep
    cases hstep
  | some reservation =>
    rw [hreservation] at hstep
    dsimp only at hstep
    by_cases hrefused : reservation.key ≠ key ∨ reservation.published = true ∨
        (!s.alive capability) = true
    · rw [if_pos hrefused] at hstep
      cases hstep
    rw [if_neg hrefused] at hstep
    simp only [not_or, not_not, Bool.not_eq_true, Bool.not_eq_false'] at hrefused
    obtain ⟨rfl, hpublished, -⟩ := hrefused
    -- the reservation still holds its name, so the assertion passes
    have hreserved := (h.owned _ _).2 ⟨reservation, hreservation, rfl, hpublished⟩
    have hcommit : s.registry.commit reservation.key identity capability =
        some (s.registry.insert reservation.key (.live identity capability)) :=
      if_pos (ActorRegistry.isReservedBy_iff.2 hreserved)
    rw [hcommit] at hstep
    cases hstep
    have hother : ∀ key' identity' capability', key' ≠ reservation.key →
        (Committed (events ++ [.commit reservation.key identity capability]) key' identity'
          capability' ↔ Committed events key' identity' capability') :=
      fun key' identity' capability' hkey => committed_other
        (fun hsame => hkey (Event.commit.inj hsame).1.symm) nofun
    exact {
      allocated := forall_update (fun _ _ => h.allocated _ _ hreservation) h.allocated
      flagged := forall_update (by rintro _ ⟨rfl⟩ -; rfl) h.flagged
      owned := fun key' identity' => by
        show (s.registry.insert _ _).entry key' = _ ↔ _
        rw [ActorRegistry.entry_insert]
        simp only [Holds]
        by_cases hidentity : identity' = identity
        · subst hidentity
          rw [Function.update_self]
          constructor
          · rintro (⟨-, hsame⟩ | ⟨hkey, hreserved'⟩)
            · cases hsame
            · obtain ⟨other, hother', hkey', -⟩ := (h.owned _ _).1 hreserved'
              rw [hreservation] at hother'
              cases hother'
              exact absurd hkey'.symm hkey
          · rintro ⟨other, hsame, -, hpublished'⟩
            cases hsame
            cases hpublished'
        · rw [Function.update_of_ne hidentity]
          refine Iff.trans ⟨?_, fun hreserved' => .inr ⟨?_, hreserved'⟩⟩ (h.owned key' identity')
          · rintro (⟨-, hsame⟩ | ⟨-, hreserved'⟩)
            · cases hsame
            · exact hreserved'
          · rintro rfl
            rw [hreserved] at hreserved'
            exact hidentity (RegistryEntry.reserved.inj (Option.some.inj hreserved')).symm
      committed := fun key' identity' capability' hlive => by
        rcases ActorRegistry.entry_insert.1 hlive with ⟨rfl, hsame⟩ | ⟨hkey, hlive⟩
        · cases hsame
          exact committed_concat.2 (.inr rfl)
        · exact (hother _ _ _ hkey).2 (h.committed key' identity' capability' hlive)
      spent := fun key' identity' capability' hspent => by
        rcases committed_concat.1 hspent with ⟨hold, -⟩ | hsame
        · obtain ⟨hlt, hold⟩ := h.spent _ _ _ hold
          refine ⟨hlt, fun other hheld => ?_⟩
          exact forall_update
            (p := fun id other => id = identity' → other.published = true)
            (by rintro _ ⟨rfl⟩ -; rfl) (fun _ _ hheld heq => hold _ (heq ▸ hheld)) identity' other
            hheld rfl
        · cases hsame
          refine ⟨h.allocated _ _ hreservation, fun other hheld => ?_⟩
          dsimp only at hheld
          rw [Function.update_self] at hheld
          cases hheld
          rfl
      held := fun key' identity' capability' hholds => by
        refine ActorRegistry.entry_insert.2 ?_
        rcases committed_concat.1 hholds.1 with ⟨hold, -⟩ | hsame
        · have hlive := h.held key' identity' capability' ⟨hold, hholds.2⟩
          refine .inr ⟨?_, hlive⟩
          rintro rfl
          rw [hreserved] at hlive
          cases hlive
        · cases hsame
          exact .inl ⟨rfl, rfl⟩
      quiet := h.quiet }

/-- Calls that only mark or drop reservations, or remove entries. -/
theorem Invariant.setCommitted (h : Invariant events s)
    (hstep : step s (.setCommitted identity) = some s') :
    Invariant (events ++ [.setCommitted identity]) s' := by
  have hcommitted : ∀ key' identity' capability,
      Committed (events ++ [.setCommitted identity]) key' identity' capability ↔
        Committed events key' identity' capability :=
    fun _ _ _ => committed_other nofun nofun
  dsimp only [step] at hstep
  cases hreservation : s.reservations identity with
  | none =>
    rw [hreservation] at hstep
    cases hstep
  | some reservation =>
    rw [hreservation] at hstep
    dsimp only at hstep
    by_cases hpublished : reservation.published = true
    · rw [if_pos hpublished] at hstep
      cases hstep
      exact {
        allocated := forall_update (fun _ _ => h.allocated _ _ hreservation) h.allocated
        flagged := forall_update (by rintro _ ⟨rfl⟩ -; exact hpublished) h.flagged
        owned := fun key' identity' => by
          refine (h.owned key' identity').trans ?_
          simp only [Holds]
          by_cases hidentity : identity' = identity
          · subst hidentity
            rw [Function.update_self, hreservation]
            simp [hpublished]
          · rw [Function.update_of_ne hidentity]
        committed := fun key' identity' capability hlive =>
          (hcommitted _ _ _).2 (h.committed key' identity' capability hlive)
        spent := fun key' identity' capability hspent => by
          obtain ⟨hlt, hold⟩ := h.spent _ _ _ ((hcommitted key' identity' capability).1 hspent)
          refine ⟨hlt, fun other hheld => ?_⟩
          exact forall_update
            (p := fun id other => id = identity' → other.published = true)
            (by rintro _ ⟨rfl⟩ -; exact hpublished) (fun _ _ hheld heq => hold _ (heq ▸ hheld))
            identity' other hheld rfl
        held := fun key' identity' capability hholds =>
          h.held key' identity' capability ⟨(hcommitted _ _ _).1 hholds.1, hholds.2⟩
        quiet := h.quiet }
    · rw [if_neg hpublished] at hstep
      cases hstep

theorem Invariant.drop (h : Invariant events s)
    (hstep : step s (.drop identity) = some s') : Invariant (events ++ [.drop identity]) s' := by
  have hcommitted : ∀ key' identity' capability,
      Committed (events ++ [.drop identity]) key' identity' capability ↔
        Committed events key' identity' capability :=
    fun _ _ _ => committed_other nofun nofun
  dsimp only [step] at hstep
  cases hreservation : s.reservations identity with
  | none =>
    rw [hreservation] at hstep
    cases hstep
  | some reservation =>
    rw [hreservation] at hstep
    cases hstep
    have howner : ∀ key', s.registry.entry key' = some (.reserved identity) →
        key' = reservation.key ∧ reservation.committed = false := by
      intro key' hreserved
      obtain ⟨other, hother, rfl, hpublished⟩ := (h.owned _ _).1 hreserved
      rw [hreservation] at hother
      cases hother
      refine ⟨rfl, Bool.eq_false_iff.2 fun hflag => ?_⟩
      rw [h.flagged _ _ hreservation hflag] at hpublished
      cases hpublished
    -- the drop removes a reservation of this identity, and nothing else
    have hentry : ∀ key' value, (if reservation.committed = true then s.registry
        else s.registry.rollback reservation.key identity).entry key' = some value ↔
          s.registry.entry key' = some value ∧ value ≠ .reserved identity := by
      intro key' value
      by_cases hflag : reservation.committed = true
      · rw [if_pos hflag]
        refine (and_iff_left_of_imp fun hvalue => ?_).symm
        rintro rfl
        rw [(howner _ hvalue).2] at hflag
        cases hflag
      · rw [if_neg hflag, ActorRegistry.entry_rollback]
        refine and_congr_right fun hvalue => not_congr ⟨And.right, ?_⟩
        rintro rfl
        exact ⟨(howner _ hvalue).1, rfl⟩
    exact {
      allocated := forall_update nofun h.allocated
      flagged := forall_update nofun h.flagged
      owned := fun key' identity' => by
        refine (hentry key' _).trans ?_
        simp only [Holds, ne_eq, RegistryEntry.reserved.injEq]
        by_cases hidentity : identity' = identity
        · subst hidentity
          simp
        · rw [Function.update_of_ne hidentity]
          exact (and_iff_left hidentity).trans (h.owned key' identity')
      committed := fun key' identity' capability hlive =>
        (hcommitted _ _ _).2 (h.committed key' identity' capability ((hentry _ _).1 hlive).1)
      spent := fun key' identity' capability hspent => by
        obtain ⟨hlt, hold⟩ := h.spent _ _ _ ((hcommitted key' identity' capability).1 hspent)
        refine ⟨hlt, fun other hheld => ?_⟩
        have hkept : ∀ id other, s.reservations id = some other → id = identity' →
            other.published = true := fun _ other hheld heq => hold other (heq ▸ hheld)
        have hgone : ∀ r ∈ (none : Option RegistryReservation), identity = identity' →
            r.published = true := nofun
        exact forall_update hgone hkept identity' other hheld rfl
      held := fun key' identity' capability hholds => (hentry _ _).2
        ⟨h.held key' identity' capability ⟨(hcommitted _ _ _).1 hholds.1, hholds.2⟩, nofun⟩
      quiet := h.quiet }

omit [DecidableEq T] in
/-- A call that only takes away committed entries: detached ones, and those whose capability is
gone. -/
theorem Invariant.pruned (h : Invariant events s) {registry : ActorRegistry T}
    {alive' : T → Bool} (keep : NameKey → RegistryEntry T → Prop)
    (hentry : ∀ key value, registry.entry key = some value ↔
      s.registry.entry key = some value ∧ keep key value)
    (hreserved : ∀ key identity, keep key (.reserved identity))
    (hcommit : ∀ key identity capability, event ≠ .commit key identity capability)
    (hdetach : ∀ key identity capability, keep key (.live identity capability) →
      event ≠ .detach key identity)
    (hlost : ∀ key identity capability, ¬keep key (.live identity capability) →
      event = .detach key identity ∨ alive' capability = false)
    (halive : ∀ capability, alive' capability = true → s.alive capability = true) :
    Invariant (events ++ [event]) { s with registry, alive := alive' } where
  allocated := h.allocated
  flagged := h.flagged
  owned key identity := by
    refine (hentry key _).trans ?_
    rw [and_iff_left (hreserved key identity)]
    exact h.owned key identity
  committed key identity capability hlive := by
    obtain ⟨hlive, hkeep⟩ := (hentry _ _).1 hlive
    exact committed_concat.2
      (.inl ⟨h.committed key identity capability hlive, hdetach _ _ _ hkeep⟩)
  spent key identity capability hspent :=
    h.spent key identity capability
      ((committed_concat.1 hspent).resolve_right (hcommit _ _ _)).1
  held key identity capability hholds := by
    have hold : Committed events key identity capability ∧ event ≠ .detach key identity :=
      (committed_concat.1 hholds.1).resolve_right (hcommit _ _ _)
    refine (hentry _ _).2 ⟨h.held key identity capability ⟨hold.1, halive _ hholds.2⟩, ?_⟩
    by_contra hkeep
    rcases hlost _ _ _ hkeep with hdetached | hdead
    · exact hold.2 hdetached
    · exact absurd (hholds.2.symm.trans hdead) (by decide)
  quiet := h.quiet

theorem Invariant.step (h : Invariant events s) (hstep : step s event = some s') :
    Invariant (events ++ [event]) s' := by
  cases event with
  | reserve key identity => exact h.reserve hstep
  | commit key identity capability => exact h.commit hstep
  | setCommitted identity => exact h.setCommitted hstep
  | drop identity => exact h.drop hstep
  | detach key identity =>
    cases hstep
    refine h.pruned (fun key' value => ¬(key' = key ∧ ∃ capability, value = .live identity capability))
      (fun _ _ => ActorRegistry.entry_detach) ?_ nofun ?_ ?_ fun _ => id
    · rintro key' identity' ⟨-, capability, hsame⟩
      cases hsame
    · rintro key' identity' capability hkeep hsame
      obtain ⟨rfl, rfl⟩ := Event.detach.inj hsame
      exact hkeep ⟨rfl, capability, rfl⟩
    · intro key' identity' capability hkeep
      obtain ⟨rfl, other, hsame⟩ := not_not.1 hkeep
      cases hsame
      exact .inl rfl
  | get key =>
    cases hstep
    refine h.pruned (fun key' value => key' = key → ActorRegistry.retained s.alive value = true)
      (fun _ _ => ActorRegistry.entry_get) (fun _ _ _ => rfl) nofun nofun ?_ fun _ => id
    intro key' identity capability hkeep
    rw [Classical.not_imp] at hkeep
    exact .inr (Bool.eq_false_iff.2 hkeep.2)
  | snapshot =>
    cases hstep
    refine h.pruned (fun _ value => ActorRegistry.retained s.alive value = true)
      (fun _ _ => ActorRegistry.entry_snapshot) (fun _ _ => rfl) nofun nofun ?_ fun _ => id
    intro key' identity capability hkeep
    exact .inr (Bool.eq_false_iff.2 hkeep)
  | die capability =>
    cases hstep
    refine h.pruned (fun _ _ => True) (fun _ _ => (and_iff_left trivial).symm)
      (fun _ _ => trivial) nofun nofun (fun _ _ _ hkeep => absurd trivial hkeep) ?_
    intro other hother
    by_cases hsame : other = capability
    · rw [hsame, Function.update_self] at hother
      cases hother
    · rwa [Function.update_of_ne hsame] at hother

theorem Runs.invariant (h : Runs alive events s) : Invariant events s := by
  induction h with
  | start => exact invariant_new alive
  | call _ hstep ih => exact ih.step hstep

/-! ## The registry under any interleaving -/

/-- Who issues a call, when it is the holder of a reservation or of a committed name. -/
def Event.issuer : Event T → Option ActorIdentity
  | .commit _ identity _ => some identity
  | .setCommitted identity => some identity
  | .drop identity => some identity
  | .detach _ identity => some identity
  | .reserve .. => none
  | .get _ => none
  | .snapshot => none
  | .die _ => none

omit [DecidableEq T] in
/-- A name has one holder. -/
theorem Invariant.holder_unique (h : Invariant events s)
    {holder holder' : RegistryEntry T} (hholds : Holds events s key holder)
    (hholds' : Holds events s key holder') : holder = holder' := by
  have hentry : ∀ holder, Holds events s key holder → s.registry.entry key = some holder := by
    rintro (identity | ⟨identity, capability⟩) hholder
    · exact (h.owned key identity).2 hholder
    · exact h.held key identity capability hholder
  exact Option.some.inj ((hentry holder hholds).symm.trans (hentry holder' hholds'))

/-- What a call leaves of an entry that its issuer does not hold. -/
theorem step_entry (hstep : step s event = some s')
    {value : RegistryEntry T} (hvalue : s.registry.entry key = some value)
    (hissuer : ∀ identity ∈ event.issuer, identity ≠ value.identity)
    (hretained : ActorRegistry.retained s.alive value = true) :
    s'.registry.entry key = some value := by
  cases event with
  | reserve key' identity =>
    dsimp only [step] at hstep
    split at hstep
    · cases hstep
    · cases hentry : s.registry.entry key' with
      | some other =>
        rw [ActorRegistry.reserve_of_taken hentry] at hstep
        cases hstep
        exact hvalue
      | none =>
        rw [ActorRegistry.reserve_of_free hentry] at hstep
        cases hstep
        refine ActorRegistry.entry_insert.2 (.inr ⟨?_, hvalue⟩)
        rintro rfl
        rw [hentry] at hvalue
        cases hvalue
  | commit key' identity capability =>
    have hother : identity ≠ value.identity := hissuer identity rfl
    dsimp only [step] at hstep
    split at hstep
    · split at hstep
      · cases hstep
      · split at hstep
        · cases hstep
          exact hvalue
        next registry hcommit =>
          cases hstep
          unfold ActorRegistry.commit at hcommit
          split at hcommit
          next hreserved =>
            cases hcommit
            refine ActorRegistry.entry_insert.2 (.inr ⟨?_, hvalue⟩)
            rintro rfl
            rw [ActorRegistry.isReservedBy_iff.1 hreserved] at hvalue
            cases hvalue
            exact hother rfl
          · cases hcommit
    · cases hstep
  | setCommitted identity =>
    dsimp only [step] at hstep
    split at hstep
    · split at hstep
      · cases hstep
        exact hvalue
      · cases hstep
    · cases hstep
  | drop identity =>
    have hother : identity ≠ value.identity := hissuer identity rfl
    dsimp only [step] at hstep
    split at hstep
    · cases hstep
      dsimp only
      split
      · exact hvalue
      · refine ActorRegistry.entry_rollback.2 ⟨hvalue, ?_⟩
        rintro ⟨-, rfl⟩
        exact hother rfl
    · cases hstep
  | detach key' identity =>
    have hother : identity ≠ value.identity := hissuer identity rfl
    cases hstep
    refine ActorRegistry.entry_detach.2 ⟨hvalue, ?_⟩
    rintro ⟨-, capability, rfl⟩
    exact hother rfl
  | get key' =>
    cases hstep
    exact ActorRegistry.entry_get.2 ⟨hvalue, fun _ => hretained⟩
  | snapshot =>
    cases hstep
    exact ActorRegistry.entry_snapshot.2 ⟨hvalue, hretained⟩
  | die capability =>
    cases hstep
    exact hvalue

/-- **Names are safe under any interleaving.** A name has one holder, and `get` and `snapshot` find
exactly the committed capabilities that are alive. A call changes no entry but those of its issuer,
and those whose capability is gone; a detached name can be reserved again unless a successor has it.
No assertion fails. -/
theorem registry_safe (alive : T → Bool) :
    ∀ (events : List (Event T)) (s : ProductionState T), Runs alive events s →
      (∀ key holder holder', Holds events s key holder → Holds events s key holder' →
        holder = holder') ∧
      (∀ key capability, (s.registry.get s.alive key).1 = some capability ↔
        ∃ identity, Holds events s key (.live identity capability)) ∧
      (∀ capability, capability ∈ (s.registry.snapshot s.alive).1 ↔
        ∃ key identity, Holds events s key (.live identity capability)) ∧
      (∀ event s', step s event = some s' → ∀ key value, s.registry.entry key = some value →
        (∀ identity ∈ event.issuer, identity ≠ value.identity) →
        ActorRegistry.retained s.alive value = true → s'.registry.entry key = some value) ∧
      (∀ key identity key' value, s.registry.entry key' = some value → identity ≠ value.identity →
        (s.registry.rollback key identity).entry key' = some value ∧
          (s.registry.detach key identity).entry key' = some value) ∧
      (∀ key identity capability, Committed events key identity capability →
        (∀ value, s.registry.entry key = some value → value.identity = identity) →
        ∀ identity', ((s.registry.detach key identity).reserve key identity').1 = true) ∧
      s.asserted = false := by
  intro events s hruns
  have h := hruns.invariant
  have hlive : ∀ key identity capability,
      (s.registry.entry key = some (.live identity capability) ∧ s.alive capability = true) ↔
        Holds events s key (.live identity capability) := fun key identity capability =>
    ⟨fun hentry => ⟨h.committed _ _ _ hentry.1, hentry.2⟩,
      fun hholds => ⟨h.held _ _ _ hholds, hholds.2⟩⟩
  refine ⟨fun _ _ _ => h.holder_unique, fun key capability => ?_, fun capability => ?_,
    fun event s' hstep key value => step_entry hstep, fun key identity key' value hvalue hne => ?_,
    fun key identity capability hcommitted hown identity' => ?_, h.quiet⟩
  · exact ActorRegistry.get_fst.trans (exists_congr fun identity => hlive key identity capability)
  · exact ActorRegistry.mem_snapshot.trans
      (exists_congr fun key => exists_congr fun identity => hlive key identity capability)
  · refine ⟨ActorRegistry.entry_rollback.2 ⟨hvalue, ?_⟩, ActorRegistry.entry_detach.2 ⟨hvalue, ?_⟩⟩
    · rintro ⟨-, rfl⟩
      exact hne rfl
    · rintro ⟨-, other, rfl⟩
      exact hne rfl
  · rw [ActorRegistry.reserve_of_free]
    rw [Option.eq_none_iff_forall_ne_some]
    intro value hvalue
    obtain ⟨hentry, hkept⟩ := ActorRegistry.entry_detach.1 hvalue
    obtain rfl := hown value hentry
    cases value with
    | reserved =>
      obtain ⟨reservation, hheld, -, hpublished⟩ := (h.owned _ _).1 hentry
      rw [(h.spent _ _ _ hcommitted).2 reservation hheld] at hpublished
      cases hpublished
    | live identity found => exact hkept ⟨rfl, found, rfl⟩

/-- An actor takes over a name, and its predecessor detaches it once more. -/
theorem registry_safe_taken_over :
    ∃ events s, Runs (fun _ : Nat => true) events s ∧
      s.registry.entry [97] = some (.reserved 1) ∧ (s.registry.get s.alive [97]).1 = none ∧
      (s.registry.detach [97] 0).entry [97] = some (.reserved 1) := by
  let events : List (Event Nat) := [.reserve [97] 0, .commit [97] 0 7, .setCommitted 0, .drop 0,
    .detach [97] 0, .reserve [97] 1, .detach [97] 0]
  have hruns : ∃ s, Runs (fun _ : Nat => true) events s ∧
      s.registry.entry [97] = some (.reserved 1) :=
    ⟨_, .call (.call (.call (.call (.call (.call (.call .start rfl) rfl) rfl) rfl) rfl) rfl) rfl, rfl⟩
  obtain ⟨s, hruns, hentry⟩ := hruns
  obtain ⟨-, -, -, -, hforeign, -, -⟩ := registry_safe (fun _ => true) events s hruns
  refine ⟨events, s, hruns, hentry, ?_, (hforeign [97] 0 [97] _ hentry (by decide)).2⟩
  simp only [ActorRegistry.get, hentry]

end System

end Troupe.Orchestration
