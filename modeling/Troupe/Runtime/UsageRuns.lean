import Troupe.Lib.Transition
import Troupe.Runtime.UsageFinalization

/-! # Runs of the usage router

Any number of slots, destinations and sessions use one router. A step is what one call does under the
router's lock, or a change that a producer makes to the state it shares with a slot; between the two
parts of a call others may have their steps. A slot is handed over once, since it cannot be copied; other
slots may have the same act.

What has happened is in `log`: the calls the router made, and the sessions and candidates it took in. -/

namespace Troupe.Runtime

open Relation (ReflTransGen)
open Troupe.Lib Troupe.Core

variable {log more : List UsageRecord}

/-! ## Producers -/

/-- A change of the state of a slot. -/
inductive ProducerMove where
  | promptSubmitted
  | settled (settlement : SettlementBoundary)

def SlotSnapshot.move (state : SlotSnapshot) : ProducerMove → SlotSnapshot
  | .promptSubmitted => state.markPromptSubmitted
  | .settled settlement => state.settle settlement

/-- The changes a producer makes one after the other. -/
def SlotSnapshot.moves (state : SlotSnapshot) (moves : List ProducerMove) : SlotSnapshot :=
  moves.foldl SlotSnapshot.move state

/-- A state that a slot may have later: what is known stays as it is. -/
structure SlotSnapshot.Later (state later : SlotSnapshot) : Prop where
  submitted : state.promptSubmitted = true → later.promptSubmitted = true
  settlement : ∀ settlement, state.settlement = some settlement → later.settlement = some settlement

theorem SlotSnapshot.Later.refl (state : SlotSnapshot) : state.Later state := ⟨id, fun _ => id⟩

theorem SlotSnapshot.Later.trans {a b c : SlotSnapshot} (hab : a.Later b) (hbc : b.Later c) :
    a.Later c :=
  ⟨hbc.submitted ∘ hab.submitted, fun s h => hbc.settlement s (hab.settlement s h)⟩

/-- A prompt is submitted before anything but its absence is settled. -/
def SlotSnapshot.Lawful (state : SlotSnapshot) : Prop :=
  match state.settlement with
  | none => True
  | some .notSubmitted => state.promptSubmitted = false
  | some _ => state.promptSubmitted = true

theorem SlotSnapshot.move_later (state : SlotSnapshot) (move : ProducerMove) :
    state.Later (state.move move) := by
  obtain ⟨submitted, settlement⟩ := state
  cases move with
  | promptSubmitted =>
    cases submitted <;> cases settlement <;> exact ⟨fun h => by first | exact h | rfl, fun _ h => h⟩
  | settled boundary =>
    refine ⟨fun h => ?_, fun s h => ?_⟩
    · cases h
      cases settlement <;> cases boundary <;> rfl
    · cases h
      rfl

theorem SlotSnapshot.move_lawful {state : SlotSnapshot} (h : state.Lawful) (move : ProducerMove) :
    (state.move move).Lawful := by
  obtain ⟨submitted, settlement⟩ := state
  cases settlement with
  | some settlement =>
    have hkept : SlotSnapshot.move ⟨submitted, some settlement⟩ move = ⟨submitted, some settlement⟩ := by
      cases move with
      | promptSubmitted => cases submitted <;> rfl
      | settled boundary => rfl
    rw [hkept]
    exact h
  | none =>
    cases move with
    | promptSubmitted => cases submitted <;> exact trivial
    | settled boundary => cases submitted <;> cases boundary <;> first | exact trivial | exact rfl

theorem SlotSnapshot.moves_later (state : SlotSnapshot) (moves : List ProducerMove) :
    state.Later (state.moves moves) := by
  induction moves generalizing state with
  | nil => exact .refl state
  | cons move rest ih => exact (state.move_later move).trans (ih (state.move move))

theorem SlotSnapshot.moves_lawful {state : SlotSnapshot} (h : state.Lawful)
    (moves : List ProducerMove) : (state.moves moves).Lawful := by
  induction moves generalizing state with
  | nil => exact h
  | cons move rest ih => exact ih (state.move_lawful h move)

/-! ## Runs -/

/-- Something that has happened. -/
inductive UsageRecord where
  | called (effect : UsageEffect)
  /-- A session was bound to the act of a slot. -/
  | bound (identity : Nat) (session : SessionKey)
  /-- A candidate of a session was accepted for the act of a slot. -/
  | candidate (identity : Nat) (session : SessionKey) (usage : AgentTurnUsage)
  | terminal (session : SessionKey)

/-- The router, and all around it. -/
structure UsageWorld where
  /-- `UsageFinalizationIdentity`, shared by a slot and its producer. -/
  identities : Nat → SlotSnapshot
  /-- The slots that their producers have given away. -/
  handedOver : Nat → Bool
  router : RouterState
  log : List UsageRecord

namespace UsageWorld

def initial : UsageWorld := ⟨fun _ => .default, fun _ => false, .default, []⟩

/-- The slot the router has for an act. -/
def slotOf (world : UsageWorld) (actId : String) : Option UsageFinalizationSlot :=
  (world.router.acts actId).bind ActFinalization.slot

def produce (world : UsageWorld) (identity : Nat) (move : ProducerMove) : UsageWorld :=
  { world with
    identities := Function.update world.identities identity ((world.identities identity).move move) }

def registerSlot (world : UsageWorld) (slot : UsageFinalizationSlot)
    (lineage : Option (DiagnosticScope × SchemaU64)) : UsageWorld :=
  { world with
    handedOver := Function.update world.handedOver slot.identity true
    router := (world.router.registerSlot slot lineage).2 }

/-- What `bind` takes in. -/
def bindRecords (slot : Option UsageFinalizationSlot) (session : Option SessionKey) :
    Except AgentDiagnosticErrorCode (Option DriveStatus) → List UsageRecord
  | .ok none =>
    match slot, session with
    | some slot, some session => [.bound slot.identity session]
    | _, _ => []
  | _ => []

def bind (world : UsageWorld) (actId : String) (context : Nat) (session : Option SessionKey) :
    UsageWorld :=
  { world with
    router := (world.router.bind actId context session).2
    log := world.log ++
      bindRecords (world.slotOf actId) session (world.router.bind actId context session).1 }

/-- What `observe_candidate` takes in. -/
def candidateRecords (slot : Option UsageFinalizationSlot) (session : SessionKey)
    (usage : AgentTurnUsage) :
    Except AgentDiagnosticErrorCode (Option DriveStatus) → List UsageRecord
  | .ok none =>
    match slot with
    | some slot => [.candidate slot.identity session usage]
    | none => []
  | _ => []

def observeCandidate (world : UsageWorld) (actId : String) (session : SessionKey)
    (usage : AgentTurnUsage) : UsageWorld :=
  { world with
    router := (world.router.observeCandidate actId session usage).2
    log := world.log ++ candidateRecords (world.slotOf actId) session usage
      (world.router.observeCandidate actId session usage).1 }

def sessionTerminal (world : UsageWorld) (session : Option SessionKey) : UsageWorld :=
  { world with
    router := world.router.sessionTerminal session
    log := world.log ++ session.toList.map .terminal }

/-- The states of the slot of an act during a `drive`. -/
def environment (world : UsageWorld) (actId : String) (clock : Option Nat)
    (admission : Option SchemaU64) (moves : List ProducerMove) : DriveEnvironment :=
  let snapshot := ((world.slotOf actId).map fun slot => world.identities slot.identity).getD .default
  ⟨clock, admission, snapshot, snapshot.moves moves⟩

def drive (world : UsageWorld) (actId : String) (clock : Option Nat) (admission : Option SchemaU64)
    (moves : List ProducerMove) : UsageWorld :=
  let env := world.environment actId clock admission moves
  { world with
    identities := match world.slotOf actId with
      | none => world.identities
      | some slot => Function.update world.identities slot.identity env.acknowledging
    router := (world.router.drive actId env).2.1
    log := world.log ++ (world.router.drive actId env).2.2.map .called }

/-- One step of anybody. -/
inductive Step : UsageWorld → UsageWorld → Prop where
  | produce (world : UsageWorld) (identity : Nat) (move : ProducerMove) :
    Step world (world.produce identity move)
  | registerSlot (world : UsageWorld) (slot : UsageFinalizationSlot)
    (lineage : Option (DiagnosticScope × SchemaU64))
    (hheld : world.handedOver slot.identity = false) : Step world (world.registerSlot slot lineage)
  | bind (world : UsageWorld) (actId : String) (context : Nat) (session : Option SessionKey) :
    Step world (world.bind actId context session)
  | observeCandidate (world : UsageWorld) (actId : String) (session : SessionKey)
    (usage : AgentTurnUsage) : Step world (world.observeCandidate actId session usage)
  | sessionTerminal (world : UsageWorld) (session : Option SessionKey) :
    Step world (world.sessionTerminal session)
  | drive (world : UsageWorld) (actId : String) (clock : Option Nat) (admission : Option SchemaU64)
    (moves : List ProducerMove) : Step world (world.drive actId clock admission moves)

/-- The worlds of all runs. -/
def Reachable (world : UsageWorld) : Prop := ReflTransGen Step initial world

end UsageWorld

/-! ## What has happened to a slot -/

/-- The slot that a call is for. -/
def UsageEffect.identity? : UsageEffect → Option Nat
  | .admission slot _ _ => slot.map (·.identity)
  | .acknowledged ack => some ack.identity
  | .notified slot _ _ => slot.map (·.identity)

/-- The calls made for a slot. -/
def callsOf (identity : Nat) (log : List UsageRecord) : List UsageEffect :=
  log.filterMap fun
    | .called effect => if effect.identity? = some identity then some effect else none
    | _ => none

/-- A session was taken in for the act of a slot. -/
def Named (identity : Nat) (session : SessionKey) (log : List UsageRecord) : Prop :=
  .bound identity session ∈ log ∨ ∃ usage, .candidate identity session usage ∈ log

theorem callsOf_append (identity : Nat) (log more : List UsageRecord) :
    callsOf identity (log ++ more) = callsOf identity log ++ callsOf identity more :=
  List.filterMap_append

theorem named_append {identity : Nat} {session : SessionKey} :
    Named identity session (log ++ more) ↔ Named identity session log ∨ Named identity session more := by
  unfold Named
  simp only [List.mem_append, exists_or, or_assoc, or_left_comm]

/-- The calls for a slot, by the phase its act is in. -/
inductive Progress : FinalizationPhase → List UsageEffect → Prop where
  | pending : Progress .pending []
  | admitted (slot : Option UsageFinalizationSlot) (event : AdmittedUsage) (sequence : SchemaU64) :
    Progress (.admitted sequence) [.admission slot event (.ok sequence)]
  | finalized (slot : Option UsageFinalizationSlot) (event : AdmittedUsage)
    (ack : UsageFinalizationAck) : Progress .finalized
      [.admission slot event (.ok ack.usageSequence), .acknowledged ack]
  | clockFailed (slot : Option UsageFinalizationSlot) (actId : String)
    (errorCode : AgentDiagnosticErrorCode) :
    Progress (.failed errorCode) [.notified slot actId errorCode]
  | admissionFailed (slot : Option UsageFinalizationSlot) (event : AdmittedUsage) (actId : String)
    (errorCode : AgentDiagnosticErrorCode) : Progress (.failed errorCode)
      [.admission slot event (.error errorCode), .notified slot actId errorCode]

/-- Why a usage is the one of an act. -/
inductive Justified (world : UsageWorld) (identity : Nat) : FinalUsage → Prop where
  | candidate (usage : AgentTurnUsage) (session : SessionKey)
    (hsettled : (world.identities identity).settlement = some .authoritative)
    (hauthoritative : (FinalUsage.fromCandidate usage).isAuthoritative = true)
    (hobserved : .candidate identity session usage ∈ world.log) :
    Justified world identity (.fromCandidate usage)
  | notSubmitted (hsettled : (world.identities identity).settlement = some .notSubmitted) :
    Justified world identity .promptNotSubmitted
  | settledUnknown (hsettled : (world.identities identity).settlement = some .unknown) :
    Justified world identity .turnSettlementUnknown
  | sessionEnded (session : SessionKey)
    (hsubmitted : (world.identities identity).promptSubmitted = true)
    (hnamed : Named identity session world.log) (hterminal : .terminal session ∈ world.log) :
    Justified world identity .turnSettlementUnknown

/-- An act that the router has. -/
structure EntryOk (world : UsageWorld) (actId : String) (entry : ActFinalization)
    (slot : UsageFinalizationSlot) : Prop where
  hasSlot : entry.slot = some slot
  ofAct : slot.actId = actId
  handedOver : world.handedOver slot.identity = true
  progress : Progress entry.machine.phase (callsOf slot.identity world.log)
  active : entry.machine.phase ≠ .finalized
  candidate : ∀ usage, entry.machine.candidate = some usage → usage.isAuthoritative = true ∧
    ∃ session turn, .candidate slot.identity session turn ∈ world.log ∧ usage = .fromCandidate turn
  terminal : entry.machine.sessionTerminalObserved = true →
    ∃ session, entry.session = some session ∧ .terminal session ∈ world.log
  named : ∀ session, Named slot.identity session world.log ↔ entry.session = some session

/-- What holds in every run. -/
structure UsageWorld.Sound (world : UsageWorld) : Prop where
  entries : ∀ actId entry, world.router.acts actId = some entry →
    ∃ slot, EntryOk world actId entry slot
  /-- A slot is with one act. -/
  distinct : ∀ actId other slot slot', world.slotOf actId = some slot →
    world.slotOf other = some slot' → slot.identity = slot'.identity → actId = other
  fresh : ∀ identity, world.handedOver identity = false →
    callsOf identity world.log = [] ∧ ∀ session, ¬ Named identity session world.log
  gone : ∀ identity, (∀ actId slot, world.slotOf actId = some slot → slot.identity ≠ identity) →
    callsOf identity world.log = [] ∨ Progress .finalized (callsOf identity world.log)
  justified : ∀ slot event result, .called (.admission (some slot) event result) ∈ world.log →
    Justified world slot.identity event.usage
  settled : ∀ ack, .called (.acknowledged ack) ∈ world.log →
    (world.identities ack.identity).settlement.isSome = true
  agree : ∀ identity session session', Named identity session world.log →
    Named identity session' world.log → session = session'
  lawful : ∀ identity, (world.identities identity).Lawful

/-! ## What stays as it is -/

/-- Nothing has happened to a slot. -/
structure Silent (identity : Nat) (log : List UsageRecord) : Prop where
  calls : callsOf identity log = []
  named : ∀ session, ¬ Named identity session log

theorem silent_nil (identity : Nat) : Silent identity [] :=
  ⟨rfl, fun _ h => h.elim (fun h => (nomatch h)) fun ⟨_, h⟩ => (nomatch h)⟩

theorem callsOf_silent {identity : Nat} (h : Silent identity more) :
    callsOf identity (log ++ more) = callsOf identity log := by
  rw [callsOf_append, h.calls, List.append_nil]

theorem named_silent {identity : Nat} (h : Silent identity more)
    {session : SessionKey} :
    Named identity session (log ++ more) ↔ Named identity session log := by
  rw [named_append]
  exact or_iff_left (h.named session)

section Step

variable {world next : UsageWorld} {more : List UsageRecord} {slot : UsageFinalizationSlot}
  {entry : ActFinalization} {session : SessionKey} {actId : String}

/-- A justification lasts. -/
theorem Justified.later {identity : Nat} {usage : FinalUsage} (h : Justified world identity usage)
    (hlater : (world.identities identity).Later (next.identities identity))
    (hlog : next.log = world.log ++ more) : Justified next identity usage := by
  have hkept {record : UsageRecord} (hrecord : record ∈ world.log) : record ∈ next.log := by
    rw [hlog]
    exact List.mem_append_left _ hrecord
  cases h with
  | candidate usage session hsettled hauthoritative hobserved =>
    exact .candidate usage session (hlater.settlement _ hsettled) hauthoritative (hkept hobserved)
  | notSubmitted hsettled => exact .notSubmitted (hlater.settlement _ hsettled)
  | settledUnknown hsettled => exact .settledUnknown (hlater.settlement _ hsettled)
  | sessionEnded session hsubmitted hnamed hterminal =>
    refine .sessionEnded session (hlater.submitted hsubmitted) ?_ (hkept hterminal)
    rw [hlog]
    exact named_append.mpr (.inl hnamed)

/-- An act that nothing happens to. -/
theorem EntryOk.frame
    (h : EntryOk world actId entry slot) (hhanded : next.handedOver slot.identity = true)
    (hlog : next.log = world.log ++ more) (hsilent : Silent slot.identity more) :
    EntryOk next actId entry slot where
  hasSlot := h.hasSlot
  ofAct := h.ofAct
  handedOver := hhanded
  progress := by
    rw [hlog, callsOf_silent hsilent]
    exact h.progress
  active := h.active
  candidate usage husage := by
    obtain ⟨hauthoritative, session, turn, hmem, husage⟩ := h.candidate usage husage
    refine ⟨hauthoritative, session, turn, ?_, husage⟩
    rw [hlog]
    exact List.mem_append_left _ hmem
  terminal hobserved := by
    obtain ⟨session, hsession, hmem⟩ := h.terminal hobserved
    refine ⟨session, hsession, ?_⟩
    rw [hlog]
    exact List.mem_append_left _ hmem
  named session := by
    rw [hlog, named_silent hsilent]
    exact h.named session

theorem UsageWorld.slotOf_eq
    (hentry : world.router.acts actId = some entry)
    (hslot : entry.slot = some slot) : world.slotOf actId = some slot := by
  rw [slotOf, hentry, Option.bind_some, hslot]

/-- What a step does to the producers' slots and to the log. -/
structure Continues (world next : UsageWorld) (more : List UsageRecord) : Prop where
  handedOver : next.handedOver = world.handedOver
  later : ∀ identity, (world.identities identity).Later (next.identities identity)
  lawful : ∀ identity, (next.identities identity).Lawful
  log : next.log = world.log ++ more
  justified : ∀ slot event result, .called (.admission (some slot) event result) ∈ more →
    Justified next slot.identity event.usage
  settled : ∀ ack, .called (.acknowledged ack) ∈ more →
    (next.identities ack.identity).settlement.isSome = true

/-- What a step does to the router's slots: none is new, and what is logged is about them. -/
structure Kept (world next : UsageWorld) (more : List UsageRecord) : Prop
    extends Continues world next more where
  entries : ∀ actId entry, next.router.acts actId = some entry → ∃ slot, EntryOk next actId entry slot
  slots : ∀ actId slot, next.slotOf actId = some slot → world.slotOf actId = some slot
  silent : ∀ identity, (∀ actId slot, world.slotOf actId = some slot → slot.identity ≠ identity) →
    Silent identity more
  gone : ∀ actId slot, world.slotOf actId = some slot → next.slotOf actId = none →
    Progress .finalized (callsOf slot.identity next.log) ∧
      ∀ session, ¬ Named slot.identity session more

/-- The act of a slot that the router has. -/
theorem UsageWorld.Sound.entryOf (h : world.Sound)
    (hslot : world.slotOf actId = some slot) :
    ∃ entry, world.router.acts actId = some entry ∧ EntryOk world actId entry slot := by
  unfold UsageWorld.slotOf at hslot
  obtain ⟨entry, hentry, hslot⟩ := Option.bind_eq_some_iff.mp hslot
  obtain ⟨found, hok⟩ := h.entries actId entry hentry
  rw [hok.hasSlot, Option.some.injEq] at hslot
  rw [← hslot]
  exact ⟨entry, hentry, hok⟩

theorem UsageWorld.Sound.kept (h : world.Sound) (hkept : Kept world next more) : next.Sound := by
  -- a slot that the router has no longer was with the same act
  have hnone {actId : String} {slot : UsageFinalizationSlot} (hslot : world.slotOf actId = some slot)
      (hgone : ∀ actId found, next.slotOf actId = some found → found.identity ≠ slot.identity) :
      next.slotOf actId = none := by
    cases hfound : next.slotOf actId with
    | none => rfl
    | some found =>
      have hsame := hkept.slots actId found hfound
      rw [hslot, Option.some.injEq] at hsame
      rw [hsame] at hgone
      exact absurd rfl (hgone actId found hfound)
  exact {
    entries := hkept.entries
    distinct actId other slot slot' hslot hslot' hsame :=
      h.distinct actId other slot slot' (hkept.slots _ _ hslot) (hkept.slots _ _ hslot') hsame
    fresh identity hheld := by
      rw [hkept.handedOver] at hheld
      have hsilent : Silent identity more := by
        refine hkept.silent identity fun actId slot hslot heq => ?_
        obtain ⟨entry, -, hok⟩ := h.entryOf hslot
        rw [← heq, hok.handedOver] at hheld
        cases hheld
      obtain ⟨hcalls, hnamed⟩ := h.fresh identity hheld
      rw [hkept.log, callsOf_silent hsilent]
      exact ⟨hcalls, fun session hsession => hnamed session ((named_silent hsilent).mp hsession)⟩
    gone identity hgone := by
      by_cases hhad : ∃ actId slot, world.slotOf actId = some slot ∧ slot.identity = identity
      · obtain ⟨actId, slot, hslot, rfl⟩ := hhad
        exact .inr (hkept.gone actId slot hslot (hnone hslot hgone)).1
      · have hsilent := hkept.silent identity fun actId slot hslot heq =>
          hhad ⟨actId, slot, hslot, heq⟩
        rw [hkept.log, callsOf_silent hsilent]
        exact h.gone identity fun actId slot hslot heq => hhad ⟨actId, slot, hslot, heq⟩
    justified slot event result hmem := by
      rw [hkept.log, List.mem_append] at hmem
      rcases hmem with hmem | hmem
      · exact (h.justified slot event result hmem).later (hkept.later _) hkept.log
      · exact hkept.justified slot event result hmem
    settled ack hmem := by
      rw [hkept.log, List.mem_append] at hmem
      rcases hmem with hmem | hmem
      · obtain ⟨settlement, hsettlement⟩ := Option.isSome_iff_exists.mp (h.settled ack hmem)
        rw [(hkept.later _).settlement settlement hsettlement]
        rfl
      · exact hkept.settled ack hmem
    agree identity session session' hsession hsession' := by
      have hold (hnew : ∀ session, ¬ Named identity session more) : session = session' := by
        rw [hkept.log, named_append] at hsession hsession'
        exact h.agree identity session session' (hsession.resolve_right (hnew session))
          (hsession'.resolve_right (hnew session'))
      by_cases hhas : ∃ actId slot, next.slotOf actId = some slot ∧ slot.identity = identity
      · obtain ⟨actId, slot, hslot, rfl⟩ := hhas
        obtain ⟨entry, hentry, hslot⟩ := Option.bind_eq_some_iff.mp hslot
        obtain ⟨found, hok⟩ := hkept.entries actId entry hentry
        rw [hok.hasSlot, Option.some.injEq] at hslot
        subst hslot
        have hsame := ((hok.named session).mp hsession).symm.trans ((hok.named session').mp hsession')
        exact Option.some.inj hsame
      · have hgone : ∀ actId slot, next.slotOf actId = some slot → slot.identity ≠ identity :=
          fun actId slot hslot heq => hhas ⟨actId, slot, hslot, heq⟩
        by_cases hhad : ∃ actId slot, world.slotOf actId = some slot ∧ slot.identity = identity
        · obtain ⟨actId, slot, hslot, rfl⟩ := hhad
          exact hold (hkept.gone actId slot hslot (hnone hslot hgone)).2
        · exact hold (hkept.silent identity fun actId slot hslot heq =>
            hhad ⟨actId, slot, hslot, heq⟩).named
    lawful := hkept.lawful }

/-- A step that is about the entry of one act, which it replaces or removes. -/
structure Replaced (world next : UsageWorld) (actId : String) (slot : UsageFinalizationSlot)
    (replacement : Option ActFinalization) (more : List UsageRecord) : Prop
    extends Continues world next more where
  acts : next.router.acts = Function.update world.router.acts actId replacement
  silent : ∀ identity, identity ≠ slot.identity → Silent identity more
  entry : ∀ entry, replacement = some entry → EntryOk next actId entry slot
  gone : replacement = none → Progress .finalized (callsOf slot.identity next.log) ∧
    ∀ session, ¬ Named slot.identity session more

theorem UsageWorld.Sound.replaced (h : world.Sound)
    {replacement : Option ActFinalization} (hslot : world.slotOf actId = some slot)
    (hnext : Replaced world next actId slot replacement more) : next.Sound := by
  have hother {other : String} (hne : other ≠ actId) :
      next.router.acts other = world.router.acts other := by
    rw [hnext.acts, Function.update_of_ne hne]
  have hsame : next.router.acts actId = replacement := by rw [hnext.acts, Function.update_self]
  refine h.kept {
    toContinues := hnext.toContinues
    entries := fun other entry hentry => ?_
    slots := fun other found hfound => ?_
    silent := fun identity hnot => hnext.silent identity fun heq => hnot actId slot hslot heq.symm
    gone := fun other found hfound hnone => ?_ }
  · by_cases hact : other = actId
    · subst hact
      rw [hsame] at hentry
      exact ⟨slot, hnext.entry entry hentry⟩
    · rw [hother hact] at hentry
      obtain ⟨found, hok⟩ := h.entries other entry hentry
      have hne : found.identity ≠ slot.identity := fun heq =>
        hact (h.distinct other actId found slot (UsageWorld.slotOf_eq hentry hok.hasSlot) hslot heq)
      refine ⟨found, hok.frame ?_ hnext.log (hnext.silent _ hne)⟩
      rw [hnext.handedOver]
      exact hok.handedOver
  · by_cases hact : other = actId
    · subst hact
      unfold UsageWorld.slotOf at hfound
      rw [hsame] at hfound
      obtain ⟨entry, hentry, hfound⟩ := Option.bind_eq_some_iff.mp hfound
      rw [(hnext.entry entry hentry).hasSlot] at hfound
      rw [hslot, hfound]
    · unfold UsageWorld.slotOf at hfound ⊢
      rwa [hother hact] at hfound
  · by_cases hact : other = actId
    · subst hact
      rw [hslot, Option.some.injEq] at hfound
      subst hfound
      refine hnext.gone ?_
      cases hreplacement : replacement with
      | none => rfl
      | some entry =>
        unfold UsageWorld.slotOf at hnone
        rw [hsame, hreplacement, Option.bind_some, (hnext.entry entry hreplacement).hasSlot] at hnone
        cases hnone
    · unfold UsageWorld.slotOf at hfound hnone
      rw [hother hact, hfound] at hnone
      cases hnone

/-- A step that leaves the router and the log alone. -/
theorem UsageWorld.Sound.unchanged (h : world.Sound) (hacts : next.router.acts = world.router.acts)
    (hhanded : next.handedOver = world.handedOver)
    (hlater : ∀ identity, (world.identities identity).Later (next.identities identity))
    (hlawful : ∀ identity, (next.identities identity).Lawful) (hlog : next.log = world.log) :
    next.Sound := by
  have hmore : next.log = world.log ++ [] := by rw [hlog, List.append_nil]
  have hslots (actId : String) : next.slotOf actId = world.slotOf actId := by
    unfold UsageWorld.slotOf
    rw [hacts]
  refine h.kept {
    handedOver := hhanded
    later := hlater
    lawful := hlawful
    log := hmore
    justified := fun _ _ _ hmem => (nomatch hmem)
    settled := fun _ hmem => (nomatch hmem)
    entries := fun actId entry hentry => ?_
    slots := fun actId slot hslot => hslots actId ▸ hslot
    silent := fun identity _ => silent_nil identity
    gone := fun actId slot hslot hnone => ?_ }
  · rw [hacts] at hentry
    obtain ⟨slot, hok⟩ := h.entries actId entry hentry
    refine ⟨slot, hok.frame ?_ hmore (silent_nil _)⟩
    rw [hhanded]
    exact hok.handedOver
  · rw [hslots, hslot] at hnone
    cases hnone

theorem sound_initial : UsageWorld.initial.Sound where
  entries _ _ hentry := nomatch hentry
  distinct _ _ _ _ hslot := nomatch hslot
  fresh identity _ := ⟨rfl, (silent_nil identity).named⟩
  gone _ _ := .inl rfl
  justified _ _ _ hmem := nomatch hmem
  settled _ hmem := nomatch hmem
  agree identity session _ hsession := absurd hsession ((silent_nil identity).named session)
  lawful _ := trivial

/-! ## The steps -/

/-- A slot is left out, or there is an entry for it that nothing has happened to. -/
theorem registerSlot_cases (state : RouterState) (slot : UsageFinalizationSlot)
    (lineage : Option (DiagnosticScope × SchemaU64)) :
    (state.registerSlot slot lineage).2.acts = state.acts ∨
      state.acts slot.actId = none ∧ ∃ scope span, (state.registerSlot slot lineage).2.acts =
        Function.update state.acts slot.actId
          (some ⟨some slot, none, none, .default, scope, span⟩) := by
  unfold RouterState.registerSlot
  cases lineage with
  | none => exact .inl rfl
  | some lineage =>
    obtain ⟨scope, span⟩ := lineage
    dsimp only
    split
    · exact .inl rfl
    split
    · exact .inl rfl
    · rename_i hnone
      exact .inr ⟨by simpa using hnone, scope, span, rfl⟩

theorem sound_produce (h : world.Sound) (identity : Nat) (move : ProducerMove) :
    (world.produce identity move).Sound := by
  refine h.unchanged rfl rfl (fun other => ?_) (fun other => ?_) rfl
  · unfold UsageWorld.produce
    dsimp only
    by_cases hother : other = identity
    · subst hother
      rw [Function.update_self]
      exact (world.identities other).move_later move
    · rw [Function.update_of_ne hother]
      exact .refl _
  · unfold UsageWorld.produce
    dsimp only
    by_cases hother : other = identity
    · subst hother
      rw [Function.update_self]
      exact SlotSnapshot.move_lawful (h.lawful other) move
    · rw [Function.update_of_ne hother]
      exact h.lawful other

theorem sound_registerSlot (h : world.Sound) (slot : UsageFinalizationSlot)
    (lineage : Option (DiagnosticScope × SchemaU64))
    (hheld : world.handedOver slot.identity = false) : (world.registerSlot slot lineage).Sound := by
  obtain ⟨hcalls, hnamed⟩ := h.fresh slot.identity hheld
  have hhanded {identity : Nat} (hidentity : world.handedOver identity = true) :
      (world.registerSlot slot lineage).handedOver identity = true := by
    unfold UsageWorld.registerSlot
    dsimp only
    by_cases hsame : identity = slot.identity
    · rw [hsame, Function.update_self]
    · rwa [Function.update_of_ne hsame]
  have hnext {actId : String} {entry : ActFinalization} {found : UsageFinalizationSlot}
      (hok : EntryOk world actId entry found) :
      EntryOk (world.registerSlot slot lineage) actId entry found :=
    hok.frame (hhanded hok.handedOver) (List.append_nil _).symm (silent_nil _)
  have hfresh {identity : Nat} (hidentity : (world.registerSlot slot lineage).handedOver identity = false) :
      world.handedOver identity = false := by
    rw [Bool.eq_false_iff]
    intro htrue
    rw [hhanded htrue] at hidentity
    cases hidentity
  have hjustified (found : UsageFinalizationSlot) (event : AdmittedUsage)
      (result : Except AgentDiagnosticErrorCode SchemaU64)
      (hmem : .called (.admission (some found) event result) ∈ world.log) :
      Justified (world.registerSlot slot lineage) found.identity event.usage :=
    (h.justified found event result hmem).later (.refl _) (List.append_nil _).symm
  rcases registerSlot_cases world.router slot lineage with hacts | ⟨hnone, scope, span, hacts⟩
  · have hslots (actId : String) : (world.registerSlot slot lineage).slotOf actId = world.slotOf actId := by
      unfold UsageWorld.slotOf UsageWorld.registerSlot
      rw [hacts]
    exact {
      entries := fun actId entry hentry => by
        unfold UsageWorld.registerSlot at hentry
        rw [hacts] at hentry
        obtain ⟨found, hok⟩ := h.entries actId entry hentry
        exact ⟨found, hnext hok⟩
      distinct := fun actId other found found' hfound hfound' => by
        rw [hslots] at hfound hfound'
        exact h.distinct actId other found found' hfound hfound'
      fresh := fun identity hidentity => h.fresh identity (hfresh hidentity)
      gone := fun identity hgone => h.gone identity fun actId found hfound =>
        hgone actId found (by rw [hslots, hfound])
      justified := hjustified
      settled := h.settled
      agree := h.agree
      lawful := h.lawful }
  · have hsame : (world.registerSlot slot lineage).slotOf slot.actId = some slot := by
      unfold UsageWorld.slotOf UsageWorld.registerSlot
      rw [hacts, Function.update_self]
      rfl
    have hother {actId : String} (hact : actId ≠ slot.actId) :
        (world.registerSlot slot lineage).slotOf actId = world.slotOf actId := by
      unfold UsageWorld.slotOf UsageWorld.registerSlot
      rw [hacts, Function.update_of_ne hact]
    have hnew {actId : String} {found : UsageFinalizationSlot}
        (hfound : world.slotOf actId = some found) : found.identity ≠ slot.identity := by
      intro heq
      obtain ⟨entry, -, hok⟩ := h.entryOf hfound
      rw [← heq, hok.handedOver] at hheld
      cases hheld
    exact {
      entries := fun actId entry hentry => by
        unfold UsageWorld.registerSlot at hentry
        rw [hacts] at hentry
        by_cases hact : actId = slot.actId
        · rw [hact, Function.update_self, Option.some.injEq] at hentry
          subst hentry hact
          have hlog : (world.registerSlot slot lineage).log = world.log := rfl
          exact ⟨slot, {
            hasSlot := rfl
            ofAct := rfl
            handedOver := Function.update_self _ _ _
            progress := by
              rw [hlog, hcalls]
              exact .pending
            active := fun hphase => by cases hphase
            candidate := fun usage husage => by cases husage
            terminal := fun hobserved => by cases hobserved
            named := fun session => iff_of_false (hnamed session) fun hsession => by cases hsession }⟩
        · rw [Function.update_of_ne hact] at hentry
          obtain ⟨found, hok⟩ := h.entries actId entry hentry
          exact ⟨found, hnext hok⟩
      distinct := fun actId other found found' hfound hfound' hidentity => by
        by_cases hact : actId = slot.actId <;> by_cases hact' : other = slot.actId
        · rw [hact, hact']
        · rw [hact, hsame, Option.some.injEq] at hfound
          rw [hother hact'] at hfound'
          exact absurd (hidentity.symm.trans (by rw [hfound])) (hnew hfound')
        · rw [hact', hsame, Option.some.injEq] at hfound'
          rw [hother hact] at hfound
          exact absurd (hidentity.trans (by rw [hfound'])) (hnew hfound)
        · rw [hother hact] at hfound
          rw [hother hact'] at hfound'
          exact h.distinct actId other found found' hfound hfound' hidentity
      fresh := fun identity hidentity => h.fresh identity (hfresh hidentity)
      gone := fun identity hgone => h.gone identity fun actId found hfound => by
        by_cases hact : actId = slot.actId
        · unfold UsageWorld.slotOf at hfound
          rw [hact, hnone] at hfound
          cases hfound
        · exact hgone actId found (by rw [hother hact, hfound])
      justified := hjustified
      settled := h.settled
      agree := h.agree
      lawful := h.lawful }

/-- The end of a session is seen by an act that waits for its usage. -/
theorem EntryOk.sessionTerminal
    (h : EntryOk world actId entry slot)
    (hsession : entry.session = some session) (hmem : .terminal session ∈ world.log) :
    EntryOk world actId { entry with machine := entry.machine.observeSessionTerminal } slot := by
  unfold FinalizationMachine.observeSessionTerminal
  split
  · exact ⟨h.hasSlot, h.ofAct, h.handedOver, h.progress, h.active, h.candidate,
      fun _ => ⟨session, hsession, hmem⟩, h.named⟩
  · exact h

theorem sound_sessionTerminal (h : world.Sound) (session : Option SessionKey) :
    (world.sessionTerminal session).Sound := by
  cases session with
  | none => exact h.unchanged rfl rfl (fun _ => .refl _) h.lawful (List.append_nil _)
  | some session =>
    have hsilent (identity : Nat) : Silent identity [.terminal session] :=
      ⟨rfl, fun other hother => hother.elim (fun hmem => by simp at hmem) fun ⟨usage, hmem⟩ => by
        simp at hmem⟩
    have hacts (actId : String) : (world.sessionTerminal (some session)).router.acts actId =
        (world.router.acts actId).map fun entry => if entry.session = some session then
          { entry with machine := entry.machine.observeSessionTerminal } else entry := rfl
    have hlog : (world.sessionTerminal (some session)).log = world.log ++ [.terminal session] := rfl
    have hslots (actId : String) :
        (world.sessionTerminal (some session)).slotOf actId = world.slotOf actId := by
      unfold UsageWorld.slotOf
      rw [hacts]
      cases world.router.acts actId with
      | none => rfl
      | some entry =>
        rw [Option.map_some, Option.bind_some, Option.bind_some]
        split <;> rfl
    refine h.kept {
      handedOver := rfl
      later := fun _ => .refl _
      lawful := h.lawful
      log := hlog
      justified := fun _ _ _ hmem => by simp at hmem
      settled := fun _ hmem => by simp at hmem
      entries := fun actId entry hentry => ?_
      slots := fun actId slot hslot => hslots actId ▸ hslot
      silent := fun identity _ => hsilent identity
      gone := fun actId slot hslot hnone => ?_ }
    · rw [hacts] at hentry
      obtain ⟨before, hbefore, rfl⟩ := Option.map_eq_some_iff.mp hentry
      obtain ⟨slot, hok⟩ := h.entries actId before hbefore
      have hframe : EntryOk (world.sessionTerminal (some session)) actId before slot :=
        hok.frame hok.handedOver hlog (hsilent _)
      refine ⟨slot, ?_⟩
      split
      · rename_i hsession
        refine hframe.sessionTerminal hsession ?_
        rw [hlog]
        exact List.mem_append_right _ (List.mem_singleton_self _)
      · exact hframe
    · rw [hslots, hslot] at hnone
      cases hnone

/-- The frame of a step that changes nothing but an entry and the log. -/
theorem replaced_of_router {router : RouterState}
    (h : world.Sound)
    (hacts : router.acts = Function.update world.router.acts actId (some entry))
    (hsilent : ∀ identity, identity ≠ slot.identity → Silent identity more)
    (hcalls : ∀ effect, .called effect ∉ more)
    (hentry : EntryOk { world with router, log := world.log ++ more } actId entry slot) :
    Replaced world { world with router, log := world.log ++ more } actId slot (some entry) more where
  acts := hacts
  handedOver := rfl
  later _ := .refl _
  lawful := h.lawful
  log := rfl
  silent := hsilent
  entry found hfound := by
    cases hfound
    exact hentry
  gone hnone := nomatch hnone
  justified _ _ _ hmem := absurd hmem (hcalls _)
  settled _ hmem := absurd hmem (hcalls _)

/-- What `bind` does under its lock. -/
theorem bind_cases (state : RouterState) (actId : String) (context : Nat)
    (session : Option SessionKey) :
    ((state.bind actId context session).2 = state ∧
      (state.bind actId context session).1 ≠ .ok none) ∨
    ∃ entry, state.acts actId = some entry ∧
      (((state.bind actId context session).2 =
          state.insert actId { entry with context := some context } ∧
        ((state.bind actId context session).1 ≠ .ok none ∨ session = none)) ∨
      ∃ found, session = some found ∧ (∀ existing, entry.session = some existing → existing = found) ∧
        (state.bind actId context session).1 = .ok none ∧
        (state.bind actId context session).2 = state.insert actId
          { entry with context := some context, session := some found }) := by
  unfold RouterState.bind
  split
  · exact .inl ⟨rfl, fun heq => by cases heq⟩
  cases hentry : state.acts actId with
  | none => exact .inl ⟨rfl, fun heq => by cases heq⟩
  | some entry =>
    dsimp only
    split
    · exact .inl ⟨rfl, fun heq => by cases heq⟩
    cases session with
    | none => exact .inr ⟨entry, rfl, .inl ⟨rfl, .inr rfl⟩⟩
    | some found =>
      dsimp only
      split
      · exact .inr ⟨entry, rfl, .inl ⟨rfl, .inl fun heq => by cases heq⟩⟩
      · rename_i hsession
        refine .inr ⟨entry, rfl, .inr ⟨found, rfl, fun existing hexisting => ?_, rfl, rfl⟩⟩
        rw [hexisting] at hsession
        simpa using hsession

theorem bindRecords_eq_nil {slot : Option UsageFinalizationSlot} {session : Option SessionKey}
    {result : Except AgentDiagnosticErrorCode (Option DriveStatus)}
    (h : result ≠ .ok none ∨ session = none) : UsageWorld.bindRecords slot session result = [] := by
  unfold UsageWorld.bindRecords
  split
  · rcases h with h | rfl
    · exact absurd rfl h
    · split
      · rename_i heq
        cases heq
      · rfl
  · rfl

theorem silent_bound {identity other : Nat} (hne : other ≠ identity) :
    Silent other [.bound identity session] := by
  refine ⟨rfl, fun found hfound => ?_⟩
  rcases hfound with hfound | ⟨usage, hfound⟩
  · rw [List.mem_singleton, UsageRecord.bound.injEq] at hfound
    exact hne hfound.1
  · simp at hfound

/-- A session that is named for an act that has none, or the same one. -/
theorem named_of_session {identity : Nat}
    (hnamed : ∀ found, Named identity found world.log ↔ entry.session = some found)
    (hsession : ∀ existing, entry.session = some existing → existing = session)
    (hmore : ∀ found, Named identity found more ↔ found = session) (found : SessionKey) :
    Named identity found (world.log ++ more) ↔ some session = some found := by
  rw [named_append, hnamed, hmore, Option.some.injEq]
  constructor
  · rintro (hfound | hfound)
    · exact (hsession found hfound).symm
    · exact hfound.symm
  · exact fun heq => .inr heq.symm

theorem sound_bind (h : world.Sound) (actId : String) (context : Nat)
    (session : Option SessionKey) : (world.bind actId context session).Sound := by
  unfold UsageWorld.bind
  rcases bind_cases world.router actId context session with
    ⟨hstate, hresult⟩ | ⟨entry, hentry, ⟨hstate, hresult⟩ | ⟨found, rfl, hsession, hresult, hstate⟩⟩
  · rw [bindRecords_eq_nil (.inl hresult), hstate]
    exact h.unchanged rfl rfl (fun _ => .refl _) h.lawful (List.append_nil _)
  · obtain ⟨slot, hok⟩ := h.entries actId entry hentry
    have hframe : EntryOk { world with router := (world.router.bind actId context session).2
                                       log := world.log ++ [] } actId entry slot :=
      hok.frame hok.handedOver rfl (silent_nil _)
    rw [bindRecords_eq_nil hresult]
    refine h.replaced (UsageWorld.slotOf_eq hentry hok.hasSlot) (replaced_of_router h (by rw [hstate]; rfl)
      (fun identity _ => silent_nil identity) (fun _ hmem => (nomatch hmem)) ?_)
    exact ⟨hframe.hasSlot, hframe.ofAct, hframe.handedOver, hframe.progress, hframe.active,
      hframe.candidate, hframe.terminal, hframe.named⟩
  · obtain ⟨slot, hok⟩ := h.entries actId entry hentry
    have hslot := UsageWorld.slotOf_eq hentry hok.hasSlot
    have hrecords : UsageWorld.bindRecords (world.slotOf actId) (some found)
        (world.router.bind actId context (some found)).1 = [.bound slot.identity found] := by
      rw [hslot, hresult]
      rfl
    have hacts : (world.router.bind actId context (some found)).2.acts =
        Function.update world.router.acts actId
          (some { entry with context := some context, session := some found }) := by
      rw [hstate]
      rfl
    rw [hrecords]
    refine h.replaced hslot (replaced_of_router h hacts
      (fun identity hne => silent_bound hne) (fun _ hmem => by simp at hmem) {
        hasSlot := hok.hasSlot
        ofAct := hok.ofAct
        handedOver := hok.handedOver
        progress := by
          rw [callsOf_append]
          exact (List.append_nil (callsOf slot.identity world.log)).symm ▸ hok.progress
        active := hok.active
        candidate := fun usage husage => ?_
        terminal := fun hobserved => ?_
        named := named_of_session hok.named hsession fun session => ?_ })
    · obtain ⟨hauthoritative, session, turn, hmem, husage⟩ := hok.candidate usage husage
      exact ⟨hauthoritative, session, turn, List.mem_append_left _ hmem, husage⟩
    · obtain ⟨session, hexisting, hmem⟩ := hok.terminal hobserved
      rw [hsession session hexisting] at hmem
      exact ⟨found, rfl, List.mem_append_left _ hmem⟩
    · unfold Named
      simp

/-- What `observe_candidate` does under its lock. -/
theorem observeCandidate_cases (state : RouterState) (actId : String) (session : SessionKey)
    (usage : AgentTurnUsage) :
    ((state.observeCandidate actId session usage).2.acts = state.acts ∧
      (state.observeCandidate actId session usage).1 ≠ .ok none) ∨
    ∃ entry, state.acts actId = some entry ∧
      (∀ existing, entry.session = some existing → existing = session) ∧
      entry.machine.phase = .pending ∧ (FinalUsage.fromCandidate usage).isAuthoritative = true ∧
      (state.observeCandidate actId session usage).1 = .ok none ∧
      (state.observeCandidate actId session usage).2 = state.insert actId { entry with
        machine := { entry.machine with candidate := some (.fromCandidate usage) }
        session := some session } := by
  unfold RouterState.observeCandidate
  cases hentry : state.acts actId with
  | none => exact .inl ⟨rfl, fun heq => by cases heq⟩
  | some entry =>
    have hsame : (state.insert actId { entry with machine := entry.machine }).acts = state.acts := by
      unfold RouterState.insert
      rw [← hentry]
      exact Function.update_eq_self actId state.acts
    dsimp only
    split
    · exact .inl ⟨rfl, fun heq => by cases heq⟩
    rename_i hsession
    unfold FinalizationMachine.observeCandidate
    by_cases hphase : entry.machine.phase ≠ .pending
    · rw [if_pos hphase]
      exact .inl ⟨hsame, fun heq => by cases heq⟩
    rw [if_neg hphase]
    by_cases hcandidate : entry.machine.candidate.isSome = true
    · rw [if_pos hcandidate]
      exact .inl ⟨hsame, fun heq => by cases heq⟩
    rw [if_neg hcandidate]
    cases hauthoritative : (FinalUsage.fromCandidate usage).isAuthoritative with
    | false => exact .inl ⟨hsame, fun heq => by cases heq⟩
    | true =>
      refine .inr ⟨entry, rfl, fun existing hexisting => ?_, not_not.mp hphase, rfl, rfl, rfl⟩
      rw [hexisting] at hsession
      simpa using hsession

theorem candidateRecords_eq_nil {slot : Option UsageFinalizationSlot}
    {usage : AgentTurnUsage} {result : Except AgentDiagnosticErrorCode (Option DriveStatus)}
    (h : result ≠ .ok none) : UsageWorld.candidateRecords slot session usage result = [] := by
  unfold UsageWorld.candidateRecords
  split
  · exact absurd rfl h
  · rfl

theorem silent_candidate {identity other : Nat} {usage : AgentTurnUsage}
    (hne : other ≠ identity) : Silent other [.candidate identity session usage] := by
  refine ⟨rfl, fun found hfound => ?_⟩
  rcases hfound with hfound | ⟨turn, hfound⟩
  · simp at hfound
  · rw [List.mem_singleton, UsageRecord.candidate.injEq] at hfound
    exact hne hfound.1

theorem sound_observeCandidate (h : world.Sound) (actId : String) (session : SessionKey)
    (usage : AgentTurnUsage) : (world.observeCandidate actId session usage).Sound := by
  unfold UsageWorld.observeCandidate
  rcases observeCandidate_cases world.router actId session usage with
    ⟨hacts, hresult⟩ | ⟨entry, hentry, hsession, hphase, hauthoritative, hresult, hstate⟩
  · rw [candidateRecords_eq_nil hresult]
    exact h.unchanged hacts rfl (fun _ => .refl _) h.lawful (List.append_nil _)
  · obtain ⟨slot, hok⟩ := h.entries actId entry hentry
    have hslot := UsageWorld.slotOf_eq hentry hok.hasSlot
    have hrecords : UsageWorld.candidateRecords (world.slotOf actId) session usage
        (world.router.observeCandidate actId session usage).1 =
          [.candidate slot.identity session usage] := by
      rw [hslot, hresult]
      rfl
    have hacts : (world.router.observeCandidate actId session usage).2.acts =
        Function.update world.router.acts actId (some { entry with
          machine := { entry.machine with candidate := some (.fromCandidate usage) }
          session := some session }) := by
      rw [hstate]
      rfl
    rw [hrecords]
    refine h.replaced hslot (replaced_of_router h hacts
      (fun identity hne => silent_candidate hne) (fun _ hmem => by simp at hmem) {
        hasSlot := hok.hasSlot
        ofAct := hok.ofAct
        handedOver := hok.handedOver
        progress := by
          rw [callsOf_append]
          exact (List.append_nil (callsOf slot.identity world.log)).symm ▸ hok.progress
        active := hok.active
        candidate := fun found hfound => ?_
        terminal := fun hobserved => ?_
        named := named_of_session hok.named hsession fun other => ?_ })
    · cases hfound
      exact ⟨hauthoritative, session, usage,
        List.mem_append_right _ (List.mem_singleton_self _), rfl⟩
    · obtain ⟨other, hexisting, hmem⟩ := hok.terminal hobserved
      rw [hsession other hexisting] at hmem
      exact ⟨session, rfl, List.mem_append_left _ hmem⟩
    · unfold Named
      simp

/-- The entry in another phase. -/
def ActFinalization.enter (entry : ActFinalization) (phase : FinalizationPhase) : ActFinalization :=
  { entry with machine := { entry.machine with phase } }

/-- What `drive_entry` does to an act that has its slot and is not finalized. -/
inductive Driven (entry : ActFinalization) (slot : UsageFinalizationSlot) (env : DriveEnvironment) :
    LockedDrive → ActFinalization → List UsageEffect → Prop where
  | kept (outcome : LockedDrive) (hfinal : ∀ ack, outcome ≠ .finalized ack)
    (hnotify : ∀ errorCode, outcome ≠ .failed errorCode true) : Driven entry slot env outcome entry []
  | clockFailed (hphase : entry.machine.phase = .pending) : Driven entry slot env
      (.failed Runtime.clockFailed true) (entry.enter (.failed Runtime.clockFailed)) []
  | admissionFailed (event : AdmittedUsage) (hphase : entry.machine.phase = .pending)
    (hselected : entry.machine.selectUsage env.snapshot = some event.usage) : Driven entry slot env
      (.failed Runtime.admissionFailed true) (entry.enter (.failed Runtime.admissionFailed))
      [.admission (some slot) event (.error Runtime.admissionFailed)]
  | admitted (event : AdmittedUsage) (sequence : SchemaU64) (hphase : entry.machine.phase = .pending)
    (hselected : entry.machine.selectUsage env.snapshot = some event.usage) : Driven entry slot env
      .admitted (entry.enter (.admitted sequence)) [.admission (some slot) event (.ok sequence)]
  | finalized (event : AdmittedUsage) (sequence : SchemaU64) (after : ActFinalization)
    (hphase : entry.machine.phase = .pending)
    (hselected : entry.machine.selectUsage env.snapshot = some event.usage)
    (hsettled : env.acknowledging.settlement.isSome = true) : Driven entry slot env
      (.finalized ⟨slot.identity, slot.actId, sequence⟩) after
      [.admission (some slot) event (.ok sequence)]
  | acknowledged (sequence : SchemaU64) (after : ActFinalization)
    (hphase : entry.machine.phase = .admitted sequence)
    (hsettled : env.acknowledging.settlement.isSome = true) : Driven entry slot env
      (.finalized ⟨slot.identity, slot.actId, sequence⟩) after []

/-- A slot that is acknowledged goes, and one that is refused stays. -/
theorem acknowledgeIfSettled_cases (machine : FinalizationMachine) (entry : ActFinalization)
    (env : DriveEnvironment) (sequence : SchemaU64) (slot : UsageFinalizationSlot)
    (calls : List UsageEffect) :
    machine.acknowledgeIfSettled env.snapshot sequence (runtimeEffects entry env) ⟨some slot, calls⟩ =
        (.admitted, machine, ⟨some slot, calls⟩) ∨
      env.acknowledging.settlement.isSome = true ∧
        machine.acknowledgeIfSettled env.snapshot sequence (runtimeEffects entry env)
            ⟨some slot, calls⟩ =
          (.finalized ⟨slot.identity, slot.actId, sequence⟩, { machine with phase := .finalized },
            ⟨none, calls⟩) := by
  unfold FinalizationMachine.acknowledgeIfSettled
  by_cases hsnapshot : env.snapshot.settlement.isNone = true
  · rw [if_pos hsnapshot]
    exact .inl rfl
  rw [if_neg hsnapshot]
  unfold runtimeEffects UsageFinalizationSlot.acknowledge
  cases hsettled : env.acknowledging.settlement with
  | none => exact .inl rfl
  | some settlement => exact .inr ⟨rfl, rfl⟩

theorem driveEntry_driven
    (hslot : entry.slot = some slot) (hactive : entry.machine.phase ≠ .finalized)
    (env : DriveEnvironment) : Driven entry slot env (driveEntry entry env).1
      (driveEntry entry env).2.1 (driveEntry entry env).2.2 := by
  obtain ⟨held, context, session, machine, scope, causalSequence⟩ := entry
  dsimp only at hslot hactive
  subst hslot
  unfold driveEntry
  cases context with
  | none => exact .kept .pending nofun nofun
  | some context =>
    dsimp only
    have hacknowledge (machine' : FinalizationMachine) (sequence : SchemaU64)
        (calls : List UsageEffect) := acknowledgeIfSettled_cases machine'
      ⟨some slot, some context, session, machine, scope, causalSequence⟩ env sequence slot calls
    unfold FinalizationMachine.drive
    cases hphase : machine.phase with
    | failed errorCode => exact .kept (.failed errorCode false) nofun nofun
    | finalized => exact absurd hphase hactive
    | admitted sequence =>
      dsimp only
      rcases hacknowledge machine sequence [] with hkept | ⟨hsettled, hacknowledged⟩
      · rw [hkept]
        exact .kept .admitted nofun nofun
      · rw [hacknowledged]
        exact .acknowledged sequence _ hphase hsettled
    | pending =>
      dsimp only
      cases hselected : machine.selectUsage env.snapshot with
      | none => exact .kept .pending nofun nofun
      | some usage =>
        have hfailed (errorCode : AgentDiagnosticErrorCode) :
            machine.recordFailure errorCode =
              (errorCode, true, { machine with phase := .failed errorCode }) := by
          unfold FinalizationMachine.recordFailure
          rw [hphase]
        cases hclock : env.clock with
        | none =>
          simp only [runtimeEffects, hclock, FinalizationMachine.fail, hfailed]
          exact .clockFailed hphase
        | some elapsedNs =>
          cases hadmission : env.admission with
          | none =>
            simp only [runtimeEffects, hclock, hadmission, FinalizationMachine.fail, hfailed]
            exact .admissionFailed ⟨elapsedNs, scope, causalSequence, usage⟩ hphase hselected
          | some sequence =>
            have hadmitted : (runtimeEffects ⟨some slot, some context, session, machine, scope,
                causalSequence⟩ env).admitUsage usage ⟨some slot, []⟩ = (.ok sequence, ⟨some slot,
                  [.admission (some slot) ⟨elapsedNs, scope, causalSequence, usage⟩
                    (.ok sequence)]⟩) := by
              simp only [runtimeEffects, hclock, hadmission, List.nil_append]
            dsimp only
            simp only [hadmitted]
            rcases hacknowledge { machine with phase := .admitted sequence } sequence
                [.admission (some slot) ⟨elapsedNs, scope, causalSequence, usage⟩ (.ok sequence)] with
              hkept | ⟨hsettled, hacknowledged⟩
            · rw [hkept]
              exact .admitted ⟨elapsedNs, scope, causalSequence, usage⟩ sequence hphase hselected
            · rw [hacknowledged]
              exact .finalized ⟨elapsedNs, scope, causalSequence, usage⟩ sequence _ hphase hselected
                hsettled

/-- A drive whose acknowledgement is refused keeps the slot. -/
theorem driveEntry_refused (hslot : entry.slot = some slot) (hactive : entry.machine.phase ≠ .finalized)
    {env : DriveEnvironment} (hrefused : env.acknowledging.settlement = none) :
    (driveEntry entry env).2.1.slot = some slot := by
  have hdriven := driveEntry_driven hslot hactive env
  generalize driveEntry entry env = driven at hdriven ⊢
  obtain ⟨outcome, after, calls⟩ := driven
  cases hdriven with
  | finalized _ _ _ _ _ hsettled => simp [hrefused] at hsettled
  | acknowledged _ _ _ hsettled => simp [hrefused] at hsettled
  | _ => exact hslot

section Calls

variable {identity : Nat} {effects : List UsageEffect}

theorem callsOf_called (h : ∀ effect ∈ effects, effect.identity? = some identity) :
    callsOf identity (effects.map .called) = effects := by
  induction effects with
  | nil => rfl
  | cons effect rest ih =>
    obtain ⟨heffect, hrest⟩ := List.forall_mem_cons.mp h
    have htail := ih hrest
    unfold callsOf at htail ⊢
    rw [List.map_cons, List.filterMap_cons]
    simp only [heffect, if_true, htail]

theorem not_named_called (session : SessionKey) : ¬ Named identity session (effects.map .called) := by
  rintro (hmem | ⟨usage, hmem⟩) <;> simp at hmem

theorem silent_called {other : Nat} (h : ∀ effect ∈ effects, effect.identity? = some identity)
    (hne : other ≠ identity) : Silent other (effects.map .called) := by
  refine ⟨?_, not_named_called⟩
  unfold callsOf
  rw [List.filterMap_map, List.filterMap_eq_nil_iff]
  intro effect heffect
  refine if_neg ?_
  rw [h effect heffect, Option.some.injEq]
  exact hne.symm

end Calls

theorem Progress.pending_eq {calls : List UsageEffect} (h : Progress .pending calls) :
    calls = [] := by
  cases h
  rfl

/-- The usage that is selected is justified. -/
theorem justified_of_selected
    {usage : FinalUsage} (hok : EntryOk world actId entry slot)
    (hselected : entry.machine.selectUsage (world.identities slot.identity) = some usage) :
    Justified world slot.identity usage := by
  unfold FinalizationMachine.selectUsage at hselected
  split at hselected
  · rename_i hended
    rw [Bool.and_eq_true, Bool.and_eq_true] at hended
    obtain ⟨session, hsession, hterminal⟩ := hok.terminal hended.1.1
    cases hselected
    exact .sessionEnded session hended.1.2 ((hok.named session).mpr hsession) hterminal
  · split at hselected
    · cases hselected
    · rename_i hsettled
      cases hselected
      exact .notSubmitted hsettled
    · rename_i hsettled
      cases hselected
      exact .settledUnknown hsettled
    · rename_i hsettled
      obtain ⟨hauthoritative, session, turn, hobserved, rfl⟩ := hok.candidate usage hselected
      exact .candidate turn session hsettled hauthoritative hobserved

/-- An act in its next phase, with the calls made. -/
theorem EntryOk.enter
    {phase : FinalizationPhase} {effects : List UsageEffect} (hok : EntryOk world actId entry slot)
    (hhanded : next.handedOver = world.handedOver)
    (hlog : next.log = world.log ++ effects.map .called)
    (heffects : ∀ effect ∈ effects, effect.identity? = some slot.identity)
    (hprogress : Progress phase (callsOf slot.identity world.log ++ effects))
    (hactive : phase ≠ .finalized) : EntryOk next actId (entry.enter phase) slot where
  hasSlot := hok.hasSlot
  ofAct := hok.ofAct
  handedOver := by
    rw [hhanded]
    exact hok.handedOver
  progress := by
    rw [hlog, callsOf_append, callsOf_called heffects]
    exact hprogress
  active := hactive
  candidate usage husage := by
    obtain ⟨hauthoritative, session, turn, hmem, husage⟩ := hok.candidate usage husage
    refine ⟨hauthoritative, session, turn, ?_, husage⟩
    rw [hlog]
    exact List.mem_append_left _ hmem
  terminal hobserved := by
    obtain ⟨session, hsession, hmem⟩ := hok.terminal hobserved
    refine ⟨session, hsession, ?_⟩
    rw [hlog]
    exact List.mem_append_left _ hmem
  named session := by
    rw [hlog, named_append, or_iff_left (not_named_called session)]
    exact hok.named session

theorem sound_drive (h : world.Sound) (actId : String) (clock : Option Nat)
    (admission : Option SchemaU64) (moves : List ProducerMove) :
    (world.drive actId clock admission moves).Sound := by
  generalize henv : world.environment actId clock admission moves = env
  have hdrive : world.drive actId clock admission moves = { world with
      identities := match world.slotOf actId with
        | none => world.identities
        | some slot => Function.update world.identities slot.identity env.acknowledging
      router := (world.router.drive actId env).2.1
      log := world.log ++ (world.router.drive actId env).2.2.map .called } := by
    rw [← henv]
    rfl
  rw [hdrive]
  cases hentry : world.router.acts actId with
  | none =>
    have hslot : world.slotOf actId = none := by
      rw [UsageWorld.slotOf, hentry]
      rfl
    have hrouter : world.router.drive actId env =
        ((world.router.drive actId env).1, world.router, []) := by
      unfold RouterState.drive
      cases world.router.invariantError with
      | none => rw [hentry]
      | some error => rfl
    rw [hslot, hrouter]
    exact h.unchanged rfl rfl (fun _ => .refl _) h.lawful (List.append_nil _)
  | some entry =>
    obtain ⟨slot, hok⟩ := h.entries actId entry hentry
    have hslot := UsageWorld.slotOf_eq hentry hok.hasSlot
    have hsnapshot : env.snapshot = world.identities slot.identity := by
      rw [← henv, UsageWorld.environment, hslot]
      rfl
    have hlater : env.snapshot.Later env.acknowledging := by
      rw [← henv]
      exact SlotSnapshot.moves_later _ _
    have hlawful : env.acknowledging.Lawful := by
      have hbefore := h.lawful slot.identity
      rw [← hsnapshot] at hbefore
      rw [← henv] at hbefore ⊢
      exact SlotSnapshot.moves_lawful hbefore moves
    have hlaters (identity : Nat) : (world.identities identity).Later
        (Function.update world.identities slot.identity env.acknowledging identity) := by
      by_cases hidentity : identity = slot.identity
      · rw [hidentity, Function.update_self, ← hsnapshot]
        exact hlater
      · rw [Function.update_of_ne hidentity]
        exact .refl _
    have hlawfuls (identity : Nat) :
        (Function.update world.identities slot.identity env.acknowledging identity).Lawful := by
      by_cases hidentity : identity = slot.identity
      · rw [hidentity, Function.update_self]
        exact hlawful
      · rw [Function.update_of_ne hidentity]
        exact h.lawful identity
    rw [hslot]
    -- the entry in its next phase, or removed, with some calls made for its slot
    have hreplaced {effects : List UsageEffect} {replacement : Option ActFinalization}
        (hacts : (world.router.drive actId env).2.1.acts =
          Function.update world.router.acts actId replacement)
        (hcalls : (world.router.drive actId env).2.2 = effects)
        (heffects : ∀ effect ∈ effects, effect.identity? = some slot.identity)
        (hentry : ∀ after, replacement = some after → ∃ phase, after = entry.enter phase ∧
          phase ≠ .finalized ∧ Progress phase (callsOf slot.identity world.log ++ effects))
        (hgone : replacement = none →
          Progress .finalized (callsOf slot.identity world.log ++ effects))
        (hjustified : ∀ found event result, .admission found event result ∈ effects →
          entry.machine.selectUsage env.snapshot = some event.usage)
        (hsettled : ∀ ack, .acknowledged ack ∈ effects →
          env.acknowledging.settlement.isSome = true) :
        UsageWorld.Sound { world with
          identities := Function.update world.identities slot.identity env.acknowledging
          router := (world.router.drive actId env).2.1
          log := world.log ++ (world.router.drive actId env).2.2.map .called } := by
      rw [hcalls]
      refine h.replaced hslot {
        handedOver := rfl
        later := hlaters
        lawful := hlawfuls
        log := rfl
        justified := fun found event result hmem => ?_
        settled := fun ack hmem => ?_
        acts := hacts
        silent := fun identity hne => silent_called heffects hne
        entry := fun after hafter => ?_
        gone := fun hnone => ⟨?_, not_named_called⟩ }
      · obtain ⟨effect, heffect, heq⟩ := List.mem_map.mp hmem
        cases heq
        have hselected := hjustified _ event result heffect
        rw [hsnapshot] at hselected
        have hfound : found.identity = slot.identity := Option.some.inj (heffects _ heffect)
        rw [hfound]
        exact (justified_of_selected hok hselected).later (hlaters _) rfl
      · obtain ⟨effect, heffect, heq⟩ := List.mem_map.mp hmem
        cases heq
        have hfound : ack.identity = slot.identity := Option.some.inj (heffects _ heffect)
        rw [hfound]
        dsimp only
        rw [Function.update_self]
        exact hsettled ack heffect
      · obtain ⟨phase, rfl, hactive, hprogress⟩ := hentry after hafter
        exact hok.enter rfl rfl heffects hprogress hactive
      · rw [callsOf_append, callsOf_called heffects]
        exact hgone hnone
    cases hinvariant : world.router.invariantError with
    | some error =>
      have hrouter : (world.router.drive actId env).2 = (world.router, []) := by
        unfold RouterState.drive
        rw [hinvariant]
      rw [hrouter]
      exact h.unchanged rfl rfl hlaters hlawfuls (List.append_nil _)
    | none =>
      have hdriven := driveEntry_driven hok.hasSlot hok.active env
      generalize hresult : driveEntry entry env = result at hdriven
      obtain ⟨outcome, after, calls⟩ := result
      dsimp only at hdriven
      have hrun : world.router.drive actId env =
          world.router.conclude actId (some slot) (outcome, after, calls) := by
        unfold RouterState.drive
        rw [hinvariant, hentry, ← hresult, ← hok.hasSlot]
      have hprogress := hok.progress
      cases hdriven with
      | kept _ hfinal hnotify =>
        have hrouter : (world.router.drive actId env).2 = (world.router.insert actId entry, []) := by
          rw [hrun]
          cases outcome with
          | finalized ack => exact absurd rfl (hfinal ack)
          | failed errorCode notify =>
            cases notify with
            | true => exact absurd rfl (hnotify errorCode)
            | false => rfl
          | _ => rfl
        have hsame : (world.router.insert actId entry).acts = world.router.acts := by
          unfold RouterState.insert
          rw [← hentry]
          exact Function.update_eq_self actId world.router.acts
        rw [hrouter]
        exact h.unchanged hsame rfl hlaters hlawfuls (List.append_nil _)
      | clockFailed hphase =>
        rw [hphase] at hprogress
        have hcalls := hprogress.pending_eq
        refine @hreplaced
          [.notified (some slot) actId clockFailed]
          (some (entry.enter (.failed clockFailed))) (by rw [hrun]; rfl)
          (by rw [hrun]; rfl) ?_ ?_ (fun hnone => by cases hnone) ?_ ?_
        · exact List.forall_mem_singleton.mpr rfl
        · rintro _ ⟨⟩
          refine ⟨_, rfl, nofun, ?_⟩
          rw [hcalls]
          exact .clockFailed _ _ _
        · simp
        · simp
      | admissionFailed event hphase hselected =>
        rw [hphase] at hprogress
        have hcalls := hprogress.pending_eq
        refine @hreplaced
          [.admission (some slot) event (.error admissionFailed),
            .notified (some slot) actId admissionFailed]
          (some (entry.enter (.failed admissionFailed))) (by rw [hrun]; rfl)
          (by rw [hrun]; rfl) ?_ ?_ (fun hnone => by cases hnone) ?_ ?_
        · simp [UsageEffect.identity?]
        · rintro _ ⟨⟩
          refine ⟨_, rfl, nofun, ?_⟩
          rw [hcalls]
          exact .admissionFailed _ _ _ _
        · intro found other result hmem
          simp at hmem
          rw [hmem.2.1, hselected]
        · simp
      | admitted event sequence hphase hselected =>
        rw [hphase] at hprogress
        have hcalls := hprogress.pending_eq
        refine @hreplaced
          [.admission (some slot) event (.ok sequence)]
          (some (entry.enter (.admitted sequence))) (by rw [hrun]; rfl)
          (by rw [hrun]; rfl) ?_ ?_ (fun hnone => by cases hnone) ?_ ?_
        · exact List.forall_mem_singleton.mpr rfl
        · rintro _ ⟨⟩
          refine ⟨_, rfl, nofun, ?_⟩
          rw [hcalls]
          exact .admitted _ _ _
        · intro found other result hmem
          simp at hmem
          rw [hmem.2.1, hselected]
        · simp
      | finalized event sequence _ hphase hselected hsettled =>
        rw [hphase] at hprogress
        have hcalls := hprogress.pending_eq
        refine @hreplaced
          [.admission (some slot) event (.ok sequence),
            .acknowledged ⟨slot.identity, slot.actId, sequence⟩]
          none (by rw [hrun]; rfl) (by rw [hrun]; rfl) ?_
          (fun _ hafter => by cases hafter) (fun _ => ?_) ?_ ?_
        · simp [UsageEffect.identity?]
        · rw [hcalls]
          exact .finalized _ _ ⟨slot.identity, slot.actId, sequence⟩
        · intro found other result hmem
          simp at hmem
          rw [hmem.2.1, hselected]
        · exact fun _ _ => hsettled
      | acknowledged sequence _ hphase hsettled =>
        rw [hphase] at hprogress
        refine @hreplaced
          [.acknowledged ⟨slot.identity, slot.actId, sequence⟩]
          none (by rw [hrun]; rfl) (by rw [hrun]; rfl) ?_
          (fun _ hafter => by cases hafter) (fun _ => ?_) ?_ ?_
        · exact List.forall_mem_singleton.mpr rfl
        · generalize callsOf slot.identity world.log = before at hprogress
          cases hprogress
          exact .finalized _ _ ⟨slot.identity, slot.actId, sequence⟩
        · simp
        · exact fun _ _ => hsettled

end Step

/-- **Every step keeps it.** -/
theorem sound_step {world next : UsageWorld} (h : world.Sound) (hstep : UsageWorld.Step world next) :
    next.Sound := by
  cases hstep with
  | produce identity move => exact sound_produce h identity move
  | registerSlot slot lineage hheld => exact sound_registerSlot h slot lineage hheld
  | bind actId context session => exact sound_bind h actId context session
  | observeCandidate actId session usage => exact sound_observeCandidate h actId session usage
  | sessionTerminal session => exact sound_sessionTerminal h session
  | drive actId clock admission moves => exact sound_drive h actId clock admission moves

theorem sound_of_reachable {world : UsageWorld} (h : world.Reachable) : world.Sound :=
  run_invariant (p := UsageWorld.Sound) (fun _ _ hsound hstep => sound_step hsound hstep)
    sound_initial h

/-- What has happened stays. -/
theorem log_of_run {world next : UsageWorld} (h : ReflTransGen UsageWorld.Step world next) :
    world.log <+: next.log := by
  induction h with
  | refl => exact List.prefix_rfl
  | tail _ hstep ih =>
    refine ih.trans ?_
    cases hstep with
    | produce identity move => exact List.prefix_rfl
    | registerSlot slot lineage hheld => exact List.prefix_rfl
    | bind actId context session => exact List.prefix_append _ _
    | observeCandidate actId session usage => exact List.prefix_append _ _
    | sessionTerminal session => exact List.prefix_append _ _
    | drive actId clock admission moves => exact List.prefix_append _ _

/-! ## One usage for each act -/

/-- The usages that calls hand to an admission, and what becomes of them. -/
def admissionsIn (calls : List UsageEffect) :
    List (FinalUsage × Except AgentDiagnosticErrorCode SchemaU64) :=
  calls.filterMap fun
    | .admission _ event result => some (event.usage, result)
    | _ => none

/-- The acknowledgements among calls. -/
def acknowledgementsIn (calls : List UsageEffect) : List UsageFinalizationAck :=
  calls.filterMap fun
    | .acknowledged ack => some ack
    | _ => none

/-- The failures that calls notify. -/
def failuresIn (calls : List UsageEffect) : List AgentDiagnosticErrorCode :=
  calls.filterMap fun
    | .notified _ _ errorCode => some errorCode
    | _ => none

section Progress

variable {phase : FinalizationPhase} {calls : List UsageEffect}

theorem Progress.atMostOnce (h : Progress phase calls) : (admissionsIn calls).length ≤ 1 ∧
    (acknowledgementsIn calls).length ≤ 1 ∧ (failuresIn calls).length ≤ 1 := by
  cases h <;> exact ⟨by simp [admissionsIn], by simp [acknowledgementsIn], by simp [failuresIn]⟩

/-- A usage is admitted before it is acknowledged. -/
theorem Progress.acknowledged (h : Progress phase calls) {ack : UsageFinalizationAck}
    (hmem : ack ∈ acknowledgementsIn calls) : phase = .finalized ∧ ∃ slot event,
      calls = [.admission slot event (.ok ack.usageSequence), .acknowledged ack] := by
  cases h with
  | finalized slot event found =>
    obtain rfl : ack = found := List.mem_singleton.mp hmem
    exact ⟨rfl, slot, event, rfl⟩
  | _ => cases hmem

theorem Progress.failed_iff (h : Progress phase calls) (errorCode : AgentDiagnosticErrorCode) :
    phase = .failed errorCode ↔ failuresIn calls = [errorCode] := by
  cases h <;> simp [failuresIn]

/-- After the first call no usage is handed over any more, and no other failure is notified. -/
theorem Progress.final {later : FinalizationPhase} {more : List UsageEffect}
    (h : Progress phase calls) (hlater : Progress later more) (hlonger : calls <+: more)
    (hsome : calls ≠ []) :
    admissionsIn more = admissionsIn calls ∧ failuresIn more = failuresIn calls := by
  obtain ⟨rest, hrest⟩ := hlonger
  have hcases : rest = [] ∨ ∃ ack, rest = [.acknowledged ack] := by
    cases h with
    | pending => exact absurd rfl hsome
    | _ => cases hlater <;> simp_all
  have hrest' : admissionsIn rest = [] ∧ failuresIn rest = [] := by
    rcases hcases with rfl | ⟨ack, rfl⟩ <;> exact ⟨rfl, rfl⟩
  rw [← hrest]
  unfold admissionsIn failuresIn at hrest' ⊢
  rw [List.filterMap_append, List.filterMap_append, hrest'.1, hrest'.2]
  exact ⟨List.append_nil _, List.append_nil _⟩

end Progress

theorem mem_callsOf {identity : Nat} {log : List UsageRecord} {effect : UsageEffect} :
    effect ∈ callsOf identity log ↔ .called effect ∈ log ∧ effect.identity? = some identity := by
  unfold callsOf
  rw [List.mem_filterMap]
  constructor
  · rintro ⟨record, hrecord, hcall⟩
    cases record with
    | called found =>
      dsimp only at hcall
      split at hcall
      · cases hcall
        exact ⟨hrecord, by assumption⟩
      · cases hcall
    | _ => cases hcall
  · rintro ⟨hrecord, hidentity⟩
    exact ⟨_, hrecord, if_pos hidentity⟩

theorem mem_admissionsIn {calls : List UsageEffect} {usage : FinalUsage}
    {result : Except AgentDiagnosticErrorCode SchemaU64} (h : (usage, result) ∈ admissionsIn calls) :
    ∃ slot event, .admission slot event result ∈ calls ∧ event.usage = usage := by
  obtain ⟨effect, heffect, hsome⟩ := List.mem_filterMap.mp h
  cases effect with
  | admission slot event found =>
    cases hsome
    exact ⟨slot, event, heffect, rfl⟩
  | _ => cases hsome

/-- The usage that an act has, as it was settled. -/
structure RightUsage (world : UsageWorld) (identity : Nat) (usage : FinalUsage) : Prop where
  /-- The `expect` on its event does not panic. -/
  valid : usage.isValid = true
  candidate : usage.isAuthoritative = true →
    (world.identities identity).settlement = some .authoritative ∧
      ∃ session turn, .candidate identity session turn ∈ world.log ∧ usage = .fromCandidate turn ∧
        ∀ other, Named identity other world.log → other = session
  notSubmitted : usage = .promptNotSubmitted →
    (world.identities identity).settlement = some .notSubmitted ∧
      (world.identities identity).promptSubmitted = false
  otherwise : usage.isAuthoritative = false → usage ≠ .promptNotSubmitted →
    usage = .turnSettlementUnknown ∧ (world.identities identity).promptSubmitted = true ∧
      ((world.identities identity).settlement = some .unknown ∨
        ∃ session, Named identity session world.log ∧ .terminal session ∈ world.log)

section Reached

variable {world : UsageWorld} (h : world.Sound) {identity : Nat}

include h

/-- The calls for any slot are those of some phase. -/
theorem UsageWorld.Sound.progress (identity : Nat) :
    ∃ phase, Progress phase (callsOf identity world.log) := by
  by_cases hhas : ∃ actId slot, world.slotOf actId = some slot ∧ slot.identity = identity
  · obtain ⟨actId, slot, hslot, rfl⟩ := hhas
    obtain ⟨entry, -, hok⟩ := h.entryOf hslot
    exact ⟨_, hok.progress⟩
  · rcases h.gone identity fun actId slot hslot heq => hhas ⟨actId, slot, hslot, heq⟩ with
      hnone | hfinalized
    · exact ⟨.pending, hnone ▸ .pending⟩
    · exact ⟨_, hfinalized⟩

theorem Justified.right {usage : FinalUsage} (hjustified : Justified world identity usage) :
    RightUsage world identity usage := by
  have hlawful := h.lawful identity
  unfold SlotSnapshot.Lawful at hlawful
  cases hjustified with
  | candidate turn session hsettled hauthoritative hobserved =>
    refine ⟨turn.valid, fun _ => ⟨hsettled, session, turn, hobserved, rfl, fun other hother => ?_⟩,
      fun heq => ?_, fun hnot => ?_⟩
    · exact h.agree identity other session hother (.inr ⟨turn, hobserved⟩)
    · rw [heq] at hauthoritative
      cases hauthoritative
    · rw [hauthoritative] at hnot
      cases hnot
  | notSubmitted hsettled =>
    rw [hsettled] at hlawful
    exact ⟨rfl, fun hauthoritative => (by cases hauthoritative), fun _ => ⟨hsettled, hlawful⟩,
      fun _ hne => absurd rfl hne⟩
  | settledUnknown hsettled =>
    rw [hsettled] at hlawful
    exact ⟨rfl, fun hauthoritative => (by cases hauthoritative), fun heq => (by cases heq),
      fun _ _ => ⟨rfl, hlawful, .inl hsettled⟩⟩
  | sessionEnded session hsubmitted hnamed hterminal =>
    exact ⟨rfl, fun hauthoritative => (by cases hauthoritative), fun heq => (by cases heq),
      fun _ _ => ⟨rfl, hsubmitted, .inr ⟨session, hnamed, hterminal⟩⟩⟩

/-- Every usage that is handed over for a slot is the right one. -/
theorem UsageWorld.Sound.admitted {usage : FinalUsage}
    {result : Except AgentDiagnosticErrorCode SchemaU64}
    (hmem : (usage, result) ∈ admissionsIn (callsOf identity world.log)) :
    RightUsage world identity usage := by
  obtain ⟨slot, event, hcall, rfl⟩ := mem_admissionsIn hmem
  obtain ⟨hrecord, hidentity⟩ := mem_callsOf.mp hcall
  obtain ⟨found, rfl, rfl⟩ := Option.map_eq_some_iff.mp hidentity
  exact Justified.right h (h.justified found event result hrecord)

theorem UsageWorld.Sound.acknowledged {ack : UsageFinalizationAck}
    (hmem : ack ∈ acknowledgementsIn (callsOf identity world.log)) :
    (world.identities identity).settlement.isSome = true := by
  obtain ⟨effect, heffect, hsome⟩ := List.mem_filterMap.mp hmem
  obtain ⟨hrecord, hidentity⟩ := mem_callsOf.mp heffect
  cases effect with
  | acknowledged found =>
    cases hsome
    have hsettled := h.settled ack hrecord
    rwa [Option.some.inj hidentity] at hsettled
  | _ => cases hsome

/-- The failure that was notified is the one that the act is in. -/
theorem UsageWorld.Sound.failed_iff (errorCode : AgentDiagnosticErrorCode) :
    failuresIn (callsOf identity world.log) = [errorCode] ↔
      ∃ actId entry slot, world.router.acts actId = some entry ∧ entry.slot = some slot ∧
        slot.identity = identity ∧ entry.machine.phase = .failed errorCode := by
  constructor
  · intro hfailures
    by_cases hhas : ∃ actId slot, world.slotOf actId = some slot ∧ slot.identity = identity
    · obtain ⟨actId, slot, hslot, rfl⟩ := hhas
      obtain ⟨entry, hentry, hok⟩ := h.entryOf hslot
      exact ⟨actId, entry, slot, hentry, hok.hasSlot, rfl, (hok.progress.failed_iff _).mpr hfailures⟩
    · rcases h.gone identity fun actId slot hslot heq => hhas ⟨actId, slot, hslot, heq⟩ with
        hnone | hfinalized
      · rw [hnone] at hfailures
        cases hfailures
      · cases (hfinalized.failed_iff _).mpr hfailures
  · rintro ⟨actId, entry, slot, hentry, hslot, rfl, hphase⟩
    obtain ⟨found, hok⟩ := h.entries actId entry hentry
    rw [hok.hasSlot, Option.some.injEq] at hslot
    rw [← hslot]
    exact (hok.progress.failed_iff _).mp hphase

end Reached

theorem callsOf_prefix {log later : List UsageRecord} (h : log <+: later) (identity : Nat) :
    callsOf identity log <+: callsOf identity later := by
  obtain ⟨more, rfl⟩ := h
  rw [callsOf_append]
  exact List.prefix_append _ _

/-- **The usage of an act is final.** Whatever is bound, observed, settled or refused, and in any order:
one usage is handed over for a slot, it is the right one, and nothing that happens later changes it. It is
acknowledged once, when the act is settled and the usage was admitted; the first failure is kept; and an
act that the router knows has its slot. -/
theorem usage_finalized_once {world : UsageWorld} (h : world.Reachable) (identity : Nat) :
    -- at most once
    (admissionsIn (callsOf identity world.log)).length ≤ 1 ∧
      (acknowledgementsIn (callsOf identity world.log)).length ≤ 1 ∧
      (failuresIn (callsOf identity world.log)).length ≤ 1 ∧
    -- with the right value
    (∀ usage result, (usage, result) ∈ admissionsIn (callsOf identity world.log) →
      RightUsage world identity usage) ∧
    (∀ ack ∈ acknowledgementsIn (callsOf identity world.log),
      (world.identities identity).settlement.isSome = true ∧ ∃ slot event,
        callsOf identity world.log =
          [.admission slot event (.ok ack.usageSequence), .acknowledged ack]) ∧
    -- no failure replaces another
    (∀ errorCode, failuresIn (callsOf identity world.log) = [errorCode] ↔
      ∃ actId entry slot, world.router.acts actId = some entry ∧ entry.slot = some slot ∧
        slot.identity = identity ∧ entry.machine.phase = .failed errorCode) ∧
    -- no slot is lost, also not by an acknowledgement that is refused
    (∀ actId entry, world.router.acts actId = some entry → ∃ slot, entry.slot = some slot ∧
      Progress entry.machine.phase (callsOf slot.identity world.log) ∧
      ∀ env : DriveEnvironment, env.acknowledging.settlement = none →
        (driveEntry entry env).2.1.slot = some slot) ∧
    -- and nothing is undone
    ∀ next, ReflTransGen UsageWorld.Step world next → callsOf identity world.log ≠ [] →
      admissionsIn (callsOf identity next.log) = admissionsIn (callsOf identity world.log) ∧
        failuresIn (callsOf identity next.log) = failuresIn (callsOf identity world.log) ∧
        callsOf identity world.log <+: callsOf identity next.log := by
  have hsound := sound_of_reachable h
  obtain ⟨phase, hprogress⟩ := hsound.progress identity
  obtain ⟨hadmissions, hacknowledgements, hfailures⟩ := hprogress.atMostOnce
  refine ⟨hadmissions, hacknowledgements, hfailures, fun usage result hmem => hsound.admitted hmem,
    fun ack hmem => ⟨hsound.acknowledged hmem, (hprogress.acknowledged hmem).2⟩, hsound.failed_iff,
    fun actId entry hentry => ?_, fun next hrun hsome => ?_⟩
  · obtain ⟨slot, hok⟩ := hsound.entries actId entry hentry
    exact ⟨slot, hok.hasSlot, hok.progress, fun env => driveEntry_refused hok.hasSlot hok.active⟩
  · have hlonger := callsOf_prefix (log_of_run hrun) identity
    obtain ⟨later, hlater⟩ := (sound_of_reachable (h.trans hrun)).progress identity
    obtain ⟨hkept, hfailed⟩ := hprogress.final hlater hlonger hsome
    exact ⟨hkept, hfailed, hlonger⟩

section Shown

def shownUsage : AgentTurnUsage :=
  ⟨.unavailable, none, some .usageNotReported, ⟨none, none, none, none, none, none⟩, rfl⟩

theorem shownAct_valid : validateRunLocalId "act-1" = .ok () := by decide +kernel

def shownScope : DiagnosticScope := { DiagnosticScope.run with actId := some ⟨"act-1", shownAct_valid⟩ }

/-- An act whose usage is reported before its turn is settled. -/
def shownWorld : UsageWorld :=
  ((((((UsageWorld.initial.registerSlot ⟨0, "act-1"⟩ (some (shownScope, 2))).bind "act-1" 7
    (some ⟨"actor-1", "session-1", 1⟩)).produce 0 .promptSubmitted).observeCandidate "act-1"
      ⟨"actor-1", "session-1", 1⟩ shownUsage).drive "act-1" (some 5) (some 3) []).produce 0
        (.settled .authoritative)).drive "act-1" (some 5) (some 3) []

theorem shownWorld_reachable : shownWorld.Reachable :=
  .tail (.tail (.tail (.tail (.tail (.tail (.tail .refl (.registerSlot _ _ _ rfl)) (.bind _ _ _ _))
    (.produce _ _ _)) (.observeCandidate _ _ _ _)) (.drive _ _ _ _ _)) (.produce _ _ _))
    (.drive _ _ _ _ _)

theorem shownWorld_calls : callsOf 0 shownWorld.log =
    [.admission (some ⟨0, "act-1"⟩) ⟨5, shownScope, 2, .fromCandidate shownUsage⟩ (.ok 3),
      .acknowledged ⟨0, "act-1", 3⟩] := by
  rfl

theorem usage_finalized_once_shown :
    RightUsage shownWorld 0 (.fromCandidate shownUsage) ∧
      (acknowledgementsIn (callsOf 0 shownWorld.log)).length ≤ 1 :=
  have hfinal := usage_finalized_once shownWorld_reachable 0
  ⟨hfinal.2.2.2.1 _ (.ok 3) (by rw [shownWorld_calls]; exact List.mem_singleton_self _),
    hfinal.2.1⟩

end Shown

end Troupe.Runtime
