import Mathlib.Algebra.BigOperators.Group.List.Basic
import Mathlib.Algebra.Order.BigOperators.Group.List
import Troupe.Lib.Machine

/-! # The shared budget of the sinks

`budget.rs`: how many events and encoded bytes all sinks of a runtime hold together, two 32-bit
fields packed into one atomic word.

* `RuntimeBudget` carries what its constructor asserts (the limits fit the packed word) and what
  every exchange checks (the usage is within the limits), so no other budget can be built.
* `tryReplace` is one pass of the loop around `compare_exchange_weak`: the load, the checks and the
  exchange that succeeded. A pass whose exchange failed changes nothing and is not seen.

Results: `unpack_pack`, and `tryReplace_spec`: a release of what is held neither underflows nor
borrows from the other field. -/

namespace Troupe.Sink

open Troupe.Lib

/-- `RUNTIME_MAX_EVENTS`. -/
def runtimeMaxEvents : Nat := 16384
/-- `RUNTIME_MAX_ENCODED_BYTES`. -/
def runtimeMaxEncodedBytes : Nat := 64 * 1024 * 1024

/-- `PACKED_FIELD_BITS`. -/
def packedFieldBits : Nat := 32
/-- `PACKED_FIELD_MASK`. -/
def packedFieldMask : Nat := 2 ^ 32 - 1

/-! ## Usage -/

/-- `BudgetUsage`. -/
@[ext]
structure BudgetUsage where
  events : Nat
  encodedBytes : Nat
deriving DecidableEq

/-- `BudgetLimits`. -/
structure BudgetLimits where
  maxEvents : Nat
  maxEncodedBytes : Nat
deriving DecidableEq

namespace BudgetUsage

instance : Zero BudgetUsage := ⟨⟨0, 0⟩⟩

instance : Add BudgetUsage := ⟨fun a b => ⟨a.events + b.events, a.encodedBytes + b.encodedBytes⟩⟩

instance : LE BudgetUsage := ⟨fun a b => a.events ≤ b.events ∧ a.encodedBytes ≤ b.encodedBytes⟩

@[simp] theorem zero_events : (0 : BudgetUsage).events = 0 := rfl
@[simp] theorem zero_encodedBytes : (0 : BudgetUsage).encodedBytes = 0 := rfl
@[simp] theorem add_events (a b : BudgetUsage) : (a + b).events = a.events + b.events := rfl
@[simp] theorem add_encodedBytes (a b : BudgetUsage) :
    (a + b).encodedBytes = a.encodedBytes + b.encodedBytes := rfl

theorem le_def {a b : BudgetUsage} :
    a ≤ b ↔ a.events ≤ b.events ∧ a.encodedBytes ≤ b.encodedBytes := Iff.rfl

/-- Usages add up in any order, in lists too. -/
instance : AddCommMonoid BudgetUsage where
  add_assoc a b c := by ext <;> simp [Nat.add_assoc]
  zero_add a := by ext <;> simp
  add_zero a := by ext <;> simp
  add_comm a b := by ext <;> simp [Nat.add_comm]
  nsmul := nsmulRec

theorem add_cancel {a b c : BudgetUsage} (h : a + c = b + c) : a = b := by
  rw [BudgetUsage.ext_iff] at h ⊢
  simp only [add_events, add_encodedBytes] at h
  omega

theorem le_of_add_eq {a b c : BudgetUsage} (h : a + b = c) : b ≤ c := by
  rw [← h, le_def]
  simp

/-- `BudgetUsage::fits_within`. -/
def FitsWithin (usage : BudgetUsage) (limits : BudgetLimits) : Prop :=
  usage.events ≤ limits.maxEvents ∧ usage.encodedBytes ≤ limits.maxEncodedBytes

instance (usage : BudgetUsage) (limits : BudgetLimits) : Decidable (usage.FitsWithin limits) := by
  unfold FitsWithin
  infer_instance

/-- `BudgetUsage::checked_add`. -/
def checkedAdd (usage other : BudgetUsage) : Option BudgetUsage := do
  let events ← Lib.checkedAdd usizeMax usage.events other.events
  let encodedBytes ← Lib.checkedAdd usizeMax usage.encodedBytes other.encodedBytes
  some ⟨events, encodedBytes⟩

/-- `BudgetUsage::checked_sub`. -/
def checkedSub (usage other : BudgetUsage) : Option BudgetUsage := do
  let events ← Lib.checkedSub usage.events other.events
  let encodedBytes ← Lib.checkedSub usage.encodedBytes other.encodedBytes
  some ⟨events, encodedBytes⟩

theorem checkedAdd_of_le {usage other : BudgetUsage}
    (h : usage + other ≤ ⟨usizeMax, usizeMax⟩) : usage.checkedAdd other = some (usage + other) := by
  unfold checkedAdd
  rw [Lib.checkedAdd_of_le h.1, Lib.checkedAdd_of_le h.2]
  rfl

theorem checkedAdd_eq_some {usage other sum : BudgetUsage}
    (h : usage.checkedAdd other = some sum) : sum = usage + other := by
  simp only [checkedAdd, Option.bind_eq_bind, Option.bind_eq_some_iff] at h
  obtain ⟨events, hevents, bytes, hbytes, h⟩ := h
  cases h
  ext
  · exact (Lib.checkedAdd_eq_some.mp hevents).2
  · exact (Lib.checkedAdd_eq_some.mp hbytes).2

theorem checkedSub_eq_some {usage other rest : BudgetUsage} :
    usage.checkedSub other = some rest ↔ usage = rest + other := by
  simp only [checkedSub, Option.bind_eq_bind, Option.bind_eq_some_iff, Lib.checkedSub_eq_some,
    BudgetUsage.ext_iff, add_events, add_encodedBytes, Option.some.injEq]
  constructor
  · rintro ⟨events, hevents, bytes, hbytes, rfl, rfl⟩
    exact ⟨hevents, hbytes⟩
  · rintro ⟨hevents, hbytes⟩
    exact ⟨rest.events, hevents, rest.encodedBytes, hbytes, rfl, rfl⟩

end BudgetUsage

/-! ## Packing -/

/-- The usage fits two 32-bit fields. -/
def BudgetUsage.Representable (usage : BudgetUsage) : Prop :=
  usage.events < 2 ^ packedFieldBits ∧ usage.encodedBytes < 2 ^ packedFieldBits

instance (usage : BudgetUsage) : Decidable usage.Representable := by
  unfold BudgetUsage.Representable
  infer_instance

/-- `pack`. -/
def pack (usage : BudgetUsage) : Option Nat :=
  if usage.Representable then
    some ((usage.events <<< packedFieldBits) ||| usage.encodedBytes)
  else
    none

/-- `unpack`. -/
def unpack (packed : Nat) : BudgetUsage :=
  ⟨packed >>> packedFieldBits, packed &&& packedFieldMask⟩

theorem pack_eq_some {usage : BudgetUsage} (h : usage.Representable) :
    pack usage = some (usage.events * 2 ^ packedFieldBits + usage.encodedBytes) := by
  unfold pack
  rw [if_pos h, ← Nat.shiftLeft_add_eq_or_of_lt h.2, Nat.shiftLeft_eq]

/-- The fields do not run into each other. -/
theorem unpack_pack {usage : BudgetUsage} {packed : Nat} (h : pack usage = some packed) :
    unpack packed = usage := by
  have hrepresentable : usage.Representable := by
    unfold pack at h
    exact (Option.ite_none_right_eq_some.mp h).1
  rw [pack_eq_some hrepresentable] at h
  cases h
  have hbytes := hrepresentable.2
  unfold unpack packedFieldMask
  unfold packedFieldBits at hbytes ⊢
  rw [Nat.and_two_pow_sub_one_eq_mod, Nat.shiftRight_eq_div_pow]
  ext
  · simp only
    omega
  · simp only
    omega

/-! ## The budget -/

/-- `BudgetError`. -/
inductive BudgetError where
  | limitExceeded (limits : BudgetLimits) (current attempted : BudgetUsage)
  | releaseExceedsUsage (current released : BudgetUsage)
  | arithmeticOverflow
  | unrepresentable (usage : BudgetUsage)
deriving DecidableEq

/-- `RuntimeBudget`. -/
structure RuntimeBudget where
  limits : BudgetLimits
  packedUsage : Nat
  /-- "runtime diagnostic limits must fit the atomic budget representation". -/
  representable : BudgetUsage.Representable ⟨limits.maxEvents, limits.maxEncodedBytes⟩
  /-- Only a usage within the limits is ever stored. -/
  within : (unpack packedUsage).FitsWithin limits

namespace RuntimeBudget

/-- `RuntimeBudget::with_limits`. -/
def withLimits (limits : BudgetLimits)
    (h : BudgetUsage.Representable ⟨limits.maxEvents, limits.maxEncodedBytes⟩) : RuntimeBudget where
  limits := limits
  packedUsage := 0
  representable := h
  within := ⟨Nat.zero_le _, Nat.zero_le _⟩

/-- `RuntimeBudget::new`. -/
def new : RuntimeBudget := withLimits ⟨runtimeMaxEvents, runtimeMaxEncodedBytes⟩ (by decide)

/-- `RuntimeBudget::usage`. -/
def usage (budget : RuntimeBudget) : BudgetUsage := unpack budget.packedUsage

/-- `RuntimeBudget::try_replace`. -/
def tryReplace (budget : RuntimeBudget) (released admitted : BudgetUsage) :
    Except BudgetError BudgetUsage × RuntimeBudget :=
  if (pack released).isNone then
    (.error (.unrepresentable released), budget)
  else if (pack admitted).isNone then
    (.error (.unrepresentable admitted), budget)
  else
    match budget.usage.checkedSub released with
    | none => (.error (.releaseExceedsUsage budget.usage released), budget)
    | some afterRelease =>
      match afterRelease.checkedAdd admitted with
      | none => (.error .arithmeticOverflow, budget)
      | some attempted =>
        if hfits : attempted.FitsWithin budget.limits then
          match hpack : pack attempted with
          | none => (.error (.unrepresentable attempted), budget)
          | some next =>
            (.ok attempted,
              { budget with
                packedUsage := next
                within := by
                  rw [unpack_pack hpack]
                  exact hfits })
        else
          (.error (.limitExceeded budget.limits budget.usage attempted), budget)

end RuntimeBudget

section Replace

variable {budget : RuntimeBudget} {released admitted rest : BudgetUsage}

theorem pack_isNone {usage : BudgetUsage} : (pack usage).isNone = !decide usage.Representable := by
  unfold pack
  by_cases h : usage.Representable <;> simp [h]

theorem RuntimeBudget.usage_representable (budget : RuntimeBudget) : budget.usage.Representable := by
  have hlimits := budget.representable
  have hwithin := budget.within
  exact ⟨Nat.lt_of_le_of_lt hwithin.1 hlimits.1, Nat.lt_of_le_of_lt hwithin.2 hlimits.2⟩

theorem withLimits_usage (limits : BudgetLimits)
    (h : BudgetUsage.Representable ⟨limits.maxEvents, limits.maxEncodedBytes⟩) :
    (RuntimeBudget.withLimits limits h).usage = 0 := by
  ext
  · exact Nat.zero_shiftRight packedFieldBits
  · exact Nat.zero_and packedFieldMask

/-- What one exchange that releases no more than is held does. -/
inductive Replaced (budget : RuntimeBudget) (rest admitted : BudgetUsage) :
    Except BudgetError BudgetUsage × RuntimeBudget → Prop
  | replaced (next : RuntimeBudget) (limits : next.limits = budget.limits)
      (usage : next.usage = rest + admitted) (fits : (rest + admitted).FitsWithin budget.limits) :
      Replaced budget rest admitted (.ok (rest + admitted), next)
  | full (current attempted : BudgetUsage) (exceeds : ¬(rest + admitted).FitsWithin budget.limits) :
      Replaced budget rest admitted (.error (.limitExceeded budget.limits current attempted), budget)
  | tooLarge (unrepresentable : ¬admitted.Representable) :
      Replaced budget rest admitted (.error (.unrepresentable admitted), budget)

/-- **A release of what is held does not underflow**: it fails only for a full budget, or for an
admission that no field can hold. -/
theorem tryReplace_spec (h : budget.usage = rest + released) (admitted : BudgetUsage) :
    Replaced budget rest admitted (budget.tryReplace released admitted) := by
  have husage := budget.usage_representable
  have hle := BudgetUsage.le_of_add_eq h.symm
  have hreleased : released.Representable :=
    ⟨Nat.lt_of_le_of_lt hle.1 husage.1, Nat.lt_of_le_of_lt hle.2 husage.2⟩
  unfold RuntimeBudget.tryReplace
  rw [pack_isNone, pack_isNone, if_neg (by simp [hreleased])]
  by_cases hadmitted : admitted.Representable
  · rw [if_neg (by simp [hadmitted]), BudgetUsage.checkedSub_eq_some.mpr h]
    have hsum : rest + admitted ≤ ⟨usizeMax, usizeMax⟩ := by
      rw [h] at husage
      unfold BudgetUsage.Representable packedFieldBits at husage hadmitted
      rw [BudgetUsage.le_def]
      simp only [BudgetUsage.add_events, BudgetUsage.add_encodedBytes, usizeMax] at husage ⊢
      omega
    simp only [BudgetUsage.checkedAdd_of_le hsum]
    by_cases hfits : (rest + admitted).FitsWithin budget.limits
    · have hlimits := budget.representable
      have hrepresentable : (rest + admitted).Representable :=
        ⟨Nat.lt_of_le_of_lt hfits.1 hlimits.1, Nat.lt_of_le_of_lt hfits.2 hlimits.2⟩
      rw [dif_pos hfits]
      split
      · rename_i hpack
        rw [pack_eq_some hrepresentable] at hpack
        cases hpack
      · rename_i next hpack
        exact .replaced _ rfl (unpack_pack hpack) hfits
    · rw [dif_neg hfits]
      exact .full _ _ hfits
  · rw [if_pos (by simp [hadmitted])]
    exact .tooLarge hadmitted

/-- A release of what is held succeeds. -/
theorem tryReplace_release (h : budget.usage = rest + released) :
    ∃ next : RuntimeBudget, budget.tryReplace released 0 = (.ok rest, next) ∧
      next.limits = budget.limits ∧ next.usage = rest := by
  have hspec := tryReplace_spec h 0
  have hwithin : budget.usage.FitsWithin budget.limits := budget.within
  have hle : rest ≤ budget.usage := by
    rw [h, BudgetUsage.le_def]
    simp
  generalize budget.tryReplace released 0 = result at hspec
  cases hspec with
  | replaced next limits usage fits =>
    rw [add_zero] at usage
    exact ⟨next, by rw [add_zero], limits, usage⟩
  | full _ _ exceeds =>
    rw [add_zero] at exceeds
    exact absurd ⟨Nat.le_trans hle.1 hwithin.1, Nat.le_trans hle.2 hwithin.2⟩ exceeds
  | tooLarge unrepresentable => exact absurd (by decide) unrepresentable

end Replace

end Troupe.Sink
