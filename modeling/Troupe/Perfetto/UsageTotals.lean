import Troupe.Perfetto.Digitwise
import Troupe.Store.Projector.ExactTotals

/-! # The usage totals of a trace

The totals of the exporter are texts, and a usage is added to them digit by digit. `addDigits_adds` says
what the loop of `add_nonnegative_decimal` does to the lists of digits, the lowest first, and
`addNonnegativeDecimal_counts` what that is for the texts of counts.

Results: **`usageTotals_digitwise`**, over every sequence of usages, `projectEvents_usageTotals`, over the
events of a trace, and **`usageTotals_eq_projector`**, that the usage projector has the same totals. -/

namespace Troupe.Perfetto

open Troupe.Lib Troupe.Core Troupe.Store

variable {left right : List Char} {digits : List Char} {usages : List ActTokenUsageFinalized}
  {usage : ActTokenUsageFinalized}

/-! ## Adding digits -/

/-- A digit, or zero behind the last one. -/
def digitAt (digit : Option Char) : Nat := digit.elim 0 fun c => c.toNat - 48

/-- The number digits stand for, the lowest first. -/
def littleValue (digits : List Char) : Nat := Lib.digitsValue digits.reverse

/-- The highest digit is no zero. -/
def Top (digits : List Char) : Prop := digits.getLast? ≠ some '0'

theorem littleValue_cons (c : Char) (rest : List Char) :
    littleValue (c :: rest) = digitAt (some c) + 10 * littleValue rest := by
  unfold littleValue
  rw [List.reverse_cons, digitsValue_concat, Nat.add_comm]
  rfl

theorem littleValue_split (digits : List Char) :
    littleValue digits = digitAt digits.head? + 10 * littleValue digits.tail := by
  cases digits with
  | nil => rfl
  | cons c rest => exact littleValue_cons c rest

theorem Top.tail (h : Top digits) : Top digits.tail := by
  cases digits with
  | nil => exact h
  | cons c rest =>
    cases rest with
    | nil => exact fun hnone => (nomatch hnone)
    | cons d more => rwa [Top, List.getLast?_cons_cons] at h

/-- A digit of the sum. -/
def sumDigit (digit : Nat) : Char := Char.ofNat ('0'.toNat + digit)

theorem sumDigit_spec : ∀ digit < 10, (sumDigit digit).isDigit = true ∧
    (sumDigit digit).toNat = 48 + digit ∧ (sumDigit digit = '0' → digit = 0) := by
  decide

theorem digitAt_le (h : Digits digits) : digitAt digits.head? ≤ 9 := by
  cases digits with
  | nil => exact Nat.zero_le _
  | cons c rest =>
    have hrange := isDigit_toNat (h c List.mem_cons_self)
    simp only [List.head?_cons, digitAt, Option.elim_some]
    omega

theorem digits_tail (h : Digits digits) : Digits digits.tail := fun c hc =>
  h c (List.mem_of_mem_tail hc)

theorem addDigits_nil_right (carry : Nat) (left : List Char) :
    addDigits carry left [] = addCarry carry left := by
  cases left <;> rfl

/-- One step of the addition, whichever number has digits left. -/
theorem addDigits_step {carry : Nat} (hcarry : carry ≤ 1)
    (hmore : ¬(left = [] ∧ right = [] ∧ carry = 0)) :
    addDigits carry left right =
      sumDigit ((digitAt left.head? + digitAt right.head? + carry) % 10) ::
        addDigits ((digitAt left.head? + digitAt right.head? + carry) / 10) left.tail right.tail := by
  cases left with
  | nil =>
    cases right with
    | nil =>
      have hone : carry = 1 := by
        by_contra hne
        exact hmore ⟨rfl, rfl, by omega⟩
      rw [hone]
      decide
    | cons b right =>
      simp [addDigits, addCarry, digitAt, sumDigit]
  | cons a left =>
    cases right with
    | nil =>
      rw [List.tail_nil, List.tail_cons, addDigits_nil_right, addDigits_nil_right]
      simp [addCarry, digitAt, sumDigit]
    | cons b right => rfl

theorem addDigits_eq_nil {carry : Nat} (hcarry : carry ≤ 1)
    (h : addDigits carry left right = []) : left = [] ∧ right = [] ∧ carry = 0 := by
  by_contra hmore
  rw [addDigits_step hcarry hmore] at h
  cases h

/-- A single digit that is the highest is no zero. -/
theorem eq_nil_of_digitAt (h : Digits digits) (htop : Top digits)
    (htail : digits.tail = []) (hzero : digitAt digits.head? = 0) : digits = [] := by
  cases digits with
  | nil => rfl
  | cons c rest =>
    rw [List.tail_cons] at htail
    subst htail
    have hrange := isDigit_toNat (h c List.mem_cons_self)
    rw [List.head?_cons, digitAt, Option.elim_some] at hzero
    have hc : c.toNat = '0'.toNat := by
      have hcode : '0'.toNat = 48 := rfl
      omega
    rw [Char.toNat_inj.mp hc] at htop
    exact absurd rfl htop

/-- What the addition gives. -/
structure Adds (carry : Nat) (left right sum : List Char) : Prop where
  loop : Digitwise.addLoop carry left right = .ok (sum.map fun c => UInt8.ofNat c.toNat)
  digits : Digits sum
  value : littleValue sum = littleValue left + littleValue right + carry
  top : Top left → Top right → Top sum

/-- The digits of one step add up in a `u8`. -/
theorem sumDigits_ok {carry : Nat} (hcarry : carry ≤ 1)
    (hleft : Digits left) (hright : Digits right) :
    Digitwise.sumDigits left.head? right.head? carry =
      .ok (digitAt left.head? + digitAt right.head? + carry) := by
  have hdigit {digits : List Char} (h : Digits digits) :
      Digitwise.digitOr digits.head? = .ok (digitAt digits.head?) := by
    cases digits with
    | nil => rfl
    | cons c rest =>
      have hrange := isDigit_toNat (h c List.mem_cons_self)
      have hsub : checkedSub c.toNat 48 = some (c.toNat - 48) := checkedSub_eq_some.mpr (by omega)
      rw [List.head?_cons, Digitwise.digitOr, hsub]
      rfl
  have hl := digitAt_le hleft
  have hr := digitAt_le hright
  have hmax : Digitwise.u8Max = 255 := rfl
  unfold Digitwise.sumDigits
  rw [hdigit hleft, ok_bind, hdigit hright, ok_bind, checkedAdd_of_le (by omega), Digitwise.orPanic,
    ok_bind, checkedAdd_of_le (by omega), Digitwise.orPanic]

/-- **The loop adds numbers.** -/
theorem addDigits_adds {carry : Nat} (hcarry : carry ≤ 1)
    (hleft : Digits left) (hright : Digits right) :
    Adds carry left right (addDigits carry left right) := by
  induction hn : 2 * (left.length + right.length) + carry using Nat.strongRecOn
    generalizing carry left right with
  | ind n ih =>
    subst hn
    by_cases hdone : left = [] ∧ right = [] ∧ carry = 0
    · obtain ⟨rfl, rfl, rfl⟩ := hdone
      have hloop : Digitwise.addLoop 0 [] [] = .ok [] := by
        rw [Digitwise.addLoop, dif_pos ⟨rfl, rfl, rfl⟩]
      exact ⟨hloop, List.forall_mem_nil _, rfl, fun _ _ hnone => (nomatch hnone)⟩
    · have hl := digitAt_le hleft
      have hr := digitAt_le hright
      have hsum := sumDigits_ok hcarry hleft hright
      generalize htotal : digitAt left.head? + digitAt right.head? + carry = total at hsum
      have hsmaller : 2 * (left.tail.length + right.tail.length) + total / 10 <
          2 * (left.length + right.length) + carry := by
        rw [List.length_tail, List.length_tail]
        by_cases hempty : left.length + right.length = 0
        · have hnil : left = [] ∧ right = [] :=
            ⟨List.length_eq_zero_iff.mp (by omega), List.length_eq_zero_iff.mp (by omega)⟩
          obtain ⟨rfl, rfl⟩ := hnil
          have hcarryPos : carry ≠ 0 := fun hzero => hdone ⟨rfl, rfl, hzero⟩
          have hempties : digitAt ([] : List Char).head? = 0 := rfl
          omega
        · omega
      have hrest := ih _ hsmaller (show total / 10 ≤ 1 by omega) (digits_tail hleft) (digits_tail hright) rfl
      obtain ⟨hdigit, hcode, hzero⟩ := sumDigit_spec (total % 10) (Nat.mod_lt _ (by decide))
      rw [addDigits_step hcarry hdone, htotal]
      refine ⟨?_, List.forall_mem_cons.mpr ⟨hdigit, hrest.digits⟩, ?_, fun htop htopRight => ?_⟩
      · rw [Digitwise.addLoop, dif_neg hdone]
        split
        · rename_i fault hfault
          rw [hsum] at hfault
          cases hfault
        · rename_i found hfound
          rw [hsum] at hfound
          cases hfound
          have hbyte : checkedAdd Digitwise.u8Max 48 (total % 10) = some (48 + total % 10) :=
            checkedAdd_of_le (by unfold Digitwise.u8Max; omega)
          rw [hbyte, Digitwise.orPanic, ok_bind, hrest.loop, List.map_cons, hcode]
          rfl
      · have hvalue : digitAt (some (sumDigit (total % 10))) = total % 10 := by
          rw [digitAt, Option.elim_some, hcode, Nat.add_sub_cancel_left]
        rw [littleValue_cons, hrest.value, littleValue_split left, littleValue_split right, hvalue]
        omega
      · have htail := hrest.top htop.tail htopRight.tail
        cases hmore : addDigits (total / 10) left.tail right.tail with
        | cons c rest =>
          rw [hmore] at htail
          rwa [Top, List.getLast?_cons_cons]
        | nil =>
          rw [Top, List.getLast?_singleton, ne_eq, Option.some.injEq]
          intro hdigitZero
          obtain ⟨hleftTail, hrightTail, hcarryOut⟩ :=
            addDigits_eq_nil (show total / 10 ≤ 1 by omega) hmore
          have htotalZero : total % 10 = 0 := hzero hdigitZero
          exact hdone ⟨eq_nil_of_digitAt hleft htop hleftTail (by omega),
            eq_nil_of_digitAt hright htopRight hrightTail (by omega), by omega⟩

/-! ## Adding counts -/

/-- A number of one zero is added like one without digits. -/
theorem addDigits_zero (hsome : digits ≠ []) :
    addDigits 0 ['0'] digits = addDigits 0 [] digits ∧
      addDigits 0 digits ['0'] = addDigits 0 digits [] := by
  have hnone (other : List Char) : ¬(other = [] ∧ digits = [] ∧ 0 = 0) := fun h => hsome h.2.1
  have hnoneLeft (other : List Char) : ¬(digits = [] ∧ other = [] ∧ 0 = 0) := fun h => hsome h.1
  have hzero : digitAt ['0'].head? = digitAt ([] : List Char).head? := rfl
  constructor
  · rw [addDigits_step (by decide) (hnone _), addDigits_step (by decide) (hnone _), hzero]
    rfl
  · rw [addDigits_step (by decide) (hnoneLeft _), addDigits_step (by decide) (hnoneLeft _), hzero]
    rfl

/-- The digits of a canonical number, the lowest first. -/
structure Reversed (digits : List Char) : Prop where
  digit : Digits digits
  nonempty : digits ≠ []
  top : digits = ['0'] ∨ Top digits

/-- The sum of canonical numbers is one. -/
theorem Reversed.add (hleft : Reversed left) (hright : Reversed right) :
    Reversed (addDigits 0 left right) := by
  have hadds := addDigits_adds (Nat.zero_le 1) hleft.digit hright.digit
  have hempty : Digits [] := List.forall_mem_nil _
  have htopEmpty : Top [] := fun hnone => (nomatch hnone)
  refine ⟨hadds.digits, fun hnil => hleft.nonempty (addDigits_eq_nil (by decide) hnil).1, ?_⟩
  rcases hleft.top with rfl | htop
  · rcases hright.top with rfl | htopRight
    · exact .inl (by decide)
    · rw [(addDigits_zero hright.nonempty).1]
      exact .inr ((addDigits_adds (Nat.zero_le 1) hempty hright.digit).top htopEmpty htopRight)
  · rcases hright.top with rfl | htopRight
    · rw [(addDigits_zero hleft.nonempty).2]
      exact .inr ((addDigits_adds (Nat.zero_le 1) hleft.digit hempty).top htop htopEmpty)
    · exact .inr (hadds.top htop htopRight)

theorem reversed_count (count : TokenCount) : Reversed count.value.toList.reverse := by
  obtain ⟨hdigits, hform⟩ := count.digits
  refine ⟨fun c hc => hdigits c (List.mem_reverse.mp hc), ?_, ?_⟩
  · rcases hform with hzero | ⟨c, rest, hcons, -⟩
    · rw [hzero]
      decide
    · rw [hcons]
      simp
  · rcases hform with hzero | ⟨c, rest, hcons, hc⟩
    · exact .inl (by rw [hzero]; rfl)
    · refine .inr ?_
      rw [Top, hcons, List.getLast?_reverse, List.head?_cons]
      exact fun heq => hc (Option.some.inj heq)

/-- Two canonical numbers that are the same have the same digits. -/
theorem Reversed.ext_value (hleft : Reversed left) (hright : Reversed right)
    (h : littleValue left = littleValue right) : left = right := by
  have hhead {digits : List Char} (hdigits : Reversed digits) :
      digits.reverse = ['0'] ∨ ∃ c rest, digits.reverse = c :: rest ∧ c ≠ '0' := by
    rcases hdigits.top with rfl | htop
    · exact .inl rfl
    · obtain ⟨c, rest, hcons⟩ := List.exists_cons_of_ne_nil
        (fun hnil => hdigits.nonempty (List.reverse_eq_nil_iff.mp hnil))
      refine .inr ⟨c, rest, hcons, fun hc => htop ?_⟩
      rw [← List.head?_reverse, hcons, hc]
      rfl
  have hreverse {digits : List Char} (hdigits : Reversed digits) : Digits digits.reverse :=
    fun c hc => hdigits.digit c (List.mem_reverse.mp hc)
  exact List.reverse_injective
    (digits_eq_of_digitsValue (hreverse hleft) (hreverse hright) (hhead hleft) (hhead hright) h)

/-- The count of a number. -/
theorem exists_count (n : Nat) : ∃ count : TokenCount, count.value = n.repr ∧ count.toNat = n := by
  obtain ⟨count, hcount⟩ := parseTokenCount_repr n
  have hvalue := parseTokenCount_eq_ok hcount
  exact ⟨count, hvalue, by rw [TokenCount.toNat, hvalue, digitsValue_repr]⟩

theorem littleValue_count (count : TokenCount) :
    littleValue count.value.toList.reverse = count.toNat := by
  rw [littleValue, List.reverse_reverse, TokenCount.toNat, digitsValue_eq_lib]

/-- The digits of the sum of two counts are those of its text. -/
theorem addDigits_counts (left right : TokenCount) :
    (addDigits 0 left.value.toList.reverse right.value.toList.reverse).reverse =
      (left.toNat + right.toNat).repr.toList := by
  obtain ⟨sum, hsum, hvalue⟩ := exists_count (left.toNat + right.toNat)
  have hleft := reversed_count left
  have hright := reversed_count right
  have hadds := addDigits_adds (Nat.zero_le 1) hleft.digit hright.digit
  have heq := (hleft.add hright).ext_value (reversed_count sum) (by
    rw [hadds.value, littleValue_count, littleValue_count, littleValue_count, hvalue, Nat.add_zero])
  rw [heq, List.reverse_reverse, hsum]

/-- The sum as the exporter's plan has it. -/
theorem addNonnegativeDecimal_eq (left right : TokenCount) :
    addNonnegativeDecimal left.value right.value = (left.toNat + right.toNat).repr := by
  rw [addNonnegativeDecimal, addDigits_counts, String.ofList_toList]

/-- ASCII characters are their bytes. -/
theorem toByteArray_ascii {text : List Char} (h : ∀ c ∈ text, c.val < 128) :
    (⟨(text.map fun c => UInt8.ofNat c.toNat).toArray⟩ : ByteArray) =
      (String.ofList text).toByteArray := by
  have hbytes : text.flatMap String.utf8EncodeChar = text.map fun c => UInt8.ofNat c.toNat := by
    induction text with
    | nil => rfl
    | cons c rest ih =>
      obtain ⟨hc, hrest⟩ := List.forall_mem_cons.mp h
      have hone : c.val.toNat ≤ 127 := by
        have hlt : c.val.toNat < 128 := UInt32.lt_iff_toNat_lt.mp hc
        omega
      rw [List.flatMap_cons, ih hrest, List.map_cons, String.utf8EncodeChar]
      simp only [hone, if_true]
      rfl
  rw [String.toByteArray_ofList, List.utf8Encode, hbytes]
  ext1
  rw [List.data_toByteArray]

/-- **The sum digit by digit**: no operation on bytes fails, and the text is that of the sum. -/
theorem addNonnegativeDecimal_digitwise (left right : TokenCount) :
    Digitwise.addNonnegativeDecimal left.value right.value =
      .ok (left.toNat + right.toNat).repr := by
  have hleft := reversed_count left
  have hright := reversed_count right
  have hadds := addDigits_adds (Nat.zero_le 1) hleft.digit hright.digit
  unfold Digitwise.addNonnegativeDecimal
  rw [hadds.loop, ok_bind, ← List.map_reverse, addDigits_counts, toByteArray_ascii, String.ofList_toList,
    String.fromUTF8?, dif_pos (String.isValidUTF8 _)]
  · rfl
  · obtain ⟨sum, hsum, -⟩ := exists_count (left.toNat + right.toNat)
    rw [← hsum]
    exact fun c hc => isDigit_ascii (sum.digits.1 c hc)

/-! ## The totals of a run -/

/-- The sum of the known values of a field. -/
def knownSum (field : UsageField) (usages : List ActTokenUsageFinalized) : Nat :=
  ((usages.filterMap field.value).map TokenCount.toNat).sum

/-- The texts of the sums. -/
def exactTotals (usages : List ActTokenUsageFinalized) : UsageField → String := fun field =>
  (knownSum field usages).repr

theorem knownSum_concat (field : UsageField) (usages : List ActTokenUsageFinalized)
    (usage : ActTokenUsageFinalized) :
    knownSum field (usages ++ [usage]) =
      knownSum field usages + ((field.value usage).map TokenCount.toNat).getD 0 := by
  unfold knownSum
  rw [List.filterMap_append, List.map_append, List.sum_append]
  cases hvalue : field.value usage <;> simp [hvalue]

/-- The sums with the values of some fields of a usage added. -/
def partialTotals (usages : List ActTokenUsageFinalized) (usage : ActTokenUsageFinalized)
    (added : List UsageField) : UsageField → String := fun field =>
  if field ∈ added then exactTotals (usages ++ [usage]) field else exactTotals usages field

theorem partialTotals_all (usages : List ActTokenUsageFinalized) (usage : ActTokenUsageFinalized) :
    partialTotals usages usage UsageField.all = exactTotals (usages ++ [usage]) := by
  funext field
  exact if_pos (by cases field <;> decide)

/-- A field is added once. -/
theorem update_partialTotals
    {added : List UsageField} {field : UsageField} {total : String}
    (htotal : total = exactTotals (usages ++ [usage]) field) :
    Function.update (partialTotals usages usage added) field total =
      partialTotals usages usage (added ++ [field]) := by
  funext other
  unfold partialTotals
  rw [Function.update_apply]
  by_cases hother : other = field
  · subst hother
    simp [htotal]
  · simp [hother]

/-- A field without a value has the same total. -/
theorem partialTotals_skip
    {added : List UsageField} {field : UsageField} (hnone : field.value usage = none) :
    partialTotals usages usage (added ++ [field]) = partialTotals usages usage added := by
  funext other
  unfold partialTotals
  by_cases hother : other = field
  · subst hother
    have hsame : exactTotals (usages ++ [usage]) other = exactTotals usages other := by
      unfold exactTotals
      rw [knownSum_concat, hnone]
      rfl
    rw [hsame, ite_self, ite_self]
  · simp [hother]

/-- The values of a usage among some fields. -/
def valuesOf (usage : ActTokenUsageFinalized) (fields : List UsageField) : List (UsageField × String) :=
  fields.filterMap fun field => (field.value usage).map fun value => (field, value.value)

theorem addUsage_fields
    (fields added : List UsageField) (hnodup : (added ++ fields).Nodup) :
    addUsage (partialTotals usages usage added) (valuesOf usage fields) =
        partialTotals usages usage (added ++ fields) ∧
      Digitwise.addUsage (partialTotals usages usage added) (valuesOf usage fields) =
        .ok (partialTotals usages usage (added ++ fields)) := by
  induction fields generalizing added with
  | nil =>
    rw [List.append_nil]
    exact ⟨rfl, rfl⟩
  | cons field rest ih =>
    have hsplit : added ++ field :: rest = added ++ [field] ++ rest := by simp
    have hnew : field ∉ added := fun hmem =>
      (List.nodup_append.mp hnodup).2.2 field hmem field List.mem_cons_self rfl
    rw [hsplit] at hnodup ⊢
    obtain ⟨htotals, hdigits⟩ := ih (added ++ [field]) hnodup
    cases hvalue : field.value usage with
    | none =>
      have hvalues : valuesOf usage (field :: rest) = valuesOf usage rest := by
        simp [valuesOf, hvalue]
      rw [hvalues, ← partialTotals_skip hvalue]
      exact ⟨htotals, hdigits⟩
    | some value =>
      have hvalues : valuesOf usage (field :: rest) = (field, value.value) :: valuesOf usage rest := by
        simp [valuesOf, hvalue]
      obtain ⟨current, htext, hnumber⟩ := exists_count (knownSum field usages)
      have hcurrent : partialTotals usages usage added field = current.value := by
        rw [partialTotals, if_neg hnew, exactTotals, htext]
      have hsum : (current.toNat + value.toNat).repr = exactTotals (usages ++ [usage]) field := by
        rw [exactTotals, knownSum_concat, hvalue, hnumber]
        rfl
      constructor
      · rw [hvalues, addUsage, List.foldl_cons]
        dsimp only
        rw [hcurrent, addNonnegativeDecimal_eq, update_partialTotals hsum]
        exact htotals
      · rw [hvalues, Digitwise.addUsage, List.foldlM_cons]
        dsimp only
        rw [hcurrent, addNonnegativeDecimal_digitwise, ok_bind, update_partialTotals hsum]
        exact hdigits

/-- **A usage adds its values to the sums.** -/
theorem addUsage_exact (usages : List ActTokenUsageFinalized) (usage : ActTokenUsageFinalized) :
    addUsage (exactTotals usages) (UsageSummary.fromEvent usage).values =
        exactTotals (usages ++ [usage]) ∧
      Digitwise.addUsage (exactTotals usages) (UsageSummary.fromEvent usage).values =
        .ok (exactTotals (usages ++ [usage])) := by
  have hnone : partialTotals usages usage [] = exactTotals usages := by
    funext field
    exact if_neg List.not_mem_nil
  have hadded := @addUsage_fields usages usage UsageField.all [] (by decide)
  rw [hnone, List.nil_append, partialTotals_all] at hadded
  exact hadded

theorem exactTotals_nil : exactTotals [] = fun _ => "0" := by
  funext field
  have hzero : Nat.repr 0 = "0" := by decide
  exact hzero

/-- The totals digit by digit. -/
theorem usageTotals_digitwise (usages : List ActTokenUsageFinalized) :
    Digitwise.usageTotals usages = .ok (exactTotals usages) := by
  induction usages using List.reverseRecOn with
  | nil =>
    rw [exactTotals_nil]
    rfl
  | append_singleton usages usage ih =>
    unfold Digitwise.usageTotals at ih ⊢
    rw [List.foldlM_append, ih, ok_bind, List.foldlM_cons, (addUsage_exact usages usage).2]
    rfl

/-- The usage of an event. -/
def finalizedUsage? : DiagnosticEvent → Option ActTokenUsageFinalized
  | .actTokenUsageFinalized usage => some usage
  | _ => none

section Project

variable {plan : ProjectionPlan} {projector after : PacketProjector} {event : DiagnosticEvent}
  {events : List DiagnosticEvent} {usages : List ActTokenUsageFinalized}

theorem drafts_usageTotals {drafts : List PacketDraft}
    (htotals : projector.usageTotals = exactTotals usages)
    (h : projector.drafts plan event = .ok (drafts, after)) :
    after.usageTotals = exactTotals (usages ++ (finalizedUsage? event).toList) := by
  have hkept {result : Except ProjectionError (List PacketDraft)}
      (h : (·, projector) <$> result = .ok (drafts, after)) :
      after.usageTotals = exactTotals (usages ++ []) := by
    obtain ⟨shown, -, heq⟩ := map_eq_ok.mp h
    cases heq
    rw [List.append_nil, htotals]
  unfold PacketProjector.drafts at h
  cases event with
  | actTokenUsageFinalized usage =>
    cases h
    dsimp only
    rw [htotals]
    exact (addUsage_exact usages usage).1
  | spanStarted value => exact hkept h
  | spanFinished value => exact hkept h
  | instantOccurred value => exact hkept h
  | customSpanStarted value => exact hkept h
  | customSpanFinished value => exact hkept h
  | customInstantOccurred value => exact hkept h
  | _ =>
    cases h
    simp only [finalizedUsage?, Option.toList_none, List.append_nil, htotals]

/-- **The projector of a trace has the sums over the usages it has passed.** -/
theorem projectEvents_usageTotals {packets : List TracePacket}
    (htotals : projector.usageTotals = exactTotals usages)
    (h : PacketProjector.projectEvents plan projector events = .ok (packets, after)) :
    after.usageTotals = exactTotals (usages ++ events.filterMap finalizedUsage?) := by
  induction events generalizing projector usages packets with
  | nil =>
    cases h
    rw [List.filterMap_nil, List.append_nil, htotals]
  | cons event rest ih =>
    obtain ⟨⟨first, next⟩, hevent, h⟩ := bind_eq_ok.mp h
    obtain ⟨⟨more, last⟩, hrest, h⟩ := bind_eq_ok.mp h
    cases h
    obtain ⟨-, -, hevent⟩ := bind_eq_ok.mp hevent
    obtain ⟨⟨drafts, drafted⟩, hdrafts, hevent⟩ := bind_eq_ok.mp hevent
    obtain ⟨-, -, hevent⟩ := bind_eq_ok.mp hevent
    obtain ⟨attached, -, hevent⟩ := bind_eq_ok.mp hevent
    obtain ⟨sequence, -, hevent⟩ := bind_eq_ok.mp hevent
    obtain ⟨nextSequence, -, hevent⟩ := bind_eq_ok.mp hevent
    cases hevent
    have hdrafted := drafts_usageTotals htotals (mapError_eq_ok.mp hdrafts)
    have hnext : ({ drafted with nextSequence } : PacketProjector).usageTotals =
        exactTotals (usages ++ (finalizedUsage? event).toList) := hdrafted
    rw [ih hnext hrest, List.append_assoc]
    cases husage : finalizedUsage? event <;> simp [husage]

end Project

/-! ## The usage projector -/

/-- The aggregate of a field. -/
def fieldAggregate (aggregate : UsageAggregate) : UsageField → UsageFieldAggregate
  | .providerTotal => aggregate.providerTotalTokens
  | .input => aggregate.inputTokens
  | .output => aggregate.outputTokens
  | .thought => aggregate.thoughtTokens
  | .cachedRead => aggregate.cachedReadTokens
  | .cachedWrite => aggregate.cachedWriteTokens

section Projector

variable {runId : CanonicalUuid} {events : List DiagnosticEvent} {model : UsageReadModel}

/-- A projected usage belongs to an act. -/
theorem projectUsage_acts (h : projectUsage runId events = .ok model) :
    ∀ usage ∈ events.filterMap finalizedUsage?, usage.header.scope.actId.isSome = true := by
  obtain ⟨projector, hrun, rfl⟩ := outcome_eq_ok.mp h
  have hinvariant := applyAll_invariant (fun seen projector => Usage.Follows runId seen projector ∧
    ∀ usage ∈ seen.filterMap finalizedUsage?, usage.header.scope.actId.isSome = true)
    (fun seen projector event projector' hfollows hok =>
      ⟨Usage.follows_apply seen projector event projector' hfollows.1 hok, fun usage husage => ?_⟩)
    [] ⟨⟨Usage.summarises_empty runId, rfl⟩, List.forall_mem_nil _⟩ hrun
  · exact hinvariant.2
  rw [List.filterMap_append, List.mem_append] at husage
  rcases husage with husage | husage
  · exact hfollows.2 usage husage
  obtain ⟨found, hfound, heq⟩ := List.mem_filterMap.mp husage
  obtain rfl := List.mem_singleton.mp hfound
  obtain ⟨-, hcandidate⟩ := Projector.apply_eq_ok.mp hok
  obtain ⟨_, hposition, -⟩ := bind_eq_ok.mp hcandidate
  have hnext := next_of_validateUntiedPosition hfollows.1.1.covers (mapError_eq_ok.mp hposition)
  obtain ⟨candidate, hcandidate, -⟩ := (Usage.candidateForEvent_eq_ok hfollows.1.1 hnext).mp hcandidate
  cases found with
  | actTokenUsageFinalized finalized =>
    cases heq
    obtain ⟨actId, _, _, hact, -⟩ := (Usage.finalizeUsage_eq_ok hfollows.1.1.holds).mp hcandidate
    rw [hact]
    rfl
  | _ => cases heq

/-- The token fields of the projected usages. -/
theorem projectUsage_tokens (h : projectUsage runId events = .ok model) :
    model.usages.map (·.share.tokens) = (events.filterMap finalizedUsage?).map (·.tokens) := by
  have hacts := projectUsage_acts h
  obtain ⟨husages, -⟩ := usage_totals_exact h
  rw [husages]
  clear husages h
  induction events with
  | nil => rfl
  | cons event rest ih =>
    cases event with
    | actTokenUsageFinalized finalized =>
      rw [List.filterMap_cons_some (f := finalizedUsage?) (b := finalized) rfl] at hacts ⊢
      obtain ⟨hact, hrest⟩ := List.forall_mem_cons.mp hacts
      obtain ⟨actId, hactId⟩ := Option.isSome_iff_exists.mp hact
      rw [List.filterMap_cons_some (f := Usage.usageOf?) (b := .fromEvent finalized actId)
        (by rw [Usage.usageOf?, hactId]; rfl), List.map_cons, List.map_cons, ih hrest]
      rfl
    | _ => exact ih hacts

/-- **The usage projector has the same totals.** -/
theorem usageTotals_eq_projector (h : projectUsage runId events = .ok model) (field : UsageField) :
    ((fieldAggregate model.aggregate field).knownSum.map (·.value)).getD "0" =
      exactTotals (events.filterMap finalizedUsage?) field := by
  obtain ⟨-, htotal, -⟩ := usage_totals_exact h
  have htokens := projectUsage_tokens h
  have hfield : (fieldAggregate model.aggregate field).total =
      fieldTotal ((events.filterMap finalizedUsage?).map field.value) := by
    have hvalues (value : UsageTokens → Option TokenCount) :
        (model.usages.map ProjectedActUsage.share).map (fun share => value share.tokens) =
          (events.filterMap finalizedUsage?).map fun usage => value usage.tokens := by
      have hmapped := congrArg (List.map value) htokens
      rw [List.map_map, List.map_map] at hmapped
      rw [List.map_map]
      exact hmapped
    cases field with
    | providerTotal =>
      exact (congrArg UsageTotal.providerTotalTokens htotal).trans (congrArg fieldTotal (hvalues _))
    | input => exact (congrArg UsageTotal.inputTokens htotal).trans (congrArg fieldTotal (hvalues _))
    | output => exact (congrArg UsageTotal.outputTokens htotal).trans (congrArg fieldTotal (hvalues _))
    | thought => exact (congrArg UsageTotal.thoughtTokens htotal).trans (congrArg fieldTotal (hvalues _))
    | cachedRead =>
      exact (congrArg UsageTotal.cachedReadTokens htotal).trans (congrArg fieldTotal (hvalues _))
    | cachedWrite =>
      exact (congrArg UsageTotal.cachedWriteTokens htotal).trans (congrArg fieldTotal (hvalues _))
  have hsum := congrArg FieldTotal.knownSum hfield
  simp only [UsageFieldAggregate.total, fieldTotal, List.filterMap_map, Function.id_comp] at hsum
  unfold exactTotals knownSum
  cases hknown : (fieldAggregate model.aggregate field).knownSum with
  | none =>
    rw [hknown] at hsum
    cases hnumbers : ((events.filterMap finalizedUsage?).filterMap field.value).map
        TokenCount.toNat with
    | nil => decide
    | cons first rest =>
      rw [hnumbers] at hsum
      cases hsum
  | some count =>
    rw [hknown] at hsum
    cases hnumbers : ((events.filterMap finalizedUsage?).filterMap field.value).map
        TokenCount.toNat with
    | nil =>
      rw [hnumbers] at hsum
      cases hsum
    | cons first rest =>
      rw [hnumbers] at hsum
      obtain ⟨sum, htext, hnumber⟩ := exists_count (first :: rest).sum
      have hcount : count = sum := by
        refine TokenCount.toNat_injective ?_
        rw [hnumber]
        exact Option.some.inj hsum
      rw [hcount, ← htext]
      rfl

end Projector

end Troupe.Perfetto
