import Troupe.Agent.Schema.Reference

/-! # Scalars mean the same to both validators

The slots of a built-in descriptor are read back from what the compiler extracted of them. A scalar
descriptor and the contract it was compiled to then admit the same values (`scalar_agrees`).

Python's validator limits the size of a string and the contract does not. A value within the
resource limits of a result keeps the limit. -/

namespace Troupe.Agent

open Troupe.Lib

variable {description : String} {value : Json}

/-! ## Slots of descriptors -/

theorem optionalUsize_slot {bound : Option Int} {name : String} {maximum : Nat}
    {result : Option Nat}
    (h : Extracts (optionalSlot .int bound) (extractExactOptionalUsize · name maximum) result) :
    bound = result.map Nat.cast ∧ ∀ size ∈ result, size ≤ maximum := by
  obtain ⟨object, hobject, h⟩ := h
  cases bound with
  | none =>
    cases hobject
    cases h
    simp
  | some value =>
    cases hobject
    unfold extractExactOptionalUsize at h
    dsimp only at h
    split at h
    · cases h
    next hrange =>
      split at h
      · cases h
      next hmax =>
        cases h
        rw [not_or, not_lt] at hrange
        refine ⟨?_, by simpa using hmax⟩
        rw [Option.map_some, Int.toNat_of_nonneg hrange.1]

theorem optionalI64_slot {bound : Option Int} {name : String} {result : Option Int}
    (h : Extracts (optionalSlot .int bound) (extractExactOptionalI64 · name) result) :
    bound = result := by
  obtain ⟨object, hobject, h⟩ := h
  cases bound with
  | none =>
    cases hobject
    cases h
    rfl
  | some value =>
    cases hobject
    unfold extractExactOptionalI64 extractI64 at h
    dsimp only at h
    split at h
    · cases h
      rfl
    · cases h

theorem optionalF64_slot {bound : Option Float64} {name : String} {result : Option Float64}
    (h : Extracts (optionalSlot .float bound) (extractExactOptionalF64 · name) result) :
    bound = result := by
  obtain ⟨object, hobject, h⟩ := h
  cases bound with
  | none =>
    cases hobject
    cases h
    rfl
  | some value =>
    cases hobject
    unfold extractExactOptionalF64 at h
    dsimp only at h
    split at h
    · cases h
      rfl
    · cases h

theorem convertChoices_ok {α : Type} [BEq α] {convert : PyObject → Except PyErr α}
    {objects : List PyObject} {output result : List α}
    (h : convertChoices convert objects output = .ok result) :
    ∃ choices, result = output ++ choices ∧
      List.Forall₂ (fun object choice => convert object = .ok choice) objects choices := by
  induction objects generalizing output with
  | nil =>
    cases h
    exact ⟨[], (List.append_nil _).symm, .nil⟩
  | cons object objects ih =>
    unfold convertChoices at h
    obtain ⟨choice, hchoice, h⟩ := bind_eq_ok.mp h
    obtain ⟨-, h⟩ := ite_throw_eq_ok.mp h
    obtain ⟨choices, rfl, hchoices⟩ := ih h
    exact ⟨choice :: choices, by simp, .cons hchoice hchoices⟩

theorem eq_map_of_converted {α β : Type} {object : α → PyObject}
    {convert : PyObject → Except PyErr β} (embed : β → α)
    (hconvert : ∀ x y, convert (object x) = .ok y → x = embed y) {xs : List α} {ys : List β}
    (h : List.Forall₂ (fun x y => convert (object x) = .ok y) xs ys) : xs = ys.map embed := by
  induction h with
  | nil => rfl
  | cons hfirst _ ih => rw [List.map_cons, ← hconvert _ _ hfirst, ← ih]

/-- A choices slot holds the extracted choices, each as it was converted. -/
theorem choices_slot {α β : Type} [BEq β] {object : α → PyObject}
    {convert : PyObject → Except PyErr β} (embed : β → α)
    (hconvert : ∀ x y, convert (object x) = .ok y → x = embed y) {choices : Option (List α)}
    {allowed : Option (List β)}
    (h : Extracts (choicesSlot object choices) (extractChoices convert) allowed) :
    choices = allowed.map (·.map embed) := by
  obtain ⟨slot, hslot, h⟩ := h
  cases choices with
  | none =>
    cases hslot
    cases h
    rfl
  | some choices =>
    cases hslot
    obtain ⟨tuple, htuple, h⟩ := bind_eq_ok.mp h
    unfold extractChoiceTuple at htuple
    dsimp only at htuple
    obtain ⟨-, htuple⟩ := ite_error_eq_ok.mp htuple
    obtain ⟨-, htuple⟩ := ite_error_eq_ok.mp htuple
    cases htuple
    obtain ⟨result, hresult, rfl⟩ := map_eq_ok.mp h
    obtain ⟨converted, rfl, hconverted⟩ := convertChoices_ok hresult
    rw [List.forall₂_map_left_iff] at hconverted
    exact congrArg some (eq_map_of_converted embed hconvert hconverted)

theorem stringChoices_slot {choices : Option (List PyStr)} {minimum : Option Nat} {maximum : Nat}
    {allowed : Option (List String)}
    (h : Extracts (choicesSlot .str choices) (extractStringChoices · minimum maximum) allowed) :
    choices = allowed.map (·.map PyStr.text) := by
  refine choices_slot _ (fun x y hxy => ?_) h
  obtain ⟨text, htext, hxy⟩ := bind_eq_ok.mp hxy
  obtain ⟨-, hxy⟩ := ite_throw_eq_ok.mp hxy
  obtain ⟨-, hxy⟩ := ite_throw_eq_ok.mp hxy
  cases hxy
  cases x with
  | text value =>
    cases htext
    rfl
  | surrogates => cases htext

/-- Choices that are kept as they are. -/
theorem sameChoices_slot {α : Type} [BEq α] {object : α → PyObject}
    {convert : PyObject → Except PyErr α}
    (hconvert : ∀ x y, convert (object x) = .ok y → x = y) {choices allowed : Option (List α)}
    (h : Extracts (choicesSlot object choices) (extractChoices convert) allowed) :
    choices = allowed := by
  rw [choices_slot id hconvert h]
  simp

theorem int64Choices_slot {choices : Option (List Int)} {minimum maximum : Option Int}
    {allowed : Option (List Int)}
    (h : Extracts (choicesSlot .int choices) (extractInt64Choices · minimum maximum) allowed) :
    choices = allowed := by
  refine sameChoices_slot (fun x y hxy => ?_) h
  obtain ⟨number, hnumber, hxy⟩ := bind_eq_ok.mp hxy
  obtain ⟨-, hxy⟩ := ite_throw_eq_ok.mp hxy
  cases hxy
  unfold extractI64 at hnumber
  split at hnumber
  · cases hnumber
    rfl
  · cases hnumber

theorem float64Choices_slot {choices : Option (List Float64)} {minimum maximum : Option Float64}
    {allowed : Option (List Float64)}
    (h : Extracts (choicesSlot .float choices) (extractFloat64Choices · minimum maximum)
      allowed) : choices = allowed := by
  refine sameChoices_slot (fun x y hxy => ?_) h
  obtain ⟨number, hnumber, hxy⟩ := bind_eq_ok.mp hxy
  obtain ⟨-, hxy⟩ := ite_throw_eq_ok.mp hxy
  obtain ⟨-, hxy⟩ := ite_throw_eq_ok.mp hxy
  cases hxy
  cases hnumber
  rfl

theorem boolChoices_slot {choices allowed : Option (List Bool)}
    (h : Extracts (choicesSlot .bool choices) extractBoolChoices allowed) : choices = allowed := by
  refine sameChoices_slot (fun x y hxy => ?_) h
  cases hxy
  rfl

/-! ## Scalars -/

theorem unless_rejected {p : Prop} [Decidable p] {message : String} {rest : Except PyErr Unit} :
    (if p then rejected message else rest) = .ok () ↔ ¬ p ∧ rest = .ok () := by
  by_cases hp : p
  · simp [hp, rejected]
  · simp [hp]

/-- A value within the resource limits keeps Python's limit on strings. -/
theorem string_within {text : String} (h : StringFits text) :
    ¬ (text.length > pyStringMaxScalars ∨ text.utf8ByteSize > pyStringMaxBytes) := by
  rw [not_or, not_lt, not_lt]
  exact h

theorem str_agrees {minimum maximum : Option Nat}
    {allowed : Option (List String)} (hmaximum : ∀ size ∈ maximum, size ≤ resultStringMaxScalars)
    (hfit : SizesFit value) :
    pyValidateStr (minimum.map Nat.cast) (maximum.map Nat.cast) (allowed.map (·.map PyStr.text))
        (jsonToPy value) = .ok () ↔
      Conforms Carriable
        (.string description minimum (maximum.getD resultStringMaxScalars) allowed) value := by
  rw [Conforms]
  cases value with
  | string text =>
    have hbelow : (∀ size ∈ minimum.map (Nat.cast : Nat → Int), ¬ (text.length : Int) < size) ↔
        ∀ size ∈ minimum, size ≤ text.length := by
      cases minimum <;> simp
    have habove : (∀ size ∈ maximum.map (Nat.cast : Nat → Int), ¬ size < (text.length : Int)) ↔
        text.length ≤ maximum.getD resultStringMaxScalars := by
      cases maximum with
      | none => simpa using hfit.1
      | some size => simp
    have hchoices : (∀ choices ∈ allowed.map (·.map PyStr.text), PyStr.text text ∈ choices) ↔
        ∀ choices ∈ allowed, text ∈ choices := by
      cases allowed <;> simp
    simp only [jsonToPy, pyValidateStr, unless_rejected, string_within hfit, not_below, not_above,
      not_outside, List.contains_iff_mem, hbelow, habove, hchoices, not_false_eq_true, true_and,
      and_true, Json.string.injEq, exists_eq_left']
  | number number =>
    rw [jsonToPy]
    cases parseInt? number.text <;> simp [pyValidateStr, rejected]
  | null | bool | array | object => simp [jsonToPy, pyValidateStr, rejected]

/-- The `int` a number is, if the compiled validator takes it for an int64. -/
theorem jsonAsI64_eq_some {number : Int} :
    jsonAsI64 value = some number ↔
      jsonToPy value = .int number ∧ pyInt64Min ≤ number ∧ number ≤ pyInt64Max := by
  cases value with
  | number text =>
    rw [jsonToPy, jsonAsI64, JsonNumber.asI64, Option.filter_eq_some_iff, decide_eq_true_iff]
    cases parseInt? text.text with
    | none => simp
    | some found =>
      simp only [Option.some.injEq, PyObject.int.injEq, pyInt64Min, pyInt64Max]
      omega
  | null | bool | string | array | object => simp [jsonToPy, jsonAsI64]

theorem int64_agrees {minimum maximum : Option Int}
    {allowed : Option (List Int)} :
    pyValidateInt64 minimum maximum allowed (jsonToPy value) = .ok () ↔
      Conforms Carriable (.int64 description minimum maximum allowed) value := by
  simp only [Conforms, jsonAsI64_eq_some]
  cases jsonToPy value with
  | int number =>
    simp only [pyValidateInt64, unless_rejected, not_below, not_above, not_outside, not_lt,
      not_not, List.contains_iff_mem, PyObject.int.injEq, and_assoc, exists_eq_left', and_true]
  | none | bool | float | str | tuple | list | dict | ref => simp [pyValidateInt64, rejected]

/-- The float nearest to an `int` is the one its digits are read as, but for the sign of zero. -/
theorem pyFloatOfInt_same {text : List Char} {value : Int} (h : parseInt? text = some value) :
    Float64.SameValue (pyFloatOfInt value) (parseFloat text) := by
  obtain ⟨digits, hall, hne, ⟨rfl, rfl⟩ | ⟨rfl, rfl⟩⟩ := parseInt?_eq_some h
  · rw [parseFloat, parseUnsignedFloat_digits hall]
    by_cases hzero : digitsValue digits = 0
    · rw [hzero]
      exact Or.inr ⟨⟨.positive, rfl⟩, .negative, rfl⟩
    · have hneg : -(digitsValue digits : Int) < 0 := by omega
      rw [pyFloatOfInt, if_pos hneg, Int.natAbs_neg, Int.natAbs_natCast]
      exact Or.inl rfl
  · have hunsigned : parseFloat text = parseUnsignedFloat text := by
      cases text with
      | nil => exact absurd rfl hne
      | cons c rest =>
        have hc : c ≠ '-' := by
          rintro rfl
          exact absurd (List.all_eq_true.mp hall _ List.mem_cons_self) (by decide)
        unfold parseFloat
        split
        · next heq => exact absurd (List.cons.inj heq).1 hc
        · rfl
    have hnonneg : ¬ (digitsValue text : Int) < 0 := by omega
    rw [hunsigned, parseUnsignedFloat_digits hall, pyFloatOfInt, if_neg hnonneg,
      Int.natAbs_natCast]
    exact Or.inl rfl

/-- Both sides read a JSON number as the same float. -/
theorem pyFloat64_number (number : JsonNumber) :
    ∃ float, Float64.SameValue float (parseFloat number.text) ∧
      pyFloat64 (jsonToPy (.number number)) = (some float).filter Float.Model.isFinite := by
  rw [jsonToPy]
  cases hparse : parseInt? number.text with
  | some value => exact ⟨_, pyFloatOfInt_same hparse, rfl⟩
  | none => exact ⟨_, Or.inl rfl, rfl⟩

theorem float64_agrees {minimum maximum : Option Float64}
    {allowed : Option (List Float64)} (hmin : ∀ bound ∈ minimum, bound.isFinite = true)
    (hmax : ∀ bound ∈ maximum, bound.isFinite = true) :
    pyValidateFloat64 minimum maximum allowed (jsonToPy value) = .ok () ↔
      Conforms Carriable (.float64 description minimum maximum allowed) value := by
  rw [Conforms]
  cases value with
  | number number =>
    obtain ⟨float, hsame, hpy⟩ := pyFloat64_number number
    have hread : jsonAsF64 (.number number) =
        (some (parseFloat number.text)).filter Float.Model.isFinite := by
      rw [jsonAsF64, JsonNumber.asF64, Option.filter_filter]
      simp only [Bool.and_self]
    rw [pyValidateFloat64, hpy, hread]
    by_cases hfinite : (parseFloat number.text).isFinite = true
    · have hbelow : (∀ bound ∈ minimum, ¬ float < bound) ↔
          ∀ bound ∈ minimum, bound ≤ parseFloat number.text := by
        refine forall₂_congr fun bound hbound => ?_
        rw [hsame.lt_iff]
        exact Float64.not_lt_iff hfinite (hmin bound hbound)
      have habove : (∀ bound ∈ maximum, ¬ bound < float) ↔
          ∀ bound ∈ maximum, parseFloat number.text ≤ bound := by
        refine forall₂_congr fun bound hbound => ?_
        rw [hsame.gt_iff]
        exact Float64.not_lt_iff (hmax bound hbound) hfinite
      rw [Option.filter_some_pos (by rw [hsame.isFinite, hfinite]),
        Option.filter_some_pos hfinite]
      simp only [unless_rejected, not_below, not_above, not_outside, hbelow, habove,
        List.contains_iff_exists_mem_beq, hsame.beq, Option.some.injEq, exists_eq_left', and_true]
    · rw [Bool.not_eq_true] at hfinite
      rw [Option.filter_some_neg (by rw [hsame.isFinite, hfinite]),
        Option.filter_some_neg hfinite]
      simp [rejected]
  | null | bool | string | array | object =>
    simp [jsonToPy, pyValidateFloat64, pyFloat64, jsonAsF64, rejected]

theorem bool_agrees {allowed : Option (List Bool)} :
    pyValidateBool allowed (jsonToPy value) = .ok () ↔
      Conforms Carriable (.bool description allowed) value := by
  rw [Conforms]
  cases value with
  | bool flag =>
    simp only [jsonToPy, pyValidateBool, unless_rejected, not_outside, List.contains_iff_mem,
      Json.bool.injEq, exists_eq_left', and_true]
  | number number =>
    rw [jsonToPy]
    cases parseInt? number.text <;> simp [pyValidateBool, rejected]
  | null | string | array | object => simp [jsonToPy, pyValidateBool, rejected]

/-- **A scalar descriptor and the contract it was compiled to admit the same values.** -/
theorem scalar_agrees [FloatText] {objects : Descriptors} {identity : Nat}
    {contract : ValueContract} {lengths : Option (List Nat)}
    (h : scalarSnapshot (objects.heap identity) = some (.ok (contract, lengths)))
    (hfit : SizesFit value) (depth : Nat) :
    pyValidate objects (depth + 1) identity (jsonToPy value) = .ok () ↔
      Conforms Carriable contract value := by
  unfold Descriptors.heap at h
  rw [pyValidate]
  cases hobject : objects identity with
  | none =>
    rw [hobject] at h
    cases h
  | some descriptor =>
    rw [hobject] at h
    cases descriptor with
    | strValue description minLength maxLength choices =>
      obtain ⟨description, minimum, maximum, allowed, rfl, hmin, hmax, hchoices⟩ :=
        snapshotString_ok (Option.some.inj h)
      obtain ⟨rfl, -⟩ := optionalUsize_slot hmin
      obtain ⟨rfl, hmaximum⟩ := optionalUsize_slot hmax
      obtain rfl := stringChoices_slot hchoices
      exact str_agrees hmaximum hfit
    | int64Value description min max choices =>
      obtain ⟨description, minimum, maximum, allowed, rfl, hmin, hmax, hchoices⟩ :=
        snapshotInt64_ok (Option.some.inj h)
      obtain rfl := optionalI64_slot hmin
      obtain rfl := optionalI64_slot hmax
      obtain rfl := int64Choices_slot hchoices
      exact int64_agrees
    | float64Value description min max choices =>
      have hwf := scalarSnapshot_wellFormed h 0
      obtain ⟨description, minimum, maximum, allowed, rfl, hmin, hmax, hchoices⟩ :=
        snapshotFloat64_ok (Option.some.inj h)
      obtain rfl := optionalF64_slot hmin
      obtain rfl := optionalF64_slot hmax
      obtain rfl := float64Choices_slot hchoices
      exact float64_agrees hwf.1 hwf.2
    | boolValue description choices =>
      obtain ⟨description, allowed, rfl, hchoices⟩ := snapshotBool_ok (Option.some.inj h)
      obtain rfl := boolChoices_slot hchoices
      exact bool_agrees
    | listValue | objectValue | nullableValue | field => cases h

end Troupe.Agent
