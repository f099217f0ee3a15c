import Mathlib.Data.List.Induction
import Troupe.Agent.Schema.Contract
import Troupe.Lib.Search
import Troupe.Lib.Text

/-! # Bounding validation issues

`bound_validation_issues` of `result/mod.rs`: the issues a failed tool call reports are cut so that the
JSON response stays within its limit. Whole issues are dropped from the end, and the message of the last
one left is cut at a character boundary.

* A message is cut at a byte offset (`original[..boundaries[middle]]`); an offset inside a character
  would panic, which is `none` here.
* `serde_json` writes the fields of a `json!` object in the order they are given, or of their keys
  without its feature `preserve_order`; only lengths are used, which are the same.
* An `invalid_calls` is a `u8`.

Result: **`bound_validation_issues`**. -/

namespace Troupe.Agent

open Troupe.Lib

/-- `MAX_REPAIRABLE_INVALID_CALLS`. -/
def maxRepairableInvalidCalls : Nat := 8

/-- `VALIDATION_DETAIL_MAX_ISSUES`. -/
def validationDetailMaxIssues : Nat := 16

/-- `VALIDATION_DETAIL_MAX_BYTES`. -/
def validationDetailMaxBytes : Nat := 32 * 1024

/-! ## The response -/

/-- The `format!` of `validation_tool_text`. -/
def validationToolHead (invalidCalls : Nat) : String :=
  "result validation failed (invalid call " ++ toString invalidCalls ++ "/" ++
    toString maxRepairableInvalidCalls ++ "):"

/-- `validation_tool_text`. -/
def validationToolText (issues : List ValidationIssue) (truncated : Bool) (invalidCalls : Fin 256) :
    String :=
  let text := issues.foldl
    (fun text issue =>
      text ++ "\n" ++ (if issue.path.isEmpty then "/" else issue.path) ++ ": " ++ issue.message)
    (validationToolHead invalidCalls)
  if truncated then text ++ "\nadditional validation issues were truncated" else text

/-- `tool_result_value`. -/
def toolResultValue (id : Json) (isError : Bool) (text : String) : Json :=
  .object (.ofList [
    ("id", id),
    ("jsonrpc", .string "2.0"),
    ("result", .object (.ofList [
      ("content", .array (.ofList [
        .object (.ofList [("text", .string text), ("type", .string "text")])])),
      ("isError", .bool isError)]))])

/-- `encoded_validation_response_size`. -/
def encodedValidationResponseSize (id : Json) (issues : List ValidationIssue) (truncated : Bool)
    (invalidCalls : Fin 256) : Nat :=
  (toolResultValue id true (validationToolText issues truncated invalidCalls)).toVec.length

/-- `encoded_generated_validation_response_size`: the response without its id. -/
def encodedGeneratedValidationResponseSize (issues : List ValidationIssue) (truncated : Bool)
    (invalidCalls : Fin 256) : Nat :=
  encodedValidationResponseSize .null issues truncated invalidCalls - Json.null.toVec.length

/-! ## Cutting a message -/

/-- `char_indices`, of the characters from `offset` on. -/
def charIndices (offset : Nat) : List Char → List Nat
  | [] => []
  | c :: rest => offset :: charIndices (offset + c.utf8Size) rest

/-- `boundaries`: the offsets at which a message can be cut. -/
def boundaries (message : String) : List Nat :=
  let indices := charIndices 0 message.toList
  if indices.getLast? ≠ some message.utf8ByteSize then indices ++ [message.utf8ByteSize] else indices

/-- `text[..offset]`, on characters. -/
def sliceTo : List Char → Nat → Option (List Char)
  | _, 0 => some []
  | [], _ + 1 => none
  | c :: rest, offset + 1 =>
    if c.utf8Size ≤ offset + 1 then (sliceTo rest (offset + 1 - c.utf8Size)).map (c :: ·) else none

/-- The issue with its message cut at the boundary number `index`. -/
def cutAt (issue : ValidationIssue) (index : Nat) : Option ValidationIssue :=
  ((boundaries issue.message)[index]?.bind (sliceTo issue.message.toList)).map fun message =>
    { issue with message := String.ofList message }

/-! ## Bounding -/

/-- The test of the binary search: whether the issues fit when the message of `last` ends at the
boundary `middle`. -/
def fitsAt (kept : List ValidationIssue) (last : ValidationIssue) (invalidCalls : Fin 256)
    (middle : Nat) : Option Bool :=
  (cutAt last middle).map fun cut =>
    encodedGeneratedValidationResponseSize (kept ++ [cut]) true invalidCalls ≤
      validationDetailMaxBytes

/-- The `loop` of `bound_validation_issues`, in which `truncated` is set. -/
def boundLoop (issues : List ValidationIssue) (invalidCalls : Fin 256) :
    Option (List ValidationIssue × Bool) :=
  if encodedGeneratedValidationResponseSize issues true invalidCalls ≤ validationDetailMaxBytes then
    some (issues, true)
  else
    match h : issues.getLast? with
    | none => some (issues, true)
    | some last =>
      let kept := issues.dropLast
      if validationDetailMaxBytes <
          encodedGeneratedValidationResponseSize (kept ++ [{ last with message := "" }]) true
            invalidCalls then
        boundLoop kept invalidCalls
      else
        (lastIndex (fitsAt kept last invalidCalls) 0 (boundaries last.message).length 0).bind
          fun best => (cutAt last best).map fun cut => (kept ++ [cut], true)
termination_by issues.length
decreasing_by
  have hne : issues ≠ [] := by
    rintro rfl
    cases h
  rw [List.length_dropLast]
  exact Nat.sub_lt (List.length_pos_iff.mpr hne) Nat.one_pos

/-- `bound_validation_issues`. -/
def boundValidationIssues (issues : List ValidationIssue) (truncated : Bool)
    (invalidCalls : Fin 256) : Option (List ValidationIssue × Bool) :=
  let (issues, truncated) :=
    if validationDetailMaxIssues < issues.length then (issues.take validationDetailMaxIssues, true)
    else (issues, truncated)
  if encodedGeneratedValidationResponseSize issues truncated invalidCalls ≤
      validationDetailMaxBytes then
    some (issues, truncated)
  else
    boundLoop issues invalidCalls

/-! ## Sizes -/

section Sizes

variable {issues : List ValidationIssue} {truncated : Bool} {invalidCalls : Fin 256}

/-- The bytes a text takes inside a JSON string. -/
def escapedSize (text : String) : Nat := utf8Size (Json.escape text.toList)

@[simp] theorem escapedSize_append (a b : String) :
    escapedSize (a ++ b) = escapedSize a + escapedSize b := by
  unfold escapedSize Json.escape
  rw [String.toList_append, List.flatMap_append, utf8Size_append]

theorem length_toVec (value : Json) : value.toVec.length = utf8Size value.render := by
  rw [← utf8ByteSize_ofList]
  rfl

/-- A response, with its id and its text in their places. -/
theorem render_toolResultValue (id : Json) (text : String) :
    (toolResultValue id true text).render = "\x7b\"id\":".toList ++ (id.render ++
      (",\"jsonrpc\":\"2.0\",\"result\":\x7b\"content\":[\x7b\"text\":\"".toList ++
        (Json.escape text.toList ++ "\",\"type\":\"text\"\x7d],\"isError\":true\x7d\x7d".toList))) := by
  have hkey : Json.quote "id" = "\"id\"".toList := by rfl
  have hrpc : Json.quote "jsonrpc" = "\"jsonrpc\"".toList := by rfl
  have hversion : Json.quote "2.0" = "\"2.0\"".toList := by rfl
  have hresult : Json.quote "result" = "\"result\"".toList := by rfl
  have hcontent : Json.quote "content" = "\"content\"".toList := by rfl
  have htext : Json.quote "text" = "\"text\"".toList := by rfl
  have htype : Json.quote "type" = "\"type\"".toList := by rfl
  have herror : Json.quote "isError" = "\"isError\"".toList := by rfl
  simp [toolResultValue, Json.render, Json.renderRest, Json.renderItems, JsonFields.ofList,
    JsonItems.ofList, hkey, hrpc, hversion, hresult, hcontent, htext, htype, herror]
  simp [Json.quote]

/-- The bytes of a response around its id and its text. -/
def responseOverhead : Nat := 87

theorem length_toolResultValue (id : Json) (text : String) :
    (toolResultValue id true text).toVec.length =
      responseOverhead + id.toVec.length + escapedSize text := by
  have hbefore : utf8Size "\x7b\"id\":".toList = 6 := by rfl
  have hbetween :
      utf8Size ",\"jsonrpc\":\"2.0\",\"result\":\x7b\"content\":[\x7b\"text\":\"".toList = 47 := by
    rfl
  have hafter : utf8Size "\",\"type\":\"text\"\x7d],\"isError\":true\x7d\x7d".toList = 34 := by
    rfl
  rw [length_toVec, length_toVec, render_toolResultValue]
  simp only [utf8Size_append, hbefore, hbetween, hafter, responseOverhead, escapedSize]
  omega

/-- The bytes of the line of an issue. -/
def lineSize (issue : ValidationIssue) : Nat :=
  escapedSize "\n" + escapedSize (if issue.path.isEmpty then "/" else issue.path) +
    escapedSize ": " + escapedSize issue.message

/-- The bytes of the notice that issues were cut. -/
def noticeSize (truncated : Bool) : Nat :=
  if truncated then escapedSize "\nadditional validation issues were truncated" else 0

theorem escapedSize_text : escapedSize (validationToolText issues truncated invalidCalls) =
    escapedSize (validationToolHead invalidCalls) + (issues.map lineSize).sum + noticeSize truncated := by
  have hlines (start : String) : escapedSize (issues.foldl (fun text issue =>
      text ++ "\n" ++ (if issue.path.isEmpty then "/" else issue.path) ++ ": " ++ issue.message)
      start) = escapedSize start + (issues.map lineSize).sum := by
    induction issues generalizing start with
    | nil => simp
    | cons issue rest ih =>
      rw [List.foldl_cons, ih]
      simp only [escapedSize_append, List.map_cons, List.sum_cons, lineSize]
      omega
  unfold validationToolText noticeSize
  cases truncated with
  | false => simp only [Bool.false_eq_true, if_false, hlines, Nat.add_zero]
  | true => simp only [if_true, escapedSize_append, hlines]

/-- **The id is as long as it is; the rest is the generated size.** -/
theorem encodedValidationResponseSize_eq (id : Json) :
    encodedValidationResponseSize id issues truncated invalidCalls =
      encodedGeneratedValidationResponseSize issues truncated invalidCalls + id.toVec.length := by
  unfold encodedGeneratedValidationResponseSize encodedValidationResponseSize
  rw [length_toolResultValue, length_toolResultValue]
  omega

theorem generatedSize_eq : encodedGeneratedValidationResponseSize issues truncated invalidCalls =
    responseOverhead + escapedSize (validationToolHead invalidCalls) + (issues.map lineSize).sum + noticeSize truncated := by
  unfold encodedGeneratedValidationResponseSize encodedValidationResponseSize
  rw [length_toolResultValue, escapedSize_text]
  omega

theorem escape_digits {text : List Char} (h : ∀ c ∈ text, c.isDigit = true) :
    Json.escape text = text := by
  have hdigit (c : Char) (hc : c ∈ text) : Json.escapeChar c = [c] := by
    have hne (d : Char) (hd : d.isDigit = false) : c ≠ d := by
      rintro rfl
      rw [h c hc] at hd
      cases hd
    have hlow : 48 ≤ c.toNat := by
      have hrange := h c hc
      simp only [Char.isDigit, Bool.and_eq_true, decide_eq_true_eq] at hrange
      exact hrange.1
    unfold Json.escapeChar
    rw [if_neg (hne _ rfl), if_neg (hne _ rfl), if_neg (hne _ rfl), if_neg (hne _ rfl),
      if_neg (hne _ rfl), if_neg (hne _ rfl), if_neg (hne _ rfl), if_neg (by omega)]
  unfold Json.escape
  rw [List.flatMap_congr hdigit, List.flatMap_singleton']

theorem escapedSize_count (invalidCalls : Fin 256) :
    escapedSize (toString invalidCalls.val) ≤ 3 := by
  have hdigits : ∀ c ∈ Nat.toDigits 10 invalidCalls.val, c.isDigit = true := fun c hc =>
    Nat.isDigit_of_mem_toDigits (by decide) (by decide) hc
  have hascii : ∀ c ∈ Nat.toDigits 10 invalidCalls.val, c.val < 128 := by
    intro c hc
    have hrange := hdigits c hc
    simp only [Char.isDigit, Bool.and_eq_true, decide_eq_true_eq] at hrange
    exact UInt32.lt_of_le_of_lt hrange.2 (by decide)
  have hlength : (Nat.toDigits 10 invalidCalls.val).length ≤ 3 :=
    (Nat.length_toDigits_le_iff (by decide) (by decide)).mpr (by omega)
  unfold escapedSize
  rw [Nat.toString_eq_ofList_toDigits, String.toList_ofList, escape_digits hdigits,
    utf8Size_ascii hascii]
  exact hlength

theorem escapedSize_head (invalidCalls : Fin 256) :
    escapedSize (validationToolHead invalidCalls) ≤ 46 := by
  have hbefore : escapedSize "result validation failed (invalid call " = 39 := by rfl
  have hbetween : escapedSize "/" = 1 := by rfl
  have hlimit : escapedSize (toString maxRepairableInvalidCalls) = 1 := by rfl
  have hafter : escapedSize "):" = 2 := by rfl
  have hcount := escapedSize_count invalidCalls
  unfold validationToolHead
  simp only [escapedSize_append, hbefore, hbetween, hlimit, hafter]
  omega

theorem noticeSize_le (truncated : Bool) : noticeSize truncated ≤ 64 := by
  cases truncated
  · decide
  · exact of_decide_eq_true rfl

/-- Without issues there is room to spare. -/
theorem generatedSize_nil (truncated : Bool) (invalidCalls : Fin 256) :
    encodedGeneratedValidationResponseSize [] truncated invalidCalls ≤ validationDetailMaxBytes := by
  have hhead := escapedSize_head invalidCalls
  have hnotice := noticeSize_le truncated
  rw [generatedSize_eq]
  simp only [responseOverhead, validationDetailMaxBytes, List.map_nil, List.sum_nil]
  omega

theorem generatedSize_notice : encodedGeneratedValidationResponseSize issues false invalidCalls ≤
    encodedGeneratedValidationResponseSize issues true invalidCalls := by
  rw [generatedSize_eq, generatedSize_eq]
  exact Nat.add_le_add_left (Nat.zero_le _) _

end Sizes

/-! ## Cuts -/

section Cuts

theorem charIndices_length (offset : Nat) (text : List Char) :
    (charIndices offset text).length = text.length := by
  induction text generalizing offset with
  | nil => rfl
  | cons c rest ih => rw [charIndices, List.length_cons, List.length_cons, ih]

theorem charIndices_get (offset index : Nat) (text : List Char) (h : index < text.length) :
    (charIndices offset text)[index]? = some (offset + utf8Size (text.take index)) := by
  induction text generalizing offset index with
  | nil => cases h
  | cons c rest ih =>
    cases index with
    | zero => simp [charIndices]
    | succ index =>
      rw [charIndices, List.getElem?_cons_succ, ih _ _ (Nat.lt_of_succ_lt_succ h), List.take_succ_cons,
        utf8Size_cons, Nat.add_assoc]

/-- The last character begins before the end. -/
theorem getLast?_charIndices (text : List Char) :
    (charIndices 0 text).getLast? ≠ some (utf8Size text) := by
  intro hlast
  rcases text.eq_nil_or_concat with rfl | ⟨before, c, rfl⟩
  · cases hlast
  · rw [List.concat_eq_append] at hlast
    rw [List.getLast?_eq_getElem?, charIndices_length, charIndices_get _ _ _ (by simp)] at hlast
    have hpos := Char.utf8Size_pos c
    simp at hlast
    omega

/-- A message can be cut before each of its characters, and at its end. -/
theorem boundaries_eq (message : String) :
    boundaries message = charIndices 0 message.toList ++ [utf8Size message.toList] := by
  unfold boundaries
  rw [utf8ByteSize_eq]
  exact if_pos (getLast?_charIndices message.toList)

theorem length_boundaries (message : String) :
    (boundaries message).length = message.toList.length + 1 := by
  rw [boundaries_eq, List.length_append, charIndices_length, List.length_singleton]

theorem sliceTo_take (index : Nat) (text : List Char) :
    sliceTo text (utf8Size (text.take index)) = some (text.take index) := by
  induction text generalizing index with
  | nil => simp [sliceTo]
  | cons c rest ih =>
    cases index with
    | zero => simp [sliceTo]
    | succ index =>
      have hpos := Char.utf8Size_pos c
      rw [List.take_succ_cons, utf8Size_cons]
      obtain ⟨size, hsize⟩ := Nat.exists_eq_add_of_lt hpos
      rw [show c.utf8Size + utf8Size (rest.take index) = (size + utf8Size (rest.take index)) + 1 by
        omega, sliceTo, if_pos (by omega),
        show size + utf8Size (rest.take index) + 1 - c.utf8Size = utf8Size (rest.take index) by omega,
        ih]
      rfl

/-- The issue with the first `index` characters of its message. -/
def ValidationIssue.shorten (issue : ValidationIssue) (index : Nat) : ValidationIssue :=
  { issue with message := String.ofList (issue.message.toList.take index) }

/-- Every cut is at a character, so none panics. -/
theorem cutAt_eq (issue : ValidationIssue) {index : Nat}
    (h : index < (boundaries issue.message).length) : cutAt issue index = some (issue.shorten index) := by
  have hoffset : (boundaries issue.message)[index]? =
      some (utf8Size (issue.message.toList.take index)) := by
    rw [length_boundaries] at h
    rw [boundaries_eq]
    rcases Nat.lt_or_eq_of_le (Nat.le_of_lt_succ h) with hlt | rfl
    · rw [List.getElem?_append_left (by rwa [charIndices_length]), charIndices_get _ _ _ hlt,
        Nat.zero_add]
    · rw [List.getElem?_append_right (by rw [charIndices_length]), charIndices_length, Nat.sub_self,
        List.take_length]
      rfl
  unfold cutAt
  rw [hoffset, Option.bind_some, sliceTo_take]
  rfl

theorem lineSize_shorten_mono (issue : ValidationIssue) {i j : Nat} (h : i ≤ j) :
    lineSize (issue.shorten i) ≤ lineSize (issue.shorten j) := by
  obtain ⟨rest, hrest⟩ := List.take_prefix_take_left (l := issue.message.toList) h
  unfold lineSize ValidationIssue.shorten escapedSize Json.escape
  simp only [String.toList_ofList, ← hrest, List.flatMap_append, utf8Size_append]
  omega

end Cuts

/-! ## The cut -/

/-- `kept` is a prefix of `issues`, in which the last message may be cut. As long as there is room
for one, the issue after it does not fit even without its message. -/
inductive Cut (fits : List ValidationIssue → Prop) (issues : List ValidationIssue) :
    List ValidationIssue → Prop
  | whole (kept rest : List ValidationIssue) (split : issues = kept ++ rest)
      (full : kept.length < validationDetailMaxIssues → ∀ next ∈ rest.head?,
        ¬fits (kept ++ [next.shorten 0])) : Cut fits issues kept
  | shortened (before rest : List ValidationIssue) (last : ValidationIssue) (index : Nat)
      (split : issues = before ++ last :: rest) (shorter : index < last.message.toList.length)
      (longest : ∀ longer, index < longer → longer ≤ last.message.toList.length →
        ¬fits (before ++ [last.shorten longer])) :
      Cut fits issues (before ++ [last.shorten index])

/-- A cut of the first issues is one of them all. -/
theorem Cut.append {fits : List ValidationIssue → Prop} {issues kept : List ValidationIssue}
    (h : Cut fits issues kept) (more : List ValidationIssue)
    (hfull : kept = issues → kept.length < validationDetailMaxIssues → ∀ next ∈ more.head?,
      ¬fits (kept ++ [next.shorten 0])) : Cut fits (issues ++ more) kept := by
  cases h with
  | whole _ rest split full =>
    refine .whole kept (rest ++ more) (by rw [split, List.append_assoc]) ?_
    cases rest with
    | nil => exact hfull (by rw [split, List.append_nil])
    | cons next rest => exact full
  | shortened before rest last index split shorter longest =>
    exact .shortened before (rest ++ more) last index (by rw [split]; simp) shorter longest

/-- The generated response fits, with its notice. -/
def FitsTruncated (invalidCalls : Fin 256) (issues : List ValidationIssue) : Prop :=
  encodedGeneratedValidationResponseSize issues true invalidCalls ≤ validationDetailMaxBytes

section Bound

variable {invalidCalls : Fin 256}

theorem boundLoop_of_fits {issues : List ValidationIssue} (h : FitsTruncated invalidCalls issues) :
    boundLoop issues invalidCalls = some (issues, true) := by
  unfold boundLoop
  exact if_pos h

theorem boundLoop_concat {before : List ValidationIssue} {last : ValidationIssue}
    (h : ¬FitsTruncated invalidCalls (before ++ [last])) :
    boundLoop (before ++ [last]) invalidCalls =
      if validationDetailMaxBytes <
          encodedGeneratedValidationResponseSize (before ++ [{ last with message := "" }]) true
            invalidCalls then
        boundLoop before invalidCalls
      else
        (lastIndex (fitsAt before last invalidCalls) 0 (boundaries last.message).length 0).bind
          fun best => (cutAt last best).map fun cut => (before ++ [cut], true) := by
  unfold FitsTruncated at h
  rw [boundLoop.eq_def, if_neg h]
  split
  · rename_i hnone
    simp at hnone
  · rename_i found hfound
    rw [List.getLast?_concat] at hfound
    cases hfound
    simp only [List.dropLast_concat]

theorem fits_shorten_mono {before : List ValidationIssue} {last : ValidationIssue} {i j : Nat}
    (hle : i ≤ j) (h : FitsTruncated invalidCalls (before ++ [last.shorten j])) :
    FitsTruncated invalidCalls (before ++ [last.shorten i]) := by
  have hline := lineSize_shorten_mono last hle
  unfold FitsTruncated at h ⊢
  rw [generatedSize_eq] at h ⊢
  simp only [List.map_append, List.sum_append, List.map_singleton, List.sum_singleton] at h ⊢
  omega

instance (issues : List ValidationIssue) : Decidable (FitsTruncated invalidCalls issues) :=
  inferInstanceAs (Decidable (_ ≤ _))

/-- **The loop keeps what it can.** By induction from the last issue, which is dropped, cut or kept. -/
theorem boundLoop_spec (invalidCalls : Fin 256) (issues : List ValidationIssue) :
    ∃ kept, boundLoop issues invalidCalls = some (kept, true) ∧ FitsTruncated invalidCalls kept ∧
      Cut (FitsTruncated invalidCalls) issues kept := by
  induction issues using List.reverseRecOn with
  | nil =>
    have hfits : FitsTruncated invalidCalls [] := generatedSize_nil true invalidCalls
    exact ⟨[], boundLoop_of_fits hfits, hfits, .whole [] [] rfl (by simp)⟩
  | append_singleton before last ih =>
    by_cases hfits : FitsTruncated invalidCalls (before ++ [last])
    · exact ⟨_, boundLoop_of_fits hfits, hfits, .whole _ [] (List.append_nil _).symm (by simp)⟩
    · rw [boundLoop_concat hfits]
      split
      · rename_i hempty
        obtain ⟨kept, hloop, hkept, hcut⟩ := ih
        refine ⟨kept, hloop, hkept, hcut.append [last] ?_⟩
        rintro rfl - next ⟨⟩
        exact Nat.not_le_of_lt hempty
      · rename_i hempty
        have hzero : FitsTruncated invalidCalls (before ++ [last.shorten 0]) := by
          unfold ValidationIssue.shorten
          exact Nat.le_of_not_lt hempty
        have hlength := length_boundaries last.message
        have htest : ∀ index < (boundaries last.message).length,
            fitsAt before last invalidCalls index =
              some (decide (FitsTruncated invalidCalls (before ++ [last.shorten index]))) :=
          fun index hindex => by
            unfold fitsAt
            rw [cutAt_eq last hindex, Option.map_some]
            rfl
        obtain ⟨best, hsearch, hbest, hlongest⟩ := lastIndex_spec htest
          (fun i j hle h => fits_shorten_mono hle h) (Nat.le_refl _) (Nat.zero_le _) hzero
          (Nat.zero_le _) (fun i hge hlt => absurd hlt (Nat.not_lt_of_le hge))
        -- The whole message does not fit, so the cut is before its end.
        have hshorter : best < last.message.toList.length := by
          by_contra hwhole
          unfold ValidationIssue.shorten at hbest
          rw [List.take_of_length_le (Nat.le_of_not_lt hwhole), String.ofList_toList] at hbest
          exact hfits hbest
        rw [hsearch, Option.bind_some, cutAt_eq last (by omega)]
        refine ⟨_, rfl, hbest, .shortened before [] last best rfl hshorter ?_⟩
        intro longer hlonger hle hfit
        exact Nat.not_lt_of_le (hlongest longer (by omega) hfit) hlonger

theorem Cut.length_le {fits : List ValidationIssue → Prop} {issues kept : List ValidationIssue}
    (h : Cut fits issues kept) : kept.length ≤ issues.length := by
  cases h with
  | whole _ rest split _ =>
    rw [split, List.length_append]
    exact Nat.le_add_right _ _
  | shortened before rest last index split shorter longest =>
    rw [split, List.length_append, List.length_append, List.length_singleton, List.length_cons]
    omega

/-- **Bounded issues.** There are at most 16, and their response fits; they are a prefix of the issues
found, as long as fits, in which only the last message may be cut, to the longest text that fits; the
flag says whether anything is missing; and issues that fit are returned as they are. -/
theorem bound_validation_issues (issues : List ValidationIssue) (truncated : Bool)
    (invalidCalls : Fin 256) : ∃ kept flag,
      boundValidationIssues issues truncated invalidCalls = some (kept, flag) ∧
      kept.length ≤ 16 ∧
      (∀ id, encodedValidationResponseSize id kept flag invalidCalls ≤
        32 * 1024 + id.toVec.length) ∧
      Cut (FitsTruncated invalidCalls) issues kept ∧
      (flag = true ↔ truncated = true ∨ kept ≠ issues) ∧
      (issues.length ≤ 16 →
        encodedGeneratedValidationResponseSize issues truncated invalidCalls ≤ 32 * 1024 →
        kept = issues ∧ flag = truncated) := by
  have hresponse {kept : List ValidationIssue} {flag : Bool}
      (h : encodedGeneratedValidationResponseSize kept flag invalidCalls ≤ validationDetailMaxBytes)
      (id : Json) :
      encodedValidationResponseSize id kept flag invalidCalls ≤ 32 * 1024 + id.toVec.length := by
    rw [encodedValidationResponseSize_eq]
    exact Nat.add_le_add_right h _
  unfold boundValidationIssues
  by_cases hmany : validationDetailMaxIssues < issues.length
  · -- Too many issues: the rest are dropped, and the flag is set before anything is measured.
    have htake : issues = issues.take validationDetailMaxIssues ++
        issues.drop validationDetailMaxIssues := (List.take_append_drop _ _).symm
    have hlength : (issues.take validationDetailMaxIssues).length = 16 :=
      List.length_take_of_le (Nat.le_of_lt hmany)
    have hfew : ¬issues.length ≤ 16 := Nat.not_le_of_lt hmany
    obtain ⟨kept, hloop, hfits, hcut⟩ :=
      boundLoop_spec invalidCalls (issues.take validationDetailMaxIssues)
    have hle : kept.length ≤ 16 := hlength ▸ hcut.length_le
    have hcut' := hcut.append (issues.drop validationDetailMaxIssues) fun heq hroom =>
      absurd hroom (by rw [heq, hlength]; decide)
    rw [← htake] at hcut'
    have hne : kept ≠ issues := by
      rintro rfl
      exact hfew hle
    refine ⟨kept, true, ?_, hle, hresponse hfits, hcut', by simp [hne], fun h => absurd h hfew⟩
    rw [if_pos hmany]
    dsimp only
    split
    · rename_i hall
      rw [boundLoop_of_fits hall] at hloop
      exact hloop
    · exact hloop
  · have hfew : issues.length ≤ 16 := Nat.le_of_not_lt hmany
    rw [if_neg hmany]
    dsimp only
    by_cases hfits : encodedGeneratedValidationResponseSize issues truncated invalidCalls ≤
        validationDetailMaxBytes
    · rw [if_pos hfits]
      exact ⟨issues, truncated, rfl, hfew, hresponse hfits,
        .whole issues [] (List.append_nil issues).symm (by simp), by simp, fun _ _ => ⟨rfl, rfl⟩⟩
    · rw [if_neg hfits]
      obtain ⟨kept, hloop, hkept, hcut⟩ := boundLoop_spec invalidCalls issues
      refine ⟨kept, true, hloop, Nat.le_trans hcut.length_le hfew, hresponse hkept, hcut, ?_,
        fun _ h => absurd h hfits⟩
      cases truncated with
      | true => simp
      | false =>
        have hne : kept ≠ issues := by
          rintro rfl
          exact hfits (Nat.le_trans generatedSize_notice hkept)
        simp [hne]

end Bound

end Troupe.Agent
