import Troupe.Lib.Json
import Troupe.Lib.Text

/-! # The size of JSON text

The bytes of a value's compact text, part by part: an array has the sizes of its items, an object
those of its fields, with the brackets and the commas between them. The order of the fields does not
matter (`size_object_perm`). -/

namespace Troupe.Lib

theorem length_utf8 (text : String) : (utf8 text).length = utf8Size text.toList := by
  rw [← utf8ByteSize_eq]
  rfl

/-- A signed integer, as its decimal digits. -/
def JsonNumber.ofInt : Int → JsonNumber
  | .ofNat value => .ofNat value
  | .negSucc value => ⟨'-' :: Nat.toDigits 10 (value + 1), isUnsignedText_toDigits (value + 1)⟩

namespace Json

/-- The bytes of the compact text. -/
def size (value : Json) : Nat := utf8Size value.render

theorem length_toVec (value : Json) : value.toVec.length = value.size := by
  rw [toVec, length_utf8, toString, String.toList_ofList, size]

/-- The bytes of a field: its key, the colon and its value. -/
def fieldSize (field : String × Json) : Nat := utf8Size (quote field.1) + 1 + field.2.size

theorem utf8Size_renderItems (items : List Json) :
    utf8Size (renderItems (.ofList items)) = (items.map size).sum + items.length + 1 := by
  induction items with
  | nil => rfl
  | cons item items ih =>
    rw [JsonItems.ofList, renderItems, utf8Size_cons, utf8Size_append, ih, List.map_cons,
      List.sum_cons, List.length_cons, size]
    have hcomma : ','.utf8Size = 1 := rfl
    omega

theorem utf8Size_renderRest (fields : List (String × Json)) :
    utf8Size (renderRest (.ofList fields)) = (fields.map fieldSize).sum + fields.length + 1 := by
  induction fields with
  | nil => rfl
  | cons field fields ih =>
    obtain ⟨key, value⟩ := field
    rw [JsonFields.ofList, renderRest, utf8Size_cons, utf8Size_append, utf8Size_cons,
      utf8Size_append, ih, List.map_cons, List.sum_cons, List.length_cons]
    dsimp only [fieldSize, size]
    have hcomma : ','.utf8Size = 1 := rfl
    have hcolon : ':'.utf8Size = 1 := rfl
    omega

theorem size_array (items : List Json) :
    size (.array (.ofList items)) = 2 + (items.map size).sum + (items.length - 1) := by
  rcases items with _ | ⟨item, items⟩
  · rfl
  · rw [JsonItems.ofList, size, render, utf8Size_cons, utf8Size_append, utf8Size_renderItems,
      List.map_cons, List.sum_cons, List.length_cons, size]
    have hbracket : '['.utf8Size = 1 := rfl
    omega

theorem size_object (fields : List (String × Json)) :
    size (.object (.ofList fields)) = 2 + (fields.map fieldSize).sum + (fields.length - 1) := by
  rcases fields with _ | ⟨⟨key, value⟩, fields⟩
  · rfl
  · rw [JsonFields.ofList, size, render, utf8Size_cons, utf8Size_append, utf8Size_cons,
      utf8Size_append, utf8Size_renderRest, List.map_cons, List.sum_cons, List.length_cons]
    dsimp only [fieldSize, size]
    have hbrace : '{'.utf8Size = 1 := rfl
    have hcolon : ':'.utf8Size = 1 := rfl
    omega

theorem size_object_perm {fields fields' : List (String × Json)} (h : fields.Perm fields') :
    size (.object (.ofList fields)) = size (.object (.ofList fields')) := by
  rw [size_object, size_object, (h.map fieldSize).sum_eq, h.length_eq]

theorem escapeChar_size (c : Char) : c.utf8Size ≤ utf8Size (escapeChar c) := by
  unfold escapeChar
  split_ifs with h₁ h₂ h₃ h₄ h₅ h₆ h₇
  · rw [h₁]
    decide
  · rw [h₂]
    decide
  · rw [h₃]
    decide
  · rw [h₄]
    decide
  · rw [h₅]
    decide
  · rw [h₆]
    decide
  · rw [h₇]
    decide
  · have hlength := length_le_utf8Size
      ['\\', 'u', '0', '0', hexDigit (c.toNat / 16), hexDigit (c.toNat % 16)]
    have hfour := Char.utf8Size_le_four c
    simp only [List.length_cons, List.length_nil] at hlength
    omega
  · exact Nat.le_refl _

/-- The text of a string has its characters and the quotes. -/
theorem size_string (text : String) : utf8Size text.toList + 2 ≤ size (.string text) := by
  have hescape : ∀ chars : List Char, utf8Size chars ≤ utf8Size (escape chars) := by
    intro chars
    induction chars with
    | nil => exact Nat.le_refl 0
    | cons c chars ih =>
      have hc := escapeChar_size c
      rw [escape, List.flatMap_cons, utf8Size_append, utf8Size_cons]
      exact Nat.add_le_add hc ih
  have hchars := hescape text.toList
  have hquote : '"'.utf8Size = 1 := rfl
  rw [size, render, quote, utf8Size_cons, utf8Size_append, utf8Size_cons, utf8Size_nil]
  omega

end Json

end Troupe.Lib
