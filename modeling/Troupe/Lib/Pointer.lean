import Troupe.Lib.Codec
import Troupe.Lib.Number

/-! # JSON pointers

A pointer is a list of reference tokens, written with a slash before each token and with the tilde
and the slash inside a token escaped (RFC 6901). `resolve` follows the text of a pointer through a
value; `resolve_text` says that it goes where the tokens go. -/

namespace Troupe.Lib

namespace Pointer

/-! ## Tokens and their text -/

/-- A token as it is written. -/
def escape (token : List Char) : List Char :=
  token.flatMap fun c => if c = '~' then ['~', '0'] else if c = '/' then ['~', '1'] else [c]

/-- The token that is written so. -/
def unescape : List Char → List Char
  | '~' :: '1' :: rest => '/' :: unescape rest
  | '~' :: '0' :: rest => '~' :: unescape rest
  | c :: rest => c :: unescape rest
  | [] => []

theorem unescape_escape (token : List Char) : unescape (escape token) = token := by
  induction token with
  | nil => rfl
  | cons c token ih =>
    unfold escape at ih ⊢
    rw [List.flatMap_cons]
    by_cases htilde : c = '~'
    · subst htilde
      simp [unescape, ih]
    by_cases hslash : c = '/'
    · subst hslash
      simp [unescape, ih]
    · rw [if_neg htilde, if_neg hslash, List.singleton_append]
      unfold unescape
      split <;> simp_all

theorem slash_not_mem_escape (token : List Char) : '/' ∉ escape token := by
  intro h
  obtain ⟨c, -, hc⟩ := List.mem_flatMap.mp h
  revert hc
  split <;> [decide; skip]
  split
  · decide
  next hslash => simpa using Ne.symm hslash

/-- The text of a pointer. -/
def text (tokens : List String) : String :=
  String.ofList (tokens.flatMap fun token => '/' :: escape token.toList)

theorem text_snoc (tokens : List String) (token : String) :
    text (tokens ++ [token]) = text tokens ++ "/" ++ String.ofList (escape token.toList) := by
  apply String.toList_inj.mp
  simp [text]

/-- The tokens of a pointer; the text of one is empty or starts with a slash. -/
def parse (pointer : String) : Option (List String) :=
  match pointer.toList.splitOn '/' with
  | [] :: tokens => some (tokens.map fun token => String.ofList (unescape token))
  | _ => none

theorem parse_text (tokens : List String) : parse (text tokens) = some tokens := by
  have hjoin : (text tokens).toList =
      List.intercalate ['/'] ([] :: tokens.map fun token => escape token.toList) := by
    rw [text, String.toList_ofList]
    induction tokens with
    | nil => rfl
    | cons token tokens ih =>
      cases tokens with
      | nil => simp [List.intercalate]
      | cons next tokens =>
        rw [List.flatMap_cons, ih]
        simp [List.intercalate]
  have hsplit : (text tokens).toList.splitOn '/' =
      [] :: tokens.map fun token => escape token.toList := by
    rw [hjoin]
    apply List.splitOn_intercalate
    · intro part hpart
      rcases List.mem_cons.mp hpart with rfl | hpart
      · exact List.not_mem_nil
      · obtain ⟨token, -, rfl⟩ := List.mem_map.mp hpart
        exact slash_not_mem_escape token.toList
    · exact List.cons_ne_nil _ _
  rw [parse, hsplit]
  show some ((tokens.map _).map _) = some tokens
  rw [List.map_map]
  refine congrArg some (List.map_id'' (fun token => ?_) tokens)
  show String.ofList (unescape (escape token.toList)) = token
  rw [unescape_escape, String.ofList_toList]

/-! ## Following a pointer -/

/-- The index a token is, written without leading zeros. -/
def arrayIndex (token : String) : Option Nat :=
  let index := digitsValue token.toList
  if toString index = token then some index else none

theorem arrayIndex_toString (index : Nat) : arrayIndex (toString index) = some index := by
  have hvalue : digitsValue (toString index).toList = index := by
    rw [digitsValue, show (toString index).toList = Nat.toDigits 10 index from
      String.toList_ofList, Nat.ofDigitChars_ten_toDigits]
  rw [arrayIndex, hvalue]
  exact if_pos rfl

/-- The part of a value that one token refers to. -/
def child (value : Json) (token : String) : Option Json :=
  match value with
  | .array items => (arrayIndex token).bind fun index => items.toList[index]?
  | .object fields => lookup token fields.toList
  | _ => none

/-- The part of a value that a list of tokens refers to. -/
def follow : Json → List String → Option Json
  | value, [] => some value
  | value, token :: tokens => (child value token).bind fun part => follow part tokens

theorem follow_append (value : Json) (tokens more : List String) :
    follow value (tokens ++ more) = (follow value tokens).bind fun part => follow part more := by
  induction tokens generalizing value with
  | nil => rfl
  | cons token tokens ih =>
    rw [List.cons_append, follow, follow]
    cases child value token with
    | none => rfl
    | some part => exact ih part

theorem follow_snoc (value : Json) (tokens : List String) (token : String) :
    follow value (tokens ++ [token]) = (follow value tokens).bind fun part => child part token := by
  rw [follow_append]
  congr 1
  funext part
  rw [follow]
  cases child part token <;> rfl

/-- The part of a value that a pointer refers to. -/
def resolve (value : Json) (pointer : String) : Option Json :=
  (parse pointer).bind (follow value)

theorem resolve_text (value : Json) (tokens : List String) :
    resolve value (text tokens) = follow value tokens := by
  rw [resolve, parse_text]
  rfl

end Pointer

end Troupe.Lib
