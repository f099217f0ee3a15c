import Troupe.Lib.Calendar
import Troupe.Lib.Machine
import Mathlib.Data.List.Induction
import Mathlib.Order.Compare

/-! # Timestamps

`parse_utc_timestamp` of `cleanup_policy.rs`, with its hand-written calendar. A timestamp is the text
of a time of day on a day of the calendar, and its instant the seconds and nanoseconds from the start
of the year 1970 to it.

* `CivilTime` is what a timestamp shows, `text` its text, and `sinceEpoch` counts its nanoseconds by
  the days of the calendar (`Lib.dayNumber`).
* A `SystemTime` is its distance from `UNIX_EPOCH` in nanoseconds.

Headline results: **`parseUtcTimestamp_eq_some`**, `UtcInstant.compare_eq`. -/

namespace Troupe.Cli

open Troupe.Lib

variable {bytes : List UInt8} {time : CivilTime}

/-! ## Instants -/

/-- `UtcInstant`. -/
structure UtcInstant where
  seconds : Int
  nanoseconds : Nat
deriving DecidableEq

namespace UtcInstant

/-- The derived `Ord`. -/
def compare (left right : UtcInstant) : Ordering :=
  (Ord.compare left.seconds right.seconds).then (Ord.compare left.nanoseconds right.nanoseconds)

/-- `from_system_time`. -/
def fromSystemTime (value : Int) : UtcInstant :=
  if 0 ≤ value then ⟨value.toNat / 1000000000, value.toNat % 1000000000⟩
  else
    let duration := (-value).toNat
    if duration % 1000000000 = 0 then ⟨-(duration / 1000000000 : Nat), 0⟩
    else ⟨-(duration / 1000000000 : Nat) - 1, 1000000000 - duration % 1000000000⟩

/-- `subtract`, of an age in whole seconds. -/
def subtract (instant : UtcInstant) (age : Nat) : UtcInstant :=
  { instant with seconds := instant.seconds - age }

/-- The nanoseconds since the epoch. -/
def sinceEpoch (instant : UtcInstant) : Int := instant.seconds * 1000000000 + instant.nanoseconds

/-- The nanoseconds are those of a second. -/
def Normal (instant : UtcInstant) : Prop := instant.nanoseconds < 1000000000

end UtcInstant

/-! ## The parser -/

/-- `u32::MAX`. -/
def u32Max : Nat := 2 ^ 32 - 1

/-- `u8::is_ascii_digit`. -/
def isAsciiDigit (byte : UInt8) : Bool := 48 ≤ byte && byte ≤ 57

/-- One digit of `parse_decimal`. -/
def pushDigit (value : Nat) (byte : UInt8) : Option Nat := do
  let value ← if value * 10 ≤ u32Max then some (value * 10) else none
  checkedAdd u32Max value (byte.toNat - 48)

/-- `parse_decimal`. -/
def parseDecimal (bytes : List UInt8) : Option Nat :=
  if bytes.isEmpty || !bytes.all isAsciiDigit then none else bytes.foldlM pushDigit 0

/-- `is_leap_year`. -/
def isLeapYear (year : Int) : Bool :=
  year.tmod 4 == 0 && (year.tmod 100 != 0 || year.tmod 400 == 0)

/-- `days_in_month`. -/
def daysInMonth (year : Int) (month : Nat) : Nat :=
  if month ∈ [1, 3, 5, 7, 8, 10, 12] then 31
  else if month ∈ [4, 6, 9, 11] then 30
  else if month = 2 ∧ isLeapYear year then 29
  else if month = 2 then 28
  else 0

/-- `days_from_civil`. -/
def daysFromCivil (year : Int) (month day : Nat) : Int :=
  let adjustedYear := year - if month ≤ 2 then 1 else 0
  let era := (if 0 ≤ adjustedYear then adjustedYear else adjustedYear - 399).tdiv 400
  let yearOfEra := adjustedYear - era * 400
  let shiftedMonth := (month : Int) + if month > 2 then -3 else 9
  let dayOfYear := (153 * shiftedMonth + 2).tdiv 5 + day - 1
  let dayOfEra := yearOfEra * 365 + yearOfEra.tdiv 4 - yearOfEra.tdiv 100 + dayOfYear
  era * 146097 + dayOfEra - 719468

/-- `bytes[from..to]`. -/
def slice (bytes : List UInt8) (start stop : Nat) : List UInt8 := (bytes.take stop).drop start

/-- The nanoseconds of `parse_utc_timestamp`. -/
def parseNanoseconds : List UInt8 → Option Nat
  | [] => some 0
  | point :: digits => do
    if point = 46 ∧ 2 ≤ (point :: digits).length ∧ (point :: digits).length ≤ 10 then
      let value ← parseDecimal digits
      return value * 10 ^ (9 - digits.length)
    else none

/-- `parse_utc_timestamp`. -/
def parseUtcTimestamp (bytes : List UInt8) : Option UtcInstant := do
  if bytes.length < 20 ∨ bytes[4]? ≠ some 45 ∨ bytes[7]? ≠ some 45 ∨ bytes[10]? ≠ some 84 ∨
      bytes[13]? ≠ some 58 ∨ bytes[16]? ≠ some 58 ∨ bytes.getLast? ≠ some 90 then none
  else
    let year ← parseDecimal (slice bytes 0 4)
    let month ← parseDecimal (slice bytes 5 7)
    let day ← parseDecimal (slice bytes 8 10)
    let hour ← parseDecimal (slice bytes 11 13)
    let minute ← parseDecimal (slice bytes 14 16)
    let second ← parseDecimal (slice bytes 17 19)
    if ¬(1 ≤ month ∧ month ≤ 12) ∨ day = 0 ∨ daysInMonth year month < day ∨ 23 < hour ∨
        59 < minute ∨ 59 < second then none
    else
      let nanoseconds ← parseNanoseconds (slice bytes 19 (bytes.length - 1))
      return ⟨daysFromCivil year month day * 86400 + hour * 3600 + minute * 60 + second,
        nanoseconds⟩

example : (parseUtcTimestamp "2000-03-01T00:00:01.5Z".toUTF8.data.toList).map
    UtcInstant.sinceEpoch = some 951868801500000000 := by decide +kernel

/-! ## What a timestamp shows -/

/-- A time of day on a day of the calendar, with the digits of a fraction of a second. -/
structure CivilTime where
  year : Nat
  month : Nat
  day : Nat
  hour : Nat
  minute : Nat
  second : Nat
  /-- The number of digits, and their value. -/
  fraction : Option (Nat × Nat)

namespace CivilTime

/-- The time there is, in a year of four digits. -/
structure Valid (time : CivilTime) : Prop where
  year : time.year < 10000
  month : 1 ≤ time.month ∧ time.month ≤ 12
  day : 1 ≤ time.day ∧ time.day ≤ monthLength time.year time.month
  hour : time.hour < 24
  minute : time.minute < 60
  second : time.second < 60
  fraction : ∀ digits value, time.fraction = some (digits, value) →
    1 ≤ digits ∧ digits ≤ 9 ∧ value < 10 ^ digits

/-- The nanoseconds of the fraction. -/
def nanoseconds (time : CivilTime) : Nat :=
  match time.fraction with
  | none => 0
  | some (digits, value) => value * 10 ^ (9 - digits)

/-- The nanoseconds since the first second of the year 1970, by the days of the calendar. -/
def sinceEpoch (time : CivilTime) : Int :=
  ((((dayNumber time.year time.month time.day : Int) - dayNumber 1970 1 1) * 86400 +
    time.hour * 3600 + time.minute * 60 + time.second) * 1000000000) + time.nanoseconds

end CivilTime

/-- A number in so many decimal digits. -/
def decimalText : Nat → Nat → List UInt8
  | 0, _ => []
  | width + 1, value => decimalText width (value / 10) ++ [UInt8.ofNat (48 + value % 10)]

/-- The text of a time. -/
def CivilTime.text (time : CivilTime) : List UInt8 :=
  decimalText 4 time.year ++ [45] ++ decimalText 2 time.month ++ [45] ++ decimalText 2 time.day ++
    [84] ++ decimalText 2 time.hour ++ [58] ++ decimalText 2 time.minute ++ [58] ++
    decimalText 2 time.second ++
    (match time.fraction with
      | none => []
      | some (digits, value) => 46 :: decimalText digits value) ++ [90]

/-! ## Instants in order -/

namespace UtcInstant

variable {a b : UtcInstant}

/-- **Instants compare as the times they are.** -/
theorem compare_eq (ha : a.Normal) (hb : b.Normal) :
    compare a b = Ord.compare a.sinceEpoch b.sinceEpoch := by
  unfold Normal at ha hb
  have hlater (x y : UtcInstant) (hx : x.nanoseconds < 1000000000) (hlt : x.seconds < y.seconds) :
      x.sinceEpoch < y.sinceEpoch := by
    unfold sinceEpoch
    omega
  unfold compare
  rcases lt_trichotomy a.seconds b.seconds with hlt | heq | hgt
  · rw [compare_lt_iff_lt.mpr hlt, compare_lt_iff_lt.mpr (hlater a b ha hlt)]
    rfl
  · have hsame : Ord.compare a.sinceEpoch b.sinceEpoch = Ord.compare a.nanoseconds b.nanoseconds := by
      unfold sinceEpoch
      rw [heq]
      rcases lt_trichotomy a.nanoseconds b.nanoseconds with hlt | hnanos | hgt
      · rw [compare_lt_iff_lt.mpr hlt]
        exact compare_lt_iff_lt.mpr (by omega)
      · rw [hnanos, compare_eq_iff_eq.mpr rfl, compare_eq_iff_eq.mpr rfl]
      · rw [compare_gt_iff_gt.mpr hgt]
        exact compare_gt_iff_gt.mpr (by omega)
    rw [hsame, heq, compare_eq_iff_eq.mpr rfl, Ordering.then]
  · rw [compare_gt_iff_gt.mpr hgt, compare_gt_iff_gt.mpr (hlater b a hb hgt)]
    rfl

theorem fromSystemTime_normal (value : Int) : (fromSystemTime value).Normal := by
  unfold fromSystemTime Normal
  split
  · exact Nat.mod_lt _ (by decide)
  · dsimp only
    split
    · exact Nat.zero_lt_succ _
    · dsimp only
      omega

/-- A system time is its instant. -/
theorem fromSystemTime_sinceEpoch (value : Int) : (fromSystemTime value).sinceEpoch = value := by
  unfold fromSystemTime sinceEpoch
  split
  · dsimp only
    omega
  · dsimp only
    split
    · dsimp only
      omega
    · dsimp only
      omega

theorem subtract_normal (h : a.Normal) (age : Nat) : (a.subtract age).Normal := h

theorem subtract_sinceEpoch (age : Nat) :
    (a.subtract age).sinceEpoch = a.sinceEpoch - age * 1000000000 := by
  unfold subtract sinceEpoch
  dsimp only
  omega

end UtcInstant

/-! ## Numbers in decimal digits -/

theorem length_decimalText (width value : Nat) : (decimalText width value).length = width := by
  induction width generalizing value with
  | zero => rfl
  | succ width ih => rw [decimalText, List.length_append, ih, List.length_singleton]

theorem isAsciiDigit_ofNat (digit : Nat) : isAsciiDigit (UInt8.ofNat (48 + digit % 10)) = true := by
  have hlt := Nat.mod_lt digit (show 0 < 10 by decide)
  interval_cases digit % 10 <;> decide

theorem toNat_ofNat_digit (digit : Nat) : (UInt8.ofNat (48 + digit % 10)).toNat = 48 + digit % 10 := by
  have hlt := Nat.mod_lt digit (show 0 < 10 by decide)
  interval_cases digit % 10 <;> decide

theorem all_decimalText (width value : Nat) :
    (decimalText width value).all isAsciiDigit = true := by
  induction width generalizing value with
  | zero => rfl
  | succ width ih =>
    rw [decimalText, List.all_append, ih, List.all_cons, isAsciiDigit_ofNat]
    rfl

theorem pushDigit_eq {value digit : Nat} (hdigit : digit < 10) (hfits : value < 10 ^ 8)
    {byte : UInt8} (hbyte : byte.toNat = 48 + digit) :
    pushDigit value byte = some (value * 10 + digit) := by
  have hten : value * 10 ≤ u32Max := by
    unfold u32Max
    omega
  rw [pushDigit, if_pos hten, hbyte]
  refine checkedAdd_eq_some.mpr ⟨?_, by omega⟩
  unfold u32Max
  omega

/-- The digits of a number are read as the number. -/
theorem foldlM_decimalText {width value : Nat} (hwidth : width ≤ 9) (h : value < 10 ^ width) :
    (decimalText width value).foldlM pushDigit 0 = some value := by
  induction width generalizing value with
  | zero =>
    have hzero : value = 0 := by omega
    rw [hzero]
    rfl
  | succ width ih =>
    have hrest : value / 10 < 10 ^ width := by
      rw [pow_succ] at h
      omega
    have hsmall : 10 ^ width ≤ 10 ^ 8 := Nat.pow_le_pow_right (by decide) (by omega)
    rw [decimalText, List.foldlM_append, ih (by omega) hrest]
    change (do let value' ← pushDigit (value / 10) _; List.foldlM pushDigit value' []) = _
    rw [pushDigit_eq (Nat.mod_lt value (by decide)) (by omega) (toNat_ofNat_digit value)]
    change some (value / 10 * 10 + value % 10) = some value
    rw [Nat.div_add_mod']

theorem digit_of_isAsciiDigit {byte : UInt8} (h : isAsciiDigit byte = true) :
    ∃ digit < 10, byte = UInt8.ofNat (48 + digit) := by
  unfold isAsciiDigit at h
  simp only [Bool.and_eq_true, decide_eq_true_eq, UInt8.le_iff_toNat_le] at h
  refine ⟨byte.toNat - 48, ?_, ?_⟩
  · have hmax : byte.toNat ≤ 57 := h.2
    omega
  · have hmin : 48 ≤ byte.toNat := h.1
    rw [Nat.add_sub_cancel' hmin, UInt8.ofNat_toNat]

/-- Digits are those of a number. -/
theorem exists_decimalText (h : bytes.all isAsciiDigit = true) :
    ∃ value < 10 ^ bytes.length, bytes = decimalText bytes.length value := by
  induction bytes using List.reverseRecOn with
  | nil => exact ⟨0, by decide, rfl⟩
  | append_singleton bytes byte ih =>
    rw [List.all_append, Bool.and_eq_true] at h
    obtain ⟨value, hlt, hvalue⟩ := ih h.1
    obtain ⟨digit, hdigit, rfl⟩ := digit_of_isAsciiDigit (by simpa using h.2)
    refine ⟨value * 10 + digit, ?_, ?_⟩
    · rw [List.length_append, List.length_singleton, pow_succ]
      omega
    · rw [List.length_append, List.length_singleton, decimalText]
      have hdiv : (value * 10 + digit) / 10 = value := by omega
      have hmod : (value * 10 + digit) % 10 = digit := by omega
      rw [hdiv, hmod, ← hvalue]

/-- **What `parse_decimal` reads**, of up to nine bytes. -/
theorem parseDecimal_eq_some (hwidth : bytes.length ≤ 9) {value : Nat} :
    parseDecimal bytes = some value ↔
      bytes ≠ [] ∧ value < 10 ^ bytes.length ∧ bytes = decimalText bytes.length value := by
  unfold parseDecimal
  constructor
  · intro h
    split at h
    · cases h
    · rename_i hdigits
      simp only [Bool.or_eq_true, List.isEmpty_iff, Bool.not_eq_true', not_or,
        Bool.not_eq_false] at hdigits
      obtain ⟨number, hlt, hnumber⟩ := exists_decimalText hdigits.2
      rw [hnumber, foldlM_decimalText hwidth hlt] at h
      cases h
      exact ⟨hdigits.1, hlt, hnumber⟩
  · rintro ⟨hne, hlt, hbytes⟩
    have hdigits : bytes.all isAsciiDigit = true := by
      rw [hbytes]
      exact all_decimalText _ _
    rw [if_neg (by simp [hne, hdigits]), hbytes]
    exact foldlM_decimalText hwidth hlt

/-! ## The calendar of the parser -/

theorem isLeapYear_iff (year : Nat) : isLeapYear year = true ↔ IsLeapYear year := by
  have hmod (n : Nat) : (year : Int).tmod n = ((year % n : Nat) : Int) := (Int.ofNat_tmod year n).symm
  have h4 := hmod 4
  have h100 := hmod 100
  have h400 := hmod 400
  simp only [Nat.cast_ofNat] at h4 h100 h400
  simp only [isLeapYear, IsLeapYear, h4, h100, h400, Bool.and_eq_true, Bool.or_eq_true, beq_iff_eq,
    bne_iff_ne, ne_eq]
  omega

theorem daysInMonth_eq {year month : Nat} (hpos : 1 ≤ month) (hle : month ≤ 12) :
    daysInMonth year month = monthLength year month := by
  unfold daysInMonth monthLength monthLengths
  by_cases h : IsLeapYear year
  · have hleap := (isLeapYear_iff year).mpr h
    interval_cases month <;> simp [h, hleap]
  · have hleap : isLeapYear year = false := by
      rw [Bool.eq_false_iff, ne_eq, isLeapYear_iff]
      exact h
    interval_cases month <;> simp [h, hleap]

/-- The epoch, counted. -/
theorem dayNumber_epoch : dayNumber 1970 1 1 = 719528 := by
  rw [dayNumber, daysBeforeYear_eq, daysBeforeMonth_eq (by decide) (by decide)]
  rfl

/-- The days of `days_from_civil`, in a year that begins in March and is not before the year zero. -/
theorem daysFromCivil_of_adjusted {year : Int} {month day adjusted : Nat}
    (hadjusted : year - (if month ≤ 2 then 1 else 0) = adjusted) :
    daysFromCivil year month day =
      (365 * adjusted + adjusted / 4 + adjusted / 400 : Nat) - (adjusted / 100 : Nat) +
        ((153 * (if 2 < month then month - 3 else month + 9) + 2) / 5 : Nat) + day - 1 - 719468 := by
  have hmonth : (month : Int) + (if month > 2 then -3 else 9) =
      ((if 2 < month then month - 3 else month + 9 : Nat) : Int) := by
    split <;> omega
  unfold daysFromCivil
  dsimp only
  rw [hadjusted, hmonth, if_pos (Int.natCast_nonneg adjusted)]
  generalize (if 2 < month then month - 3 else month + 9) = shifted
  rw [Int.tdiv_eq_ediv_of_nonneg (a := (adjusted : Int)) (by omega),
    Int.tdiv_eq_ediv_of_nonneg (a := 153 * (shifted : Int) + 2) (by omega),
    Int.tdiv_eq_ediv_of_nonneg (a := (adjusted : Int) - adjusted / 400 * 400) (by omega),
    Int.tdiv_eq_ediv_of_nonneg (a := (adjusted : Int) - adjusted / 400 * 400) (by omega)]
  omega

/-- **The hand-written calendar counts the days.** -/
theorem daysFromCivil_eq {year month day : Nat} (hpos : 1 ≤ month) (hle : month ≤ 12)
    (hday : 1 ≤ day) :
    daysFromCivil year month day = (dayNumber year month day : Int) - dayNumber 1970 1 1 := by
  rw [dayNumber_epoch, dayNumber, daysBeforeYear_eq, daysBeforeMonth_eq hpos hle]
  by_cases hearly : month ≤ 2
  · rw [if_pos hearly]
    cases year with
    | zero =>
      -- January and February of the year zero belong to the year before it
      interval_cases month <;>
        simp [daysFromCivil, show (-400 : Int).tdiv 400 = -1 by decide] <;> omega
    | succ year =>
      have hadjusted : ((year + 1 : Nat) : Int) - (if month ≤ 2 then 1 else 0) = year := by
        rw [if_pos hearly]
        omega
      rw [daysFromCivil_of_adjusted hadjusted, if_neg (by omega)]
      omega
  · have hadjusted : (year : Int) - (if month ≤ 2 then 1 else 0) = year := by
      rw [if_neg hearly, Int.sub_zero]
    rw [daysFromCivil_of_adjusted hadjusted, if_pos (by omega), if_neg hearly]
    by_cases hleap : IsLeapYear year
    · rw [if_pos hleap]
      unfold IsLeapYear at hleap
      omega
    · rw [if_neg hleap]
      unfold IsLeapYear at hleap
      omega

/-! ## The parts of a timestamp -/

/-- A timestamp of these parts. -/
def joinParts (year month day hour minute second fraction : List UInt8) : List UInt8 :=
  year ++ 45 :: (month ++ 45 :: (day ++ 84 :: (hour ++ 58 :: (minute ++ 58 :: (second ++
    (fraction ++ [90]))))))

/-- What `parse_utc_timestamp` makes of the parts. -/
def parseParts (year month day hour minute second fraction : List UInt8) : Option UtcInstant := do
  let year ← parseDecimal year
  let month ← parseDecimal month
  let day ← parseDecimal day
  let hour ← parseDecimal hour
  let minute ← parseDecimal minute
  let second ← parseDecimal second
  if ¬(1 ≤ month ∧ month ≤ 12) ∨ day = 0 ∨ daysInMonth year month < day ∨ 23 < hour ∨
      59 < minute ∨ 59 < second then none
  else
    let nanoseconds ← parseNanoseconds fraction
    return ⟨daysFromCivil year month day * 86400 + hour * 3600 + minute * 60 + second, nanoseconds⟩

section Parts

variable {year month day hour minute second fraction bytes : List UInt8}

/-- The parts are read where they stand. -/
theorem parse_joinParts (hyear : year.length = 4) (hmonth : month.length = 2)
    (hday : day.length = 2) (hhour : hour.length = 2) (hminute : minute.length = 2)
    (hsecond : second.length = 2) :
    parseUtcTimestamp (joinParts year month day hour minute second fraction) =
      parseParts year month day hour minute second fraction := by
  match year, hyear with
  | [y₁, y₂, y₃, y₄], _ =>
  obtain ⟨m₁, m₂, rfl⟩ := List.length_eq_two.mp hmonth
  obtain ⟨d₁, d₂, rfl⟩ := List.length_eq_two.mp hday
  obtain ⟨h₁, h₂, rfl⟩ := List.length_eq_two.mp hhour
  obtain ⟨i₁, i₂, rfl⟩ := List.length_eq_two.mp hminute
  obtain ⟨s₁, s₂, rfl⟩ := List.length_eq_two.mp hsecond
  have hfraction (front : List UInt8) :
      slice (front ++ (fraction ++ [90])) front.length ((front ++ (fraction ++ [90])).length - 1) =
        fraction := by
    have hlength : (front ++ (fraction ++ [90])).length - 1 = (front ++ fraction).length := by
      simp only [List.length_append, List.length_singleton]
      omega
    rw [slice, hlength, ← List.append_assoc, List.take_left, List.drop_left]
  have hparts := hfraction [y₁, y₂, y₃, y₄, 45, m₁, m₂, 45, d₁, d₂, 84, h₁, h₂, 58, i₁, i₂, 58, s₁, s₂]
  simp only [List.cons_append, List.nil_append, List.length_cons, List.length_nil] at hparts
  unfold parseUtcTimestamp parseParts joinParts
  simp only [List.cons_append, List.nil_append, List.length_cons]
  rw [if_neg]
  · rw [hparts]
    rfl
  · have hlast : (s₂ :: (fraction ++ [90])).getLast? = some 90 := by
      rw [← List.cons_append, List.getLast?_concat]
    simp [hlast]

theorem drop_eq_slice {start stop : Nat} (h : start ≤ stop) :
    bytes.drop start = slice bytes start stop ++ bytes.drop stop := by
  unfold slice
  rw [List.drop_take, ← Nat.add_sub_cancel' h, ← List.drop_drop, Nat.add_sub_cancel_left,
    List.take_append_drop]

theorem length_slice {start stop : Nat} (h : stop ≤ bytes.length) :
    (slice bytes start stop).length = stop - start := by
  unfold slice
  rw [List.length_drop, List.length_take, Nat.min_eq_left h]

theorem drop_eq_cons {i : Nat} {byte : UInt8} (h : bytes[i]? = some byte) :
    bytes.drop i = byte :: bytes.drop (i + 1) := by
  obtain ⟨hlt, hbyte⟩ := List.getElem?_eq_some_iff.mp h
  rw [List.drop_eq_getElem_cons hlt, hbyte]

/-- A timestamp is made of parts. -/
theorem exists_parts {instant : UtcInstant} (h : parseUtcTimestamp bytes = some instant) :
    ∃ year month day hour minute second fraction : List UInt8,
      year.length = 4 ∧ month.length = 2 ∧ day.length = 2 ∧ hour.length = 2 ∧ minute.length = 2 ∧
        second.length = 2 ∧
        bytes = joinParts year month day hour minute second fraction := by
  unfold parseUtcTimestamp at h
  split at h
  · cases h
  rename_i hguard
  simp only [not_or, Nat.not_lt, ne_eq, Decidable.not_not] at hguard
  obtain ⟨hlength, h4, h7, h10, h13, h16, hlast⟩ := hguard
  refine ⟨slice bytes 0 4, slice bytes 5 7, slice bytes 8 10, slice bytes 11 13, slice bytes 14 16,
    slice bytes 17 19, slice bytes 19 (bytes.length - 1), ?_⟩
  refine ⟨length_slice (by omega), length_slice (by omega), length_slice (by omega),
    length_slice (by omega), length_slice (by omega), length_slice (by omega), ?_⟩
  have hend : bytes.drop (bytes.length - 1) = [90] := by
    rw [List.getLast?_eq_getElem?] at hlast
    rw [drop_eq_cons hlast, List.drop_eq_nil_of_le (by omega)]
  have hwhole : bytes = slice bytes 0 4 ++ bytes.drop 4 := by
    rw [← drop_eq_slice (by decide), List.drop_zero]
  unfold joinParts
  rw [← hend, ← drop_eq_slice (by omega), ← drop_eq_slice (by decide), ← drop_eq_cons h16,
    ← drop_eq_slice (by decide), ← drop_eq_cons h13, ← drop_eq_slice (by decide),
    ← drop_eq_cons h10, ← drop_eq_slice (by decide), ← drop_eq_cons h7,
    ← drop_eq_slice (by decide), ← drop_eq_cons h4, ← hwhole]

end Parts

/-! ## What is parsed -/

/-- What `parse_nanoseconds` reads is a fraction of up to nine digits. -/
theorem parseNanoseconds_eq_some {nanoseconds : Nat} :
    parseNanoseconds bytes = some nanoseconds ↔
      (bytes = [] ∧ nanoseconds = 0) ∨
      ∃ digits value, 1 ≤ digits ∧ digits ≤ 9 ∧ value < 10 ^ digits ∧
        bytes = 46 :: decimalText digits value ∧ nanoseconds = value * 10 ^ (9 - digits) := by
  cases bytes with
  | nil =>
    simp only [parseNanoseconds, Option.some.injEq, true_and, reduceCtorEq, false_and, and_false,
      exists_false, or_false]
    exact eq_comm
  | cons point digits =>
    simp only [parseNanoseconds, reduceCtorEq, false_and, false_or]
    constructor
    · intro h
      split at h
      · rename_i hguard
        obtain ⟨rfl, hmin, hmax⟩ := hguard
        rw [List.length_cons] at hmin hmax
        obtain ⟨value, hvalue, h⟩ := Option.bind_eq_some_iff.mp h
        obtain ⟨-, hlt, htext⟩ := (parseDecimal_eq_some (by omega)).mp hvalue
        cases h
        exact ⟨digits.length, value, by omega, by omega, hlt, by rw [← htext], rfl⟩
      · cases h
    · rintro ⟨width, value, hmin, hmax, hlt, hbytes, rfl⟩
      obtain ⟨rfl, rfl⟩ := List.cons.inj hbytes
      have hlength := length_decimalText width value
      have hparsed : parseDecimal (decimalText width value) = some value := by
        refine (parseDecimal_eq_some (by omega)).mpr ⟨?_, ?_, ?_⟩
        · exact List.ne_nil_of_length_pos (by omega)
        · rwa [hlength]
        · rw [hlength]
      rw [if_pos (by rw [List.length_cons, hlength]; exact ⟨rfl, by omega, by omega⟩), hparsed,
        hlength]
      rfl

/-- The time of day a timestamp shows: its instant and its time agree. -/
theorem parseDecimal_iff {width : Nat} (hlength : bytes.length = width)
    (hpos : 1 ≤ width) (hwidth : width ≤ 9) {value : Nat} :
    parseDecimal bytes = some value ↔ value < 10 ^ width ∧ bytes = decimalText width value := by
  subst hlength
  rw [parseDecimal_eq_some hwidth]
  exact ⟨fun h => h.2, fun h => ⟨List.ne_nil_of_length_pos hpos, h⟩⟩

/-- The text of a fraction. -/
def CivilTime.fractionText (time : CivilTime) : List UInt8 :=
  match time.fraction with
  | none => []
  | some (digits, value) => 46 :: decimalText digits value

/-- The text of a time, as its parts. -/
theorem CivilTime.text_eq (time : CivilTime) :
    time.text = joinParts (decimalText 4 time.year) (decimalText 2 time.month)
      (decimalText 2 time.day) (decimalText 2 time.hour) (decimalText 2 time.minute)
      (decimalText 2 time.second)
      time.fractionText := by
  simp only [CivilTime.text, CivilTime.fractionText, joinParts, List.append_assoc,
    List.cons_append, List.nil_append]

/-- The nanoseconds of a fraction are those of a second. -/
theorem CivilTime.Valid.nanoseconds_lt (h : time.Valid) :
    time.nanoseconds < 1000000000 := by
  unfold CivilTime.nanoseconds
  split
  · decide
  · rename_i digits value hfraction
    obtain ⟨hmin, hmax, hlt⟩ := h.fraction digits value hfraction
    calc value * 10 ^ (9 - digits) < 10 ^ digits * 10 ^ (9 - digits) :=
          Nat.mul_lt_mul_of_pos_right hlt (Nat.pow_pos (by decide))
      _ = 10 ^ 9 := by rw [← pow_add, Nat.add_sub_cancel' hmax]
      _ = 1000000000 := by decide

/-- The instant the code computes for a time. -/
def CivilTime.instant (time : CivilTime) : UtcInstant :=
  ⟨daysFromCivil time.year time.month time.day * 86400 + time.hour * 3600 + time.minute * 60 +
    time.second, time.nanoseconds⟩

/-- The instant of a time is that time. -/
theorem CivilTime.Valid.sinceEpoch_instant (h : time.Valid) :
    time.instant.sinceEpoch = time.sinceEpoch := by
  unfold CivilTime.instant UtcInstant.sinceEpoch CivilTime.sinceEpoch
  dsimp only
  rw [daysFromCivil_eq h.month.1 h.month.2 h.day.1]

theorem parseNanoseconds_fractionText (h : time.Valid) :
    parseNanoseconds time.fractionText = some time.nanoseconds := by
  rw [parseNanoseconds_eq_some]
  unfold CivilTime.fractionText CivilTime.nanoseconds
  split
  · exact .inl ⟨rfl, rfl⟩
  · rename_i digits value hfraction
    obtain ⟨hmin, hmax, hlt⟩ := h.fraction digits value hfraction
    exact .inr ⟨digits, value, hmin, hmax, hlt, rfl, rfl⟩

/-- The text of a time is read as its instant. -/
theorem CivilTime.Valid.parse_text (h : time.Valid) :
    parseUtcTimestamp time.text = some time.instant := by
  have hparse {width value : Nat} (hpos : 1 ≤ width) (hwidth : width ≤ 9) (hlt : value < 10 ^ width) :
      parseDecimal (decimalText width value) = some value :=
    (parseDecimal_iff (length_decimalText width value) hpos hwidth).mpr ⟨hlt, rfl⟩
  have hday : time.day ≤ daysInMonth time.year time.month := by
    rw [daysInMonth_eq h.month.1 h.month.2]
    exact h.day.2
  have hdays : time.day ≤ 31 := by
    refine hday.trans ?_
    unfold daysInMonth
    split
    · exact le_rfl
    split
    · decide
    split
    · decide
    split <;> decide
  have hmonth := h.month
  have hdayPos := h.day.1
  have hhour := h.hour
  have hminute := h.minute
  have hsecond := h.second
  rw [time.text_eq, parse_joinParts (length_decimalText _ _) (length_decimalText _ _)
    (length_decimalText _ _) (length_decimalText _ _) (length_decimalText _ _)
    (length_decimalText _ _), parseParts, hparse (by decide) (by decide) h.year,
    hparse (by decide) (by decide) (by omega), hparse (by decide) (by decide) (by omega),
    hparse (by decide) (by decide) (by omega), hparse (by decide) (by decide) (by omega),
    hparse (by decide) (by decide) (by omega)]
  simp only [Option.bind_eq_bind, Option.bind_some]
  rw [if_neg (by omega), parseNanoseconds_fractionText h]
  rfl

/-- What is accepted is the text of a time. -/
theorem exists_civilTime {instant : UtcInstant}
    (h : parseUtcTimestamp bytes = some instant) :
    ∃ time : CivilTime, time.Valid ∧ time.text = bytes ∧ instant = time.instant := by
  obtain ⟨y, mo, d, hr, mi, s, f, hy, hmo, hd, hhr, hmi, hs, rfl⟩ := exists_parts h
  rw [parse_joinParts hy hmo hd hhr hmi hs, parseParts] at h
  obtain ⟨year, hyear, h⟩ := Option.bind_eq_some_iff.mp h
  obtain ⟨month, hmonth, h⟩ := Option.bind_eq_some_iff.mp h
  obtain ⟨day, hday, h⟩ := Option.bind_eq_some_iff.mp h
  obtain ⟨hour, hhour, h⟩ := Option.bind_eq_some_iff.mp h
  obtain ⟨minute, hminute, h⟩ := Option.bind_eq_some_iff.mp h
  obtain ⟨second, hsecond, h⟩ := Option.bind_eq_some_iff.mp h
  split at h
  · cases h
  rename_i hguard
  obtain ⟨nanoseconds, hnanoseconds, h⟩ := Option.bind_eq_some_iff.mp h
  cases h
  simp only [not_or, Decidable.not_not, Nat.not_lt] at hguard
  obtain ⟨hmonths, hdayNe, hdays, hhours, hminutes, hseconds⟩ := hguard
  rw [daysInMonth_eq hmonths.1 hmonths.2] at hdays
  obtain ⟨hyearLt, rfl⟩ := (parseDecimal_iff hy (by decide) (by decide)).mp hyear
  obtain ⟨-, rfl⟩ := (parseDecimal_iff hmo (by decide) (by decide)).mp hmonth
  obtain ⟨-, rfl⟩ := (parseDecimal_iff hd (by decide) (by decide)).mp hday
  obtain ⟨-, rfl⟩ := (parseDecimal_iff hhr (by decide) (by decide)).mp hhour
  obtain ⟨-, rfl⟩ := (parseDecimal_iff hmi (by decide) (by decide)).mp hminute
  obtain ⟨-, rfl⟩ := (parseDecimal_iff hs (by decide) (by decide)).mp hsecond
  obtain ⟨fraction, hvalid, hfraction, hvalue⟩ : ∃ fraction : Option (Nat × Nat),
      (∀ digits value, fraction = some (digits, value) →
        1 ≤ digits ∧ digits ≤ 9 ∧ value < 10 ^ digits) ∧
      f = (CivilTime.mk year month day hour minute second fraction).fractionText ∧
      nanoseconds = (CivilTime.mk year month day hour minute second fraction).nanoseconds := by
    rcases parseNanoseconds_eq_some.mp hnanoseconds with
      ⟨rfl, rfl⟩ | ⟨digits, value, hmin, hmax, hlt, rfl, rfl⟩
    · refine ⟨none, ?_, rfl, rfl⟩
      rintro _ _ ⟨⟩
    · refine ⟨some (digits, value), ?_, rfl, rfl⟩
      rintro _ _ ⟨⟩
      exact ⟨hmin, hmax, hlt⟩
  refine ⟨⟨year, month, day, hour, minute, second, fraction⟩, ?_, ?_, ?_⟩
  · exact ⟨hyearLt, hmonths, ⟨by dsimp only; omega, hdays⟩, by dsimp only; omega, by dsimp only; omega,
      by dsimp only; omega, hvalid⟩
  · rw [CivilTime.text_eq, hfraction]
  · rw [hvalue]
    rfl

/-- An instant is known by its time. -/
theorem UtcInstant.Normal.inj {a b : UtcInstant} (ha : a.Normal) (hb : b.Normal)
    (h : a.sinceEpoch = b.sinceEpoch) : a = b := by
  unfold Normal at ha hb
  unfold sinceEpoch at h
  obtain ⟨seconds, nanoseconds⟩ := a
  obtain ⟨seconds', nanoseconds'⟩ := b
  dsimp only at ha hb h
  have hseconds : seconds = seconds' := by omega
  have hnanoseconds : nanoseconds = nanoseconds' := by omega
  rw [hseconds, hnanoseconds]

/-- **What is accepted is the text of a time, and its instant is that time**, to the nanosecond. -/
theorem parseUtcTimestamp_eq_some {instant : UtcInstant} :
    parseUtcTimestamp bytes = some instant ↔
      ∃ time : CivilTime, time.Valid ∧ time.text = bytes ∧ instant.Normal ∧
        instant.sinceEpoch = time.sinceEpoch := by
  constructor
  · intro h
    obtain ⟨time, hvalid, htext, rfl⟩ := exists_civilTime h
    exact ⟨time, hvalid, htext, hvalid.nanoseconds_lt, hvalid.sinceEpoch_instant⟩
  · rintro ⟨time, hvalid, rfl, hnormal, hsince⟩
    rw [hvalid.parse_text]
    exact congrArg some (UtcInstant.Normal.inj hvalid.nanoseconds_lt hnormal
      (hvalid.sinceEpoch_instant.trans hsince.symm))

end Troupe.Cli
