import Mathlib.Algebra.Order.Ring.Rat
import MppSdk.Calendar
import MppSdk.LuaStd

/-! # Expiry dates in Lua

`expires.lua` reads a timestamp of a fixed form and counts its seconds with a closed formula for
the days.  On the dates of the calendar the formula is the count of the days
(`daysFromCivil_eq`), so a challenge is expired exactly when the second it names is not after the
present (`expiry_dates_exact`). -/

namespace MppSdk
namespace Lua
namespace Expires
open Calendar

/-- `days_from_civil`; years begin in March, and 400 of them are an era. -/
def daysFromCivil (year month day : ℤ) : ℤ :=
  let year := year - if month ≤ 2 then 1 else 0
  let era := (if 0 ≤ year then year else year - 399) / 400
  let yoe := year - era * 400
  let mp := month + if 2 < month then -3 else 9
  let doy := (153 * mp + 2) / 5 + day - 1
  let doe := yoe * 365 + yoe / 4 - yoe / 100 + doy
  era * 146097 + doe - 719468

/-- `%d`. -/
def isDigit (b : UInt8) : Bool := byte '0' ≤ b ∧ b ≤ byte '9'

/-- A capture of so many `%d`, and what follows it. -/
def captureDigits (count : ℕ) (text : Str) : Option (Str × Str) :=
  let capture := text.take count
  if capture.length = count ∧ capture.all isDigit then some (capture, text.drop count) else none

/-- A byte that a pattern has literally. -/
def expect (b : UInt8) : Str → Option Str
  | c :: rest => if c = b then some rest else none
  | [] => none

/-- `tonumber` of digits. -/
def tonumber (digits : Str) : ℤ :=
  digits.foldl (fun n b => 10 * n + (b.toNat - (byte '0').toNat)) 0

/-- The captures of the timestamp pattern: four digits of the year, and two of the others. -/
def matchTimestamp (value : Str) : Option (Str × Str × Str × Str × Str × Str) := do
  let (year, rest) ← captureDigits 4 value
  let (month, rest) ← captureDigits 2 (← expect (byte '-') rest)
  let (day, rest) ← captureDigits 2 (← expect (byte '-') rest)
  let (hour, rest) ← captureDigits 2 (← expect (byte 'T') rest)
  let (min, rest) ← captureDigits 2 (← expect (byte ':') rest)
  let (sec, rest) ← captureDigits 2 (← expect (byte ':') rest)
  let rest ← expect (byte 'Z') rest
  if rest = [] then some (year, month, day, hour, min, sec) else none

/-- `parse_rfc3339`; an error is a `nil` with a message. -/
def parseRfc3339 (value : Str) : Except Str ℤ :=
  match matchTimestamp value with
  | none => .error (lit "invalid RFC3339 timestamp")
  | some (year, month, day, hour, min, sec) =>
      let year := tonumber year
      let month := tonumber month
      let day := tonumber day
      let hour := tonumber hour
      let min := tonumber min
      let sec := tonumber sec
      if month < 1 ∨ 12 < month ∨ day < 1 ∨ 31 < day ∨ 23 < hour ∨ 59 < min ∨ 60 < sec then
        .error (lit "invalid RFC3339 timestamp")
      else
        let days := daysFromCivil year month day
        .ok (((days * 24 + hour) * 60 + min) * 60 + sec)

/-- `is_expired`. -/
def isExpired (value : Option Str) (nowEpoch : ℚ) : Bool :=
  match value with
  | none => false
  | some value =>
      if value = [] then false
      else match parseRfc3339 value with
        | .error _ => true
        | .ok expiresAt => (expiresAt : ℚ) ≤ nowEpoch

/-! ## The day number -/

/-- The first of January 1970. -/
def epoch : Date := .newYear 1970

theorem dayNumber_epoch : dayNumber epoch = 719528 := by
  have hyears : yearDays 1970 + 1969 / 100 = 365 * 1970 + 1969 / 4 + 1969 / 400 + 1 :=
    yearDays_succ 1969
  simp only [dayNumber, epoch, Date.newYear, Nat.sub_self, monthDays]
  omega

theorem cast_epoch : (dayNumber epoch : ℤ) = 719528 := by
  rw [dayNumber_epoch, Nat.cast_ofNat]

/-- From the March of year 0 on, the eras and their years come to whole years. -/
theorem daysFromCivil_of_nonneg {year month day : ℤ}
    (h : 0 ≤ year - if month ≤ 2 then 1 else 0) :
    daysFromCivil year month day =
      let y := year - if month ≤ 2 then 1 else 0
      365 * y + y / 4 - y / 100 + y / 400 +
        (153 * (month + if 2 < month then -3 else 9) + 2) / 5 + day - 719469 := by
  simp only [daysFromCivil]
  generalize (year - if month ≤ 2 then 1 else 0) = y at *
  have hfour : (y - y / 400 * 400) / 4 = y / 4 - y / 400 * 100 := by omega
  have hhundred : (y - y / 400 * 400) / 100 = y / 100 - y / 400 * 4 := by omega
  rw [if_pos h, hfour, hhundred]
  omega

/-- January and February are the end of the year that began in the March before. -/
theorem daysFromCivil_of_le {d : Date} (h : d.month ≤ 2) :
    daysFromCivil d.year d.month d.day = dayNumber d - 719528 := by
  have hpos := d.month_pos
  have hday := d.day_pos
  have hfirst : (d.month : ℤ) ≤ 2 := by omega
  have hlater : ¬ 2 < (d.month : ℤ) := by omega
  have hdays : (153 * ((d.month : ℤ) + 9) + 2) / 5 = 306 + 31 * (d.month - 1) := by
    have hmonth : d.month = 1 ∨ d.month = 2 := by omega
    rcases hmonth with hmonth | hmonth
    · rw [hmonth]
      rfl
    · rw [hmonth]
      rfl
  rw [dayNumber, monthDays_eq d.year hpos d.month_le, if_pos h]
  rcases d.year with _ | year
  · -- before the March of year 0 the era is the one before
    simp only [daysFromCivil, if_pos hfirst, if_neg hlater, hdays, yearDays]
    rw [if_neg (by decide)]
    omega
  · have hyears := yearDays_succ year
    rw [daysFromCivil_of_nonneg (by rw [if_pos hfirst]; omega)]
    simp only [if_pos hfirst, if_neg hlater, hdays]
    omega

/-- From March on a date is in the year that began in its own March. -/
theorem daysFromCivil_of_lt {d : Date} (h : 2 < d.month) :
    daysFromCivil d.year d.month d.day = dayNumber d - 719528 := by
  have hday := d.day_pos
  have hfirst : ¬ (d.month : ℤ) ≤ 2 := by omega
  have hlater : 2 < (d.month : ℤ) := by omega
  have hyears := yearDays_succ d.year
  rw [yearDays, monthDays_twelve] at hyears
  have hdays : ((153 * (d.month - 3) + 2) / 5 : ℕ) = (153 * ((d.month : ℤ) + -3) + 2) / 5 := by
    omega
  rw [dayNumber, monthDays_eq d.year d.month_pos d.month_le, if_neg (Nat.not_le.mpr h),
    daysFromCivil_of_nonneg (by rw [if_neg hfirst]; omega)]
  simp only [if_neg hfirst, if_pos hlater, sub_zero, ← hdays]
  -- a leap day is before the date and at the end of the years before the next one
  split_ifs at hyears ⊢ <;> omega

/-- **The formula counts the days** from the epoch. -/
theorem daysFromCivil_eq (d : Date) :
    daysFromCivil d.year d.month d.day = dayNumber d - dayNumber epoch := by
  rw [cast_epoch]
  by_cases h : d.month ≤ 2
  · exact daysFromCivil_of_le h
  · exact daysFromCivil_of_lt (Nat.not_le.mp h)

/-- The next date has the next day number. -/
theorem daysFromCivil_next (d : Date) :
    daysFromCivil d.next.year d.next.month d.next.day =
      daysFromCivil d.year d.month d.day + 1 := by
  rw [daysFromCivil_eq, daysFromCivil_eq, dayNumber_next]
  omega

/-! ## The text of a timestamp -/

/-- A number in a field of so many digits. -/
def field : ℕ → ℕ → Str
  | 0, _ => []
  | width + 1, n => field width (n / 10) ++ [UInt8.ofNat (48 + n % 10)]

theorem length_field (width n : ℕ) : (field width n).length = width := by
  induction width generalizing n with
  | zero => rfl
  | succ width ih => rw [field, List.length_append, ih, List.length_singleton]

theorem toNat_digit (n : ℕ) : (UInt8.ofNat (48 + n % 10)).toNat = 48 + n % 10 := by
  rw [UInt8.toNat_ofNat']
  omega

theorem field_isDigit (width n : ℕ) : (field width n).all isDigit := by
  induction width generalizing n with
  | zero => rfl
  | succ width ih =>
    have hdigit : isDigit (UInt8.ofNat (48 + n % 10)) = true := by
      have hnat := toNat_digit n
      rw [isDigit, decide_eq_true_iff, UInt8.le_iff_toNat_le, UInt8.le_iff_toNat_le, hnat]
      show 48 ≤ _ ∧ _ ≤ 57
      omega
    rw [field, List.all_append, ih, List.all_cons, hdigit]
    rfl

theorem tonumber_field {width n : ℕ} (h : n < 10 ^ width) : tonumber (field width n) = n := by
  induction width generalizing n with
  | zero =>
    obtain rfl : n = 0 := by omega
    rfl
  | succ width ih =>
    have hdiv : n / 10 < 10 ^ width := by
      rw [Nat.pow_succ] at h
      omega
    have hrest := ih hdiv
    rw [tonumber] at hrest ⊢
    rw [field, List.foldl_append, hrest, List.foldl_cons, List.foldl_nil, toNat_digit]
    show 10 * ((n / 10 : ℕ) : ℤ) + ((48 + n % 10 : ℕ) - 48) = n
    omega

/-- A field is captured whole. -/
theorem captureDigits_field (width n : ℕ) (rest : Str) :
    captureDigits width (field width n ++ rest) = some (field width n, rest) := by
  have hlength := length_field width n
  simp only [captureDigits]
  rw [List.take_left' hlength, List.drop_left' hlength, if_pos ⟨hlength, field_isDigit width n⟩]

theorem expect_cons (b : UInt8) (rest : Str) : expect b (b :: rest) = some rest := if_pos rfl

/-- A time of a year with four digits. -/
structure Timestamp extends Time where
  year_lt : date.year < 10000

namespace Timestamp

/-- The text of a timestamp. -/
def text (t : Timestamp) : Str :=
  field 4 t.date.year ++ byte '-' :: (field 2 t.date.month ++ byte '-' :: (field 2 t.date.day ++
    byte 'T' :: (field 2 t.hour ++ byte ':' :: (field 2 t.minute ++ byte ':' ::
      (field 2 t.second ++ [byte 'Z'])))))

/-- The seconds from the epoch to a time, by the calendar. -/
def instant (t : Timestamp) : ℤ := t.seconds - dayNumber epoch * 86400

theorem instant_eq (t : Timestamp) : t.instant = t.seconds - 719528 * 86400 := by
  unfold instant
  rw [cast_epoch]

end Timestamp

example : (Timestamp.mk ⟨epoch, 0, 4, 5, by decide, by decide, by decide⟩
    (by decide +kernel)).text = lit "1970-01-01T00:04:05Z" := by decide +kernel

theorem matchTimestamp_text (t : Timestamp) : matchTimestamp t.text =
    some (field 4 t.date.year, field 2 t.date.month, field 2 t.date.day, field 2 t.hour,
      field 2 t.minute, field 2 t.second) := by
  simp only [matchTimestamp, Timestamp.text, captureDigits_field, expect_cons, Option.bind_eq_bind,
    Option.bind_some, if_true]

/-- **The parser returns the instant** that the text names. -/
theorem parseRfc3339_text (t : Timestamp) : parseRfc3339 t.text = .ok t.instant := by
  have hyear := t.year_lt
  have hmonth := t.date.month_le
  have hmonth' := t.date.month_pos
  have hday := t.date.day_pos
  have hday' : t.date.day ≤ 31 := t.date.day_le.trans (by unfold monthLength; split_ifs <;> omega)
  have hhour := t.hour_lt
  have hminute := t.minute_lt
  have hsecond := t.second_lt
  simp only [parseRfc3339, matchTimestamp_text]
  rw [tonumber_field (by omega), tonumber_field (by omega), tonumber_field (by omega),
    tonumber_field (by omega), tonumber_field (by omega), tonumber_field (by omega),
    if_neg (by omega), daysFromCivil_eq]
  rw [Timestamp.instant_eq, Time.seconds, cast_epoch]
  refine congrArg Except.ok ?_
  omega

/-- **Expiry dates are exact.**  The day numbers count the dates of the calendar from the first of
January 1970; so the numbers that two timestamps are parsed to are in their order and as far
apart as they are, and a timestamp is expired exactly when its instant is not after the present. -/
theorem expiry_dates_exact :
    (∀ d : Date, daysFromCivil d.next.year d.next.month d.next.day =
      daysFromCivil d.year d.month d.day + 1) ∧
    daysFromCivil 1970 1 1 = 0 ∧
    (∀ s t : Timestamp, ∃ a b : ℤ, parseRfc3339 s.text = .ok a ∧ parseRfc3339 t.text = .ok b ∧
      (s.Before t.toTime ↔ a < b) ∧ b - a = (t.seconds : ℤ) - s.seconds) ∧
    ∀ (t : Timestamp) (now : ℚ), isExpired (some t.text) now = true ↔ (t.instant : ℚ) ≤ now := by
  refine ⟨daysFromCivil_next, by decide, fun s t => ?_, fun t now => ?_⟩
  · refine ⟨s.instant, t.instant, parseRfc3339_text s, parseRfc3339_text t, ?_, ?_⟩
    · rw [Time.before_iff, Timestamp.instant_eq, Timestamp.instant_eq]
      omega
    · rw [Timestamp.instant_eq, Timestamp.instant_eq]
      omega
  · have hne : t.text ≠ [] := by
      intro hnil
      have hlength := congrArg List.length hnil
      rw [Timestamp.text, List.length_append, length_field] at hlength
      cases hlength
    simp only [isExpired, if_neg hne, parseRfc3339_text, decide_eq_true_eq]

end Expires
end Lua
end MppSdk
