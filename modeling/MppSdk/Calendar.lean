import Mathlib.Logic.Function.Iterate
import Mathlib.Tactic.IntervalCases

/-! # The Gregorian calendar

A date of the calendar with the leap years of 4, 100 and 400 years, the date after it, and the
number of days before it.  The number is counted by the lengths of the months alone;
`dayNumber_next` and `next_iterate` say that it counts the dates one after another from the first
day of year 0, and `before_iff` that it puts them in order. -/

namespace Calendar

/-- Every fourth year, of the hundreds every fourth. -/
def Leap (year : ℕ) : Prop := year % 4 = 0 ∧ (year % 100 ≠ 0 ∨ year % 400 = 0)

instance (year : ℕ) : Decidable (Leap year) := inferInstanceAs (Decidable (_ ∧ _))

/-- The days of a month; January is 1. -/
def monthLength (year month : ℕ) : ℕ :=
  if month = 2 then if Leap year then 29 else 28
  else if month = 4 ∨ month = 6 ∨ month = 9 ∨ month = 11 then 30
  else 31

/-- A date of the calendar. -/
@[ext]
structure Date where
  year : ℕ
  month : ℕ
  day : ℕ
  month_pos : 1 ≤ month
  month_le : month ≤ 12
  day_pos : 1 ≤ day
  day_le : day ≤ monthLength year month
deriving DecidableEq

theorem monthLength_pos (year month : ℕ) : 1 ≤ monthLength year month := by
  unfold monthLength
  split_ifs <;> omega

namespace Date

/-- The first of January. -/
def newYear (year : ℕ) : Date :=
  ⟨year, 1, 1, by decide, by decide, by decide, monthLength_pos _ _⟩

/-- The first date. -/
def start : Date := newYear 0

/-- The date after a date. -/
def next (d : Date) : Date :=
  if hday : d.day < monthLength d.year d.month then
    { d with day := d.day + 1, day_pos := by omega, day_le := hday }
  else if hmonth : d.month < 12 then
    { d with
      month := d.month + 1
      day := 1
      month_pos := by omega
      month_le := hmonth
      day_pos := Nat.le_refl 1
      day_le := monthLength_pos _ _ }
  else newYear (d.year + 1)

/-- A date comes before another one. -/
def Before (d e : Date) : Prop :=
  d.year < e.year ∨ d.year = e.year ∧ (d.month < e.month ∨ d.month = e.month ∧ d.day < e.day)

theorem before_or (d e : Date) : d.Before e ∨ d = e ∨ e.Before d := by
  by_cases hsame : d.year = e.year ∧ d.month = e.month ∧ d.day = e.day
  · exact Or.inr (Or.inl (Date.ext hsame.1 hsame.2.1 hsame.2.2))
  · unfold Before
    omega

end Date

/-! ## Counting days -/

/-- The days of the first months of a year. -/
def monthDays (year : ℕ) : ℕ → ℕ
  | 0 => 0
  | month + 1 => monthDays year month + monthLength year (month + 1)

/-- The days of the years before a year. -/
def yearDays : ℕ → ℕ
  | 0 => 0
  | year + 1 => yearDays year + monthDays year 12

/-- The days before a date, from the first day of year 0. -/
def dayNumber (d : Date) : ℕ := yearDays d.year + monthDays d.year (d.month - 1) + (d.day - 1)

theorem monthDays_pred (year : ℕ) {month : ℕ} (h : 1 ≤ month) :
    monthDays year month = monthDays year (month - 1) + monthLength year month := by
  obtain ⟨k, rfl⟩ : ∃ k, month = k + 1 := ⟨month - 1, by omega⟩
  rfl

theorem monthDays_mono (year : ℕ) : Monotone (monthDays year) :=
  monotone_nat_of_le_succ fun _ => Nat.le_add_right _ _

theorem yearDays_mono : Monotone yearDays :=
  monotone_nat_of_le_succ fun _ => Nat.le_add_right _ _

/-- **The number of the next date** is the next number. -/
theorem dayNumber_next (d : Date) : dayNumber d.next = dayNumber d + 1 := by
  have hmonth := d.month_pos
  have hday := d.day_pos
  have hle := d.day_le
  have hpred := monthDays_pred d.year hmonth
  unfold Date.next
  split_ifs with hin hyear
  · simp only [dayNumber]
    omega
  · simp only [dayNumber, Nat.add_sub_cancel, Nat.sub_self]
    omega
  · have hlast : d.month = 12 := by
      have := d.month_le
      omega
    rw [hlast] at hpred hin hle
    show yearDays d.year + monthDays d.year 12 + 0 + 0 = _
    rw [dayNumber, hlast]
    omega

/-- A date lies within its year. -/
theorem dayNumber_lt (d : Date) : dayNumber d < yearDays (d.year + 1) ∧
    dayNumber d < yearDays d.year + monthDays d.year d.month := by
  have hpred := monthDays_pred d.year d.month_pos
  have hyear := monthDays_mono d.year d.month_le
  have hday := d.day_pos
  have hle := d.day_le
  rw [dayNumber, yearDays]
  omega

theorem dayNumber_lt_of_before {d e : Date} (h : d.Before e) : dayNumber d < dayNumber e := by
  obtain ⟨hyear, hmonth⟩ := dayNumber_lt d
  rcases h with hlt | ⟨hsame, hlt | ⟨hmonths, hlt⟩⟩
  · have hle : yearDays (d.year + 1) ≤ yearDays e.year := yearDays_mono hlt
    rw [dayNumber.eq_def e]
    omega
  · have hle := monthDays_mono d.year (show d.month ≤ e.month - 1 by omega)
    rw [dayNumber.eq_def e, ← hsame]
    omega
  · have hpos := d.day_pos
    rw [dayNumber, dayNumber, ← hsame, ← hmonths]
    omega

/-- **The numbers are in the order of the dates.** -/
theorem before_iff {d e : Date} : d.Before e ↔ dayNumber d < dayNumber e := by
  refine ⟨dayNumber_lt_of_before, fun hlt => ?_⟩
  rcases d.before_or e with h | rfl | h
  · exact h
  · exact absurd hlt (Nat.lt_irrefl _)
  · exact absurd (dayNumber_lt_of_before h) (Nat.lt_asymm hlt)

theorem dayNumber_injective : Function.Injective dayNumber := by
  intro d e h
  rcases d.before_or e with hlt | rfl | hlt
  · exact absurd h (dayNumber_lt_of_before hlt).ne
  · rfl
  · exact absurd h (dayNumber_lt_of_before hlt).ne'

/-- **Every date is reached** from the first one in as many days as its number. -/
theorem next_iterate (d : Date) : Date.next^[dayNumber d] Date.start = d := by
  have hcount : ∀ n, dayNumber (Date.next^[n] Date.start) = n := by
    intro n
    induction n with
    | zero => rfl
    | succ n ih => rw [Function.iterate_succ_apply', dayNumber_next, ih]
  exact dayNumber_injective (hcount _)

/-! ## Closed forms -/

theorem monthDays_twelve (year : ℕ) : monthDays year 12 = if Leap year then 366 else 365 := by
  by_cases h : Leap year
  · simp [monthDays, monthLength, h]
  · simp [monthDays, monthLength, h]

/-- A leap year is counted with the fourth years and the four hundredth, less the hundredth. -/
theorem leap_count (year : ℕ) : (if Leap year then 1 else 0) + (if 100 ∣ year then 1 else 0) =
    (if 4 ∣ year then 1 else 0) + if 400 ∣ year then 1 else 0 := by
  by_cases h400 : 400 ∣ year
  · have hleap : Leap year := ⟨by omega, Or.inr (by omega)⟩
    rw [if_pos hleap, if_pos (show 100 ∣ year by omega), if_pos (show 4 ∣ year by omega),
      if_pos h400]
  · by_cases h100 : 100 ∣ year
    · have hleap : ¬ Leap year := fun ⟨_, h⟩ => by omega
      rw [if_neg hleap, if_pos h100, if_pos (show 4 ∣ year by omega), if_neg h400]
    · by_cases h4 : 4 ∣ year
      · have hleap : Leap year := ⟨by omega, Or.inl (by omega)⟩
        rw [if_pos hleap, if_neg h100, if_pos h4, if_neg h400]
      · have hleap : ¬ Leap year := fun ⟨h, _⟩ => by omega
        rw [if_neg hleap, if_neg h100, if_neg h4, if_neg h400]

/-- The days of the years up to a year, with the leap years counted. -/
theorem yearDays_succ (year : ℕ) : yearDays (year + 1) + year / 100 =
    365 * (year + 1) + year / 4 + year / 400 + 1 := by
  induction year with
  | zero => rfl
  | succ year ih =>
    have hcount := leap_count (year + 1)
    rw [yearDays, monthDays_twelve, Nat.succ_div, Nat.succ_div, Nat.succ_div]
    have hleap : (if Leap (year + 1) then 366 else 365) =
        365 + if Leap (year + 1) then 1 else 0 := by
      split_ifs <;> rfl
    rw [hleap]
    omega

/-- The days of the first months: the first two, and then five months of 153 days again and
again. -/
theorem monthDays_eq (year : ℕ) {month : ℕ} (hpos : 1 ≤ month) (hle : month ≤ 12) :
    monthDays year (month - 1) = if month ≤ 2 then 31 * (month - 1)
      else (153 * (month - 3) + 2) / 5 + if Leap year then 60 else 59 := by
  by_cases h : Leap year
  · interval_cases month <;> simp [monthDays, monthLength, h]
  · interval_cases month <;> simp [monthDays, monthLength, h]

/-! ## Times -/

/-- A second of a date. -/
structure Time where
  date : Date
  hour : ℕ
  minute : ℕ
  second : ℕ
  hour_lt : hour < 24
  minute_lt : minute < 60
  second_lt : second < 60

namespace Time

/-- The seconds before a time, from the first day of year 0. -/
def seconds (t : Time) : ℕ := ((dayNumber t.date * 24 + t.hour) * 60 + t.minute) * 60 + t.second

/-- A time comes before another one. -/
def Before (s t : Time) : Prop :=
  s.date.Before t.date ∨ s.date = t.date ∧ (s.hour < t.hour ∨ s.hour = t.hour ∧
    (s.minute < t.minute ∨ s.minute = t.minute ∧ s.second < t.second))

/-- **The seconds are in the order of the times.** -/
theorem before_iff {s t : Time} : s.Before t ↔ s.seconds < t.seconds := by
  have hs := s.hour_lt
  have hs' := s.minute_lt
  have hs'' := s.second_lt
  have ht := t.hour_lt
  have ht' := t.minute_lt
  have ht'' := t.second_lt
  have hsame : s.date = t.date ↔ dayNumber s.date = dayNumber t.date :=
    dayNumber_injective.eq_iff.symm
  rw [Before, Calendar.before_iff, hsame, seconds, seconds]
  omega

end Time
end Calendar
