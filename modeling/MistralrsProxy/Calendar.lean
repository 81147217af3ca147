import Mathlib.Tactic.IntervalCases
import Mathlib.Tactic.Ring

/-! The proleptic Gregorian calendar, for years that are not negative: the length of months and years, and the number of
days between two dates by adding those lengths up. A year that is counted from the first of March has its leap day at
the end, which gives a closed form for the number. Nothing here refers to a particular program. -/

namespace Calendar

def isLeap (year : Nat) : Bool := year % 4 == 0 && (year % 100 != 0 || year % 400 == 0)

def yearLength (year : Nat) : Nat := if isLeap year then 366 else 365

def daysInMonth (year month : Nat) : Nat :=
  if month = 2 then if isLeap year then 29 else 28
  else if month = 4 ∨ month = 6 ∨ month = 9 ∨ month = 11 then 30
  else 31

@[ext] structure Date where
  year : Nat
  month : Nat
  day : Nat
  deriving DecidableEq, Repr

/-- The date is on the calendar. -/
structure Date.Valid (date : Date) : Prop where
  month_pos : 1 ≤ date.month
  month_le : date.month ≤ 12
  day_pos : 1 ≤ date.day
  day_le : date.day ≤ daysInMonth date.year date.month

/-- The days from the first of January of one year to that of another, `count` years later. -/
def daysOfYears (base : Nat) : Nat → Nat
  | 0 => 0
  | count + 1 => daysOfYears base count + yearLength (base + count)

/-- The days of a year in front of one of its months. -/
def daysBeforeMonth (year : Nat) : Nat → Nat
  | 0 => 0
  | month + 1 => daysBeforeMonth year month + if month = 0 then 0 else daysInMonth year month

/-- The days from the first of January of `base` to a date. -/
def dayNumber (base : Nat) (date : Date) : Nat :=
  daysOfYears base (date.year - base) + daysBeforeMonth date.year date.month + (date.day - 1)

/-- The days from the first of March of the year zero to the first of March of a year. -/
def marchDays (year : Nat) : Nat := 365 * year + year / 4 - year / 100 + year / 400

theorem isLeap_iff {year : Nat} : isLeap year = true ↔ year % 4 = 0 ∧ (year % 100 ≠ 0 ∨ year % 400 = 0) := by
  simp [isLeap]

section Closed

theorem marchDays_succ (year : Nat) : marchDays (year + 1) = marchDays year + yearLength (year + 1) := by
  have hcentury : 100 ∣ year + 1 → 4 ∣ year + 1 := fun h => Dvd.dvd.trans (by decide) h
  have hera : 400 ∣ year + 1 → 100 ∣ year + 1 := fun h => Dvd.dvd.trans (by decide) h
  have hfew : year / 100 ≤ year := Nat.div_le_self year 100
  have hleap : isLeap (year + 1) = true ↔ 4 ∣ year + 1 ∧ (¬100 ∣ year + 1 ∨ 400 ∣ year + 1) := by
    simp only [isLeap_iff, Nat.dvd_iff_mod_eq_zero, ne_eq]
  unfold marchDays yearLength
  rw [Nat.succ_div, Nat.succ_div, Nat.succ_div]
  simp only [hleap]
  by_cases hfour : 4 ∣ year + 1
  · by_cases hhundred : 100 ∣ year + 1
    · by_cases hfourHundred : 400 ∣ year + 1
      · simp only [hfour, hhundred, hfourHundred, if_true, true_and, or_true]
        omega
      · simp only [hfour, hhundred, hfourHundred, if_true, if_false, true_and, or_false, not_true]
        omega
    · have hnot : ¬400 ∣ year + 1 := fun h => hhundred (hera h)
      simp only [hfour, hhundred, hnot, if_true, if_false, true_and, or_false, not_false_eq_true]
      omega
  · have hnot : ¬100 ∣ year + 1 := fun h => hfour (hcentury h)
    have hnot' : ¬400 ∣ year + 1 := fun h => hnot (hera h)
    simp only [hfour, hnot, hnot', if_false, false_and]
    omega

theorem marchDays_mono {year year' : Nat} (h : year ≤ year') : marchDays year ≤ marchDays year' := by
  induction h with
  | refl => exact Nat.le_refl _
  | step h ih =>
      rw [Nat.succ_eq_add_one, marchDays_succ]
      omega

/-- The days of whole years, by the days up to the first of March before each of the two. -/
theorem daysOfYears_add (base count : Nat) :
    daysOfYears (base + 1) count + marchDays base = marchDays (base + count) := by
  induction count with
  | zero => simp [daysOfYears]
  | succ count ih =>
      have hnext := marchDays_succ (base + count)
      have hyear : base + 1 + count = base + count + 1 := by omega
      rw [daysOfYears, hyear]
      show _ = marchDays (base + count + 1)
      omega

theorem daysBeforeMonth_eq (year : Nat) {month : Nat} (hpos : 1 ≤ month) (hle : month ≤ 12) :
    daysBeforeMonth year month =
      if month = 1 then 0 else if month = 2 then 31
      else (if isLeap year then 60 else 59) + (153 * (month - 3) + 2) / 5 := by
  cases hleap : isLeap year <;> interval_cases month <;> simp [daysBeforeMonth, daysInMonth, hleap]

theorem daysBeforeMonth_le (year : Nat) {month : Nat} (hle : month ≤ 12) :
    daysBeforeMonth year month + (if month = 0 then 0 else daysInMonth year month) ≤ yearLength year := by
  cases hleap : isLeap year <;> interval_cases month <;> simp [daysBeforeMonth, daysInMonth, yearLength, hleap]

/-- The days from the first of March of the year zero to a date. -/
def marchNumber (date : Date) : Nat :=
  if 3 ≤ date.month then marchDays date.year + (153 * (date.month - 3) + 2) / 5 + (date.day - 1)
  else marchDays (date.year - 1) + (153 * (date.month + 9) + 2) / 5 + (date.day - 1)

/-- Counting from a January and counting from the first of all Marches differ by a constant. -/
theorem dayNumber_add {base : Nat} {date : Date} (hbase : base + 1 ≤ date.year) (hpos : 1 ≤ date.month)
    (hle : date.month ≤ 12) : dayNumber (base + 1) date + marchDays base + 306 = marchNumber date := by
  have hyears := daysOfYears_add base (date.year - (base + 1))
  have hlast : base + (date.year - (base + 1)) = date.year - 1 := by omega
  have hnext := marchDays_succ (date.year - 1)
  have hyear : date.year - 1 + 1 = date.year := by omega
  rw [hlast] at hyears
  rw [hyear, yearLength] at hnext
  unfold dayNumber marchNumber
  rw [daysBeforeMonth_eq date.year hpos hle]
  by_cases hmarch : 3 ≤ date.month
  · rw [if_pos hmarch, if_neg (by omega), if_neg (by omega)]
    split_ifs at hnext ⊢ <;> omega
  · rw [if_neg hmarch]
    by_cases hjanuary : date.month = 1
    · rw [if_pos hjanuary, hjanuary]
      omega
    · obtain hfebruary : date.month = 2 := by omega
      rw [if_neg hjanuary, if_pos hfebruary, hfebruary]
      omega

/-- The date so many days after the first of March. -/
def ofMarch (year dayOfYear : Nat) : Date :=
  let shiftedMonth := (5 * dayOfYear + 2) / 153
  let month := if shiftedMonth < 10 then shiftedMonth + 3 else shiftedMonth - 9
  ⟨year + if month ≤ 2 then 1 else 0, month, dayOfYear - (153 * shiftedMonth + 2) / 5 + 1⟩

theorem marchNumber_ofMarch (year : Nat) {dayOfYear : Nat} (h : dayOfYear ≤ 365) :
    marchNumber (ofMarch year dayOfYear) = marchDays year + dayOfYear := by
  have hmonth : (153 * ((5 * dayOfYear + 2) / 153) + 2) / 5 ≤ dayOfYear := by omega
  by_cases hearly : (5 * dayOfYear + 2) / 153 < 10
  · have hlate : ¬(5 * dayOfYear + 2) / 153 + 3 ≤ 2 := by omega
    simp only [marchNumber, ofMarch, if_pos hearly, if_neg hlate, Nat.add_sub_cancel, Nat.add_zero]
    rw [if_pos (by omega)]
    omega
  · have hindex : (5 * dayOfYear + 2) / 153 - 9 + 9 = (5 * dayOfYear + 2) / 153 := by omega
    have hjanuary : (5 * dayOfYear + 2) / 153 - 9 ≤ 2 := by omega
    simp only [marchNumber, ofMarch, if_neg hearly, if_pos hjanuary, Nat.add_sub_cancel, hindex]
    rw [if_neg (by omega)]
    omega

/-- The months that belong to the next year begin 306 days after the first of March. -/
theorem ofMarch_month_le (year : Nat) {dayOfYear : Nat} (hfrom : 306 ≤ dayOfYear) (hto : dayOfYear ≤ 365) :
    (ofMarch year dayOfYear).month ≤ 2 := by
  simp only [ofMarch]
  rw [if_neg (by omega)]
  omega

theorem ofMarch_valid {year dayOfYear : Nat} (h : dayOfYear < yearLength (year + 1)) :
    (ofMarch year dayOfYear).Valid := by
  have hle : dayOfYear ≤ 365 := by
    unfold yearLength at h
    split_ifs at h <;> omega
  have hday : (153 * ((5 * dayOfYear + 2) / 153) + 2) / 5 ≤ dayOfYear := by omega
  have hshifted : (5 * dayOfYear + 2) / 153 ≤ 11 := by omega
  refine ⟨?_, ?_, by simp [ofMarch], ?_⟩
  · simp only [ofMarch]
    split <;> omega
  · simp only [ofMarch]
    split <;> omega
  · generalize hmonth : (5 * dayOfYear + 2) / 153 = shiftedMonth at hday hshifted
    by_cases hfebruary : shiftedMonth = 11
    · -- Only February can be longer in one year than in another.
      subst hfebruary
      unfold yearLength at h
      simp only [ofMarch, hmonth, daysInMonth]
      norm_num
      split_ifs at h ⊢ <;> omega
    · simp only [ofMarch, hmonth]
      interval_cases shiftedMonth
      all_goals simp only [daysInMonth]
      all_goals norm_num
      all_goals omega

/-- A day of four hundred years from the first of March, split into centuries, cycles of four years, years and days; the
last day of a leap year is the 366th. -/
structure EraDay (dayOfEra century cycle year dayOfYear : Nat) : Prop where
  century_lt : century < 4
  cycle_lt : cycle < 25
  year_lt : year < 4
  dayOfYear_le : dayOfYear ≤ 365
  leap : dayOfYear = 365 → year = 3 ∧ (cycle = 24 → century = 3)
  split : dayOfEra = 36524 * century + 1461 * cycle + 365 * year + dayOfYear

theorem exists_eraDay {dayOfEra : Nat} (h : dayOfEra < 146097) :
    ∃ century cycle year dayOfYear, EraDay dayOfEra century cycle year dayOfYear := by
  -- The last century has one day more than the others, and so has the last year of a cycle.
  obtain ⟨century, rest, hcentury, hrest, hdays⟩ : ∃ century rest, century < 4 ∧
      rest < (if century = 3 then 36525 else 36524) ∧ dayOfEra = 36524 * century + rest := by
    by_cases hlast : dayOfEra = 146096
    · exact ⟨3, 36524, by omega, by simp, by omega⟩
    · refine ⟨dayOfEra / 36524, dayOfEra % 36524, by omega, ?_, by omega⟩
      split_ifs <;> omega
  obtain ⟨year, dayOfYear, hyear, hdayOfYear, hsplit⟩ : ∃ year dayOfYear, year < 4 ∧
      (dayOfYear ≤ 364 ∨ dayOfYear = 365 ∧ year = 3) ∧ rest % 1461 = 365 * year + dayOfYear := by
    by_cases hlast : rest % 1461 = 1460
    · exact ⟨3, 365, by omega, .inr ⟨rfl, rfl⟩, by omega⟩
    · exact ⟨rest % 1461 / 365, rest % 1461 % 365, by omega, .inl (by omega), by omega⟩
  refine ⟨century, rest / 1461, year, dayOfYear, hcentury, ?_, hyear, by omega, ?_, by omega⟩
  · split_ifs at hrest <;> omega
  · intro hleap
    split_ifs at hrest <;> omega

namespace EraDay

variable {dayOfEra century cycle year dayOfYear : Nat}

theorem marchDays_eq (h : EraDay dayOfEra century cycle year dayOfYear) (era : Nat) :
    marchDays (400 * era + (100 * century + 4 * cycle + year)) + dayOfYear = 146097 * era + dayOfEra := by
  obtain ⟨hcentury, hcycle, hyear, -, -, hsplit⟩ := h
  have hfour : (400 * era + (100 * century + 4 * cycle + year)) / 4 = 100 * era + 25 * century + cycle := by omega
  have hhundred : (400 * era + (100 * century + 4 * cycle + year)) / 100 = 4 * era + century := by omega
  have hfourHundred : (400 * era + (100 * century + 4 * cycle + year)) / 400 = era := by omega
  rw [marchDays, hfour, hhundred, hfourHundred]
  omega

theorem dayOfYear_lt (h : EraDay dayOfEra century cycle year dayOfYear) (era : Nat) :
    dayOfYear < yearLength (400 * era + (100 * century + 4 * cycle + year) + 1) := by
  obtain ⟨hcentury, hcycle, hyear, hdayOfYear, hleap, -⟩ := h
  unfold yearLength
  split_ifs with hlong
  · omega
  · rw [isLeap_iff] at hlong
    by_contra hlast
    obtain ⟨rfl, hcentury⟩ := hleap (by omega)
    refine hlong ⟨by omega, ?_⟩
    by_cases hend : cycle = 24
    · obtain rfl := hcentury hend
      exact .inr (by omega)
    · exact .inl (by omega)

end EraDay

end Closed

section Order

variable {base : Nat} {left right : Date}

theorem daysOfYears_mono {count count' : Nat} (h : count ≤ count') :
    daysOfYears base count ≤ daysOfYears base count' := by
  induction h with
  | refl => exact Nat.le_refl _
  | step h ih =>
      rw [daysOfYears]
      omega

theorem daysBeforeMonth_mono (year : Nat) {month month' : Nat} (h : month ≤ month') :
    daysBeforeMonth year month ≤ daysBeforeMonth year month' := by
  induction h with
  | refl => exact Nat.le_refl _
  | step h ih =>
      rw [daysBeforeMonth]
      omega

/-- Dates in the order of the calendar. -/
def Date.Before (left right : Date) : Prop :=
  left.year < right.year ∨ left.year = right.year ∧
    (left.month < right.month ∨ left.month = right.month ∧ left.day < right.day)

theorem dayNumber_lt_of_before (hleft : left.Valid) (hright : right.Valid) (hbase : base ≤ left.year)
    (h : left.Before right) : dayNumber base left < dayNumber base right := by
  have hdays := hleft.day_le
  have hpos := hleft.day_pos
  have hmonth := hleft.month_pos
  have hday := hright.day_pos
  rcases h with hyear | ⟨hyear, hmonths | ⟨hmonths, hdays'⟩⟩
  · have hwithin := daysBeforeMonth_le left.year hleft.month_le
    rw [if_neg (by omega)] at hwithin
    have hnext : daysOfYears base (left.year - base + 1) ≤ daysOfYears base (right.year - base) :=
      daysOfYears_mono (by omega)
    have hlast : base + (left.year - base) = left.year := by omega
    rw [daysOfYears, hlast] at hnext
    unfold dayNumber
    omega
  · have hnext := daysBeforeMonth_mono left.year (Nat.succ_le_of_lt hmonths)
    rw [Nat.succ_eq_add_one, daysBeforeMonth, if_neg (by omega)] at hnext
    unfold dayNumber
    rw [← hyear]
    omega
  · unfold dayNumber
    rw [← hyear, ← hmonths]
    omega

theorem Date.before_trichotomy (left right : Date) : left.Before right ∨ left = right ∨ right.Before left := by
  obtain ⟨year, month, day⟩ := left
  obtain ⟨year', month', day'⟩ := right
  simp only [Date.Before, Date.mk.injEq]
  omega

/-- The number of days orders the dates. -/
theorem dayNumber_lt_iff (hleft : left.Valid) (hright : right.Valid) (hbase : base ≤ left.year)
    (hbase' : base ≤ right.year) : dayNumber base left < dayNumber base right ↔ left.Before right := by
  constructor
  · intro h
    rcases Date.before_trichotomy left right with hbefore | rfl | hafter
    · exact hbefore
    · exact absurd h (Nat.lt_irrefl _)
    · exact absurd (dayNumber_lt_of_before hright hleft hbase' hafter) (by omega)
  · exact dayNumber_lt_of_before hleft hright hbase

end Order

end Calendar
