import MistralrsProxy.Calendar
import MistralrsProxy.Decimal

/-! Timestamps of the log as text. The date is computed from a number of days in checked 64-bit arithmetic; it is the
date that the calendar puts at that number, so the text can be converted back, and texts are ordered as the instants are
while the year has four digits. -/

open Calendar Decimal

namespace MistralrsProxy

/-- A result of type `i64`; none if the operation overflows. -/
def checkI64 (value : Int) : Option Int := if -2 ^ 63 ≤ value ∧ value < 2 ^ 63 then some value else none

/-- A cast from `i64` to `u32`. -/
def asU32 (value : Int) : Nat := (value % 2 ^ 32).toNat

/-- A cast from `u64` to `i64`. -/
def asI64 (value : Nat) : Int := if value < 2 ^ 63 then value else value - 2 ^ 64

/-- The year of an era that a day belongs to. -/
def eraYear (dayOfEra : Int) : Option Int := do
  let first ← checkI64 (dayOfEra - dayOfEra.tdiv 1460)
  let second ← checkI64 (first + dayOfEra.tdiv 36524)
  let third ← checkI64 (second - dayOfEra.tdiv 146096)
  checkI64 (third.tdiv 365)

/-- The day of that year, counted from the first of March. -/
def eraDayOfYear (dayOfEra yearOfEra : Int) : Option Int := do
  let plain ← checkI64 (365 * yearOfEra)
  let julian ← checkI64 (plain + yearOfEra.tdiv 4)
  let before ← checkI64 (julian - yearOfEra.tdiv 100)
  checkI64 (dayOfEra - before)

/-- Month and day of the month, before they are cast. -/
def monthAndDay (dayOfYear : Int) : Option (Int × Int) := do
  let fivefold ← checkI64 (5 * dayOfYear)
  let rounded ← checkI64 (fivefold + 2)
  let shiftedMonth ← checkI64 (rounded.tdiv 153)
  let scaled ← checkI64 (153 * shiftedMonth)
  let monthDays ← checkI64 (scaled + 2)
  let dayOfMonth ← checkI64 (dayOfYear - monthDays.tdiv 5)
  let day ← checkI64 (dayOfMonth + 1)
  let month ← if shiftedMonth < 10 then checkI64 (shiftedMonth + 3) else checkI64 (shiftedMonth - 9)
  pure (month, day)

/-- `civil_from_days`: year, month and day; none if an operation overflows. -/
def civilFromDays (days : Int) : Option (Int × Nat × Nat) := do
  let shifted ← checkI64 (days + 719468)
  let era ← checkI64 (shifted / 146097)
  let dayOfEra ← checkI64 (shifted % 146097)
  let yearOfEra ← eraYear dayOfEra
  let cycles ← checkI64 (era * 400)
  let year ← checkI64 (yearOfEra + cycles)
  let dayOfYear ← eraDayOfYear dayOfEra yearOfEra
  let (month, day) ← monthAndDay dayOfYear
  let year ← checkI64 (year + if asU32 month ≤ 2 then 1 else 0)
  pure (year, asU32 month, asU32 day)

/-- `{value:0width}` of a signed number. -/
def padI64 (width : Nat) (value : Int) : List Char :=
  if value < 0 then '-' :: pad (width - 1) value.natAbs else pad width value.natAbs

/-- `format_timestamp`; none if an operation overflows. -/
def formatTimestamp (unixMs : UInt64) : Option (List Char) :=
  let seconds := unixMs.toNat / 1000
  let millis := unixMs.toNat % 1000
  (civilFromDays (asI64 (seconds / 86400))).map fun (year, month, day) =>
    let time := seconds % 86400
    padI64 4 year ++ '-' :: (pad 2 month ++ '-' :: (pad 2 day ++ 'T' :: (pad 2 (time / 3600) ++ ':' ::
      (pad 2 (time % 3600 / 60) ++ ':' :: (pad 2 (time % 60) ++ '.' :: (pad 3 millis ++ ['Z']))))))

/-- A date with a time of day. -/
structure CivilTime where
  date : Date
  hour : Nat
  minute : Nat
  second : Nat
  millis : Nat
  deriving DecidableEq, Repr

namespace CivilTime

/-- The date is on the calendar and the time of day in range. -/
structure Valid (civil : CivilTime) : Prop where
  date : civil.date.Valid
  hour : civil.hour < 24
  minute : civil.minute < 60
  second : civil.second < 60
  millis : civil.millis < 1000

/-- The milliseconds since the beginning of 1970. -/
def unixMs (civil : CivilTime) : Nat :=
  (((dayNumber 1970 civil.date * 24 + civil.hour) * 60 + civil.minute) * 60 + civil.second) * 1000 + civil.millis

def print (civil : CivilTime) : List Char :=
  pad 4 civil.date.year ++ '-' :: (pad 2 civil.date.month ++ '-' :: (pad 2 civil.date.day ++ 'T' ::
    (pad 2 civil.hour ++ ':' :: (pad 2 civil.minute ++
      ':' :: (pad 2 civil.second ++ '.' :: (pad 3 civil.millis ++ ['Z']))))))

/-- The numbers of a text, between its other characters. -/
def parse (text : List Char) : Option CivilTime :=
  match (text.splitOnP fun char => !char.isDigit).map Decimal.read with
  | [year, month, day, hour, minute, second, millis, _] => some ⟨⟨year, month, day⟩, hour, minute, second, millis⟩
  | _ => none

/-- What is printed can be read. -/
theorem parse_print (civil : CivilTime) : parse civil.print = some civil := by
  have hfield : ∀ (width value : Nat) (separator : Char) (rest : List Char), separator.isDigit = false →
      (pad width value ++ separator :: rest).splitOnP (fun char => !char.isDigit) =
        pad width value :: rest.splitOnP fun char => !char.isDigit := by
    intro width value separator rest hseparator
    refine List.splitOnP_append_cons_of_forall_mem ?_ separator (by rw [hseparator]; rfl) rest
    intro char hchar
    rw [isDigit_pad char hchar]
    rfl
  have hend : (pad 3 civil.millis ++ ['Z']).splitOnP (fun char => !char.isDigit) = [pad 3 civil.millis, []] :=
    hfield 3 civil.millis 'Z' [] (by decide)
  have hsplit : civil.print.splitOnP (fun char => !char.isDigit) =
      [pad 4 civil.date.year, pad 2 civil.date.month, pad 2 civil.date.day, pad 2 civil.hour, pad 2 civil.minute,
        pad 2 civil.second, pad 3 civil.millis, []] := by
    unfold print
    rw [hfield _ _ '-' _ (by decide), hfield _ _ '-' _ (by decide), hfield _ _ 'T' _ (by decide),
      hfield _ _ ':' _ (by decide), hfield _ _ ':' _ (by decide), hfield _ _ '.' _ (by decide), hend]
  rw [parse, hsplit]
  simp only [List.map_cons, List.map_nil, read_pad]

end CivilTime

section YearOfEra

variable {dayOfEra century cycle year dayOfYear : Nat}

theorem centuries_eq (h : EraDay dayOfEra century cycle year dayOfYear) :
    dayOfEra / 36524 = century + dayOfEra / 146096 := by
  obtain ⟨hcentury, hcycle, hyear, hdayOfYear, hleap, hsplit⟩ := h
  interval_cases century <;> omega

theorem cycles_eq (h : EraDay dayOfEra century cycle year dayOfYear) :
    dayOfEra / 1460 = 25 * century + cycle + (24 * century + cycle + 365 * year + dayOfYear) / 1460 := by
  have hsplit := h.split
  omega

/-- One day more is taken off in some years, but never from one that has no day to spare. -/
theorem extra_le (h : EraDay dayOfEra century cycle year dayOfYear) :
    (24 * century + cycle + 365 * year + dayOfYear) / 1460 ≤ dayOfYear ∧
      dayOfYear ≤ (24 * century + cycle + 365 * year + dayOfYear) / 1460 + 364 := by
  obtain ⟨hcentury, hcycle, hyear, hdayOfYear, hleap, -⟩ := h
  omega

/-- The year of an era: the days that are taken off make every year as long as the plain ones. -/
theorem yearOfEra_eq (h : EraDay dayOfEra century cycle year dayOfYear) :
    (dayOfEra - dayOfEra / 1460 + dayOfEra / 36524 - dayOfEra / 146096) / 365 = 100 * century + 4 * cycle + year := by
  have hsplit := h.split
  have hextra := extra_le h
  have hplain : dayOfEra - dayOfEra / 1460 + dayOfEra / 36524 - dayOfEra / 146096 =
      365 * (100 * century + 4 * cycle + year) +
        (dayOfYear - (24 * century + cycle + 365 * year + dayOfYear) / 1460) := by
    rw [centuries_eq h, cycles_eq h]
    generalize (24 * century + cycle + 365 * year + dayOfYear) / 1460 = extra at hextra ⊢
    omega
  rw [hplain, Nat.mul_add_div (by omega), Nat.div_eq_of_lt (by omega), Nat.add_zero]

end YearOfEra

theorem checkI64_natCast {value : Int} {result : Nat} (h : value = result) (hlt : result < 2 ^ 63) :
    checkI64 value = some (result : Int) := by
  rw [h, checkI64, if_pos (by omega)]

theorem asU32_natCast {value : Nat} (h : value < 2 ^ 32) : asU32 value = value := by
  unfold asU32
  omega

theorem bind_of_some {α β : Type} {step : Option α} {result : α} (h : step = some result) (next : α → Option β) :
    (step >>= next) = next result := by
  rw [h]
  rfl

/-- One step of a checked computation on natural numbers. -/
theorem checkI64_bind {α : Type} {value : Int} {result : Nat} (h : value = result) (hlt : result < 2 ^ 63)
    (next : Int → Option α) : (checkI64 value >>= next) = next result :=
  bind_of_some (checkI64_natCast h hlt) next

section Execution

variable {dayOfEra century cycle year dayOfYear : Nat}

theorem eraYear_eq (h : EraDay dayOfEra century cycle year dayOfYear) (hlt : dayOfEra < 146097) :
    eraYear dayOfEra = some ((100 * century + 4 * cycle + year : Nat) : Int) := by
  have hyear := yearOfEra_eq h
  have hquarter : dayOfEra / 1460 ≤ dayOfEra := Nat.div_le_self _ _
  have hera : dayOfEra / 146096 ≤ dayOfEra / 36524 := Nat.div_le_div_left (by decide) (by decide)
  have hcentury : dayOfEra / 36524 ≤ dayOfEra := Nat.div_le_self _ _
  have hfirst : (dayOfEra : Int).tdiv 1460 = (dayOfEra / 1460 : Nat) := rfl
  have hsecond : (dayOfEra : Int).tdiv 36524 = (dayOfEra / 36524 : Nat) := rfl
  have hthird : (dayOfEra : Int).tdiv 146096 = (dayOfEra / 146096 : Nat) := rfl
  generalize hsum : dayOfEra - dayOfEra / 1460 + dayOfEra / 36524 - dayOfEra / 146096 = sum at hyear
  have hlast : (sum : Int).tdiv 365 = (sum / 365 : Nat) := rfl
  rw [eraYear, hfirst, hsecond, hthird]
  generalize dayOfEra / 1460 = quarter at *
  generalize dayOfEra / 36524 = centuries at *
  generalize dayOfEra / 146096 = eras at *
  rw [checkI64_bind (show _ = ((dayOfEra - quarter : Nat) : Int) by omega) (by omega),
    checkI64_bind (show _ = ((dayOfEra - quarter + centuries : Nat) : Int) by omega) (by omega),
    checkI64_bind (show _ = (sum : Int) by omega) (by omega), hlast]
  exact checkI64_natCast (by rw [hyear]) (by omega)

theorem eraDayOfYear_eq (h : EraDay dayOfEra century cycle year dayOfYear) :
    eraDayOfYear dayOfEra ((100 * century + 4 * cycle + year : Nat) : Int) = some (dayOfYear : Int) := by
  obtain ⟨hcentury, hcycle, hyear, hdayOfYear, -, hsplit⟩ := h
  obtain ⟨yearOfEra, hyearOfEra⟩ : ∃ yearOfEra, yearOfEra = 100 * century + 4 * cycle + year := ⟨_, rfl⟩
  have hfour : (yearOfEra : Int).tdiv 4 = (25 * century + cycle : Nat) := by
    have hdiv : yearOfEra / 4 = 25 * century + cycle := by omega
    rw [← hdiv]
    rfl
  have hhundred : (yearOfEra : Int).tdiv 100 = (century : Nat) := by
    have hdiv : yearOfEra / 100 = century := by omega
    rw [← hdiv]
    rfl
  rw [← hyearOfEra, eraDayOfYear, hfour, hhundred,
    checkI64_bind (show _ = ((365 * yearOfEra : Nat) : Int) by omega) (by omega),
    checkI64_bind (show _ = ((365 * yearOfEra + (25 * century + cycle) : Nat) : Int) by omega) (by omega),
    checkI64_bind (show _ = ((36524 * century + 1461 * cycle + 365 * year : Nat) : Int) by omega) (by omega)]
  exact checkI64_natCast (by omega) (by omega)

theorem monthAndDay_eq (base : Nat) (h : dayOfYear ≤ 365) :
    monthAndDay dayOfYear = some (((ofMarch base dayOfYear).month : Int), ((ofMarch base dayOfYear).day : Int)) := by
  have hmonths : (153 * ((5 * dayOfYear + 2) / 153) + 2) / 5 ≤ dayOfYear := by omega
  have hshifted : ((5 * dayOfYear + 2 : Nat) : Int).tdiv 153 = ((5 * dayOfYear + 2) / 153 : Nat) := rfl
  simp only [ofMarch]
  generalize hshiftedMonth : (5 * dayOfYear + 2) / 153 = shiftedMonth at *
  have hfifth : ((153 * shiftedMonth + 2 : Nat) : Int).tdiv 5 = ((153 * shiftedMonth + 2) / 5 : Nat) := rfl
  generalize hmonthDays : (153 * shiftedMonth + 2) / 5 = monthDays at *
  rw [monthAndDay, checkI64_bind (show _ = ((5 * dayOfYear : Nat) : Int) by omega) (by omega),
    checkI64_bind (show _ = ((5 * dayOfYear + 2 : Nat) : Int) by omega) (by omega), hshifted,
    checkI64_bind (show _ = (shiftedMonth : Int) by omega) (by omega),
    checkI64_bind (show _ = ((153 * shiftedMonth : Nat) : Int) by omega) (by omega),
    checkI64_bind (show _ = ((153 * shiftedMonth + 2 : Nat) : Int) by omega) (by omega), hfifth,
    checkI64_bind (show _ = ((dayOfYear - monthDays : Nat) : Int) by omega) (by omega),
    checkI64_bind (show _ = ((dayOfYear - monthDays + 1 : Nat) : Int) by omega) (by omega)]
  by_cases hearly : shiftedMonth < 10
  · rw [if_pos (by omega), if_pos hearly, checkI64_bind (show _ = ((shiftedMonth + 3 : Nat) : Int) by omega) (by omega)]
    rfl
  · rw [if_neg (by omega), if_neg hearly, checkI64_bind (show _ = ((shiftedMonth - 9 : Nat) : Int) by omega) (by omega)]
    rfl

end Execution

/-- No operation overflows for any day that 64 bits of milliseconds reach, and the date is the one that the calendar has
at that number of days. -/
theorem civilFromDays_spec {days : Nat} (h : days ≤ 2 ^ 64 / 86400000) :
    ∃ date : Date, civilFromDays days = some ((date.year : Int), date.month, date.day) ∧ date.Valid ∧ 1970 ≤ date.year ∧
      dayNumber 1970 date = days := by
  obtain ⟨era, dayOfEra, hshifted, hlt⟩ : ∃ era dayOfEra, days + 719468 = 146097 * era + dayOfEra ∧ dayOfEra < 146097 :=
    ⟨(days + 719468) / 146097, (days + 719468) % 146097, by omega, by omega⟩
  obtain ⟨century, cycle, year, dayOfYear, heraDay⟩ := exists_eraDay hlt
  have hmarch := heraDay.marchDays_eq era
  have hvalid := ofMarch_valid (heraDay.dayOfYear_lt era)
  have hnumber := marchNumber_ofMarch (400 * era + (100 * century + 4 * cycle + year)) heraDay.dayOfYear_le
  have heraYear := eraYear_eq heraDay hlt
  have heraDayOfYear := eraDayOfYear_eq heraDay
  have hmonthAndDay := monthAndDay_eq (400 * era + (100 * century + 4 * cycle + year)) heraDay.dayOfYear_le
  obtain ⟨yearOfEra, hyearOfEra⟩ : ∃ yearOfEra, yearOfEra = 100 * century + 4 * cycle + year := ⟨_, rfl⟩
  have hyearLt : yearOfEra < 400 := by
    have := heraDay.century_lt
    have := heraDay.cycle_lt
    have := heraDay.year_lt
    omega
  rw [← hyearOfEra] at hmarch hvalid hnumber heraYear heraDayOfYear hmonthAndDay
  have hyear : (ofMarch (400 * era + yearOfEra) dayOfYear).year =
      400 * era + yearOfEra + if (ofMarch (400 * era + yearOfEra) dayOfYear).month ≤ 2 then 1 else 0 := rfl
  have hnextYear : 306 ≤ dayOfYear → (ofMarch (400 * era + yearOfEra) dayOfYear).month ≤ 2 :=
    fun hlate => ofMarch_month_le _ hlate heraDay.dayOfYear_le
  generalize ofMarch (400 * era + yearOfEra) dayOfYear = date at *
  have hmonthLe := hvalid.month_le
  have hdayLe : date.day ≤ 31 := hvalid.day_le.trans (by unfold daysInMonth; split_ifs <;> omega)
  have hmonth : asU32 date.month = date.month := asU32_natCast (by omega)
  have hday : asU32 date.day = date.day := asU32_natCast (by omega)
  have hsince : 1970 ≤ date.year := by
    have hdayOfYear := heraDay.dayOfYear_le
    have hbefore : marchDays 1968 = 718797 ∧ marchDays 1969 = 719162 := by decide
    rcases Nat.lt_trichotomy (400 * era + yearOfEra) 1969 with hless | heq | hmore
    · have hmono := marchDays_mono (show 400 * era + yearOfEra ≤ 1968 by omega)
      omega
    · rw [heq] at hmarch
      rw [if_pos (hnextYear (by omega))] at hyear
      omega
    · omega
  refine ⟨date, ?_, hvalid, hsince, ?_⟩
  · have hsum : (date.year : Int) = ((yearOfEra + era * 400 : Nat) : Int) + if date.month ≤ 2 then 1 else 0 := by
      rw [hyear]
      split_ifs <;> omega
    rw [civilFromDays, checkI64_bind (show _ = ((days + 719468 : Nat) : Int) by omega) (by omega),
      checkI64_bind (show _ = (era : Int) by omega) (by omega),
      checkI64_bind (show _ = (dayOfEra : Int) by omega) (by omega), bind_of_some heraYear,
      checkI64_bind (show _ = ((era * 400 : Nat) : Int) by omega) (by omega),
      checkI64_bind (show _ = ((yearOfEra + era * 400 : Nat) : Int) by omega) (by omega), bind_of_some heraDayOfYear,
      bind_of_some hmonthAndDay]
    simp only [hmonth, hday]
    rw [checkI64_bind hsum.symm (by omega)]
    rfl
  · have hcount : dayNumber 1970 date + marchDays 1969 + 306 = marchNumber date :=
      dayNumber_add (show 1969 + 1 ≤ date.year from hsince) hvalid.month_pos hvalid.month_le
    have hepoch : marchDays 1969 = 719162 := by decide
    omega

namespace CivilTime

/-- Earlier in the order of the calendar and of the clock. -/
def Before (left right : CivilTime) : Prop :=
  left.date.Before right.date ∨ left.date = right.date ∧
    (left.hour < right.hour ∨ left.hour = right.hour ∧ (left.minute < right.minute ∨ left.minute = right.minute ∧
      (left.second < right.second ∨ left.second = right.second ∧ left.millis < right.millis)))

/-- Of two instants the one that is earlier on the calendar and the clock has the smaller number. -/
theorem unixMs_lt_iff {left right : CivilTime} (hleft : left.Valid) (hright : right.Valid)
    (hsince : 1970 ≤ left.date.year) (hsince' : 1970 ≤ right.date.year) :
    left.unixMs < right.unixMs ↔ left.Before right := by
  have hdays := dayNumber_lt_iff hleft.date hright.date hsince hsince'
  have hdays' := dayNumber_lt_iff hright.date hleft.date hsince' hsince
  obtain ⟨-, hhour, hminute, hsecond, hmillis⟩ := hleft
  obtain ⟨-, hhour', hminute', hsecond', hmillis'⟩ := hright
  unfold Before unixMs
  rcases Date.before_trichotomy left.date right.date with hbefore | heq | hafter
  · have hlt := hdays.mpr hbefore
    simp only [hbefore, true_or, iff_true]
    omega
  · have hnot : ¬right.date.Before right.date := by
      unfold Date.Before
      omega
    rw [heq]
    simp only [hnot, false_or, true_and]
    omega
  · have hgt := hdays'.mpr hafter
    have hnot : ¬left.date.Before right.date := by
      rw [← hdays]
      omega
    have hne : left.date ≠ right.date := by
      intro heq
      rw [heq] at hgt
      exact Nat.lt_irrefl _ hgt
    simp only [hnot, hne, false_and, or_false, iff_false]
    omega

/-- With years of four digits the texts are in that order as well. -/
theorem print_lt_iff {left right : CivilTime} (hleft : left.Valid) (hright : right.Valid)
    (hyear : left.date.year < 10000) (hyear' : right.date.year < 10000) :
    left.print < right.print ↔ left.Before right := by
  have hday : ∀ {date : Date}, date.Valid → date.day < 100 := by
    intro date hvalid
    apply hvalid.day_le.trans_lt
    unfold daysInMonth
    split_ifs <;> omega
  have hmonth : ∀ {date : Date}, date.Valid → date.month < 100 := fun hvalid => by
    have := hvalid.month_le
    omega
  obtain ⟨hdate, hhour, hminute, hsecond, hmillis⟩ := hleft
  obtain ⟨hdate', hhour', hminute', hsecond', hmillis'⟩ := hright
  unfold print Before Date.Before
  rw [pad_append_lt_iff (by omega) (by omega) (by omega), pad_append_lt_iff (by omega) (hmonth hdate) (hmonth hdate'),
    pad_append_lt_iff (by omega) (hday hdate) (hday hdate'), pad_append_lt_iff (by omega) (by omega) (by omega),
    pad_append_lt_iff (by omega) (by omega) (by omega), pad_append_lt_iff (by omega) (by omega) (by omega),
    pad_append_lt_iff (by omega) (by omega) (by omega)]
  have hdates : left.date = right.date ↔
      left.date.year = right.date.year ∧ left.date.month = right.date.month ∧ left.date.day = right.date.day := by
    rw [Date.ext_iff]
  have hnil : ¬([] : List Char) < [] := List.lt_irrefl _
  simp only [hdates, hnil, and_false, or_false]
  tauto

/-- The first instant with a year of five digits. -/
def year10000 : CivilTime := ⟨⟨10000, 1, 1⟩, 0, 0, 0, 0⟩

theorem year10000_unixMs : year10000.unixMs = 253402300800000 := by
  have hcount := @dayNumber_add 1969 ⟨10000, 1, 1⟩ (by decide) (by decide) (by decide)
  have hdays : marchDays 1969 = 719162 ∧ marchNumber ⟨10000, 1, 1⟩ = 3652365 := by decide
  rw [show 1969 + 1 = 1970 from rfl, hdays.1, hdays.2] at hcount
  simp only [unixMs, year10000]
  generalize dayNumber 1970 ⟨10000, 1, 1⟩ = days at hcount ⊢
  omega

theorem year_lt_of_unixMs_lt {civil : CivilTime} (hvalid : civil.Valid) (hsince : 1970 ≤ civil.date.year)
    (h : civil.unixMs < year10000.unixMs) : civil.date.year < 10000 := by
  have hlimit : year10000.Valid :=
    ⟨⟨by decide, by decide, by decide, by decide⟩, by decide, by decide, by decide, by decide⟩
  have hmonth := hvalid.date.month_pos
  have hday := hvalid.date.day_pos
  rcases (unixMs_lt_iff hvalid hlimit hsince (by decide)).mp h with hbefore | ⟨hdate, hclock⟩
  · simp only [Date.Before, year10000] at hbefore
    omega
  · simp only [year10000] at hclock
    omega

end CivilTime

/-- The text of an instant is the print of a time on the calendar, the one at that instant. -/
theorem formatTimestamp_spec (unixMs : UInt64) :
    ∃ civil : CivilTime, formatTimestamp unixMs = some civil.print ∧ civil.Valid ∧ 1970 ≤ civil.date.year ∧
      civil.unixMs = unixMs.toNat := by
  have hms := unixMs.toNat_lt
  have hcast : asI64 (unixMs.toNat / 1000 / 86400) = (unixMs.toNat / 1000 / 86400 : Nat) := by
    rw [asI64, if_pos (by omega)]
  obtain ⟨date, hcivil, hvalid, hsince, hnumber⟩ :=
    civilFromDays_spec (show unixMs.toNat / 1000 / 86400 ≤ 2 ^ 64 / 86400000 by omega)
  generalize hseconds : unixMs.toNat / 1000 = seconds at *
  have hyear : padI64 4 date.year = pad 4 date.year := by
    rw [padI64, if_neg (by omega), Int.natAbs_natCast]
  refine ⟨⟨date, seconds % 86400 / 3600, seconds % 86400 % 3600 / 60, seconds % 86400 % 60, unixMs.toNat % 1000⟩, ?_,
    ⟨hvalid, ?_, ?_, ?_, ?_⟩, hsince, ?_⟩
  · simp only [formatTimestamp, hseconds, hcast, hcivil, Option.map_some, hyear]
    rfl
  · show seconds % 86400 / 3600 < 24
    omega
  · show seconds % 86400 % 3600 / 60 < 60
    omega
  · show seconds % 86400 % 60 < 60
    omega
  · show unixMs.toNat % 1000 < 1000
    omega
  · simp only [CivilTime.unixMs, hnumber]
    omega

/-- Every instant is printed without an overflow, as a time on the calendar that is converted back to the instant.
Before the year 10000 the texts are ordered as the instants are. -/
theorem timestamps_are_faithful :
    (∀ unixMs : UInt64, ∃ text civil, formatTimestamp unixMs = some text ∧ CivilTime.parse text = some civil ∧
      civil.Valid ∧ civil.unixMs = unixMs.toNat) ∧
    ∀ left right : UInt64, left.toNat < CivilTime.year10000.unixMs → right.toNat < CivilTime.year10000.unixMs →
      ∃ leftText rightText, formatTimestamp left = some leftText ∧ formatTimestamp right = some rightText ∧
        (leftText < rightText ↔ left < right) ∧ (leftText = rightText ↔ left = right) := by
  constructor
  · intro unixMs
    obtain ⟨civil, hformat, hvalid, -, hinstant⟩ := formatTimestamp_spec unixMs
    exact ⟨civil.print, civil, hformat, civil.parse_print, hvalid, hinstant⟩
  · intro left right hleft hright
    obtain ⟨civil, hformat, hvalid, hsince, hinstant⟩ := formatTimestamp_spec left
    obtain ⟨civil', hformat', hvalid', hsince', hinstant'⟩ := formatTimestamp_spec right
    have hyear := CivilTime.year_lt_of_unixMs_lt hvalid hsince (by rw [hinstant]; exact hleft)
    have hyear' := CivilTime.year_lt_of_unixMs_lt hvalid' hsince' (by rw [hinstant']; exact hright)
    refine ⟨civil.print, civil'.print, hformat, hformat', ?_, ?_⟩
    · rw [CivilTime.print_lt_iff hvalid hvalid' hyear hyear', ← CivilTime.unixMs_lt_iff hvalid hvalid' hsince hsince',
        hinstant, hinstant', UInt64.lt_iff_toNat_lt]
    · constructor
      · intro hsame
        have hcivil : some civil = some civil' := by rw [← civil.parse_print, ← civil'.parse_print, hsame]
        rw [← UInt64.toNat_inj, ← hinstant, ← hinstant', Option.some.inj hcivil]
      · rintro rfl
        exact Option.some.inj (hformat.symm.trans hformat')

/-- The leap day of 2024 and the last millisecond of 9999. -/
theorem timestamps_are_faithful_leap :
    formatTimestamp 1709164800000 = some "2024-02-29T00:00:00.000Z".toList ∧
      ∃ leftText rightText, formatTimestamp 1709164800000 = some leftText ∧
        formatTimestamp 253402300799999 = some rightText ∧ leftText < rightText := by
  obtain ⟨leftText, rightText, hleft, hright, horder, -⟩ :=
    timestamps_are_faithful.2 1709164800000 253402300799999 (by rw [CivilTime.year10000_unixMs]; decide +kernel)
      (by rw [CivilTime.year10000_unixMs]; decide +kernel)
  exact ⟨by decide +kernel, leftText, rightText, hleft, hright, horder.mpr (by decide)⟩

end MistralrsProxy
