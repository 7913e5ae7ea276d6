import SetadJang.Framework.PyClock

/-!
# Dates from texts

`date.fromisoformat`: calendar dates and week dates of ISO 8601 with a year of four digits, with
or without their dashes.
-/

namespace SetadJang.Framework

def isLeapYear (year : ℕ) : Bool := year % 4 == 0 && (year % 100 != 0 || year % 400 == 0)

def daysInMonth (year month : ℕ) : ℕ :=
  if month = 2 then (if isLeapYear year then 29 else 28)
  else if month ∈ [4, 6, 9, 11] then 30
  else 31

/-- A day of the calendar, from `date.min` to `date.max`. -/
structure IsDate (d : PyDate) : Prop where
  year : 1 ≤ d.year ∧ d.year ≤ 9999
  month : 1 ≤ d.month ∧ d.month ≤ 12
  day : 1 ≤ d.day ∧ d.day ≤ daysInMonth d.year d.month

instance (d : PyDate) : Decidable (IsDate d) :=
  decidable_of_iff
    ((1 ≤ d.year ∧ d.year ≤ 9999) ∧ (1 ≤ d.month ∧ d.month ≤ 12) ∧
      1 ≤ d.day ∧ d.day ≤ daysInMonth d.year d.month)
    ⟨fun h => ⟨h.1, h.2.1, h.2.2⟩, fun h => ⟨h.year, h.month, h.day⟩⟩

/-- `date(year, month, day)`; `none` is the `ValueError`. -/
def newDate (year month day : ℕ) : Option PyDate :=
  if IsDate ⟨year, month, day⟩ then some ⟨year, month, day⟩ else none

/-- The ordinal of 0001-01-01 is 1. -/
def PyDate.toordinal (d : PyDate) : ℕ := d.count - 305

/-- The Monday of the first week of a year: the week with its first Thursday. -/
def isoweek1monday (year : ℕ) : ℕ :=
  let firstday := PyDate.toordinal ⟨year, 1, 1⟩
  let firstweekday := (firstday + 6) % 7
  if 3 < firstweekday then firstday - firstweekday + 7 else firstday - firstweekday

/-- A year has a week 53 when it begins on a Thursday, or is a leap year that begins on a
Wednesday. -/
def isoWeekOk (year week : ℕ) : Bool :=
  let firstWeekday := PyDate.toordinal ⟨year, 1, 1⟩ % 7
  (decide (0 < week) && decide (week < 53)) ||
    (week == 53 && (firstWeekday == 4 || (firstWeekday == 3 && isLeapYear year)))

/-- The date of a day of a week. -/
def isoWeekDate (year week day : ℕ) : Option PyDate :=
  if 1 ≤ year ∧ isoWeekOk year week = true ∧ 1 ≤ day ∧ day ≤ 7 then
    let d := dateOfCount (isoweek1monday year + (week - 1) * 7 + (day - 1) + 305)
    newDate d.year d.month d.day
  else none

/-- A number of so many ASCII digits. -/
def numberOf (width : ℕ) (cs : List Char) : Option ℕ :=
  if cs.length = width ∧ cs.all Char.isDigit = true then some (digitsValue cs) else none

/-- What follows the `W` of a week date. -/
def weekDate (dashed : Bool) (year : ℕ) (rest : List Char) : Option PyDate := do
  let week ← numberOf 2 (rest.take 2)
  match rest.drop 2, dashed with
  | [], _ => isoWeekDate year week 1
  | '-' :: day, true => isoWeekDate year week (← numberOf 1 day)
  | _, true => none
  | day, false => isoWeekDate year week (← numberOf 1 day)

/-- `date.fromisoformat`; `none` is the `ValueError`. -/
def fromIsoformat (s : List Char) : Option PyDate := do
  let year ← numberOf 4 (s.take 4)
  match s.drop 4 with
  | '-' :: 'W' :: rest => weekDate true year rest
  | 'W' :: rest => weekDate false year rest
  | '-' :: rest => do
      let month ← numberOf 2 (rest.take 2)
      match rest.drop 2 with
      | '-' :: day => newDate year month (← numberOf 2 day)
      | _ => none
  | rest => do newDate year (← numberOf 2 (rest.take 2)) (← numberOf 2 (rest.drop 2))

theorem isDate_of_newDate {year month day : ℕ} {d : PyDate} (h : newDate year month day = some d) :
    IsDate d := by
  unfold newDate at h
  split_ifs at h with hdate
  obtain rfl := Option.some.inj h
  exact hdate

theorem isDate_of_isoWeekDate {year week day : ℕ} {d : PyDate}
    (h : isoWeekDate year week day = some d) : IsDate d := by
  unfold isoWeekDate at h
  split_ifs at h
  exact isDate_of_newDate h

theorem isDate_of_weekDate {dashed : Bool} {year : ℕ} {rest : List Char} {d : PyDate}
    (h : weekDate dashed year rest = some d) : IsDate d := by
  obtain ⟨week, -, h⟩ := Option.bind_eq_some_iff.mp h
  split at h
  · exact isDate_of_isoWeekDate h
  · obtain ⟨day, -, h⟩ := Option.bind_eq_some_iff.mp h
    exact isDate_of_isoWeekDate h
  · cases h
  · obtain ⟨day, -, h⟩ := Option.bind_eq_some_iff.mp h
    exact isDate_of_isoWeekDate h

/-- What is parsed is a day of the calendar. -/
theorem isDate_of_fromIsoformat {s : List Char} {d : PyDate} (h : fromIsoformat s = some d) :
    IsDate d := by
  obtain ⟨year, -, h⟩ := Option.bind_eq_some_iff.mp h
  split at h
  · exact isDate_of_weekDate h
  · exact isDate_of_weekDate h
  · obtain ⟨month, -, h⟩ := Option.bind_eq_some_iff.mp h
    split at h
    · obtain ⟨day, -, h⟩ := Option.bind_eq_some_iff.mp h
      exact isDate_of_newDate h
    · cases h
  · obtain ⟨month, -, h⟩ := Option.bind_eq_some_iff.mp h
    obtain ⟨day, -, h⟩ := Option.bind_eq_some_iff.mp h
    exact isDate_of_newDate h

/-- A leap day, a week date and a day that does not exist. -/
example : fromIsoformat "2020-02-29".toList = some ⟨2020, 2, 29⟩ ∧
    fromIsoformat "2020W011".toList = some ⟨2019, 12, 30⟩ ∧
    fromIsoformat "2021-02-29".toList = none := by decide +kernel

end SetadJang.Framework
