import SetadJang.Framework.PyFormat

/-!
# Instants and UTC datetimes

An aware `datetime` names an instant, counted here in microseconds from the start of 1970.
A timestamp column keeps the instant and gives it back as a datetime in UTC.  The proleptic
Gregorian calendar is counted from the first of March of the year 0, so that a leap day is the
last day of its year.
-/

namespace SetadJang.Framework

/-- Days of an era of 400 years, before the year `y` of the era. -/
def daysBeforeYear (y : ℕ) : ℕ := 365 * y + y / 4 - y / 100

/-- The year of an era that a day of it lies in: by centuries, spans of four years and years,
the last of which may be a day longer. -/
def yearOfEra (day : ℕ) : ℕ :=
  let century := min (day / 36524) 3
  let rest := day - 36524 * century
  100 * century + 4 * (rest / 1461) + min (rest % 1461 / 365) 3

/-- The days of a year that lie before its month `m`; March is month 0. -/
def daysBeforeMonth (m : ℕ) : ℕ := (153 * m + 2) / 5

/-- The month, with March as month 0, that a day of a year lies in. -/
def monthOfYear (dayOfYear : ℕ) : ℕ := (5 * dayOfYear + 2) / 153

/-- A month of such a year as the calendar counts it. -/
def calendarMonth (m : ℕ) : ℕ := if m < 10 then m + 3 else m - 9

/-- The date of a day of the year `year` of an era; January and February belong to the next
calendar year. -/
def dateInEra (era year m day : ℕ) : PyDate where
  year := era * 400 + year + if m < 10 then 0 else 1
  month := calendarMonth m
  day := day + 1

/-- The date of the day that comes `n` days after the first of March of the year 0. -/
def dateOfCount (n : ℕ) : PyDate :=
  let year := yearOfEra (n % 146097)
  let dayOfYear := n % 146097 - daysBeforeYear year
  let m := monthOfYear dayOfYear
  dateInEra (n / 146097) year m (dayOfYear - daysBeforeMonth m)

/-- The number of days from the first of March of the year 0 to a date. -/
def PyDate.count (d : PyDate) : ℕ :=
  let year := d.year - if d.month ≤ 2 then 1 else 0
  let m := if d.month ≤ 2 then d.month + 9 else d.month - 3
  year / 400 * 146097 + daysBeforeYear (year % 400) + daysBeforeMonth m + (d.day - 1)

/-- The count of 1970-01-01. -/
def epochCount : ℕ := 719468

/-- The instant of a datetime; a naive one is taken for UTC. -/
def PyDateTime.instant (t : PyDateTime) : ℤ :=
  (((t.date.count : ℤ) - epochCount) * 86400 + t.hour * 3600 + t.minute * 60 + t.second - t.utcoffset.getD 0) *
    1000000 + t.microsecond

/-- The datetime in UTC of an instant. -/
def utcDateTime (instant : ℕ) : PyDateTime where
  date := dateOfCount (instant / 86400000000 + epochCount)
  hour := instant / 3600000000 % 24
  minute := instant / 60000000 % 60
  second := instant / 1000000 % 60
  microsecond := instant % 1000000
  utcoffset := some 0

/-- `datetime.isoformat()`. -/
def PyDateTime.isoformat (t : PyDateTime) : List Char :=
  t.date.iso ('T' :: (padded 2 t.hour ++ ':' :: (padded 2 t.minute ++
    ':' :: (padded 2 t.second ++ t.tail))))

/-- The format `%Y%m%d`. -/
def PyDate.compact (d : PyDate) : List Char := padded 4 d.year ++ (padded 2 d.month ++ padded 2 d.day)

theorem yearOfEra_spec {day : ℕ} (h : day < 146097) :
    yearOfEra day < 400 ∧ daysBeforeYear (yearOfEra day) ≤ day ∧
      day - daysBeforeYear (yearOfEra day) ≤ 365 := by
  have hcentury : min (day / 36524) 3 ≤ 3 := min_le_right _ _
  have hrest : day - 36524 * min (day / 36524) 3 ≤ 36524 := by omega
  have hle : 36524 * min (day / 36524) 3 ≤ day := by omega
  unfold yearOfEra daysBeforeYear
  simp only []
  generalize min (day / 36524) 3 = century at *
  generalize hr : day - 36524 * century = rest at *
  have hyear : min (rest % 1461 / 365) 3 ≤ 3 := min_le_right _ _
  have hlast : rest % 1461 - 365 * min (rest % 1461 / 365) 3 ≤ 365 := by omega
  have hfirst : 365 * min (rest % 1461 / 365) 3 ≤ rest % 1461 := by omega
  generalize min (rest % 1461 / 365) 3 = year at *
  have hquad : (100 * century + 4 * (rest / 1461) + year) / 4 = 25 * century + rest / 1461 := by omega
  have hhundred : (100 * century + 4 * (rest / 1461) + year) / 100 = century := by omega
  rw [hquad, hhundred]
  omega

theorem monthOfYear_spec {dayOfYear : ℕ} (h : dayOfYear ≤ 365) :
    monthOfYear dayOfYear ≤ 11 ∧ daysBeforeMonth (monthOfYear dayOfYear) ≤ dayOfYear := by
  unfold monthOfYear daysBeforeMonth
  omega

theorem count_dateInEra {era year m day : ℕ} (hyear : year < 400) (hm : m ≤ 11) :
    (dateInEra era year m day).count =
      era * 146097 + daysBeforeYear year + daysBeforeMonth m + day := by
  have hera : (era * 400 + year) / 400 = era := by omega
  have hofEra : (era * 400 + year) % 400 = year := by omega
  by_cases hlate : m < 10
  · have hmonth : ¬ m + 3 ≤ 2 := by omega
    simp [PyDate.count, dateInEra, calendarMonth, hlate, hmonth, hera, hofEra]
  · have hmonth : m - 9 ≤ 2 := by omega
    have hback : m - 9 + 9 = m := by omega
    simp [PyDate.count, dateInEra, calendarMonth, hlate, hmonth, hback, hera, hofEra]

/-- The calendar gives a day back. -/
theorem count_dateOfCount (n : ℕ) : (dateOfCount n).count = n := by
  obtain ⟨hyear, hbefore, hrest⟩ := yearOfEra_spec (Nat.mod_lt n (by decide : 0 < 146097))
  obtain ⟨hmonth, hday⟩ := monthOfYear_spec hrest
  have hparts : ∀ {rest a b : ℕ}, a ≤ rest → b ≤ rest - a → a + b + (rest - a - b) = rest := by
    intro rest a b ha hb
    omega
  rw [dateOfCount, count_dateInEra hyear hmonth, Nat.add_assoc, Nat.add_assoc,
    ← Nat.add_assoc (daysBeforeYear _), hparts hbefore hday, Nat.div_add_mod']

/-- A timestamp column gives an instant back. -/
theorem instant_utcDateTime (instant : ℕ) : (utcDateTime instant).instant = instant := by
  simp only [PyDateTime.instant, utcDateTime, count_dateOfCount, Option.getD_some]
  omega

/-- The start of 1970, and a leap day. -/
example : dateOfCount epochCount = ⟨1970, 1, 1⟩ ∧
    (utcDateTime 1709210096000007).isoformat = "2024-02-29T12:34:56.000007+00:00".toList := by
  decide

/-! ## Dates in a time zone -/

/-- Microseconds of a day. -/
def dayLength : ℤ := 86400000000

/-- A time zone east of Greenwich: its clocks are ahead of UTC, by less than a day. -/
structure EasternZone where
  utcoffset : ℤ → ℤ
  ahead : ∀ t, 0 ≤ utcoffset t
  less_than_day : ∀ t, utcoffset t < dayLength

/-- The date of an instant in UTC, counted in days from the start of 1970. -/
def utcDate (t : ℤ) : ℤ := t / dayLength

namespace EasternZone

variable (zone : EasternZone)

/-- The date of an instant on the clocks of the zone. -/
def localDate (t : ℤ) : ℤ := (t + zone.utcoffset t) / dayLength

/-- The time since midnight on the clocks of the zone. -/
def timeOfDay (t : ℤ) : ℤ := (t + zone.utcoffset t) % dayLength

/-- The two dates agree unless it is still the day before in Greenwich. -/
theorem utcDate_eq_localDate_iff (t : ℤ) :
    utcDate t = zone.localDate t ↔ zone.utcoffset t ≤ zone.timeOfDay t := by
  have hahead := zone.ahead t
  have hless := zone.less_than_day t
  unfold utcDate localDate timeOfDay
  unfold dayLength at *
  omega

end EasternZone

/-- `date.isoformat()` of a day. -/
def isoDay (day : ℤ) : List Char := (dateOfCount (day + epochCount).toNat).iso []

end SetadJang.Framework
