import SetadJang.Framework.Capacities
import SetadJang.Framework.PyText
import SetadJang.SupportDesk.Tickets

/-!
# Business calendars

The calendars of `SupportBusinessCalendarInputSerializer`, `create_business_calendar` and
`update_business_calendar`, and `add_business_minutes` on them.  Its datetimes all carry the
zone of the calendar, so they are compared, subtracted and moved by their wall time, which is
counted in microseconds.  A day is a number, with 0 for 1970-01-01; the date type ends, and to
step past its last day raises.
-/

namespace SetadJang.SupportDesk

open SetadJang.Framework

/-! ## Wall time -/

/-- The microseconds of a day. -/
def dayLength : ℤ := 86400000000

/-- The microseconds of a minute. -/
def minute : ℤ := 60000000

/-- `datetime.time`. -/
structure DayTime where
  micros : ℕ
  lt_day : micros < 86400000000
deriving DecidableEq, Repr

/-- `datetime.combine(day, at)`. -/
def combine (day : ℤ) (at_ : DayTime) : ℤ := day * dayLength + at_.micros

/-- `current.date()`. -/
def dayOf (current : ℤ) : ℤ := current / dayLength

/-- `weekday()`, with 0 for Monday; 1970-01-01 was a Thursday. -/
def weekday (day : ℤ) : ℤ := (day + 3) % 7

/-- The days of the date type. -/
structure DateRange where
  first : ℤ
  last : ℤ
deriving DecidableEq, Repr

/-- From `date.min` to `date.max`. -/
def pythonDates : DateRange := ⟨-719162, 2932896⟩

@[simp] theorem dayOf_combine (day : ℤ) (at_ : DayTime) : dayOf (combine day at_) = day := by
  have hlt := at_.lt_day
  unfold dayOf combine dayLength
  omega

/-! ## Calendars -/

/-- `SupportBusinessCalendar`, as far as the arithmetic reads it. -/
structure BusinessCalendar where
  timezoneName : String
  workdayStart : DayTime
  workdayEnd : DayTime
  activeWeekdays : List ℤ
deriving DecidableEq, Repr

/-- `SupportHoliday`. -/
structure Holiday where
  date : ℤ
  isActive : Bool
deriving DecidableEq, Repr

/-- The fields of `SupportBusinessCalendarInputSerializer` that concern the arithmetic. -/
structure CalendarInput where
  timezoneName : Option String
  workdayStart : Option DayTime
  workdayEnd : Option DayTime
  activeWeekdays : Option (List ℤ)
deriving DecidableEq, Repr

/-- `is_valid`: the text is trimmed, not blank and at most 80 characters long; a weekday is
from 0 to 6. -/
def CalendarInput.isValid (input : CalendarInput) : Bool :=
  (input.timezoneName.all fun name =>
    !(pyStrip name).toList.isEmpty && decide ((pyStrip name).toList.length ≤ 80)) &&
  input.activeWeekdays.all fun days => days.all fun day => decide (0 ≤ day) && decide (day ≤ 6)

/-- Saturday to Wednesday. -/
def defaultWeekdays : List ℤ := [5, 6, 0, 1, 2]

namespace BusinessCalendar

/-- `SupportBusinessCalendar.save`. -/
def save (calendar : BusinessCalendar) : BusinessCalendar :=
  if calendar.activeWeekdays = [] then { calendar with activeWeekdays := defaultWeekdays }
  else calendar

/-- `create_business_calendar` on what the serializer accepts. -/
def create (input : CalendarInput) : BusinessCalendar :=
  save
    { timezoneName := (input.timezoneName.map pyStrip).getD "Asia/Tehran"
      workdayStart := input.workdayStart.getD ⟨32400000000, by decide⟩
      workdayEnd := input.workdayEnd.getD ⟨61200000000, by decide⟩
      activeWeekdays := input.activeWeekdays.getD [] }

/-- `update_business_calendar`: it saves when a field changes. -/
def update (input : CalendarInput) (calendar : BusinessCalendar) : BusinessCalendar :=
  let changed : BusinessCalendar :=
    { timezoneName := (input.timezoneName.map pyStrip).getD calendar.timezoneName
      workdayStart := input.workdayStart.getD calendar.workdayStart
      workdayEnd := input.workdayEnd.getD calendar.workdayEnd
      activeWeekdays := input.activeWeekdays.getD calendar.activeWeekdays }
  if changed = calendar then calendar else save changed

/-- The calendars that the endpoints leave. -/
inductive Accepted : BusinessCalendar → Prop
  | created {input : CalendarInput} (hvalid : input.isValid = true) : Accepted (create input)
  | updated {input : CalendarInput} {calendar : BusinessCalendar} (hcalendar : Accepted calendar)
      (hvalid : input.isValid = true) : Accepted (update input calendar)

/-- `calendar.active_weekdays or [5, 6, 0, 1, 2]`. -/
def weekdays (calendar : BusinessCalendar) : List ℤ :=
  if calendar.activeWeekdays = [] then defaultWeekdays else calendar.activeWeekdays

/-- An active weekday that is no holiday. -/
def isWorkingDay (calendar : BusinessCalendar) (holidays : List Holiday) (day : ℤ) : Bool :=
  calendar.weekdays.contains (weekday day) &&
    !holidays.any fun holiday => holiday.date == day && holiday.isActive

end BusinessCalendar

/-! ## The loops -/

/-- What the arithmetic raises: `ZoneInfo` on a name it does not know, and the step past the
last day. -/
inductive CalendarError where
  | zoneInfoNotFound
  | overflow
deriving DecidableEq, Repr

/-- An aware datetime: an instant, or a wall time in the zone of the calendar. -/
inductive AwareDatetime where
  | instant (at_ : ℤ)
  | zoned (wall : ℤ)
deriving DecidableEq, Repr

namespace BusinessCalendar

/-- The body of `_next_working_instant`: what it returns, if it does not go on to the next day. -/
def workingInstant (calendar : BusinessCalendar) (holidays : List Holiday) (current : ℤ) :
    Option ℤ :=
  let start := combine (dayOf current) calendar.workdayStart
  let finish := combine (dayOf current) calendar.workdayEnd
  if calendar.isWorkingDay holidays (dayOf current) then
    if current < start then some start
    else if start ≤ current ∧ current < finish then some current
    else none
  else none

/-- The start of the work on the day after. -/
def nextDay (calendar : BusinessCalendar) (current : ℤ) : ℤ :=
  combine (dayOf current + 1) calendar.workdayStart

/-- `_next_working_instant`, with `left` days of the date type behind the current one. -/
def nextWorkingInstant (calendar : BusinessCalendar) (holidays : List Holiday) :
    ℕ → ℤ → Except CalendarError ℤ
  | 0, current => (calendar.workingInstant holidays current).elim (.error .overflow) .ok
  | left + 1, current =>
      (calendar.workingInstant holidays current).elim
        (nextWorkingInstant calendar holidays left (calendar.nextDay current)) .ok

/-- `max(0, int((end_of_day - current).total_seconds() // 60))`. -/
def available (calendar : BusinessCalendar) (current : ℤ) : ℕ :=
  ((combine (dayOf current) calendar.workdayEnd - current) / minute).toNat

/-- The loop of `add_business_minutes`.  Each round ends on a later day than it begins, so there
are no more rounds than days. -/
def addLoop (calendar : BusinessCalendar) (holidays : List Holiday) (last : ℤ) :
    ℕ → ℕ → ℤ → Except CalendarError ℤ
  | 0, _, _ => .error .overflow
  | rounds + 1, remaining, current =>
      if remaining = 0 then .ok current
      else
        match calendar.nextWorkingInstant holidays (last - dayOf current).toNat current with
        | .error error => .error error
        | .ok current =>
            if remaining ≤ calendar.available current then
              .ok (current + (remaining : ℤ) * minute)
            else if last ≤ dayOf current then .error .overflow
            else
              addLoop calendar holidays last rounds (remaining - calendar.available current)
                (calendar.nextDay current)

end BusinessCalendar

/-- `timezone.localtime`, for a zone that gives the UTC offset of an instant. -/
def localtime (range : DateRange) (zone : ℤ → ℤ) (startAt : ℤ) : Except CalendarError ℤ :=
  let wall := startAt + zone startAt
  if range.first ≤ dayOf wall ∧ dayOf wall ≤ range.last then .ok wall else .error .overflow

/-- `add_business_minutes`; `zones` is `ZoneInfo`. -/
def addBusinessMinutes (zones : String → Option (ℤ → ℤ)) (range : DateRange)
    (calendar : BusinessCalendar) (holidays : List Holiday) (startAt minutes : ℤ) :
    Except CalendarError AwareDatetime :=
  if minutes ≤ 0 then .ok (.instant startAt)
  else
    match zones calendar.timezoneName with
    | none => .error .zoneInfoNotFound
    | some zone => do
        let current ← localtime range zone startAt
        let rounds := (range.last - dayOf current).toNat + 1
        let due ← calendar.addLoop holidays range.last rounds minutes.toNat current
        return .zoned due

/-! ## The days as capacities -/

namespace BusinessCalendar

section capacities

variable (calendar : BusinessCalendar) (holidays : List Holiday)

/-- Where the work of the `i`-th day from `current` on begins. -/
def workStart (current : ℤ) (i : ℕ) : ℤ :=
  max current (combine (dayOf current + i) calendar.workdayStart)

/-- Where it ends. -/
def workEnd (current : ℤ) (i : ℕ) : ℤ := combine (dayOf current + i) calendar.workdayEnd

/-- The whole minutes that the `i`-th day offers. -/
def capacity (current : ℤ) (i : ℕ) : ℕ :=
  if calendar.isWorkingDay holidays (dayOf current + i) then
    ((calendar.workEnd current i - calendar.workStart current i) / minute).toNat
  else 0

theorem dayOf_nextDay (current : ℤ) : dayOf (calendar.nextDay current) = dayOf current + 1 :=
  dayOf_combine _ _

/-- Times of a later day are later. -/
theorem lt_combine {current : ℤ} {day : ℤ} (h : dayOf current < day) (at_ : DayTime) :
    current < combine day at_ := by
  unfold dayOf dayLength at h
  unfold combine dayLength
  omega

theorem workStart_nextDay (current : ℤ) (i : ℕ) :
    calendar.workStart (calendar.nextDay current) i = calendar.workStart current (i + 1) := by
  have hday : dayOf current + 1 + (i : ℤ) = dayOf current + ((i + 1 : ℕ) : ℤ) := by push_cast; omega
  unfold workStart
  rw [dayOf_nextDay, hday]
  have hlate : current < combine (dayOf current + ((i + 1 : ℕ) : ℤ)) calendar.workdayStart :=
    lt_combine (by push_cast; omega) _
  have hle : calendar.nextDay current ≤
      combine (dayOf current + ((i + 1 : ℕ) : ℤ)) calendar.workdayStart := by
    unfold nextDay combine dayLength
    push_cast
    omega
  rw [max_eq_right hlate.le, max_eq_right hle]

theorem workEnd_nextDay (current : ℤ) (i : ℕ) :
    calendar.workEnd (calendar.nextDay current) i = calendar.workEnd current (i + 1) := by
  unfold workEnd
  rw [dayOf_nextDay]
  congr 1
  push_cast
  omega

theorem capacity_nextDay (current : ℤ) (i : ℕ) :
    calendar.capacity holidays (calendar.nextDay current) i =
      calendar.capacity holidays current (i + 1) := by
  have hday : dayOf current + 1 + (i : ℤ) = dayOf current + ((i + 1 : ℕ) : ℤ) := by push_cast; omega
  unfold capacity
  rw [workStart_nextDay, workEnd_nextDay, dayOf_nextDay, hday]

/-- A day that the inner loop passes offers nothing; one that it stops at offers what the outer
loop takes from it. -/
theorem workingInstant_cases (current : ℤ) :
    calendar.workingInstant holidays current = none ∧ calendar.capacity holidays current 0 = 0 ∨
      calendar.workingInstant holidays current = some (calendar.workStart current 0) ∧
        calendar.capacity holidays current 0 =
          calendar.available (calendar.workStart current 0) ∧
        dayOf (calendar.workStart current 0) = dayOf current := by
  have hday : dayOf current + ((0 : ℕ) : ℤ) = dayOf current := by simp
  unfold workingInstant capacity workStart workEnd available
  rw [hday]
  by_cases hworking : calendar.isWorkingDay holidays (dayOf current) = true
  · rw [if_pos hworking, if_pos hworking]
    by_cases hearly : current < combine (dayOf current) calendar.workdayStart
    · right
      rw [if_pos hearly, max_eq_right hearly.le, dayOf_combine]
      exact ⟨rfl, rfl, rfl⟩
    · rw [if_neg hearly, max_eq_left (not_lt.mp hearly)]
      by_cases hwithin : current < combine (dayOf current) calendar.workdayEnd
      · exact Or.inr ⟨if_pos ⟨not_lt.mp hearly, hwithin⟩, rfl, rfl⟩
      · refine Or.inl ⟨if_neg fun h => hwithin h.2, Int.toNat_of_nonpos ?_⟩
        unfold minute
        omega
  · rw [if_neg hworking, if_neg hworking]
    exact Or.inl ⟨rfl, rfl⟩

end capacities

end BusinessCalendar

/-- What a search for the place of a demand comes to as a time. -/
def timeOf (calendar : BusinessCalendar) (current : ℤ) (found : Option (ℕ × ℕ)) :
    Except CalendarError ℤ :=
  match found with
  | none => .error .overflow
  | some (n, x) => .ok (calendar.workStart current n + (x : ℤ) * minute)

theorem timeOf_nextDay (calendar : BusinessCalendar) (current : ℤ) (found : Option (ℕ × ℕ)) :
    timeOf calendar (calendar.nextDay current) found =
      timeOf calendar current (found.map fun place => (place.1 + 1, place.2)) := by
  cases found with
  | none => rfl
  | some place =>
      show Except.ok _ = Except.ok _
      rw [BusinessCalendar.workStart_nextDay]

/-- **Refinement.** The nested loops fill the demand from the capacities of the days, whatever
the number of rounds above that of the days left. -/
theorem addLoop_eq_fill (calendar : BusinessCalendar) (holidays : List Holiday) (last : ℤ)
    (left rounds remaining : ℕ) (current : ℤ) (hleft : last - dayOf current = left)
    (hrounds : left < rounds) (hpos : 0 < remaining) :
    calendar.addLoop holidays last rounds remaining current =
      timeOf calendar current (fill (calendar.capacity holidays current) left remaining) := by
  induction left generalizing rounds remaining current with
  | zero =>
      obtain ⟨rounds, rfl⟩ := Nat.exists_eq_succ_of_ne_zero (Nat.ne_of_gt hrounds)
      have hdays : (last - dayOf current).toNat = 0 := by omega
      rw [BusinessCalendar.addLoop, if_neg hpos.ne', hdays, BusinessCalendar.nextWorkingInstant, fill]
      rcases calendar.workingInstant_cases holidays current with
        ⟨hnone, hcapacity⟩ | ⟨hsome, hcapacity, hday⟩
      · rw [hnone, hcapacity, if_neg (by omega)]
        rfl
      · rw [hsome, hcapacity]
        dsimp only [Option.elim]
        by_cases hle : remaining ≤ calendar.available (calendar.workStart current 0)
        · rw [if_pos hle, if_pos hle]
          rfl
        · rw [if_neg hle, if_neg hle, if_pos (by omega)]
          rfl
  | succ left ih =>
      obtain ⟨rounds, rfl⟩ := Nat.exists_eq_succ_of_ne_zero (Nat.ne_of_gt (by omega : 0 < rounds))
      have hdays : (last - dayOf current).toNat = left + 1 := by omega
      have hnext : last - dayOf (calendar.nextDay current) = left := by
        rw [BusinessCalendar.dayOf_nextDay]
        omega
      have hshift : calendar.capacity holidays (calendar.nextDay current) =
          fun i => calendar.capacity holidays current (i + 1) :=
        funext fun i => calendar.capacity_nextDay holidays current i
      rw [BusinessCalendar.addLoop, if_neg hpos.ne', hdays, BusinessCalendar.nextWorkingInstant, fill,
        ← hshift]
      rcases calendar.workingInstant_cases holidays current with
        ⟨hnone, hcapacity⟩ | ⟨hsome, hcapacity, hday⟩
      · -- the inner loop goes on, and the round is that of the next day
        have hround := ih (rounds + 1) remaining (calendar.nextDay current) hnext (by omega) hpos
        have hdays' : (last - dayOf (calendar.nextDay current)).toNat = left := by omega
        rw [BusinessCalendar.addLoop, if_neg hpos.ne', hdays'] at hround
        rw [hnone, hcapacity, if_neg (by omega), Nat.sub_zero, ← timeOf_nextDay]
        exact hround
      · rw [hsome, hcapacity]
        dsimp only [Option.elim]
        by_cases hle : remaining ≤ calendar.available (calendar.workStart current 0)
        · rw [if_pos hle, if_pos hle]
          rfl
        · have hsame : calendar.nextDay (calendar.workStart current 0) = calendar.nextDay current := by
            unfold BusinessCalendar.nextDay
            rw [hday]
          rw [if_neg hle, if_neg hle, ← timeOf_nextDay, if_neg (by omega), hsame]
          exact ih rounds _ (calendar.nextDay current) hnext (by omega) (by omega)

/-! ## When the arithmetic ends -/

/-- The whole minutes of work from `wall` to the end of the date type. -/
def workingMinutes (calendar : BusinessCalendar) (holidays : List Holiday) (range : DateRange)
    (wall : ℤ) : ℕ :=
  total (calendar.capacity holidays wall) ((range.last - dayOf wall).toNat + 1)

theorem localtime_ok_iff {range : DateRange} {zone : ℤ → ℤ} {startAt wall : ℤ} :
    localtime range zone startAt = .ok wall ↔
      startAt + zone startAt = wall ∧ range.first ≤ dayOf wall ∧ dayOf wall ≤ range.last := by
  unfold localtime
  dsimp only
  constructor
  · intro h
    split_ifs at h with hrange
    obtain rfl := Except.ok.inj h
    exact ⟨rfl, hrange⟩
  · rintro ⟨rfl, hrange⟩
    rw [if_pos hrange]

/-- What is returned for a positive number of minutes. -/
theorem addBusinessMinutes_pos_iff {zones : String → Option (ℤ → ℤ)} {range : DateRange}
    {calendar : BusinessCalendar} {holidays : List Holiday} {startAt minutes : ℤ}
    (hpos : 0 < minutes) {due : AwareDatetime} :
    addBusinessMinutes zones range calendar holidays startAt minutes = .ok due ↔
      ∃ zone wall, zones calendar.timezoneName = some zone ∧ localtime range zone startAt = .ok wall ∧
        ∃ n x, n ≤ (range.last - dayOf wall).toNat ∧
          Fills (calendar.capacity holidays wall) minutes.toNat n x ∧
          due = .zoned (calendar.workStart wall n + (x : ℤ) * minute) := by
  have hdemand : 0 < minutes.toNat := by omega
  unfold addBusinessMinutes
  rw [if_neg (by omega)]
  cases zones calendar.timezoneName with
  | none => simp
  | some zone =>
      have hloop : ∀ wall, localtime range zone startAt = .ok wall →
          calendar.addLoop holidays range.last ((range.last - dayOf wall).toNat + 1) minutes.toNat
            wall = timeOf calendar wall (fill (calendar.capacity holidays wall)
              (range.last - dayOf wall).toNat minutes.toNat) := by
        intro wall hwall
        have hlast := (localtime_ok_iff.mp hwall).2.2
        exact addLoop_eq_fill calendar holidays range.last _ _ _ wall (by omega)
          (Nat.lt_succ_self _) hdemand
      constructor
      · intro hdue
        obtain ⟨wall, hwall, hdue⟩ := except_bind_ok_iff.mp hdue
        obtain ⟨at_, hat, hdue⟩ := except_bind_ok_iff.mp hdue
        obtain rfl := Except.ok.inj hdue
        rw [hloop wall hwall] at hat
        cases hfill : fill (calendar.capacity holidays wall) (range.last - dayOf wall).toNat
            minutes.toNat with
        | none =>
            rw [hfill] at hat
            cases hat
        | some place =>
            rw [hfill] at hat
            obtain rfl := Except.ok.inj hat
            obtain ⟨hn, hfills⟩ := (fill_eq_some_iff hdemand).mp hfill
            exact ⟨zone, wall, rfl, hwall, place.1, place.2, hn, hfills, rfl⟩
      · rintro ⟨_, wall, hzone, hwall, n, x, hn, hfills, rfl⟩
        obtain rfl := Option.some.inj hzone
        refine except_bind_ok_iff.mpr ⟨wall, hwall, except_bind_ok_iff.mpr ⟨_, ?_, rfl⟩⟩
        rw [hloop wall hwall, (fill_eq_some_iff hdemand).mpr ⟨hn, hfills⟩]
        rfl

/-- **When the arithmetic ends.** It returns exactly when there are no minutes to add, or the
zone is known, the start has a local time and the days from it on offer the minutes. -/
theorem addBusinessMinutes_returns_iff (zones : String → Option (ℤ → ℤ)) (range : DateRange)
    (calendar : BusinessCalendar) (holidays : List Holiday) (startAt minutes : ℤ) :
    (∃ due, addBusinessMinutes zones range calendar holidays startAt minutes = .ok due) ↔
      minutes ≤ 0 ∨ ∃ zone, zones calendar.timezoneName = some zone ∧
        range.first ≤ dayOf (startAt + zone startAt) ∧
        dayOf (startAt + zone startAt) ≤ range.last ∧
        minutes.toNat ≤ workingMinutes calendar holidays range (startAt + zone startAt) := by
  by_cases hpos : 0 < minutes
  swap
  · refine iff_of_true ⟨.instant startAt, ?_⟩ (Or.inl (not_lt.mp hpos))
    unfold addBusinessMinutes
    rw [if_pos (not_lt.mp hpos)]
  have hdemand : 0 < minutes.toNat := by omega
  simp only [addBusinessMinutes_pos_iff hpos, localtime_ok_iff]
  rw [or_iff_right (not_le.mpr hpos)]
  constructor
  · rintro ⟨_, zone, wall, hzone, ⟨rfl, hrange⟩, n, x, hn, hfills, -⟩
    refine ⟨zone, hzone, hrange.1, hrange.2, hfills.within.trans ?_⟩
    exact total_mono _ (Nat.succ_le_succ hn)
  · rintro ⟨zone, hzone, hfirst, hlast, hminutes⟩
    obtain ⟨n, x, hn, hfills⟩ := exists_fills hdemand hminutes
    exact ⟨_, zone, _, hzone, ⟨rfl, hfirst, hlast⟩, n, x, Nat.le_of_lt_succ hn, hfills, rfl⟩

/-- Hours in the wrong order offer nothing. -/
theorem workingMinutes_of_reversed {calendar : BusinessCalendar}
    (h : calendar.workdayEnd.micros ≤ calendar.workdayStart.micros) (holidays : List Holiday)
    (range : DateRange) (wall : ℤ) : workingMinutes calendar holidays range wall = 0 := by
  unfold workingMinutes total
  refine Finset.sum_eq_zero fun i _ => ?_
  unfold BusinessCalendar.capacity
  split
  · have hstart : combine (dayOf wall + i) calendar.workdayStart ≤ calendar.workStart wall i :=
      le_max_right _ _
    refine Int.toNat_of_nonpos ?_
    unfold BusinessCalendar.workEnd minute
    unfold combine at hstart ⊢
    omega
  · rfl

/-- A database of zones that knows UTC. -/
def utcOnly (name : String) : Option (ℤ → ℤ) := if name = "UTC" then some fun _ => 0 else none

/-- From five in the evening to nine in the morning, as an admin may enter it. -/
def eveningInput : CalendarInput :=
  ⟨some "UTC", some ⟨61200000000, by decide⟩, some ⟨32400000000, by decide⟩, some [0, 1, 2]⟩

/-- No time is found on it, and on a calendar with a zone of no such name. -/
theorem accepted_calendars_raise :
    (∃ calendar, BusinessCalendar.Accepted calendar ∧
        ¬ ∃ due, addBusinessMinutes utcOnly pythonDates calendar [] 0 60 = .ok due) ∧
      ∃ calendar, BusinessCalendar.Accepted calendar ∧
        addBusinessMinutes utcOnly pythonDates calendar [] 0 60 = .error .zoneInfoNotFound := by
  constructor
  · refine ⟨BusinessCalendar.create eveningInput, .created (by decide +kernel), ?_⟩
    rintro ⟨due, hdue⟩
    obtain ⟨zone, wall, -, -, n, x, hn, hfills, -⟩ := (addBusinessMinutes_pos_iff (by decide)).mp hdue
    have hnone : total ((BusinessCalendar.create eveningInput).capacity [] wall)
        ((pythonDates.last - dayOf wall).toNat + 1) = 0 :=
      workingMinutes_of_reversed (by decide +kernel) [] pythonDates wall
    have hle := hfills.within.trans (total_mono _ (Nat.succ_le_succ hn))
    rw [hnone] at hle
    exact absurd hle (by decide)
  · exact ⟨BusinessCalendar.create { eveningInput with timezoneName := some "Tehran" },
      .created (by decide +kernel), by decide +kernel⟩

end SetadJang.SupportDesk
