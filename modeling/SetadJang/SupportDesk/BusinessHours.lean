import Mathlib.Algebra.Order.Ring.Int
import Mathlib.Tactic.Ring
import SetadJang.SupportDesk.BusinessCalendars

/-!
# Counting business minutes

On a calendar with its hours in order and on whole minutes, in a zone of fixed offset and with
dates that do not end, `add_business_minutes` is an action of the minutes on the instants: it
counts the working time, a sum of minutes is one addition after the other, and order is kept.
-/

namespace SetadJang.SupportDesk

open SetadJang.Framework

/-! ## Regular calendars -/

/-- Hours in order and on whole minutes, and a weekday on which there is work. -/
structure BusinessCalendar.Regular (calendar : BusinessCalendar) : Prop where
  order : calendar.workdayStart.micros < calendar.workdayEnd.micros
  wholeStart : calendar.workdayStart.micros % 60000000 = 0
  wholeEnd : calendar.workdayEnd.micros % 60000000 = 0
  active : ∃ day ∈ calendar.weekdays, 0 ≤ day ∧ day ≤ 6

/-- The instant of a datetime, in a zone of fixed offset. -/
def AwareDatetime.instantAt (offset : ℤ) : AwareDatetime → ℤ
  | .instant at_ => at_
  | .zoned wall => wall - offset

/-- `add_business_minutes` gives the instant `r`, however far the dates go from some range on. -/
def Due (zones : String → Option (ℤ → ℤ)) (offset : ℤ) (calendar : BusinessCalendar)
    (holidays : List Holiday) (s minutes r : ℤ) : Prop :=
  ∃ bound : ℤ, ∀ range : DateRange, range.first ≤ -bound → bound ≤ range.last →
    ∃ due, addBusinessMinutes zones range calendar holidays s minutes = .ok due ∧
      due.instantAt offset = r

/-- The working time between two wall times, day by day. -/
def workingTime (calendar : BusinessCalendar) (holidays : List Holiday) (since until_ : ℤ) : ℤ :=
  ∑ i ∈ Finset.range ((dayOf until_ - dayOf since).toNat + 1),
    if calendar.isWorkingDay holidays (dayOf since + i) then
      max 0 (min until_ (calendar.workEnd since i) - calendar.workStart since i)
    else 0

/-- `add_business_minutes` in terms of the capacities of the days. -/
theorem due_iff {zones : String → Option (ℤ → ℤ)} {offset : ℤ} {calendar : BusinessCalendar}
    {holidays : List Holiday} (hzone : zones calendar.timezoneName = some fun _ => offset)
    {s minutes r : ℤ} (hpos : 1 ≤ minutes) :
    Due zones offset calendar holidays s minutes r ↔
      ∃ n x, Fills (calendar.capacity holidays (s + offset)) minutes.toNat n x ∧
        r + offset = calendar.workStart (s + offset) n + (x : ℤ) * minute := by
  constructor
  · rintro ⟨bound, hdue⟩
    obtain ⟨due, hok, rfl⟩ := hdue ⟨-bound, bound⟩ (le_refl _) (le_refl _)
    obtain ⟨zone, wall, hfound, hwall, n, x, -, hfills, rfl⟩ := (addBusinessMinutes_pos_iff hpos).mp hok
    obtain rfl := Option.some.inj (hzone.symm.trans hfound)
    obtain ⟨rfl, -⟩ := localtime_ok_iff.mp hwall
    exact ⟨n, x, hfills, Int.sub_add_cancel _ _⟩
  · rintro ⟨n, x, hfills, hr⟩
    -- dates from the day of the start to that of the result are enough
    refine ⟨max (-dayOf (s + offset)) (dayOf (s + offset) + n), fun range hfirst hlast => ?_⟩
    have hstart : range.first ≤ dayOf (s + offset) := by
      have hle := le_max_left (-dayOf (s + offset)) (dayOf (s + offset) + n)
      omega
    have hend : dayOf (s + offset) + n ≤ range.last := (le_max_right _ _).trans hlast
    refine ⟨_, (addBusinessMinutes_pos_iff hpos).mpr ⟨_, s + offset, hzone,
      localtime_ok_iff.mpr ⟨rfl, hstart, by omega⟩, n, x, by omega, hfills, rfl⟩, ?_⟩
    show _ - offset = r
    omega

/-! ## The days of a regular calendar -/

section days

variable {calendar : BusinessCalendar} {holidays : List Holiday} {current current' : ℤ}

theorem lt_of_dayOf_lt (h : dayOf current < dayOf current') : current < current' := by
  unfold dayOf dayLength at h
  omega

theorem dayOf_mono (h : current ≤ current') : dayOf current ≤ dayOf current' := by
  unfold dayOf dayLength
  omega

theorem workStart_succ (calendar : BusinessCalendar) (current : ℤ) (i : ℕ) :
    calendar.workStart current (i + 1) =
      combine (dayOf current + ((i + 1 : ℕ) : ℤ)) calendar.workdayStart := by
  have hlate : current < combine (dayOf current + ((i + 1 : ℕ) : ℤ)) calendar.workdayStart :=
    BusinessCalendar.lt_combine (by push_cast; omega) _
  exact max_eq_right hlate.le

/-- On a working day that begins later, the hours offer all their minutes. -/
theorem workEnd_sub_workStart_succ (calendar : BusinessCalendar) (current : ℤ) (i : ℕ) :
    calendar.workEnd current (i + 1) - calendar.workStart current (i + 1) =
      (calendar.workdayEnd.micros : ℤ) - calendar.workdayStart.micros := by
  rw [workStart_succ]
  unfold BusinessCalendar.workEnd combine
  omega

theorem capacity_of_working {i : ℕ}
    (h : calendar.isWorkingDay holidays (dayOf current + i) = true) :
    calendar.capacity holidays current i =
      ((calendar.workEnd current i - calendar.workStart current i) / minute).toNat :=
  if_pos h

theorem working_of_capacity_pos {i : ℕ} (h : 0 < calendar.capacity holidays current i) :
    calendar.isWorkingDay holidays (dayOf current + i) = true := by
  by_contra hrest
  unfold BusinessCalendar.capacity at h
  rw [if_neg hrest] at h
  exact Nat.lt_irrefl 0 h

/-- A later start finds no more on a day than an earlier one. -/
theorem capacity_le (holidays : List Holiday) {k : ℕ} (hle : current ≤ current')
    (hday : dayOf current' = dayOf current + k) (i : ℕ) :
    calendar.capacity holidays current' i ≤ calendar.capacity holidays current (k + i) := by
  have hsame : dayOf current' + (i : ℤ) = dayOf current + ((k + i : ℕ) : ℤ) := by
    push_cast
    omega
  have hstart : calendar.workStart current (k + i) ≤ calendar.workStart current' i := by
    unfold BusinessCalendar.workStart
    rw [hsame]
    exact max_le_max_right _ hle
  unfold BusinessCalendar.capacity BusinessCalendar.workEnd
  rw [hsame]
  split
  · unfold minute
    omega
  · exact le_refl 0

/-- Behind the last holiday there is work once a week. -/
theorem capacity_unbounded (hregular : calendar.Regular) (holidays : List Holiday) (current : ℤ)
    (m : ℕ) : ∃ n, m ≤ n ∧ 0 < calendar.capacity holidays current n := by
  obtain ⟨day, hactive, hfirst, hlast⟩ := hregular.active
  obtain ⟨last, hholidays⟩ : ∃ last : ℤ, ∀ holiday ∈ holidays, holiday.date ≤ last := by
    obtain ⟨last, hlast⟩ := (holidays.map Holiday.date).toFinset.bddAbove
    exact ⟨last, fun holiday hmem => hlast (by simpa using ⟨holiday, hmem, rfl⟩)⟩
  -- the first such weekday behind the holidays and the `m`-th day
  set week : ℤ := max last (dayOf current + m) + 1 with hweek
  have hlate : last < week := Int.lt_add_one_of_le (le_max_left _ _)
  have hfar : dayOf current + m < week := Int.lt_add_one_of_le (le_max_right _ _)
  obtain ⟨n, hn⟩ : ∃ n : ℕ, (n : ℤ) + 1 = week + (day - (week + 3)) % 7 - dayOf current :=
    ⟨(week + (day - (week + 3)) % 7 - dayOf current - 1).toNat, by omega⟩
  have hdate : dayOf current + ((n + 1 : ℕ) : ℤ) = week + (day - (week + 3)) % 7 := by
    push_cast
    omega
  have hworking : calendar.isWorkingDay holidays (dayOf current + ((n + 1 : ℕ) : ℤ)) = true := by
    have hweekday : weekday (week + (day - (week + 3)) % 7) = day := by
      unfold weekday
      omega
    have hfree : ∀ holiday ∈ holidays, holiday.date ≠ week + (day - (week + 3)) % 7 := by
      intro holiday hmem
      have hdate := hholidays holiday hmem
      omega
    unfold BusinessCalendar.isWorkingDay
    rw [hdate, hweekday]
    simp only [Bool.and_eq_true, List.contains_iff_mem, Bool.not_eq_true', List.any_eq_false,
      beq_iff_eq, not_and]
    exact ⟨hactive, fun holiday hmem heq => absurd heq (hfree holiday hmem)⟩
  refine ⟨n + 1, by omega, ?_⟩
  rw [capacity_of_working hworking, workEnd_sub_workStart_succ]
  have horder := hregular.order
  have hwholeStart := hregular.wholeStart
  have hwholeEnd := hregular.wholeEnd
  unfold minute
  omega

end days

/-! ## The result of an addition -/

section result

variable {calendar : BusinessCalendar} {holidays : List Holiday} {current : ℤ} {minutes n x : ℕ}

/-- The result lies in the hours of the day in which the demand ends. -/
theorem result_within (hfills : Fills (calendar.capacity holidays current) minutes n x) :
    calendar.isWorkingDay holidays (dayOf current + n) = true ∧
      calendar.workStart current n < calendar.workStart current n + (x : ℤ) * minute ∧
      calendar.workStart current n + (x : ℤ) * minute ≤ calendar.workEnd current n := by
  have hpos := hfills.pos
  have hle := hfills.le_cap
  have hworking := working_of_capacity_pos (hpos.trans_le hle)
  rw [capacity_of_working hworking] at hle
  unfold minute at hle ⊢
  exact ⟨hworking, by omega, by omega⟩

theorem dayOf_result (hfills : Fills (calendar.capacity holidays current) minutes n x) :
    dayOf (calendar.workStart current n + (x : ℤ) * minute) = dayOf current + n := by
  obtain ⟨-, hlower, hupper⟩ := result_within hfills
  have hstart : combine (dayOf current + n) calendar.workdayStart ≤ calendar.workStart current n :=
    le_max_right _ _
  have hday := calendar.workdayEnd.lt_day
  unfold BusinessCalendar.workEnd at hupper
  generalize calendar.workStart current n + (x : ℤ) * minute = due at *
  unfold combine at hstart hupper
  unfold dayOf dayLength at *
  omega

/-- The time of work that a day offers. -/
def daySpan (calendar : BusinessCalendar) (holidays : List Holiday) (current : ℤ) (i : ℕ) : ℤ :=
  if calendar.isWorkingDay holidays (dayOf current + i) then
    max 0 (calendar.workEnd current i - calendar.workStart current i)
  else 0

/-- The first day is cut down to whole minutes. -/
theorem daySpan_bounds (calendar : BusinessCalendar) (holidays : List Holiday) (current : ℤ)
    (i : ℕ) :
    minute * (calendar.capacity holidays current i : ℤ) ≤ daySpan calendar holidays current i ∧
      daySpan calendar holidays current i <
        minute * (calendar.capacity holidays current i : ℤ) + minute := by
  unfold daySpan BusinessCalendar.capacity
  split
  · unfold minute
    omega
  · unfold minute
    omega

/-- The days behind it offer whole minutes. -/
theorem daySpan_succ (hregular : calendar.Regular) (holidays : List Holiday) (current : ℤ)
    (i : ℕ) :
    daySpan calendar holidays current (i + 1) =
      minute * (calendar.capacity holidays current (i + 1) : ℤ) := by
  unfold daySpan BusinessCalendar.capacity
  rw [workEnd_sub_workStart_succ]
  have horder := hregular.order
  have hwholeStart := hregular.wholeStart
  have hwholeEnd := hregular.wholeEnd
  split
  · unfold minute
    omega
  · rfl

theorem sum_daySpan_bounds (hregular : calendar.Regular) (holidays : List Holiday) (current : ℤ)
    (n : ℕ) :
    minute * (total (calendar.capacity holidays current) n : ℤ) ≤
        ∑ i ∈ Finset.range n, daySpan calendar holidays current i ∧
      ∑ i ∈ Finset.range n, daySpan calendar holidays current i <
        minute * (total (calendar.capacity holidays current) n : ℤ) + minute := by
  induction n with
  | zero =>
      rw [Finset.sum_range_zero, total_zero]
      exact ⟨le_refl _, by decide⟩
  | succ n ih =>
      rw [Finset.sum_range_succ, total_succ]
      push_cast
      rw [mul_add]
      cases n with
      | zero =>
          have hfirst := daySpan_bounds calendar holidays current 0
          rw [Finset.sum_range_zero, total_zero]
          push_cast
          omega
      | succ n =>
          rw [daySpan_succ hregular]
          omega

/-- Up to the result, the days before the last are worked in full. -/
theorem workingTime_result (hfills : Fills (calendar.capacity holidays current) minutes n x) :
    workingTime calendar holidays current (calendar.workStart current n + (x : ℤ) * minute) =
      ∑ i ∈ Finset.range n, daySpan calendar holidays current i + minute * x := by
  obtain ⟨hworking, hlower, hupper⟩ := result_within hfills
  have hstart : combine (dayOf current + n) calendar.workdayStart ≤ calendar.workStart current n :=
    le_max_right _ _
  have hdays : (dayOf current + n - dayOf current).toNat = n := by omega
  unfold workingTime
  rw [dayOf_result hfills, hdays, Finset.sum_range_succ, if_pos hworking, min_eq_left hupper,
    max_eq_right (by omega)]
  have hearlier : ∀ i ∈ Finset.range n,
      (if calendar.isWorkingDay holidays (dayOf current + i) then
        max 0 (min (calendar.workStart current n + (x : ℤ) * minute) (calendar.workEnd current i) -
          calendar.workStart current i)
      else 0) = daySpan calendar holidays current i := by
    intro i hi
    have hend : calendar.workEnd current i < combine (dayOf current + n) calendar.workdayStart := by
      refine BusinessCalendar.lt_combine ?_ _
      rw [BusinessCalendar.workEnd, dayOf_combine]
      have hlt := Finset.mem_range.mp hi
      omega
    rw [min_eq_right (by omega)]
    rfl
  rw [Finset.sum_congr rfl hearlier]
  ring

/-- What is left of the day of the result. -/
theorem capacity_result_zero (hfills : Fills (calendar.capacity holidays current) minutes n x) :
    calendar.capacity holidays (calendar.workStart current n + (x : ℤ) * minute) 0 + x =
      calendar.capacity holidays current n := by
  obtain ⟨hworking, hlower, hupper⟩ := result_within hfills
  have hday := dayOf_result hfills
  have hle := hfills.le_cap
  rw [capacity_of_working hworking] at hle ⊢
  have hsame : calendar.isWorkingDay holidays
      (dayOf (calendar.workStart current n + (x : ℤ) * minute) + ((0 : ℕ) : ℤ)) = true := by
    rw [hday, Nat.cast_zero, add_zero]
    exact hworking
  rw [capacity_of_working hsame]
  have hstart : combine (dayOf current + n) calendar.workdayStart ≤ calendar.workStart current n :=
    le_max_right _ _
  have hnow : calendar.workStart (calendar.workStart current n + (x : ℤ) * minute) 0 =
      calendar.workStart current n + (x : ℤ) * minute := by
    refine max_eq_left ?_
    rw [hday, Nat.cast_zero, add_zero]
    omega
  have hend : calendar.workEnd (calendar.workStart current n + (x : ℤ) * minute) 0 =
      calendar.workEnd current n := by
    unfold BusinessCalendar.workEnd
    rw [hday, Nat.cast_zero, add_zero]
  rw [hnow, hend]
  unfold minute at *
  omega

theorem dayOf_result_add (hfills : Fills (calendar.capacity holidays current) minutes n x)
    (i : ℕ) :
    dayOf (calendar.workStart current n + (x : ℤ) * minute) + ((i + 1 : ℕ) : ℤ) =
      dayOf current + ((n + (i + 1) : ℕ) : ℤ) := by
  rw [dayOf_result hfills]
  push_cast
  ring

/-- The days behind it are as they were. -/
theorem capacity_result_succ (hfills : Fills (calendar.capacity holidays current) minutes n x)
    (i : ℕ) :
    calendar.capacity holidays (calendar.workStart current n + (x : ℤ) * minute) (i + 1) =
      calendar.capacity holidays current (n + (i + 1)) := by
  have hday := dayOf_result_add hfills i
  have hspan := workEnd_sub_workStart_succ calendar
    (calendar.workStart current n + (x : ℤ) * minute) i
  have hspan' := workEnd_sub_workStart_succ calendar current (n + i)
  unfold BusinessCalendar.capacity
  rw [hday, hspan, ← Nat.add_assoc, hspan']

theorem workStart_result_succ (hfills : Fills (calendar.capacity holidays current) minutes n x)
    (i : ℕ) :
    calendar.workStart (calendar.workStart current n + (x : ℤ) * minute) (i + 1) =
      calendar.workStart current (n + (i + 1)) := by
  rw [workStart_succ, dayOf_result_add hfills, ← Nat.add_assoc, workStart_succ]

end result

/-! ## The laws -/

section laws

variable {zones : String → Option (ℤ → ℤ)} {offset : ℤ} {calendar : BusinessCalendar}
  {holidays : List Holiday} {s s' a b r r' : ℤ}

/-- Every number of minutes comes to an instant. -/
theorem exists_due (hzone : zones calendar.timezoneName = some fun _ => offset)
    (hregular : calendar.Regular) (holidays : List Holiday) (s : ℤ) (ha : 1 ≤ a) :
    ∃ r, Due zones offset calendar holidays s a r := by
  obtain ⟨m, hm⟩ := total_unbounded (capacity_unbounded hregular holidays (s + offset)) a.toNat
  obtain ⟨n, x, -, hfills⟩ := exists_fills (show 0 < a.toNat by omega) hm
  exact ⟨calendar.workStart (s + offset) n + (x : ℤ) * minute - offset,
    (due_iff hzone ha).mpr ⟨n, x, hfills, Int.sub_add_cancel _ _⟩⟩

theorem due_within (hzone : zones calendar.timezoneName = some fun _ => offset) (ha : 1 ≤ a)
    (h : Due zones offset calendar holidays s a r) :
    s < r ∧ ∃ day, calendar.isWorkingDay holidays day = true ∧
      combine day calendar.workdayStart < r + offset ∧
      r + offset ≤ combine day calendar.workdayEnd := by
  obtain ⟨n, x, hfills, hr⟩ := (due_iff hzone ha).mp h
  obtain ⟨hworking, hlower, hupper⟩ := result_within hfills
  have hsince : s + offset ≤ calendar.workStart (s + offset) n := le_max_left _ _
  have hstart : combine (dayOf (s + offset) + n) calendar.workdayStart ≤
    calendar.workStart (s + offset) n := le_max_right _ _
  rw [← hr] at hlower hupper
  exact ⟨by omega, _, hworking, by omega, hupper⟩

/-- The working time up to the result is the minutes, and less than one more. -/
theorem workingTime_due (hzone : zones calendar.timezoneName = some fun _ => offset)
    (hregular : calendar.Regular) (ha : 1 ≤ a) (h : Due zones offset calendar holidays s a r) :
    minute * a ≤ workingTime calendar holidays (s + offset) (r + offset) ∧
      workingTime calendar holidays (s + offset) (r + offset) < minute * a + minute := by
  obtain ⟨n, x, hfills, hr⟩ := (due_iff hzone ha).mp h
  obtain ⟨hlower, hupper⟩ := sum_daySpan_bounds hregular holidays (s + offset) n
  have hminutes : minute * a =
      minute * (total (calendar.capacity holidays (s + offset)) n : ℤ) + minute * x := by
    rw [← mul_add]
    congr 1
    have hused := hfills.used
    omega
  rw [hr, workingTime_result hfills, hminutes]
  omega

/-- Minutes added to the result of an addition are added to its minutes. -/
theorem due_append (hzone : zones calendar.timezoneName = some fun _ => offset) (ha : 1 ≤ a)
    (hb : 1 ≤ b) (h : Due zones offset calendar holidays s a r)
    (h' : Due zones offset calendar holidays r b r') :
    Due zones offset calendar holidays s (a + b) r' := by
  obtain ⟨n, x, hfills, hr⟩ := (due_iff hzone ha).mp h
  obtain ⟨m, y, hfills', hr'⟩ := (due_iff hzone hb).mp h'
  rw [hr] at hfills' hr'
  have happend := hfills.append (capacity_result_zero hfills) (capacity_result_succ hfills) hfills'
  rw [← Int.toNat_add (by omega) (by omega)] at happend
  refine (due_iff hzone (by omega)).mpr ⟨_, _, happend, ?_⟩
  rw [hr']
  cases m with
  | zero =>
      -- the second addition stays on the day of the first
      obtain ⟨-, hlower, -⟩ := result_within hfills
      have hstart : combine (dayOf (s + offset) + n) calendar.workdayStart ≤
        calendar.workStart (s + offset) n := le_max_right _ _
      have hnow : calendar.workStart
          (calendar.workStart (s + offset) n + (x : ℤ) * minute) 0 =
            calendar.workStart (s + offset) n + (x : ℤ) * minute := by
        refine max_eq_left ?_
        rw [dayOf_result hfills, Nat.cast_zero, add_zero]
        omega
      rw [hnow, if_pos rfl, Nat.add_zero]
      push_cast
      ring
  | succ m =>
      rw [if_neg (Nat.succ_ne_zero m), workStart_result_succ hfills]

/-- A later start and more minutes end no earlier. -/
theorem due_mono (hzone : zones calendar.timezoneName = some fun _ => offset) (ha : 1 ≤ a)
    (hs : s ≤ s') (hab : a ≤ b) (h : Due zones offset calendar holidays s a r)
    (h' : Due zones offset calendar holidays s' b r') : r ≤ r' := by
  obtain ⟨n, x, hfills, hr⟩ := (due_iff hzone ha).mp h
  obtain ⟨n', x', hfills', hr'⟩ := (due_iff hzone (ha.trans hab)).mp h'
  have hle : s + offset ≤ s' + offset := by omega
  obtain ⟨k, hday⟩ : ∃ k : ℕ, dayOf (s' + offset) = dayOf (s + offset) + k := by
    have hdays := dayOf_mono hle
    exact ⟨(dayOf (s' + offset) - dayOf (s + offset)).toNat, by omega⟩
  suffices hlate : r + offset ≤ r' + offset by omega
  rw [hr, hr']
  rcases hfills.place_lt_or hfills' (by omega) (capacity_le holidays hle hday) with
    hearlier | ⟨rfl, hx⟩
  · refine (lt_of_dayOf_lt ?_).le
    rw [dayOf_result hfills, dayOf_result hfills']
    omega
  · have hsame : dayOf (s + offset) + ((k + n' : ℕ) : ℤ) = dayOf (s' + offset) + n' := by
      push_cast
      omega
    have hstart : calendar.workStart (s + offset) (k + n') ≤
        calendar.workStart (s' + offset) n' := by
      unfold BusinessCalendar.workStart
      rw [hsame]
      exact max_le_max_right _ hle
    unfold minute
    omega

end laws

/-- **Business minutes are counted exactly.** With dates unbounded: there is a result; it lies
after the start, within the hours of a working day; the working time up to it is the minutes and
less than one more; to add twice is to add the sum; and order is kept. -/
theorem business_minutes_counted {zones : String → Option (ℤ → ℤ)} {offset : ℤ}
    {calendar : BusinessCalendar} (hzone : zones calendar.timezoneName = some fun _ => offset)
    (hregular : calendar.Regular) (holidays : List Holiday) :
    (∀ s a, 1 ≤ a → ∃! r, Due zones offset calendar holidays s a r) ∧
      (∀ s a r, 1 ≤ a → Due zones offset calendar holidays s a r →
        (s < r ∧ ∃ day, calendar.isWorkingDay holidays day = true ∧
          combine day calendar.workdayStart < r + offset ∧
          r + offset ≤ combine day calendar.workdayEnd) ∧
        minute * a ≤ workingTime calendar holidays (s + offset) (r + offset) ∧
        workingTime calendar holidays (s + offset) (r + offset) < minute * a + minute) ∧
      (∀ s a b r r', 1 ≤ a → 1 ≤ b → Due zones offset calendar holidays s a r →
        (Due zones offset calendar holidays r b r' ↔
          Due zones offset calendar holidays s (a + b) r')) ∧
      ∀ s s' a b r r', s ≤ s' → 1 ≤ a → a ≤ b → Due zones offset calendar holidays s a r →
        Due zones offset calendar holidays s' b r' → r ≤ r' := by
  have hunique : ∀ {s a r r'}, 1 ≤ a → Due zones offset calendar holidays s a r →
      Due zones offset calendar holidays s a r' → r = r' := fun ha h h' =>
    le_antisymm (due_mono hzone ha (le_refl _) (le_refl _) h h')
      (due_mono hzone ha (le_refl _) (le_refl _) h' h)
  refine ⟨?_, ?_, ?_, ?_⟩
  · intro s a ha
    obtain ⟨r, hr⟩ := exists_due hzone hregular holidays s ha
    exact ⟨r, hr, fun _ h => hunique ha h hr⟩
  · intro s a r ha h
    exact ⟨due_within hzone ha h, workingTime_due hzone hregular ha h⟩
  · intro s a b r r' ha hb h
    refine ⟨due_append hzone ha hb h, fun h' => ?_⟩
    obtain ⟨r'', hr''⟩ := exists_due hzone hregular holidays r hb
    obtain rfl := hunique (by omega) h' (due_append hzone ha hb h hr'')
    exact hr''
  · intro s s' a b r r' hs ha hab h h'
    exact due_mono hzone ha hs hab h h'

/-- From nine to five, Saturday to Wednesday. -/
def officeHours : BusinessCalendar := BusinessCalendar.create ⟨some "UTC", none, none, none⟩

theorem officeHours_regular : officeHours.Regular :=
  ⟨by decide +kernel, by decide +kernel, by decide +kernel, 5, by decide +kernel, by decide⟩

/-- Sixty minutes and thirty after them are ninety, with a holiday on the way. -/
theorem business_minutes_counted_office :
    ∃ r r', Due utcOnly 0 officeHours [⟨2, true⟩] 0 60 r ∧
      Due utcOnly 0 officeHours [⟨2, true⟩] r 30 r' ∧
      Due utcOnly 0 officeHours [⟨2, true⟩] 0 90 r' := by
  obtain ⟨hexists, -, happend, -⟩ := business_minutes_counted
    (show utcOnly officeHours.timezoneName = some fun _ => 0 from rfl) officeHours_regular
    [⟨2, true⟩]
  obtain ⟨r, hr, -⟩ := hexists 0 60 (by decide)
  obtain ⟨r', hr', -⟩ := hexists r 30 (by decide)
  exact ⟨r, r', hr, hr', (happend 0 60 30 r r' (by decide) (by decide) hr).mp hr'⟩

/-- Five hundred minutes from a Thursday on, over a weekend and a holiday, end on a Monday. -/
example : addBusinessMinutes utcOnly pythonDates officeHours [⟨2, true⟩] 30000000 500 =
    .ok (.zoned (combine 4 ⟨33600000000, by decide⟩)) := by decide +kernel

end SetadJang.SupportDesk
