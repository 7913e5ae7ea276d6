import SetadJang.Lms.Certificates
import SetadJang.Lms.Completion

/-!
# The counters of the courses

`sync_course_counters` counts the lessons and enrollments of one course afresh.  Every service
that changes them calls it, the completion of an enrollment after a passed quiz included; the
completion of an enrollment by its last lesson, in `_sync_enrollment_progress`, does not.
-/

namespace SetadJang.Lms

open SetadJang.Framework

/-! ## Counters -/

structure CourseCounters where
  estimatedDurationSeconds : ℕ
  lessonsCount : ℕ
  enrollmentsCount : ℕ
  graduatesCount : ℕ

def Course.counters (course : Course) : CourseCounters :=
  ⟨course.estimatedDurationSeconds, course.lessonsCount, course.enrollmentsCount,
    course.graduatesCount⟩

def lessonOf (c : ℕ) (lesson : Lesson) : Bool := lesson.course == c && lesson.isActive

def enrolledIn (c : ℕ) (enrollment : Enrollment) : Bool :=
  enrollment.course == c && enrollment.isActive && enrollment.status == .active

def graduateOf (c : ℕ) (enrollment : Enrollment) : Bool :=
  enrollment.course == c && enrollment.isActive && enrollment.status == .completed

/-- The formulas of `sync_course_counters`. -/
def countersOf (s : LmsStore) (c : ℕ) : CourseCounters :=
  ⟨sumWhere (lessonOf c) Lesson.durationSeconds s.lessons, s.lessons.countP (lessonOf c),
    s.enrollments.countP (enrolledIn c), s.enrollments.countP (graduateOf c)⟩

/-- **Course counters.** Every course has the counters that its lessons and enrollments give. -/
def CourseCountersTrue (s : LmsStore) : Prop :=
  ∀ (c : ℕ) row, s.courses[c]? = some row → row.counters = countersOf s c

/-- The event completes the enrollment: it is active, and with the event as many of its lessons
are completed as its course has active ones. -/
def CompletesEnrollment (s : LmsStore) (now e l : ℕ) (watchedSeconds : ℤ)
    (lastPositionSeconds : Option ℤ) (markCompleted mediaOpened : Bool) : Prop :=
  ∃ enrollment lesson, s.enrollments[e]? = some enrollment ∧ s.lessons[l]? = some lesson ∧
    enrollment.status = .active ∧ 0 < (s.activeLessons enrollment.course).length ∧
    (s.activeLessons enrollment.course).length ≤
      (s.saveProgress (eventRow s now e l lesson watchedSeconds lastPositionSeconds markCompleted
        mediaOpened)).progress.countP fun row => row.enrollment == e && row.isCompleted

/-- The call completes no enrollment by its last lesson, or it is refused. -/
def CountsCompletion (s : Academy) : AcademyCall → Prop
  | .updateProgress now e l watchedSeconds lastPositionSeconds markCompleted mediaOpened =>
      ∀ lms, s.lms.updateLessonProgress now e l watchedSeconds lastPositionSeconds markCompleted
          mediaOpened = .ok lms →
        ¬ CompletesEnrollment s.lms now e l watchedSeconds lastPositionSeconds markCompleted
          mediaOpened
  | _ => True

/-- Every enrollment is in a course. -/
def EnrollmentsPlaced (s : LmsStore) : Prop :=
  ∀ enrollment ∈ s.enrollments, enrollment.course < s.courses.length

/-! ## Counting again -/

section sync

variable {s s' : LmsStore} {c : ℕ}

/-- A course that is counted again has true counters. -/
theorem countersTrue_sync
    (h : ∀ (j : ℕ) row, j ≠ c → s.courses[j]? = some row → row.counters = countersOf s j) :
    CourseCountersTrue (s.syncCourseCounters c) := by
  intro j row hrow
  show row.counters = countersOf s j
  rcases getElem?_modify_cases hrow with ⟨rfl, old, -, rfl⟩ | ⟨hne, hold⟩
  · rfl
  · exact h j row (Ne.symm hne) hold

/-- A change to the lessons and enrollments of one course, which is counted again. -/
theorem countersTrue_resync (h : CourseCountersTrue s) (hcourses : s'.courses = s.courses)
    (hother : ∀ j, j ≠ c → countersOf s' j = countersOf s j) :
    CourseCountersTrue (s'.syncCourseCounters c) := by
  apply countersTrue_sync
  intro j row hj hrow
  rw [hother j hj]
  rw [hcourses] at hrow
  exact h j row hrow

/-- A change that counts nothing differently. -/
theorem countersTrue_same (h : CourseCountersTrue s) (hcourses : s'.courses = s.courses)
    (hsame : ∀ j, countersOf s' j = countersOf s j) : CourseCountersTrue s' := by
  intro j row hrow
  rw [hsame]
  rw [hcourses] at hrow
  exact h j row hrow

theorem countersOf_eq {j : ℕ}
    (hduration : sumWhere (lessonOf j) Lesson.durationSeconds s'.lessons =
      sumWhere (lessonOf j) Lesson.durationSeconds s.lessons)
    (hlessons : s'.lessons.countP (lessonOf j) = s.lessons.countP (lessonOf j))
    (henrolled : s'.enrollments.countP (enrolledIn j) = s.enrollments.countP (enrolledIn j))
    (hgraduates : s'.enrollments.countP (graduateOf j) = s.enrollments.countP (graduateOf j)) :
    countersOf s' j = countersOf s j := by
  rw [countersOf, countersOf, hduration, hlessons, henrolled, hgraduates]

end sync

/-! ## Lessons -/

section lessons

variable {s s' : LmsStore} {l : ℕ}

theorem lessonOf_eq_false (lesson : Lesson) {j : ℕ} (h : lesson.course ≠ j) :
    lessonOf j lesson = false := by
  rw [lessonOf, beq_eq_false_iff_ne.mpr h]
  rfl

theorem countersTrue_createLesson {lesson : Lesson} (h : CourseCountersTrue s)
    (hok : s.createLesson lesson = .ok s') : CourseCountersTrue s' := by
  unfold LmsStore.createLesson at hok
  split at hok
  · cases hok
  · obtain rfl := Except.ok.inj hok
    refine countersTrue_resync h rfl fun j hj => ?_
    have hout := lessonOf_eq_false lesson (Ne.symm hj)
    refine countersOf_eq ?_ ?_ rfl rfl
    · show sumWhere _ _ (s.lessons ++ [lesson]) = _
      rw [sumWhere_append, hout]
      rfl
    · show (s.lessons ++ [lesson]).countP _ = _
      rw [List.countP_append, List.countP_singleton, hout]
      rfl

/-- Lessons that are rewritten within their course. -/
theorem countersOf_modifyLesson {f : Lesson → Lesson} {lesson : Lesson} {j : ℕ}
    (hlesson : s.lessons[l]? = some lesson) (hcounts : lessonOf j (f lesson) = lessonOf j lesson)
    (hduration : lessonOf j lesson = true → (f lesson).durationSeconds = lesson.durationSeconds) :
    countersOf { s with lessons := s.lessons.modify l f } j = countersOf s j := by
  refine countersOf_eq ?_ ((countP_modify_eq_iff hlesson).mpr hcounts) rfl rfl
  have hbalance := sumWhere_modify (lessonOf j) Lesson.durationSeconds f hlesson
  rw [hcounts] at hbalance
  cases hin : lessonOf j lesson with
  | false =>
      rw [hin] at hbalance
      exact hbalance
  | true =>
      rw [hin, hduration hin] at hbalance
      exact Nat.add_right_cancel hbalance

theorem countersTrue_updateLesson {fields : LmsStore.LessonFields} (h : CourseCountersTrue s)
    (hok : s.updateLesson l fields = .ok s') : CourseCountersTrue s' := by
  unfold LmsStore.updateLesson at hok
  split at hok
  · cases hok
  · rename_i lesson hlesson
    split at hok
    · cases hok
    · dsimp only at hok
      split at hok
      · obtain rfl := Except.ok.inj hok
        refine countersTrue_resync h rfl fun j hj => ?_
        have hout : lessonOf j lesson = false := lessonOf_eq_false lesson (Ne.symm hj)
        refine countersOf_modifyLesson hlesson ?_ ?_
        · rw [hout]
          exact lessonOf_eq_false (fields.apply lesson) (Ne.symm hj)
        · intro hin
          rw [hout] at hin
          cases hin
      · rename_i hnone
        obtain rfl := Except.ok.inj hok
        -- neither the duration nor the flag is among the fields
        rw [Bool.or_eq_true, not_or, Bool.not_eq_true, Bool.not_eq_true, Option.isSome_eq_false_iff,
          Option.isSome_eq_false_iff, Option.isNone_iff_eq_none, Option.isNone_iff_eq_none] at hnone
        refine countersTrue_same h rfl fun j => countersOf_modifyLesson hlesson ?_ fun _ => ?_
        · rw [lessonOf, lessonOf, LmsStore.LessonFields.apply, hnone.2]
          rfl
        · rw [LmsStore.LessonFields.apply, hnone.1]
          rfl

theorem countersTrue_deleteLesson (h : CourseCountersTrue s) (hok : s.deleteLesson l = .ok s') :
    CourseCountersTrue s' := by
  unfold LmsStore.deleteLesson at hok
  split at hok
  · cases hok
  · rename_i lesson hlesson
    obtain rfl := Except.ok.inj hok
    refine countersTrue_resync h rfl fun j hj => ?_
    have hout : lessonOf j lesson = false := lessonOf_eq_false lesson (Ne.symm hj)
    refine countersOf_modifyLesson hlesson ?_ ?_
    · rw [hout]
      exact lessonOf_eq_false { lesson with isActive := false } (Ne.symm hj)
    · intro hin
      rw [hout] at hin

end lessons

/-! ## Enrollments -/

section enrollments

variable {s s' : LmsStore} {e : ℕ}

theorem notIn_eq_false (enrollment : Enrollment) {j : ℕ} (h : enrollment.course ≠ j) :
    enrolledIn j enrollment = false ∧ graduateOf j enrollment = false := by
  rw [enrolledIn, graduateOf, beq_eq_false_iff_ne.mpr h]
  exact ⟨rfl, rfl⟩

theorem countersTrue_enroll {user c : ℕ} {profileComplete : Bool} (h : CourseCountersTrue s)
    (hok : s.enrollUserInCourse user c profileComplete = .ok s') : CourseCountersTrue s' := by
  unfold LmsStore.enrollUserInCourse at hok
  split at hok
  · cases hok
  split at hok
  · cases hok
  rename_i course hcourse
  split at hok
  · cases hok
  split at hok
  · obtain rfl := Except.ok.inj hok
    exact h
  split at hok
  · cases hok
  obtain rfl := Except.ok.inj hok
  refine countersTrue_resync h rfl fun j hj => ?_
  obtain ⟨henrolled, hgraduate⟩ := notIn_eq_false
    ⟨c, user, .active, true, none, none, 0, 0, course.estimatedDurationSeconds⟩
    (Ne.symm hj)
  refine countersOf_eq rfl rfl ?_ ?_
  · show (s.enrollments ++ [_]).countP _ = _
    rw [List.countP_append, List.countP_singleton, henrolled]
    rfl
  · show (s.enrollments ++ [_]).countP _ = _
    rw [List.countP_append, List.countP_singleton, hgraduate]
    rfl

/-- An enrollment that is rewritten within its course counts as before in every other course,
and in its own unless its status counts differently. -/
theorem countersOf_modifyEnrollment {f : Enrollment → Enrollment} {enrollment : Enrollment} {j : ℕ}
    (henrollment : s.enrollments[e]? = some enrollment)
    (hcourse : (f enrollment).course = enrollment.course)
    (hactive : (f enrollment).isActive = enrollment.isActive)
    (hstatus : j = enrollment.course → (f enrollment).status = enrollment.status) :
    countersOf { s with enrollments := s.enrollments.modify e f } j = countersOf s j := by
  refine countersOf_eq rfl rfl ((countP_modify_eq_iff henrollment).mpr ?_)
    ((countP_modify_eq_iff henrollment).mpr ?_)
  · by_cases hj : j = enrollment.course
    · rw [enrolledIn, enrolledIn, hcourse, hactive, hstatus hj]
    · rw [(notIn_eq_false _ (Ne.symm hj)).1, (notIn_eq_false _ (hcourse ▸ Ne.symm hj)).1]
  · by_cases hj : j = enrollment.course
    · rw [graduateOf, graduateOf, hcourse, hactive, hstatus hj]
    · rw [(notIn_eq_false _ (Ne.symm hj)).2, (notIn_eq_false _ (hcourse ▸ Ne.symm hj)).2]

theorem countersTrue_completeEnrollment (h : CourseCountersTrue s) (now e : ℕ) :
    CourseCountersTrue (QuizStore.completeEnrollmentAfterPass s now e) := by
  unfold QuizStore.completeEnrollmentAfterPass
  split
  · exact h
  · rename_i enrollment henrollment
    split
    · exact h
    · refine countersTrue_resync h rfl fun j hj => ?_
      exact countersOf_modifyEnrollment henrollment rfl rfl fun hcourse => absurd hcourse hj

/-! ## A learner's event -/

/-- Progress rows count for no course. -/
theorem countersOf_saveProgress (row : LessonProgress) (l j : ℕ) :
    countersOf ((s.saveProgress row).saveLastAccessed e l) j = countersOf s j := by
  cases henrollment : s.enrollments[e]? with
  | none =>
      have hsame : ((s.saveProgress row).saveLastAccessed e l).enrollments = s.enrollments :=
        List.modify_eq_self (List.getElem?_eq_none_iff.mp henrollment)
      exact countersOf_eq rfl rfl (by rw [hsame]) (by rw [hsame])
  | some enrollment =>
      exact countersOf_modifyEnrollment (s := s.saveProgress row) henrollment rfl rfl fun _ => rfl

/-- `_sync_enrollment_progress` changes a counter exactly when it completes the enrollment. -/
theorem countersTrue_syncEnrollment_iff {enrollment stored : Enrollment} {now : ℕ}
    (h : CourseCountersTrue s) (hplaced : enrollment.course < s.courses.length)
    (hstored : s.enrollments[e]? = some stored) (hcourse : stored.course = enrollment.course)
    (hactive : stored.isActive = true) (hstatus : stored.status = enrollment.status) :
    CourseCountersTrue (s.syncEnrollmentProgress now e enrollment) ↔
      ¬ (enrollment.status = .active ∧ 0 < (s.activeLessons enrollment.course).length ∧
        (s.activeLessons enrollment.course).length ≤
          s.progress.countP fun row => row.enrollment == e && row.isCompleted) := by
  have hcompleted : ((s.progress.filter fun row => row.enrollment == e).filter
      LessonProgress.isCompleted).length =
        s.progress.countP fun row => row.enrollment == e && row.isCompleted := by
    rw [List.filter_filter, ← List.countP_eq_length_filter]
    apply List.countP_congr
    intro row _
    rw [Bool.and_comm]
  unfold LmsStore.syncEnrollmentProgress
  dsimp only
  rw [hcompleted]
  by_cases hcompletes : enrollment.status = .active ∧
      0 < (s.activeLessons enrollment.course).length ∧
      (s.activeLessons enrollment.course).length ≤
        s.progress.countP fun row => row.enrollment == e && row.isCompleted
  · refine iff_of_false ?_ (not_not.mpr hcompletes)
    intro hafter
    have hrow := List.getElem?_eq_getElem hplaced
    have hsame := congrArg CourseCounters.enrollmentsCount
      ((hafter _ _ hrow).symm.trans (h _ _ hrow))
    have hcounts := (countP_modify_eq_iff hstored).mp hsame
    have hbefore : enrolledIn enrollment.course stored = true := by
      rw [enrolledIn, hcourse, hactive, hstatus, hcompletes.1]
      simp
    rw [hbefore] at hcounts
    simp [enrolledIn, hcompletes.1, hcompletes.2] at hcounts
  · refine iff_of_true ?_ hcompletes
    refine countersTrue_same h rfl fun j => ?_
    refine countersOf_modifyEnrollment hstored rfl rfl fun _ => ?_
    rw [hstatus]
    refine if_neg ?_
    rw [Bool.and_eq_true, decide_eq_true_eq, beq_iff_eq]
    rintro ⟨hcount, hopen⟩
    exact hcompletes ⟨hopen, hcount⟩

theorem countersTrue_updateProgress_iff {now l : ℕ} {watchedSeconds : ℤ}
    {lastPositionSeconds : Option ℤ} {markCompleted mediaOpened : Bool} (h : CourseCountersTrue s)
    (hplaced : EnrollmentsPlaced s)
    (hok : s.updateLessonProgress now e l watchedSeconds lastPositionSeconds markCompleted
      mediaOpened = .ok s') :
    CourseCountersTrue s' ↔ ¬ CompletesEnrollment s now e l watchedSeconds lastPositionSeconds
      markCompleted mediaOpened := by
  obtain ⟨enrollment, lesson, henrollment, hlesson, hactive, -, rfl⟩ := updateLessonProgress_event hok
  have hrecorded : CourseCountersTrue ((s.saveProgress (eventRow s now e l lesson watchedSeconds
      lastPositionSeconds markCompleted mediaOpened)).saveLastAccessed e l) :=
    countersTrue_same h rfl fun j => countersOf_saveProgress _ l j
  have hstored : ((s.saveProgress (eventRow s now e l lesson watchedSeconds lastPositionSeconds
      markCompleted mediaOpened)).saveLastAccessed e l).enrollments[e]? =
        some { enrollment with lastAccessedLesson := some l } := by
    show (s.enrollments.modify e _)[e]? = _
    rw [List.getElem?_modify, henrollment]
    exact congrArg some (if_pos rfl)
  refine (countersTrue_syncEnrollment_iff hrecorded
    (hplaced enrollment (List.mem_of_getElem? henrollment)) hstored rfl hactive rfl).trans ?_
  refine not_congr ⟨fun hcompletes => ⟨enrollment, lesson, henrollment, hlesson, hcompletes⟩, ?_⟩
  rintro ⟨enrollment', lesson', henrollment', hlesson', hcompletes⟩
  obtain rfl := Option.some.inj (henrollment.symm.trans henrollment')
  obtain rfl := Option.some.inj (hlesson.symm.trans hlesson')
  exact hcompletes

/-! ## Enrollments stay in their courses -/

theorem placed_same (h : EnrollmentsPlaced s) (henrollments : s'.enrollments = s.enrollments)
    (hcourses : s.courses.length ≤ s'.courses.length) : EnrollmentsPlaced s' := by
  intro enrollment hmem
  rw [henrollments] at hmem
  exact (h enrollment hmem).trans_le hcourses

theorem length_syncCourseCounters (s : LmsStore) (c : ℕ) :
    (s.syncCourseCounters c).courses.length = s.courses.length := List.length_modify _ _ _

theorem placed_sync (h : EnrollmentsPlaced s) (c : ℕ) :
    EnrollmentsPlaced (s.syncCourseCounters c) := by
  refine placed_same h rfl ?_
  rw [length_syncCourseCounters]

/-- Enrollments that are rewritten keep their course. -/
theorem placed_modify {f : Enrollment → Enrollment} (h : EnrollmentsPlaced s)
    (henrollments : s'.enrollments = s.enrollments.modify e f)
    (hf : ∀ enrollment, (f enrollment).course = enrollment.course)
    (hcourses : s'.courses.length = s.courses.length) : EnrollmentsPlaced s' := by
  intro enrollment hmem
  rw [henrollments] at hmem
  obtain ⟨k, hk⟩ := List.mem_iff_getElem?.mp hmem
  rw [hcourses]
  rcases getElem?_modify_cases hk with ⟨-, old, hold, rfl⟩ | ⟨-, hold⟩
  · rw [hf]
    exact h old (List.mem_of_getElem? hold)
  · exact h enrollment (List.mem_of_getElem? hold)

theorem placed_enroll {user c : ℕ} {profileComplete : Bool} (h : EnrollmentsPlaced s)
    (hok : s.enrollUserInCourse user c profileComplete = .ok s') : EnrollmentsPlaced s' := by
  unfold LmsStore.enrollUserInCourse at hok
  split at hok
  · cases hok
  split at hok
  · cases hok
  rename_i course hcourse
  split at hok
  · cases hok
  split at hok
  · obtain rfl := Except.ok.inj hok
    exact h
  split at hok
  · cases hok
  obtain rfl := Except.ok.inj hok
  intro enrollment hmem
  rw [length_syncCourseCounters]
  rcases List.mem_append.mp hmem with hmem | hmem
  · exact h enrollment hmem
  · rw [List.mem_singleton.mp hmem]
    exact (List.getElem?_eq_some_iff.mp hcourse).1

theorem placed_completeEnrollment (h : EnrollmentsPlaced s) (now e : ℕ) :
    EnrollmentsPlaced (QuizStore.completeEnrollmentAfterPass s now e) := by
  unfold QuizStore.completeEnrollmentAfterPass
  split
  · exact h
  · split
    · exact h
    · apply placed_sync
      exact placed_modify h rfl (fun _ => rfl) rfl

theorem placed_updateProgress {now l : ℕ} {watchedSeconds : ℤ} {lastPositionSeconds : Option ℤ}
    {markCompleted mediaOpened : Bool} (h : EnrollmentsPlaced s)
    (hok : s.updateLessonProgress now e l watchedSeconds lastPositionSeconds markCompleted
      mediaOpened = .ok s') : EnrollmentsPlaced s' := by
  obtain ⟨enrollment, lesson, -, -, -, -, rfl⟩ := updateLessonProgress_event hok
  have haccessed : EnrollmentsPlaced ((s.saveProgress (eventRow s now e l lesson watchedSeconds
      lastPositionSeconds markCompleted mediaOpened)).saveLastAccessed e l) :=
    placed_modify h rfl (fun _ => rfl) rfl
  exact placed_modify haccessed rfl (fun _ => rfl) rfl

end enrollments

/-! ## One call -/

/-- What a call leaves of the courses: counted as before, counted again, or an event. -/
structure Counted (s s' : LmsStore) : Prop where
  counters : CourseCountersTrue s → CourseCountersTrue s'
  placed : EnrollmentsPlaced s → EnrollmentsPlaced s'

section step

variable {s s' : Academy} {lms : LmsStore}

theorem counted_refl (lms : LmsStore) : Counted lms lms := ⟨id, id⟩

theorem counted_createCourse (s : Academy) : Counted s.lms s.createCourse.lms := by
  constructor
  · intro h
    apply countersTrue_sync
    intro j row hj hrow
    rcases getElem?_concat_cases hrow with hold | ⟨hnew, -⟩
    · exact h j row hold
    · exact absurd hnew hj
  · intro h
    refine placed_same h rfl ?_
    show _ ≤ (LmsStore.syncCourseCounters _ _).courses.length
    rw [length_syncCourseCounters, List.length_append]
    exact Nat.le_add_right _ _

theorem counted_editCourse (s : Academy) (c : ℕ) (status : CourseStatus) (isActive : Bool) :
    Counted s.lms (s.editCourse c status isActive).lms := by
  constructor
  · intro h j row hrow
    rcases getElem?_modify_cases hrow with ⟨rfl, old, hold, rfl⟩ | ⟨-, hold⟩
    · exact h _ old hold
    · exact h j row hold
  · intro h
    exact placed_same h rfl (List.length_modify _ _ _).ge

theorem counted_createLesson {lesson : Lesson} (hok : s.lms.createLesson lesson = .ok lms) :
    Counted s.lms lms := by
  refine ⟨fun h => countersTrue_createLesson h hok, fun h => ?_⟩
  unfold LmsStore.createLesson at hok
  split at hok
  · cases hok
  · obtain rfl := Except.ok.inj hok
    apply placed_sync
    exact placed_same h rfl (Nat.le_refl _)

theorem counted_updateLesson {l : ℕ} {fields : LmsStore.LessonFields}
    (hok : s.lms.updateLesson l fields = .ok lms) : Counted s.lms lms := by
  refine ⟨fun h => countersTrue_updateLesson h hok, fun h => ?_⟩
  unfold LmsStore.updateLesson at hok
  split at hok
  · cases hok
  · split at hok
    · cases hok
    · dsimp only at hok
      split at hok
      · obtain rfl := Except.ok.inj hok
        apply placed_sync
        exact placed_same h rfl (Nat.le_refl _)
      · obtain rfl := Except.ok.inj hok
        exact placed_same h rfl (Nat.le_refl _)

theorem counted_deleteLesson {l : ℕ} (hok : s.lms.deleteLesson l = .ok lms) :
    Counted s.lms lms := by
  refine ⟨fun h => countersTrue_deleteLesson h hok, fun h => ?_⟩
  unfold LmsStore.deleteLesson at hok
  split at hok
  · cases hok
  · obtain rfl := Except.ok.inj hok
    apply placed_sync
    exact placed_same h rfl (Nat.le_refl _)

theorem counted_openMedia {now e l : ℕ} (hok : s.lms.stampMediaOpened now e l = .ok lms) :
    Counted s.lms lms := by
  rcases stampMediaOpened_ok hok with rfl | ⟨row, -, rfl⟩
  · exact counted_refl _
  · exact ⟨id, id⟩

theorem counted_complete (lms : LmsStore) (now e : ℕ) :
    Counted lms (QuizStore.completeEnrollmentAfterPass lms now e) :=
  ⟨fun h => countersTrue_completeEnrollment h now e, fun h => placed_completeEnrollment h now e⟩

/-- A start writes attempts only. -/
theorem lms_startQuizAttempt (s : QuizStore) (now q user : ℕ) (quiz : Quiz)
    (draws : List (List ℕ)) : (s.startQuizAttempt now q user quiz draws).1.lms = s.lms := by
  have hcreate : ∀ (t : QuizStore) (e number : ℕ) (snapshots : List ℕ × List (ℕ × List ℕ)),
      (t.createAttempt now q user quiz e number snapshots).1.lms = t.lms := by
    intro t e number snapshots
    unfold QuizStore.createAttempt
    split <;> rfl
  have hnew : ∀ (t : QuizStore) (enrollment : ℕ × Enrollment),
      (t.startNewAttempt now q user quiz enrollment draws).1.lms = t.lms := by
    intro t enrollment
    unfold QuizStore.startNewAttempt
    split
    · rfl
    · exact hcreate t _ _ _
  unfold QuizStore.startQuizAttempt
  split
  · rfl
  · split
    · exact hnew s _
    · split
      · exact hnew (s.expireAttempt _) _
      · rfl

theorem counted_submit {t t' : QuizStore} {now a : ℕ} {answers : List (ℤ × ℤ)}
    (hok : t.submitQuizAttempt now a answers = .ok t') : Counted t.lms t'.lms := by
  unfold QuizStore.submitQuizAttempt at hok
  split at hok
  · cases hok
  split at hok
  · cases hok
  split at hok
  · cases hok
  split at hok
  · cases hok
  split at hok
  · cases hok
  obtain ⟨weights, -, hok⟩ := except_bind_ok_iff.mp hok
  obtain ⟨graded, -, hok⟩ := except_bind_ok_iff.mp hok
  obtain rfl := Except.ok.inj hok
  dsimp only
  split
  · exact counted_complete t.lms now _
  · exact counted_refl _

theorem lms_getOrCreateCertificate {a course k : ℕ} {attempt : QuizAttempt}
    (hok : s.getOrCreateCertificate a attempt course = .ok (s', k)) : s'.lms = s.lms := by
  unfold Academy.getOrCreateCertificate at hok
  split at hok
  · obtain ⟨rfl, -⟩ := Prod.mk.inj (Except.ok.inj hok)
    rfl
  · split at hok
    · cases hok
    · obtain ⟨rfl, -⟩ := Prod.mk.inj (Except.ok.inj hok)
      rfl

theorem lms_createSkill {k : ℕ} (hok : s.createSkillForCertificate k = .ok s') :
    s'.lms = s.lms := by
  unfold Academy.createSkillForCertificate at hok
  split at hok
  · cases hok
  · dsimp only at hok
    split at hok
    · obtain rfl := Except.ok.inj hok
      rfl
    · split at hok
      · cases hok
      · obtain rfl := Except.ok.inj hok
        rfl

theorem counted_issueCertificate {now a : ℕ} (hok : s.issueCertificateForAttempt now a = .ok s') :
    Counted s.lms s'.lms := by
  unfold Academy.issueCertificateForAttempt at hok
  split at hok
  · cases hok
  split at hok
  · cases hok
  obtain ⟨-, hok⟩ := checkThat_bind_ok_iff.mp hok
  obtain ⟨⟨issued, k⟩, hissued, hok⟩ := except_bind_ok_iff.mp hok
  obtain ⟨skilled, hskilled, hok⟩ := except_bind_ok_iff.mp hok
  obtain rfl := Except.ok.inj hok
  rw [← lms_getOrCreateCertificate hissued, ← lms_createSkill hskilled]
  exact counted_complete skilled.lms now _

theorem counted_submitQuizAttempt {now a : ℕ} {answers : List (ℤ × ℤ)}
    (hok : s.submitQuizAttempt now a answers = .ok s') : Counted s.lms s'.lms := by
  obtain ⟨quiz, hquiz, hok⟩ := except_bind_ok_iff.mp hok
  have hsubmitted : Counted s.lms quiz.lms := by
    cases hcall : s.quiz.submitQuizAttempt now a answers with
    | error error =>
        rw [hcall] at hquiz
        cases hquiz
    | ok t =>
        rw [hcall] at hquiz
        obtain rfl := Except.ok.inj hquiz
        exact counted_submit hcall
  dsimp only at hok
  split at hok
  · have hissued := counted_issueCertificate hok
    exact ⟨fun h => hissued.counters (hsubmitted.counters h),
      fun h => hissued.placed (hsubmitted.placed h)⟩
  · obtain rfl := Except.ok.inj hok
    exact hsubmitted

theorem onLms_ok {result : Except LmsError LmsStore} (hok : s.onLms result = .ok s') :
    ∃ lms, result = .ok lms ∧ s' = s.withLms lms := by
  cases result with
  | error e => cases hok
  | ok lms => exact ⟨lms, rfl, (Except.ok.inj hok).symm⟩

/-- **Every other call** counts what it changes. -/
theorem counted_call {call : AcademyCall} (hok : academyCall s call = .ok s') :
    Counted s.lms s'.lms ∨ ∃ now e l watchedSeconds lastPositionSeconds markCompleted mediaOpened,
      call = .updateProgress now e l watchedSeconds lastPositionSeconds markCompleted mediaOpened := by
  cases call with
  | updateProgress now e l watchedSeconds lastPositionSeconds markCompleted mediaOpened =>
      exact .inr ⟨now, e, l, watchedSeconds, lastPositionSeconds, markCompleted, mediaOpened, rfl⟩
  | createCourse =>
      obtain rfl := Except.ok.inj hok
      exact .inl (counted_createCourse s)
  | editCourse c status isActive =>
      obtain rfl := Except.ok.inj hok
      exact .inl (counted_editCourse s c status isActive)
  | createLesson lesson =>
      obtain ⟨lms, hlms, rfl⟩ := onLms_ok hok
      exact .inl (counted_createLesson hlms)
  | updateLesson l fields =>
      obtain ⟨lms, hlms, rfl⟩ := onLms_ok hok
      exact .inl (counted_updateLesson hlms)
  | deleteLesson l =>
      obtain ⟨lms, hlms, rfl⟩ := onLms_ok hok
      exact .inl (counted_deleteLesson hlms)
  | enroll user c profileComplete =>
      obtain ⟨lms, hlms, rfl⟩ := onLms_ok hok
      exact .inl ⟨fun h => countersTrue_enroll h hlms, fun h => placed_enroll h hlms⟩
  | openMedia now e l =>
      obtain ⟨lms, hlms, rfl⟩ := onLms_ok hok
      exact .inl (counted_openMedia hlms)
  | editQuizzes quizzes questions options unlocks certified =>
      obtain rfl := Except.ok.inj hok
      exact .inl (counted_refl _)
  | startQuizAttempt now q user draws =>
      unfold academyCall at hok
      dsimp only at hok
      split at hok
      · cases hok
      · rename_i quiz hquiz
        obtain rfl := Except.ok.inj hok
        refine .inl ?_
        show Counted s.lms (s.quiz.startQuizAttempt now q user quiz draws).1.lms
        rw [lms_startQuizAttempt]
        exact counted_refl _
  | submitQuizAttempt now a answers => exact .inl (counted_submitQuizAttempt hok)
  | issueCertificate now a => exact .inl (counted_issueCertificate hok)
  | revokeCertificate now k revokedBy reason =>
      replace hok : s.revokeCertificate now k revokedBy reason = .ok s' := hok
      unfold Academy.revokeCertificate at hok
      split at hok
      · cases hok
      · obtain rfl := Except.ok.inj hok
        exact .inl (counted_refl _)

theorem countsCompletion_of_counted {call : AcademyCall}
    (h : ∀ now e l watchedSeconds lastPositionSeconds markCompleted mediaOpened,
      call ≠ .updateProgress now e l watchedSeconds lastPositionSeconds markCompleted mediaOpened) :
    CountsCompletion s call := by
  cases call with
  | updateProgress now e l watchedSeconds lastPositionSeconds markCompleted mediaOpened =>
      exact absurd rfl (h now e l watchedSeconds lastPositionSeconds markCompleted mediaOpened)
  | _ => trivial

/-- **Step lemma.** A call keeps the counters true exactly when it completes no enrollment by its
last lesson. -/
theorem countersTrue_step_iff (h : CourseCountersTrue s.lms) (hplaced : EnrollmentsPlaced s.lms)
    (call : AcademyCall) :
    CourseCountersTrue (academyStep s call).lms ↔ CountsCompletion s call := by
  by_cases hevent : ∃ now e l watchedSeconds lastPositionSeconds markCompleted mediaOpened,
      call = .updateProgress now e l watchedSeconds lastPositionSeconds markCompleted mediaOpened
  · obtain ⟨now, e, l, watchedSeconds, lastPositionSeconds, markCompleted, mediaOpened, rfl⟩ := hevent
    unfold academyStep academyCall CountsCompletion
    dsimp only
    cases hcall : s.lms.updateLessonProgress now e l watchedSeconds lastPositionSeconds markCompleted
        mediaOpened with
    | error error => exact iff_of_true h fun _ hok => by cases hok
    | ok lms =>
        refine (countersTrue_updateProgress_iff h hplaced hcall).trans ?_
        constructor
        · intro hnot _ _
          exact hnot
        · intro hnot
          exact hnot lms rfl
  · have hother : CountsCompletion s call := by
      apply countsCompletion_of_counted
      intro now e l watchedSeconds lastPositionSeconds markCompleted mediaOpened hcall
      exact hevent ⟨now, e, l, watchedSeconds, lastPositionSeconds, markCompleted, mediaOpened, hcall⟩
    refine iff_of_true ?_ hother
    unfold academyStep
    split
    · rename_i s' hok
      rcases counted_call hok with hcounted | hcall
      · exact hcounted.counters h
      · exact absurd hcall hevent
    · exact h

theorem placed_step (hplaced : EnrollmentsPlaced s.lms) (call : AcademyCall) :
    EnrollmentsPlaced (academyStep s call).lms := by
  unfold academyStep
  split
  · rename_i s' hok
    rcases counted_call hok with hcounted | ⟨now, e, l, _, _, _, _, rfl⟩
    · exact hcounted.placed hplaced
    · obtain ⟨lms, hlms, rfl⟩ := onLms_ok hok
      exact placed_updateProgress hplaced hlms
  · exact hplaced

end step

/-! ## Every run -/

theorem countersTrue_empty (staff : List ℕ) : CourseCountersTrue (Academy.empty staff).lms := by
  intro c row hrow
  cases hrow

/-- The counters are true in every state of a run exactly as long as no enrollment is completed by
its last lesson. -/
theorem course_counters_iff (staff : List ℕ) (calls : List AcademyCall) :
    (∀ pre, pre <+: calls → CourseCountersTrue (run academyStep (.empty staff) pre).lms) ↔
      Along academyStep CountsCompletion (.empty staff) calls := by
  rw [← along_states (P := fun s : Academy => CourseCountersTrue s.lms) (countersTrue_empty staff)]
  refine along_congr (I := fun s : Academy => CourseCountersTrue s.lms ∧ EnrollmentsPlaced s.lms)
    ?_ ?_ ?_ calls
  · intro s call hs
    exact countersTrue_step_iff hs.1 hs.2 call
  · intro s call hs htrue
    exact ⟨htrue, placed_step hs.2 call⟩
  · exact ⟨countersTrue_empty staff, fun enrollment hmem => by cases hmem⟩

/-- A student reads the only lesson of a course. -/
def graduationCalls : List AcademyCall :=
  [.createCourse, .createLesson ⟨0, "Intro", 1, .article, 60, false, true⟩,
    .editCourse 0 .published true, .enroll 7 0 true,
    .updateProgress 10 0 0 60 none true false]

/-- The enrollment is completed, and the course still counts it as active. -/
theorem graduate_not_counted :
    ¬ CourseCountersTrue (run academyStep (.empty []) graduationCalls).lms := by
  intro h
  have hstored : ((run academyStep (.empty []) graduationCalls).lms.courses[0]?).map
      (·.graduatesCount) = some 0 := by decide +kernel
  have hcounted : (countersOf (run academyStep (.empty []) graduationCalls).lms 0).graduatesCount =
      1 := by decide +kernel
  obtain ⟨row, hrow, hzero⟩ := Option.map_eq_some_iff.mp hstored
  have hsame := congrArg CourseCounters.graduatesCount (h 0 row hrow)
  rw [hcounted] at hsame
  exact absurd (hzero.symm.trans hsame) (by decide)

end SetadJang.Lms
