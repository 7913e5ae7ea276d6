import Mathlib.Data.List.Sort
import SetadJang.Framework.Rows

/-!
# LMS: courses, lessons, enrollments, progress

The tables behind the progress part of `apps/lms/services.py`.  A primary key is a
position; lessons are soft-deleted, so no table loses a row.  A percentage is kept in
hundredths, as the two decimals of its column.  `active_lessons` and the counters of a
course are computed over the active lessons, the progress of an enrollment over all of
its rows.
-/

namespace SetadJang.Lms

open SetadJang.Framework

inductive CourseStatus where
  | draft
  | published
  | archived
deriving DecidableEq, Repr

inductive EnrollmentStatus where
  | active
  | completed
  | canceled
  | locked
deriving DecidableEq, Repr

inductive LessonContentType where
  | video
  | audio
  | document
  | article
deriving DecidableEq, Repr

structure Course where
  status : CourseStatus
  isActive : Bool
  estimatedDurationSeconds : ℕ
  lessonsCount : ℕ
  enrollmentsCount : ℕ
  graduatesCount : ℕ
deriving DecidableEq, Repr

structure Lesson where
  course : ℕ
  title : String
  order : ℕ
  contentType : LessonContentType
  durationSeconds : ℕ
  isPreview : Bool
  isActive : Bool
deriving DecidableEq, Repr

structure Enrollment where
  course : ℕ
  user : ℕ
  status : EnrollmentStatus
  isActive : Bool
  completedAt : Option ℕ
  lastAccessedLesson : Option ℕ
  progressPercent : ℕ
  watchedSeconds : ℕ
  totalSecondsSnapshot : ℕ
deriving DecidableEq, Repr

structure LessonProgress where
  enrollment : ℕ
  lesson : ℕ
  watchedSeconds : ℕ
  durationSecondsSnapshot : ℕ
  progressPercent : ℕ
  isCompleted : Bool
  lastPositionSeconds : ℕ
  firstWatchedAt : Option ℕ
  lastWatchedAt : Option ℕ
  completedAt : Option ℕ
  mediaOpenedAt : Option ℕ
deriving DecidableEq, Repr

/-- The tables; `staff` are the users with `is_staff` or `is_superuser`. -/
structure LmsStore where
  courses : List Course
  lessons : List Lesson
  enrollments : List Enrollment
  progress : List LessonProgress
  staff : List ℕ
deriving DecidableEq, Repr

/-- What the progress services raise, with its text. -/
inductive LmsError where
  | doesNotExist
  | integrityError
  | profileIncomplete (message : String)
  | courseNotEnrollable (message : String)
  | enrollmentNotActive (message : String)
  | lessonNotInEnrollmentCourse (message : String)
  | lessonSequenceLocked (message : String)
  | lessonCompletionMode (message : String)
  | lessonMediaEngagementRequired (message : String)
deriving DecidableEq, Repr

/-! ## Numbers -/

/-- `(a / b).quantize(Decimal("0.01"))` with `a` in hundredths: round half to even. -/
def quantize (a b : ℕ) : ℕ :=
  if 2 * (a % b) < b ∨ (2 * (a % b) = b ∧ a / b % 2 = 0) then a / b else a / b + 1

/-- `LESSON_COMPLETION_THRESHOLD_PERCENT`. -/
def lessonCompletionThresholdPercent : ℕ := 9000

/-- `_calculate_percent`. -/
def calculatePercent (watchedSeconds durationSeconds : ℕ) : ℕ :=
  if durationSeconds = 0 then if 0 < watchedSeconds then 10000 else 0
  else min (quantize (watchedSeconds * 10000) durationSeconds) 10000

def Lesson.supportsManualCompletion (lesson : Lesson) : Bool :=
  lesson.contentType == .document || lesson.contentType == .article

def Course.isPublished (course : Course) : Bool :=
  course.isActive && course.status == .published

/-- `status__in=[ACTIVE, COMPLETED]`. -/
def EnrollmentStatus.isOpen (status : EnrollmentStatus) : Bool :=
  status == .active || status == .completed

namespace LmsStore

/-! ## Queries -/

/-- The lessons of the course with `is_active`, in key order. -/
def activeLessons (s : LmsStore) (course : ℕ) : List ℕ :=
  (List.range s.lessons.length).filter fun l =>
    (s.lessons[l]?).any fun lesson => lesson.course == course && lesson.isActive

/-- The progress of the enrollment on the lesson. -/
def progressOf (s : LmsStore) (e l : ℕ) : Option LessonProgress :=
  s.progress.find? fun row => row.enrollment == e && row.lesson == l

/-- The lessons the enrollment has completed. -/
def completedLessons (s : LmsStore) (e : ℕ) : List ℕ :=
  (s.progress.filter fun row => row.enrollment == e && row.isCompleted).map LessonProgress.lesson

/-- `quiz_lessons_remaining`: zero opens the gate of the quiz. -/
def quizLessonsRemaining (s : LmsStore) (course : ℕ) : Option (ℕ × Enrollment) → ℕ
  | none => 0
  | some (e, enrollment) =>
      if enrollment.status = .completed then 0
      else ((s.activeLessons course).filter fun l => !(s.completedLessons e).contains l).length

/-! ## Courses and lessons -/

/-- `sync_course_counters`. -/
def syncCourseCounters (s : LmsStore) (c : ℕ) : LmsStore :=
  { s with
    courses := s.courses.modify c fun course =>
      { course with
        estimatedDurationSeconds :=
          sumWhere (fun lesson => lesson.course == c && lesson.isActive)
            Lesson.durationSeconds s.lessons
        lessonsCount := s.lessons.countP fun lesson => lesson.course == c && lesson.isActive
        enrollmentsCount := s.enrollments.countP fun enrollment =>
          enrollment.course == c && enrollment.isActive && enrollment.status == .active
        graduatesCount := s.enrollments.countP fun enrollment =>
          enrollment.course == c && enrollment.isActive && enrollment.status == .completed } }

/-- The constraint `uniq_lms_lesson_order_per_course`, for row `l` about to hold the
order. -/
def orderTaken (s : LmsStore) (l course order : ℕ) : Bool :=
  (List.range s.lessons.length).any fun k =>
    k != l && (s.lessons[k]?).any fun lesson => lesson.course == course && lesson.order == order

def createLesson (s : LmsStore) (lesson : Lesson) : Except LmsError LmsStore :=
  if s.orderTaken s.lessons.length lesson.course lesson.order then .error .integrityError
  else .ok ({ s with lessons := s.lessons ++ [lesson] }.syncCourseCounters lesson.course)

/-- The fields an admin may pass to `update_lesson`, as far as a modelled function reads
them. -/
structure LessonFields where
  title : Option String
  order : Option ℕ
  contentType : Option LessonContentType
  durationSeconds : Option ℕ
  isPreview : Option Bool
  isActive : Option Bool
deriving DecidableEq, Repr

def LessonFields.apply (fields : LessonFields) (lesson : Lesson) : Lesson :=
  { lesson with
    title := fields.title.getD lesson.title
    order := fields.order.getD lesson.order
    contentType := fields.contentType.getD lesson.contentType
    durationSeconds := fields.durationSeconds.getD lesson.durationSeconds
    isPreview := fields.isPreview.getD lesson.isPreview
    isActive := fields.isActive.getD lesson.isActive }

def updateLesson (s : LmsStore) (l : ℕ) (fields : LessonFields) : Except LmsError LmsStore :=
  match s.lessons[l]? with
  | none => .error .doesNotExist
  | some lesson =>
      if s.orderTaken l lesson.course (fields.order.getD lesson.order) then .error .integrityError
      else
        let updated := { s with lessons := s.lessons.modify l fields.apply }
        if fields.durationSeconds.isSome || fields.isActive.isSome then
          .ok (updated.syncCourseCounters lesson.course)
        else .ok updated

def deleteLesson (s : LmsStore) (l : ℕ) : Except LmsError LmsStore :=
  match s.lessons[l]? with
  | none => .error .doesNotExist
  | some lesson =>
      let deleted := { s with
        lessons := s.lessons.modify l fun lesson => { lesson with isActive := false } }
      .ok (deleted.syncCourseCounters lesson.course)

/-- `enroll_user_in_course`; `profileComplete` is the outcome of
`ensure_user_can_enroll`. -/
def enrollUserInCourse (s : LmsStore) (user c : ℕ) (profileComplete : Bool) :
    Except LmsError LmsStore :=
  if !profileComplete then
    .error (.profileIncomplete "برای ثبت‌نام در دوره باید نام، نام خانوادگی و کد ملی را در پروفایل تکمیل کنید.")
  else
    match s.courses[c]? with
    | none => .error .doesNotExist
    | some course =>
        if !course.isPublished then .error (.courseNotEnrollable "این دوره در حال حاضر قابل ثبت‌نام نیست.")
        else if s.enrollments.any fun enrollment =>
            enrollment.user == user && enrollment.course == c && enrollment.isActive then .ok s
        -- The unique constraint counts the inactive rows, which `get_or_create` does not see.
        else if s.enrollments.any fun enrollment =>
            enrollment.user == user && enrollment.course == c then .error .integrityError
        else
          let enrollment : Enrollment :=
            ⟨c, user, .active, true, none, none, 0, 0, course.estimatedDurationSeconds⟩
          .ok ({ s with enrollments := s.enrollments ++ [enrollment] }.syncCourseCounters c)

/-! ## Progress -/

/-- `ensure_lesson_sequence_open`: the first earlier lesson that is not completed locks
this one. -/
def ensureLessonSequenceOpen (s : LmsStore) (lesson : Lesson) (e : ℕ) (enrollment : Enrollment) :
    Except LmsError Unit :=
  if lesson.isPreview || s.staff.contains enrollment.user || enrollment.status == .completed then
    .ok ()
  else
    let order := fun l => (s.lessons[l]?).elim 0 Lesson.order
    let previous := ((s.activeLessons lesson.course).filter fun l =>
      order l < lesson.order).insertionSort fun l k => order l ≤ order k
    match previous.find? fun l => !(s.completedLessons e).contains l with
    | none => .ok ()
    | some l => .error (.lessonSequenceLocked
        ("این جلسه هنوز قفل است؛ اول جلسه‌ی «" ++ (s.lessons[l]?).elim "" Lesson.title ++ "» را کامل تماشا کن تا باز شود."))

/-- The row `get_or_create` makes. -/
def newProgress (lesson : Lesson) (e l now : ℕ) : LessonProgress :=
  ⟨e, l, 0, lesson.durationSeconds, 0, false, 0, some now, none, none, none⟩

/-- What an event does to the row of its lesson. -/
def recordEvent (lesson : Lesson) (now : ℕ) (watchedSeconds : ℤ) (lastPositionSeconds : Option ℤ)
    (markCompleted mediaOpened : Bool) (row : LessonProgress) : LessonProgress :=
  let duration := lesson.durationSeconds
  let manual := lesson.supportsManualCompletion
  let cap := fun seconds : ℕ => if duration = 0 then seconds else min seconds duration
  let capped := cap watchedSeconds.toNat
  let capped := if markCompleted && duration != 0 then max capped duration else capped
  let watched := max row.watchedSeconds capped
  let percent :=
    if manual then if markCompleted || row.isCompleted then 10000 else 0
    else calculatePercent watched duration
  let completes :=
    (markCompleted && manual) || (!manual && decide (lessonCompletionThresholdPercent ≤ percent))
  { row with
    watchedSeconds := watched
    durationSecondsSnapshot := duration
    progressPercent := percent
    isCompleted := row.isCompleted || completes
    lastPositionSeconds := lastPositionSeconds.elim watched fun position => cap position.toNat
    firstWatchedAt := some (row.firstWatchedAt.getD now)
    lastWatchedAt := some now
    completedAt := if completes then some (row.completedAt.getD now) else row.completedAt
    mediaOpenedAt := if mediaOpened then some (row.mediaOpenedAt.getD now) else row.mediaOpenedAt }

/-- Save the row under its key `(enrollment, lesson)`. -/
def saveProgress (s : LmsStore) (row : LessonProgress) : LmsStore :=
  { s with
    progress :=
      if (s.progressOf row.enrollment row.lesson).isSome then
        s.progress.map fun old =>
          if old.enrollment = row.enrollment ∧ old.lesson = row.lesson then row else old
      else s.progress ++ [row] }

/-- `_stamp_media_opened`, on the access to a document or an article. -/
def stampMediaOpened (s : LmsStore) (now e l : ℕ) : Except LmsError LmsStore :=
  match s.enrollments[e]?, s.lessons[l]? with
  | some enrollment, some lesson =>
      if !(enrollment.isActive && enrollment.status.isOpen && enrollment.course == lesson.course) ||
          !lesson.supportsManualCompletion then .ok s
      else do
        s.ensureLessonSequenceOpen lesson e enrollment
        let row := (s.progressOf e l).getD (newProgress lesson e l now)
        return s.saveProgress { row with mediaOpenedAt := some (row.mediaOpenedAt.getD now) }
  | _, _ => .error .doesNotExist

def saveLastAccessed (s : LmsStore) (e l : ℕ) : LmsStore :=
  { s with
    enrollments := s.enrollments.modify e fun stored =>
      { stored with lastAccessedLesson := some l } }

/-- `_sync_enrollment_progress`. -/
def syncEnrollmentProgress (s : LmsStore) (now e : ℕ) (enrollment : Enrollment) : LmsStore :=
  let rows := s.progress.filter fun row => row.enrollment == e
  let active := s.activeLessons enrollment.course
  let percent := fun l => (s.progressOf e l).elim 0 fun row =>
    if row.isCompleted then 10000 else row.progressPercent
  -- Every completed row of the enrollment counts, whether or not its lesson is active.
  let completed := (rows.filter LessonProgress.isCompleted).length
  let completes := decide (0 < active.length ∧ active.length ≤ completed) &&
    enrollment.status == .active
  { s with
    enrollments := s.enrollments.modify e fun stored =>
      { stored with
        watchedSeconds := (rows.map LessonProgress.watchedSeconds).sum
        totalSecondsSnapshot :=
          (active.map fun l => (s.lessons[l]?).elim 0 Lesson.durationSeconds).sum
        progressPercent :=
          if active.length = 0 then 0 else quantize (active.map percent).sum active.length
        status := if completes then .completed else enrollment.status
        completedAt := if completes then some now else enrollment.completedAt } }

/-- `update_lesson_progress`. -/
def updateLessonProgress (s : LmsStore) (now e l : ℕ) (watchedSeconds : ℤ)
    (lastPositionSeconds : Option ℤ) (markCompleted mediaOpened : Bool) :
    Except LmsError LmsStore :=
  match s.enrollments[e]?, s.lessons[l]? with
  | some enrollment, some lesson =>
      if !enrollment.isActive then .error .doesNotExist
      else if !enrollment.status.isOpen then
        .error (.enrollmentNotActive "ثبت‌نام شما برای ثبت پیشرفت فعال نیست.")
      else if lesson.course ≠ enrollment.course then
        .error (.lessonNotInEnrollmentCourse "این جلسه متعلق به کلاس ثبت‌نام‌شده شما نیست.")
      else do
        s.ensureLessonSequenceOpen lesson e enrollment
        if markCompleted && !lesson.supportsManualCompletion then
          throw (.lessonCompletionMode
            "جلسات رسانه‌ای با درصد تماشا تکمیل می‌شوند؛ علامت «تکمیل دستی» برای این نوع مجاز نیست.")
        if markCompleted && lesson.contentType == .document &&
            !(mediaOpened || (s.progressOf e l).any fun row => row.mediaOpenedAt.isSome) then
          throw (.lessonMediaEngagementRequired
            "اول سند این جلسه را باز و مطالعه کن؛ بعد می‌توانی تکمیلش را تأیید کنی.")
        let row := (s.progressOf e l).getD (newProgress lesson e l now)
        let recorded := s.saveProgress
          (recordEvent lesson now watchedSeconds lastPositionSeconds markCompleted mediaOpened row)
        return (recorded.saveLastAccessed e l).syncEnrollmentProgress now e enrollment
  | _, _ => .error .doesNotExist

end LmsStore

end SetadJang.Lms
