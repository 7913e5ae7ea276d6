import SetadJang.Framework.Txn
import SetadJang.Lms.Quiz

/-!
# LMS: certificates, and all the calls on a course

Passing a quiz completes the enrollment; where the quiz counts for a certificate it also issues
one, with the skill it grants.  `AcademyCall` collects the calls that read or write the courses,
their lessons and their enrollments.  Admin edits of the quizzes replace their tables.
-/

namespace SetadJang.Lms

open SetadJang.Framework

/-! ## Rows -/

inductive CertificateStatus where
  | issued
  | revoked
deriving DecidableEq, Repr

inductive BadgeLevel where
  | bronze
  | silver
  | gold
  | distinction
deriving DecidableEq, Repr

structure Certificate where
  user : ℕ
  course : ℕ
  enrollment : ℕ
  quizAttempt : ℕ
  status : CertificateStatus
  scoreOutOf20 : ℕ
  revokedBy : Option ℕ
  revokedAt : Option ℕ
  revocationReason : String
deriving DecidableEq, Repr

structure LMSUserSkill where
  user : ℕ
  course : ℕ
  certificate : ℕ
  badgeLevel : BadgeLevel
  isActive : Bool
deriving DecidableEq, Repr

/-- The tables; `certified` are the quizzes with `is_required_for_certificate`. -/
structure Academy where
  quiz : QuizStore
  certificates : List Certificate
  skills : List LMSUserSkill
  certified : List ℕ
deriving DecidableEq, Repr

inductive AcademyError where
  | doesNotExist
  | integrityError
  | lms (error : LmsError)
  | quiz (error : QuizError)
  | certificateIssue (message : String)
deriving DecidableEq, Repr

/-- `badge_level_for_score`, of a score in hundredths. -/
def badgeLevelForScore (score : ℕ) : BadgeLevel :=
  if 1950 ≤ score then .distinction
  else if 1800 ≤ score then .gold
  else if 1600 ≤ score then .silver
  else .bronze

namespace Academy

def lms (s : Academy) : LmsStore := s.quiz.lms

def withLms (s : Academy) (lms : LmsStore) : Academy := { s with quiz := { s.quiz with lms := lms } }

/-! ## Certificates -/

/-- `Certificate.objects.get_or_create`, with its three unique keys. -/
def getOrCreateCertificate (s : Academy) (a : ℕ) (attempt : QuizAttempt) (course : ℕ) :
    Except AcademyError (Academy × ℕ) :=
  match s.certificates.findIdx? fun row => row.user == attempt.user && row.course == course with
  | some k => .ok (s, k)
  | none =>
      if s.certificates.any fun row =>
          row.enrollment == attempt.enrollment || row.quizAttempt == a then .error .integrityError
      else
        let certificate : Certificate :=
          ⟨attempt.user, course, attempt.enrollment, a, .issued, attempt.scoreOutOf20, none, none, ""⟩
        .ok ({ s with certificates := s.certificates ++ [certificate] }, s.certificates.length)

/-- `create_skill_for_certificate`.  A skill that was hidden still holds its keys. -/
def createSkillForCertificate (s : Academy) (k : ℕ) : Except AcademyError Academy :=
  match s.certificates[k]? with
  | none => .error .doesNotExist
  | some certificate =>
      let same := fun row : LMSUserSkill =>
        row.user == certificate.user && row.course == certificate.course
      if s.skills.any fun row => same row && row.isActive then .ok s
      else if s.skills.any fun row => same row || row.certificate == k then .error .integrityError
      else
        let skill : LMSUserSkill :=
          ⟨certificate.user, certificate.course, k, badgeLevelForScore certificate.scoreOutOf20, true⟩
        .ok { s with skills := s.skills ++ [skill] }

/-- `issue_certificate_for_attempt`. -/
def issueCertificateForAttempt (s : Academy) (now a : ℕ) : Except AcademyError Academy :=
  match s.quiz.attempts[a]? with
  | none => .error .doesNotExist
  | some attempt =>
      match s.lms.enrollments[attempt.enrollment]? with
      | none => .error .doesNotExist
      | some enrollment => do
          checkThat (attempt.isPassed = true)
            (.certificateIssue "صدور مدرک فقط برای آزمون قبول‌شده امکان‌پذیر است.")
          let (issued, k) ← s.getOrCreateCertificate a attempt enrollment.course
          let skilled ← issued.createSkillForCertificate k
          return skilled.withLms
            (QuizStore.completeEnrollmentAfterPass skilled.lms now attempt.enrollment)

/-- `revoke_certificate`. -/
def revokeCertificate (s : Academy) (now k revokedBy : ℕ) (reason : String) :
    Except AcademyError Academy :=
  match s.certificates[k]? with
  | none => .error .doesNotExist
  | some _ => .ok { s with
      certificates := s.certificates.modify k fun row =>
        { row with
          status := .revoked, revokedBy := some revokedBy, revokedAt := some now,
          revocationReason := reason }
      skills := s.skills.map fun row =>
        if row.certificate == k then { row with isActive := false } else row }

/-- `submit_quiz_attempt` with the certificate of a passed quiz, which completes an enrollment
that is already completed. -/
def submitQuizAttempt (s : Academy) (now a : ℕ) (answers : List (ℤ × ℤ)) :
    Except AcademyError Academy := do
  let quiz ← (s.quiz.submitQuizAttempt now a answers).mapError .quiz
  let submitted := { s with quiz := quiz }
  if (quiz.attempts[a]?).any fun attempt => attempt.isPassed && s.certified.contains attempt.quiz then
    submitted.issueCertificateForAttempt now a
  else return submitted

/-! ## Courses -/

/-- `create_course`. -/
def createCourse (s : Academy) : Academy :=
  let course : Course := ⟨.draft, true, 0, 0, 0, 0⟩
  let created := { s.lms with courses := s.lms.courses ++ [course] }
  s.withLms (created.syncCourseCounters s.lms.courses.length)

/-- What publishing, archiving, updating and deleting a course write of the modelled columns. -/
def editCourse (s : Academy) (c : ℕ) (status : CourseStatus) (isActive : Bool) : Academy :=
  s.withLms { s.lms with
    courses := s.lms.courses.modify c fun course =>
      { course with status := status, isActive := isActive } }

end Academy

/-! ## Runs -/

inductive AcademyCall where
  | createCourse
  | editCourse (c : ℕ) (status : CourseStatus) (isActive : Bool)
  | createLesson (lesson : Lesson)
  | updateLesson (l : ℕ) (fields : LmsStore.LessonFields)
  | deleteLesson (l : ℕ)
  | enroll (user c : ℕ) (profileComplete : Bool)
  | openMedia (now e l : ℕ)
  | updateProgress (now e l : ℕ) (watchedSeconds : ℤ) (lastPositionSeconds : Option ℤ)
      (markCompleted mediaOpened : Bool)
  | editQuizzes (quizzes : List Quiz) (questions : List QuizQuestion) (options : List QuizOption)
      (unlocks : List QuizUnlock) (certified : List ℕ)
  | startQuizAttempt (now q user : ℕ) (draws : List (List ℕ))
  | submitQuizAttempt (now a : ℕ) (answers : List (ℤ × ℤ))
  | issueCertificate (now a : ℕ)
  | revokeCertificate (now k revokedBy : ℕ) (reason : String)

/-- A call on the courses, lessons and enrollments. -/
def Academy.onLms (s : Academy) : Except LmsError LmsStore → Except AcademyError Academy
  | .ok lms => .ok (s.withLms lms)
  | .error error => .error (.lms error)

def academyCall (s : Academy) : AcademyCall → Except AcademyError Academy
  | .createCourse => .ok s.createCourse
  | .editCourse c status isActive => .ok (s.editCourse c status isActive)
  | .createLesson lesson => s.onLms (s.lms.createLesson lesson)
  | .updateLesson l fields => s.onLms (s.lms.updateLesson l fields)
  | .deleteLesson l => s.onLms (s.lms.deleteLesson l)
  | .enroll user c profileComplete => s.onLms (s.lms.enrollUserInCourse user c profileComplete)
  | .openMedia now e l => s.onLms (s.lms.stampMediaOpened now e l)
  | .updateProgress now e l watchedSeconds lastPositionSeconds markCompleted mediaOpened =>
      s.onLms (s.lms.updateLessonProgress now e l watchedSeconds lastPositionSeconds markCompleted
        mediaOpened)
  | .editQuizzes quizzes questions options unlocks certified =>
      .ok { s with
        quiz := { s.quiz with
          quizzes := quizzes, questions := questions, options := options, unlocks := unlocks }
        certified := certified }
  | .startQuizAttempt now q user draws =>
      match s.quiz.quizzes[q]? with
      | none => .error .doesNotExist
      | some quiz =>
          -- not atomic: what it wrote before a raise stays
          .ok { s with quiz := (s.quiz.startQuizAttempt now q user quiz draws).1 }
  | .submitQuizAttempt now a answers => s.submitQuizAttempt now a answers
  | .issueCertificate now a => s.issueCertificateForAttempt now a
  | .revokeCertificate now k revokedBy reason => s.revokeCertificate now k revokedBy reason

/-- One call; a raise rolls it back. -/
def academyStep (s : Academy) (call : AcademyCall) : Academy :=
  match academyCall s call with
  | .ok s' => s'
  | .error _ => s

/-- The tables with no row. -/
def Academy.empty (staff : List ℕ) : Academy :=
  ⟨⟨⟨[], [], [], [], staff⟩, [], [], [], [], [], []⟩, [], [], []⟩

end SetadJang.Lms
