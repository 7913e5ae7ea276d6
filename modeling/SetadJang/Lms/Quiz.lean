import Mathlib.Data.List.MinMax
import SetadJang.Lms.Model
import SetadJang.Framework.Runs

/-!
# LMS: quiz attempts

The quiz part of `apps/lms/services.py`.  `start_quiz_attempt` is not atomic: its reads,
the expiry of an old attempt and the insert of a new one are separate, and calls overlap.
It is given twice, from the same checks: as one function, which is the call made at one
instant, and as a call in flight that takes a step at a time.  `submit_quiz_attempt` is a
transaction.

Times are in milliseconds, scores and weights in hundredths.
-/

namespace SetadJang.Lms

open SetadJang.Framework

inductive QuizStatus where
  | draft
  | published
  | archived
deriving DecidableEq, Repr

inductive QuizAttemptStatus where
  | inProgress
  | submitted
  | passed
  | failed
  | expired
  | locked
deriving DecidableEq, Repr

structure Quiz where
  course : ℕ
  status : QuizStatus
  isActive : Bool
  timeLimitMinutes : ℕ
  passingScore : ℕ
  maxAttempts : ℕ
  retakeDelayDays : ℕ
  shuffleQuestions : Bool
  shuffleOptions : Bool
deriving DecidableEq, Repr

structure QuizQuestion where
  quiz : ℕ
  order : ℕ
  weight : ℕ
  isActive : Bool
deriving DecidableEq, Repr

structure QuizOption where
  question : ℕ
  order : ℕ
  isCorrect : Bool
  isActive : Bool
deriving DecidableEq, Repr

structure QuizUnlock where
  quiz : ℕ
  user : ℕ
  extraAttempts : ℕ
  validUntil : Option ℕ
  isActive : Bool
deriving DecidableEq, Repr

structure QuizAttempt where
  quiz : ℕ
  user : ℕ
  enrollment : ℕ
  attemptNumber : ℕ
  status : QuizAttemptStatus
  startedAt : ℕ
  submittedAt : Option ℕ
  expiresAt : Option ℕ
  scoreRaw : ℕ
  scorePercent : ℕ
  scoreOutOf20 : ℕ
  isPassed : Bool
  questionSnapshot : List ℕ
  optionOrderSnapshot : List (ℕ × List ℕ)
deriving DecidableEq, Repr

structure QuizAnswer where
  attempt : ℕ
  question : ℕ
  selectedOption : ℕ
  isCorrect : Bool
  weight : ℕ
  scoreAwarded : ℕ
deriving DecidableEq, Repr

structure QuizStore where
  lms : LmsStore
  quizzes : List Quiz
  questions : List QuizQuestion
  options : List QuizOption
  unlocks : List QuizUnlock
  attempts : List QuizAttempt
  answers : List QuizAnswer
deriving DecidableEq, Repr

/-- What the quiz services raise, with its text. -/
inductive QuizError where
  | doesNotExist
  | integrityError
  | keyError
  | typeError
  | quizNotAvailable (message : String)
  | quizValidation (message : String)
  | quizAttemptLocked (message : String)
  | quizNotReady (message : String)
  | quizAttemptSubmission (message : String)
deriving DecidableEq, Repr

inductive LockedReason where
  | passed
  | lessonsRemaining
  | outOfAttempts
  | cooldown
deriving DecidableEq, Repr

structure QuizAttemptState where
  enrolled : Bool
  hasInProgress : Bool
  attemptsUsed : ℕ
  attemptsLeft : ℕ
  allowedAttempts : ℕ
  passedBefore : Bool
  retryAt : Option ℕ
  lockedReason : Option LockedReason
  lessonsRemaining : ℕ
  canAttempt : Bool
deriving DecidableEq, Repr

/-- `retake_delay_days` in milliseconds. -/
def Quiz.retakeDelay (quiz : Quiz) : ℕ := quiz.retakeDelayDays * 86400000

/-- The attempt is past its `expires_at`. -/
def QuizAttempt.pastExpiry (attempt : QuizAttempt) (now : ℕ) : Bool :=
  attempt.expiresAt.any fun at_ => at_ ≤ now

/-- `submitted_at` as a sort key: a missing date sorts above every date. -/
def QuizAttempt.submittedKey (attempt : QuizAttempt) : WithTop ℕ :=
  attempt.submittedAt.elim ⊤ WithTop.some

namespace QuizStore

/-! ## Queries -/

/-- The user's attempts at the quiz, each with its key. -/
def attemptsOf (s : QuizStore) (q user : ℕ) : List (QuizAttempt × ℕ) :=
  s.attempts.zipIdx.filter fun row => row.1.quiz == q && row.1.user == user

/-- The enrollment that may take the quiz; a user has one per course. -/
def enrollmentOf (s : QuizStore) (course user : ℕ) : Option (ℕ × Enrollment) :=
  (s.lms.enrollments.zipIdx.find? fun row =>
    row.1.user == user && row.1.course == course && row.1.isActive && row.1.status.isOpen).map
      Prod.swap

/-- `_valid_unlocks_count`. -/
def validUnlocksCount (s : QuizStore) (now q user : ℕ) : ℕ :=
  sumWhere (fun unlock : QuizUnlock =>
    unlock.isActive && unlock.quiz == q && unlock.user == user &&
      unlock.validUntil.all fun at_ => now ≤ at_) QuizUnlock.extraAttempts s.unlocks

/-- `_next_attempt_number`. -/
def nextAttemptNumber (s : QuizStore) (q user : ℕ) : ℕ :=
  ((s.attemptsOf q user).argmax fun row => row.1.attemptNumber).elim 1 fun row =>
    row.1.attemptNumber + 1

/-- The attempt in progress that was started last. -/
def existingInProgress (s : QuizStore) (q user : ℕ) : Option (QuizAttempt × ℕ) :=
  ((s.attemptsOf q user).filter fun row => row.1.status == .inProgress).argmax fun row =>
    row.1.startedAt

/-- The failed attempt that was submitted last. -/
def lastFailed (s : QuizStore) (q user : ℕ) : Option (QuizAttempt × ℕ) :=
  ((s.attemptsOf q user).filter fun row => row.1.status == .failed).argmax fun row =>
    row.1.submittedKey

/-- The active questions of the quiz, by `order`. -/
def activeQuestions (s : QuizStore) (q : ℕ) : List ℕ :=
  let order := fun k => (s.questions[k]?).elim 0 QuizQuestion.order
  ((List.range s.questions.length).filter fun k =>
    (s.questions[k]?).any fun question => question.quiz == q && question.isActive).insertionSort
      fun k j => order k ≤ order j

/-- The active options of the question, by `order`. -/
def activeOptions (s : QuizStore) (question : ℕ) : List ℕ :=
  let order := fun k => (s.options[k]?).elim 0 QuizOption.order
  ((List.range s.options.length).filter fun k =>
    (s.options[k]?).any fun option => option.question == question && option.isActive).insertionSort
      fun k j => order k ≤ order j

/-! ## The structure of a quiz -/

def questionError (s : QuizStore) (question : ℕ) : Option String :=
  let options := s.activeOptions question
  let correct := options.countP fun k => (s.options[k]?).any QuizOption.isCorrect
  if options.length < 2 then some "هر سؤال آزمون باید حداقل دو گزینه فعال داشته باشد."
  else if correct ≠ 1 then some "هر سؤال چهارگزینه‌ای باید دقیقاً یک پاسخ صحیح داشته باشد."
  else none

/-- `validate_quiz_publishable`. -/
def validateQuizPublishable (s : QuizStore) (q : ℕ) : Except QuizError Unit :=
  let questions := s.activeQuestions q
  if questions = [] then .error (.quizValidation "برای انتشار آزمون حداقل یک سؤال فعال لازم است.")
  else
    match questions.findSome? s.questionError with
    | some message => .error (.quizValidation message)
    | none => .ok ()

/-- `random.shuffle`, with the numbers it draws. -/
def shuffle : List ℕ → List ℕ → List ℕ
  | draw :: draws, x :: xs => (shuffle draws xs).insertIdx (draw % (xs.length + 1)) x
  | _, xs => xs

/-- `_build_attempt_snapshots`; the first of `draws` is for the questions, the others are
for the options of each. -/
def buildAttemptSnapshots (s : QuizStore) (q : ℕ) (quiz : Quiz) (draws : List (List ℕ)) :
    List ℕ × List (ℕ × List ℕ) :=
  let ids := s.activeQuestions q
  let ids := if quiz.shuffleQuestions then shuffle (draws.getD 0 []) ids else ids
  (ids, ids.zipIdx.map fun (question, i) =>
    let options := s.activeOptions question
    (question, if quiz.shuffleOptions then shuffle (draws.getD (i + 1) []) options else options))

/-! ## Starting an attempt -/

/-- The quiz is open, and the user is enrolled. -/
def checkEnrolled (s : QuizStore) (quiz : Quiz) (user : ℕ) : Except QuizError (ℕ × Enrollment) :=
  if quiz.status ≠ .published ∨ quiz.isActive = false then
    .error (.quizNotAvailable "آزمون این کلاس در حال حاضر فعال نیست.")
  else
    match s.enrollmentOf quiz.course user with
    | none => .error (.quizNotAvailable "برای شرکت در آزمون باید در کلاس ثبت‌نام کرده باشید.")
    | some enrollment => .ok enrollment

def checkNotPassed (s : QuizStore) (q user : ℕ) : Except QuizError Unit :=
  if (s.attemptsOf q user).any fun row => row.1.status != .inProgress && row.1.isPassed then
    .error (.quizAttemptLocked "شما قبلاً این آزمون را با موفقیت گذرانده‌اید.")
  else .ok ()

def checkLessons (s : QuizStore) (quiz : Quiz) (enrollment : ℕ × Enrollment) :
    Except QuizError Unit :=
  let remaining := s.lms.quizLessonsRemaining quiz.course (some enrollment)
  if remaining ≠ 0 then
    .error (.quizNotReady ("دروازه‌ی آزمون بعد از تماشای همه‌ی جلسات باز می‌شود؛ هنوز " ++ toString remaining ++ " جلسه مانده است."))
  else .ok ()

def checkAllowed (s : QuizStore) (clock q user : ℕ) (quiz : Quiz) (number : ℕ) :
    Except QuizError Unit :=
  if quiz.maxAttempts + s.validUnlocksCount clock q user < number then
    .error (.quizAttemptLocked "تعداد تلاش‌های مجاز شما برای این آزمون به پایان رسیده است.")
  else .ok ()

/-- `now` is the time of the call, `clock` that of its query for unlocks. -/
def checkCooldown (s : QuizStore) (now clock q user : ℕ) (quiz : Quiz) (number : ℕ) :
    Except QuizError Unit :=
  match s.lastFailed q user with
  | none => .ok ()
  | some (attempt, _) =>
      if quiz.maxAttempts < number then .ok ()
      else
        match attempt.submittedAt with
        | none => .error .typeError
        | some submittedAt =>
            if s.validUnlocksCount clock q user = 0 ∧ now < submittedAt + quiz.retakeDelay then
              .error (.quizAttemptLocked
                "تلاش بعدی شما هنوز فعال نشده است. لطفاً در زمان تعیین‌شده مراجعه کنید.")
            else .ok ()

/-- The save of EXPIRED. -/
def expireAttempt (s : QuizStore) (a : ℕ) : QuizStore :=
  { s with attempts := s.attempts.modify a fun attempt => { attempt with status := .expired } }

/-- The constraint `uniq_lms_quiz_user_attempt_number`. -/
def numberTaken (s : QuizStore) (q user number : ℕ) : Bool :=
  (s.attemptsOf q user).any fun row => row.1.attemptNumber == number

/-- `QuizAttempt.objects.create`. -/
def createAttempt (s : QuizStore) (now q user : ℕ) (quiz : Quiz) (e number : ℕ)
    (snapshots : List ℕ × List (ℕ × List ℕ)) : QuizStore × Except QuizError (ℕ × Bool) :=
  if s.numberTaken q user number then (s, .error .integrityError)
  else
    ({ s with
      attempts := s.attempts ++
        [⟨q, user, e, number, .inProgress, now, none, some (now + quiz.timeLimitMinutes * 60000),
          0, 0, 0, false, snapshots.1, snapshots.2⟩] },
      .ok (s.attempts.length, true))

/-- The checks for a new attempt; they give its number. -/
def checkNewAttempt (s : QuizStore) (now q user : ℕ) (quiz : Quiz) (enrollment : ℕ × Enrollment) :
    Except QuizError ℕ := do
  s.checkNotPassed q user
  s.checkLessons quiz enrollment
  let number := s.nextAttemptNumber q user
  s.checkAllowed now q user quiz number
  s.checkCooldown now now q user quiz number
  s.validateQuizPublishable q
  return number

def startNewAttempt (s : QuizStore) (now q user : ℕ) (quiz : Quiz) (enrollment : ℕ × Enrollment)
    (draws : List (List ℕ)) : QuizStore × Except QuizError (ℕ × Bool) :=
  match s.checkNewAttempt now q user quiz enrollment with
  | .error error => (s, .error error)
  | .ok number =>
      s.createAttempt now q user quiz enrollment.1 number (s.buildAttemptSnapshots q quiz draws)

/-- `start_quiz_attempt` at one instant: the attempt, and whether it is new.  The expiry of
an old attempt stays when a later check raises. -/
def startQuizAttempt (s : QuizStore) (now q user : ℕ) (quiz : Quiz) (draws : List (List ℕ)) :
    QuizStore × Except QuizError (ℕ × Bool) :=
  match s.checkEnrolled quiz user with
  | .error error => (s, .error error)
  | .ok enrollment =>
      match s.existingInProgress q user with
      | none => s.startNewAttempt now q user quiz enrollment draws
      | some (attempt, a) =>
          if attempt.pastExpiry now then
            (s.expireAttempt a).startNewAttempt now q user quiz enrollment draws
          else (s, .ok (a, false))

/-! ## What the learner is shown -/

/-- The attempt in progress before its expiry that was started last. -/
def liveAttempt (s : QuizStore) (now q user : ℕ) : Option (QuizAttempt × ℕ) :=
  ((s.attemptsOf q user).filter fun row =>
    row.1.status == .inProgress && !row.1.pastExpiry now).argmax fun row => row.1.startedAt

/-- The cooldown branch: when the next attempt opens, if it is still closed. -/
def cooldownUntil (s : QuizStore) (now q user : ℕ) (quiz : Quiz) : Option ℕ :=
  match s.lastFailed q user with
  | none => none
  | some (attempt, _) =>
      match attempt.submittedAt with
      | none => none
      | some submittedAt =>
          if s.nextAttemptNumber q user ≤ quiz.maxAttempts ∧ s.validUnlocksCount now q user = 0 ∧
              now < submittedAt + quiz.retakeDelay then
            some (submittedAt + quiz.retakeDelay)
          else none

/-- `retry_at` and `locked_reason`. -/
def lockOf (s : QuizStore) (now q user : ℕ) (quiz : Quiz) : Option ℕ × Option LockedReason :=
  let remaining := s.lms.quizLessonsRemaining quiz.course (s.enrollmentOf quiz.course user)
  if (s.attemptsOf q user).any fun row => row.1.isPassed then (none, some .passed)
  -- A live attempt is exempt from the lessons gate, as in the start.
  else if (s.liveAttempt now q user).isNone && remaining != 0 then (none, some .lessonsRemaining)
  else if quiz.maxAttempts + s.validUnlocksCount now q user < s.nextAttemptNumber q user then
    (none, some .outOfAttempts)
  else
    match s.cooldownUntil now q user quiz with
    | some retryAt => (some retryAt, some .cooldown)
    | none => (none, none)

/-- `get_quiz_attempt_state`. -/
def getQuizAttemptState (s : QuizStore) (now q user : ℕ) (quiz : Quiz) : QuizAttemptState :=
  let enrollment := s.enrollmentOf quiz.course user
  let allowed := quiz.maxAttempts + s.validUnlocksCount now q user
  let used := s.nextAttemptNumber q user - 1
  let left := allowed - used
  let live := s.liveAttempt now q user
  let lock := s.lockOf now q user quiz
  { enrolled := enrollment.isSome
    hasInProgress := live.isSome
    attemptsUsed := used
    attemptsLeft := left
    allowedAttempts := allowed
    passedBefore := (s.attemptsOf q user).any fun row => row.1.isPassed
    retryAt := lock.1
    lockedReason := lock.2
    lessonsRemaining := s.lms.quizLessonsRemaining quiz.course enrollment
    canAttempt := enrollment.isSome && lock.2.isNone && (live.isSome || decide (1 ≤ left)) }

/-! ## Submitting an attempt -/

/-- `answer_map[question]`: the last answer counts. -/
def answerTo (answers : List (ℤ × ℤ)) (question : ℕ) : Option ℤ :=
  (answers.reverse.find? fun answer => answer.1 == (question : ℤ)).map Prod.snd

/-- `set(answer_map) == set(question_ids)`. -/
def answersAll (answers : List (ℤ × ℤ)) (questions : List ℕ) : Bool :=
  (answers.all fun answer => questions.any fun question => answer.1 == (question : ℤ)) &&
    questions.all fun question => answers.any fun answer => answer.1 == (question : ℤ)

/-- `questions[qid]`: `QuizQuestion.objects` hides the inactive ones. -/
def questionWeight (s : QuizStore) (question : ℕ) : Except QuizError ℕ :=
  match (s.questions[question]?).filter QuizQuestion.isActive with
  | none => .error .keyError
  | some row => .ok row.weight

/-- The body of the loop over the questions. -/
def gradeQuestion (s : QuizStore) (a : ℕ) (attempt : QuizAttempt) (answers : List (ℤ × ℤ))
    (question : ℕ) : Except QuizError QuizAnswer :=
  match answerTo answers question with
  | none => .error .keyError
  | some selected =>
      let allowed := (attempt.optionOrderSnapshot.lookup question).getD []
      if !allowed.any fun option => selected == (option : ℤ) then
        .error (.quizAttemptSubmission "گزینه انتخاب‌شده معتبر نیست.")
      else
        -- `options[selected_option_id]`: `QuizOption.objects` hides the inactive ones too.
        match (s.options[selected.toNat]?).filter QuizOption.isActive with
        | none => .error .keyError
        | some option => do
            let weight ← s.questionWeight question
            let isCorrect := option.question == question && option.isCorrect
            return ⟨a, question, selected.toNat, isCorrect, weight, if isCorrect then weight else 0⟩

/-- The score of an attempt on a scale of `scale` hundredths. -/
def scoreOn (scale awarded total : ℕ) : ℕ :=
  if total = 0 then 0 else quantize (awarded * scale) total

/-- The result saved on an attempt. -/
def grade (now : ℕ) (quiz : Quiz) (total awarded : ℕ) (attempt : QuizAttempt) : QuizAttempt :=
  let isPassed := decide (quiz.passingScore ≤ scoreOn 2000 awarded total)
  { attempt with
    scoreRaw := awarded
    scorePercent := scoreOn 10000 awarded total
    scoreOutOf20 := scoreOn 2000 awarded total
    isPassed := isPassed
    status := if isPassed then .passed else .failed
    submittedAt := some now }

/-- `complete_enrollment_after_pass`. -/
def completeEnrollmentAfterPass (s : LmsStore) (now e : ℕ) : LmsStore :=
  match s.enrollments[e]? with
  | none => s
  | some enrollment =>
      if enrollment.status = .completed then s
      else
        ({ s with
          enrollments := s.enrollments.modify e fun stored =>
            { stored with status := .completed, completedAt := some now } }).syncCourseCounters
              enrollment.course

/-- `submit_quiz_attempt`. -/
def submitQuizAttempt (s : QuizStore) (now a : ℕ) (answers : List (ℤ × ℤ)) :
    Except QuizError QuizStore :=
  match s.attempts[a]? with
  | none => .error .doesNotExist
  | some attempt =>
      if attempt.status ≠ .inProgress then
        .error (.quizAttemptSubmission "این تلاش آزمون قابل ثبت پاسخ نیست.")
      else if attempt.pastExpiry now then
        -- The save of EXPIRED before this `raise` is rolled back with the transaction.
        .error (.quizAttemptSubmission "زمان آزمون به پایان رسیده است.")
      else if !answersAll answers attempt.questionSnapshot then
        .error (.quizAttemptSubmission "باید به تمام سؤال‌های آزمون پاسخ دهید.")
      else
        match s.quizzes[attempt.quiz]? with
        | none => .error .doesNotExist
        | some quiz => do
            let weights ← attempt.questionSnapshot.mapM s.questionWeight
            let graded ← attempt.questionSnapshot.mapM (s.gradeQuestion a attempt answers)
            let awarded := (graded.map QuizAnswer.scoreAwarded).sum
            let isPassed := decide (quiz.passingScore ≤ scoreOn 2000 awarded weights.sum)
            return { s with
              lms := if isPassed then completeEnrollmentAfterPass s.lms now attempt.enrollment
                else s.lms
              answers := (s.answers.filter fun answer => answer.attempt != a) ++ graded
              attempts := s.attempts.modify a (grade now quiz weights.sum awarded) }

end QuizStore

/-! ## Calls in flight -/

/-- Where a call of `start_quiz_attempt` stands: before its query for an attempt in
progress, before its save of EXPIRED, or before one of the checks for a new attempt. -/
inductive StartPhase where
  | resume
  | expire (now a : ℕ)
  | notPassed (now : ℕ)
  | lessons (now : ℕ)
  | number (now : ℕ)
  | allowed (now number : ℕ)
  | cooldown (now number : ℕ)
  | publishable (now number : ℕ)
  | create (now number : ℕ) (snapshots : List ℕ × List (ℕ × List ℕ))
  | returned (result : Except QuizError (ℕ × Bool))

/-- A call with the quiz and the enrollment it has loaded. -/
structure StartCall where
  q : ℕ
  user : ℕ
  quiz : Quiz
  enrollment : ℕ × Enrollment
  draws : List (List ℕ)
  phase : StartPhase

/-- Go on to the next phase, or raise. -/
def StartCall.after (call : StartCall) (check : Except QuizError Unit) (next : StartPhase) :
    StartCall :=
  match check with
  | .error error => { call with phase := .returned (.error error) }
  | .ok () => { call with phase := next }

/-- The next step of a call, at the time of the clock. -/
def StartCall.advance (s : QuizStore) (clock : ℕ) (call : StartCall) : QuizStore × StartCall :=
  match call.phase with
  | .resume =>
      match s.existingInProgress call.q call.user with
      | none => (s, { call with phase := .notPassed clock })
      | some (attempt, a) =>
          if attempt.pastExpiry clock then (s, { call with phase := .expire clock a })
          else (s, { call with phase := .returned (.ok (a, false)) })
  | .expire now a => (s.expireAttempt a, { call with phase := .notPassed now })
  | .notPassed now => (s, call.after (s.checkNotPassed call.q call.user) (.lessons now))
  | .lessons now => (s, call.after (s.checkLessons call.quiz call.enrollment) (.number now))
  | .number now =>
      (s, { call with phase := .allowed now (s.nextAttemptNumber call.q call.user) })
  | .allowed now number =>
      (s, call.after (s.checkAllowed clock call.q call.user call.quiz number)
        (.cooldown now number))
  | .cooldown now number =>
      (s, call.after (s.checkCooldown now clock call.q call.user call.quiz number)
        (.publishable now number))
  | .publishable now number =>
      (s, call.after (s.validateQuizPublishable call.q)
        (.create now number (s.buildAttemptSnapshots call.q call.quiz call.draws)))
  | .create now number snapshots =>
      let (created, result) :=
        s.createAttempt now call.q call.user call.quiz call.enrollment.1 number snapshots
      (created, { call with phase := .returned result })
  | .returned _ => (s, call)

structure QuizSys where
  store : QuizStore
  calls : List StartCall
  clock : ℕ

inductive QuizAct where
  | tick (ms : ℕ)
  /-- Whatever the rest of the application writes to the other tables. -/
  | edit (lms : LmsStore) (quizzes : List Quiz) (questions : List QuizQuestion)
      (options : List QuizOption) (unlocks : List QuizUnlock)
  | start (q user : ℕ) (draws : List (List ℕ))
  | advance (i : ℕ)
  | submit (a : ℕ) (answers : List (ℤ × ℤ))

namespace QuizSys

def step (s : QuizSys) : QuizAct → QuizSys
  | .tick ms => { s with clock := s.clock + ms }
  | .edit lms quizzes questions options unlocks =>
      { s with store := ⟨lms, quizzes, questions, options, unlocks, s.store.attempts,
        s.store.answers⟩ }
  | .start q user draws =>
      match s.store.quizzes[q]? with
      | none => s
      | some quiz =>
          match s.store.checkEnrolled quiz user with
          | .error _ => s
          | .ok enrollment =>
              { s with calls := s.calls ++ [⟨q, user, quiz, enrollment, draws, .resume⟩] }
  | .advance i =>
      match s.calls[i]? with
      | none => s
      | some call =>
          let (store, next) := call.advance s.store s.clock
          { s with store := store, calls := s.calls.set i next }
  | .submit a answers =>
      match s.store.submitQuizAttempt s.clock a answers with
      | .error _ => s
      | .ok store => { s with store := store }

/-- A store without attempts. -/
def start (lms : LmsStore) (quizzes : List Quiz) (questions : List QuizQuestion)
    (options : List QuizOption) (unlocks : List QuizUnlock) (clock : ℕ) : QuizSys :=
  ⟨⟨lms, quizzes, questions, options, unlocks, [], []⟩, [], clock⟩

end QuizSys

end SetadJang.Lms
