import SetadJang.Framework.Txn
import SetadJang.Lms.QuizState

/-!
# Late submissions

`submit_quiz_attempt` saves EXPIRED on an attempt past its time and then raises, inside its own
transaction: the raise takes the save back.  The transaction is given here with its writes, and
comes to the function of the model.  What closes an attempt is a later `start_quiz_attempt`,
which is not atomic.
-/

namespace SetadJang.Lms

open SetadJang.Framework

/-! ## The transaction -/

namespace QuizStore

/-- The save of EXPIRED in `submit_quiz_attempt`. -/
def expireSubmitted (now a : ℕ) (s : QuizStore) : QuizStore :=
  { s with
    attempts := s.attempts.modify a fun attempt =>
      { attempt with status := .expired, submittedAt := some now } }

/-- The loop over the questions, on the rows fetched before it: it creates an answer a turn and
sums the scores. -/
def gradeLoop (fetched : QuizStore) (a : ℕ) (attempt : QuizAttempt) (answers : List (ℤ × ℤ)) :
    List ℕ → Txn QuizStore QuizError ℕ
  | [] => pure 0
  | question :: questions => do
      let answer ← Txn.fromExcept (fetched.gradeQuestion a attempt answers question)
      modify fun s : QuizStore => { s with answers := s.answers ++ [answer] }
      let awarded ← gradeLoop fetched a attempt answers questions
      pure (answer.scoreAwarded + awarded)

/-- `submit_quiz_attempt` from its check of the answers on. -/
def gradeBody (now a : ℕ) (attempt : QuizAttempt) (answers : List (ℤ × ℤ)) :
    Txn QuizStore QuizError Unit := do
  let fetched ← get
  Txn.require (answersAll answers attempt.questionSnapshot = true)
    (.quizAttemptSubmission "باید به تمام سؤال‌های آزمون پاسخ دهید.")
  let quiz ← Txn.orRaise fetched.quizzes[attempt.quiz]? .doesNotExist
  let weights ← Txn.fromExcept (attempt.questionSnapshot.mapM fetched.questionWeight)
  modify fun s : QuizStore => { s with answers := s.answers.filter fun answer => answer.attempt != a }
  let awarded ← gradeLoop fetched a attempt answers attempt.questionSnapshot
  modify fun s : QuizStore =>
    { s with attempts := s.attempts.modify a (grade now quiz weights.sum awarded) }
  if quiz.passingScore ≤ scoreOn 2000 awarded weights.sum then
    modify fun s : QuizStore =>
      { s with lms := completeEnrollmentAfterPass s.lms now attempt.enrollment }
  else pure ()

/-- The body of `submit_quiz_attempt`, before its transaction ends. -/
def submitBody (now a : ℕ) (answers : List (ℤ × ℤ)) : Txn QuizStore QuizError Unit := do
  let s ← get
  let attempt ← Txn.orRaise s.attempts[a]? .doesNotExist
  Txn.require (attempt.status = .inProgress)
    (.quizAttemptSubmission "این تلاش آزمون قابل ثبت پاسخ نیست.")
  if attempt.pastExpiry now = true then do
    modify (expireSubmitted now a)
    throw (.quizAttemptSubmission "زمان آزمون به پایان رسیده است.")
  else gradeBody now a attempt answers

end QuizStore

open QuizStore

section transaction

variable {s t : QuizStore} {now a : ℕ} {answers : List (ℤ × ℤ)} {attempt : QuizAttempt}

/-- The answers that the loop has created. -/
theorem commits_gradeLoop {fetched : QuizStore} {questions : List ℕ} {awarded : ℕ} :
    Txn.Commits (gradeLoop fetched a attempt answers questions) s awarded t ↔
      ∃ graded, questions.mapM (fetched.gradeQuestion a attempt answers) = .ok graded ∧
        awarded = (graded.map QuizAnswer.scoreAwarded).sum ∧
        t = { s with answers := s.answers ++ graded } := by
  induction questions generalizing s t awarded with
  | nil =>
      rw [gradeLoop, Txn.commits_pure, List.mapM_nil]
      constructor
      · rintro ⟨rfl, rfl⟩
        exact ⟨[], rfl, rfl, by rw [List.append_nil]⟩
      · rintro ⟨graded, hgraded, rfl, rfl⟩
        obtain rfl := Except.ok.inj hgraded
        exact ⟨rfl, by rw [List.append_nil]⟩
  | cons question questions ih =>
      simp only [gradeLoop, Txn.commits_bind, Txn.commits_fromExcept, Txn.commits_modify,
        Txn.commits_pure, ih, List.mapM_cons, except_bind_ok_iff]
      constructor
      · rintro ⟨answer, _, ⟨hanswer, rfl⟩, _, _, rfl, rest, _, ⟨graded, hgraded, rfl, rfl⟩, rfl, rfl⟩
        refine ⟨answer :: graded, ⟨answer, hanswer, graded, hgraded, rfl⟩, ?_, ?_⟩
        · rw [List.map_cons, List.sum_cons]
        · simp only [List.append_assoc, List.singleton_append]
      · rintro ⟨_, ⟨answer, hanswer, graded, hgraded, hpure⟩, rfl, rfl⟩
        obtain rfl := Except.ok.inj hpure
        refine ⟨answer, s, ⟨hanswer, rfl⟩, ⟨⟩, _, rfl, _, _, ⟨graded, hgraded, rfl, rfl⟩, ?_, ?_⟩
        · rw [List.map_cons, List.sum_cons]
        · simp only [List.append_assoc, List.singleton_append]

theorem commits_gradeBody :
    Txn.Commits (gradeBody now a attempt answers) s () t ↔
      answersAll answers attempt.questionSnapshot = true ∧
        ∃ quiz weights graded, s.quizzes[attempt.quiz]? = some quiz ∧
          attempt.questionSnapshot.mapM s.questionWeight = .ok weights ∧
          attempt.questionSnapshot.mapM (s.gradeQuestion a attempt answers) = .ok graded ∧
          t = { s with
            lms := if decide (quiz.passingScore ≤
                scoreOn 2000 (graded.map QuizAnswer.scoreAwarded).sum weights.sum) = true then
              completeEnrollmentAfterPass s.lms now attempt.enrollment else s.lms
            answers := (s.answers.filter fun answer => answer.attempt != a) ++ graded
            attempts := s.attempts.modify a
              (grade now quiz weights.sum (graded.map QuizAnswer.scoreAwarded).sum) } := by
  simp only [gradeBody, Txn.commits_bind, Txn.commits_get, Txn.commits_require, Txn.commits_orRaise,
    Txn.commits_fromExcept, Txn.commits_modify, Txn.commits_ite, Txn.commits_pure,
    commits_gradeLoop, decide_eq_true_eq]
  constructor
  · rintro ⟨_, _, ⟨rfl, rfl⟩, _, _, ⟨hall, rfl⟩, quiz, _, ⟨hquiz, rfl⟩, weights, _, ⟨hweights, rfl⟩,
      _, _, rfl, awarded, _, ⟨graded, hgraded, rfl, rfl⟩, _, _, rfl, hlast⟩
    refine ⟨hall, quiz, weights, graded, hquiz, hweights, hgraded, ?_⟩
    rcases hlast with ⟨hpassed, rfl⟩ | ⟨hfailed, -, rfl⟩
    · rw [if_pos hpassed]
    · rw [if_neg hfailed]
  · rintro ⟨hall, quiz, weights, graded, hquiz, hweights, hgraded, rfl⟩
    refine ⟨_, _, ⟨rfl, rfl⟩, (), _, ⟨hall, rfl⟩, quiz, _, ⟨hquiz, rfl⟩, weights, _, ⟨hweights, rfl⟩,
      ⟨⟩, _, rfl, _, _, ⟨graded, hgraded, rfl, rfl⟩, ⟨⟩, _, rfl, ?_⟩
    by_cases hpassed : quiz.passingScore ≤
        scoreOn 2000 (graded.map QuizAnswer.scoreAwarded).sum weights.sum
    · exact Or.inl ⟨hpassed, by rw [if_pos hpassed]⟩
    · exact Or.inr ⟨hpassed, trivial, by rw [if_neg hpassed]⟩

/-- **Refinement.** What the transaction commits is what the function of the model returns. -/
theorem commits_submitBody :
    Txn.Commits (submitBody now a answers) s () t ↔ s.submitQuizAttempt now a answers = .ok t := by
  simp only [submitBody, Txn.commits_bind, Txn.commits_get, Txn.commits_orRaise,
    Txn.commits_require, Txn.commits_ite, Txn.commits_throw, commits_gradeBody]
  unfold QuizStore.submitQuizAttempt
  constructor
  · rintro ⟨_, _, ⟨rfl, rfl⟩, attempt, _, ⟨hattempt, rfl⟩, _, _, ⟨hstatus, rfl⟩,
      ⟨-, _, _, -, hraised⟩ | ⟨hexpiry, hall, quiz, weights, graded, hquiz, hweights, hgraded, rfl⟩⟩
    · exact hraised.elim
    · rw [hattempt]
      dsimp only
      rw [if_neg (not_not.mpr hstatus), if_neg hexpiry, if_neg (by rw [hall]; decide), hquiz]
      dsimp only
      rw [hweights, hgraded]
      rfl
  · intro h
    split at h
    · cases h
    · rename_i attempt hattempt
      split_ifs at h with hstatus hexpiry hall
      split at h
      · cases h
      · rename_i quiz hquiz
        obtain ⟨weights, hweights, h⟩ := except_bind_ok_iff.mp h
        obtain ⟨graded, hgraded, h⟩ := except_bind_ok_iff.mp h
        obtain rfl := Except.ok.inj h
        refine ⟨s, s, ⟨rfl, rfl⟩, attempt, s, ⟨hattempt, rfl⟩, (), s, ⟨not_not.mp hstatus, rfl⟩,
          Or.inr ⟨hexpiry, by simpa using hall, quiz, weights, graded, hquiz, hweights, hgraded, rfl⟩⟩

/-- `submit_quiz_attempt` as the store sees it. -/
def submitted (now a : ℕ) (answers : List (ℤ × ℤ)) (s : QuizStore) : QuizStore :=
  Txn.after (Txn.atomic (submitBody now a answers)) s

theorem submitted_cases (s : QuizStore) (now a : ℕ) (answers : List (ℤ × ℤ)) :
    submitted now a answers s = s ∨
      s.submitQuizAttempt now a answers = .ok (submitted now a answers s) := by
  rcases Txn.allOrNothing_atomic (submitBody now a answers) s with hsame | ⟨u, hcommits⟩
  · exact Or.inl hsame
  · exact Or.inr (commits_submitBody.mp (Txn.commits_atomic.mp hcommits))

/-- The save of EXPIRED does not last. -/
theorem submitted_late (hattempt : s.attempts[a]? = some attempt)
    (hlate : attempt.pastExpiry now = true) : submitted now a answers s = s := by
  rcases submitted_cases s now a answers with hsame | hok
  · exact hsame
  · obtain ⟨found, -, -, -, hfound, -, hintime, -⟩ := submit_ok hok
    obtain rfl := Option.some.inj (hattempt.symm.trans hfound)
    rw [hlate] at hintime
    cases hintime

/-- A submission in time grades the attempt or leaves it alone; the others stay. -/
theorem row_submitted {b : ℕ} (hattempt : s.attempts[b]? = some attempt) :
    (submitted now a answers s).attempts[b]? = some attempt ∨
      b = a ∧ attempt.pastExpiry now = false ∧
        ∃ quiz total awarded, (submitted now a answers s).attempts[b]? =
          some (grade now quiz total awarded attempt) := by
  rcases submitted_cases s now a answers with hsame | hok
  · rw [hsame]
    exact Or.inl hattempt
  · obtain ⟨found, quiz, weights, graded, hfound, -, hintime, -, -, -, hattempts⟩ := submit_ok hok
    rw [hattempts, List.getElem?_modify, hattempt]
    by_cases hba : a = b
    · subst hba
      obtain rfl := Option.some.inj (hattempt.symm.trans hfound)
      exact Or.inr ⟨rfl, hintime, quiz, weights.sum, _, congrArg some (if_pos rfl)⟩
    · exact Or.inl (congrArg some (if_neg hba))

end transaction

/-! ## The other place that expires attempts -/

section starts

variable {s : QuizStore} {now q user : ℕ} {quiz : Quiz} {draws : List (List ℕ)}

/-- A new attempt is added behind the others. -/
theorem row_startNewAttempt {enrollment : ℕ × Enrollment} {b : ℕ} {attempt : QuizAttempt}
    (hattempt : s.attempts[b]? = some attempt) :
    (s.startNewAttempt now q user quiz enrollment draws).1.attempts[b]? = some attempt := by
  unfold QuizStore.startNewAttempt
  split
  · exact hattempt
  · unfold QuizStore.createAttempt
    split
    · exact hattempt
    · show (s.attempts ++ _)[b]? = some attempt
      rw [List.getElem?_append_left (List.getElem?_eq_some_iff.mp hattempt).1]
      exact hattempt

/-- A start leaves an attempt alone, or expires it past its time. -/
theorem row_startQuizAttempt {b : ℕ} {attempt : QuizAttempt}
    (hattempt : s.attempts[b]? = some attempt) :
    (s.startQuizAttempt now q user quiz draws).1.attempts[b]? = some attempt ∨
      attempt.pastExpiry now = true ∧
        (s.startQuizAttempt now q user quiz draws).1.attempts[b]? =
          some { attempt with status := .expired } := by
  unfold QuizStore.startQuizAttempt
  split
  · exact Or.inl hattempt
  · split
    · exact Or.inl (row_startNewAttempt hattempt)
    · rename_i found a hfound
      split
      · rename_i hpast
        by_cases hab : a = b
        · subst hab
          have hrow := List.mem_of_mem_filter (List.argmax_mem hfound)
          obtain rfl := Option.some.inj (hattempt.symm.trans (mem_attemptsOf.mp hrow).1)
          refine Or.inr ⟨hpast, row_startNewAttempt ?_⟩
          show (s.attempts.modify a _)[a]? = _
          rw [List.getElem?_modify, hattempt]
          exact congrArg some (if_pos rfl)
        · refine Or.inl (row_startNewAttempt ?_)
          show (s.attempts.modify a _)[b]? = _
          rw [List.getElem?_modify, hattempt]
          exact congrArg some (if_neg hab)
      · exact Or.inl hattempt

end starts

/-! ## Runs of one learner -/

/-- A call of the learner. -/
inductive LearnerCall where
  | start (now : ℕ) (draws : List (List ℕ))
  | submit (now a : ℕ) (answers : List (ℤ × ℤ))
deriving DecidableEq, Repr

/-- One call of the user on the quiz. -/
def learnerStep (q user : ℕ) (s : QuizStore) : LearnerCall → QuizStore
  | .start now draws =>
      match s.quizzes[q]? with
      | none => s
      | some quiz => (s.startQuizAttempt now q user quiz draws).1
  | .submit now a answers => submitted now a answers s

/-- PASSED or FAILED. -/
def QuizAttemptStatus.graded : QuizAttemptStatus → Bool
  | .passed | .failed => true
  | _ => false

/-- An attempt that the call grades is graded by a submission of it in time. -/
def GradesInTime (q user : ℕ) (s : QuizStore) (call : LearnerCall) : Prop :=
  ∀ a attempt attempt', s.attempts[a]? = some attempt →
    (learnerStep q user s call).attempts[a]? = some attempt' →
    attempt.status.graded = false → attempt'.status.graded = true →
    ∃ now answers, call = .submit now a answers ∧ attempt.pastExpiry now = false

/-- After a late submission the attempt is stored as EXPIRED. -/
def ClosesLate (q user : ℕ) (s : QuizStore) (call : LearnerCall) : Prop :=
  ∀ now a answers, call = .submit now a answers → ∀ attempt attempt',
    s.attempts[a]? = some attempt → attempt.pastExpiry now = true →
    (learnerStep q user s call).attempts[a]? = some attempt' → attempt'.status = .expired

/-- A late submission finds its attempt EXPIRED. -/
def FindsExpired (s : QuizStore) (call : LearnerCall) : Prop :=
  ∀ now a answers, call = .submit now a answers → ∀ attempt, s.attempts[a]? = some attempt →
    attempt.pastExpiry now = true → attempt.status = .expired

section runs

variable {q user : ℕ} {s : QuizStore}

/-- **Step cases.** A call leaves an attempt alone, expires it past its time or grades it in
time. -/
theorem row_learnerStep (call : LearnerCall) {b : ℕ} {attempt : QuizAttempt}
    (hattempt : s.attempts[b]? = some attempt) :
    (learnerStep q user s call).attempts[b]? = some attempt ∨
      (∃ now draws, call = .start now draws ∧ attempt.pastExpiry now = true ∧
        (learnerStep q user s call).attempts[b]? = some { attempt with status := .expired }) ∨
      ∃ now answers, call = .submit now b answers ∧ attempt.pastExpiry now = false ∧
        ∃ quiz total awarded, (learnerStep q user s call).attempts[b]? =
          some (grade now quiz total awarded attempt) := by
  cases call with
  | start now draws =>
      unfold learnerStep
      dsimp only
      split
      · exact Or.inl hattempt
      · rcases row_startQuizAttempt hattempt with hsame | ⟨hpast, hexpired⟩
        · exact Or.inl hsame
        · exact Or.inr (Or.inl ⟨now, draws, rfl, hpast, hexpired⟩)
  | submit now a answers =>
      rcases @row_submitted s now a answers attempt b hattempt with
        hsame | ⟨rfl, hintime, hgraded⟩
      · exact Or.inl hsame
      · exact Or.inr (Or.inr ⟨now, answers, rfl, hintime, hgraded⟩)

theorem gradesInTime (s : QuizStore) (call : LearnerCall) : GradesInTime q user s call := by
  intro b attempt attempt' hattempt hattempt' hbefore hafter
  rcases row_learnerStep call hattempt with
    hsame | ⟨now, draws, -, -, hexpired⟩ | ⟨now, answers, hcall, hintime, -⟩
  · obtain rfl := Option.some.inj (hsame.symm.trans hattempt')
    rw [hbefore] at hafter
    cases hafter
  · obtain rfl := Option.some.inj (hexpired.symm.trans hattempt')
    cases hafter
  · exact ⟨now, answers, hcall, hintime⟩

/-- **Step lemma.** A late submission leaves the attempt as it finds it. -/
theorem closesLate_iff (s : QuizStore) (call : LearnerCall) :
    ClosesLate q user s call ↔ FindsExpired s call := by
  have hlate : ∀ now a answers, call = .submit now a answers → ∀ attempt,
      s.attempts[a]? = some attempt → attempt.pastExpiry now = true →
      learnerStep q user s call = s := by
    rintro now a answers rfl attempt hattempt hpast
    exact submitted_late hattempt hpast
  constructor
  · intro hcloses now a answers hcall attempt hattempt hpast
    have hsame := hlate now a answers hcall attempt hattempt hpast
    exact hcloses now a answers hcall attempt attempt hattempt hpast (by rw [hsame]; exact hattempt)
  · intro hfinds now a answers hcall attempt attempt' hattempt hpast hattempt'
    rw [hlate now a answers hcall attempt hattempt hpast, hattempt] at hattempt'
    obtain rfl := Option.some.inj hattempt'
    exact hfinds now a answers hcall attempt hattempt hpast

/-- Only a start at or after its time makes an attempt EXPIRED. -/
theorem expired_by_start {call : LearnerCall} {b : ℕ} {attempt attempt' : QuizAttempt}
    (hattempt : s.attempts[b]? = some attempt)
    (hattempt' : (learnerStep q user s call).attempts[b]? = some attempt')
    (hbefore : attempt.status ≠ .expired) (hafter : attempt'.status = .expired) :
    ∃ now draws, call = .start now draws ∧ attempt.pastExpiry now = true := by
  rcases row_learnerStep call hattempt with
    hsame | ⟨now, draws, hcall, hpast, -⟩ | ⟨now, answers, -, -, quiz, total, awarded, hgraded⟩
  · obtain rfl := Option.some.inj (hsame.symm.trans hattempt')
    exact absurd hafter hbefore
  · exact ⟨now, draws, hcall, hpast⟩
  · obtain rfl := Option.some.inj (hgraded.symm.trans hattempt')
    have hstatus : (if _ then QuizAttemptStatus.passed else .failed) = .expired := hafter
    split at hstatus <;> cases hstatus

/-- **Late submissions.** In every run no attempt is graded past its time; and every late
submission leaves its attempt EXPIRED exactly as long as each one finds it EXPIRED. -/
theorem late_submissions (q user : ℕ) (s : QuizStore) (calls : List LearnerCall) :
    (∀ pre call, pre ++ [call] <+: calls →
        GradesInTime q user (run (learnerStep q user) s pre) call) ∧
      ((∀ pre call, pre ++ [call] <+: calls →
          ClosesLate q user (run (learnerStep q user) s pre) call) ↔
        Along (learnerStep q user) FindsExpired s calls) := by
  refine ⟨fun pre call _ => gradesInTime _ call, ?_⟩
  rw [along_steps]
  simp only [closesLate_iff]

end runs

/-- The learner starts an attempt of thirty minutes and submits after an hour. -/
theorem late_submission_stays_open :
    ¬ ClosesLate 0 7 (run (learnerStep 0 7) (sampleQuizStart 1).store [.start 0 []])
      (.submit 3600000 0 [(0, 0)]) := by
  intro hcloses
  have hopen : ((run (learnerStep 0 7) (sampleQuizStart 1).store
      [.start 0 [], .submit 3600000 0 [(0, 0)]]).attempts[0]?).map QuizAttempt.status =
        some .inProgress := by decide +kernel
  obtain ⟨attempt', hattempt', hstatus⟩ := Option.map_eq_some_iff.mp hopen
  have hrow : (run (learnerStep 0 7) (sampleQuizStart 1).store [.start 0 []]).attempts[0]? =
      some ⟨0, 7, 0, 1, .inProgress, 0, none, some 1800000, 0, 0, 0, false, [0], [(0, [0, 1])]⟩ := by
    decide +kernel
  have hexpired := hcloses 3600000 0 [(0, 0)] rfl _ attempt' hrow (by decide) hattempt'
  rw [hstatus] at hexpired
  cases hexpired

end SetadJang.Lms
