import SetadJang.Lms.LateSubmissions

/-!
# Grading an attempt by its snapshot

An attempt keeps the questions and options it was started with.  `submit_quiz_attempt` checks the
answers against them, and then loads the rows through the manager that hides the inactive ones:
a question or a chosen option that has been deleted since is missing from its maps.
-/

namespace SetadJang.Lms

open SetadJang.Framework QuizStore

/-! ## What the snapshot says of the answers -/

/-- The answered questions are exactly those of the snapshot. -/
def AnswersExactly (attempt : QuizAttempt) (answers : List (ℤ × ℤ)) : Prop :=
  ∀ x : ℤ, (∃ answer ∈ answers, answer.1 = x) ↔ ∃ question ∈ attempt.questionSnapshot, x = question

/-- The option chosen for the question is one of its snapshot. -/
def chosenOffered (attempt : QuizAttempt) (answers : List (ℤ × ℤ)) (question : ℕ) : Bool :=
  (answerTo answers question).any fun selected =>
    ((attempt.optionOrderSnapshot.lookup question).getD []).any fun option =>
      selected == (option : ℤ)

/-- The option chosen for the question has not been deleted. -/
def chosenActive (s : QuizStore) (answers : List (ℤ × ℤ)) (question : ℕ) : Bool :=
  (answerTo answers question).any fun selected =>
    (s.options[selected.toNat]?).any QuizOption.isActive

/-- The option chosen for the question is a correct one of that question. -/
def rightAnswer (s : QuizStore) (answers : List (ℤ × ℤ)) (question : ℕ) : Bool :=
  (answerTo answers question).any fun selected =>
    (s.options[selected.toNat]?).any fun option =>
      selected == (selected.toNat : ℤ) && option.question == question && option.isCorrect

def weightOf (s : QuizStore) (question : ℕ) : ℕ := (s.questions[question]?).elim 0 QuizQuestion.weight

/-- The total weight of the questions of the snapshot. -/
def snapshotTotal (s : QuizStore) (attempt : QuizAttempt) : ℕ :=
  (attempt.questionSnapshot.map (weightOf s)).sum

/-- The weight of those with a right answer. -/
def snapshotScore (s : QuizStore) (attempt : QuizAttempt) (answers : List (ℤ × ℤ)) : ℕ :=
  sumWhere (rightAnswer s answers) (weightOf s) attempt.questionSnapshot

/-- A question stays or is deleted softly. -/
def QuestionKept (before after : QuizQuestion) : Prop :=
  after = before ∨ after = { before with isActive := false }

/-- An option stays or is deleted softly. -/
def OptionKept (before after : QuizOption) : Prop :=
  after = before ∨ after = { before with isActive := false }

/-- Questions and options are deleted softly, and may be added. -/
structure SoftDeletes (s t : QuizStore) : Prop where
  questions : Evolves QuestionKept s.questions t.questions
  options : Evolves OptionKept s.options t.options

/-- **Grading by the snapshot.** The submission in `t` of an attempt started in `s` raises a
submission error for answers that the snapshot does not allow, and nothing else; otherwise it
stores the score of the snapshot. -/
structure GradesBySnapshot (s t : QuizStore) (now a : ℕ) (attempt : QuizAttempt) (quiz : Quiz)
    (answers : List (ℤ × ℤ)) : Prop where
  raises : ∀ error, t.submitQuizAttempt now a answers = .error error →
    ∃ message, error = .quizAttemptSubmission message
  refused : (∃ message, t.submitQuizAttempt now a answers =
      .error (.quizAttemptSubmission message)) ↔
    ¬ AnswersExactly attempt answers ∨
      ∃ question ∈ attempt.questionSnapshot, ∃ selected,
        answerTo answers question = some selected ∧ chosenOffered attempt answers question = false
  graded : ∀ t', t.submitQuizAttempt now a answers = .ok t' →
    ∃ row, t'.attempts[a]? = some row ∧ row.scoreRaw = snapshotScore s attempt answers ∧
      (row.status = .passed ↔ quiz.passingScore ≤
        scoreOn 2000 (snapshotScore s attempt answers) (snapshotTotal s attempt))

/-- Every question is still active, and so is every chosen option up to the first question whose
option is not of its snapshot. -/
structure RowsLeft (t : QuizStore) (attempt : QuizAttempt) (answers : List (ℤ × ℤ)) : Prop where
  questions : ∀ question ∈ attempt.questionSnapshot,
    (t.questions[question]?).any QuizQuestion.isActive = true
  options : ∀ question ∈ attempt.questionSnapshot.takeWhile (chosenOffered attempt answers),
    chosenActive t answers question = true

theorem answersAll_iff {attempt : QuizAttempt} {answers : List (ℤ × ℤ)} :
    answersAll answers attempt.questionSnapshot = true ↔ AnswersExactly attempt answers := by
  simp only [answersAll, Bool.and_eq_true, List.all_eq_true, List.any_eq_true, beq_iff_eq]
  constructor
  · rintro ⟨hsub, hsup⟩ x
    constructor
    · rintro ⟨answer, hanswer, rfl⟩
      exact hsub answer hanswer
    · rintro ⟨question, hquestion, rfl⟩
      exact hsup question hquestion
  · intro hexact
    constructor
    · intro answer hanswer
      exact (hexact answer.1).mp ⟨answer, hanswer, rfl⟩
    · intro question hquestion
      exact (hexact question).mpr ⟨question, hquestion, rfl⟩

/-- Exact answers choose an option for every question. -/
theorem answerTo_isSome {attempt : QuizAttempt} {answers : List (ℤ × ℤ)}
    (hexact : AnswersExactly attempt answers) {question : ℕ}
    (hquestion : question ∈ attempt.questionSnapshot) :
    ∃ selected, answerTo answers question = some selected := by
  obtain ⟨answer, hanswer, hsame⟩ := (hexact question).mpr ⟨question, hquestion, rfl⟩
  unfold answerTo
  cases hfind : answers.reverse.find? fun answer => answer.1 == (question : ℤ) with
  | none =>
      have hnone := List.find?_eq_none.mp hfind answer (List.mem_reverse.mpr hanswer)
      exact absurd (beq_iff_eq.mpr hsame) hnone
  | some found => exact ⟨found.2, rfl⟩

/-! ## What a start leaves -/

section start

variable {s s' : QuizStore} {now q user a : ℕ} {quiz : Quiz} {draws : List (List ℕ)}

theorem shuffle_perm : ∀ draws xs : List ℕ, (shuffle draws xs).Perm xs := by
  intro draws
  induction draws with
  | nil =>
      intro xs
      cases xs <;> exact List.Perm.refl _
  | cons draw draws ih =>
      intro xs
      cases xs with
      | nil => exact List.Perm.refl _
      | cons x xs =>
          have hle : draw % (xs.length + 1) ≤ (shuffle draws xs).length := by
            rw [(ih xs).length_eq]
            exact Nat.lt_succ_iff.mp (Nat.mod_lt _ (Nat.succ_pos _))
          exact (List.perm_insertIdx x _ hle).trans ((ih xs).cons x)

/-- The questions of a snapshot have rows. -/
theorem question_of_snapshot {question : ℕ}
    (h : question ∈ (s.buildAttemptSnapshots q quiz draws).1) :
    ∃ row, s.questions[question]? = some row := by
  have hactive : question ∈ s.activeQuestions q := by
    unfold buildAttemptSnapshots at h
    dsimp only at h
    split at h
    · exact (shuffle_perm _ _).mem_iff.mp h
    · exact h
  unfold activeQuestions at hactive
  have hrange := List.mem_of_mem_filter ((List.mem_insertionSort _).mp hactive)
  exact ⟨_, List.getElem?_eq_getElem (List.mem_range.mp hrange)⟩

theorem option_of_active {question option : ℕ} (h : option ∈ s.activeOptions question) :
    ∃ row, s.options[option]? = some row := by
  unfold activeOptions at h
  have hrange := List.mem_of_mem_filter ((List.mem_insertionSort _).mp h)
  exact ⟨_, List.getElem?_eq_getElem (List.mem_range.mp hrange)⟩

/-- So do the options. -/
theorem option_of_snapshot {question option : ℕ}
    (h : option ∈ ((s.buildAttemptSnapshots q quiz draws).2.lookup question).getD []) :
    ∃ row, s.options[option]? = some row := by
  cases hlookup : (s.buildAttemptSnapshots q quiz draws).2.lookup question with
  | none =>
      rw [hlookup] at h
      cases h
  | some options =>
      rw [hlookup] at h
      obtain ⟨before, after, hentries, -⟩ := List.lookup_eq_some_iff.mp hlookup
      have hmem : (question, options) ∈ (s.buildAttemptSnapshots q quiz draws).2 := by
        rw [hentries]
        exact List.mem_append_right _ List.mem_cons_self
      unfold buildAttemptSnapshots at hmem
      obtain ⟨⟨key, i⟩, -, hentry⟩ := List.mem_map.mp hmem
      obtain ⟨rfl, hoptions⟩ := Prod.mk.inj hentry
      rw [Option.getD_some, ← hoptions] at h
      split at h
      · exact option_of_active ((shuffle_perm _ _).mem_iff.mp h)
      · exact option_of_active h

/-- The attempt in `s'` is new, with the snapshots of `s`. -/
structure Created (s s' : QuizStore) (now q a : ℕ) (quiz : Quiz) (draws : List (List ℕ))
    (attempt : QuizAttempt) : Prop where
  questions : s'.questions = s.questions
  options : s'.options = s.options
  row : s'.attempts[a]? = some attempt
  ofQuiz : attempt.quiz = q
  status : attempt.status = .inProgress
  expiresAt : attempt.expiresAt = some (now + quiz.timeLimitMinutes * 60000)
  snapshots : (attempt.questionSnapshot, attempt.optionOrderSnapshot) =
    s.buildAttemptSnapshots q quiz draws

theorem created_of_new {enrollment : ℕ × Enrollment}
    (h : s.startNewAttempt now q user quiz enrollment draws = (s', .ok (a, true))) :
    ∃ attempt, Created s s' now q a quiz draws attempt := by
  unfold startNewAttempt at h
  split at h
  · cases h
  · unfold createAttempt at h
    split at h
    · cases h
    · obtain ⟨rfl, hreturned⟩ := Prod.mk.inj h
      obtain ⟨rfl, -⟩ := Prod.mk.inj (Except.ok.inj hreturned)
      exact ⟨_, rfl, rfl, List.getElem?_concat_length, rfl, rfl, rfl, rfl⟩

theorem created_of_start (h : s.startQuizAttempt now q user quiz draws = (s', .ok (a, true))) :
    ∃ attempt, Created s s' now q a quiz draws attempt := by
  unfold startQuizAttempt at h
  split at h
  · cases h
  · split at h
    · exact created_of_new h
    · split at h
      · -- the expiry of the old attempt concerns no question and no option
        obtain ⟨attempt, hcreated⟩ := created_of_new h
        exact ⟨attempt, hcreated.questions, hcreated.options, hcreated.row, hcreated.ofQuiz,
          hcreated.status, hcreated.expiresAt, hcreated.snapshots⟩
      · cases h

end start

/-! ## The submission, branch by branch -/

section submission

variable {t : QuizStore} {now a : ℕ} {attempt : QuizAttempt} {quiz : Quiz}
  {answers : List (ℤ × ℤ)}

/-- The attempt is open and its quiz is there. -/
structure OpenAttempt (t : QuizStore) (now a : ℕ) (attempt : QuizAttempt) (quiz : Quiz) : Prop where
  row : t.attempts[a]? = some attempt
  status : attempt.status = .inProgress
  intime : attempt.pastExpiry now = false
  quiz : t.quizzes[attempt.quiz]? = some quiz

theorem submit_inexact (h : OpenAttempt t now a attempt quiz)
    (hexact : answersAll answers attempt.questionSnapshot = false) :
    t.submitQuizAttempt now a answers =
      .error (.quizAttemptSubmission "باید به تمام سؤال‌های آزمون پاسخ دهید.") := by
  unfold submitQuizAttempt
  rw [h.row]
  dsimp only
  rw [if_neg (not_not.mpr h.status), if_neg (by rw [h.intime]; decide),
    if_pos (by rw [hexact]; rfl)]

theorem submit_weights_error {error : QuizError} (h : OpenAttempt t now a attempt quiz)
    (hexact : answersAll answers attempt.questionSnapshot = true)
    (hweights : attempt.questionSnapshot.mapM t.questionWeight = .error error) :
    t.submitQuizAttempt now a answers = .error error := by
  unfold submitQuizAttempt
  rw [h.row]
  dsimp only
  rw [if_neg (not_not.mpr h.status), if_neg (by rw [h.intime]; decide),
    if_neg (by rw [hexact]; decide), h.quiz]
  dsimp only
  rw [hweights]
  rfl

theorem submit_graded_error {error : QuizError} {weights : List ℕ}
    (h : OpenAttempt t now a attempt quiz)
    (hexact : answersAll answers attempt.questionSnapshot = true)
    (hweights : attempt.questionSnapshot.mapM t.questionWeight = .ok weights)
    (hgraded : attempt.questionSnapshot.mapM (t.gradeQuestion a attempt answers) = .error error) :
    t.submitQuizAttempt now a answers = .error error := by
  unfold submitQuizAttempt
  rw [h.row]
  dsimp only
  rw [if_neg (not_not.mpr h.status), if_neg (by rw [h.intime]; decide),
    if_neg (by rw [hexact]; decide), h.quiz]
  dsimp only
  rw [hweights, hgraded]
  rfl

theorem submit_graded {weights : List ℕ} {graded : List QuizAnswer}
    (h : OpenAttempt t now a attempt quiz)
    (hexact : answersAll answers attempt.questionSnapshot = true)
    (hweights : attempt.questionSnapshot.mapM t.questionWeight = .ok weights)
    (hgraded : attempt.questionSnapshot.mapM (t.gradeQuestion a attempt answers) = .ok graded) :
    ∃ t', t.submitQuizAttempt now a answers = .ok t' ∧
      t'.attempts[a]? = some (grade now quiz weights.sum
        (graded.map QuizAnswer.scoreAwarded).sum attempt) := by
  have hok : ∃ t', t.submitQuizAttempt now a answers = .ok t' := by
    unfold submitQuizAttempt
    rw [h.row]
    dsimp only
    rw [if_neg (not_not.mpr h.status), if_neg (by rw [h.intime]; decide),
      if_neg (by rw [hexact]; decide), h.quiz]
    dsimp only
    rw [hweights, hgraded]
    exact ⟨_, rfl⟩
  obtain ⟨t', ht'⟩ := hok
  refine ⟨t', ht', ?_⟩
  obtain ⟨row, quiz', weights', graded', hrow, -, -, hquiz, hweights', hgraded', hattempts⟩ :=
    submit_ok ht'
  obtain rfl := Option.some.inj (h.row.symm.trans hrow)
  obtain rfl := Option.some.inj (h.quiz.symm.trans hquiz)
  obtain rfl := Except.ok.inj (hweights.symm.trans hweights')
  obtain rfl := Except.ok.inj (hgraded.symm.trans hgraded')
  rw [hattempts, List.getElem?_modify, h.row]
  exact congrArg some (if_pos rfl)

/-! ## One question -/

theorem questionWeight_active {question : ℕ}
    (h : (t.questions[question]?).any QuizQuestion.isActive = true) :
    t.questionWeight question = .ok (weightOf t question) := by
  unfold questionWeight weightOf
  cases hrow : t.questions[question]? with
  | none =>
      rw [hrow] at h
      cases h
  | some row =>
      rw [hrow, Option.any_some] at h
      rw [Option.filter_some, if_pos h]
      rfl

theorem questionWeight_deleted {question : ℕ}
    (h : (t.questions[question]?).any QuizQuestion.isActive = false) :
    t.questionWeight question = .error .keyError := by
  unfold questionWeight
  cases hrow : t.questions[question]? with
  | none => rfl
  | some row =>
      rw [hrow, Option.any_some] at h
      rw [Option.filter_some, if_neg (by rw [h]; decide)]

/-- The answer that the loop creates for the question. -/
def answerRow (t : QuizStore) (a : ℕ) (answers : List (ℤ × ℤ)) (question : ℕ) : QuizAnswer :=
  ⟨a, question, ((answerTo answers question).getD 0).toNat, rightAnswer t answers question,
    weightOf t question, if rightAnswer t answers question then weightOf t question else 0⟩

theorem gradeQuestion_foreign {question : ℕ} {selected : ℤ}
    (hselected : answerTo answers question = some selected)
    (hforeign : chosenOffered attempt answers question = false) :
    t.gradeQuestion a attempt answers question =
      .error (.quizAttemptSubmission "گزینه انتخاب‌شده معتبر نیست.") := by
  rw [chosenOffered, hselected, Option.any_some] at hforeign
  unfold gradeQuestion
  rw [hselected]
  dsimp only
  rw [if_pos (by rw [hforeign]; rfl)]

theorem gradeQuestion_deleted {question : ℕ}
    (hoffered : chosenOffered attempt answers question = true)
    (hdeleted : chosenActive t answers question = false) :
    t.gradeQuestion a attempt answers question = .error .keyError := by
  unfold chosenOffered at hoffered
  unfold chosenActive at hdeleted
  unfold gradeQuestion
  cases hselected : answerTo answers question with
  | none => rfl
  | some selected =>
      rw [hselected, Option.any_some] at hoffered hdeleted
      dsimp only
      rw [if_neg (by rw [hoffered]; decide)]
      cases hrow : t.options[selected.toNat]? with
      | none => rfl
      | some row =>
          rw [hrow, Option.any_some] at hdeleted
          rw [Option.filter_some, if_neg (by rw [hdeleted]; decide)]

theorem gradeQuestion_active {question : ℕ}
    (hoffered : chosenOffered attempt answers question = true)
    (hactive : chosenActive t answers question = true)
    (hquestion : (t.questions[question]?).any QuizQuestion.isActive = true) :
    t.gradeQuestion a attempt answers question = .ok (answerRow t a answers question) := by
  have hweight := questionWeight_active hquestion
  unfold chosenOffered at hoffered
  unfold chosenActive at hactive
  unfold gradeQuestion answerRow rightAnswer
  cases hselected : answerTo answers question with
  | none =>
      rw [hselected] at hoffered
      cases hoffered
  | some selected =>
      rw [hselected, Option.any_some] at hoffered hactive
      dsimp only
      rw [if_neg (by rw [hoffered]; decide)]
      -- what is offered is a key, so nothing is lost by `toNat`
      obtain ⟨option, -, hoption⟩ := List.any_eq_true.mp hoffered
      have hkey : (selected == (selected.toNat : ℤ)) = true := by
        rw [beq_iff_eq.mp hoption, Int.toNat_natCast, beq_self_eq_true]
      cases hrow : t.options[selected.toNat]? with
      | none =>
          rw [hrow] at hactive
          cases hactive
      | some row =>
          rw [hrow, Option.any_some] at hactive
          rw [Option.filter_some, if_pos hactive]
          simp only [hweight, Option.any_some, hrow, hkey, Bool.true_and, Option.getD_some]
          rfl

/-- What the loop grades is offered and there. -/
theorem offered_of_graded {question : ℕ} {answer : QuizAnswer}
    (h : t.gradeQuestion a attempt answers question = .ok answer) :
    chosenOffered attempt answers question = true ∧ chosenActive t answers question = true := by
  have hoffered : chosenOffered attempt answers question = true := by
    by_contra hforeign
    cases hselected : answerTo answers question with
    | none =>
        unfold gradeQuestion at h
        rw [hselected] at h
        cases h
    | some selected =>
        rw [gradeQuestion_foreign hselected (Bool.eq_false_of_not_eq_true hforeign)] at h
        cases h
  refine ⟨hoffered, ?_⟩
  by_contra hdeleted
  rw [gradeQuestion_deleted hoffered (Bool.eq_false_of_not_eq_true hdeleted)] at h
  cases h

theorem weights_active
    (h : ∀ question ∈ attempt.questionSnapshot,
      (t.questions[question]?).any QuizQuestion.isActive = true) :
    attempt.questionSnapshot.mapM t.questionWeight =
      .ok (attempt.questionSnapshot.map (weightOf t)) :=
  mapM_ok_of_forall fun question hquestion => questionWeight_active (h question hquestion)

theorem weights_deleted
    (h : ¬ ∀ question ∈ attempt.questionSnapshot,
      (t.questions[question]?).any QuizQuestion.isActive = true) :
    attempt.questionSnapshot.mapM t.questionWeight = .error .keyError := by
  cases hweights : attempt.questionSnapshot.mapM t.questionWeight with
  | error error =>
      obtain ⟨-, question, -, -, -, herror⟩ := mapM_error_iff.mp hweights
      by_cases hactive : (t.questions[question]?).any QuizQuestion.isActive = true
      · rw [questionWeight_active hactive] at herror
        cases herror
      · rw [questionWeight_deleted (Bool.eq_false_of_not_eq_true hactive)] at herror
        obtain rfl := Except.error.inj herror
        rfl
  | ok weights =>
      refine absurd (fun question hquestion => ?_) h
      obtain ⟨weight, hweight⟩ := forall_ok_of_mapM_ok hweights question hquestion
      by_contra hdeleted
      rw [questionWeight_deleted (Bool.eq_false_of_not_eq_true hdeleted)] at hweight
      cases hweight

end submission

/-! ## What a deletion leaves -/

section deletion

variable {s t : QuizStore}

theorem SoftDeletes.weightOf (h : SoftDeletes s t) {question : ℕ} {row : QuizQuestion}
    (hrow : s.questions[question]? = some row) : Lms.weightOf t question = Lms.weightOf s question := by
  obtain ⟨after, hafter, hsame⟩ := h.questions question row hrow
  unfold Lms.weightOf
  rw [hrow, hafter]
  rcases hsame with rfl | rfl <;> rfl

theorem SoftDeletes.rightAnswer (h : SoftDeletes s t) {answers : List (ℤ × ℤ)} {attempt : QuizAttempt} {question : ℕ}
    (hoptions : ∀ option ∈ (attempt.optionOrderSnapshot.lookup question).getD [],
      ∃ row, s.options[option]? = some row)
    (hoffered : chosenOffered attempt answers question = true) :
    Lms.rightAnswer t answers question = Lms.rightAnswer s answers question := by
  unfold chosenOffered at hoffered
  unfold Lms.rightAnswer
  cases hselected : answerTo answers question with
  | none => rfl
  | some selected =>
      rw [hselected, Option.any_some] at hoffered
      obtain ⟨option, hoption, hkey⟩ := List.any_eq_true.mp hoffered
      obtain ⟨row, hrow⟩ := hoptions option hoption
      obtain ⟨after, hafter, hsame⟩ := h.options option row hrow
      have htoNat : selected.toNat = option := by rw [beq_iff_eq.mp hkey, Int.toNat_natCast]
      rw [Option.any_some, Option.any_some, htoNat, hrow, hafter]
      rcases hsame with rfl | rfl <;> rfl

end deletion

/-! ## Every submission of a new attempt -/

section whole

variable {s t : QuizStore} {now a : ℕ} {attempt : QuizAttempt} {quiz : Quiz}
  {answers : List (ℤ × ℤ)}

/-- An attempt whose questions and options have rows. -/
structure SnapshotPlaced (s : QuizStore) (attempt : QuizAttempt) : Prop where
  questions : ∀ question ∈ attempt.questionSnapshot, ∃ row, s.questions[question]? = some row
  options : ∀ question, ∀ option ∈ (attempt.optionOrderSnapshot.lookup question).getD [],
    ∃ row, s.options[option]? = some row

/-- A submission that raises a submission error, of answers that the snapshot does not allow. -/
theorem gradesBySnapshot_of_refused {message : String}
    (hraised : t.submitQuizAttempt now a answers = .error (.quizAttemptSubmission message))
    (hforeign : ¬ AnswersExactly attempt answers ∨
      ∃ question ∈ attempt.questionSnapshot, ∃ selected,
        answerTo answers question = some selected ∧
          chosenOffered attempt answers question = false) :
    GradesBySnapshot s t now a attempt quiz answers where
  raises := by
    intro error herror
    rw [hraised] at herror
    exact ⟨message, (Except.error.inj herror).symm⟩
  refused := iff_of_true ⟨message, hraised⟩ hforeign
  graded := by
    intro t' ht'
    rw [hraised] at ht'
    cases ht'

/-- A missing key is no submission error. -/
theorem not_gradesBySnapshot_of_keyError
    (hraised : t.submitQuizAttempt now a answers = .error .keyError) :
    ¬ GradesBySnapshot s t now a attempt quiz answers := by
  intro h
  obtain ⟨message, hmessage⟩ := h.raises _ hraised
  cases hmessage

/-- A submission whose rows are all there. -/
theorem gradesBySnapshot_of_graded (hopen : OpenAttempt t now a attempt quiz)
    (hplaced : SnapshotPlaced s attempt) (hdeleted : SoftDeletes s t)
    (hexact : AnswersExactly attempt answers)
    (hquestions : ∀ question ∈ attempt.questionSnapshot,
      (t.questions[question]?).any QuizQuestion.isActive = true)
    (hchosen : ∀ question ∈ attempt.questionSnapshot,
      chosenOffered attempt answers question = true ∧ chosenActive t answers question = true) :
    GradesBySnapshot s t now a attempt quiz answers := by
  have hgraded : attempt.questionSnapshot.mapM (t.gradeQuestion a attempt answers) =
      .ok (attempt.questionSnapshot.map (answerRow t a answers)) :=
    mapM_ok_of_forall fun question hquestion => gradeQuestion_active (hchosen question hquestion).1
      (hchosen question hquestion).2 (hquestions question hquestion)
  obtain ⟨t', ht', hrow⟩ := submit_graded hopen (answersAll_iff.mpr hexact)
    (weights_active hquestions) hgraded
  have htotal : (attempt.questionSnapshot.map (weightOf t)).sum = snapshotTotal s attempt := by
    unfold snapshotTotal
    congr 1
    refine List.map_congr_left fun question hquestion => ?_
    obtain ⟨row, hrow⟩ := hplaced.questions question hquestion
    exact hdeleted.weightOf hrow
  have hscore : ((attempt.questionSnapshot.map (answerRow t a answers)).map
      QuizAnswer.scoreAwarded).sum = snapshotScore s attempt answers := by
    unfold snapshotScore
    rw [← sum_map_ite, List.map_map]
    congr 1
    refine List.map_congr_left fun question hquestion => ?_
    obtain ⟨row, hrow⟩ := hplaced.questions question hquestion
    show (if rightAnswer t answers question then weightOf t question else 0) = _
    rw [hdeleted.weightOf hrow,
      hdeleted.rightAnswer (hplaced.options question) (hchosen question hquestion).1]
  rw [htotal, hscore] at hrow
  constructor
  · intro error herror
    rw [ht'] at herror
    cases herror
  · refine iff_of_false ?_ ?_
    · rintro ⟨message, hraised⟩
      rw [ht'] at hraised
      cases hraised
    · rintro (hnot | ⟨question, hquestion, -, -, hforeign⟩)
      · exact hnot hexact
      · rw [(hchosen question hquestion).1] at hforeign
        cases hforeign
  · intro t'' ht''
    obtain rfl := Except.ok.inj (ht'.symm.trans ht'')
    refine ⟨_, hrow, rfl, ?_⟩
    show (if decide _ then QuizAttemptStatus.passed else .failed) = .passed ↔ _
    rw [ite_eq_left_iff, decide_eq_true_eq]
    exact ⟨fun hpassed => by by_contra hnot; exact absurd (hpassed hnot) (by decide),
      fun hpassed hnot => absurd hpassed hnot⟩

/-- The loop stops at the first question that it cannot grade: its option has been deleted, or was
not offered and none before it has been deleted. -/
theorem grading_stops (hexact : AnswersExactly attempt answers)
    (hquestions : ∀ question ∈ attempt.questionSnapshot,
      (t.questions[question]?).any QuizQuestion.isActive = true) {error : QuizError}
    (hgraded : attempt.questionSnapshot.mapM (t.gradeQuestion a attempt answers) = .error error) :
    ∃ question ∈ attempt.questionSnapshot,
      (error = .keyError ∧
        question ∈ attempt.questionSnapshot.takeWhile (chosenOffered attempt answers) ∧
          chosenActive t answers question = false) ∨
      (error = .quizAttemptSubmission "گزینه انتخاب‌شده معتبر نیست." ∧
        chosenOffered attempt answers question = false ∧
          ∀ earlier ∈ attempt.questionSnapshot.takeWhile (chosenOffered attempt answers),
            chosenActive t answers earlier = true) := by
  obtain ⟨pre, question, post, hsplit, hpre, herror⟩ := mapM_error_iff.mp hgraded
  have hquestion : question ∈ attempt.questionSnapshot := by
    rw [hsplit]
    exact List.mem_append_right _ List.mem_cons_self
  have hgood : ∀ earlier ∈ pre, chosenOffered attempt answers earlier = true ∧
      chosenActive t answers earlier = true := by
    intro earlier hearlier
    obtain ⟨answer, hanswer⟩ := hpre earlier hearlier
    exact offered_of_graded hanswer
  have hupto : attempt.questionSnapshot.takeWhile (chosenOffered attempt answers) =
      pre ++ (question :: post).takeWhile (chosenOffered attempt answers) := by
    rw [hsplit]
    exact List.takeWhile_append_of_pos fun earlier hearlier => (hgood earlier hearlier).1
  refine ⟨question, hquestion, ?_⟩
  cases hoffered : chosenOffered attempt answers question with
  | true =>
      have hgone : chosenActive t answers question = false := by
        by_contra hactive
        rw [gradeQuestion_active hoffered (Bool.eq_true_of_not_eq_false hactive)
          (hquestions question hquestion)] at herror
        cases herror
      rw [gradeQuestion_deleted hoffered hgone] at herror
      refine Or.inl ⟨(Except.error.inj herror).symm, ?_, hgone⟩
      rw [hupto, List.takeWhile_cons_of_pos hoffered]
      exact List.mem_append_right _ List.mem_cons_self
  | false =>
      obtain ⟨selected, hselected⟩ := answerTo_isSome hexact hquestion
      rw [gradeQuestion_foreign hselected hoffered] at herror
      refine Or.inr ⟨(Except.error.inj herror).symm, rfl, ?_⟩
      rw [hupto, List.takeWhile_cons_of_neg (by rw [hoffered]; decide), List.append_nil]
      exact fun earlier hearlier => (hgood earlier hearlier).2

theorem gradesBySnapshot_iff (hopen : OpenAttempt t now a attempt quiz)
    (hplaced : SnapshotPlaced s attempt) (hdeleted : SoftDeletes s t) :
    GradesBySnapshot s t now a attempt quiz answers ↔
      ¬ AnswersExactly attempt answers ∨ RowsLeft t attempt answers := by
  by_cases hexact : AnswersExactly attempt answers
  swap
  · have hall := Bool.eq_false_of_not_eq_true fun hall => hexact (answersAll_iff.mp hall)
    exact iff_of_true (gradesBySnapshot_of_refused (submit_inexact hopen hall) (Or.inl hexact))
      (Or.inl hexact)
  rw [or_iff_right (not_not.mpr hexact)]
  have hall := answersAll_iff.mpr hexact
  by_cases hquestions : ∀ question ∈ attempt.questionSnapshot,
      (t.questions[question]?).any QuizQuestion.isActive = true
  swap
  · refine iff_of_false ?_ fun hleft => hquestions hleft.questions
    exact not_gradesBySnapshot_of_keyError
      (submit_weights_error hopen hall (weights_deleted hquestions))
  cases hgraded : attempt.questionSnapshot.mapM (t.gradeQuestion a attempt answers) with
  | ok graded =>
      have hchosen : ∀ question ∈ attempt.questionSnapshot,
          chosenOffered attempt answers question = true ∧
            chosenActive t answers question = true := by
        intro question hquestion
        obtain ⟨answer, hanswer⟩ := forall_ok_of_mapM_ok hgraded question hquestion
        exact offered_of_graded hanswer
      refine iff_of_true
        (gradesBySnapshot_of_graded hopen hplaced hdeleted hexact hquestions hchosen) ?_
      exact ⟨hquestions, fun question hquestion =>
        (hchosen question ((List.takeWhile_subset _) hquestion)).2⟩
  | error error =>
      have hraised := submit_graded_error hopen hall (weights_active hquestions) hgraded
      obtain ⟨question, hquestion, ⟨rfl, hupto, hgone⟩ | ⟨rfl, hforeign, hactive⟩⟩ :=
        grading_stops hexact hquestions hgraded
      · refine iff_of_false (not_gradesBySnapshot_of_keyError hraised) fun hleft => ?_
        have hactive := hleft.options question hupto
        rw [hgone] at hactive
        cases hactive
      · obtain ⟨selected, hselected⟩ := answerTo_isSome hexact hquestion
        exact iff_of_true (gradesBySnapshot_of_refused hraised
          (Or.inr ⟨question, hquestion, selected, hselected, hforeign⟩)) ⟨hquestions, hactive⟩

/-- **Grading follows the snapshot.** A submission in time of an attempt that was started in
`s'`, after any deletions, is graded by the snapshot exactly when the answers are not for its
questions, or the rows it looks up are still active. -/
theorem grading_follows_snapshot_iff {s s' t : QuizStore} {started q user a now : ℕ}
    {quiz quiz' : Quiz} {draws : List (List ℕ)} {attempt : QuizAttempt}
    (hstart : s.startQuizAttempt started q user quiz draws = (s', .ok (a, true)))
    (hattempt : s'.attempts[a]? = some attempt) (hdeleted : SoftDeletes s' t)
    (hrow : t.attempts[a]? = some attempt) (hquiz : t.quizzes[q]? = some quiz')
    (hintime : attempt.pastExpiry now = false) (answers : List (ℤ × ℤ)) :
    GradesBySnapshot s' t now a attempt quiz' answers ↔
      ¬ AnswersExactly attempt answers ∨ RowsLeft t attempt answers := by
  obtain ⟨created, hcreated⟩ := created_of_start hstart
  obtain rfl := Option.some.inj (hattempt.symm.trans hcreated.row)
  obtain ⟨hsnapshot, horder⟩ := Prod.mk.inj hcreated.snapshots
  refine gradesBySnapshot_iff ⟨hrow, hcreated.status, hintime, ?_⟩ ⟨?_, ?_⟩ hdeleted
  · rw [hcreated.ofQuiz]
    exact hquiz
  · intro question hquestion
    rw [hsnapshot] at hquestion
    rw [hcreated.questions]
    exact question_of_snapshot hquestion
  · intro question option hoption
    rw [horder] at hoption
    rw [hcreated.options]
    exact option_of_snapshot hoption

end whole

/-- The store after a learner has started the quiz of one question. -/
def startedQuiz : QuizStore :=
  ((sampleQuizStart 1).store.startQuizAttempt 0 0 7 (sampleQuiz 1) []).1

/-- Its attempt. -/
def startedAttempt : QuizAttempt :=
  ⟨0, 7, 0, 1, .inProgress, 0, none, some 1800000, 0, 0, 0, false, [0], [(0, [0, 1])]⟩

/-- The store after an admin has deleted an option. -/
def withoutOption (k : ℕ) : QuizStore :=
  { startedQuiz with
    options := startedQuiz.options.modify k fun option => { option with isActive := false } }

theorem softDeletes_withoutOption (k : ℕ) : SoftDeletes startedQuiz (withoutOption k) where
  questions := evolves_refl (R := QuestionKept) (fun _ => Or.inl rfl) _
  options := evolves_modify (R := OptionKept) (fun _ => Or.inl rfl) fun _ _ => Or.inr rfl

/-- Without the wrong option the right answer passes. -/
theorem grading_follows_snapshot_right :
    GradesBySnapshot startedQuiz (withoutOption 1) 60000 0 startedAttempt (sampleQuiz 1)
      [(0, 0)] := by
  have hstart : (sampleQuizStart 1).store.startQuizAttempt 0 0 7 (sampleQuiz 1) [] =
      (startedQuiz, .ok (0, true)) := rfl
  refine (grading_follows_snapshot_iff hstart (by decide +kernel) (softDeletes_withoutOption 1)
    (by decide +kernel) (by decide +kernel) (by decide) _).mpr (Or.inr ⟨?_, ?_⟩)
  · decide +kernel
  · decide +kernel

/-- The option chosen was deleted while the attempt was running. -/
theorem deleted_option_keyError :
    (withoutOption 0).submitQuizAttempt 60000 0 [(0, 0)] = .error .keyError ∧
      ¬ GradesBySnapshot startedQuiz (withoutOption 0) 60000 0 startedAttempt (sampleQuiz 1)
        [(0, 0)] := by
  have hraised : (withoutOption 0).submitQuizAttempt 60000 0 [(0, 0)] = .error .keyError := by
    decide +kernel
  exact ⟨hraised, not_gradesBySnapshot_of_keyError hraised⟩

end SetadJang.Lms
