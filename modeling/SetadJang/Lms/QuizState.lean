import SetadJang.Framework.Txn
import SetadJang.Lms.Quiz

/-!
# The quiz state shown and the quiz state enforced

`get_quiz_attempt_state` is meant as a mirror of `start_quiz_attempt`.  Both ask whether
the learner may take a new attempt; the start asks first whether there is one to resume,
and then asks nothing else.  The mirror lets a live attempt through its lessons gate only,
and reports it locked by the other three.
-/

namespace SetadJang.Lms

open SetadJang.Framework

/-! ## The rules, on the rows -/

/-- A failed attempt of less than `retake_delay_days` ago holds back the next one, unless an
unlock is valid or the next one is beyond `max_attempts`. -/
def Cooling (s : QuizStore) (now q user : ℕ) (quiz : Quiz) : Prop :=
  s.nextAttemptNumber q user ≤ quiz.maxAttempts ∧ s.validUnlocksCount now q user = 0 ∧
    ∃ row ∈ s.attemptsOf q user, row.1.status = .failed ∧
      row.1.submittedAt.any (fun at_ => now < at_ + quiz.retakeDelay) = true

/-- The learner has not passed, has an attempt left and is not in cooldown. -/
structure RetakeOpen (s : QuizStore) (now q user : ℕ) (quiz : Quiz) : Prop where
  notPassed : ∀ row ∈ s.attemptsOf q user, row.1.isPassed = false
  allowed : s.nextAttemptNumber q user ≤ quiz.maxAttempts + s.validUnlocksCount now q user
  notCooling : ¬ Cooling s now q user quiz

/-- Some attempt in progress has not expired. -/
def HasLive (s : QuizStore) (now q user : ℕ) : Prop :=
  ∃ row ∈ s.attemptsOf q user, row.1.status = .inProgress ∧ row.1.pastExpiry now = false

/-- The attempt in progress that was started last has not expired. -/
def Resumable (s : QuizStore) (now q user : ℕ) : Prop :=
  ∃ row, s.existingInProgress q user = some row ∧ row.1.pastExpiry now = false

/-- Every active lesson of the course is completed, or the enrollment is. -/
def LessonsDone (s : QuizStore) (user : ℕ) (quiz : Quiz) : Prop :=
  s.lms.quizLessonsRemaining quiz.course (s.enrollmentOf quiz.course user) = 0

/-! ## What every run keeps of the attempts -/

/-- A passed attempt is no longer in progress, a failed one has its date. -/
def AttemptOk (attempt : QuizAttempt) : Prop :=
  (attempt.isPassed = true → attempt.status ≠ .inProgress) ∧
    (attempt.status = .failed → attempt.submittedAt.isSome = true)

theorem grade_ok {now total awarded : ℕ} {quiz : Quiz} {attempt : QuizAttempt} :
    AttemptOk (QuizStore.grade now quiz total awarded attempt) := by
  constructor
  · intro hpassed
    show (if _ then QuizAttemptStatus.passed else .failed) ≠ .inProgress
    split <;> nofun
  · intro _
    rfl

/-- What an accepted submission writes to its attempt. -/
theorem submit_ok {s s' : QuizStore} {now a : ℕ} {answers : List (ℤ × ℤ)}
    (h : s.submitQuizAttempt now a answers = .ok s') :
    ∃ attempt quiz weights graded, s.attempts[a]? = some attempt ∧
      attempt.status = .inProgress ∧ attempt.pastExpiry now = false ∧
      s.quizzes[attempt.quiz]? = some quiz ∧
      attempt.questionSnapshot.mapM s.questionWeight = .ok weights ∧
      attempt.questionSnapshot.mapM (s.gradeQuestion a attempt answers) = .ok graded ∧
      s'.attempts = s.attempts.modify a (QuizStore.grade now quiz weights.sum
        (graded.map QuizAnswer.scoreAwarded).sum) := by
  unfold QuizStore.submitQuizAttempt at h
  split at h
  · cases h
  · rename_i attempt hattempt
    split at h
    · cases h
    · rename_i hstatus
      split at h
      · cases h
      · rename_i hexpiry
        split at h
        · cases h
        · split at h
          · cases h
          · rename_i quiz hquiz
            cases hweights : attempt.questionSnapshot.mapM s.questionWeight with
            | error error =>
                rw [hweights] at h
                cases h
            | ok weights =>
                cases hgraded : attempt.questionSnapshot.mapM
                    (s.gradeQuestion a attempt answers) with
                | error error =>
                    rw [hweights, hgraded] at h
                    cases h
                | ok graded =>
                    rw [hweights, hgraded] at h
                    cases h
                    exact ⟨attempt, quiz, weights, graded, hattempt, not_not.mp hstatus,
                      Bool.eq_false_of_not_eq_true hexpiry, hquiz, hweights, hgraded, rfl⟩

/-- **Step cases.** What a step does to the table of attempts. -/
theorem attempts_step (s : QuizSys) (act : QuizAct) :
    (s.step act).store.attempts = s.store.attempts ∨
      (∃ a, (s.step act).store.attempts =
        s.store.attempts.modify a fun attempt => { attempt with status := .expired }) ∨
      (∃ new : QuizAttempt, new.status = .inProgress ∧ new.isPassed = false ∧
        (s.step act).store.attempts = s.store.attempts ++ [new]) ∨
      ∃ a grade, (∀ attempt, AttemptOk (grade attempt)) ∧
        (s.step act).store.attempts = s.store.attempts.modify a grade := by
  cases act with
  | tick ms => exact Or.inl rfl
  | edit lms quizzes questions options unlocks => exact Or.inl rfl
  | start q user draws =>
      left
      unfold QuizSys.step
      dsimp only
      split
      · rfl
      · split <;> rfl
  | advance i =>
      unfold QuizSys.step
      dsimp only
      split
      · exact Or.inl rfl
      · rename_i call _
        dsimp only
        unfold StartCall.advance
        cases call.phase with
        | resume =>
            left
            dsimp only
            split
            · rfl
            · split <;> rfl
        | expire now a => exact Or.inr (Or.inl ⟨a, rfl⟩)
        | notPassed now => exact Or.inl rfl
        | lessons now => exact Or.inl rfl
        | number now => exact Or.inl rfl
        | allowed now number => exact Or.inl rfl
        | cooldown now number => exact Or.inl rfl
        | publishable now number => exact Or.inl rfl
        | create now number snapshots =>
            dsimp only
            unfold QuizStore.createAttempt
            split
            · exact Or.inl rfl
            · exact Or.inr (Or.inr (Or.inl ⟨_, rfl, rfl, rfl⟩))
        | returned result => exact Or.inl rfl
  | submit a answers =>
      unfold QuizSys.step
      dsimp only
      split
      · exact Or.inl rfl
      · rename_i store hstore
        obtain ⟨attempt, quiz, weights, graded, -, -, -, -, -, -, hattempts⟩ := submit_ok hstore
        exact Or.inr (Or.inr (Or.inr ⟨a, _, fun _ => grade_ok, hattempts⟩))

theorem attemptOk_expire {attempts : List QuizAttempt} (a : ℕ)
    (h : ∀ attempt ∈ attempts, AttemptOk attempt) :
    ∀ attempt ∈ attempts.modify a (fun attempt => { attempt with status := .expired }),
      AttemptOk attempt := by
  intro attempt hmem
  obtain ⟨k, hk⟩ := List.getElem?_of_mem hmem
  rcases getElem?_modify_cases hk with ⟨-, old, hold, rfl⟩ | ⟨-, hold⟩
  · exact ⟨fun _ => nofun, nofun⟩
  · exact h attempt (List.mem_of_getElem? hold)

/-- **Step lemma.** -/
theorem attemptOk_step {s : QuizSys} (act : QuizAct)
    (h : ∀ attempt ∈ s.store.attempts, AttemptOk attempt) :
    ∀ attempt ∈ (s.step act).store.attempts, AttemptOk attempt := by
  intro attempt hmem
  rcases attempts_step s act with hsame | ⟨a, hexpired⟩ | ⟨new, hstatus, hpassed, hcreated⟩ |
    ⟨a, grade, hgrade, hgraded⟩
  · rw [hsame] at hmem
    exact h attempt hmem
  · rw [hexpired] at hmem
    exact attemptOk_expire a h attempt hmem
  · rw [hcreated] at hmem
    rcases List.mem_append.mp hmem with hold | hnew
    · exact h attempt hold
    · rw [List.mem_singleton.mp hnew]
      constructor
      · rw [hpassed]
        nofun
      · rw [hstatus]
        nofun
  · rw [hgraded] at hmem
    obtain ⟨k, hk⟩ := List.getElem?_of_mem hmem
    rcases getElem?_modify_cases hk with ⟨-, old, -, rfl⟩ | ⟨-, hold⟩
    · exact hgrade old
    · exact h attempt (List.mem_of_getElem? hold)

/-- **Run lemma.** -/
theorem attemptOk_run (s : QuizSys) (hs : s.store.attempts = []) (acts : List QuizAct) :
    ∀ attempt ∈ (run QuizSys.step s acts).store.attempts, AttemptOk attempt :=
  invariant_run (I := fun s : QuizSys => ∀ attempt ∈ s.store.attempts, AttemptOk attempt)
    (fun _ act h => attemptOk_step act h) (by simp [hs]) acts

/-! ## The queries, by their rows -/

section Queries

variable {s : QuizStore} {now q user : ℕ} {quiz : Quiz}

theorem mem_attemptsOf {attempt : QuizAttempt} {k : ℕ} :
    (attempt, k) ∈ s.attemptsOf q user ↔
      s.attempts[k]? = some attempt ∧ attempt.quiz = q ∧ attempt.user = user := by
  unfold QuizStore.attemptsOf
  rw [List.mem_filter, List.mk_mem_zipIdx_iff_getElem?]
  simp only [Bool.and_eq_true, beq_iff_eq]

/-- The next number is above the numbers there are, and no higher. -/
theorem next_le_iff {n : ℕ} :
    s.nextAttemptNumber q user ≤ n ↔
      1 ≤ n ∧ ∀ row ∈ s.attemptsOf q user, row.1.attemptNumber < n := by
  unfold QuizStore.nextAttemptNumber
  cases hlatest : (s.attemptsOf q user).argmax fun row => row.1.attemptNumber with
  | none =>
      rw [List.argmax_eq_none.mp hlatest]
      simp
  | some latest =>
      constructor
      · intro hle
        have hlt : latest.1.attemptNumber < n := hle
        refine ⟨Nat.one_le_of_lt hlt, ?_⟩
        intro row hrow
        have hle := List.le_of_mem_argmax
          (f := fun row : QuizAttempt × ℕ => row.1.attemptNumber) hrow hlatest
        exact lt_of_le_of_lt hle hlt
      · rintro ⟨-, hall⟩
        exact hall latest (List.argmax_mem hlatest)

theorem numberTaken_next : s.numberTaken q user (s.nextAttemptNumber q user) = false := by
  unfold QuizStore.numberTaken
  rw [List.any_eq_false]
  intro row hrow
  have hlt := (next_le_iff.mp le_rfl).2 row hrow
  simp only [beq_iff_eq]
  omega

/-- The cooldown is that of the failed attempt submitted last. -/
theorem cooling_iff_lastFailed (hok : ∀ attempt ∈ s.attempts, AttemptOk attempt) :
    Cooling s now q user quiz ↔
      s.nextAttemptNumber q user ≤ quiz.maxAttempts ∧ s.validUnlocksCount now q user = 0 ∧
        ∃ row at_, s.lastFailed q user = some row ∧ row.1.submittedAt = some at_ ∧
          now < at_ + quiz.retakeDelay := by
  unfold Cooling
  refine and_congr_right fun _ => and_congr_right fun _ => ?_
  constructor
  · rintro ⟨row, hrow, hfailed, hrecent⟩
    obtain ⟨at_, hat, hrecent⟩ := (Option.any_eq_true _ _).mp hrecent
    rw [decide_eq_true_eq] at hrecent
    have hmem : row ∈ (s.attemptsOf q user).filter fun row => row.1.status == .failed :=
      List.mem_filter.mpr ⟨hrow, by simp [hfailed]⟩
    cases hlast : s.lastFailed q user with
    | none =>
        rw [List.argmax_eq_none.mp hlast] at hmem
        cases hmem
    | some last =>
        have hlastFailed := List.mem_filter.mp (List.argmax_mem hlast)
        have hlastOk := hok last.1 (List.mem_of_getElem? (mem_attemptsOf.mp hlastFailed.1).1)
        obtain ⟨last_, hlast_⟩ := Option.isSome_iff_exists.mp
          (hlastOk.2 (by simpa using hlastFailed.2))
        have hle := List.not_lt_of_mem_argmax
          (f := fun row : QuizAttempt × ℕ => row.1.submittedKey) hmem hlast
        simp only [QuizAttempt.submittedKey, hat, hlast_, Option.elim_some, WithTop.coe_lt_coe]
          at hle
        exact ⟨last, last_, rfl, hlast_, by omega⟩
  · rintro ⟨row, at_, hlast, hat, hrecent⟩
    have hfailed := List.mem_filter.mp (List.argmax_mem hlast)
    -- No `simp` here: the kernel would unfold the delay in milliseconds.
    have hany := (Option.any_eq_true (fun at_ => decide (now < at_ + quiz.retakeDelay)) _).mpr
      ⟨at_, hat, decide_eq_true hrecent⟩
    exact ⟨row, hfailed.1, by simpa using hfailed.2, hany⟩

theorem hasLive_iff_liveAttempt : HasLive s now q user ↔ (s.liveAttempt now q user).isSome = true := by
  constructor
  · rintro ⟨row, hrow, hstatus, hlive⟩
    rw [Option.isSome_iff_ne_none]
    intro hnone
    have hempty := List.argmax_eq_none.mp hnone
    have hmem : row ∈ (s.attemptsOf q user).filter fun row =>
        row.1.status == .inProgress && !row.1.pastExpiry now :=
      List.mem_filter.mpr ⟨hrow, by simp [hstatus, hlive]⟩
    rw [hempty] at hmem
    cases hmem
  · intro hsome
    obtain ⟨row, hrow⟩ := Option.isSome_iff_exists.mp hsome
    have hmem := List.mem_filter.mp (List.argmax_mem hrow)
    simp only [Bool.and_eq_true, beq_iff_eq, Bool.not_eq_true'] at hmem
    exact ⟨row, hmem⟩

theorem hasLive_of_resumable (h : Resumable s now q user) : HasLive s now q user := by
  obtain ⟨row, hrow, hlive⟩ := h
  have hmem := List.mem_filter.mp (List.argmax_mem hrow)
  exact ⟨row, hmem.1, by simpa using hmem.2, hlive⟩

end Queries

/-! ## The mirror -/

section Shown

variable {s : QuizStore} {now q user : ℕ} {quiz : Quiz}

theorem cooldownUntil_none_iff (hok : ∀ attempt ∈ s.attempts, AttemptOk attempt) :
    s.cooldownUntil now q user quiz = none ↔ ¬ Cooling s now q user quiz := by
  rw [cooling_iff_lastFailed hok]
  unfold QuizStore.cooldownUntil
  cases hlast : s.lastFailed q user with
  | none => simp
  | some row =>
      obtain ⟨attempt, k⟩ := row
      dsimp only
      cases hat : attempt.submittedAt with
      | none => simp [hat]
      | some at_ =>
          dsimp only
          split
          · rename_i hcooling
            simp only [reduceCtorEq, false_iff, not_not]
            exact ⟨hcooling.1, hcooling.2.1, _, at_, rfl, hat, hcooling.2.2⟩
          · rename_i hcooling
            simp only [true_iff]
            rintro ⟨hnumber, hunlocks, row, last_, hrow, hlast_, hrecent⟩
            cases hrow
            rw [hat] at hlast_
            cases hlast_
            exact hcooling ⟨hnumber, hunlocks, hrecent⟩

/-- **What locks the mirror**: the three rules, and the lessons gate without a live
attempt. -/
theorem lockOf_none_iff (hok : ∀ attempt ∈ s.attempts, AttemptOk attempt) :
    (s.lockOf now q user quiz).2 = none ↔
      RetakeOpen s now q user quiz ∧ (HasLive s now q user ∨ LessonsDone s user quiz) := by
  unfold QuizStore.lockOf
  dsimp only
  split
  · rename_i hpassed
    obtain ⟨row, hrow, hpassed⟩ := List.any_eq_true.mp hpassed
    simp only [reduceCtorEq, false_iff]
    rintro ⟨hopen, -⟩
    rw [hopen.notPassed row hrow] at hpassed
    cases hpassed
  · rename_i hpassed
    split
    · rename_i hgate
      -- the lessons gate, the only one that a live attempt passes
      simp only [Bool.and_eq_true, Option.isNone_iff_eq_none, bne_iff_ne, ne_eq] at hgate
      simp only [reduceCtorEq, false_iff]
      rintro ⟨-, hlive | hdone⟩
      · rw [hasLive_iff_liveAttempt, hgate.1] at hlive
        cases hlive
      · exact hgate.2 hdone
    · rename_i hgate
      split
      · rename_i hallowed
        simp only [reduceCtorEq, false_iff]
        rintro ⟨hopen, -⟩
        exact absurd hopen.allowed (Nat.not_le.mpr hallowed)
      · rename_i hallowed
        have hlessons : HasLive s now q user ∨ LessonsDone s user quiz := by
          rw [hasLive_iff_liveAttempt]
          by_contra hneither
          apply hgate
          simp only [not_or, Bool.not_eq_true, Option.isSome_eq_false_iff] at hneither
          simp only [Bool.and_eq_true, bne_iff_ne, ne_eq]
          exact hneither
        have hnotPassed : ∀ row ∈ s.attemptsOf q user, row.1.isPassed = false := by
          intro row hrow
          exact Bool.eq_false_of_not_eq_true fun h => hpassed (List.any_eq_true.mpr ⟨row, hrow, h⟩)
        cases hcooldown : s.cooldownUntil now q user quiz with
        | none =>
            simp only [true_iff]
            exact ⟨⟨hnotPassed, Nat.not_lt.mp hallowed, (cooldownUntil_none_iff hok).mp hcooldown⟩,
              hlessons⟩
        | some retryAt =>
            simp only [reduceCtorEq, false_iff]
            rintro ⟨hopen, -⟩
            rw [(cooldownUntil_none_iff hok).mpr hopen.notCooling] at hcooldown
            cases hcooldown

/-- **The state shown.** -/
theorem canAttempt_iff (hok : ∀ attempt ∈ s.attempts, AttemptOk attempt) :
    (s.getQuizAttemptState now q user quiz).canAttempt = true ↔
      (s.enrollmentOf quiz.course user).isSome = true ∧ RetakeOpen s now q user quiz ∧
        (HasLive s now q user ∨ LessonsDone s user quiz) := by
  have hnext : 1 ≤ s.nextAttemptNumber q user := (next_le_iff.mp le_rfl).1
  unfold QuizStore.getQuizAttemptState
  simp only [Bool.and_eq_true, Bool.or_eq_true, decide_eq_true_eq, Option.isNone_iff_eq_none,
    lockOf_none_iff hok]
  constructor
  · rintro ⟨⟨henrolled, hlock⟩, -⟩
    exact ⟨henrolled, hlock⟩
  · rintro ⟨henrolled, hopen, hlessons⟩
    refine ⟨⟨henrolled, hopen, hlessons⟩, Or.inr ?_⟩
    -- An attempt that is allowed is one that is left.
    have hallowed := hopen.allowed
    omega

end Shown

/-! ## The start -/

section Started

variable {s : QuizStore} {now q user : ℕ} {quiz : Quiz}

/-- A check that only raises. -/
theorem ite_error_ok_iff {ε : Type} {p : Prop} [Decidable p] {error : ε} :
    (if p then Except.error error else .ok ()) = .ok () ↔ ¬ p := by
  split
  · rename_i hp
    simp [hp]
  · rename_i hp
    simp [hp]

theorem checkNotPassed_ok_iff (hok : ∀ attempt ∈ s.attempts, AttemptOk attempt) :
    s.checkNotPassed q user = .ok () ↔ ∀ row ∈ s.attemptsOf q user, row.1.isPassed = false := by
  unfold QuizStore.checkNotPassed
  rw [ite_error_ok_iff, List.any_eq_true, not_exists]
  refine forall_congr' fun row => ?_
  rw [not_and]
  refine imp_congr_right fun hrow => ?_
  have hrowOk := (hok row.1 (List.mem_of_getElem? (mem_attemptsOf.mp hrow).1)).1
  simp only [Bool.and_eq_true, bne_iff_ne, ne_eq, not_and, Bool.not_eq_true]
  constructor
  · intro h
    by_contra hpassed
    rw [Bool.not_eq_false] at hpassed
    rw [h (hrowOk hpassed)] at hpassed
    cases hpassed
  · exact fun h _ => h

theorem checkLessons_ok_iff {enrollment : ℕ × Enrollment}
    (henrollment : s.enrollmentOf quiz.course user = some enrollment) :
    s.checkLessons quiz enrollment = .ok () ↔ LessonsDone s user quiz := by
  unfold QuizStore.checkLessons LessonsDone
  rw [henrollment]
  dsimp only
  rw [ite_error_ok_iff, not_not]

theorem checkAllowed_ok_iff {number : ℕ} :
    s.checkAllowed now q user quiz number = .ok () ↔
      number ≤ quiz.maxAttempts + s.validUnlocksCount now q user := by
  unfold QuizStore.checkAllowed
  rw [ite_error_ok_iff, Nat.not_lt]

theorem checkCooldown_ok_iff (hok : ∀ attempt ∈ s.attempts, AttemptOk attempt) :
    s.checkCooldown now now q user quiz (s.nextAttemptNumber q user) = .ok () ↔
      ¬ Cooling s now q user quiz := by
  rw [cooling_iff_lastFailed hok]
  unfold QuizStore.checkCooldown
  cases hlast : s.lastFailed q user with
  | none => simp
  | some row =>
      obtain ⟨attempt, k⟩ := row
      have hfailed := List.mem_filter.mp (List.argmax_mem hlast)
      obtain ⟨at_, hat⟩ := Option.isSome_iff_exists.mp
        ((hok attempt (List.mem_of_getElem? (mem_attemptsOf.mp hfailed.1).1)).2
          (by simpa using hfailed.2))
      dsimp only
      split
      · rename_i hnumber
        simp only [true_iff]
        rintro ⟨hle, -⟩
        exact absurd hle (Nat.not_le.mpr hnumber)
      · rename_i hnumber
        rw [hat]
        dsimp only
        rw [ite_error_ok_iff]
        apply not_congr
        constructor
        · rintro ⟨hunlocks, hrecent⟩
          exact ⟨Nat.not_lt.mp hnumber, hunlocks, _, at_, rfl, hat, hrecent⟩
        · rintro ⟨-, hunlocks, row, last_, hrow, hlast_, hrecent⟩
          cases hrow
          rw [hat] at hlast_
          cases hlast_
          exact ⟨hunlocks, hrecent⟩

/-- **The checks of the start**: the three rules and the lessons gate. -/
theorem checkNewAttempt_ok_iff (hok : ∀ attempt ∈ s.attempts, AttemptOk attempt)
    (hpublishable : s.validateQuizPublishable q = .ok ()) {enrollment : ℕ × Enrollment}
    (henrollment : s.enrollmentOf quiz.course user = some enrollment) {number : ℕ} :
    s.checkNewAttempt now q user quiz enrollment = .ok number ↔
      (RetakeOpen s now q user quiz ∧ LessonsDone s user quiz) ∧
        number = s.nextAttemptNumber q user := by
  unfold QuizStore.checkNewAttempt
  simp only [except_bind_ok_iff]
  constructor
  · rintro ⟨⟨⟩, hpassed, ⟨⟩, hlessons, ⟨⟩, hallowed, ⟨⟩, hcooldown, ⟨⟩, -, hnumber⟩
    cases hnumber
    exact ⟨⟨⟨(checkNotPassed_ok_iff hok).mp hpassed, checkAllowed_ok_iff.mp hallowed,
      (checkCooldown_ok_iff hok).mp hcooldown⟩, (checkLessons_ok_iff henrollment).mp hlessons⟩, rfl⟩
  · rintro ⟨⟨hopen, hlessons⟩, rfl⟩
    exact ⟨(), (checkNotPassed_ok_iff hok).mpr hopen.notPassed,
      (), (checkLessons_ok_iff henrollment).mpr hlessons,
      (), checkAllowed_ok_iff.mpr hopen.allowed,
      (), (checkCooldown_ok_iff hok).mpr hopen.notCooling, (), hpublishable, rfl⟩

/-- A new attempt is created whenever the checks pass: its number is free. -/
theorem startNewAttempt_ok_iff (hok : ∀ attempt ∈ s.attempts, AttemptOk attempt)
    (hpublishable : s.validateQuizPublishable q = .ok ()) {enrollment : ℕ × Enrollment}
    (henrollment : s.enrollmentOf quiz.course user = some enrollment) (draws : List (List ℕ)) :
    (∃ result, (s.startNewAttempt now q user quiz enrollment draws).2 = .ok result) ↔
      RetakeOpen s now q user quiz ∧ LessonsDone s user quiz := by
  unfold QuizStore.startNewAttempt
  cases hcheck : s.checkNewAttempt now q user quiz enrollment with
  | error error =>
      simp only [reduceCtorEq, exists_false, false_iff]
      intro hopen
      rw [(checkNewAttempt_ok_iff hok hpublishable henrollment).mpr ⟨hopen, rfl⟩] at hcheck
      cases hcheck
  | ok number =>
      obtain ⟨hopen, rfl⟩ := (checkNewAttempt_ok_iff hok hpublishable henrollment).mp hcheck
      simp only [hopen, and_self, iff_true]
      unfold QuizStore.createAttempt
      rw [numberTaken_next]
      exact ⟨_, rfl⟩

/-- The rows after the expiry of attempt `a`. -/
theorem mem_attemptsOf_expire {a : ℕ} {attempt : QuizAttempt} {k : ℕ} :
    (attempt, k) ∈ (s.expireAttempt a).attemptsOf q user ↔
      ∃ old, (old, k) ∈ s.attemptsOf q user ∧
        attempt = if a = k then { old with status := .expired } else old := by
  rw [mem_attemptsOf]
  simp only [mem_attemptsOf]
  constructor
  · rintro ⟨hrow, hquiz, huser⟩
    rcases getElem?_modify_cases hrow with ⟨rfl, old, hold, rfl⟩ | ⟨hne, hold⟩
    · exact ⟨old, ⟨hold, hquiz, huser⟩, by simp⟩
    · exact ⟨attempt, ⟨hold, hquiz, huser⟩, by simp [hne]⟩
  · rintro ⟨old, ⟨hold, hquiz, huser⟩, rfl⟩
    have hrow : (s.expireAttempt a).attempts[k]? =
        some (if a = k then { old with status := .expired } else old) := by
      show (s.attempts.modify a _)[k]? = _
      rw [List.getElem?_modify, hold]
      rfl
    refine ⟨hrow, ?_, ?_⟩
    · split <;> exact hquiz
    · split <;> exact huser

/-- What holds of a row after the expiry of an attempt in progress, if it does not look at
the status of such an attempt. -/
theorem exists_row_expire (q user : ℕ) {a : ℕ} {attempt : QuizAttempt} {P : QuizAttempt → Prop}
    (hattempt : s.attempts[a]? = some attempt)
    (hP : P { attempt with status := .expired } ↔ P attempt) :
    (∃ row ∈ (s.expireAttempt a).attemptsOf q user, P row.1) ↔
      ∃ row ∈ s.attemptsOf q user, P row.1 := by
  have hold : ∀ {old : QuizAttempt} {k : ℕ}, (old, k) ∈ s.attemptsOf q user →
      (P (if a = k then { old with status := .expired } else old) ↔ P old) := by
    intro old k hmem
    split
    · rename_i hk
      subst hk
      have hsame := (mem_attemptsOf.mp hmem).1
      rw [hattempt] at hsame
      cases hsame
      exact hP
    · exact Iff.rfl
  constructor
  · rintro ⟨⟨new, k⟩, hmem, hnew⟩
    obtain ⟨old, hmem', rfl⟩ := mem_attemptsOf_expire.mp hmem
    exact ⟨(old, k), hmem', (hold hmem').mp hnew⟩
  · rintro ⟨⟨old, k⟩, hmem, hP'⟩
    exact ⟨(_, k), mem_attemptsOf_expire.mpr ⟨old, hmem, rfl⟩, (hold hmem).mpr hP'⟩

/-- The expiry of an attempt in progress changes none of the three rules. -/
theorem retakeOpen_expire {a : ℕ} {attempt : QuizAttempt}
    (hattempt : s.attempts[a]? = some attempt) (hstatus : attempt.status = .inProgress) :
    RetakeOpen (s.expireAttempt a) now q user quiz ↔ RetakeOpen s now q user quiz := by
  have hpassed : (∀ row ∈ (s.expireAttempt a).attemptsOf q user, row.1.isPassed = false) ↔
      ∀ row ∈ s.attemptsOf q user, row.1.isPassed = false := by
    have hrows := exists_row_expire q user (P := fun old => old.isPassed = true) hattempt Iff.rfl
    simpa using not_congr hrows
  have hnext : (s.expireAttempt a).nextAttemptNumber q user = s.nextAttemptNumber q user := by
    refine eq_of_forall_ge_iff fun n => ?_
    have hrows := exists_row_expire q user (P := fun old => n ≤ old.attemptNumber) hattempt Iff.rfl
    rw [next_le_iff, next_le_iff]
    refine and_congr_right fun _ => ?_
    simpa using not_congr hrows
  have hcooling : Cooling (s.expireAttempt a) now q user quiz ↔ Cooling s now q user quiz := by
    unfold Cooling
    rw [hnext]
    refine and_congr_right fun _ => and_congr_right fun _ => exists_row_expire q user
      (P := fun old => old.status = .failed ∧
        old.submittedAt.any (fun at_ => now < at_ + quiz.retakeDelay) = true) hattempt ?_
    simp [hstatus]
  constructor
  · intro hopen
    exact ⟨hpassed.mp hopen.notPassed, hnext ▸ hopen.allowed, fun h =>
      hopen.notCooling (hcooling.mpr h)⟩
  · intro hopen
    exact ⟨hpassed.mpr hopen.notPassed, hnext.symm ▸ hopen.allowed, fun h =>
      hopen.notCooling (hcooling.mp h)⟩

/-- **The state enforced.** -/
theorem start_ok_iff (hok : ∀ attempt ∈ s.attempts, AttemptOk attempt)
    (hstatus : quiz.status = .published) (hactive : quiz.isActive = true)
    (hpublishable : s.validateQuizPublishable q = .ok ())
    (henrolled : (s.enrollmentOf quiz.course user).isSome = true) (draws : List (List ℕ)) :
    (∃ result, (s.startQuizAttempt now q user quiz draws).2 = .ok result) ↔
      Resumable s now q user ∨ (RetakeOpen s now q user quiz ∧ LessonsDone s user quiz) := by
  obtain ⟨enrollment, henrollment⟩ := Option.isSome_iff_exists.mp henrolled
  have hentered : s.checkEnrolled quiz user = .ok enrollment := by
    unfold QuizStore.checkEnrolled
    rw [henrollment]
    simp [hstatus, hactive]
  unfold QuizStore.startQuizAttempt
  rw [hentered]
  dsimp only
  cases hexisting : s.existingInProgress q user with
  | none =>
      have hnot : ¬ Resumable s now q user := by
        rintro ⟨row, hrow, -⟩
        rw [hexisting] at hrow
        cases hrow
      dsimp only
      rw [startNewAttempt_ok_iff hok hpublishable henrollment]
      simp only [hnot, false_or]
  | some row =>
      obtain ⟨attempt, a⟩ := row
      dsimp only
      split
      · rename_i hpast
        have hnot : ¬ Resumable s now q user := by
          rintro ⟨row, hrow, hlive⟩
          rw [hexisting] at hrow
          cases hrow
          rw [hpast] at hlive
          cases hlive
        have hmem := List.mem_filter.mp (List.argmax_mem hexisting)
        have hinProgress : attempt.status = .inProgress := by simpa using hmem.2
        have hrow := (mem_attemptsOf.mp hmem.1).1
        -- The lessons, the questions and the enrollment are not touched by the expiry.
        rw [startNewAttempt_ok_iff (s := s.expireAttempt a) (attemptOk_expire a hok) hpublishable
          henrollment,
          retakeOpen_expire hrow hinProgress]
        simp only [hnot, false_or]
        rfl
      · rename_i hlive
        -- the attempt is handed back before any lock is looked at
        have hresumable : Resumable s now q user :=
          ⟨(attempt, a), hexisting, Bool.eq_false_of_not_eq_true hlive⟩
        simp only [hresumable, true_or, iff_true]
        exact ⟨_, rfl⟩

end Started

/-! ## A call that is not interrupted -/

/-- The steps of a call with nothing in between. -/
def StartCall.alone (clock : ℕ) : ℕ → QuizStore × StartCall → QuizStore × StartCall
  | 0, state => state
  | n + 1, state => StartCall.alone clock n (state.2.advance state.1 clock)

/-- Alone and at one instant, the call comes to return `result` and to leave the store `t`. -/
def Finishes (clock : ℕ) (s : QuizStore) (call : StartCall) (t : QuizStore)
    (result : Except QuizError (ℕ × Bool)) : Prop :=
  ∃ n, StartCall.alone clock n (s, call) = (t, { call with phase := .returned result })

section Alone

variable {clock : ℕ} {s s' t : QuizStore} {call : StartCall}
  {result : Except QuizError (ℕ × Bool)}

theorem finishes_returned (h : call.phase = .returned result) : Finishes clock s call s result :=
  ⟨0, by rw [← h]; rfl⟩

theorem finishes_step (phase : StartPhase)
    (hadvance : call.advance s clock = (s', { call with phase := phase }))
    (h : Finishes clock s' { call with phase := phase } t result) :
    Finishes clock s call t result := by
  obtain ⟨n, hn⟩ := h
  refine ⟨n + 1, ?_⟩
  show StartCall.alone clock n (call.advance s clock) = _
  rw [hadvance]
  exact hn

/-- A check raises, or lets the call go on. -/
theorem finishes_check {α : Type} {check : Except QuizError Unit} {rest : Except QuizError α}
    (finish : Except QuizError α → QuizStore × Except QuizError (ℕ × Bool)) (phase : StartPhase)
    (hadvance : call.advance s clock = (s, call.after check phase))
    (herror : ∀ error, finish (.error error) = (s, .error error))
    (h : Finishes clock s { call with phase := phase } (finish rest).1 (finish rest).2) :
    Finishes clock s call (finish (check >>= fun _ => rest)).1
      (finish (check >>= fun _ => rest)).2 := by
  cases check with
  | error error =>
      show Finishes clock s call (finish (.error error)).1 (finish (.error error)).2
      rw [herror]
      exact finishes_step _ hadvance (finishes_returned rfl)
  | ok _ => exact finishes_step phase hadvance h

/-- What becomes of the outcome of the checks. -/
def finishNew (s : QuizStore) (clock q user : ℕ) (quiz : Quiz) (enrollment : ℕ × Enrollment)
    (draws : List (List ℕ)) : Except QuizError ℕ → QuizStore × Except QuizError (ℕ × Bool)
  | .error error => (s, .error error)
  | .ok number => s.createAttempt clock q user quiz enrollment.1 number
      (s.buildAttemptSnapshots q quiz draws)

theorem startNewAttempt_eq (s : QuizStore) (clock q user : ℕ) (quiz : Quiz)
    (enrollment : ℕ × Enrollment) (draws : List (List ℕ)) :
    s.startNewAttempt clock q user quiz enrollment draws =
      finishNew s clock q user quiz enrollment draws
        (s.checkNewAttempt clock q user quiz enrollment) := by
  unfold QuizStore.startNewAttempt
  cases s.checkNewAttempt clock q user quiz enrollment <;> rfl

/-- The checks and the insert. -/
theorem finishes_new (hphase : call.phase = .notPassed clock) :
    Finishes clock s call
      (s.startNewAttempt clock call.q call.user call.quiz call.enrollment call.draws).1
      (s.startNewAttempt clock call.q call.user call.quiz call.enrollment call.draws).2 := by
  obtain ⟨q, user, quiz, enrollment, draws, phase⟩ := call
  cases hphase
  let finish := finishNew s clock q user quiz enrollment draws
  rw [startNewAttempt_eq]
  unfold QuizStore.checkNewAttempt
  refine finishes_check finish (.lessons clock) rfl (fun _ => rfl) ?_
  refine finishes_check finish (.number clock) rfl (fun _ => rfl) ?_
  refine finishes_step (.allowed clock (s.nextAttemptNumber q user)) rfl ?_
  refine finishes_check finish (.cooldown clock _) rfl (fun _ => rfl) ?_
  refine finishes_check finish (.publishable clock _) rfl (fun _ => rfl) ?_
  refine finishes_check finish (.create clock _ (s.buildAttemptSnapshots q quiz draws)) rfl
    (fun _ => rfl) ?_
  exact finishes_step (.returned _) rfl (finishes_returned rfl)

theorem call_alone (clock : ℕ) (s : QuizStore) (call : StartCall) (hphase : call.phase = .resume)
    (hentered : s.checkEnrolled call.quiz call.user = .ok call.enrollment) :
    Finishes clock s call
      (s.startQuizAttempt clock call.q call.user call.quiz call.draws).1
      (s.startQuizAttempt clock call.q call.user call.quiz call.draws).2 := by
  obtain ⟨q, user, quiz, enrollment, draws, phase⟩ := call
  cases hphase
  unfold QuizStore.startQuizAttempt
  rw [hentered]
  dsimp only
  cases hexisting : s.existingInProgress q user with
  | none =>
      refine finishes_step (.notPassed clock) ?_ (finishes_new rfl)
      simp [StartCall.advance, hexisting]
  | some row =>
      obtain ⟨attempt, a⟩ := row
      dsimp only
      split
      · rename_i hpast
        refine finishes_step (.expire clock a) (?_ : _ = (s, _)) ?_
        · simp [StartCall.advance, hexisting, hpast]
        · exact finishes_step (.notPassed clock) rfl (finishes_new rfl)
      · rename_i hlive
        refine finishes_step (.returned (.ok (a, false))) ?_ (finishes_returned rfl)
        simp [StartCall.advance, hexisting, hlive]

theorem run_alone (i n : ℕ) {s : QuizSys} {call : StartCall} (hcall : s.calls[i]? = some call) :
    run QuizSys.step s (List.replicate n (.advance i)) =
      { s with
        store := (StartCall.alone s.clock n (s.store, call)).1
        calls := s.calls.set i (StartCall.alone s.clock n (s.store, call)).2 } := by
  induction n generalizing s call with
  | zero =>
      obtain ⟨hi, rfl⟩ := List.getElem?_eq_some_iff.mp hcall
      simp [StartCall.alone]
  | succ n ih =>
      have hi := (List.getElem?_eq_some_iff.mp hcall).1
      have hstep : s.step (.advance i) =
          { s with
            store := (call.advance s.store s.clock).1
            calls := s.calls.set i (call.advance s.store s.clock).2 } := by
        unfold QuizSys.step
        simp only [hcall]
      rw [List.replicate_succ, run_cons, hstep, ih (List.getElem?_set_self hi)]
      simp [StartCall.alone]

/-- **A call alone is the function.**  Started and run to its end with nothing in between, a
call leaves the store and returns the result of `start_quiz_attempt` at that instant. -/
theorem start_alone (s : QuizSys) (q user : ℕ) (draws : List (List ℕ)) (quiz : Quiz)
    (hquiz : s.store.quizzes[q]? = some quiz) (enrollment : ℕ × Enrollment)
    (hentered : s.store.checkEnrolled quiz user = .ok enrollment) :
    ∃ n, run QuizSys.step s (.start q user draws :: List.replicate n (.advance s.calls.length)) =
      { s with
        store := (s.store.startQuizAttempt s.clock q user quiz draws).1
        calls := s.calls ++ [⟨q, user, quiz, enrollment, draws,
          .returned (s.store.startQuizAttempt s.clock q user quiz draws).2⟩] } := by
  have hstart : s.step (.start q user draws) =
      { s with calls := s.calls ++ [⟨q, user, quiz, enrollment, draws, .resume⟩] } := by
    unfold QuizSys.step
    simp only [hquiz, hentered]
  have hcall : (s.calls ++ [⟨q, user, quiz, enrollment, draws, .resume⟩])[s.calls.length]? =
      some ⟨q, user, quiz, enrollment, draws, .resume⟩ := by simp
  obtain ⟨n, hn⟩ := call_alone s.clock s.store ⟨q, user, quiz, enrollment, draws, .resume⟩ rfl
    hentered
  refine ⟨n, ?_⟩
  rw [run_cons, hstart, run_alone s.calls.length n hcall, hn]
  simp

end Alone

/-! ## The mirror and the start -/

/-- **The quiz state shown is the quiz state enforced** in every state of every run, exactly
when: the attempt in progress started last, if it has not expired, finds the three rules
open; and if it has expired while an older one has not, a learner for whom the three rules
are open has done the lessons. -/
theorem quiz_state_enforced_iff (lms : LmsStore) (quizzes : List Quiz)
    (questions : List QuizQuestion) (options : List QuizOption) (unlocks : List QuizUnlock)
    (clock : ℕ) (acts : List QuizAct) (q user : ℕ) (quiz : Quiz) (draws : List (List ℕ))
    (s : QuizSys)
    (hs : s = run QuizSys.step (QuizSys.start lms quizzes questions options unlocks clock) acts)
    (hstatus : quiz.status = .published) (hactive : quiz.isActive = true)
    (hpublishable : s.store.validateQuizPublishable q = .ok ())
    (henrolled : (s.store.enrollmentOf quiz.course user).isSome = true) :
    ((s.store.getQuizAttemptState s.clock q user quiz).canAttempt = true ↔
        ∃ result, (s.store.startQuizAttempt s.clock q user quiz draws).2 = .ok result) ↔
      (Resumable s.store s.clock q user → RetakeOpen s.store s.clock q user quiz) ∧
      (¬ Resumable s.store s.clock q user → HasLive s.store s.clock q user →
        RetakeOpen s.store s.clock q user quiz → LessonsDone s.store user quiz) := by
  have hok : ∀ attempt ∈ s.store.attempts, AttemptOk attempt := by
    rw [hs]
    exact attemptOk_run _ rfl acts
  have hlive : Resumable s.store s.clock q user → HasLive s.store s.clock q user :=
    hasLive_of_resumable
  rw [canAttempt_iff hok, start_ok_iff hok hstatus hactive hpublishable henrolled]
  simp only [henrolled, true_and]
  by_cases hresumable : Resumable s.store s.clock q user
  · have hlive := hlive hresumable
    simp only [hresumable, hlive]
    tauto
  · simp only [hresumable]
    tauto

/-- A course without lessons, its learner, and a quiz of one question. -/
def sampleQuiz (maxAttempts : ℕ) : Quiz :=
  ⟨0, .published, true, 30, 1200, maxAttempts, 14, false, false⟩

def sampleQuizStart (maxAttempts : ℕ) : QuizSys :=
  QuizSys.start
    ⟨[⟨.published, true, 0, 0, 0, 0⟩], [], [⟨0, 7, .active, true, none, none, 0, 0, 0⟩], [], []⟩
    [sampleQuiz maxAttempts] [⟨0, 1, 100, true⟩] [⟨0, 1, true, true⟩, ⟨0, 2, false, true⟩] [] 0

/-- The learner starts an attempt. -/
def oneAttempt : List QuizAct := .start 0 7 [] :: List.replicate 8 (.advance 0)

/-- With a second attempt left, the one in progress is shown open and is resumed. -/
theorem quiz_state_enforced_two :
    ((run QuizSys.step (sampleQuizStart 2) oneAttempt).store.getQuizAttemptState 0 0 7
        (sampleQuiz 2)).canAttempt = true ↔
      ∃ result, ((run QuizSys.step (sampleQuizStart 2) oneAttempt).store.startQuizAttempt 0 0 7
        (sampleQuiz 2) []).2 = .ok result :=
  (quiz_state_enforced_iff _ _ _ _ _ 0 oneAttempt 0 7 (sampleQuiz 2) []
    (run QuizSys.step (sampleQuizStart 2) oneAttempt) rfl rfl rfl rfl (by decide)).mpr
    ⟨fun _ => ⟨by decide, by decide, by unfold Cooling; decide⟩, fun _ _ _ => rfl⟩

/-- With one attempt allowed, the one in progress is shown locked, and is resumed. -/
theorem live_attempt_shown_locked :
    ∃ acts q user quiz,
      (run QuizSys.step (sampleQuizStart 1) acts).store.quizzes[q]? = some quiz ∧
      quiz.status = .published ∧ quiz.isActive = true ∧
      (run QuizSys.step (sampleQuizStart 1) acts).store.validateQuizPublishable q = .ok () ∧
      ((run QuizSys.step (sampleQuizStart 1) acts).store.enrollmentOf quiz.course
        user).isSome = true ∧
      ¬ (((run QuizSys.step (sampleQuizStart 1) acts).store.getQuizAttemptState
          (run QuizSys.step (sampleQuizStart 1) acts).clock q user quiz).canAttempt = true ↔
        ∃ result, ((run QuizSys.step (sampleQuizStart 1) acts).store.startQuizAttempt
          (run QuizSys.step (sampleQuizStart 1) acts).clock q user quiz []).2 = .ok result) := by
  refine ⟨oneAttempt, 0, 7, sampleQuiz 1, by decide, rfl, rfl, rfl, by decide, ?_⟩
  intro hmirror
  have hshown := hmirror.mpr ⟨(0, false), rfl⟩
  revert hshown
  decide

end SetadJang.Lms
