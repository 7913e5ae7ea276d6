import SetadJang.Lms.QuizState

/-!
# Quiz attempts under concurrency

Starts overlap a step at a time, as before.  A submission is a transaction that locks its
attempt, reads the clock and commits later; until then a save of that attempt waits, while
the queries of a start still see it in progress.

Nothing ties the insert of a start to its query for an attempt in progress, and its save of
EXPIRED goes to a row that was loaded earlier.  Two starts can each insert an attempt, and
an attempt that was submitted just in time can be overwritten with EXPIRED.
-/

namespace SetadJang.Lms

open SetadJang.Framework

/-- A transaction of `submit_quiz_attempt` that has locked its attempt and read the clock. -/
structure Submission where
  a : ℕ
  answers : List (ℤ × ℤ)
  now : ℕ
deriving DecidableEq, Repr

structure AttemptSys where
  quiz : QuizSys
  submissions : List Submission

inductive AttemptAct where
  | quiz (act : QuizAct)
  | lock (a : ℕ) (answers : List (ℤ × ℤ))
  | commit (i : ℕ)
  | rollback (i : ℕ)

namespace AttemptSys

def attempts (s : AttemptSys) : List QuizAttempt := s.quiz.store.attempts

def locked (s : AttemptSys) (a : ℕ) : Bool := s.submissions.any fun submission => submission.a == a

/-- The act would write to an attempt that a submission holds. -/
def blocked (s : AttemptSys) : QuizAct → Bool
  | .advance i =>
      (s.quiz.calls[i]?).any fun call =>
        match call.phase with
        | .expire _ a => s.locked a
        | _ => false
  | .submit a _ => s.locked a
  | _ => false

def step (s : AttemptSys) : AttemptAct → AttemptSys
  | .quiz act => if s.blocked act then s else { s with quiz := s.quiz.step act }
  | .lock a answers =>
      if s.locked a then s
      else { s with submissions := s.submissions ++ [⟨a, answers, s.quiz.clock⟩] }
  | .commit i =>
      match s.submissions[i]? with
      | none => s
      | some submission =>
          let rest := s.submissions.eraseIdx i
          match s.quiz.store.submitQuizAttempt submission.now submission.a submission.answers with
          | .error _ => { s with submissions := rest }
          | .ok store => ⟨{ s.quiz with store := store }, rest⟩
  | .rollback i => { s with submissions := s.submissions.eraseIdx i }

/-- No attempts, no calls. -/
def start (lms : LmsStore) (quizzes : List Quiz) (questions : List QuizQuestion)
    (options : List QuizOption) (unlocks : List QuizUnlock) (clock : ℕ) : AttemptSys :=
  ⟨QuizSys.start lms quizzes questions options unlocks clock, []⟩

end AttemptSys

/-! ## The two laws -/

/-- PASSED, FAILED or EXPIRED. -/
def QuizAttemptStatus.decided : QuizAttemptStatus → Bool
  | .passed | .failed | .expired => true
  | .inProgress | .submitted | .locked => false

/-- At most one attempt of a user at a quiz is in progress. -/
def OneInProgress (s : AttemptSys) : Prop :=
  OnePer (fun attempt : QuizAttempt => attempt.status = .inProgress)
    (fun attempt => (attempt.quiz, attempt.user)) s.attempts

/-- A decided attempt has kept its status. -/
def DecidedKept (s t : AttemptSys) : Prop :=
  Evolves (fun a b : QuizAttempt => a.status.decided = true → b.status = a.status)
    s.attempts t.attempts

/-! ## The condition -/

/-- An insert that the constraint lets through finds no attempt in progress, and a save of
EXPIRED finds the attempt neither passed nor failed. -/
def StartCall.FindsOpen (s : AttemptSys) (call : StartCall) : Prop :=
  match call.phase with
  | .create _ number _ =>
      s.quiz.store.numberTaken call.q call.user number = false →
        ∀ attempt ∈ s.attempts, attempt.status = .inProgress →
          (attempt.quiz, attempt.user) ≠ (call.q, call.user)
  | .expire _ a =>
      s.locked a = false →
        ∀ attempt ∈ s.attempts[a]?, attempt.status ≠ .passed ∧ attempt.status ≠ .failed
  | _ => True

def FindsOpen (s : AttemptSys) : AttemptAct → Prop
  | .quiz (.advance i) => ∀ call ∈ s.quiz.calls[i]?, call.FindsOpen s
  | _ => True

/-! ## What a step does to the attempts -/

/-- The table after a step, with what the condition says of that step. -/
inductive AttemptEffect (s : AttemptSys) (act : AttemptAct) : List QuizAttempt → Prop
  | same (hfinds : FindsOpen s act) : AttemptEffect s act s.attempts
  | created {new : QuizAttempt} (hstatus : new.status = .inProgress)
      (hfinds : FindsOpen s act ↔ ∀ attempt ∈ s.attempts, attempt.status = .inProgress →
        (attempt.quiz, attempt.user) ≠ (new.quiz, new.user)) :
      AttemptEffect s act (s.attempts ++ [new])
  | expired {a : ℕ}
      (hfinds : FindsOpen s act ↔
        ∀ attempt ∈ s.attempts[a]?, attempt.status ≠ .passed ∧ attempt.status ≠ .failed) :
      AttemptEffect s act
        (s.attempts.modify a fun attempt => { attempt with status := .expired })
  | graded {a : ℕ} {attempt : QuizAttempt} {now total awarded : ℕ} {quiz : Quiz}
      (hrow : s.attempts[a]? = some attempt) (hopen : attempt.status = .inProgress)
      (hfinds : FindsOpen s act) :
      AttemptEffect s act (s.attempts.modify a (QuizStore.grade now quiz total awarded))

/-- A submission that goes through grades an attempt in progress. -/
theorem effect_submit {s : AttemptSys} {act : AttemptAct} {now a : ℕ} {answers : List (ℤ × ℤ)}
    {store : QuizStore} (h : s.quiz.store.submitQuizAttempt now a answers = .ok store)
    (hfinds : FindsOpen s act) : AttemptEffect s act store.attempts := by
  obtain ⟨attempt, quiz, weights, graded, hrow, hopen, -, -, -, -, hattempts⟩ := submit_ok h
  rw [hattempts]
  exact .graded hrow hopen hfinds

/-- A step of a call that is not blocked. -/
theorem effect_advance {s : AttemptSys} {i : ℕ} {call : StartCall}
    (hcall : s.quiz.calls[i]? = some call) (hblocked : s.blocked (.advance i) = false) :
    AttemptEffect s (.quiz (.advance i)) (call.advance s.quiz.store s.quiz.clock).1.attempts := by
  have hfinds : FindsOpen s (.quiz (.advance i)) ↔ call.FindsOpen s := by
    simp only [FindsOpen, hcall, Option.mem_def, Option.some.injEq, forall_eq']
  obtain ⟨q, user, quiz, enrollment, draws, phase⟩ := call
  unfold StartCall.advance
  cases phase with
  | resume =>
      have hsame := AttemptEffect.same (hfinds.mpr trivial)
      dsimp only
      split
      · exact hsame
      · split <;> exact hsame
  | expire now a =>
      have hunlocked : s.locked a = false := by
        simpa [AttemptSys.blocked, hcall] using hblocked
      refine .expired (hfinds.trans ?_)
      simp only [StartCall.FindsOpen, hunlocked, forall_const]
  | notPassed now => exact .same (hfinds.mpr trivial)
  | lessons now => exact .same (hfinds.mpr trivial)
  | number now => exact .same (hfinds.mpr trivial)
  | allowed now number => exact .same (hfinds.mpr trivial)
  | cooldown now number => exact .same (hfinds.mpr trivial)
  | publishable now number => exact .same (hfinds.mpr trivial)
  | create now number snapshots =>
      dsimp only
      unfold QuizStore.createAttempt
      split
      · rename_i htaken
        refine .same (hfinds.mpr ?_)
        intro hfree
        rw [htaken] at hfree
        cases hfree
      · rename_i htaken
        refine .created rfl (hfinds.trans ?_)
        simp only [StartCall.FindsOpen, Bool.eq_false_of_not_eq_true htaken, forall_const]
  | returned result => exact .same (hfinds.mpr trivial)

/-- **Step cases.** -/
theorem effect_step (s : AttemptSys) (act : AttemptAct) :
    AttemptEffect s act (s.step act).attempts := by
  cases act with
  | quiz act =>
      unfold AttemptSys.step
      dsimp only
      split
      · -- a call that waits for a submission would save EXPIRED to a locked row
        rename_i hblocked
        refine .same ?_
        cases act with
        | advance i =>
            intro call hcall
            unfold StartCall.FindsOpen
            split
            · rename_i hphase
              simp [AttemptSys.blocked, Option.mem_def.mp hcall, hphase] at hblocked
            · rename_i hphase
              simp only [AttemptSys.blocked, Option.mem_def.mp hcall, hphase,
                Option.any_some] at hblocked
              intro hunlocked
              rw [hunlocked] at hblocked
              cases hblocked
            · trivial
        | tick _ | edit _ _ _ _ _ | start _ _ _ | submit _ _ => trivial
      · rename_i hblocked
        have hblocked := Bool.eq_false_of_not_eq_true hblocked
        cases act with
        | tick ms => exact .same trivial
        | edit lms quizzes questions options unlocks => exact .same trivial
        | start q user draws =>
            have hsame : (s.quiz.step (.start q user draws)).store = s.quiz.store := by
              unfold QuizSys.step
              dsimp only
              split
              · rfl
              · split <;> rfl
            show AttemptEffect s _ (s.quiz.step (.start q user draws)).store.attempts
            rw [hsame]
            exact .same trivial
        | advance i =>
            show AttemptEffect s _ (s.quiz.step (.advance i)).store.attempts
            cases hcall : s.quiz.calls[i]? with
            | none =>
                simp only [QuizSys.step, hcall]
                refine .same ?_
                intro call hmem
                rw [hcall] at hmem
                cases hmem
            | some call =>
                simp only [QuizSys.step, hcall]
                exact effect_advance hcall hblocked
        | submit a answers =>
            show AttemptEffect s _ (s.quiz.step (.submit a answers)).store.attempts
            unfold QuizSys.step
            dsimp only
            split
            · exact .same trivial
            · rename_i store hstore
              exact effect_submit hstore trivial
  | lock a answers =>
      unfold AttemptSys.step
      dsimp only
      split <;> exact .same trivial
  | commit i =>
      unfold AttemptSys.step
      dsimp only
      split
      · exact .same trivial
      · split
        · exact .same trivial
        · rename_i store hstore
          exact effect_submit hstore trivial
  | rollback i => exact .same trivial

/-! ## The condition is exact -/

theorem decidedKept_refl (s : AttemptSys) : DecidedKept s s :=
  evolves_refl (fun _ _ => rfl) _

theorem decidedKept_trans (s t u : AttemptSys) (hst : DecidedKept s t) (htu : DecidedKept t u) :
    DecidedKept s u := by
  refine Evolves.trans ?_ hst htu
  intro a b c hab hbc hdecided
  have hb := hab hdecided
  rw [← hb]
  exact hbc (by rw [hb, hdecided])

/-- An expiry keeps the decided attempts exactly when its attempt is neither passed nor
failed. -/
theorem evolves_expire {attempts : List QuizAttempt} {a : ℕ} :
    Evolves (fun a b : QuizAttempt => a.status.decided = true → b.status = a.status) attempts
        (attempts.modify a fun attempt => { attempt with status := .expired }) ↔
      ∀ attempt ∈ attempts[a]?, attempt.status ≠ .passed ∧ attempt.status ≠ .failed := by
  constructor
  · intro h attempt hattempt
    obtain ⟨b, hb, hkept⟩ := h a attempt hattempt
    rw [List.getElem?_modify_eq, Option.mem_def.mp hattempt] at hb
    cases hb
    have hkept : attempt.status.decided = true → QuizAttemptStatus.expired = attempt.status := hkept
    constructor
    · intro hstatus
      rw [hstatus] at hkept
      exact absurd (hkept rfl) (by decide)
    · intro hstatus
      rw [hstatus] at hkept
      exact absurd (hkept rfl) (by decide)
  · intro h
    refine evolves_modify (fun _ _ => rfl) ?_
    intro attempt hattempt hdecided
    obtain ⟨hpassed, hfailed⟩ := h attempt hattempt
    show QuizAttemptStatus.expired = attempt.status
    revert hdecided hpassed hfailed
    cases attempt.status <;> simp [QuizAttemptStatus.decided]

/-- **Step lemma.** While at most one attempt is in progress, a step meets the condition
exactly when it keeps both laws. -/
theorem findsOpen_iff {s : AttemptSys} (hs : OneInProgress s) (act : AttemptAct) :
    FindsOpen s act ↔ OneInProgress (s.step act) ∧ DecidedKept s (s.step act) := by
  have heffect := effect_step s act
  unfold OneInProgress DecidedKept
  generalize (s.step act).attempts = after at heffect
  cases heffect with
  | same hfinds => exact iff_of_true hfinds ⟨hs, evolves_refl (fun _ _ => rfl) _⟩
  | created hstatus hfinds =>
      -- an insert changes no status, so only the first law is at stake
      rw [hfinds, onePer_append (p := fun attempt : QuizAttempt => attempt.status = .inProgress)
        hstatus hs, and_iff_left]
      exact evolves_append (fun _ _ => rfl) _ _
  | expired hfinds =>
      -- an expiry opens nothing, so only the second one is
      rw [hfinds, evolves_expire, and_iff_right]
      exact onePer_modify (fun _ => rfl) (fun _ _ => nofun) hs
  | graded hrow hopen hfinds =>
      refine iff_of_true hfinds ⟨onePer_modify (fun _ => rfl) ?_ hs, ?_⟩
      · intro attempt hattempt _
        rw [hrow] at hattempt
        cases hattempt
        exact hopen
      · refine evolves_modify (fun _ _ => rfl) ?_
        intro attempt hattempt hdecided
        rw [hrow] at hattempt
        cases hattempt
        rw [hopen] at hdecided
        cases hdecided

/-- **Quiz attempts under concurrency.** In every state of a run at most one attempt of a
user at a quiz is in progress, and a decided attempt keeps its status from then on, exactly
when every insert finds no attempt in progress and every save of EXPIRED finds an attempt
that is neither passed nor failed. -/
theorem attempts_lawful_iff (lms : LmsStore) (quizzes : List Quiz)
    (questions : List QuizQuestion) (options : List QuizOption) (unlocks : List QuizUnlock)
    (clock : ℕ) (acts : List AttemptAct) :
    ((∀ pre, pre <+: acts → OneInProgress (run AttemptSys.step
          (AttemptSys.start lms quizzes questions options unlocks clock) pre)) ∧
        ∀ pre post, pre <+: post → post <+: acts →
          DecidedKept
            (run AttemptSys.step (AttemptSys.start lms quizzes questions options unlocks clock) pre)
            (run AttemptSys.step (AttemptSys.start lms quizzes questions options unlocks clock)
              post)) ↔
      Along AttemptSys.step FindsOpen
        (AttemptSys.start lms quizzes questions options unlocks clock) acts := by
  have hstart : OneInProgress (AttemptSys.start lms quizzes questions options unlocks clock) :=
    onePer_nil
  rw [along_congr (I := OneInProgress) (fun s act hs => findsOpen_iff hs act)
    (fun s act hs hfinds => ((findsOpen_iff hs act).mp hfinds).1) hstart, along_and,
    along_states (P := OneInProgress) hstart,
    along_related (R := DecidedKept) decidedKept_refl decidedKept_trans]

/-- Two starts of one learner: both look for an attempt in progress before either inserts
one, and the second one counts its number after the first insert. -/
def overlappingStarts : List AttemptAct :=
  [.quiz (.start 0 7 []), .quiz (.start 0 7 []), .quiz (.advance 0), .quiz (.advance 1)] ++
    List.replicate 7 (.quiz (.advance 0)) ++ List.replicate 7 (.quiz (.advance 1))

/-- The right answer is being submitted one millisecond before the deadline; a start finds
the attempt past it. -/
def startAtDeadline : List AttemptAct :=
  oneAttempt.map .quiz ++ [.quiz (.tick 1799999), .lock 0 [(0, 0)], .quiz (.tick 1),
    .quiz (.start 0 7 []), .quiz (.advance 1), .commit 0]

/-- The first run ends with two attempts in progress.  After the second one the attempt is
PASSED, and the start overwrites it with EXPIRED. -/
theorem overlapping_starts_unlawful :
    ¬ OneInProgress (run AttemptSys.step ⟨sampleQuizStart 2, []⟩ overlappingStarts) ∧
      ¬ DecidedKept (run AttemptSys.step ⟨sampleQuizStart 2, []⟩ startAtDeadline)
        (run AttemptSys.step ⟨sampleQuizStart 2, []⟩
          (startAtDeadline ++ [.quiz (.advance 1)])) := by
  constructor
  · intro hone
    have hsame := hone 0 1 _ _ rfl rfl rfl rfl rfl
    cases hsame
  · intro hkept
    obtain ⟨after, hafter, hstatus⟩ := hkept 0 _ rfl
    cases hafter
    exact absurd (hstatus rfl) (by decide)

end SetadJang.Lms
