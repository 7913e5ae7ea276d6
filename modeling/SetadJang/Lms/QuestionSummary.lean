import SetadJang.Lms.Threads

/-!
# The summary of a question

`answer_count`, `is_answered` and the one accepted answer are kept by hand.  Creating an answer
and removing one count the visible answers again, accepting one clears the others; a tombstone,
a moderation and a removal of the accepted answer leave part of the summary behind.
-/

namespace SetadJang.Lms

open SetadJang.Framework DiscussionStore

/-! ## The summary -/

/-- The answer under the key is an accepted answer of the question. -/
def Accepted (answers : List LessonAnswer) (question k : ℕ) : Prop :=
  ∃ a ∈ answers, a.question = question ∧ a.isAccepted = true ∧ a.pk = k

/-- What a question says about its answers is true. -/
structure SummaryTrue (answers : List LessonAnswer) (question : LessonQuestion) : Prop where
  count : question.answerCount = answers.countP (visibleIn question.pk)
  single : ∀ j k, Accepted answers question.pk j → Accepted answers question.pk k → j = k
  answered : question.isAnswered = true ↔ ∃ k, Accepted answers question.pk k

/-- **Question summaries.** -/
def SummariesTrue (s : DiscussionStore) : Prop :=
  ∀ question ∈ s.questions, SummaryTrue s.answers question

/-- An accepted delete of an answer neither hides a visible one nor takes away an accepted one;
a moderation changes neither, an acceptance apart. -/
def KeepsSummary (s : DiscussionStore) : DiscussionCall → Prop
  | .deleteLessonAnswer k _ =>
      if s.hasVisibleChildren k = true then ∀ a ∈ s.answers, a.pk = k → a.status ≠ .visible
      else ∀ a ∈ s.answers, a.pk = k ∨ a.parent = some k → a.isAccepted = false
  | .moderateLessonAnswer k text isAccepted => ∀ a ∈ s.answers, a.pk = k →
      (DiscussionStatus.ofValue? text = some .visible ↔ a.status = .visible) ∧
        (isAccepted = some false → a.isAccepted = false)
  | _ => True

/-- The call keeps the summaries, or it is refused. -/
def SettlesSummary (s : DiscussionStore) (call : DiscussionCall) : Prop :=
  ∀ s', discussionCall s call = .ok s' → KeepsSummary s call

/-! ## The tables of the questions -/

/-- Keys from the sequence, and no answer without its question. -/
structure QuestionsHeld (s : DiscussionStore) : Prop where
  below : ∀ question ∈ s.questions, question.pk < s.nextQuestion
  placed : ∀ a ∈ s.answers, ∃ question ∈ s.questions, question.pk = a.question

section questions

variable {s s' : DiscussionStore} {call : DiscussionCall} {questions : List LessonQuestion}

theorem exists_question_updateWhere {p : LessonQuestion → Bool}
    {f : LessonQuestion → LessonQuestion} (hf : ∀ question, (f question).pk = question.pk) {k : ℕ} :
    (∃ question ∈ updateWhere p f questions, question.pk = k) ↔
      ∃ question ∈ questions, question.pk = k := by
  constructor
  · rintro ⟨question, hmem, rfl⟩
    obtain ⟨old, hold, rfl⟩ := mem_updateWhere.mp hmem
    exact ⟨old, hold, (updateWhere_column (g := LessonQuestion.pk) hf old).symm⟩
  · rintro ⟨old, hold, rfl⟩
    exact ⟨_, mem_updateWhere.mpr ⟨old, hold, rfl⟩, updateWhere_column (g := LessonQuestion.pk) hf old⟩

theorem QuestionsHeld.saveQuestion (h : QuestionsHeld s) {q : ℕ}
    {f : LessonQuestion → LessonQuestion} (hf : ∀ question, (f question).pk = question.pk) :
    QuestionsHeld (s.saveQuestion q f) := by
  constructor
  · intro question hmem
    obtain ⟨old, hold, rfl⟩ := mem_updateWhere.mp hmem
    exact (updateWhere_column (p := fun question => question.pk == q) hf old).trans_lt
      (h.below old hold)
  · intro a ha
    exact (exists_question_updateWhere hf).mpr (h.placed a ha)

/-- Answers that are rewritten keep their question. -/
theorem QuestionsHeld.answers (h : QuestionsHeld s) {p : LessonAnswer → Bool}
    {f : LessonAnswer → LessonAnswer} (hf : ∀ a, (f a).question = a.question) :
    QuestionsHeld { s with answers := updateWhere p f s.answers } := by
  refine ⟨h.below, ?_⟩
  intro a ha
  obtain ⟨old, hold, rfl⟩ := mem_updateWhere.mp ha
  obtain ⟨question, hmem, hquestion⟩ := h.placed old hold
  refine ⟨question, hmem, ?_⟩
  exact hquestion.trans (updateWhere_column (g := LessonAnswer.question) hf old).symm

theorem QuestionsHeld.clearAccepted (h : QuestionsHeld s) (q : ℕ) :
    QuestionsHeld (s.clearAccepted q) := by
  refine h.answers ?_
  intro a
  rfl

theorem QuestionsHeld.saveAnswer (h : QuestionsHeld s) {k : ℕ} {f : LessonAnswer → LessonAnswer}
    (hf : ∀ a, (f a).question = a.question) : QuestionsHeld (s.saveAnswer k f) := h.answers hf

theorem QuestionsHeld.removeAnswers (h : QuestionsHeld s) (gone : List ℕ) :
    QuestionsHeld (s.removeAnswers gone) := by
  refine ⟨h.below, ?_⟩
  intro a ha
  obtain ⟨old, hold, -, rfl⟩ := mem_removeAnswers.mp ha
  rw [question_clearReplyTo]
  exact h.placed old hold

theorem questionsHeld_effect (h : QuestionsHeld s) (heffect : DiscussionEffect s call s') :
    QuestionsHeld s' := by
  cases heffect with
  | asked question hpk =>
      constructor
      · intro other hmem
        rcases List.mem_append.mp hmem with hmem | hmem
        · exact Nat.lt_succ_of_lt (h.below other hmem)
        · rw [List.mem_singleton.mp hmem, hpk]
          exact Nat.lt_succ_self _
      · intro a ha
        obtain ⟨other, hmem, hother⟩ := h.placed a ha
        exact ⟨other, List.mem_append_left _ hmem, hother⟩
  | answered answer hquestion htarget hpk hq haccepted created hcreated =>
      have hheld : QuestionsHeld created := by
        rw [hcreated]
        refine ⟨h.below, ?_⟩
        intro a ha
        rcases List.mem_append.mp ha with ha | ha
        · exact h.placed a ha
        · rw [List.mem_singleton.mp ha, hq]
          exact hquestion
      exact hheld.saveQuestion fun _ => rfl
  | accepted =>
      refine QuestionsHeld.saveQuestion ?_ fun _ => rfl
      exact (h.clearAccepted _).saveAnswer fun _ => rfl
  | questionEdited q f hcall hf => exact h.saveQuestion fun question => (hf question).1
  | @questionRemoved q =>
      have hremoved := h.removeAnswers (s.collected
        ((s.answers.filter fun answer => answer.question == q).map LessonAnswer.pk))
      constructor
      · intro question hmem
        exact h.below question (List.mem_filter.mp hmem).1
      · intro a ha
        obtain ⟨question, hmem, hquestion⟩ := hremoved.placed a ha
        refine ⟨question, List.mem_filter.mpr ⟨hmem, ?_⟩, hquestion⟩
        obtain ⟨old, hold, hkept, rfl⟩ := mem_removeAnswers.mp ha
        rw [bne_iff_ne, hquestion, question_clearReplyTo]
        rintro rfl
        -- its own answers are all collected
        refine hkept (front_subset_cascade _ _ _ (List.mem_map.mpr ⟨old, ?_, rfl⟩))
        exact List.mem_filter.mpr ⟨hold, beq_self_eq_true _⟩
  | answerEdited => exact h.saveAnswer fun _ => rfl
  | tombstoned => exact h.saveAnswer fun _ => rfl
  | answerRemoved answer ha hpk hchildren removed hremoved =>
      rw [hremoved]
      exact (h.removeAnswers _).saveQuestion fun _ => rfl
  | moderated answer ha hpk status hstatus cleared hcleared =>
      have hheld : QuestionsHeld cleared := by
        rw [hcleared]
        split
        · exact (h.clearAccepted _).saveQuestion fun _ => rfl
        · exact h
      exact hheld.saveAnswer fun _ => rfl

end questions

/-! ## What a write does to the accepted answers -/

section accepted

variable {s : DiscussionStore} {c q j k : ℕ} {a : LessonAnswer} {f : LessonAnswer → LessonAnswer}
  {gone : List ℕ}

theorem accepted_append {answers : List LessonAnswer} (haccepted : a.isAccepted = false) :
    Accepted (answers ++ [a]) c j ↔ Accepted answers c j := by
  constructor
  · rintro ⟨b, hb, hq, hb', hj⟩
    rcases List.mem_append.mp hb with hb | hb
    · exact ⟨b, hb, hq, hb', hj⟩
    · rw [List.mem_singleton.mp hb, haccepted] at hb'
      cases hb'
  · rintro ⟨b, hb, hfound⟩
    exact ⟨b, List.mem_append_left _ hb, hfound⟩

/-- One answer is rewritten. -/
theorem accepted_saveAnswer (hthreads : Threads s) (ha : a ∈ s.answers)
    (hpk : ∀ b, (f b).pk = b.pk) (hquestion : ∀ b, (f b).question = b.question) :
    Accepted (s.saveAnswer a.pk f).answers c j ↔
      (j ≠ a.pk ∧ Accepted s.answers c j) ∨
        (j = a.pk ∧ a.question = c ∧ (f a).isAccepted = true) := by
  constructor
  · rintro ⟨b, hb, hq, hb', hj⟩
    obtain ⟨old, hold, rfl⟩ := mem_updateWhere.mp hb
    by_cases hkey : old.pk = a.pk
    · obtain rfl := hthreads.eq_of_pk hold ha hkey
      rw [if_pos (beq_self_eq_true _)] at hq hb' hj
      exact .inr ⟨hj.symm.trans (hpk old), (hquestion old).symm.trans hq, hb'⟩
    · rw [if_neg (by simpa using hkey)] at hq hb' hj
      exact .inl ⟨hj ▸ hkey, old, hold, hq, hb', hj⟩
  · rintro (⟨hj, b, hb, hq, hb', rfl⟩ | ⟨rfl, hq, hb'⟩)
    · exact ⟨b, mem_updateWhere.mpr ⟨b, hb, if_neg (by simpa using hj)⟩, hq, hb', rfl⟩
    · refine ⟨f a, mem_updateWhere.mpr ⟨a, ha, if_pos (beq_self_eq_true _)⟩, ?_, hb', hpk a⟩
      rw [hquestion, hq]

theorem accepted_clearAccepted :
    Accepted (s.clearAccepted q).answers c j ↔ c ≠ q ∧ Accepted s.answers c j := by
  constructor
  · rintro ⟨b, hb, hq, hb', hj⟩
    obtain ⟨old, hold, rfl⟩ := mem_updateWhere.mp hb
    by_cases hkey : old.question = q
    · rw [if_pos (by simpa using hkey)] at hb'
      cases hb'
    · rw [if_neg (by simpa using hkey)] at hq hb' hj
      exact ⟨hq ▸ hkey, old, hold, hq, hb', hj⟩
  · rintro ⟨hne, b, hb, rfl, hb', hj⟩
    exact ⟨b, mem_updateWhere.mpr ⟨b, hb, if_neg (by simpa using hne)⟩, rfl, hb', hj⟩

@[simp] theorem isAccepted_clearReplyTo (b : LessonAnswer) :
    (clearReplyTo gone b).isAccepted = b.isAccepted := by
  unfold clearReplyTo
  split <;> rfl

@[simp] theorem status_clearReplyTo (b : LessonAnswer) :
    (clearReplyTo gone b).status = b.status := by
  unfold clearReplyTo
  split <;> rfl

theorem accepted_removeAnswers :
    Accepted (s.removeAnswers gone).answers c j ↔ Accepted s.answers c j ∧ j ∉ gone := by
  constructor
  · rintro ⟨b, hb, hq, hb', hj⟩
    obtain ⟨old, hold, hkept, rfl⟩ := mem_removeAnswers.mp hb
    rw [question_clearReplyTo] at hq
    rw [isAccepted_clearReplyTo] at hb'
    rw [pk_clearReplyTo] at hj
    exact ⟨⟨old, hold, hq, hb', hj⟩, hj ▸ hkept⟩
  · rintro ⟨⟨b, hb, hq, hb', rfl⟩, hkept⟩
    refine ⟨_, mem_removeAnswers.mpr ⟨b, hb, hkept, rfl⟩, ?_, ?_, pk_clearReplyTo b⟩
    · rw [question_clearReplyTo, hq]
    · rw [isAccepted_clearReplyTo, hb']

/-! ## What a write does to the number of visible answers -/

theorem visibleIn_eq_iff {b : LessonAnswer} (hquestion : b.question = a.question) :
    visibleIn c b = visibleIn c a ↔
      (a.question = c → (b.status = .visible ↔ a.status = .visible)) := by
  rw [visibleIn, visibleIn, hquestion]
  by_cases hc : a.question = c
  · rw [beq_iff_eq.mpr hc, Bool.true_and, Bool.true_and]
    refine Iff.trans ?_ (forall_prop_of_true hc).symm
    rw [Bool.eq_iff_iff, beq_iff_eq, beq_iff_eq]
  · rw [beq_eq_false_iff_ne.mpr hc]
    exact iff_of_true rfl fun h => absurd h hc

theorem visible_clearAccepted :
    (s.clearAccepted q).answers.countP (visibleIn c) = s.answers.countP (visibleIn c) :=
  countP_updateWhere fun _ _ _ => rfl

theorem visible_saveAnswer_iff (hthreads : Threads s) (ha : a ∈ s.answers)
    (hquestion : ∀ b, (f b).question = b.question) :
    (s.saveAnswer a.pk f).answers.countP (visibleIn c) = s.answers.countP (visibleIn c) ↔
      (a.question = c → ((f a).status = .visible ↔ a.status = .visible)) := by
  refine (countP_updateKey_eq_iff LessonAnswer.pk
    (uniqueBy_of_nodup hthreads.unique) ha).trans ?_
  exact visibleIn_eq_iff (hquestion a)

/-- A removal that takes no answer of the question. -/
theorem visible_removeAnswers (h : ∀ b ∈ s.answers, b.question = c → b.pk ∉ gone) :
    (s.removeAnswers gone).answers.countP (visibleIn c) = s.answers.countP (visibleIn c) := by
  rw [removeAnswers, List.countP_map, List.countP_filter]
  apply List.countP_congr
  intro b hb
  show (visibleIn c (clearReplyTo gone b) && !gone.contains b.pk) = true ↔ _
  have hsame : visibleIn c (clearReplyTo gone b) = visibleIn c b := by
    rw [visibleIn, visibleIn, question_clearReplyTo, status_clearReplyTo]
  rw [hsame]
  constructor
  · intro hboth
    exact (Bool.and_eq_true_iff.mp hboth).1
  · intro hvisible
    have hq : b.question = c := beq_iff_eq.mp (Bool.and_eq_true_iff.mp hvisible).1
    rw [hvisible]
    simpa using h b hb hq

end accepted

/-! ## One call -/

section step

variable {s s' : DiscussionStore} {call : DiscussionCall} {a : LessonAnswer}
  {f : LessonAnswer → LessonAnswer}

/-- A summary that nothing was written to, over answers that count as before. -/
theorem SummaryTrue.congr {answers answers' : List LessonAnswer}
    {question question' : LessonQuestion} (h : SummaryTrue answers question)
    (hpk : question'.pk = question.pk) (hcount : question'.answerCount = question.answerCount)
    (hanswered : question'.isAnswered = question.isAnswered)
    (hvisible : answers'.countP (visibleIn question.pk) = answers.countP (visibleIn question.pk))
    (haccepted : ∀ k, Accepted answers' question.pk k ↔ Accepted answers question.pk k) :
    SummaryTrue answers' question' := by
  refine ⟨?_, ?_, ?_⟩
  · rw [hcount, hpk, hvisible, h.count]
  · rw [hpk]
    intro j k hj hk
    exact h.single j k ((haccepted j).mp hj) ((haccepted k).mp hk)
  · rw [hanswered, hpk, h.answered]
    exact exists_congr fun k => (haccepted k).symm

theorem Accepted.row (hthreads : Threads s) (ha : a ∈ s.answers) {c : ℕ}
    (h : Accepted s.answers c a.pk) : a.question = c ∧ a.isAccepted = true := by
  obtain ⟨b, hb, hq, hb', hpk⟩ := h
  obtain rfl := hthreads.eq_of_pk hb ha hpk
  exact ⟨hq, hb'⟩

/-- **Rewriting an answer** keeps the summaries exactly when it counts as before and stays
accepted or not. -/
theorem summariesTrue_saveAnswer_iff (h : SummariesTrue s) (hthreads : Threads s)
    (hheld : QuestionsHeld s) (ha : a ∈ s.answers) (hpk : ∀ b, (f b).pk = b.pk)
    (hquestion : ∀ b, (f b).question = b.question) :
    SummariesTrue (s.saveAnswer a.pk f) ↔
      ((f a).status = .visible ↔ a.status = .visible) ∧ (f a).isAccepted = a.isAccepted := by
  constructor
  · intro hafter
    obtain ⟨question, hmem, hq⟩ := hheld.placed a ha
    have hbefore := h question hmem
    have hnow := hafter question hmem
    constructor
    · have hcount := hnow.count.symm.trans hbefore.count
      exact (visible_saveAnswer_iff hthreads ha hquestion).mp hcount hq.symm
    · cases hold : a.isAccepted with
      | true =>
          by_contra hne
          have hself : Accepted s.answers question.pk a.pk := ⟨a, ha, hq.symm, hold, rfl⟩
          obtain ⟨k, hk⟩ := hnow.answered.mp (hbefore.answered.mpr ⟨_, hself⟩)
          rcases (accepted_saveAnswer hthreads ha hpk hquestion).mp hk with ⟨hother, hk⟩ | ⟨-, -, hf⟩
          · exact hother (hbefore.single k a.pk hk hself)
          · exact hne hf
      | false =>
          by_contra hne
          have hf : (f a).isAccepted = true := Bool.eq_true_of_not_eq_false hne
          have hself : Accepted (s.saveAnswer a.pk f).answers question.pk a.pk :=
            (accepted_saveAnswer hthreads ha hpk hquestion).mpr (.inr ⟨rfl, hq.symm, hf⟩)
          obtain ⟨k, hk⟩ := hbefore.answered.mp (hnow.answered.mpr ⟨_, hself⟩)
          have hother : k ≠ a.pk := by
            rintro rfl
            rw [(Accepted.row hthreads ha hk).2] at hold
            cases hold
          have hkept : Accepted (s.saveAnswer a.pk f).answers question.pk k :=
            (accepted_saveAnswer hthreads ha hpk hquestion).mpr (.inl ⟨hother, hk⟩)
          exact hother (hnow.single k a.pk hkept hself)
  · rintro ⟨hvisible, hsame⟩ question hmem
    refine (h question hmem).congr rfl rfl rfl ?_ fun k => ?_
    · exact (visible_saveAnswer_iff hthreads ha hquestion).mpr fun _ => hvisible
    · rw [accepted_saveAnswer hthreads ha hpk hquestion, hsame]
      constructor
      · rintro (⟨-, hk⟩ | ⟨rfl, hq, hk⟩)
        · exact hk
        · exact ⟨a, ha, hq, hk, rfl⟩
      · intro hk
        by_cases hself : k = a.pk
        · subst hself
          exact .inr ⟨rfl, Accepted.row hthreads ha hk⟩
        · exact .inl ⟨hself, hk⟩

/-- The answer once the others of its question are cleared. -/
def LessonAnswer.cleared (a : LessonAnswer) : LessonAnswer := { a with isAccepted := false }

theorem cleared_mem (ha : a ∈ s.answers) : a.cleared ∈ (s.clearAccepted a.question).answers :=
  mem_updateWhere.mpr ⟨a, ha, if_pos (beq_self_eq_true _)⟩

theorem threads_clearAccepted (h : Threads s) (q : ℕ) : Threads (s.clearAccepted q) := by
  refine threads_congr (s := s) (links_updateWhere ?_) rfl h
  intro b
  rfl

/-- Among cleared answers a new accepted one is the only one. -/
theorem accepted_accept (hthreads : Threads s) (ha : a ∈ s.answers) (hpk : ∀ b, (f b).pk = b.pk)
    (hquestion : ∀ b, (f b).question = b.question) (haccepted : (f a.cleared).isAccepted = true)
    {c j : ℕ} : Accepted ((s.clearAccepted a.question).saveAnswer a.pk f).answers c j ↔
      if c = a.question then j = a.pk else Accepted s.answers c j := by
  refine (accepted_saveAnswer (threads_clearAccepted hthreads _) (cleared_mem ha) hpk
    hquestion).trans ?_
  rw [accepted_clearAccepted]
  show (j ≠ a.pk ∧ c ≠ a.question ∧ Accepted s.answers c j) ∨
    (j = a.pk ∧ a.question = c ∧ (f a.cleared).isAccepted = true) ↔ _
  by_cases hc : c = a.question
  · rw [if_pos hc]
    constructor
    · rintro (⟨-, hne, -⟩ | ⟨hj, -⟩)
      · exact absurd hc hne
      · exact hj
    · intro hj
      exact .inr ⟨hj, hc.symm, haccepted⟩
  · rw [if_neg hc]
    constructor
    · rintro (⟨-, -, hold⟩ | ⟨-, hq, -⟩)
      · exact hold
      · exact absurd hq.symm hc
    · intro hold
      refine .inl ⟨?_, hc, hold⟩
      rintro rfl
      exact hc (Accepted.row hthreads ha hold).1.symm

/-- **Accepting an answer** settles who is accepted; the count is kept exactly when the answer
is as visible as before. -/
theorem summariesTrue_accept_iff (h : SummariesTrue s) (hthreads : Threads s)
    (hheld : QuestionsHeld s) (ha : a ∈ s.answers) (hpk : ∀ b, (f b).pk = b.pk)
    (hquestion : ∀ b, (f b).question = b.question)
    (haccepted : (f a.cleared).isAccepted = true) :
    SummariesTrue (((s.clearAccepted a.question).saveAnswer a.pk f).saveQuestion a.question
        fun question => { question with isAnswered := true }) ↔
      ((f a.cleared).status = .visible ↔ a.status = .visible) := by
  have hvisible : ∀ c, ((s.clearAccepted a.question).saveAnswer a.pk f).answers.countP (visibleIn c) =
      s.answers.countP (visibleIn c) ↔
        (a.question = c → ((f a.cleared).status = .visible ↔ a.status = .visible)) := by
    intro c
    rw [← visible_clearAccepted (s := s) (q := a.question)]
    exact visible_saveAnswer_iff (threads_clearAccepted hthreads _) (cleared_mem ha) hquestion
  constructor
  · intro hafter
    obtain ⟨question, hmem, hq⟩ := hheld.placed a ha
    have hnow := hafter _ (mem_updateWhere.mpr ⟨question, hmem, if_pos (beq_iff_eq.mpr hq)⟩)
    have hcount := hnow.count.symm.trans (h question hmem).count
    exact (hvisible question.pk).mp hcount hq.symm
  · intro hsame question' hmem'
    obtain ⟨question, hmem, rfl⟩ := mem_updateWhere.mp hmem'
    have hbefore := h question hmem
    by_cases hq : question.pk = a.question
    · rw [if_pos (beq_iff_eq.mpr hq)]
      have hone : ∀ j, Accepted ((s.clearAccepted a.question).saveAnswer a.pk f).answers
          question.pk j ↔ j = a.pk := by
        intro j
        rw [accepted_accept hthreads ha hpk hquestion haccepted, if_pos hq]
      refine ⟨?_, ?_, ?_⟩
      · exact hbefore.count.trans ((hvisible question.pk).mpr fun _ => hsame).symm
      · intro j k hj hk
        exact ((hone j).mp hj).trans ((hone k).mp hk).symm
      · exact iff_of_true rfl ⟨a.pk, (hone a.pk).mpr rfl⟩
    · rw [if_neg (by simpa using hq)]
      refine hbefore.congr rfl rfl rfl ((hvisible question.pk).mpr fun _ => hsame) fun k => ?_
      show Accepted ((s.clearAccepted a.question).saveAnswer a.pk f).answers question.pk k ↔ _
      rw [accepted_accept hthreads ha hpk hquestion haccepted, if_neg hq]

/-- Counting one question's answers again, over answers that are accepted as before and as
visible for every other question. -/
theorem summariesTrue_recount (h : SummariesTrue s) {recounted : DiscussionStore} {q : ℕ}
    {g : LessonQuestion → LessonQuestion} (hquestions : recounted.questions = s.questions)
    (haccepted : ∀ c k, Accepted recounted.answers c k ↔ Accepted s.answers c k)
    (hvisible : ∀ c, c ≠ q →
      recounted.answers.countP (visibleIn c) = s.answers.countP (visibleIn c))
    (hg : ∀ question, (g question).pk = question.pk ∧
      (g question).answerCount = recounted.visibleAnswers q ∧
      (g question).isAnswered = question.isAnswered) :
    SummariesTrue (recounted.saveQuestion q g) := by
  intro question' hmem'
  obtain ⟨question, hmem, rfl⟩ := mem_updateWhere.mp hmem'
  rw [hquestions] at hmem
  have hbefore := h question hmem
  show SummaryTrue recounted.answers _
  by_cases hq : question.pk = q
  · rw [if_pos (beq_iff_eq.mpr hq)]
    obtain ⟨hpk, hcount, hanswered⟩ := hg question
    refine ⟨?_, ?_, ?_⟩
    · rw [hcount, hpk, hq]
      rfl
    · rw [hpk]
      intro j k hj hk
      exact hbefore.single j k ((haccepted _ j).mp hj) ((haccepted _ k).mp hk)
    · rw [hanswered, hpk, hbefore.answered]
      exact exists_congr fun k => (haccepted _ k).symm
  · rw [if_neg (by simpa using hq)]
    exact hbefore.congr rfl rfl rfl (hvisible question.pk hq) fun k => haccepted _ k

/-- A new answer is counted. -/
theorem summariesTrue_answered (h : SummariesTrue s) (haccepted : a.isAccepted = false)
    {created : DiscussionStore} (hquestions : created.questions = s.questions)
    (hanswers : created.answers = s.answers ++ [a]) {now : ℕ} :
    SummariesTrue (created.saveQuestion a.question fun question =>
      { question with answerCount := created.visibleAnswers a.question, lastActivityAt := now }) := by
  apply summariesTrue_recount h hquestions
  · intro c k
    rw [hanswers]
    exact accepted_append haccepted
  · intro c hc
    have hout : visibleIn c a = false := by
      rw [visibleIn, beq_eq_false_iff_ne.mpr (Ne.symm hc)]
      rfl
    rw [hanswers, List.countP_append, List.countP_singleton, hout]
    rfl
  · exact fun _ => ⟨rfl, rfl, rfl⟩

/-- A new question has no answers. -/
theorem summariesTrue_asked (h : SummariesTrue s) (hheld : QuestionsHeld s)
    {question : LessonQuestion} (hpk : question.pk = s.nextQuestion)
    (hcount : question.answerCount = 0) (hanswered : question.isAnswered = false) :
    SummariesTrue { s with questions := s.questions ++ [question], nextQuestion := s.nextQuestion + 1 } := by
  have hnone : ∀ b ∈ s.answers, b.question ≠ question.pk := by
    intro b hb
    obtain ⟨other, hmem, hother⟩ := hheld.placed b hb
    rw [← hother, hpk]
    exact (hheld.below other hmem).ne
  have hacc : ∀ k, ¬ Accepted s.answers question.pk k := by
    rintro k ⟨b, hb, hq, -⟩
    exact hnone b hb hq
  intro other hmem
  rcases List.mem_append.mp hmem with hmem | hmem
  · exact h other hmem
  · obtain rfl := List.mem_singleton.mp hmem
    refine ⟨?_, fun j k hj => absurd hj (hacc j), ?_⟩
    · rw [hcount, eq_comm, List.countP_eq_zero]
      intro b hb hvisible
      exact hnone b hb (beq_iff_eq.mp (Bool.and_eq_true_iff.mp hvisible).1)
    · rw [hanswered]
      refine iff_of_false (fun hfalse => by cases hfalse) ?_
      rintro ⟨k, hk⟩
      exact hacc k hk

/-- What the delete of a question collects is its own. -/
theorem Threads.collected_question (h : Threads s) {q : ℕ} :
    ∀ j ∈ s.collected ((s.answers.filter fun b => b.question == q).map LessonAnswer.pk),
      ∃ b ∈ s.answers, b.pk = j ∧ b.question = q := by
  refine cascade_induction ?_ ?_
  · rintro b hb p hp ⟨parent, hparent, rfl, hq⟩
    obtain ⟨c, hc, hcpk, hcq, -⟩ := h.shaped.parent b hb _ hp
    obtain rfl := h.eq_of_pk hc hparent hcpk
    exact ⟨b, hb, rfl, hcq.symm.trans hq⟩
  · intro j hj
    obtain ⟨b, hb, rfl⟩ := List.mem_map.mp hj
    obtain ⟨hmem, hq⟩ := List.mem_filter.mp hb
    exact ⟨b, hmem, rfl, beq_iff_eq.mp hq⟩

/-- A removal leaves the summaries of the other questions alone. -/
theorem SummaryTrue.removeAnswers {gone : List ℕ} {question : LessonQuestion}
    (h : SummaryTrue s.answers question)
    (hkept : ∀ b ∈ s.answers, b.question = question.pk → b.pk ∉ gone) :
    SummaryTrue (s.removeAnswers gone).answers question := by
  refine h.congr rfl rfl rfl (visible_removeAnswers hkept) fun k => ?_
  rw [accepted_removeAnswers]
  refine and_iff_left_of_imp ?_
  rintro ⟨b, hb, hq, -, rfl⟩
  exact hkept b hb hq

theorem summariesTrue_questionRemoved (h : SummariesTrue s) (hthreads : Threads s) (q : ℕ) :
    SummariesTrue { s.removeAnswers (s.collected
        ((s.answers.filter fun b => b.question == q).map LessonAnswer.pk)) with
      questions := s.questions.filter fun question => question.pk != q } := by
  intro question hmem
  obtain ⟨hold, hne⟩ := List.mem_filter.mp hmem
  refine (h question hold).removeAnswers fun b hb hq hgone => ?_
  obtain ⟨c, hc, hpk, hcq⟩ := hthreads.collected_question _ hgone
  obtain rfl := hthreads.eq_of_pk hc hb hpk
  exact bne_iff_ne.mp hne (hq.symm.trans hcq)

/-- The delete of an answer collects it and its replies. -/
theorem Threads.collected_iff (h : Threads s) {b : LessonAnswer} (hb : b ∈ s.answers) :
    b.pk ∈ s.collected [a.pk] ↔ b.pk = a.pk ∨ b.parent = some a.pk := by
  have hself : a.pk ∈ s.collected [a.pk] := front_subset_cascade _ _ _ (List.mem_singleton_self _)
  constructor
  · intro hcollected
    rcases h.collected_answer _ hcollected with hpk | ⟨c, hc, hpk, hparent⟩
    · exact .inl hpk
    · obtain rfl := h.eq_of_pk hc hb hpk
      exact .inr hparent
  · rintro (hpk | hparent)
    · rw [hpk]
      exact hself
    · exact h.collected_closed [a.pk] b hb a.pk hself hparent

/-- Its replies answer the same question. -/
theorem Threads.question_of_collected (h : Threads s) (ha : a ∈ s.answers) {b : LessonAnswer}
    (hb : b ∈ s.answers) (hcollected : b.pk ∈ s.collected [a.pk]) : b.question = a.question := by
  rcases (h.collected_iff hb).mp hcollected with hpk | hparent
  · rw [h.eq_of_pk hb ha hpk]
  · obtain ⟨c, hc, hpk, hq, -⟩ := h.shaped.parent b hb _ hparent
    rw [← hq, h.eq_of_pk hc ha hpk]

/-- **Removing an answer** keeps the summaries exactly when no accepted one goes with it. -/
theorem summariesTrue_answerRemoved_iff (h : SummariesTrue s) (hthreads : Threads s)
    (hheld : QuestionsHeld s) (ha : a ∈ s.answers) {removed : DiscussionStore}
    (hremoved : removed = s.removeAnswers (s.collected [a.pk])) :
    SummariesTrue (removed.saveQuestion a.question fun question =>
        { question with answerCount := removed.visibleAnswers a.question }) ↔
      ∀ b ∈ s.answers, b.pk = a.pk ∨ b.parent = some a.pk → b.isAccepted = false := by
  have hquestions : removed.questions = s.questions := by rw [hremoved]; rfl
  have hacc : ∀ c k, Accepted removed.answers c k ↔
      Accepted s.answers c k ∧ k ∉ s.collected [a.pk] := by
    intro c k
    rw [hremoved]
    exact accepted_removeAnswers
  constructor
  · intro hafter b hb hgone
    obtain ⟨question, hmem, hq⟩ := hheld.placed a ha
    have hold : question ∈ removed.questions := hquestions ▸ hmem
    have hnow := hafter _ (mem_updateWhere.mpr ⟨question, hold, if_pos (beq_iff_eq.mpr hq)⟩)
    have hbefore := h question hmem
    by_contra hne
    -- the accepted answer goes, and the question still says that one is accepted
    have hcollected := (hthreads.collected_iff hb).mpr hgone
    have hown := hthreads.question_of_collected ha hb hcollected
    have hbacc : Accepted s.answers question.pk b.pk :=
      ⟨b, hb, hown.trans hq.symm, Bool.eq_true_of_not_eq_false hne, rfl⟩
    obtain ⟨k, hk⟩ := hnow.answered.mp (hbefore.answered.mpr ⟨_, hbacc⟩)
    obtain ⟨hkacc, hkept⟩ := (hacc _ k).mp hk
    rw [hbefore.single k b.pk hkacc hbacc] at hkept
    exact hkept hcollected
  · intro hnone
    apply summariesTrue_recount h hquestions
    · intro c k
      rw [hacc]
      refine and_iff_left_of_imp ?_
      rintro ⟨b, hb, -, hb', rfl⟩ hcollected
      rw [hnone b hb ((hthreads.collected_iff hb).mp hcollected)] at hb'
      cases hb'
    · intro c hc
      rw [hremoved]
      apply visible_removeAnswers
      intro b hb hbq hcollected
      exact hc (hbq.symm.trans (hthreads.question_of_collected ha hb hcollected))
    · exact fun _ => ⟨rfl, rfl, rfl⟩

theorem summariesTrue_questionEdited (h : SummariesTrue s) {q : ℕ}
    {g : LessonQuestion → LessonQuestion}
    (hg : ∀ question, (g question).pk = question.pk ∧
      (g question).answerCount = question.answerCount ∧
      (g question).isAnswered = question.isAnswered) : SummariesTrue (s.saveQuestion q g) := by
  intro question' hmem'
  obtain ⟨question, hmem, rfl⟩ := mem_updateWhere.mp hmem'
  have hbefore := h question hmem
  split
  · obtain ⟨hpk, hcount, hanswered⟩ := hg question
    exact hbefore.congr hpk hcount hanswered rfl fun _ => Iff.rfl
  · exact hbefore

theorem keepsSummary_of_weighs (h : call.weighsAnswers = false) : KeepsSummary s call := by
  cases call with
  | deleteLessonAnswer | moderateLessonAnswer => cases h
  | _ => trivial

/-- A condition on the one answer under a key. -/
theorem forall_key_iff (hthreads : Threads s) (ha : a ∈ s.answers) {P : LessonAnswer → Prop} :
    (∀ b ∈ s.answers, b.pk = a.pk → P b) ↔ P a := by
  constructor
  · intro h
    exact h a ha rfl
  · intro h b hb hpk
    rw [hthreads.eq_of_pk hb ha hpk]
    exact h

/-- **Step lemma.** An accepted call keeps the summaries exactly when it meets the condition. -/
theorem summariesTrue_effect_iff (h : SummariesTrue s) (hthreads : Threads s)
    (hheld : QuestionsHeld s) (heffect : DiscussionEffect s call s') :
    SummariesTrue s' ↔ KeepsSummary s call := by
  cases heffect with
  | asked question hpk hcount hanswered =>
      exact iff_of_true (summariesTrue_asked h hheld hpk hcount hanswered) trivial
  | answered answer hquestion htarget hpk hq haccepted created hcreated =>
      refine iff_of_true ?_ trivial
      rw [← hq]
      exact summariesTrue_answered h haccepted (by rw [hcreated]) (by rw [hcreated])
  | accepted answer ha hpk hq =>
      refine iff_of_true ?_ trivial
      subst hpk hq
      apply (summariesTrue_accept_iff h hthreads hheld ha ?_ ?_ ?_).mpr
      · exact Iff.rfl
      · exact fun _ => rfl
      · exact fun _ => rfl
      · rfl
  | questionEdited q g hcall hg =>
      exact iff_of_true (summariesTrue_questionEdited h hg) (keepsSummary_of_weighs hcall)
  | questionRemoved hnone =>
      exact iff_of_true (summariesTrue_questionRemoved h hthreads _) trivial
  | answerEdited answer ha hpk =>
      refine iff_of_true ?_ trivial
      subst hpk
      apply (summariesTrue_saveAnswer_iff h hthreads hheld ha ?_ ?_).mpr
      · exact ⟨Iff.rfl, rfl⟩
      · exact fun _ => rfl
      · exact fun _ => rfl
  | tombstoned answer ha hpk hchildren =>
      subst hpk
      rw [KeepsSummary, if_pos hchildren, forall_key_iff hthreads ha]
      refine (summariesTrue_saveAnswer_iff h hthreads hheld ha ?_ ?_).trans ?_
      · exact fun _ => rfl
      · exact fun _ => rfl
      · constructor
        · rintro ⟨hvisible, -⟩ hold
          cases hvisible.mpr hold
        · intro hold
          exact ⟨iff_of_false (fun hdeleted => by cases hdeleted) hold, rfl⟩
  | answerRemoved answer ha hpk hchildren removed hremoved =>
      subst hpk
      rw [KeepsSummary, if_neg (by rw [hchildren]; exact Bool.false_ne_true)]
      exact summariesTrue_answerRemoved_iff h hthreads hheld ha hremoved
  | @moderated k text isAccepted answer ha hpk status hstatus cleared hcleared =>
      subst hpk
      have htext : DiscussionStatus.ofValue? text = some .visible ↔ status = .visible := by
        rw [hstatus, Option.some.injEq]
      rw [KeepsSummary, forall_key_iff hthreads ha, htext, hcleared]
      by_cases haccepts : isAccepted = some true
      · subst haccepts
        rw [if_pos rfl, and_iff_left (fun hfalse => by cases hfalse)]
        refine summariesTrue_accept_iff h hthreads hheld ha ?_ ?_ ?_
        · exact fun _ => rfl
        · exact fun _ => rfl
        · rfl
      · rw [if_neg haccepts]
        refine (summariesTrue_saveAnswer_iff h hthreads hheld ha ?_ ?_).trans ?_
        · exact fun _ => rfl
        · exact fun _ => rfl
        · refine and_congr Iff.rfl ?_
          cases isAccepted with
          | none => exact iff_of_true rfl fun hfalse => by cases hfalse
          | some value =>
              cases value with
              | true => exact absurd rfl haccepts
              | false => exact ⟨fun hsame _ => hsame.symm, fun hnot => (hnot rfl).symm⟩

theorem summariesTrue_step_iff (h : SummariesTrue s) (hthreads : Threads s)
    (hheld : QuestionsHeld s) (call : DiscussionCall) :
    SummariesTrue (discussionStep s call) ↔ SettlesSummary s call := by
  unfold discussionStep SettlesSummary
  cases hcall : discussionCall s call with
  | error e => exact iff_of_true h fun _ hok => by cases hok
  | ok s' =>
      refine (summariesTrue_effect_iff h hthreads hheld (discussionCall_effect hcall)).trans ?_
      constructor
      · intro hkeeps _ _
        exact hkeeps
      · intro hkeeps
        exact hkeeps s' rfl

end step

/-! ## Every run -/

theorem questionsHeld_step {s : DiscussionStore} (h : QuestionsHeld s) (call : DiscussionCall) :
    QuestionsHeld (discussionStep s call) := by
  unfold discussionStep
  split
  · rename_i s' hcall
    exact questionsHeld_effect h (discussionCall_effect hcall)
  · exact h

theorem summariesTrue_empty : SummariesTrue .empty := by
  intro question hmem
  cases hmem

/-- The summaries are true in every state of a run exactly as long as no call leaves one
behind. -/
theorem question_summaries_iff (calls : List DiscussionCall) :
    (∀ pre, pre <+: calls → SummariesTrue (run discussionStep .empty pre)) ↔
      Along discussionStep SettlesSummary .empty calls := by
  rw [← along_states summariesTrue_empty]
  refine along_congr (I := fun s => SummariesTrue s ∧ Threads s ∧ QuestionsHeld s) ?_ ?_ ?_ calls
  · rintro s call ⟨h, hthreads, hheld⟩
    exact summariesTrue_step_iff h hthreads hheld call
  · rintro s call ⟨-, hthreads, hheld⟩ hafter
    exact ⟨hafter, threads_step s call hthreads, questionsHeld_step hheld call⟩
  · refine ⟨summariesTrue_empty, threads_empty, ?_, ?_⟩
    · intro question hmem
      cases hmem
    · intro a ha
      cases ha

/-- One published course with one lesson and two students. -/
def sampleClass : LmsStore where
  courses := [⟨.published, true, 60, 1, 2, 0⟩]
  lessons := [⟨0, "Intro", 1, .video, 60, false, true⟩]
  enrollments := [⟨0, 1, .active, true, none, none, 0, 0, 60⟩, ⟨0, 2, .active, true, none, none, 0, 0, 60⟩]
  progress := []
  staff := []

/-- An answer that somebody has replied to is deleted by its author. -/
def tombstoneCalls : List DiscussionCall :=
  [.createLessonQuestion sampleClass 0 1 "Which book?" "Which book is it?" 0,
    .createLessonAnswer sampleClass 1 2 "The first one." false none 1,
    .createLessonAnswer sampleClass 1 1 "Thank you." false (some 1) 2,
    .deleteLessonAnswer 1 ⟨2, false, false, "user"⟩]

/-- One of its two answers is visible, and the question counts both. -/
theorem tombstone_still_counted : ¬ SummariesTrue (run discussionStep .empty tombstoneCalls) := by
  intro h
  have hquestion : ((run discussionStep .empty tombstoneCalls).questions.map fun question =>
      (question.pk, question.answerCount)) = [(1, 2)] := by decide +kernel
  have hvisible : (run discussionStep .empty tombstoneCalls).answers.countP (visibleIn 1) = 1 := by
    decide +kernel
  obtain ⟨question, hmem, hrow⟩ :=
    List.mem_map.mp (hquestion ▸ List.mem_singleton_self _ : (1, 2) ∈ _)
  obtain ⟨hpk, hcount⟩ := Prod.mk.inj hrow
  have htrue := (h question hmem).count
  rw [hpk, hvisible, hcount] at htrue
  cases htrue

end SetadJang.Lms
