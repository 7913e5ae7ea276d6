import SetadJang.Framework.Cascade
import SetadJang.Framework.PyText
import SetadJang.Framework.Runs
import SetadJang.Framework.Txn
import SetadJang.Lms.Model

/-!
# Lesson questions and answers

The discussion under a lesson.  An answer hangs below at most one other answer, its `parent`,
and `reply_to` is the answer it responds to.  A question carries a summary of its answers: how
many are visible and whether one is accepted.  Rows are deleted for good, so every row has its
key; a delete takes along the answers below (`parent` cascades) and clears `reply_to`.

A call reads the courses as they are then: who is enrolled and which lesson is open to whom.
-/

namespace SetadJang.Lms

open SetadJang.Framework

/-! ## Rows -/

inductive DiscussionStatus where
  | visible
  | hidden
  | deleted
  | flagged
deriving DecidableEq, Repr

def DiscussionStatus.value : DiscussionStatus → String
  | .visible => "visible"
  | .hidden => "hidden"
  | .deleted => "deleted"
  | .flagged => "flagged"

def DiscussionStatus.ofValue? (value : String) : Option DiscussionStatus :=
  [.visible, .hidden, .deleted, .flagged].find? fun status => status.value == value

structure LessonQuestion where
  pk : ℕ
  lesson : ℕ
  user : ℕ
  title : String
  body : String
  status : DiscussionStatus
  isPinned : Bool
  isAnswered : Bool
  answerCount : ℕ
  lastActivityAt : ℕ
  editedAt : Option ℕ
deriving DecidableEq, Repr

structure LessonAnswer where
  pk : ℕ
  question : ℕ
  user : ℕ
  parent : Option ℕ
  replyTo : Option ℕ
  body : String
  editedAt : Option ℕ
  status : DiscussionStatus
  isInstructorAnswer : Bool
  isAccepted : Bool
deriving DecidableEq, Repr

/-- The tables, with the next keys of their sequences. -/
structure DiscussionStore where
  questions : List LessonQuestion
  answers : List LessonAnswer
  nextQuestion : ℕ
  nextAnswer : ℕ

structure DiscussionUser where
  pk : ℕ
  isStaff : Bool
  isSuperuser : Bool
  role : String
deriving DecidableEq, Repr

inductive DiscussionError where
  | doesNotExist
  | dataError
  | lms (error : LmsError)
  | access (message : String)
  | moderation (message : String)
  | reply (message : String)
deriving DecidableEq, Repr

/-! ## Access -/

/-- The enrollment of the user in the course, active or completed. -/
def LmsStore.openEnrollment (s : LmsStore) (user course : ℕ) : Option (ℕ × Enrollment) :=
  (s.enrollments.zipIdx.find? fun row =>
    row.1.user == user && row.1.course == course && row.1.isActive && row.1.status.isOpen).map
      Prod.swap

/-- `ensure_user_enrolled_for_lesson`. -/
def ensureUserEnrolledForLesson (lms : LmsStore) (user : ℕ) (lesson : Lesson) :
    Except DiscussionError (ℕ × Enrollment) :=
  match lms.openEnrollment user lesson.course with
  | none => .error (.access "برای مشارکت در پرسش‌وپاسخ باید در این کلاس ثبت‌نام کرده باشید.")
  | some enrollment => .ok enrollment

/-- The enrollment and the chain of lessons, for a lesson the caller has loaded. -/
def ensureDiscussionOpen (lms : LmsStore) (user lesson : ℕ) : Except DiscussionError Unit :=
  match lms.lessons[lesson]? with
  | none => .error .doesNotExist
  | some row => do
      let (e, enrollment) ← ensureUserEnrolledForLesson lms user row
      (lms.ensureLessonSequenceOpen row e enrollment).mapError .lms

/-- `_is_discussion_admin`. -/
def isDiscussionAdmin (user : DiscussionUser) : Bool :=
  user.isStaff || user.isSuperuser || user.role == "admin"

/-- `_ensure_discussion_owner`. -/
def ensureDiscussionOwner (author : ℕ) (user : DiscussionUser) (what : String) :
    Except DiscussionError Unit :=
  checkThat (author = user.pk ∨ isDiscussionAdmin user = true)
    (.access ("فقط نویسنده‌ی " ++ what ++ " می‌تواند آن را تغییر دهد."))

namespace DiscussionStore

/-! ## Queries and writes -/

def questionOf (s : DiscussionStore) (k : ℕ) : Option LessonQuestion :=
  s.questions.find? fun question => question.pk == k

def answerOf (s : DiscussionStore) (k : ℕ) : Option LessonAnswer :=
  s.answers.find? fun answer => answer.pk == k

def saveQuestion (s : DiscussionStore) (k : ℕ) (f : LessonQuestion → LessonQuestion) :
    DiscussionStore :=
  { s with questions := updateWhere (fun question => question.pk == k) f s.questions }

def saveAnswer (s : DiscussionStore) (k : ℕ) (f : LessonAnswer → LessonAnswer) :
    DiscussionStore :=
  { s with answers := updateWhere (fun answer => answer.pk == k) f s.answers }

/-- `question.answers.filter(status=VISIBLE)`, whether it takes this answer. -/
def visibleIn (question : ℕ) (answer : LessonAnswer) : Bool :=
  answer.question == question && answer.status == .visible

def visibleAnswers (s : DiscussionStore) (question : ℕ) : ℕ :=
  s.answers.countP (visibleIn question)

/-- `question.answers.update(is_accepted=False)`. -/
def clearAccepted (s : DiscussionStore) (question : ℕ) : DiscussionStore :=
  { s with
    answers := updateWhere (fun answer => answer.question == question)
      (fun answer => { answer with isAccepted := false }) s.answers }

/-- The keys of the answers a delete takes along with these. -/
def collected (s : DiscussionStore) (front : List ℕ) : List ℕ :=
  cascade LessonAnswer.pk LessonAnswer.parent s.answers s.answers.length front

/-- `on_delete=SET_NULL`. -/
def clearReplyTo (gone : List ℕ) (answer : LessonAnswer) : LessonAnswer :=
  if answer.replyTo.any gone.contains then { answer with replyTo := none } else answer

/-- The delete of the answers that were collected. -/
def removeAnswers (s : DiscussionStore) (gone : List ℕ) : DiscussionStore :=
  { s with
    answers := (s.answers.filter fun answer => !gone.contains answer.pk).map (clearReplyTo gone) }

/-! ## Services -/

/-- `create_lesson_question`. -/
def createLessonQuestion (s : DiscussionStore) (lms : LmsStore) (lesson user : ℕ)
    (title body : String) (now : ℕ) : Except DiscussionError DiscussionStore := do
  ensureDiscussionOpen lms user lesson
  checkThat ((pyStrip title).length ≤ 255) .dataError
  let question : LessonQuestion :=
    ⟨s.nextQuestion, lesson, user, pyStrip title, pyStrip body, .visible, false, false, 0, now, none⟩
  return { s with questions := s.questions ++ [question], nextQuestion := s.nextQuestion + 1 }

/-- The parent and the answer responded to: a visible answer of the question, whose own parent
anchors the thread. -/
def replyTarget (s : DiscussionStore) (question : ℕ) :
    Option ℕ → Except DiscussionError (Option ℕ × Option ℕ)
  | none => .ok (none, none)
  | some target =>
      match s.answers.find? fun answer => answer.pk == target && visibleIn question answer with
      | none => .error (.reply "پاسخی که می‌خواهی به آن رد بزنی یافت نشد.")
      | some answer => .ok (some (answer.parent.getD answer.pk), some answer.pk)

/-- `create_lesson_answer`. -/
def createLessonAnswer (s : DiscussionStore) (lms : LmsStore) (q user : ℕ) (body : String)
    (isInstructorAnswer : Bool) (parentId : Option ℕ) (now : ℕ) :
    Except DiscussionError DiscussionStore :=
  match s.questionOf q with
  | none => .error .doesNotExist
  | some question => do
      ensureDiscussionOpen lms user question.lesson
      let (parent, replyTo) ← s.replyTarget q parentId
      let answer : LessonAnswer :=
        ⟨s.nextAnswer, q, user, parent, replyTo, pyStrip body, none, .visible, isInstructorAnswer,
          false⟩
      let created := { s with answers := s.answers ++ [answer], nextAnswer := s.nextAnswer + 1 }
      return created.saveQuestion q fun question =>
        { question with answerCount := created.visibleAnswers q, lastActivityAt := now }

/-- `accept_lesson_answer`. -/
def acceptLessonAnswer (s : DiscussionStore) (q k : ℕ) (user : DiscussionUser) :
    Except DiscussionError DiscussionStore :=
  match s.questionOf q, s.answerOf k with
  | some question, some answer => do
      checkThat (answer.question = q) (.moderation "این پاسخ متعلق به سؤال انتخاب‌شده نیست.")
      checkThat (question.user = user.pk ∨ isDiscussionAdmin user = true)
        (.access "فقط صاحب سؤال یا ادمین می‌تواند پاسخ را تأیید کند.")
      let accepted := (s.clearAccepted q).saveAnswer k fun answer =>
        { answer with isAccepted := true }
      return accepted.saveQuestion q fun question => { question with isAnswered := true }
  | _, _ => .error .doesNotExist

/-- `update_lesson_question`. -/
def updateLessonQuestion (s : DiscussionStore) (q : ℕ) (user : DiscussionUser)
    (title body : String) (now : ℕ) : Except DiscussionError DiscussionStore :=
  match s.questionOf q with
  | none => .error .doesNotExist
  | some question => do
      ensureDiscussionOwner question.user user "پرسش"
      checkThat (question.status = .visible)
        (.moderation "پرسشِ حذف/مخفی‌شده قابل ویرایش نیست.")
      checkThat ((pyStrip title).length ≤ 255) .dataError
      return s.saveQuestion q fun question =>
        { question with title := pyStrip title, body := pyStrip body, editedAt := some now }

/-- `delete_lesson_question`. -/
def deleteLessonQuestion (s : DiscussionStore) (q : ℕ) (user : DiscussionUser) :
    Except DiscussionError DiscussionStore :=
  match s.questionOf q with
  | none => .error .doesNotExist
  | some question => do
      ensureDiscussionOwner question.user user "پرسش"
      checkThat (question.status ≠ .deleted) (.moderation "این پرسش قبلاً حذف شده است.")
      if s.answers.any (visibleIn q) then
        return s.saveQuestion q fun question => { question with status := .deleted }
      else
        let own := (s.answers.filter fun answer => answer.question == q).map LessonAnswer.pk
        return { s.removeAnswers (s.collected own) with
          questions := s.questions.filter fun question => question.pk != q }

/-- `update_lesson_answer`. -/
def updateLessonAnswer (s : DiscussionStore) (k : ℕ) (user : DiscussionUser) (body : String)
    (now : ℕ) : Except DiscussionError DiscussionStore :=
  match s.answerOf k with
  | none => .error .doesNotExist
  | some answer => do
      ensureDiscussionOwner answer.user user "پاسخ"
      checkThat (answer.status = .visible) (.moderation "پاسخِ حذف/مخفی‌شده قابل ویرایش نیست.")
      return s.saveAnswer k fun answer =>
        { answer with body := pyStrip body, editedAt := some now }

/-- A visible answer below this one, or one that responds to it. -/
def hasVisibleChildren (s : DiscussionStore) (k : ℕ) : Bool :=
  s.answers.any (fun answer => answer.parent == some k && answer.status == .visible) ||
    s.answers.any fun answer => answer.replyTo == some k && answer.status == .visible

/-- `delete_lesson_answer`. -/
def deleteLessonAnswer (s : DiscussionStore) (k : ℕ) (user : DiscussionUser) :
    Except DiscussionError DiscussionStore :=
  match s.answerOf k with
  | none => .error .doesNotExist
  | some answer => do
      ensureDiscussionOwner answer.user user "پاسخ"
      checkThat (answer.status ≠ .deleted) (.moderation "این پاسخ قبلاً حذف شده است.")
      if s.hasVisibleChildren k then
        return s.saveAnswer k fun answer => { answer with status := .deleted }
      else
        let removed := s.removeAnswers (s.collected [k])
        return removed.saveQuestion answer.question fun question =>
          { question with answerCount := removed.visibleAnswers answer.question }

/-- `moderate_lesson_question`. -/
def moderateLessonQuestion (s : DiscussionStore) (q : ℕ) (status : String)
    (isPinned : Option Bool) : Except DiscussionError DiscussionStore :=
  match s.questionOf q with
  | none => .error .doesNotExist
  | some _ =>
      match DiscussionStatus.ofValue? status with
      | none => .error (.moderation "وضعیت گفتگو نامعتبر است.")
      | some status => .ok (s.saveQuestion q fun question =>
          { question with status := status, isPinned := isPinned.getD question.isPinned })

/-- `moderate_lesson_answer`. -/
def moderateLessonAnswer (s : DiscussionStore) (k : ℕ) (status : String)
    (isAccepted : Option Bool) : Except DiscussionError DiscussionStore :=
  match s.answerOf k with
  | none => .error .doesNotExist
  | some answer =>
      match DiscussionStatus.ofValue? status with
      | none => .error (.moderation "وضعیت گفتگو نامعتبر است.")
      | some status =>
          -- an accepted answer takes the place of the others
          let cleared :=
            if isAccepted = some true then
              (s.clearAccepted answer.question).saveQuestion answer.question fun question =>
                { question with isAnswered := true }
            else s
          .ok (cleared.saveAnswer k fun stored =>
            { stored with status := status, isAccepted := isAccepted.getD stored.isAccepted })

end DiscussionStore

/-! ## Runs -/

inductive DiscussionCall where
  | createLessonQuestion (lms : LmsStore) (lesson user : ℕ) (title body : String) (now : ℕ)
  | createLessonAnswer (lms : LmsStore) (question user : ℕ) (body : String)
      (isInstructorAnswer : Bool) (parentId : Option ℕ) (now : ℕ)
  | acceptLessonAnswer (question answer : ℕ) (user : DiscussionUser)
  | updateLessonQuestion (question : ℕ) (user : DiscussionUser) (title body : String) (now : ℕ)
  | deleteLessonQuestion (question : ℕ) (user : DiscussionUser)
  | updateLessonAnswer (answer : ℕ) (user : DiscussionUser) (body : String) (now : ℕ)
  | deleteLessonAnswer (answer : ℕ) (user : DiscussionUser)
  | moderateLessonQuestion (question : ℕ) (status : String) (isPinned : Option Bool)
  | moderateLessonAnswer (answer : ℕ) (status : String) (isAccepted : Option Bool)

def discussionCall (s : DiscussionStore) : DiscussionCall → Except DiscussionError DiscussionStore
  | .createLessonQuestion lms lesson user title body now =>
      s.createLessonQuestion lms lesson user title body now
  | .createLessonAnswer lms question user body isInstructorAnswer parentId now =>
      s.createLessonAnswer lms question user body isInstructorAnswer parentId now
  | .acceptLessonAnswer question answer user => s.acceptLessonAnswer question answer user
  | .updateLessonQuestion question user title body now =>
      s.updateLessonQuestion question user title body now
  | .deleteLessonQuestion question user => s.deleteLessonQuestion question user
  | .updateLessonAnswer answer user body now => s.updateLessonAnswer answer user body now
  | .deleteLessonAnswer answer user => s.deleteLessonAnswer answer user
  | .moderateLessonQuestion question status isPinned =>
      s.moderateLessonQuestion question status isPinned
  | .moderateLessonAnswer answer status isAccepted =>
      s.moderateLessonAnswer answer status isAccepted

/-- One call; a raise rolls it back. -/
def discussionStep (s : DiscussionStore) (call : DiscussionCall) : DiscussionStore :=
  match discussionCall s call with
  | .ok s' => s'
  | .error _ => s

/-- The tables with no row; the sequences start at one. -/
def DiscussionStore.empty : DiscussionStore := ⟨[], [], 1, 1⟩

/-! ## What an accepted call does -/

/-- The calls that may change what counts of an answer. -/
def DiscussionCall.weighsAnswers : DiscussionCall → Bool
  | .deleteLessonAnswer _ _ | .moderateLessonAnswer _ _ _ => true
  | _ => false

/-- The tables after an accepted call. -/
inductive DiscussionEffect (s : DiscussionStore) : DiscussionCall → DiscussionStore → Prop
  | asked {lms : LmsStore} {lesson user : ℕ} {title body : String} {now : ℕ}
      (question : LessonQuestion) (hpk : question.pk = s.nextQuestion)
      (hcount : question.answerCount = 0) (hanswered : question.isAnswered = false) :
      DiscussionEffect s (.createLessonQuestion lms lesson user title body now)
        { s with questions := s.questions ++ [question], nextQuestion := s.nextQuestion + 1 }
  | answered {lms : LmsStore} {q user : ℕ} {body : String} {isInstructorAnswer : Bool}
      {parentId : Option ℕ} {now : ℕ} (answer : LessonAnswer)
      (hquestion : ∃ question ∈ s.questions, question.pk = q)
      (htarget : s.replyTarget q parentId = .ok (answer.parent, answer.replyTo))
      (hpk : answer.pk = s.nextAnswer) (hq : answer.question = q)
      (haccepted : answer.isAccepted = false) (created : DiscussionStore)
      (hcreated : created =
        { s with answers := s.answers ++ [answer], nextAnswer := s.nextAnswer + 1 }) :
      DiscussionEffect s (.createLessonAnswer lms q user body isInstructorAnswer parentId now)
        (created.saveQuestion q fun question =>
          { question with answerCount := created.visibleAnswers q, lastActivityAt := now })
  | accepted {q k : ℕ} {user : DiscussionUser} (answer : LessonAnswer) (ha : answer ∈ s.answers)
      (hpk : answer.pk = k) (hq : answer.question = q) :
      DiscussionEffect s (.acceptLessonAnswer q k user)
        (((s.clearAccepted q).saveAnswer k fun answer =>
          { answer with isAccepted := true }).saveQuestion q fun question =>
            { question with isAnswered := true })
  | questionEdited {call : DiscussionCall} (q : ℕ) (f : LessonQuestion → LessonQuestion)
      (hcall : call.weighsAnswers = false)
      (hf : ∀ question, (f question).pk = question.pk ∧
        (f question).answerCount = question.answerCount ∧
        (f question).isAnswered = question.isAnswered) :
      DiscussionEffect s call (s.saveQuestion q f)
  | questionRemoved {q : ℕ} {user : DiscussionUser}
      (hnone : s.answers.any (DiscussionStore.visibleIn q) = false) :
      DiscussionEffect s (.deleteLessonQuestion q user)
        { s.removeAnswers (s.collected
            ((s.answers.filter fun answer => answer.question == q).map LessonAnswer.pk)) with
          questions := s.questions.filter fun question => question.pk != q }
  | answerEdited {k : ℕ} {user : DiscussionUser} {body : String} {now : ℕ}
      (answer : LessonAnswer) (ha : answer ∈ s.answers) (hpk : answer.pk = k) :
      DiscussionEffect s (.updateLessonAnswer k user body now) (s.saveAnswer k fun answer =>
        { answer with body := pyStrip body, editedAt := some now })
  | tombstoned {k : ℕ} {user : DiscussionUser} (answer : LessonAnswer) (ha : answer ∈ s.answers)
      (hpk : answer.pk = k) (hchildren : s.hasVisibleChildren k = true) :
      DiscussionEffect s (.deleteLessonAnswer k user) (s.saveAnswer k fun answer =>
        { answer with status := .deleted })
  | answerRemoved {k : ℕ} {user : DiscussionUser} (answer : LessonAnswer) (ha : answer ∈ s.answers)
      (hpk : answer.pk = k) (hchildren : s.hasVisibleChildren k = false)
      (removed : DiscussionStore) (hremoved : removed = s.removeAnswers (s.collected [k])) :
      DiscussionEffect s (.deleteLessonAnswer k user)
        (removed.saveQuestion answer.question fun question =>
          { question with answerCount := removed.visibleAnswers answer.question })
  | moderated {k : ℕ} {text : String} {isAccepted : Option Bool} (answer : LessonAnswer)
      (ha : answer ∈ s.answers) (hpk : answer.pk = k) (status : DiscussionStatus)
      (hstatus : DiscussionStatus.ofValue? text = some status) (cleared : DiscussionStore)
      (hcleared : cleared = if isAccepted = some true then
        (s.clearAccepted answer.question).saveQuestion answer.question fun question =>
          { question with isAnswered := true } else s) :
      DiscussionEffect s (.moderateLessonAnswer k text isAccepted)
        (cleared.saveAnswer k fun stored =>
          { stored with status := status, isAccepted := isAccepted.getD stored.isAccepted })

section inversion

variable {s s' : DiscussionStore} {q k : ℕ}

theorem questionOf_some {question : LessonQuestion} (h : s.questionOf q = some question) :
    question ∈ s.questions ∧ question.pk = q :=
  ⟨List.mem_of_find?_eq_some h, by simpa using List.find?_some h⟩

theorem answerOf_some {answer : LessonAnswer} (h : s.answerOf k = some answer) :
    answer ∈ s.answers ∧ answer.pk = k :=
  ⟨List.mem_of_find?_eq_some h, by simpa using List.find?_some h⟩

theorem createLessonAnswer_effect {lms : LmsStore} {user : ℕ} {body : String}
    {isInstructorAnswer : Bool} {parentId : Option ℕ} {now : ℕ}
    (h : s.createLessonAnswer lms q user body isInstructorAnswer parentId now = .ok s') :
    DiscussionEffect s (.createLessonAnswer lms q user body isInstructorAnswer parentId now) s' := by
  unfold DiscussionStore.createLessonAnswer at h
  split at h
  · cases h
  · rename_i question hquestion
    obtain ⟨hmem, hpk⟩ := questionOf_some hquestion
    obtain ⟨_, -, h⟩ := except_bind_ok_iff.mp h
    obtain ⟨⟨parent, replyTo⟩, htarget, h⟩ := except_bind_ok_iff.mp h
    obtain rfl := Except.ok.inj h
    exact .answered _ ⟨question, hmem, hpk⟩ htarget rfl rfl rfl _ rfl

theorem acceptLessonAnswer_effect {user : DiscussionUser}
    (h : s.acceptLessonAnswer q k user = .ok s') :
    DiscussionEffect s (.acceptLessonAnswer q k user) s' := by
  unfold DiscussionStore.acceptLessonAnswer at h
  split at h
  · rename_i question answer hquestion hanswer
    obtain ⟨hmem, hpk⟩ := answerOf_some hanswer
    obtain ⟨hq, h⟩ := checkThat_bind_ok_iff.mp h
    obtain ⟨-, h⟩ := checkThat_bind_ok_iff.mp h
    obtain rfl := Except.ok.inj h
    exact .accepted answer hmem hpk hq
  · cases h

theorem deleteLessonQuestion_effect {user : DiscussionUser}
    (h : s.deleteLessonQuestion q user = .ok s') :
    DiscussionEffect s (.deleteLessonQuestion q user) s' := by
  unfold DiscussionStore.deleteLessonQuestion at h
  split at h
  · cases h
  · obtain ⟨_, -, h⟩ := except_bind_ok_iff.mp h
    obtain ⟨-, h⟩ := checkThat_bind_ok_iff.mp h
    split at h
    · obtain rfl := Except.ok.inj h
      exact .questionEdited q _ rfl fun _ => ⟨rfl, rfl, rfl⟩
    · rename_i hnone
      obtain rfl := Except.ok.inj h
      exact .questionRemoved (Bool.eq_false_iff.mpr hnone)

theorem deleteLessonAnswer_effect {user : DiscussionUser}
    (h : s.deleteLessonAnswer k user = .ok s') :
    DiscussionEffect s (.deleteLessonAnswer k user) s' := by
  unfold DiscussionStore.deleteLessonAnswer at h
  split at h
  · cases h
  · rename_i answer hanswer
    obtain ⟨hmem, hpk⟩ := answerOf_some hanswer
    obtain ⟨_, -, h⟩ := except_bind_ok_iff.mp h
    obtain ⟨-, h⟩ := checkThat_bind_ok_iff.mp h
    split at h
    · rename_i hchildren
      obtain rfl := Except.ok.inj h
      exact .tombstoned answer hmem hpk hchildren
    · rename_i hchildren
      obtain rfl := Except.ok.inj h
      exact .answerRemoved answer hmem hpk (Bool.eq_false_iff.mpr hchildren) _ rfl

theorem moderateLessonAnswer_effect {text : String} {isAccepted : Option Bool}
    (h : s.moderateLessonAnswer k text isAccepted = .ok s') :
    DiscussionEffect s (.moderateLessonAnswer k text isAccepted) s' := by
  unfold DiscussionStore.moderateLessonAnswer at h
  split at h
  · cases h
  · rename_i answer hanswer
    obtain ⟨hmem, hpk⟩ := answerOf_some hanswer
    split at h
    · cases h
    · rename_i status hstatus
      obtain rfl := Except.ok.inj h
      exact .moderated answer hmem hpk status hstatus _ rfl

/-- **Inversion.** An accepted call has one of the effects. -/
theorem discussionCall_effect {call : DiscussionCall} (h : discussionCall s call = .ok s') :
    DiscussionEffect s call s' := by
  cases call with
  | createLessonQuestion lms lesson user title body now =>
      obtain ⟨_, -, h⟩ := except_bind_ok_iff.mp h
      obtain ⟨-, h⟩ := checkThat_bind_ok_iff.mp h
      obtain rfl := Except.ok.inj h
      exact .asked _ rfl rfl rfl
  | createLessonAnswer => exact createLessonAnswer_effect h
  | acceptLessonAnswer => exact acceptLessonAnswer_effect h
  | updateLessonQuestion q user title body now =>
      replace h : s.updateLessonQuestion q user title body now = .ok s' := h
      unfold DiscussionStore.updateLessonQuestion at h
      split at h
      · cases h
      · obtain ⟨_, -, h⟩ := except_bind_ok_iff.mp h
        obtain ⟨-, h⟩ := checkThat_bind_ok_iff.mp h
        obtain ⟨-, h⟩ := checkThat_bind_ok_iff.mp h
        obtain rfl := Except.ok.inj h
        exact .questionEdited q _ rfl fun _ => ⟨rfl, rfl, rfl⟩
  | deleteLessonQuestion => exact deleteLessonQuestion_effect h
  | updateLessonAnswer k user body now =>
      replace h : s.updateLessonAnswer k user body now = .ok s' := h
      unfold DiscussionStore.updateLessonAnswer at h
      split at h
      · cases h
      · rename_i answer hanswer
        obtain ⟨hmem, hpk⟩ := answerOf_some hanswer
        obtain ⟨_, -, h⟩ := except_bind_ok_iff.mp h
        obtain ⟨-, h⟩ := checkThat_bind_ok_iff.mp h
        obtain rfl := Except.ok.inj h
        exact .answerEdited answer hmem hpk
  | deleteLessonAnswer => exact deleteLessonAnswer_effect h
  | moderateLessonQuestion q text isPinned =>
      replace h : s.moderateLessonQuestion q text isPinned = .ok s' := h
      unfold DiscussionStore.moderateLessonQuestion at h
      split at h
      · cases h
      · split at h
        · cases h
        · obtain rfl := Except.ok.inj h
          exact .questionEdited q _ rfl fun _ => ⟨rfl, rfl, rfl⟩
  | moderateLessonAnswer => exact moderateLessonAnswer_effect h

end inversion

end SetadJang.Lms
