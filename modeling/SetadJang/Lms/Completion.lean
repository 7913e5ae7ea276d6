import Mathlib.Data.List.Perm.Subperm
import SetadJang.Lms.Model
import SetadJang.Framework.Runs

/-!
# Earning a course

`_sync_enrollment_progress` completes an enrollment when its completed rows are at least
as many as the active lessons of the course.  The rows are those of all lessons the
learner ever completed, the lessons only the active ones: once a completed lesson is
deleted, its row stands in for a lesson that was never watched.  As long as no such row
is left, the completed lessons are active lessons, and counting them is enough.
-/

namespace SetadJang.Lms

open SetadJang.Framework

/-! ## Runs -/

structure LmsSys where
  store : LmsStore
  clock : ℕ
deriving DecidableEq, Repr

inductive LmsAct where
  | tick (ms : ℕ)
  | enroll (user course : ℕ) (profileComplete : Bool)
  | createLesson (lesson : Lesson)
  | updateLesson (l : ℕ) (fields : LmsStore.LessonFields)
  | deleteLesson (l : ℕ)
  | openMedia (e l : ℕ)
  | updateProgress (e l : ℕ) (watchedSeconds : ℤ) (lastPositionSeconds : Option ℤ)
      (markCompleted mediaOpened : Bool)
deriving DecidableEq, Repr

namespace LmsSys

/-- A service that raises is rolled back. -/
def commit (s : LmsSys) : Except LmsError LmsStore → LmsSys
  | .ok store => { s with store := store }
  | .error _ => s

def step (s : LmsSys) : LmsAct → LmsSys
  | .tick ms => { s with clock := s.clock + ms }
  | .enroll user course profileComplete =>
      s.commit (s.store.enrollUserInCourse user course profileComplete)
  | .createLesson lesson => s.commit (s.store.createLesson lesson)
  | .updateLesson l fields => s.commit (s.store.updateLesson l fields)
  | .deleteLesson l => s.commit (s.store.deleteLesson l)
  | .openMedia e l => s.commit (s.store.stampMediaOpened s.clock e l)
  | .updateProgress e l watchedSeconds lastPositionSeconds markCompleted mediaOpened =>
      s.commit (s.store.updateLessonProgress s.clock e l watchedSeconds lastPositionSeconds
        markCompleted mediaOpened)

/-- Courses and enrollments without lessons. -/
def start (courses : List Course) (enrollments : List Enrollment) (staff : List ℕ) (clock : ℕ) :
    LmsSys :=
  ⟨⟨courses, [], enrollments, [], staff⟩, clock⟩

end LmsSys

/-- Every active lesson of the enrollment's course is completed by it. -/
def Earned (s : LmsStore) (e : ℕ) (enrollment : Enrollment) : Prop :=
  ∀ l ∈ s.activeLessons enrollment.course, ∃ row ∈ s.progress,
    row.enrollment = e ∧ row.lesson = l ∧ row.isCompleted = true

/-- A learner's event on an ACTIVE enrollment is on an active lesson, and finds no
completed row of an inactive one. -/
def NoStaleCompletion (s : LmsSys) : LmsAct → Prop
  | .updateProgress e l _ _ _ _ =>
      (s.store.enrollments[e]?).any (fun enrollment => enrollment.status == .active) = true →
        (s.store.lessons[l]?).any Lesson.isActive = true ∧
        ∀ row ∈ s.store.progress, row.enrollment = e → row.isCompleted = true →
          (s.store.lessons[row.lesson]?).any Lesson.isActive = true
  | _ => True

instance decidableNoStaleCompletion (s : LmsSys) : ∀ a, Decidable (NoStaleCompletion s a)
  | .updateProgress _ _ _ _ _ _ =>
      inferInstanceAs (Decidable (_ → _ ∧ ∀ row ∈ s.store.progress, _ → _ → _))
  | .tick _ | .enroll _ _ _ | .createLesson _ | .updateLesson _ _ | .deleteLesson _
  | .openMedia _ _ => isTrue trivial

/-! ## What the services write -/

section Writes

variable {s s' : LmsStore}

theorem createLesson_ok {lesson : Lesson} (h : s.createLesson lesson = .ok s') :
    s'.lessons = s.lessons ++ [lesson] ∧ s'.enrollments = s.enrollments ∧
      s'.progress = s.progress := by
  unfold LmsStore.createLesson at h
  split at h
  · cases h
  · cases h
    exact ⟨rfl, rfl, rfl⟩

theorem updateLesson_ok {l : ℕ} {fields : LmsStore.LessonFields}
    (h : s.updateLesson l fields = .ok s') :
    s'.lessons = s.lessons.modify l fields.apply ∧ s'.enrollments = s.enrollments ∧
      s'.progress = s.progress := by
  unfold LmsStore.updateLesson at h
  split at h
  · cases h
  · split at h
    · cases h
    · dsimp only at h
      split at h <;> cases h <;> exact ⟨rfl, rfl, rfl⟩

theorem deleteLesson_ok {l : ℕ} (h : s.deleteLesson l = .ok s') :
    s'.lessons = s.lessons.modify l (fun lesson => { lesson with isActive := false }) ∧
      s'.enrollments = s.enrollments ∧ s'.progress = s.progress := by
  unfold LmsStore.deleteLesson at h
  split at h
  · cases h
  · cases h
    exact ⟨rfl, rfl, rfl⟩

theorem enroll_ok {user c : ℕ} {profileComplete : Bool}
    (h : s.enrollUserInCourse user c profileComplete = .ok s') :
    s'.lessons = s.lessons ∧ s'.progress = s.progress ∧
      (s'.enrollments = s.enrollments ∨
        ∃ enrollment, s'.enrollments = s.enrollments ++ [enrollment]) := by
  unfold LmsStore.enrollUserInCourse at h
  split at h
  · cases h
  · split at h
    · cases h
    · split at h
      · cases h
      · split at h
        · cases h
          exact ⟨rfl, rfl, Or.inl rfl⟩
        · split at h
          · cases h
          · cases h
            exact ⟨rfl, rfl, Or.inr ⟨_, rfl⟩⟩

/-- A key `(enrollment, lesson)` within one course. -/
def Placed (s : LmsStore) (row : LessonProgress) : Prop :=
  ∃ enrollment lesson, s.enrollments[row.enrollment]? = some enrollment ∧
    s.lessons[row.lesson]? = some lesson ∧ lesson.course = enrollment.course

/-- The row that `get_or_create` returns is under its key. -/
theorem progressOf_getD (s : LmsStore) (lesson : Lesson) (e l now : ℕ) :
    ((s.progressOf e l).getD (LmsStore.newProgress lesson e l now)).enrollment = e ∧
      ((s.progressOf e l).getD (LmsStore.newProgress lesson e l now)).lesson = l := by
  cases hrow : s.progressOf e l with
  | none => exact ⟨rfl, rfl⟩
  | some row =>
      have hkey := List.find?_some hrow
      simp only [Bool.and_eq_true, beq_iff_eq] at hkey
      exact hkey

theorem stampMediaOpened_ok {now e l : ℕ} (h : s.stampMediaOpened now e l = .ok s') :
    s' = s ∨ ∃ row, Placed s row ∧ s' = s.saveProgress row := by
  unfold LmsStore.stampMediaOpened at h
  split at h
  · rename_i enrollment lesson henrollment hlesson
    split at h
    · cases h
      exact Or.inl rfl
    · rename_i hguard
      right
      cases hopen : s.ensureLessonSequenceOpen lesson e enrollment with
      | error error =>
          rw [hopen] at h
          cases h
      | ok _ =>
          rw [hopen] at h
          cases h
          obtain ⟨hkey, hkey'⟩ := progressOf_getD s lesson e l now
          refine ⟨_, ⟨enrollment, lesson, ?_, ?_, ?_⟩, rfl⟩
          · exact (congrArg _ hkey).trans henrollment
          · exact (congrArg _ hkey').trans hlesson
          · simp only [Bool.or_eq_true, Bool.not_eq_true', Bool.and_eq_false_iff, not_or,
              Bool.not_eq_false, beq_iff_eq] at hguard
            grind
  · cases h

/-- The row an event records. -/
def eventRow (s : LmsStore) (now e l : ℕ) (lesson : Lesson) (watchedSeconds : ℤ)
    (lastPositionSeconds : Option ℤ) (markCompleted mediaOpened : Bool) : LessonProgress :=
  LmsStore.recordEvent lesson now watchedSeconds lastPositionSeconds markCompleted mediaOpened
    ((s.progressOf e l).getD (LmsStore.newProgress lesson e l now))

/-- An accepted event: what it has checked, and what it writes. -/
theorem updateLessonProgress_event {now e l : ℕ} {watchedSeconds : ℤ}
    {lastPositionSeconds : Option ℤ} {markCompleted mediaOpened : Bool}
    (h : s.updateLessonProgress now e l watchedSeconds lastPositionSeconds markCompleted
      mediaOpened = .ok s') :
    ∃ enrollment lesson, s.enrollments[e]? = some enrollment ∧ s.lessons[l]? = some lesson ∧
      enrollment.isActive = true ∧ lesson.course = enrollment.course ∧
      s' = ((s.saveProgress (eventRow s now e l lesson watchedSeconds lastPositionSeconds
        markCompleted mediaOpened)).saveLastAccessed e l).syncEnrollmentProgress now e enrollment := by
  unfold LmsStore.updateLessonProgress at h
  split at h
  · rename_i enrollment lesson henrollment hlesson
    split at h
    · cases h
    · rename_i hactive
      split at h
      · cases h
      · split at h
        · cases h
        · rename_i hcourse
          cases hopen : s.ensureLessonSequenceOpen lesson e enrollment with
          | error error =>
              rw [hopen] at h
              cases h
          | ok _ =>
              rw [hopen] at h
              dsimp only [bind, Except.bind] at h
              split at h
              · cases h
              · split at h
                · cases h
                · cases h
                  refine ⟨enrollment, lesson, henrollment, hlesson, ?_, not_not.mp hcourse, rfl⟩
                  simpa using hactive
  · cases h

/-- What an accepted event writes. -/
theorem updateLessonProgress_ok {now e l : ℕ} {watchedSeconds : ℤ} {lastPositionSeconds : Option ℤ}
    {markCompleted mediaOpened : Bool}
    (h : s.updateLessonProgress now e l watchedSeconds lastPositionSeconds markCompleted
      mediaOpened = .ok s') :
    ∃ enrollment lesson row, s.enrollments[e]? = some enrollment ∧ s.lessons[l]? = some lesson ∧
      lesson.course = enrollment.course ∧ row.enrollment = e ∧ row.lesson = l ∧
      s' = ((s.saveProgress row).saveLastAccessed e l).syncEnrollmentProgress now e enrollment := by
  obtain ⟨enrollment, lesson, henrollment, hlesson, -, hcourse, rfl⟩ := updateLessonProgress_event h
  obtain ⟨hkey, hkey'⟩ := progressOf_getD s lesson e l now
  exact ⟨enrollment, lesson, eventRow s now e l lesson watchedSeconds lastPositionSeconds
    markCompleted mediaOpened, henrollment, hlesson, hcourse, hkey, hkey', rfl⟩

end Writes

/-! ## The keys of the progress rows -/

/-- The keys of the progress rows are distinct, and each is within one course. -/
structure ProgressOk (s : LmsStore) : Prop where
  keys : (s.progress.map fun row => (row.enrollment, row.lesson)).Nodup
  placed : ∀ row ∈ s.progress, Placed s row

/-- The rows keep their course. -/
def KeepCourse {α : Type} (course : α → ℕ) : List α → List α → Prop :=
  Evolves fun a b => course b = course a

section KeepCourse

variable {α : Type} {course : α → ℕ} {xs ys : List α}

theorem keepCourse_of_eq (h : ys = xs) : KeepCourse course xs ys := by
  subst h
  exact evolves_refl (R := fun a b => course b = course a) (fun _ => rfl) ys

theorem keepCourse_of_append {a : α} (h : ys = xs ++ [a]) : KeepCourse course xs ys := by
  subst h
  exact evolves_append (R := fun a b => course b = course a) (fun _ => rfl) xs a

theorem keepCourse_of_modify {k : ℕ} {f : α → α} (h : ys = xs.modify k f)
    (hf : ∀ a, course (f a) = course a) : KeepCourse course xs ys := by
  subst h
  exact evolves_modify (R := fun a b => course b = course a) (fun _ => rfl) fun a _ => hf a

end KeepCourse

/-- The two saves of the enrollment in an event. -/
theorem event_keepCourse (s : LmsStore) (now e l : ℕ) (row : LessonProgress)
    (enrollment : Enrollment) :
    KeepCourse Enrollment.course s.enrollments
      (((s.saveProgress row).saveLastAccessed e l).syncEnrollmentProgress now e
        enrollment).enrollments := by
  have haccessed : KeepCourse Enrollment.course s.enrollments
      ((s.saveProgress row).saveLastAccessed e l).enrollments :=
    keepCourse_of_modify rfl fun _ => rfl
  have hsynced : KeepCourse Enrollment.course ((s.saveProgress row).saveLastAccessed e l).enrollments
      (((s.saveProgress row).saveLastAccessed e l).syncEnrollmentProgress now e
        enrollment).enrollments :=
    keepCourse_of_modify rfl fun _ => rfl
  exact haccessed.trans (fun _ _ _ hab hbc => hbc.trans hab) hsynced

section Keys

variable {s s' : LmsStore}

/-- A row after a save: the saved one, or another one. -/
theorem mem_saveProgress {row old : LessonProgress} (h : old ∈ (s.saveProgress row).progress) :
    old = row ∨ old ∈ s.progress := by
  unfold LmsStore.saveProgress at h
  dsimp only at h
  split at h
  · obtain ⟨before, hbefore, rfl⟩ := List.mem_map.mp h
    split
    · exact Or.inl rfl
    · exact Or.inr hbefore
  · rcases List.mem_append.mp h with hold | hnew
    · exact Or.inr hold
    · exact Or.inl (List.mem_singleton.mp hnew)

/-- A save keeps the keys distinct. -/
theorem saveProgress_keys {row : LessonProgress}
    (h : (s.progress.map fun row => (row.enrollment, row.lesson)).Nodup) :
    ((s.saveProgress row).progress.map fun row => (row.enrollment, row.lesson)).Nodup := by
  unfold LmsStore.saveProgress
  dsimp only
  split
  · rw [List.map_map]
    convert h using 1
    apply List.map_congr_left
    intro old _
    by_cases hkey : old.enrollment = row.enrollment ∧ old.lesson = row.lesson
    · simp [hkey]
    · simp [hkey]
  · rename_i hnew
    rw [List.map_append, List.map_singleton]
    refine List.Nodup.append h (List.nodup_singleton _) ?_
    rw [List.disjoint_singleton]
    intro hmem
    obtain ⟨old, hold, hkey⟩ := List.mem_map.mp hmem
    obtain ⟨henrollment, hlesson⟩ := Prod.mk.inj hkey
    apply hnew
    rw [LmsStore.progressOf, List.find?_isSome]
    exact ⟨old, hold, by simp [henrollment, hlesson]⟩

/-- Rows stay placed while no lesson and no enrollment leaves its course. -/
theorem placed_evolves {row : LessonProgress}
    (henrollments : KeepCourse Enrollment.course s.enrollments s'.enrollments)
    (hlessons : KeepCourse Lesson.course s.lessons s'.lessons)
    (h : Placed s row) : Placed s' row := by
  obtain ⟨enrollment, lesson, henrollment, hlesson, hcourse⟩ := h
  obtain ⟨enrollment', henrollment', hsame⟩ := henrollments _ _ henrollment
  obtain ⟨lesson', hlesson', hsame'⟩ := hlessons _ _ hlesson
  exact ⟨enrollment', lesson', henrollment', hlesson', by rw [hsame, hsame', hcourse]⟩

/-- A save of a placed row. -/
theorem saveProgress_placed {row : LessonProgress} (hrow : Placed s row) (h : ProgressOk s) :
    ∀ old ∈ (s.saveProgress row).progress, Placed s old := by
  intro old hold
  rcases mem_saveProgress hold with rfl | hold
  · exact hrow
  · exact h.placed old hold

/-- A service that does not touch the rows. -/
theorem ProgressOk.same_progress (h : ProgressOk s) (hprogress : s'.progress = s.progress)
    (henrollments : Evolves (fun a b => b.course = a.course) s.enrollments s'.enrollments)
    (hlessons : KeepCourse Lesson.course s.lessons s'.lessons) :
    ProgressOk s' := by
  constructor
  · rw [hprogress]
    exact h.keys
  · intro row hrow
    rw [hprogress] at hrow
    exact placed_evolves henrollments hlessons (h.placed row hrow)

/-- A service that saves one row. -/
theorem ProgressOk.save (h : ProgressOk s) {row : LessonProgress} (hrow : Placed s row)
    (hprogress : s'.progress = (s.saveProgress row).progress) (hlessons : s'.lessons = s.lessons)
    (henrollments : KeepCourse Enrollment.course s.enrollments s'.enrollments) :
    ProgressOk s' := by
  constructor
  · rw [hprogress]
    exact saveProgress_keys h.keys
  · intro old hold
    rw [hprogress] at hold
    exact placed_evolves henrollments (keepCourse_of_eq hlessons)
      (saveProgress_placed hrow h old hold)

end Keys

theorem commit_cases {s : LmsSys} {result : Except LmsError LmsStore} {P : LmsStore → Prop}
    (hsame : P s.store) (hok : ∀ store, result = .ok store → P store) :
    P (s.commit result).store := by
  cases result with
  | error _ => exact hsame
  | ok store => exact hok store rfl

/-- **Step lemma.** -/
theorem progressOk_step {s : LmsSys} (a : LmsAct) (h : ProgressOk s.store) :
    ProgressOk (s.step a).store := by
  cases a with
  | tick ms => exact h
  | enroll user c profileComplete =>
      apply commit_cases h
      intro store hstore
      obtain ⟨hlessons, hprogress, henrollments | ⟨enrollment, henrollments⟩⟩ := enroll_ok hstore
      · exact h.same_progress hprogress (keepCourse_of_eq henrollments) (keepCourse_of_eq hlessons)
      · exact h.same_progress hprogress (keepCourse_of_append henrollments)
          (keepCourse_of_eq hlessons)
  | createLesson lesson =>
      apply commit_cases h
      intro store hstore
      obtain ⟨hlessons, henrollments, hprogress⟩ := createLesson_ok hstore
      exact h.same_progress hprogress (keepCourse_of_eq henrollments)
        (keepCourse_of_append hlessons)
  | updateLesson l fields =>
      apply commit_cases h
      intro store hstore
      obtain ⟨hlessons, henrollments, hprogress⟩ := updateLesson_ok hstore
      exact h.same_progress hprogress (keepCourse_of_eq henrollments)
        (keepCourse_of_modify hlessons fun _ => rfl)
  | deleteLesson l =>
      apply commit_cases h
      intro store hstore
      obtain ⟨hlessons, henrollments, hprogress⟩ := deleteLesson_ok hstore
      exact h.same_progress hprogress (keepCourse_of_eq henrollments)
        (keepCourse_of_modify hlessons fun _ => rfl)
  | openMedia e l =>
      apply commit_cases h
      intro store hstore
      rcases stampMediaOpened_ok hstore with rfl | ⟨row, hrow, rfl⟩
      · exact h
      · exact h.save hrow rfl rfl (keepCourse_of_eq rfl)
  | updateProgress e l watchedSeconds lastPositionSeconds markCompleted mediaOpened =>
      apply commit_cases h
      intro store hstore
      obtain ⟨enrollment, lesson, row, henrollment, hlesson, hcourse, rfl, rfl, rfl⟩ :=
        updateLessonProgress_ok hstore
      exact h.save ⟨enrollment, lesson, henrollment, hlesson, hcourse⟩ rfl rfl
        (event_keepCourse _ _ _ _ _ _)

/-- **Run lemma.** -/
theorem progressOk_run (courses : List Course) (enrollments : List Enrollment) (staff : List ℕ)
    (clock : ℕ) (acts : List LmsAct) :
    ProgressOk (run LmsSys.step (LmsSys.start courses enrollments staff clock) acts).store :=
  invariant_run (I := fun s : LmsSys => ProgressOk s.store) (fun _ a h => progressOk_step a h)
    (s := LmsSys.start courses enrollments staff clock)
    ⟨List.nodup_nil, by rintro row ⟨⟩⟩ acts

/-! ## Counting completed lessons -/

section Counting

variable {s : LmsStore} {e : ℕ} {enrollment : Enrollment}

theorem mem_activeLessons {course l : ℕ} :
    l ∈ s.activeLessons course ↔
      ∃ lesson, s.lessons[l]? = some lesson ∧ lesson.course = course ∧ lesson.isActive = true := by
  unfold LmsStore.activeLessons
  rw [List.mem_filter, List.mem_range, Option.any_eq_true]
  simp only [Bool.and_eq_true, beq_iff_eq]
  constructor
  · exact And.right
  · rintro ⟨lesson, hlesson, hrest⟩
    exact ⟨(List.getElem?_eq_some_iff.mp hlesson).1, lesson, hlesson, hrest⟩

theorem mem_completedLessons {l : ℕ} :
    l ∈ s.completedLessons e ↔
      ∃ row ∈ s.progress, row.enrollment = e ∧ row.lesson = l ∧ row.isCompleted = true := by
  simp only [LmsStore.completedLessons, List.mem_map, List.mem_filter, Bool.and_eq_true,
    beq_iff_eq]
  grind

/-- No lesson is completed twice. -/
theorem completedLessons_nodup (h : ProgressOk s) (e : ℕ) : (s.completedLessons e).Nodup := by
  have hsub := (s.progress.filter_sublist (p := fun row => row.enrollment == e && row.isCompleted)
    |>.map fun row => (row.enrollment, row.lesson)).nodup h.keys
  have hkey : (s.progress.filter fun row => row.enrollment == e && row.isCompleted).map
      (fun row => (row.enrollment, row.lesson)) = (s.completedLessons e).map fun l => (e, l) := by
    unfold LmsStore.completedLessons
    rw [List.map_map]
    apply List.map_congr_left
    intro row hrow
    have hrow := (List.mem_filter.mp hrow).2
    simp only [Bool.and_eq_true, beq_iff_eq] at hrow
    simp [hrow.1]
  rw [hkey] at hsub
  exact hsub.of_map _

/-- **Counting is enough** when every completed row is on an active lesson: the completed
lessons are then among the active ones, and as many. -/
theorem earned_of_count (h : ProgressOk s) (henrollment : s.enrollments[e]? = some enrollment)
    (hactive : ∀ row ∈ s.progress, row.enrollment = e → row.isCompleted = true →
      (s.lessons[row.lesson]?).any Lesson.isActive = true)
    (hcount : (s.activeLessons enrollment.course).length ≤ (s.completedLessons e).length) :
    Earned s e enrollment := by
  have hsubset : s.completedLessons e ⊆ s.activeLessons enrollment.course := by
    intro l hl
    obtain ⟨row, hrow, rfl, rfl, hcompleted⟩ := mem_completedLessons.mp hl
    obtain ⟨enrollment', lesson, henrollment', hlesson, hcourse⟩ := h.placed row hrow
    rw [henrollment] at henrollment'
    cases henrollment'
    have hisActive := hactive row hrow rfl hcompleted
    rw [hlesson] at hisActive
    exact mem_activeLessons.mpr ⟨lesson, hlesson, hcourse, hisActive⟩
  have hperm := (List.subperm_of_subset (completedLessons_nodup h e) hsubset).perm_of_length_le
    hcount
  intro l hl
  exact mem_completedLessons.mp (hperm.mem_iff.mpr hl)

/-- The gate of the quiz is open for whoever has earned the course. -/
theorem lessonsRemaining_of_earned (h : Earned s e enrollment) (other : Enrollment) :
    s.quizLessonsRemaining enrollment.course (some (e, other)) = 0 := by
  have hnone : ((s.activeLessons enrollment.course).filter fun l =>
      !(s.completedLessons e).contains l) = [] := by
    rw [List.filter_eq_nil_iff]
    intro l hl
    simp [mem_completedLessons.mpr (h l hl)]
  show (if other.status = .completed then 0 else _) = 0
  split
  · rfl
  · rw [hnone]
    rfl

/-- What a switch to COMPLETED has counted. -/
theorem count_of_sync {now : ℕ} {after : Enrollment} (hactive : enrollment.status = .active)
    (hafter : (s.syncEnrollmentProgress now e enrollment).enrollments[e]? = some after)
    (hcompleted : after.status = .completed) :
    (s.activeLessons enrollment.course).length ≤ (s.completedLessons e).length := by
  rcases getElem?_modify_cases hafter with ⟨-, stored, -, rfl⟩ | ⟨hne, -⟩
  · have hlength : ((s.progress.filter fun row => row.enrollment == e).filter
        LessonProgress.isCompleted).length = (s.completedLessons e).length := by
      unfold LmsStore.completedLessons
      rw [List.filter_filter, List.length_map]
      simp only [Bool.and_comm]
    dsimp only at hcompleted
    split at hcompleted
    · rename_i hcompletes
      rw [Bool.and_eq_true, decide_eq_true_eq, hlength] at hcompletes
      exact hcompletes.1.2
    · rw [hactive] at hcompleted
      cases hcompleted
  · exact absurd rfl hne

end Counting

/-! ## Completion is earned -/

/-- Only an event of the enrollment's learner can complete it. -/
theorem completes_of_step {s : LmsSys} {a : LmsAct} {e : ℕ} {before after : Enrollment}
    (hbefore : s.store.enrollments[e]? = some before) (hactive : before.status = .active)
    (hafter : (s.step a).store.enrollments[e]? = some after)
    (hcompleted : after.status = .completed) :
    ∃ l watchedSeconds lastPositionSeconds markCompleted mediaOpened,
      a = .updateProgress e l watchedSeconds lastPositionSeconds markCompleted mediaOpened := by
  have hunchanged : (s.step a).store.enrollments[e]? ≠ s.store.enrollments[e]? := by
    rw [hbefore, hafter]
    rintro ⟨⟩
    rw [hactive] at hcompleted
    cases hcompleted
  have hkept : ∀ {result : Except LmsError LmsStore},
      (∀ store, result = .ok store → store.enrollments = s.store.enrollments) →
      (s.commit result).store.enrollments[e]? = s.store.enrollments[e]? := by
    intro result hresult
    exact commit_cases (P := fun store => store.enrollments[e]? = s.store.enrollments[e]?) rfl
      fun store hstore => by rw [hresult store hstore]
  cases a with
  | tick ms => exact absurd rfl hunchanged
  | enroll user c profileComplete =>
      refine absurd ?_ hunchanged
      refine commit_cases (P := fun store => store.enrollments[e]? = s.store.enrollments[e]?) rfl ?_
      intro store hstore
      obtain ⟨-, -, henrollments | ⟨enrollment, henrollments⟩⟩ := enroll_ok hstore
      · rw [henrollments]
      · rw [henrollments, List.getElem?_append_left (List.getElem?_eq_some_iff.mp hbefore).1]
  | createLesson lesson =>
      exact absurd (hkept fun store hstore => (createLesson_ok hstore).2.1) hunchanged
  | updateLesson l fields =>
      exact absurd (hkept fun store hstore => (updateLesson_ok hstore).2.1) hunchanged
  | deleteLesson l =>
      exact absurd (hkept fun store hstore => (deleteLesson_ok hstore).2.1) hunchanged
  | openMedia e' l =>
      refine absurd (hkept ?_) hunchanged
      intro store hstore
      rcases stampMediaOpened_ok hstore with rfl | ⟨row, -, rfl⟩
      · rfl
      · rfl
  | updateProgress e' l watchedSeconds lastPositionSeconds markCompleted mediaOpened =>
      by_cases he : e' = e
      · exact ⟨l, watchedSeconds, lastPositionSeconds, markCompleted, mediaOpened, by rw [he]⟩
      · refine absurd ?_ hunchanged
        refine commit_cases (P := fun store => store.enrollments[e]? = s.store.enrollments[e]?)
          rfl ?_
        intro store hstore
        obtain ⟨enrollment, lesson, row, -, -, -, -, -, rfl⟩ := updateLessonProgress_ok hstore
        show ((s.store.enrollments.modify e' _).modify e' _)[e]? = s.store.enrollments[e]?
        rw [List.getElem?_modify_ne _ _ he, List.getElem?_modify_ne _ _ he]

/-- **Step lemma.** A switch to COMPLETED is earned where no stale row is counted. -/
theorem earned_step {s : LmsSys} {a : LmsAct} {e : ℕ} {before after : Enrollment}
    (hok : ProgressOk s.store) (ha : NoStaleCompletion s a)
    (hbefore : s.store.enrollments[e]? = some before) (hactive : before.status = .active)
    (hafter : (s.step a).store.enrollments[e]? = some after)
    (hcompleted : after.status = .completed) : Earned (s.step a).store e after := by
  obtain ⟨l, watchedSeconds, lastPositionSeconds, markCompleted, mediaOpened, rfl⟩ :=
    completes_of_step hbefore hactive hafter hcompleted
  have hok' := progressOk_step
    (.updateProgress e l watchedSeconds lastPositionSeconds markCompleted mediaOpened) hok
  obtain ⟨hlesson, hrows⟩ := ha (by rw [hbefore]; simp [hactive])
  cases hresult : s.store.updateLessonProgress s.clock e l watchedSeconds lastPositionSeconds
      markCompleted mediaOpened with
  | error error =>
      have hsame : s.step (.updateProgress e l watchedSeconds lastPositionSeconds markCompleted
          mediaOpened) = s := by
        show s.commit _ = s
        rw [hresult]
        rfl
      -- a refused event switches nothing
      rw [hsame, hbefore] at hafter
      cases hafter
      rw [hactive] at hcompleted
      cases hcompleted
  | ok store =>
      have hstore : (s.step (.updateProgress e l watchedSeconds lastPositionSeconds markCompleted
          mediaOpened)).store = store := by
        show (s.commit _).store = store
        rw [hresult]
        rfl
      rw [hstore] at hafter hok' ⊢
      obtain ⟨enrollment, lesson, row, henrollment, hlesson', -, hkey, rfl, rfl⟩ :=
        updateLessonProgress_ok hresult
      rw [hbefore] at henrollment
      cases henrollment
      have hcourse : after.course = before.course := by
        obtain ⟨stored, hstored, hsame⟩ := event_keepCourse _ s.clock e row.lesson row before _ _
          hbefore
        rw [hafter] at hstored
        cases hstored
        exact hsame
      refine earned_of_count hok' hafter ?_ ?_
      · -- the row of this event is on an active lesson, and so are the older ones
        intro old hold he hcomplete
        rcases mem_saveProgress hold with rfl | hold
        · exact hlesson
        · exact hrows old hold he hcomplete
      · rw [hcourse]
        -- the counts are those of the store before the enrollment is written back
        have hcount := count_of_sync hactive hafter hcompleted
        exact hcount

/-- **Completion is earned.** In every run whose events meet no stale row, each switch of
an ACTIVE enrollment to COMPLETED finds every active lesson completed, so the gate of the
quiz would be open without the switch. -/
theorem completion_earned (courses : List Course) (enrollments : List Enrollment)
    (staff : List ℕ) (clock : ℕ) (acts : List LmsAct)
    (hacts : Along LmsSys.step NoStaleCompletion
      (LmsSys.start courses enrollments staff clock) acts)
    (pre : List LmsAct) (a : LmsAct) (hpre : pre ++ [a] <+: acts) (e : ℕ)
    (before after : Enrollment)
    (hbefore : (run LmsSys.step (LmsSys.start courses enrollments staff clock)
      pre).store.enrollments[e]? = some before)
    (hactive : before.status = .active)
    (hafter : (run LmsSys.step (LmsSys.start courses enrollments staff clock)
      (pre ++ [a])).store.enrollments[e]? = some after)
    (hcompleted : after.status = .completed) :
    Earned (run LmsSys.step (LmsSys.start courses enrollments staff clock)
        (pre ++ [a])).store e after ∧
      (run LmsSys.step (LmsSys.start courses enrollments staff clock)
        (pre ++ [a])).store.quizLessonsRemaining after.course
          (some (e, { after with status := .active })) = 0 := by
  have halong := (along_append _ _ _).mp (along_earlier hacts hpre)
  have hearned : Earned (run LmsSys.step (LmsSys.start courses enrollments staff clock)
      (pre ++ [a])).store e after := by
    rw [run_append] at hafter ⊢
    exact earned_step (progressOk_run courses enrollments staff clock pre) halong.2.1 hbefore
      hactive hafter hcompleted
  exact ⟨hearned, lessonsRemaining_of_earned hearned _⟩

/-- A published course, its learner, and two articles to read. -/
def sampleStart : LmsSys :=
  LmsSys.start [⟨.published, true, 0, 0, 0, 0⟩] [⟨0, 7, .active, true, none, none, 0, 0, 0⟩] [] 0

def sampleLesson (title : String) (order : ℕ) : Lesson :=
  ⟨0, title, order, .article, 0, false, true⟩

/-- Both articles are read. -/
theorem completion_earned_two :
    Earned (run LmsSys.step sampleStart
      [.createLesson (sampleLesson "a" 1), .createLesson (sampleLesson "b" 2),
        .updateProgress 0 0 0 none true false, .updateProgress 0 1 0 none true false]).store 0
      ⟨0, 7, .completed, true, some 0, some 1, 10000, 0, 0⟩ :=
  (completion_earned [⟨.published, true, 0, 0, 0, 0⟩]
    [⟨0, 7, .active, true, none, none, 0, 0, 0⟩] [] 0
    [.createLesson (sampleLesson "a" 1), .createLesson (sampleLesson "b" 2),
      .updateProgress 0 0 0 none true false, .updateProgress 0 1 0 none true false]
    (by decide)
    [.createLesson (sampleLesson "a" 1), .createLesson (sampleLesson "b" 2),
      .updateProgress 0 0 0 none true false]
    (.updateProgress 0 1 0 none true false) (List.prefix_refl _) 0
    ⟨0, 7, .active, true, none, some 0, 5000, 0, 0⟩
    ⟨0, 7, .completed, true, some 0, some 1, 10000, 0, 0⟩
    (by decide) rfl (by decide) rfl).1

/-- The first article is read and then deleted; opening the second one completes the
course, and opens its quiz. -/
theorem deleted_lesson_completes :
    ∃ (pre : List LmsAct) (a : LmsAct) (before after : Enrollment),
      (run LmsSys.step sampleStart pre).store.enrollments[0]? = some before ∧
      before.status = .active ∧
      (run LmsSys.step sampleStart (pre ++ [a])).store.enrollments[0]? = some after ∧
      after.status = .completed ∧
      ¬ Earned (run LmsSys.step sampleStart (pre ++ [a])).store 0 after ∧
      (run LmsSys.step sampleStart pre).store.quizLessonsRemaining 0 (some (0, before)) = 1 ∧
      (run LmsSys.step sampleStart (pre ++ [a])).store.quizLessonsRemaining 0
        (some (0, after)) = 0 := by
  refine ⟨[.createLesson (sampleLesson "a" 1), .createLesson (sampleLesson "b" 2),
    .updateProgress 0 0 0 none true false, .deleteLesson 0],
    .updateProgress 0 1 5 none false false,
    ⟨0, 7, .active, true, none, some 0, 5000, 0, 0⟩,
    ⟨0, 7, .completed, true, some 0, some 1, 0, 5, 0⟩, by decide, rfl, by decide, rfl, ?_,
    by decide, by decide⟩
  unfold Earned
  decide

end SetadJang.Lms
