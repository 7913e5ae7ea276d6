import Mathlib.Data.List.MinMax
import SetadJang.Framework.Txn
import SetadJang.Lms.Completion

/-!
# Progress events in any order

A player reports how far a video or audio lesson has been watched, and its reports come late,
twice and out of order.  `update_lesson_progress` keeps the greatest of them, cut to the
duration of the lesson; percentage and completion are functions of it.
-/

namespace SetadJang.Lms

open SetadJang.Framework

/-! ## The percentage grows with the time watched -/

theorem quantize_mono {a a' : ℕ} (b : ℕ) (h : a ≤ a') : quantize a b ≤ quantize a' b := by
  have hfloor : a / b ≤ a' / b := Nat.div_le_div_right h
  have hle : quantize a b ≤ a / b + 1 := by
    unfold quantize
    split <;> omega
  have hge : a' / b ≤ quantize a' b := by
    unfold quantize
    split <;> omega
  rcases hfloor.lt_or_eq with hlt | heq
  · omega
  · -- the same floor: the remainders are in the order of the numbers
    have hrest : a % b ≤ a' % b := by
      have hdiv := Nat.div_add_mod a b
      have hdiv' := Nat.div_add_mod a' b
      rw [heq] at hdiv
      omega
    unfold quantize
    rw [heq]
    split_ifs <;> omega

theorem calculatePercent_mono {w w' : ℕ} (d : ℕ) (h : w ≤ w') :
    calculatePercent w d ≤ calculatePercent w' d := by
  unfold calculatePercent
  split_ifs
  · exact le_refl _
  · omega
  · exact Nat.zero_le _
  · exact le_refl _
  · exact min_le_min_right _ (quantize_mono d (Nat.mul_le_mul_right _ h))

theorem calculatePercent_le (w d : ℕ) : calculatePercent w d ≤ 10000 := by
  unfold calculatePercent
  split_ifs
  · exact le_refl _
  · exact Nat.zero_le _
  · exact min_le_right _ _

theorem calculatePercent_zero (d : ℕ) : calculatePercent 0 d = 0 := by
  unfold calculatePercent
  split_ifs with hd hpos
  · exact absurd hpos (lt_irrefl 0)
  · rfl
  · have hpos : 0 < d := Nat.pos_of_ne_zero hd
    simp [quantize, hpos]

/-! ## One event -/

/-- The time of an event, cut to the duration when there is one. -/
def cappedSeconds (duration : ℕ) (watchedSeconds : ℤ) : ℕ :=
  if duration = 0 then watchedSeconds.toNat else min watchedSeconds.toNat duration

theorem cappedSeconds_mono (duration : ℕ) {w w' : ℤ} (h : w ≤ w') :
    cappedSeconds duration w ≤ cappedSeconds duration w' := by
  unfold cappedSeconds
  split
  · exact Int.toNat_le_toNat h
  · exact min_le_min_right _ (Int.toNat_le_toNat h)

/-- What a learner is shown of a media lesson watched up to `top`: the seconds, the percentage
and whether it is completed. -/
def mediaProgress (duration top : ℕ) : ℕ × ℕ × Bool :=
  (top, calculatePercent top duration,
    decide (lessonCompletionThresholdPercent ≤ calculatePercent top duration))

/-- What a row shows. -/
def LessonProgress.shown (row : LessonProgress) : ℕ × ℕ × Bool :=
  (row.watchedSeconds, row.progressPercent, row.isCompleted)

theorem shown_eq_iff {row : LessonProgress} {duration top : ℕ} :
    row.shown = mediaProgress duration top ↔
      row.watchedSeconds = top ∧ row.progressPercent = calculatePercent top duration ∧
        row.isCompleted =
          decide (lessonCompletionThresholdPercent ≤ calculatePercent top duration) := by
  unfold LessonProgress.shown mediaProgress
  rw [Prod.mk.injEq, Prod.mk.injEq]

/-- A lesson that is watched. -/
def Lesson.IsMedia (lesson : Lesson) : Prop :=
  lesson.contentType = .video ∨ lesson.contentType = .audio

theorem Lesson.IsMedia.not_manual {lesson : Lesson} (h : lesson.IsMedia) :
    lesson.supportsManualCompletion = false := by
  unfold Lesson.supportsManualCompletion
  rcases h with h | h <;> rw [h] <;> rfl

/-- An event takes the row of a media lesson to the greater of the two times. -/
theorem shown_recordEvent {lesson : Lesson} (hmedia : lesson.IsMedia) {row : LessonProgress}
    {top : ℕ} (hrow : row.shown = mediaProgress lesson.durationSeconds top) (now : ℕ)
    (watchedSeconds : ℤ) (lastPositionSeconds : Option ℤ) (mediaOpened : Bool) :
    (LmsStore.recordEvent lesson now watchedSeconds lastPositionSeconds false mediaOpened
        row).shown =
      mediaProgress lesson.durationSeconds
        (max top (cappedSeconds lesson.durationSeconds watchedSeconds)) := by
  obtain ⟨hwatched, -, hcompleted⟩ := shown_eq_iff.mp hrow
  have hcap : (if lesson.durationSeconds = 0 then watchedSeconds.toNat
      else min watchedSeconds.toNat lesson.durationSeconds) =
        cappedSeconds lesson.durationSeconds watchedSeconds := rfl
  have hgrows := calculatePercent_mono lesson.durationSeconds
    (le_max_left top (cappedSeconds lesson.durationSeconds watchedSeconds))
  simp only [LessonProgress.shown, LmsStore.recordEvent, mediaProgress, hmedia.not_manual, hwatched,
    hcompleted, hcap, Bool.false_and, Bool.false_or, Bool.not_false, Bool.true_and,
    Bool.false_eq_true, if_false, Prod.mk.injEq, true_and]
  -- what was completed stays above the threshold
  rw [← Bool.decide_or, decide_eq_decide]
  omega

/-- The row of a media lesson that no event has reached. -/
theorem shown_newProgress (lesson : Lesson) (e l now : ℕ) :
    (LmsStore.newProgress lesson e l now).shown = mediaProgress lesson.durationSeconds 0 := by
  unfold mediaProgress
  rw [calculatePercent_zero]
  rfl

/-! ## What a call leaves -/

section calls

variable {s s' : LmsStore}

/-- A saved row is found under its key. -/
theorem progressOf_saveProgress (s : LmsStore) (row : LessonProgress) :
    (s.saveProgress row).progressOf row.enrollment row.lesson = some row := by
  have hkey : (row.enrollment == row.enrollment && row.lesson == row.lesson) = true := by simp
  unfold LmsStore.saveProgress
  split
  · rename_i hfound
    obtain ⟨old, hold⟩ := Option.isSome_iff_exists.mp hfound
    unfold LmsStore.progressOf at hold ⊢
    dsimp only
    rw [List.find?_map]
    -- the save keeps the keys, so the same position is found
    have hsame : ((fun found : LessonProgress => found.enrollment == row.enrollment &&
          found.lesson == row.lesson) ∘ fun found : LessonProgress =>
            if found.enrollment = row.enrollment ∧ found.lesson = row.lesson then row else found) =
        fun found => found.enrollment == row.enrollment && found.lesson == row.lesson := by
      funext found
      by_cases hfound : found.enrollment = row.enrollment ∧ found.lesson = row.lesson
      · simp [hfound]
      · simp [hfound]
    have hmatch := List.find?_some hold
    simp only [Bool.and_eq_true, beq_iff_eq] at hmatch
    rw [hsame, hold, Option.map_some, if_pos hmatch]
  · rename_i hfound
    have hnone : s.progress.find? (fun found => found.enrollment == row.enrollment &&
        found.lesson == row.lesson) = none := Option.not_isSome_iff_eq_none.mp hfound
    show (s.progress ++ [row]).find? _ = some row
    rw [List.find?_append, hnone, Option.none_or]
    exact List.find?_cons_of_pos hkey

/-- A media lesson is not completed by hand. -/
theorem not_markCompleted_of_media {now e l : ℕ} {lesson : Lesson} {watchedSeconds : ℤ}
    {lastPositionSeconds : Option ℤ} {markCompleted mediaOpened : Bool}
    (hlesson : s.lessons[l]? = some lesson) (hmedia : lesson.IsMedia)
    (h : s.updateLessonProgress now e l watchedSeconds lastPositionSeconds markCompleted
      mediaOpened = .ok s') : markCompleted = false := by
  unfold LmsStore.updateLessonProgress at h
  rw [hlesson] at h
  cases markCompleted with
  | false => rfl
  | true =>
      exfalso
      cases henrollment : s.enrollments[e]? with
      | none =>
          rw [henrollment] at h
          cases h
      | some enrollment =>
          rw [henrollment] at h
          simp only [hmedia.not_manual, Bool.not_false, Bool.and_self, if_true] at h
          split at h
          · cases h
          · split at h
            · cases h
            · split at h
              · cases h
              · cases hopen : s.ensureLessonSequenceOpen lesson e enrollment with
                | error error =>
                    rw [hopen] at h
                    cases h
                | ok _ =>
                    rw [hopen] at h
                    cases h

/-- The row of the lesson, as a call finds it or makes it. -/
def currentRow (s : LmsStore) (lesson : Lesson) (e l now : ℕ) : LessonProgress :=
  (s.progressOf e l).getD (LmsStore.newProgress lesson e l now)

/-- The lesson has been watched up to `top`. -/
def WatchedTo (s : LmsStore) (lesson : Lesson) (e l top : ℕ) : Prop :=
  ∀ now, (currentRow s lesson e l now).shown = mediaProgress lesson.durationSeconds top

theorem watchedTo_iff_of_found {lesson : Lesson} {e l top : ℕ} {row : LessonProgress}
    (hfound : s.progressOf e l = some row) :
    WatchedTo s lesson e l top ↔ row.shown = mediaProgress lesson.durationSeconds top := by
  unfold WatchedTo currentRow
  simp only [hfound, Option.getD_some, forall_const]

/-- **Step lemma.** An accepted call on a media lesson takes its row to the greater of the two
times, and keeps the lessons. -/
theorem updateLessonProgress_media {now e l : ℕ} {lesson : Lesson} {watchedSeconds : ℤ}
    {lastPositionSeconds : Option ℤ} {markCompleted mediaOpened : Bool} {top : ℕ}
    (hlesson : s.lessons[l]? = some lesson) (hmedia : lesson.IsMedia)
    (hrow : WatchedTo s lesson e l top)
    (h : s.updateLessonProgress now e l watchedSeconds lastPositionSeconds markCompleted
      mediaOpened = .ok s') :
    s'.lessons = s.lessons ∧
      WatchedTo s' lesson e l (max top (cappedSeconds lesson.durationSeconds watchedSeconds)) ∧
      (s'.progressOf e l).isSome = true := by
  obtain rfl := not_markCompleted_of_media hlesson hmedia h
  obtain ⟨enrollment, found, -, hfound, -, -, rfl⟩ := updateLessonProgress_event h
  obtain rfl := Option.some.inj (hlesson.symm.trans hfound)
  -- the row that is saved is found under the key of the call
  have hsaved := progressOf_saveProgress s
    (eventRow s now e l lesson watchedSeconds lastPositionSeconds false mediaOpened)
  have hkey : (eventRow s now e l lesson watchedSeconds lastPositionSeconds false
      mediaOpened).enrollment = e := (progressOf_getD s lesson e l now).1
  have hkey' : (eventRow s now e l lesson watchedSeconds lastPositionSeconds false
      mediaOpened).lesson = l := (progressOf_getD s lesson e l now).2
  rw [hkey, hkey'] at hsaved
  refine ⟨rfl, (watchedTo_iff_of_found hsaved).mpr ?_, Option.isSome_iff_exists.mpr ⟨_, hsaved⟩⟩
  exact shown_recordEvent hmedia (hrow now) now watchedSeconds lastPositionSeconds mediaOpened

end calls

/-! ## Sequences of events -/

/-- One report of the player. -/
structure ProgressEvent where
  now : ℕ
  watchedSeconds : ℤ
  lastPositionSeconds : Option ℤ
  markCompleted : Bool
  mediaOpened : Bool
deriving DecidableEq, Repr

/-- The calls of `update_lesson_progress` for one enrollment and lesson, all of them accepted. -/
def recordAll (s : LmsStore) (e l : ℕ) (events : List ProgressEvent) : Except LmsError LmsStore :=
  events.foldlM (fun s event => s.updateLessonProgress event.now e l event.watchedSeconds
    event.lastPositionSeconds event.markCompleted event.mediaOpened) s

/-- The greatest of the capped times. -/
def topSeconds (duration top : ℕ) (events : List ProgressEvent) : ℕ :=
  events.foldl (fun top event => max top (cappedSeconds duration event.watchedSeconds)) top

theorem le_topSeconds (duration top : ℕ) (events : List ProgressEvent) :
    top ≤ topSeconds duration top events := by
  induction events generalizing top with
  | nil => exact le_refl top
  | cons event events ih => exact (le_max_left _ _).trans (ih _)

theorem topSeconds_append (duration top : ℕ) (pre post : List ProgressEvent) :
    topSeconds duration top (pre ++ post) =
      topSeconds duration (topSeconds duration top pre) post := List.foldl_append

theorem topSeconds_le_iff {duration top bound : ℕ} {events : List ProgressEvent} :
    topSeconds duration top events ≤ bound ↔
      top ≤ bound ∧ ∀ event ∈ events, cappedSeconds duration event.watchedSeconds ≤ bound := by
  induction events generalizing top with
  | nil => simp [topSeconds]
  | cons event events ih =>
      show topSeconds duration _ events ≤ bound ↔ _
      rw [ih, max_le_iff, List.forall_mem_cons, and_assoc]

/-- The capped maximum is the maximum capped. -/
theorem topSeconds_of_max {duration : ℕ} {events : List ProgressEvent} {m : ℤ}
    (hmax : (events.map ProgressEvent.watchedSeconds).max? = some m) :
    topSeconds duration 0 events = cappedSeconds duration m := by
  obtain ⟨hmem, hbound⟩ := List.max?_eq_some_iff.mp hmax
  apply le_antisymm
  · refine topSeconds_le_iff.mpr ⟨Nat.zero_le _, fun event hevent => ?_⟩
    exact cappedSeconds_mono duration (hbound _ (List.mem_map_of_mem hevent))
  · obtain ⟨event, hevent, rfl⟩ := List.mem_map.mp hmem
    exact (topSeconds_le_iff.mp (le_refl (topSeconds duration 0 events))).2 event hevent

/-- **Run lemma.** A sequence of accepted calls takes the row to the greatest time, and leaves
a row unless it is empty. -/
theorem recordAll_media {s s' : LmsStore} {e l : ℕ} {lesson : Lesson}
    (hlesson : s.lessons[l]? = some lesson) (hmedia : lesson.IsMedia) {events : List ProgressEvent}
    {top : ℕ} (hrow : WatchedTo s lesson e l top) (h : recordAll s e l events = .ok s') :
    WatchedTo s' lesson e l (topSeconds lesson.durationSeconds top events) ∧
      (events ≠ [] ∨ (s.progressOf e l).isSome = true → (s'.progressOf e l).isSome = true) := by
  induction events generalizing s top with
  | nil =>
      obtain rfl := Except.ok.inj h
      exact ⟨hrow, fun hfound => hfound.resolve_left fun hne => hne rfl⟩
  | cons event events ih =>
      obtain ⟨t, ht, hrest⟩ := except_bind_ok_iff.mp h
      obtain ⟨hlessons, hnext, hfound⟩ := updateLessonProgress_media hlesson hmedia hrow ht
      obtain ⟨hlast, hkept⟩ := ih (hlessons ▸ hlesson) hnext hrest
      exact ⟨hlast, fun _ => hkept (Or.inr hfound)⟩

/-- **Progress events commute.** After a sequence of accepted calls on a media lesson what is
shown is a function of the duration and the greatest time sent; the percentage is at most 100
and decides completion, and time and completion never go back. -/
theorem progress_events_commute {s s' : LmsStore} {e l : ℕ} {lesson : Lesson}
    (hlesson : s.lessons[l]? = some lesson) (hmedia : lesson.IsMedia)
    (hnew : s.progressOf e l = none) {events : List ProgressEvent}
    (haccepted : recordAll s e l events = .ok s') {m : ℤ}
    (hmax : (events.map ProgressEvent.watchedSeconds).max? = some m) :
    ∃ row, s'.progressOf e l = some row ∧
      row.shown = mediaProgress lesson.durationSeconds (cappedSeconds lesson.durationSeconds m) ∧
      row.progressPercent ≤ 10000 ∧
      (row.isCompleted = true ↔ lessonCompletionThresholdPercent ≤ row.progressPercent) ∧
      ∀ pre, pre <+: events → ∀ s₁ row₁, recordAll s e l pre = .ok s₁ →
        s₁.progressOf e l = some row₁ → row₁.watchedSeconds ≤ row.watchedSeconds ∧
          (row₁.isCompleted = true → row.isCompleted = true) := by
  have hstart : WatchedTo s lesson e l 0 := by
    intro now
    unfold currentRow
    rw [hnew]
    exact shown_newProgress lesson e l now
  -- what a row found after some of the events shows
  have hshown : ∀ pre s₁ row₁, recordAll s e l pre = .ok s₁ → s₁.progressOf e l = some row₁ →
      row₁.shown = mediaProgress lesson.durationSeconds
        (topSeconds lesson.durationSeconds 0 pre) := fun pre s₁ row₁ hpre hrow₁ =>
    (watchedTo_iff_of_found hrow₁).mp (recordAll_media hlesson hmedia hstart hpre).1
  have hne : events ≠ [] := by
    rintro rfl
    cases hmax
  obtain ⟨row, hrow⟩ := Option.isSome_iff_exists.mp
    ((recordAll_media hlesson hmedia hstart haccepted).2 (Or.inl hne))
  have hlast := hshown events s' row haccepted hrow
  obtain ⟨hwatched, hpercent, hcompleted⟩ := shown_eq_iff.mp hlast
  refine ⟨row, hrow, ?_, ?_, ?_, ?_⟩
  · rw [hlast, topSeconds_of_max hmax]
  · rw [hpercent]
    exact calculatePercent_le _ _
  · rw [hcompleted, hpercent, decide_eq_true_iff]
  · rintro pre ⟨post, rfl⟩ s₁ row₁ hpre hrow₁
    obtain ⟨hwatched₁, -, hcompleted₁⟩ := shown_eq_iff.mp (hshown pre s₁ row₁ hpre hrow₁)
    have hle : topSeconds lesson.durationSeconds 0 pre ≤
        topSeconds lesson.durationSeconds 0 (pre ++ post) := by
      rw [topSeconds_append]
      exact le_topSeconds _ _ _
    constructor
    · rw [hwatched₁, hwatched]
      exact hle
    · rw [hcompleted₁, hcompleted, decide_eq_true_iff, decide_eq_true_iff]
      exact fun h => h.trans (calculatePercent_mono _ hle)

/-- A course with one video of 1000 seconds and an enrollment in it. -/
def videoStore : LmsStore :=
  ⟨[⟨.published, true, 1000, 1, 1, 0⟩], [⟨0, "Intro", 1, .video, 1000, false, true⟩],
    [⟨0, 7, .active, true, none, none, 0, 0, 1000⟩], [], []⟩

/-- Reports of a player that rewinds, stalls and overshoots. -/
def playerReports : List ProgressEvent :=
  [⟨10, 400, none, false, false⟩, ⟨20, -5, some 3, false, false⟩, ⟨30, 905, none, false, true⟩,
    ⟨40, 120, some 120, false, false⟩]

/-- The lesson is completed at 90.50 percent, as the third report alone makes it. -/
theorem progress_events_commute_player :
    ∃ s' row, recordAll videoStore 0 0 playerReports = .ok s' ∧ s'.progressOf 0 0 = some row ∧
      row.shown = (905, 9050, true) := by
  have haccepted : (recordAll videoStore 0 0 playerReports).isOk = true := by decide +kernel
  cases hrun : recordAll videoStore 0 0 playerReports with
  | error error =>
      rw [hrun] at haccepted
      cases haccepted
  | ok s' =>
      obtain ⟨row, hrow, hshown, -⟩ := progress_events_commute (e := 0) (l := 0) (m := 905)
        (s := videoStore) rfl (Or.inl rfl) rfl hrun (by decide)
      exact ⟨s', row, rfl, hrow, hshown.trans (by decide)⟩

end SetadJang.Lms
