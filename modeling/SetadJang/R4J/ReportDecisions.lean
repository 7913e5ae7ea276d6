import SetadJang.R4J.Reports

/-!
# A report is decided once

A report is decided by a review or by an approved cancellation.  A service that looks at an
old copy of the report can decide it again.  As long as every commit finds a report whose
status is not final, there is one decision at most: a canceled report leaves the profile as
it was, and a review applies each suggestion at most once.
-/

namespace SetadJang.R4J

open SetadJang.Framework

variable {V : Type} {collation : String → String → Bool}
  {applyField : String → String → Except String V}

/-! ## Decisions -/

def ReportTask.decides : ReportTask → Bool
  | .review _ | .approveCancel _ _ => true
  | .requestCancel | .rejectCancel _ => false

def ReportTask.cancels : ReportTask → Bool
  | .approveCancel _ _ => true
  | _ => false

/-- The call has committed a review or the approval of a cancellation. -/
def ReportCall.decided (call : ReportCall V) : Bool :=
  match call.phase with
  | .ended (.ok ()) => call.task.decides
  | _ => false

/-- The writes of a call that has not ended. -/
def ReportCall.work (call : ReportCall V) : Option (ReportWork V) :=
  match call.phase with
  | .reviewing _ work | .saving work | .saved work _ => some work
  | .ended _ => none

/-- Suggestions of a kind that were applied to the profile. -/
def appliedPhones (profile : Profile V) : List ℕ := profile.phones.filterMap CriminalPhone.source

def appliedAttachments (profile : Profile V) : List ℕ :=
  profile.attachments.filterMap CriminalAttachment.source

/-- One decision at most has taken effect; if a cancellation has, the profile is the one
the report was submitted for; no phone and no attachment was applied twice. -/
structure DecidedOnce (before : Profile V) (s : ReportSys V) : Prop where
  once : OnePer (fun call => call.decided = true) (fun _ => ()) s.calls
  canceled : ∀ call ∈ s.calls, call.decided = true → call.task.cancels = true →
    s.db.profile = before
  phones : (appliedPhones s.db.profile).Nodup
  attachments : (appliedAttachments s.db.profile).Nodup

/-- The step commits a call. -/
def ReportSys.commits (s : ReportSys V) : ReportAct → Bool
  | .advance i _ =>
      match s.calls[i]? with
      | some ⟨_, _, .saved _ _⟩ => true
      | _ => false
  | _ => false

/-- A commit finds a report that is not decided yet. -/
def FindsOpen (s : ReportSys V) (act : ReportAct) : Prop :=
  s.commits act = true → s.db.report.status.isTerminal = false

instance (s : ReportSys V) (act : ReportAct) : Decidable (FindsOpen s act) :=
  inferInstanceAs (Decidable (s.commits act = true → s.db.report.status.isTerminal = false))

/-! ## What a step does -/

variable (collation applyField) in
/-- Phases that a step moves a call to without a commit. -/
inductive ReportMove (s : ReportSys V) (call : ReportCall V) : ReportPhase V → Prop
  | ended {work : ReportWork V} (error : ReportError) (hwork : call.work = some work) :
      ReportMove s call (.ended (.error error))
  | reviewed {part : ReviewSection} {work : ReportWork V} {review : Review}
      {rows db : ReportChildren} {phase : ReportPhase V}
      (hphase : call.phase = .reviewing part work) (htask : call.task = .review review)
      (hsection : reviewSection collation applyField s.db.reportId review rows db work part =
        .ok phase) : ReportMove s call phase
  | saved {work : ReportWork V} {now : ℕ} (hphase : call.phase = .saving work) :
      ReportMove s call (.saved work (call.task.change work now))

variable (collation applyField) in
/-- The state after a step; the flag says whether it commits. -/
inductive ReportEffect (s : ReportSys V) : Bool → ReportSys V → Prop
  | same : ReportEffect s false s
  | loaded (found : ReportInstance) :
      ReportEffect s false { s with instances := s.instances ++ [found] }
  | called (task : ReportTask) (found : ReportInstance) :
      ReportEffect s false { s with calls := s.calls ++ [⟨task, found, task.begin⟩] }
  | moved {i : ℕ} {call : ReportCall V} {phase : ReportPhase V} (hcall : s.calls[i]? = some call)
      (hmove : ReportMove collation applyField s call phase) :
      ReportEffect s false (s.setPhase i call phase)
  | committed {i : ℕ} {call : ReportCall V} {work : ReportWork V} {change : ReportChange}
      (hcall : s.calls[i]? = some call) (hphase : call.phase = .saved work change) :
      ReportEffect s true ({ s with db := work.apply change s.db }.setPhase i call (.ended (.ok ())))

theorem reportEffect_advance {s : ReportSys V} {i : ℕ} {call : ReportCall V}
    (hcall : s.calls[i]? = some call) (now : ℕ) :
    ReportEffect collation applyField s (s.commits (.advance i now))
      (s.advance collation applyField i call now) := by
  simp only [ReportSys.commits, ReportSys.advance, hcall]
  obtain ⟨task, loaded, phase⟩ := call
  cases phase with
  | reviewing part work =>
      dsimp only
      split
      · split
        · exact .moved hcall (.ended _ rfl)
        · rename_i hsection
          exact .moved hcall (.reviewed rfl rfl hsection)
      · exact .same
  | saving work => exact .moved hcall (.saved rfl)
  | saved work change => exact .committed hcall rfl
  | ended result => exact .same

/-- **Step cases.** -/
theorem reportEffect_step (s : ReportSys V) (act : ReportAct) :
    ReportEffect collation applyField s (s.commits act) (s.step collation applyField act) := by
  cases act with
  | load prefetch => exact .loaded _
  | call task j =>
      simp only [ReportSys.step, ReportSys.commits]
      split
      · exact .same
      · split
        · exact .same
        · exact .called _ _
  | advance i now =>
      cases hcall : s.calls[i]? with
      | none =>
          simp only [ReportSys.step, ReportSys.commits, hcall]
          exact .same
      | some call =>
          have h : ReportEffect collation applyField s _ _ := reportEffect_advance hcall now
          simp only [ReportSys.step, hcall]
          exact h
  | rollback i =>
      simp only [ReportSys.step, ReportSys.commits]
      split
      · exact .same
      · rename_i call hcall
        split
        · exact .same
        · rename_i hlive
          obtain ⟨task, loaded, phase⟩ := call
          cases phase with
          | ended result => exact absurd rfl (hlive result)
          | _ => exact .moved hcall (.ended _ rfl)

/-! ## What a transaction holds -/

/-- A loop over suggestions creates a row for each of them at most once. -/
theorem created_sources {α β : Type} {source : β → Option ℕ} {applyCallback : ℕ → Suggestion α → β}
    (hsource : ∀ k row, source (applyCallback k row) = some k) (decisions : List Decision) :
    ∀ queryset : List (Suggestion α × ℕ),
      ((applySuggestionDecisions decisions applyCallback queryset).created.filterMap source).Sublist
        (queryset.map Prod.snd)
  | [] => List.Sublist.slnil
  | (suggestion, k) :: rest => by
      have ih := created_sources hsource decisions rest
      simp only [applySuggestionDecisions, List.map_cons]
      split
      · exact ih.cons k
      · dsimp only
        split_ifs
        · rw [List.filterMap_cons_some (hsource k _)]
          exact ih.cons_cons k
        · exact ih.cons k

@[simp] theorem applyPhoneSuggestion_source (k : ℕ) (suggestion : Suggestion PhoneContent) :
    (applyPhoneSuggestion k suggestion).source = some k := rfl

@[simp] theorem promoteReportAttachment_source (reportId actor k : ℕ)
    (attachment : Suggestion AttachmentContent) :
    (promoteReportAttachment reportId actor k attachment).source = some k := rfl

theorem nodup_positions {α : Type} (rows : List α) : (rows.zipIdx.map Prod.snd).Nodup := by
  rw [List.zipIdx_map_snd]
  exact List.nodup_range'

/-- What a transaction is about to do to the profile. -/
structure WorkFits (task : ReportTask) (work : ReportWork V) : Prop where
  phones : (work.phones.created.filterMap CriminalPhone.source).Nodup
  attachments : (work.attachments.created.filterMap CriminalAttachment.source).Nodup
  idle : (∀ review, task ≠ .review review) → ∀ profile, work.profile profile = profile

theorem workFits_empty (task : ReportTask) : WorkFits task (.empty : ReportWork V) where
  phones := List.nodup_nil
  attachments := List.nodup_nil
  idle _ profile := by simp [ReportWork.profile, ReportWork.empty, Outcome.none]

/-- The loops of a review keep this; each writes its own part. -/
theorem workFits_section {reportId : ℕ} {review : Review} {rows db : ReportChildren}
    {work : ReportWork V} {part : ReviewSection} {phase : ReportPhase V}
    (h : reviewSection collation applyField reportId review rows db work part = .ok phase) :
    ∃ work', (phase = .saving work' ∨ ∃ part', phase = .reviewing part' work') ∧
      (WorkFits (.review review) work → WorkFits (.review review) work') := by
  have hidle : ∀ {P : Prop}, (∀ given, ReportTask.review review ≠ .review given) → P :=
    fun hne => absurd rfl (hne review)
  cases part with
  | fields =>
      simp only [reviewSection] at h
      split_ifs at h
      cases h
      exact ⟨_, Or.inr ⟨_, rfl⟩, fun hwork => ⟨hwork.phones, hwork.attachments, hidle⟩⟩
  | aliases =>
      simp only [reviewSection] at h
      split_ifs at h
      cases h
      exact ⟨_, Or.inr ⟨_, rfl⟩, fun hwork => ⟨hwork.phones, hwork.attachments, hidle⟩⟩
  | phones =>
      simp only [reviewSection] at h
      split_ifs at h
      cases h
      refine ⟨_, Or.inr ⟨_, rfl⟩, fun hwork => ⟨?_, hwork.attachments, hidle⟩⟩
      exact (created_sources applyPhoneSuggestion_source _ _).nodup (nodup_positions rows.phones)
  | socials =>
      simp only [reviewSection] at h
      split_ifs at h
      cases h
      exact ⟨_, Or.inr ⟨_, rfl⟩, fun hwork => ⟨hwork.phones, hwork.attachments, hidle⟩⟩
  | attachments =>
      simp only [reviewSection] at h
      split_ifs at h
      cases h
      refine ⟨_, Or.inl rfl, fun hwork => ⟨hwork.phones, ?_, hidle⟩⟩
      refine (created_sources (promoteReportAttachment_source _ _) _ _).nodup ?_
      rw [List.map_reverse]
      exact List.nodup_reverse.mpr (nodup_positions rows.attachments)

theorem finalStatus_terminal (statuses : List DecisionStatus) :
    (finalStatus statuses).isTerminal = true := by
  unfold finalStatus
  split_ifs <;> rfl

/-- A decision leaves a final status, and the other services leave an open one. -/
theorem change_terminal (task : ReportTask) (work : ReportWork V) (now : ℕ) (report : Report) :
    ((task.change work now).apply report).status.isTerminal = task.decides := by
  cases task with
  | review given => exact finalStatus_terminal _
  | _ => rfl

/-! ## The invariant -/

/-- While nothing is decided the profile is the one at the start; a decision shows in the
status of the report. -/
structure DecisionInv (before : Profile V) (s : ReportSys V) : Prop where
  fresh : appliedPhones before = [] ∧ appliedAttachments before = []
  works : ∀ call ∈ s.calls, ∀ work ∈ call.work, WorkFits call.task work
  changes : ∀ call ∈ s.calls, ∀ work change, call.phase = .saved work change →
    ∀ report, (change.apply report).status.isTerminal = call.task.decides
  terminal : ∀ call ∈ s.calls, call.decided = true → s.db.report.status.isTerminal = true
  untouched : (∀ call ∈ s.calls, call.decided = false) → s.db.profile = before
  result : DecidedOnce before s

theorem sources_cleared {α : Type} {source : α → Option ℕ} {clear : α → α}
    (hclear : ∀ a, source (clear a) = none) (rows : List α) :
    (rows.map clear).filterMap source = [] := by
  simp [List.filterMap_map, hclear]

theorem decisionInv_start (reportId : ℕ) (children : ReportChildren) (profile : Profile V) :
    DecisionInv (ReportSys.start reportId children profile).db.profile
      (ReportSys.start reportId children profile) := by
  have hphones : appliedPhones (ReportSys.start reportId children profile).db.profile = [] :=
    sources_cleared (fun _ => rfl) _
  have hattachments :
      appliedAttachments (ReportSys.start reportId children profile).db.profile = [] :=
    sources_cleared (fun _ => rfl) _
  refine
    { fresh := ⟨hphones, hattachments⟩, works := ?works, changes := ?changes,
      terminal := ?terminal, untouched := fun _ => rfl, result := ?result }
  case works =>
    exact fun _ h => absurd h List.not_mem_nil
  case changes =>
    exact fun _ h => absurd h List.not_mem_nil
  case terminal =>
    exact fun _ h => absurd h List.not_mem_nil
  case result =>
    refine
      { once := onePer_nil, canceled := fun _ h => absurd h List.not_mem_nil, phones := ?phones,
        attachments := ?attachments }
    case phones =>
      rw [hphones]
      exact List.nodup_nil
    case attachments =>
      rw [hattachments]
      exact List.nodup_nil

theorem not_decided_of_work {call : ReportCall V} {work : ReportWork V}
    (h : call.work = some work) : call.decided = false := by
  obtain ⟨task, loaded, phase⟩ := call
  cases phase <;> first | rfl | cases h

/-- A call after one of them was given a new phase. -/
theorem mem_setPhase_cases {s : ReportSys V} {i : ℕ} {call other : ReportCall V}
    {phase : ReportPhase V} (h : other ∈ (s.setPhase i call phase).calls) :
    other = { call with phase := phase } ∨ other ∈ s.calls := by
  rcases List.mem_or_eq_of_mem_set h with h | h
  · exact Or.inr h
  · exact Or.inl h

theorem mem_setPhase_self {s : ReportSys V} {i : ℕ} {call : ReportCall V}
    (hcall : s.calls[i]? = some call) (phase : ReportPhase V) :
    { call with phase := phase } ∈ (s.setPhase i call phase).calls := by
  have hi : i < s.calls.length := (List.getElem?_eq_some_iff.mp hcall).1
  exact List.mem_of_getElem? (List.getElem?_set_self hi)

theorem mem_setPhase_other {s : ReportSys V} {i : ℕ} {call other : ReportCall V}
    (hcall : s.calls[i]? = some call) (hother : other ∈ s.calls) (phase : ReportPhase V) :
    other = call ∨ other ∈ (s.setPhase i call phase).calls := by
  obtain ⟨j, hj⟩ := List.getElem?_of_mem hother
  by_cases hij : i = j
  · subst hij
    exact Or.inl (Option.some.inj (hj.symm.trans hcall))
  · right
    refine List.mem_of_getElem? (i := j) ?_
    rw [ReportSys.setPhase, List.getElem?_set_ne hij, hj]

/-- A move is one of a call that has not ended, and decides nothing. -/
theorem move_undecided {s : ReportSys V} {call : ReportCall V} {phase : ReportPhase V}
    (hmove : ReportMove collation applyField s call phase) :
    call.decided = false ∧ { call with phase := phase }.decided = false := by
  cases hmove with
  | ended error hwork => exact ⟨not_decided_of_work hwork, rfl⟩
  | reviewed hphase htask hsection =>
      refine ⟨by simp [ReportCall.decided, hphase], ?_⟩
      obtain ⟨work', rfl | ⟨part', rfl⟩, -⟩ := workFits_section hsection <;> rfl
  | saved hphase => exact ⟨by simp [ReportCall.decided, hphase], rfl⟩

theorem decisionInv_move {before : Profile V} {s : ReportSys V} {i : ℕ} {call : ReportCall V}
    {phase : ReportPhase V} (hs : DecisionInv before s) (hcall : s.calls[i]? = some call)
    (hmove : ReportMove collation applyField s call phase) :
    DecisionInv before (s.setPhase i call phase) := by
  have hmem : call ∈ s.calls := List.mem_of_getElem? hcall
  obtain ⟨hold, hnew⟩ := move_undecided hmove
  have hdecided : ∀ other ∈ (s.setPhase i call phase).calls, other.decided = true →
      other ∈ s.calls := by
    intro other hother hdec
    rcases mem_setPhase_cases hother with rfl | h
    · rw [hnew] at hdec
      cases hdec
    · exact h
  refine { hs with
      works := ?works, changes := ?changes, terminal := ?terminal, untouched := ?untouched,
      result := ?result }
  case works =>
    intro other hother work hwork
    rcases mem_setPhase_cases hother with rfl | h
    · cases hmove with
      | ended error _ => cases hwork
      | reviewed hphase htask hsection =>
          have hfits := hs.works call hmem _ (by simp only [ReportCall.work, hphase]; rfl)
          rw [htask] at hfits
          obtain ⟨work', hwork', hkeep⟩ := workFits_section hsection
          show WorkFits call.task work
          rw [htask]
          rcases hwork' with rfl | ⟨part', rfl⟩
          · cases hwork
            exact hkeep hfits
          · cases hwork
            exact hkeep hfits
      | saved hphase =>
          cases hwork
          exact hs.works call hmem _ (by simp only [ReportCall.work, hphase]; rfl)
    · exact hs.works other h work hwork
  case changes =>
    intro other hother work change hphase'
    rcases mem_setPhase_cases hother with rfl | h
    · cases hmove with
      | ended error _ => cases hphase'
      | reviewed hphase htask hsection =>
          obtain ⟨work', rfl | ⟨part', rfl⟩, -⟩ := workFits_section hsection <;> cases hphase'
      | saved hphase =>
          cases hphase'
          exact change_terminal call.task work _
    · exact hs.changes other h work change hphase'
  case terminal =>
    intro other hother hdec
    exact hs.terminal other (hdecided other hother hdec) hdec
  case untouched =>
    intro hnone
    refine hs.untouched fun other hother => ?_
    rcases mem_setPhase_other hcall hother phase with rfl | h
    · exact hold
    · exact hnone other h
  case result =>
    refine ⟨onePer_set hs.result.once fun h => ?_, ?_, hs.result.phones, hs.result.attachments⟩
    · rw [hnew] at h
      cases h
    · intro other hother hdec
      exact hs.result.canceled other (hdecided other hother hdec) hdec

/-- Only a review touches the profile. -/
theorem profile_of_not_review {task : ReportTask} {work : ReportWork V} (hwork : WorkFits task work)
    (htask : task.cancels = true ∨ task.decides = false) (profile : Profile V) :
    work.profile profile = profile := by
  refine hwork.idle (fun review heq => ?_) profile
  subst heq
  rcases htask with h | h <;> cases h

theorem decisionInv_commit {before : Profile V} {s : ReportSys V} {i : ℕ} {call : ReportCall V}
    {work : ReportWork V} {change : ReportChange} (hs : DecisionInv before s)
    (hopen : s.db.report.status.isTerminal = false) (hcall : s.calls[i]? = some call)
    (hphase : call.phase = .saved work change) :
    DecisionInv before
      ({ s with db := work.apply change s.db }.setPhase i call (.ended (.ok ()))) := by
  have hmem : call ∈ s.calls := List.mem_of_getElem? hcall
  have hwork : WorkFits call.task work :=
    hs.works call hmem work (by simp [ReportCall.work, hphase])
  have hnone : ∀ other ∈ s.calls, other.decided = false := by
    intro other hother
    by_contra hdec
    rw [hs.terminal other hother (Bool.eq_true_of_not_eq_false hdec)] at hopen
    cases hopen
  have hprofile := hs.untouched hnone
  -- the only decision after the step is the one of the call that commits
  have hdecided : ∀ other ∈ ({ s with db := work.apply change s.db }.setPhase i call
      (.ended (.ok ()))).calls, other.decided = true →
      other.task = call.task ∧ call.task.decides = true := by
    intro other hother hdec
    rcases mem_setPhase_cases hother with rfl | h
    · exact ⟨rfl, hdec⟩
    · rw [hnone other h] at hdec
      cases hdec
  refine { hs with
      works := ?works, changes := ?changes, terminal := ?terminal, untouched := ?untouched,
      result := ⟨?once, ?canceled, ?phones, ?attachments⟩ }
  case works =>
    intro other hother work' hwork'
    rcases mem_setPhase_cases hother with rfl | h
    · cases hwork'
    · exact hs.works other h work' hwork'
  case changes =>
    intro other hother work' change' hphase'
    rcases mem_setPhase_cases hother with rfl | h
    · cases hphase'
    · exact hs.changes other h work' change' hphase'
  case terminal =>
    intro other hother hdec
    -- the commit writes the status of its own task
    show (change.apply s.db.report).status.isTerminal = true
    rw [hs.changes call hmem work change hphase]
    exact (hdecided other hother hdec).2
  case untouched =>
    -- if nothing is decided after the commit, it was the one of a request
    intro hafter
    have hidle : call.task.decides = false := hafter _ (mem_setPhase_self hcall _)
    show work.profile s.db.profile = before
    rw [profile_of_not_review hwork (Or.inr hidle), hprofile]
  case once =>
    refine onePer_set hs.result.once fun _ j other hother hdec _ => ?_
    rw [hnone other (List.mem_of_getElem? hother)] at hdec
    cases hdec
  case canceled =>
    intro other hother hdec hcancels
    rw [(hdecided other hother hdec).1] at hcancels
    show work.profile s.db.profile = before
    rw [profile_of_not_review hwork (Or.inl hcancels), hprofile]
  case phones =>
    show (appliedPhones (work.profile s.db.profile)).Nodup
    rw [hprofile, appliedPhones, ReportWork.profile, List.filterMap_append]
    rw [show before.phones.filterMap CriminalPhone.source = [] from hs.fresh.1]
    exact hwork.phones
  case attachments =>
    show (appliedAttachments (work.profile s.db.profile)).Nodup
    rw [hprofile, appliedAttachments, ReportWork.profile, List.filterMap_append]
    rw [show before.attachments.filterMap CriminalAttachment.source = [] from hs.fresh.2]
    exact hwork.attachments

theorem decisionInv_call {before : Profile V} {s : ReportSys V} (hs : DecisionInv before s)
    (task : ReportTask) (found : ReportInstance) :
    DecisionInv before { s with calls := s.calls ++ [⟨task, found, task.begin⟩] } := by
  have hbegin : (ReportCall.mk task found task.begin : ReportCall V).work = some .empty := by
    cases task <;> rfl
  have hundecided := not_decided_of_work hbegin
  have hcases : ∀ other ∈ s.calls ++ [⟨task, found, task.begin⟩],
      other ∈ s.calls ∨ other = ⟨task, found, task.begin⟩ := by
    intro other hother
    rcases List.mem_append.mp hother with h | h
    · exact Or.inl h
    · exact Or.inr (List.mem_singleton.mp h)
  refine { hs with
      works := ?works, changes := ?changes, terminal := ?terminal, untouched := ?untouched,
      result := { hs.result with once := ?once, canceled := ?canceled } }
  case works =>
    intro other hother work hwork
    rcases hcases other hother with h | rfl
    · exact hs.works other h work hwork
    · obtain rfl : work = .empty := Option.some.inj (hwork.symm.trans hbegin)
      exact workFits_empty task
  case changes =>
    intro other hother work change hphase
    rcases hcases other hother with h | rfl
    · exact hs.changes other h work change hphase
    · cases task <;> cases hphase
  case terminal =>
    intro other hother hdec
    rcases hcases other hother with h | rfl
    · exact hs.terminal other h hdec
    · rw [hundecided] at hdec
      cases hdec
  case untouched =>
    intro hnone
    exact hs.untouched fun other h => hnone other (List.mem_append_left _ h)
  case once =>
    exact onePer_append_out (by simp [hundecided]) hs.result.once
  case canceled =>
    intro other hother hdec
    rcases hcases other hother with h | rfl
    · exact hs.result.canceled other h hdec
    · rw [hundecided] at hdec
      cases hdec

/-- **Step lemma.** -/
theorem decisionInv_step {before : Profile V} (s : ReportSys V) (act : ReportAct)
    (hs : DecisionInv before s) (hopen : FindsOpen s act) :
    DecisionInv before (s.step collation applyField act) := by
  unfold FindsOpen at hopen
  have heffect : ReportEffect collation applyField s _ _ := reportEffect_step s act
  generalize s.commits act = commits, s.step collation applyField act = after at heffect hopen ⊢
  cases heffect with
  | same => exact hs
  | loaded found =>
      exact { hs with result := { hs.result with } }
  | called task found => exact decisionInv_call hs task found
  | moved hcall hmove => exact decisionInv_move hs hcall hmove
  | committed hcall hphase => exact decisionInv_commit hs (hopen rfl) hcall hphase

/-- **A report is decided once.**  In every run whose commits all find a report that is not
decided yet, one review or one approved cancellation takes effect at most, a canceled report
has left the profile as it was, and no phone and no attachment is applied twice. -/
theorem report_decided_once (collation : String → String → Bool)
    (applyField : String → String → Except String V) (reportId : ℕ) (children : ReportChildren)
    (profile : Profile V) (acts : List ReportAct)
    (hopen : Along (ReportSys.step collation applyField) FindsOpen
      (ReportSys.start reportId children profile) acts)
    (pre : List ReportAct) (hpre : pre <+: acts) :
    DecidedOnce (ReportSys.start reportId children profile).db.profile
      (run (ReportSys.step collation applyField) (ReportSys.start reportId children profile) pre) :=
  (invariant_along decisionInv_step (decisionInv_start reportId children profile)
    (along_earlier hopen hpre)).result

section Examples

/-- A report with one phone number. -/
def onePhone : ReportChildren where
  fieldChanges := []
  aliases := []
  phones := [⟨⟨"mobile", "09120000000", false, ""⟩, .pending, ""⟩]
  socials := []
  attachments := []

def emptyProfile : Profile Unit := ⟨fun _ => (), [], [], [], []⟩

def onePhoneStep : ReportSys Unit → ReportAct → ReportSys Unit :=
  ReportSys.step (fun _ _ => true) fun _ _ => .ok ()

/-- The admin approves the number. -/
def approvePhone (admin : ℕ) : ReportTask :=
  .review ⟨admin, [], [], [⟨some 0, some .approved, none⟩], [], [], ""⟩

/-- An admin loads the report and reviews it. -/
def singleReview : List ReportAct := [.load true, .call (approvePhone 1) 0] ++ List.replicate 7 (.advance 0 5)

theorem report_decided_once_single :
    Along onePhoneStep FindsOpen (ReportSys.start 3 onePhone emptyProfile) singleReview ∧
      (appliedPhones (run onePhoneStep (ReportSys.start 3 onePhone emptyProfile)
        singleReview).db.profile).Nodup := by
  have hopen : Along onePhoneStep FindsOpen (ReportSys.start 3 onePhone emptyProfile) singleReview := by
    decide +kernel
  exact ⟨hopen, (report_decided_once _ _ 3 onePhone emptyProfile singleReview hopen singleReview
    List.prefix_rfl).phones⟩

/-- Two admins load the pending report, and both approve the number. -/
def doubleReview : List ReportAct :=
  [.load true, .load true, .call (approvePhone 1) 0] ++ List.replicate 7 (.advance 0 5) ++
    [.call (approvePhone 2) 1] ++ List.replicate 7 (.advance 1 6)

theorem double_review_applies_twice :
    ¬ DecidedOnce (ReportSys.start 3 onePhone emptyProfile).db.profile
      (run onePhoneStep (ReportSys.start 3 onePhone emptyProfile) doubleReview) := by
  intro h
  have happlied : appliedPhones (run onePhoneStep (ReportSys.start 3 onePhone emptyProfile)
      doubleReview).db.profile = [0, 0] := by decide +kernel
  have hnodup := h.phones
  rw [happlied] at hnodup
  simp at hnodup

end Examples

end SetadJang.R4J
