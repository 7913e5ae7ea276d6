import SetadJang.R4J.BountyTotals

/-!
# Bounty workflow

A bounty is active, then waits for a cancellation, and is then active again or canceled for
good; a user has at most one bounty on a criminal that is not canceled.  The cancel services
check the status on an instance that can be old by the time they hold the lock, so both laws
hold exactly as long as no commit meets a status that its service was not written for.
-/

namespace SetadJang.R4J

open SetadJang.Framework

/-! ## The two laws -/

/-- The moves of the status that the workflow has. -/
inductive StatusMove : BountyStatus → BountyStatus → Prop
  | stay (status : BountyStatus) : StatusMove status status
  | requestCancel : StatusMove .active .cancelRequested
  | rejectCancel : StatusMove .cancelRequested .active
  | approveCancel : StatusMove .cancelRequested .canceled

/-- Every bounty is still there, and its status moved along the workflow. -/
def StatusesMove (s s' : BountySys) : Prop :=
  Evolves (fun row row' : Bounty => StatusMove row.status row'.status) s.db.bounties s'.db.bounties

/-- At most one bounty of a user on a criminal is active or waits for a cancellation. -/
def OneOpen (s : BountySys) : Prop :=
  OnePer (fun row : Bounty => row.status.isOpen = true) (fun row => (row.criminal, row.user))
    s.db.bounties

/-! ## What a commit meets -/

/-- The change meets a status that its service was written for, or one it leaves as it is. -/
def BountyChange.Fits (status : BountyStatus) : BountyChange → Prop
  | .amount _ => True
  | .requestCancel _ => status ≠ .canceled
  | .approveCancel _ _ => status ≠ .active
  | .rejectCancel _ => status ≠ .canceled

def BountyWrite.Fits (rows : List Bounty) : BountyWrite → Prop
  | .create _ => True
  | .update k change => ∀ row, rows[k]? = some row → change.Fits row.status

/-- If the step commits, the status has not been moved away from under it. -/
def StatusFits (s : BountySys) (act : BountyAct) : Prop :=
  ∀ write ∈ s.committing act, write.Fits s.db.bounties

theorem fits_iff_move (change : BountyChange) (row : Bounty) :
    change.Fits row.status ↔ StatusMove row.status (change.apply row).status := by
  obtain ⟨criminal, user, amountToman, status, requestedAt, canceledAt, adminNote, createdAt⟩ := row
  constructor
  · intro h
    cases change <;> cases status <;> first | exact absurd rfl h | constructor
  · intro h
    cases change <;> cases status <;> first | trivial | exact nofun

theorem fits_iff_evolves (rows : List Bounty) (write : BountyWrite) :
    write.Fits rows ↔
      Evolves (fun row row' : Bounty => StatusMove row.status row'.status) rows
        (write.apply rows) := by
  have hrefl : ∀ row : Bounty, StatusMove row.status row.status := fun row => .stay row.status
  cases write with
  | create row => exact iff_of_true trivial (evolves_append hrefl rows row)
  | update k change =>
      constructor
      · intro h
        exact evolves_modify hrefl fun row hrow => (fits_iff_move change row).mp (h row hrow)
      · intro h row hrow
        obtain ⟨row', hrow', hmove⟩ := h k row hrow
        obtain rfl : change.apply row = row' := by simpa [BountyWrite.apply, hrow] using hrow'
        exact (fits_iff_move change row).mpr hmove

/-- A change that fits makes no canceled bounty count again. -/
theorem isOpen_of_fits {change : BountyChange} {row : Bounty} (h : change.Fits row.status)
    (hopen : (change.apply row).status.isOpen = true) : row.status.isOpen = true := by
  obtain ⟨criminal, user, amountToman, status, requestedAt, canceledAt, adminNote, createdAt⟩ := row
  cases change <;> cases status <;> first | rfl | exact absurd rfl h | cases hopen

/-! ## New bounties -/

/-- A bounty about to be inserted is the only one of its user that will count. -/
def Fresh (s : BountySys) : Prop :=
  ∀ call ∈ s.calls, ∀ new, call.pending = some (.create new) →
    ∀ row ∈ s.db.bounties, row.status.isOpen = true →
      (row.criminal, row.user) ≠ (new.criminal, new.user)

/-- A bounty is inserted when the lookup found none. -/
theorem write_create {rows : List Bounty} {c now : ℕ} {task : BountyTask} {new : Bounty}
    (h : task.write rows c now = .ok (.create new)) :
    ∀ row ∈ rows, row.status.isOpen = true → (row.criminal, row.user) ≠ (new.criminal, new.user) := by
  cases task with
  | set user amountToman =>
      simp only [BountyTask.write, setOrUpdateBounty] at h
      split at h
      · split_ifs at h
        cases h
      · rename_i hnone
        split_ifs at h
        cases h
        intro row hrow hopen heq
        obtain ⟨k, hk⟩ := List.getElem?_of_mem hrow
        have hcriminal : row.criminal = c := congrArg Prod.fst heq
        have huser : row.user = user := congrArg Prod.snd heq
        have hfilter := List.argmax_eq_none.mp hnone
        rw [List.filter_eq_nil_iff] at hfilter
        refine hfilter (row, k) (List.mk_mem_zipIdx_iff_getElem?.mpr hk) ?_
        simp [hcriminal, huser, hopen]
  | requestCancel k =>
      simp only [BountyTask.write] at h
      split at h <;> cases h
  | approveCancel k adminNote =>
      simp only [BountyTask.write] at h
      split at h <;> cases h
  | rejectCancel k adminNote =>
      simp only [BountyTask.write] at h
      split at h
      · cases h
      · split_ifs at h
        cases h

/-- The bounties on a criminal come from the same ones before a write about another. -/
theorem row_frame_back {rows : List Bounty} {c : ℕ} {write : BountyWrite} {row : Bounty}
    (howns : write.Owns c rows) (hrow : row ∈ write.apply rows) (hne : row.criminal ≠ c) :
    row ∈ rows := by
  cases write with
  | create new =>
      rcases List.mem_append.mp hrow with h | h
      · exact h
      · cases List.mem_singleton.mp h
        exact absurd howns hne
  | update k change =>
      obtain ⟨target, htarget, hcriminal⟩ := howns
      obtain ⟨j, hj⟩ := List.getElem?_of_mem hrow
      rcases getElem?_modify_cases hj with ⟨rfl, old, hold, rfl⟩ | ⟨-, hold⟩
      · obtain rfl : target = old := by simpa [htarget] using hold
        exact absurd (by simp [hcriminal]) hne
      · exact List.mem_of_getElem? hold

theorem fresh_move {s : BountySys} {i : ℕ} {call : BountyCall} {phase : BountyPhase}
    (hs : Fresh s) (hmem : call ∈ s.calls) (hmove : BountyMove s call phase) :
    Fresh (s.setPhase i call phase) := by
  intro other hother new hnew
  rcases mem_setPhase hother with rfl | hold
  · cases hmove with
    | ended result => cases hnew
    | locked hfree => cases hnew
    | written hphase hwrite =>
        cases hnew
        exact write_create hwrite
    | synced hphase =>
        cases hnew
        exact hs call hmem new (by simp [BountyCall.pending, hphase])
  · exact hs other hold new hnew

theorem fresh_commit {s : BountySys} {i : ℕ} {call : BountyCall} {write : BountyWrite}
    {counters : Criminal} (hwired : Wired s) (hs : Fresh s) (hcall : s.calls[i]? = some call)
    (hphase : call.phase = .synced write counters) :
    Fresh ((s.commit call.criminal write counters).setPhase i call (.ended (.ok ()))) := by
  intro other hother new hnew row hrow hopen heq
  have howns : write.Owns call.criminal s.db.bounties :=
    hwired.owned call (List.mem_of_getElem? hcall) write (by simp [BountyCall.pending, hphase])
  obtain ⟨j, hj⟩ := List.getElem?_of_mem hother
  simp only [BountySys.setPhase, BountySys.commit, List.getElem?_set] at hj
  split_ifs at hj with hij
  · cases hj
    cases hnew
  · -- the other call holds the lock of another criminal, whose bounties the commit keeps
    have hmem' : other ∈ s.calls := List.mem_of_getElem? hj
    have hnewCriminal : new.criminal = other.criminal := hwired.owned other hmem' _ hnew
    have hne : row.criminal ≠ call.criminal := by
      intro hsame
      refine hij (hwired.locks i j call other hcall hj (by simp [BountyCall.holds, hphase])
        (holds_of_pending hnew) ?_)
      rw [← hsame, ← hnewCriminal]
      exact congrArg Prod.fst heq
    exact hs other hmem' new hnew row (row_frame_back howns hrow hne) hopen heq

theorem fresh_effect {s s' : BountySys} {write : Option BountyWrite} (hwired : Wired s)
    (hs : Fresh s) (h : BountyEffect s write s') : Fresh s' := by
  cases h with
  | same => exact hs
  | loaded hrow => exact hs
  | called haccept =>
      intro other hother new hnew
      rcases List.mem_append.mp hother with h | h
      · exact hs other h new hnew
      · cases List.mem_singleton.mp h
        simp [BountyCall.pending, (accept_ok haccept).1] at hnew
  | moved hcall hmove => exact fresh_move hs (List.mem_of_getElem? hcall) hmove
  | committed hcall hphase => exact fresh_commit hwired hs hcall hphase

/-! ## Runs -/

/-- A commit that fits keeps one open bounty per user and criminal. -/
theorem oneOpen_apply {s : BountySys} {i : ℕ} {call : BountyCall} {write : BountyWrite}
    {counters : Criminal} (hfresh : Fresh s) (hs : OneOpen s) (hcall : s.calls[i]? = some call)
    (hphase : call.phase = .synced write counters) (hfits : write.Fits s.db.bounties) :
    OneOpen (s.commit call.criminal write counters) := by
  cases write with
  | create new =>
      have hfree := hfresh call (List.mem_of_getElem? hcall) new
        (by simp [BountyCall.pending, hphase])
      by_cases hopen : new.status.isOpen = true
      · exact (onePer_append (p := fun row : Bounty => row.status.isOpen = true) hopen hs).mpr hfree
      · exact onePer_append_out hopen hs
  | update k change =>
      -- no row that was closed is opened
      refine onePer_modify (fun row => by simp) (fun row hrow hopen => ?_) hs
      exact isOpen_of_fits (hfits row hrow) hopen

structure WorkflowInv (s : BountySys) : Prop where
  wired : Wired s
  fresh : Fresh s
  oneOpen : OneOpen s

theorem workflowInv_start (n : ℕ) : WorkflowInv (BountySys.start n) :=
  ⟨wired_start n, fun _ h => absurd h List.not_mem_nil, onePer_nil⟩

/-- **Step lemma.** -/
theorem workflowInv_step (s : BountySys) (act : BountyAct) (hs : WorkflowInv s)
    (hfits : StatusFits s act) : WorkflowInv (s.step act) := by
  refine ⟨wired_step s act hs.wired, fresh_effect hs.wired hs.fresh (effect_step s act), ?_⟩
  unfold StatusFits at hfits
  have heffect := effect_step s act
  generalize s.committing act = write, s.step act = after at heffect hfits ⊢
  cases heffect with
  | same => exact hs.oneOpen
  | loaded hrow => exact hs.oneOpen
  | called haccept => exact hs.oneOpen
  | moved hcall hmove => exact hs.oneOpen
  | committed hcall hphase => exact oneOpen_apply hs.fresh hs.oneOpen hcall hphase (hfits _ rfl)

/-- A step moves the statuses along the workflow exactly when what it commits fits. -/
theorem statusFits_iff (s : BountySys) (act : BountyAct) :
    StatusFits s act ↔ StatusesMove s (s.step act) := by
  have hsame : StatusesMove s s := evolves_refl (fun row => .stay row.status) _
  unfold StatusFits
  have heffect := effect_step s act
  generalize s.committing act = write, s.step act = after at heffect ⊢
  cases heffect with
  | same => exact iff_of_true nofun hsame
  | loaded hrow => exact iff_of_true nofun hsame
  | called haccept => exact iff_of_true nofun hsame
  | moved hcall hmove => exact iff_of_true nofun hsame
  | committed hcall hphase =>
      rename_i i call write counters
      constructor
      · intro hfits
        exact (fits_iff_evolves _ _).mp (hfits write rfl)
      · rintro hmove _ ⟨⟩
        exact (fits_iff_evolves _ _).mpr hmove

/-- The workflow is kept in a run: the statuses move as they may, and no user has two open
bounties on a criminal. -/
def WorkflowKept (n : ℕ) (acts : List BountyAct) : Prop :=
  (∀ pre act, pre ++ [act] <+: acts →
      StatusesMove (run BountySys.step (BountySys.start n) pre)
        (run BountySys.step (BountySys.start n) (pre ++ [act]))) ∧
    ∀ pre, pre <+: acts → OneOpen (run BountySys.step (BountySys.start n) pre)

/-- **Bounty workflow under stale instances.**  Whatever the interleaving, the workflow is
kept exactly when no request and no rejection commits over a canceled bounty and no
approval over an active one. -/
theorem bounty_workflow_iff (n : ℕ) (acts : List BountyAct) :
    WorkflowKept n acts ↔ Along BountySys.step StatusFits (BountySys.start n) acts := by
  have hsteps : Along BountySys.step StatusFits (BountySys.start n) acts ↔ _ := along_steps acts
  constructor
  · rintro ⟨hmove, -⟩
    refine hsteps.mpr fun pre act hpre => ?_
    have h := hmove pre act hpre
    rw [run_append] at h
    exact (statusFits_iff _ act).mpr h
  · intro hfits
    constructor
    · intro pre act hpre
      rw [run_append]
      exact (statusFits_iff _ act).mp (hsteps.mp hfits pre act hpre)
    · intro pre hpre
      exact (invariant_along workflowInv_step (workflowInv_start n)
        (along_earlier hfits hpre)).oneOpen

/-- A user loads the page of an active bounty twice.  The first copy is used to ask for the
cancellation, an admin approves it, the user sets a new bounty; then the second copy is used. -/
def staleRequest : List BountyAct :=
  let advance (i : ℕ) : List BountyAct := List.replicate 4 (.advance i 1)
  [.call (.setOrUpdateBounty 0 7 60000)] ++ advance 0 ++ [.load 0, .load 0] ++
    [.call (.requestBountyCancel 0)] ++ advance 1 ++ [.load 0] ++
    [.call (.approveBountyCancel 2 "")] ++ advance 2 ++
    [.call (.setOrUpdateBounty 0 7 80000)] ++ advance 3 ++
    [.call (.requestBountyCancel 1)] ++ advance 4

theorem stale_request_breaks_workflow : ¬ WorkflowKept 1 staleRequest := by
  rintro ⟨-, hone⟩
  have h := hone staleRequest List.prefix_rfl
  have hrows : (run BountySys.step (BountySys.start 1) staleRequest).db.bounties =
      [⟨0, 7, 60000, .cancelRequested, some 1, some 1, "", 1⟩,
        ⟨0, 7, 80000, .active, none, none, "", 1⟩] := by decide
  rw [OneOpen, hrows] at h
  have hsame : 0 = 1 := h 0 1 _ _ rfl rfl rfl rfl rfl
  cases hsame

end SetadJang.R4J
