import SetadJang.R4J.Bounties

/-!
# Bounty totals

The counters of a criminal are recomputed by every call that writes one of its bounties.
The recomputation is right at the commit because the call has held the lock of the criminal
since before it read anything: whatever other calls commit meanwhile is about other
criminals.
-/

namespace SetadJang.R4J

open SetadJang.Framework

/-! ## What a step does -/

/-- Phases that a step moves a call to without a commit. -/
inductive BountyMove (s : BountySys) (call : BountyCall) : BountyPhase → Prop
  | ended (result : Except BountyError Unit) : BountyMove s call (.ended result)
  | locked (hfree : s.locked call.criminal = false) : BountyMove s call .locked
  | written {write : BountyWrite} {now : ℕ} (hphase : call.phase = .locked)
      (hwrite : call.task.write s.db.bounties call.criminal now = .ok write) :
      BountyMove s call (.written write)
  | synced {write : BountyWrite} (hphase : call.phase = .written write) :
      BountyMove s call
        (.synced write (bountyCounters (write.apply s.db.bounties) call.criminal))

/-- The write that a step commits. -/
def BountySys.committing (s : BountySys) : BountyAct → Option BountyWrite
  | .advance i _ =>
      match s.calls[i]? with
      | some ⟨_, _, .synced write _⟩ => some write
      | _ => none
  | _ => none

/-- The state after a step that commits the given write, if any. -/
inductive BountyEffect (s : BountySys) : Option BountyWrite → BountySys → Prop
  | same : BountyEffect s none s
  | loaded {k : ℕ} {row : Bounty} (hrow : s.db.bounties[k]? = some row) :
      BountyEffect s none { s with instances := s.instances ++ [(k, row)] }
  | called {request : BountyRequest} {call : BountyCall} (haccept : s.accept request = .ok call) :
      BountyEffect s none { s with calls := s.calls ++ [call] }
  | moved {i : ℕ} {call : BountyCall} {phase : BountyPhase} (hcall : s.calls[i]? = some call)
      (hmove : BountyMove s call phase) : BountyEffect s none (s.setPhase i call phase)
  | committed {i : ℕ} {call : BountyCall} {write : BountyWrite} {counters : Criminal}
      (hcall : s.calls[i]? = some call) (hphase : call.phase = .synced write counters) :
      BountyEffect s (some write)
        ((s.commit call.criminal write counters).setPhase i call (.ended (.ok ())))

theorem effect_advance {s : BountySys} {i : ℕ} {call : BountyCall}
    (hcall : s.calls[i]? = some call) (now : ℕ) :
    BountyEffect s (s.committing (.advance i now)) (s.advance i call now) := by
  have hmoved : ∀ phase, BountyMove s call phase → BountyEffect s none (s.setPhase i call phase) :=
    fun phase hmove => .moved hcall hmove
  simp only [BountySys.committing, BountySys.advance, hcall]
  obtain ⟨criminal, task, phase⟩ := call
  cases phase with
  | begun =>
      dsimp only
      split
      · exact .same
      · rename_i hfree
        split
        · exact hmoved _ (.ended _)
        · exact hmoved _ (.locked (Bool.eq_false_of_not_eq_true hfree))
  | locked =>
      dsimp only
      split
      · exact hmoved _ (.ended _)
      · rename_i write hwrite
        exact hmoved _ (.written rfl hwrite)
  | written write =>
      dsimp only
      split
      · exact hmoved _ (.ended _)
      · exact hmoved _ (.synced rfl)
  | synced write counters => exact .committed hcall rfl
  | ended result => exact .same

/-- **Step cases.** -/
theorem effect_step (s : BountySys) (act : BountyAct) :
    BountyEffect s (s.committing act) (s.step act) := by
  cases act with
  | load k =>
      simp only [BountySys.step, BountySys.committing]
      split
      · exact .same
      · rename_i row hrow
        exact .loaded hrow
  | call request =>
      simp only [BountySys.step, BountySys.committing]
      split
      · exact .same
      · rename_i call haccept
        exact .called haccept
  | advance i now =>
      cases hcall : s.calls[i]? with
      | none =>
          simp only [BountySys.step, BountySys.committing, hcall]
          exact .same
      | some call =>
          have h := effect_advance hcall now
          simp only [BountySys.step, hcall]
          exact h
  | rollback i =>
      simp only [BountySys.step, BountySys.committing]
      split
      · exact .same
      · rename_i call hcall
        split
        · exact .same
        · exact .moved hcall (.ended _)

/-! ## Calls and their criminals -/

/-- Row `k` is a bounty on the criminal. -/
def BountyAt (c : ℕ) (rows : List Bounty) (k : ℕ) : Prop :=
  ∃ row, rows[k]? = some row ∧ row.criminal = c

/-- The write is about a bounty on the criminal. -/
def BountyWrite.Owns (c : ℕ) (rows : List Bounty) : BountyWrite → Prop
  | .create row => row.criminal = c
  | .update k _ => BountyAt c rows k

/-- The bounty that a cancel service was called for. -/
def BountyTask.target : BountyTask → Option ℕ
  | .set _ _ => none
  | .requestCancel k | .approveCancel k _ | .rejectCancel k _ => some k

/-- The write of a call that is not committed yet. -/
def BountyCall.pending (call : BountyCall) : Option BountyWrite :=
  match call.phase with
  | .written write | .synced write _ => some write
  | _ => none

theorem holds_of_pending {call : BountyCall} {write : BountyWrite}
    (h : call.pending = some write) : call.holds = true := by
  obtain ⟨criminal, task, phase⟩ := call
  cases phase <;> first | rfl | cases h

@[simp] theorem change_criminal (change : BountyChange) (row : Bounty) :
    (change.apply row).criminal = row.criminal := by
  cases change <;> rfl

@[simp] theorem change_user (change : BountyChange) (row : Bounty) :
    (change.apply row).user = row.user := by
  cases change <;> rfl

theorem bountyAt_apply {c k : ℕ} {rows : List Bounty} (write : BountyWrite)
    (h : BountyAt c rows k) : BountyAt c (write.apply rows) k := by
  obtain ⟨row, hrow, hcriminal⟩ := h
  cases write with
  | create new =>
      have hk := (List.getElem?_eq_some_iff.mp hrow).1
      exact ⟨row, by rw [BountyWrite.apply, List.getElem?_append_left hk, hrow], hcriminal⟩
  | update j change =>
      by_cases hjk : j = k
      · subst hjk
        exact ⟨change.apply row, by simp [BountyWrite.apply, hrow], by simp [hcriminal]⟩
      · exact ⟨row, by rw [BountyWrite.apply, List.getElem?_modify_ne _ _ hjk, hrow], hcriminal⟩

theorem owns_apply {c : ℕ} {rows : List Bounty} {own : BountyWrite} (write : BountyWrite)
    (h : own.Owns c rows) : own.Owns c (write.apply rows) := by
  cases own with
  | create row => exact h
  | update k change => exact bountyAt_apply write h

/-- What a call writes is about its criminal. -/
theorem owns_write {rows : List Bounty} {c now : ℕ} {task : BountyTask} {write : BountyWrite}
    (htarget : ∀ k ∈ task.target, BountyAt c rows k) (h : task.write rows c now = .ok write) :
    write.Owns c rows := by
  cases task with
  | set user amountToman =>
      simp only [BountyTask.write, setOrUpdateBounty] at h
      split at h
      · rename_i existing k hexisting
        split_ifs at h
        cases h
        have hmem := List.mem_filter.mp (List.argmax_mem hexisting)
        have hrow := List.mk_mem_zipIdx_iff_getElem?.mp hmem.1
        simp only [Bool.and_eq_true, beq_iff_eq] at hmem
        exact ⟨existing, hrow, hmem.2.1.1⟩
      · split_ifs at h
        cases h
        rfl
  | requestCancel k =>
      simp only [BountyTask.write] at h
      split at h
      · cases h
      · cases h
        exact htarget k rfl
  | approveCancel k adminNote =>
      simp only [BountyTask.write] at h
      split at h
      · cases h
      · cases h
        exact htarget k rfl
  | rejectCancel k adminNote =>
      simp only [BountyTask.write] at h
      split at h
      · cases h
      · split_ifs at h
        cases h
        exact htarget k rfl

theorem loaded_ok {s : BountySys} {j k : ℕ} {row : Bounty} (h : s.loaded j = .ok (k, row)) :
    (k, row) ∈ s.instances := by
  unfold BountySys.loaded at h
  split at h
  · cases h
  · rename_i found hfound
    cases h
    exact List.mem_of_getElem? hfound

/-- A cancel service that accepts an instance. -/
theorem guardInstance_ok {s : BountySys} {j : ℕ} {status : BountyStatus} {error : BountyError}
    {task : ℕ → BountyTask} {call : BountyCall}
    (h : s.guardInstance j status error task = .ok call) :
    ∃ k bounty, (k, bounty) ∈ s.instances ∧ bounty.status = status ∧
      call = ⟨bounty.criminal, task k, .begun⟩ := by
  unfold BountySys.guardInstance at h
  cases hloaded : s.loaded j with
  | error raised =>
      rw [hloaded] at h
      cases h
  | ok found =>
      rw [hloaded] at h
      simp only [bind, Except.bind] at h
      split_ifs at h with hstatus
      cases h
      exact ⟨found.1, found.2, loaded_ok hloaded, not_not.mp hstatus, rfl⟩

/-- A call starts without a lock, and with a target on its criminal. -/
theorem accept_ok {s : BountySys} {request : BountyRequest} {call : BountyCall}
    (h : s.accept request = .ok call) :
    call.phase = .begun ∧ ∀ k ∈ call.task.target,
      ∃ row, (k, row) ∈ s.instances ∧ row.criminal = call.criminal := by
  cases request with
  | setOrUpdateBounty criminal user amountToman =>
      simp only [BountySys.accept] at h
      cases hamount : validateBountyAmountOrRaise amountToman with
      | error error =>
          rw [hamount] at h
          cases h
      | ok _ =>
          rw [hamount] at h
          cases h
          exact ⟨rfl, nofun⟩
  | requestBountyCancel j =>
      simp only [BountySys.accept] at h
      obtain ⟨k, bounty, hmem, -, rfl⟩ := guardInstance_ok h
      exact ⟨rfl, by rintro _ ⟨⟩; exact ⟨bounty, hmem, rfl⟩⟩
  | approveBountyCancel j adminNote =>
      simp only [BountySys.accept] at h
      obtain ⟨k, bounty, hmem, -, rfl⟩ := guardInstance_ok h
      exact ⟨rfl, by rintro _ ⟨⟩; exact ⟨bounty, hmem, rfl⟩⟩
  | rejectBountyCancel j adminNote =>
      simp only [BountySys.accept] at h
      obtain ⟨k, bounty, hmem, -, rfl⟩ := guardInstance_ok h
      exact ⟨rfl, by rintro _ ⟨⟩; exact ⟨bounty, hmem, rfl⟩⟩

/-! ## Locks and owners -/

/-- One call at a time holds the lock of a criminal, and every call is about bounties on
the criminal it locks. -/
structure Wired (s : BountySys) : Prop where
  locks : OnePer (fun call => call.holds = true) BountyCall.criminal s.calls
  loaded : ∀ k row, (k, row) ∈ s.instances → BountyAt row.criminal s.db.bounties k
  aimed : ∀ call ∈ s.calls, ∀ k ∈ call.task.target, BountyAt call.criminal s.db.bounties k
  owned : ∀ call ∈ s.calls, ∀ write ∈ call.pending, write.Owns call.criminal s.db.bounties

theorem wired_start (n : ℕ) : Wired (BountySys.start n) where
  locks := onePer_nil
  loaded _ _ h := absurd h List.not_mem_nil
  aimed _ h := absurd h List.not_mem_nil
  owned _ h := absurd h List.not_mem_nil

/-- A lock is taken only when it is free. -/
theorem move_holds {s : BountySys} {call : BountyCall} {phase : BountyPhase}
    (hmove : BountyMove s call phase) (hholds : { call with phase := phase }.holds = true) :
    call.holds = true ∨ s.locked call.criminal = false := by
  cases hmove with
  | ended result => cases hholds
  | locked hfree => exact Or.inr hfree
  | written hphase hwrite => exact Or.inl (by simp [BountyCall.holds, hphase])
  | synced hphase => exact Or.inl (by simp [BountyCall.holds, hphase])

theorem not_holds_of_free {s : BountySys} {c : ℕ} (hfree : s.locked c = false) {call : BountyCall}
    (hmem : call ∈ s.calls) (hholds : call.holds = true) : call.criminal ≠ c := by
  intro hc
  have htaken : s.locked c = true := List.any_eq_true.mpr ⟨call, hmem, by simp [hholds, hc]⟩
  rw [hfree] at htaken
  cases htaken

theorem mem_setPhase {s : BountySys} {i : ℕ} {call other : BountyCall} {phase : BountyPhase}
    (h : other ∈ (s.setPhase i call phase).calls) :
    other = { call with phase := phase } ∨ other ∈ s.calls := by
  rcases List.mem_or_eq_of_mem_set h with h | h
  · exact Or.inr h
  · exact Or.inl h

theorem wired_move {s : BountySys} {i : ℕ} {call : BountyCall} {phase : BountyPhase}
    (hs : Wired s) (hcall : s.calls[i]? = some call) (hmove : BountyMove s call phase) :
    Wired (s.setPhase i call phase) := by
  have hmem : call ∈ s.calls := List.mem_of_getElem? hcall
  refine ⟨onePer_set hs.locks fun hnew j other hother hholds hkey => ?_, hs.loaded, ?_, ?_⟩
  · rcases move_holds hmove hnew with hown | hfree
    · exact hs.locks j i other call hother hcall hholds hown hkey
    · exact absurd hkey (not_holds_of_free hfree (List.mem_of_getElem? hother) hholds)
  · intro other hother
    rcases mem_setPhase hother with rfl | hold
    · exact hs.aimed call hmem
    · exact hs.aimed other hold
  · intro other hother write hwrite
    rcases mem_setPhase hother with rfl | hold
    · cases hmove with
      | ended result => cases hwrite
      | locked hfree => cases hwrite
      | written hphase hok =>
          cases hwrite
          exact owns_write (hs.aimed call hmem) hok
      | synced hphase =>
          cases hwrite
          exact hs.owned call hmem _ (by simp [BountyCall.pending, hphase])
    · exact hs.owned other hold write hwrite

theorem wired_commit {s : BountySys} {c : ℕ} (hs : Wired s) (write : BountyWrite)
    (counters : Criminal) : Wired (s.commit c write counters) where
  locks := hs.locks
  loaded k row h := bountyAt_apply write (hs.loaded k row h)
  aimed call h k hk := bountyAt_apply write (hs.aimed call h k hk)
  owned call h own hown := owns_apply write (hs.owned call h own hown)

theorem wired_effect {s s' : BountySys} {write : Option BountyWrite} (hs : Wired s)
    (h : BountyEffect s write s') : Wired s' := by
  cases h with
  | same => exact hs
  | loaded hrow =>
      rename_i k row
      refine ⟨hs.locks, fun j other h => ?_, hs.aimed, hs.owned⟩
      rcases List.mem_append.mp h with h | h
      · exact hs.loaded j other h
      · cases List.mem_singleton.mp h
        exact ⟨row, hrow, rfl⟩
  | called haccept =>
      rename_i request call
      obtain ⟨hphase, htarget⟩ := accept_ok haccept
      refine ⟨onePer_append_out (by simp [BountyCall.holds, hphase]) hs.locks, hs.loaded, ?_, ?_⟩
      · intro other h k hk
        rcases List.mem_append.mp h with h | h
        · exact hs.aimed other h k hk
        · cases List.mem_singleton.mp h
          obtain ⟨row, hmem, hcriminal⟩ := htarget k hk
          rw [← hcriminal]
          exact hs.loaded k row hmem
      · intro other h write hwrite
        rcases List.mem_append.mp h with h | h
        · exact hs.owned other h write hwrite
        · cases List.mem_singleton.mp h
          simp [BountyCall.pending, hphase] at hwrite
  | moved hcall hmove => exact wired_move hs hcall hmove
  | committed hcall hphase => exact wired_move (wired_commit hs _ _) hcall (.ended _)

theorem wired_step (s : BountySys) (act : BountyAct) (hs : Wired s) : Wired (s.step act) :=
  wired_effect hs (effect_step s act)

/-! ## The counters -/

/-- A write about another criminal does not change the counters. -/
theorem counters_frame {rows : List Bounty} {c c' : ℕ} {write : BountyWrite} (hne : c ≠ c')
    (howns : write.Owns c rows) :
    bountyCounters (write.apply rows) c' = bountyCounters rows c' := by
  have hother : ∀ row : Bounty, row.criminal = c → countsFor c' row = false := by
    intro row hrow
    simp [countsFor, hrow, hne]
  have hfilter : (write.apply rows).filter (countsFor c') = rows.filter (countsFor c') := by
    cases write with
    | create row => exact filter_append_out (hother row howns)
    | update k change =>
        obtain ⟨row, hrow, hcriminal⟩ := howns
        refine filter_modify_out fun found hfound => ?_
        obtain rfl : row = found := by simpa [hrow] using hfound
        exact ⟨hother row hcriminal, hother _ (by simp [hcriminal])⟩
  simp only [bountyCounters, sumWhere, hfilter]

/-- Nor the bounties on it. -/
theorem row_frame {rows : List Bounty} {c k : ℕ} {write : BountyWrite} {row : Bounty}
    (howns : write.Owns c rows) (hrow : rows[k]? = some row) (hne : row.criminal ≠ c) :
    (write.apply rows)[k]? = some row := by
  cases write with
  | create new =>
      have hk := (List.getElem?_eq_some_iff.mp hrow).1
      rw [BountyWrite.apply, List.getElem?_append_left hk, hrow]
  | update j change =>
      obtain ⟨target, htarget, hcriminal⟩ := howns
      have hjk : j ≠ k := by
        rintro rfl
        obtain rfl : target = row := by simpa [htarget] using hrow
        exact hne hcriminal
      rw [BountyWrite.apply, List.getElem?_modify_ne _ _ hjk, hrow]

/-- The counters after a write depend on those before it and on the bounty it is about. -/
theorem counters_congr {rows rows' : List Bounty} {c : ℕ} {write : BountyWrite}
    (howns : write.Owns c rows) (hcounters : bountyCounters rows' c = bountyCounters rows c)
    (hrow : ∀ (k : ℕ) (row : Bounty), rows[k]? = some row → row.criminal = c →
      rows'[k]? = some row) :
    bountyCounters (write.apply rows') c = bountyCounters (write.apply rows) c := by
  simp only [bountyCounters, Criminal.mk.injEq] at hcounters ⊢
  obtain ⟨htotal, hcount⟩ := hcounters
  cases write with
  | create row =>
      simp only [BountyWrite.apply, sumWhere_append]
      omega
  | update k change =>
      obtain ⟨row, hk, hcriminal⟩ := howns
      have hk' := hrow k row hk hcriminal
      have balance : ∀ f : Bounty → ℕ,
          sumWhere (countsFor c) f rows' = sumWhere (countsFor c) f rows →
          sumWhere (countsFor c) f (rows'.modify k change.apply) =
            sumWhere (countsFor c) f (rows.modify k change.apply) := by
        intro f hf
        have hold := sumWhere_modify (countsFor c) f change.apply hk
        have hnew := sumWhere_modify (countsFor c) f change.apply hk'
        omega
      exact ⟨balance _ htotal, balance _ hcount⟩

/-- The stored counters are those of the committed bounties; the counters that a call is
about to commit are those of the bounties it will leave. -/
structure Counted (s : BountySys) : Prop where
  synced : ∀ call ∈ s.calls, ∀ write counters, call.phase = .synced write counters →
    counters = bountyCounters (write.apply s.db.bounties) call.criminal
  totals : ∀ c row, s.db.criminals[c]? = some row → row = bountyCounters s.db.bounties c

theorem counted_start (n : ℕ) : Counted (BountySys.start n) := by
  refine ⟨fun _ h => absurd h List.not_mem_nil, fun c row hrow => ?_⟩
  simp only [BountySys.start, List.getElem?_replicate] at hrow
  split_ifs at hrow
  cases hrow
  rfl

theorem counted_move {s : BountySys} {i : ℕ} {call : BountyCall} {phase : BountyPhase}
    (hs : Counted s) (hmove : BountyMove s call phase) : Counted (s.setPhase i call phase) := by
  refine ⟨fun other hother write counters hphase => ?_, hs.totals⟩
  rcases mem_setPhase hother with rfl | hold
  · cases hmove <;> cases hphase
    rfl
  · exact hs.synced other hold write counters hphase

/-- A commit exchanges the counters of one criminal for the right ones; every other call
that is about to commit holds the lock of another criminal. -/
theorem counted_commit {s : BountySys} {i : ℕ} {call : BountyCall} {write : BountyWrite}
    {counters : Criminal} (hwired : Wired s) (hs : Counted s) (hcall : s.calls[i]? = some call)
    (hphase : call.phase = .synced write counters) :
    Counted ((s.commit call.criminal write counters).setPhase i call (.ended (.ok ()))) := by
  have hmem : call ∈ s.calls := List.mem_of_getElem? hcall
  have howns : write.Owns call.criminal s.db.bounties :=
    hwired.owned call hmem write (by simp [BountyCall.pending, hphase])
  have hcounters := hs.synced call hmem write counters hphase
  constructor
  · intro other hother write' counters' hphase'
    obtain ⟨j, hj⟩ := List.getElem?_of_mem hother
    simp only [BountySys.setPhase, BountySys.commit, List.getElem?_set] at hj
    split_ifs at hj with hij
    · cases hj
      cases hphase'
    · -- the lock keeps the commit away from what the other call has counted
      have hmem' : other ∈ s.calls := List.mem_of_getElem? hj
      have hne : call.criminal ≠ other.criminal := fun heq =>
        hij (hwired.locks i j call other hcall hj (by simp [BountyCall.holds, hphase])
          (by simp [BountyCall.holds, hphase']) heq)
      have howns' : write'.Owns other.criminal s.db.bounties :=
        hwired.owned other hmem' write' (by simp [BountyCall.pending, hphase'])
      rw [hs.synced other hmem' write' counters' hphase']
      refine (counters_congr howns' (counters_frame hne howns) fun k row hrow hcriminal => ?_).symm
      exact row_frame howns hrow (by rw [hcriminal]; exact hne.symm)
  · intro c row hrow
    rcases getElem?_modify_cases hrow with ⟨rfl, -, -, rfl⟩ | ⟨hne, hold⟩
    · exact hcounters
    · rw [hs.totals c row hold]
      exact (counters_frame hne howns).symm

/-- **Step lemma.** -/
theorem counted_step (s : BountySys) (act : BountyAct) (hs : Wired s ∧ Counted s) :
    Wired (s.step act) ∧ Counted (s.step act) := by
  obtain ⟨hwired, hcounted⟩ := hs
  refine ⟨wired_step s act hwired, ?_⟩
  have heffect := effect_step s act
  generalize s.committing act = write, s.step act = after at heffect ⊢
  cases heffect with
  | same => exact hcounted
  | loaded hrow => exact ⟨hcounted.synced, hcounted.totals⟩
  | called haccept =>
      refine ⟨fun other hother write counters hphase => ?_, hcounted.totals⟩
      rcases List.mem_append.mp hother with h | h
      · exact hcounted.synced other h write counters hphase
      · cases List.mem_singleton.mp h
        rw [(accept_ok haccept).1] at hphase
        cases hphase
  | moved hcall hmove => exact counted_move hcounted hmove
  | committed hcall hphase => exact counted_commit hwired hcounted hcall hphase

/-- **Bounty totals equal the bounties.**  In every state that some interleaving of calls,
commits and rollbacks reaches, the two counters of each criminal are the sum and the number
of its bounties that are active or wait for a cancellation. -/
theorem bounty_totals_equal_bounties (n : ℕ) (acts : List BountyAct) (c : ℕ) (criminal : Criminal)
    (hcriminal : (run BountySys.step (BountySys.start n) acts).db.criminals[c]? = some criminal) :
    let bounties := (run BountySys.step (BountySys.start n) acts).db.bounties.filter fun row =>
      row.criminal == c && row.status.isOpen
    criminal.totalBountyToman = (bounties.map Bounty.amountToman).sum ∧
      criminal.bountiesCount = bounties.length := by
  have hrun := invariant_run counted_step ⟨wired_start n, counted_start n⟩ acts
  generalize run BountySys.step (BountySys.start n) acts = s at hcriminal hrun
  rw [hrun.2.totals c criminal hcriminal]
  refine ⟨rfl, ?_⟩
  show sumWhere (countsFor c) (fun _ => 1) s.db.bounties = (s.db.bounties.filter (countsFor c)).length
  rw [sumWhere, List.map_const', List.sum_replicate_nat, Nat.mul_one]

/-- A user sets a bounty on criminal 0, and its call commits. -/
def settingRun : List BountyAct :=
  [.call (.setOrUpdateBounty 0 7 60000), .advance 0 1, .advance 0 1, .advance 0 1, .advance 0 1]

theorem bounty_totals_equal_bounties_set :
    (run BountySys.step (BountySys.start 1) settingRun).db.criminals[0]? = some ⟨60000, 1⟩ ∧
      (((run BountySys.step (BountySys.start 1) settingRun).db.bounties.filter fun row =>
        row.criminal == 0 && row.status.isOpen).map Bounty.amountToman).sum = 60000 := by
  have hstored : (run BountySys.step (BountySys.start 1) settingRun).db.criminals[0]? =
      some ⟨60000, 1⟩ := by decide
  exact ⟨hstored, (bounty_totals_equal_bounties 1 settingRun 0 _ hstored).1.symm⟩

end SetadJang.R4J
