import SetadJang.Authentication.OtpSingleUse

/-!
# The attempt budget under concurrent guesses

The limit on wrong guesses is tested on the copy that a call read at its start; the update
that accepts a guess looks at `is_used` only.  Between the wrong guess that uses up the
budget and the update that marks its record, a right guess that was read before still goes
through.  It does not as long as the last wrong guess is counted while no right one is
between its read and its update.
-/

namespace SetadJang.Authentication

open SetadJang.Framework

/-- The call has read the record below the limit and its code is the right one. -/
def VerifyCall.guessesRight (cfg : AuthConfig) (call : VerifyCall) (pk : ℕ) : Bool :=
  match call.phase with
  | .read otp =>
      otp.pk == pk && decide (otp.attempts < cfg.maxAttempts) &&
        decide (otp.codeHash = expectedHashFor cfg otp call.code)
  | .right otp => otp.pk == pk
  | _ => false

/-- The record whose budget the step uses up: it counts a wrong guess, and the counter
reaches the maximum. -/
def OtpSys.lastAttempt (cfg : AuthConfig) (s : OtpSys) : OtpAct → Option ℕ
  | .advance i _ =>
      match s.verifies[i]? with
      | some call =>
          match call.phase with
          | .wrong otp =>
              match s.otps.byPk otp.pk with
              | some r =>
                  if r.isUsed = false ∧ cfg.maxAttempts ≤ r.attempts + 1 then some otp.pk else none
              | none => none
          | _ => none
      | none => none
  | _ => none

/-- The last wrong guess meets no right one on its way. -/
def LastAttemptAlone (cfg : AuthConfig) (s : OtpSys) (act : OtpAct) : Prop :=
  ∀ pk ∈ s.lastAttempt cfg act, ∀ call ∈ s.verifies, call.guessesRight cfg pk = false

/-- Every step of every call is committed by itself. -/
def OtpAct.committed : OtpAct → Bool
  | .verify _ _ _ _ atomic => !atomic
  | _ => true

instance (cfg : AuthConfig) (s : OtpSys) (act : OtpAct) : Decidable (LastAttemptAlone cfg s act) :=
  inferInstanceAs (Decidable (∀ pk ∈ s.lastAttempt cfg act, ∀ call ∈ s.verifies,
    call.guessesRight cfg pk = false))

/-- If a call is accepted in this step, the stored counter is below the maximum. -/
def AcceptedInBudget (cfg : AuthConfig) (s : OtpSys) (act : OtpAct) : Prop :=
  ∀ pk target, (s.step cfg act).events = s.events ++ [.verified pk target] →
    ∀ r ∈ (s.step cfg act).otps.rows, r.pk = pk → r.attempts < cfg.maxAttempts

theorem OtpTable.byPk_eq {t : OtpTable} {r : OTPCode} (hr : r ∈ t.rows) : t.byPk r.pk = some r := by
  cases hfind : t.byPk r.pk with
  | none =>
      rw [OtpTable.byPk, List.find?_eq_none] at hfind
      exact absurd (by simp) (hfind r hr)
  | some found =>
      have hpk : found.pk = r.pk := by simpa using List.find?_some hfind
      rw [OtpTable.row_unique (List.mem_of_find?_eq_some hfind) hr hpk]

/-! ## Right guesses -/

/-- While a right guess is on its way, the record it read is used or still below the limit. -/
def Below (cfg : AuthConfig) (s : OtpSys) : Prop :=
  ∀ call ∈ s.verifies, ∀ pk, call.guessesRight cfg pk = true → ∀ r ∈ s.otps.rows,
    r.pk = pk → r.isUsed = false → r.attempts < cfg.maxAttempts

section Below

variable {cfg : AuthConfig} {s : OtpSys}

theorem below_setCall (hs : Below cfg s) {i : ℕ} {new : VerifyCall}
    (hnew : ∀ pk, new.guessesRight cfg pk = true → ∀ r ∈ s.otps.rows, r.pk = pk →
      r.isUsed = false → r.attempts < cfg.maxAttempts) : Below cfg (s.setCall i new) := by
  intro call hcall
  rcases List.mem_or_eq_of_mem_set hcall with hold | rfl
  · exact hs call hold
  · exact hnew

/-- A call that guesses no more. -/
theorem below_done (hs : Below cfg s) {i : ℕ} {new : VerifyCall}
    (hnew : ∀ pk, new.guessesRight cfg pk = false) : Below cfg (s.setCall i new) := by
  refine below_setCall hs fun pk hright => ?_
  rw [hnew pk] at hright
  cases hright

theorem below_touch (hs : Below cfg s) {pks : List ℕ} {bumps : ℕ} {used : Bool}
    (hbumps : ∀ r ∈ s.otps.rows, r.pk ∈ pks → r.isUsed = false →
      r.attempts + bumps < cfg.maxAttempts ∨ bumps = 0 ∨
        ∀ call ∈ s.verifies, call.guessesRight cfg r.pk = false) :
    Below cfg (s.touch pks bumps used) := by
  intro call hcall pk hright r' hr' hpk hunused
  obtain ⟨r, hr, rfl⟩ := OtpTable.mem_touch.mp hr'
  split_ifs at hpk hunused ⊢ with hin
  · have hfresh : r.isUsed = false := (Bool.or_eq_false_iff.mp hunused).1
    have hold := hs call hcall pk hright r hr hpk hfresh
    rcases hbumps r hr hin hfresh with hlt | hzero | hnone
    · exact hlt
    · simpa [hzero] using hold
    · have hfalse := hnone call hcall
      rw [show r.pk = pk from hpk, hright] at hfalse
      cases hfalse
  · exact hs call hcall pk hright r hr hpk hunused

theorem below_mark (hs : Below cfg s) (pks : List ℕ) (used : Bool) :
    Below cfg (s.touch pks 0 used) :=
  below_touch hs fun _ _ _ _ => Or.inr (Or.inl rfl)

theorem copy_of_guessesRight {call : VerifyCall} {pk : ℕ} (h : call.guessesRight cfg pk = true) :
    ∃ otp ∈ call.phase.copy, otp.pk = pk := by
  unfold VerifyCall.guessesRight at h
  split at h
  · rename_i otp hphase
    simp only [Bool.and_eq_true, beq_iff_eq] at h
    exact ⟨otp, by rw [hphase]; rfl, h.1.1⟩
  · rename_i otp hphase
    exact ⟨otp, by rw [hphase]; rfl, by simpa using h⟩
  · cases h

theorem below_insert (hcopies : ∀ call ∈ s.verifies, ∀ otp ∈ call.phase.copy, otp.pk < s.nextPk)
    (hs : Below cfg s) (row : OTPCode) : Below cfg (s.insert row) := by
  intro call hcall pk hright r hr hpk
  rcases OtpTable.mem_insert hr with rfl | hold
  · obtain ⟨otp, hotp, hotpk⟩ := copy_of_guessesRight hright
    have hlt := hcopies call hcall otp hotp
    have hnew : s.nextPk = pk := hpk
    omega
  · exact hs call hcall pk hright r hold hpk

theorem below_delete (hs : Below cfg s) (pk : ℕ) : Below cfg { s with otps := s.otps.delete pk } :=
  fun call hcall pk' hright r hr => hs call hcall pk' hright r (OtpTable.mem_delete.mp hr).1

end Below

/-! ## Steps -/

/-- All calls commit their steps one by one. -/
structure BudgetInv (cfg : AuthConfig) (s : OtpSys) : Prop where
  race : RaceInv s
  committed : ∀ call ∈ s.verifies, call.atomic = false
  below : Below cfg s

/-- A conditional update of a call that commits at once: it waits, it writes the row, or it
finds nothing to write. -/
theorem update_cases (s : OtpSys) (i : ℕ) {call : VerifyCall} (hauto : call.atomic = false)
    (w : OtpPending) (done missed : VerifyPhase) :
    s.update i call w done missed = s ∨
      ((∃ r ∈ s.otps.rows, r.pk = w.pk ∧ r.isUsed = false) ∧ s.update i call w done missed =
        ((s.setCall i { call with phase := done }).touch [w.pk] w.bumps w.used).logSuccess done) ∨
      s.update i call w done missed = s.setCall i { call with phase := missed } := by
  unfold OtpSys.update
  split
  · exact Or.inl rfl
  · split
    · rename_i hunused
      refine Or.inr (Or.inl ⟨unused_of_view hunused, ?_⟩)
      unfold OtpSys.write
      rw [if_neg (by simp [hauto])]
    · exact Or.inr (Or.inr rfl)

/-- A conditional update after which the call guesses no more. -/
theorem below_update {cfg : AuthConfig} {s : OtpSys} (hs : BudgetInv cfg s) {i : ℕ}
    {call : VerifyCall} {w : OtpPending} {done missed : VerifyPhase}
    (hcall : s.verifies[i]? = some call)
    (hdone : ∀ pk, { call with phase := done }.guessesRight cfg pk = false)
    (hmissed : ∀ pk, { call with phase := missed }.guessesRight cfg pk = false)
    (hbumps : ∀ r ∈ s.otps.rows, r.pk = w.pk → r.isUsed = false →
      r.attempts + w.bumps < cfg.maxAttempts ∨ w.bumps = 0 ∨
        ∀ other ∈ s.verifies, other.guessesRight cfg w.pk = false) :
    Below cfg (s.update i call w done missed) := by
  have hauto := hs.committed call (List.mem_of_getElem? hcall)
  rcases update_cases s i hauto w done missed with heq | ⟨-, heq⟩ | heq
  · rw [heq]
    exact hs.below
  · rw [heq]
    have hwrite : Below cfg ((s.setCall i { call with phase := done }).touch [w.pk] w.bumps
        w.used) := by
      refine below_touch (below_done hs.below hdone) fun r hr hin hunused => ?_
      have hpk := List.mem_singleton.mp hin
      rcases hbumps r hr hpk hunused with hlt | hzero | hnone
      · exact Or.inl hlt
      · exact Or.inr (Or.inl hzero)
      · refine Or.inr (Or.inr fun other hother => ?_)
        rw [hpk]
        rcases List.mem_or_eq_of_mem_set hother with hold | rfl
        · exact hnone other hold
        · exact hdone _
    cases done <;> exact hwrite
  · rw [heq]
    exact below_done hs.below hmissed

theorem compare_guessesRight {cfg : AuthConfig} {call : VerifyCall} {otp : OTPCode} {now pk : ℕ}
    (hphase : call.phase = .read otp)
    (h : { call with phase := otp.compare cfg call.code now }.guessesRight cfg pk = true) :
    call.guessesRight cfg pk = true := by
  unfold OTPCode.compare at h
  split_ifs at h with hexpired hmax hhash
  · cases h
  · cases h
  · cases h
  · have hpk : otp.pk = pk := by simpa [VerifyCall.guessesRight] using h
    simp only [VerifyCall.guessesRight, hphase]
    simp [hpk, not_not.mp hhash, Nat.lt_of_not_le hmax]

theorem commit_auto {cfg : AuthConfig} {s : OtpSys} (hs : BudgetInv cfg s) {i : ℕ}
    {call : VerifyCall} (hcall : s.verifies[i]? = some call) :
    s.commit i call = s.setCall i { call with phase := .ended } := by
  have hmem := List.mem_of_getElem? hcall
  unfold OtpSys.commit
  rw [hs.race.auto call hmem (hs.committed call hmem)]

theorem below_deliver {cfg : AuthConfig} {s : OtpSys} (hs : Below cfg s) (j : ℕ)
    (issue : IssueCall) (own : Option ℕ) : Below cfg (s.deliver j issue own) := by
  unfold OtpSys.deliver
  dsimp only
  split
  · exact hs
  · split
    · exact hs
    · exact below_mark hs _ true

theorem below_effect {cfg : AuthConfig} {s t : OtpSys} {act : OtpAct} (hs : BudgetInv cfg s)
    (hlast : LastAttemptAlone cfg s act) (h : OtpEffect cfg s act t) : Below cfg t := by
  have hcopies : ∀ call ∈ s.verifies, ∀ otp ∈ call.phase.copy, otp.pk < s.nextPk :=
    fun call hcall otp hotp => (hs.race.copies call hcall otp hotp).1
  cases h with
  | idle | announced => exact hs.below
  | called =>
      intro call hcall pk hright
      rcases List.mem_append.mp hcall with hold | hnew
      · exact hs.below call hold pk hright
      · cases List.mem_singleton.mp hnew
        cases hright
  | refused hcall => exact below_done hs.below fun _ => rfl
  | read hcall hotp =>
      refine below_setCall hs.below fun pk hright r hr hpk _ => ?_
      simp only [VerifyCall.guessesRight, Bool.and_eq_true, beq_iff_eq, decide_eq_true_eq] at hright
      rw [OtpTable.row_unique hr hotp (hpk.trans hright.1.1.symm)]
      exact hright.1.2
  | compared hcall hphase =>
      exact below_setCall hs.below fun pk hright =>
        hs.below _ (List.mem_of_getElem? hcall) pk (compare_guessesRight hphase hright)
  | marked hcall | accepted hcall hphase =>
      exact below_update hs hcall (fun _ => rfl) (fun _ => rfl) fun _ _ _ _ => Or.inr (Or.inl rfl)
  | @counted i now call otp done missed hcall hphase hdone =>
      refine below_update hs hcall (fun _ => ?_) (fun _ => rfl) fun r hr hpk hunused => ?_
      · rcases hdone with rfl | ⟨error, rfl⟩ <;> rfl
      · by_cases hmax : cfg.maxAttempts ≤ r.attempts + 1
        · -- the guess uses up the budget, so no right one is on its way
          refine Or.inr (Or.inr (hlast otp.pk ?_))
          have hrow : s.otps.byPk otp.pk = some r := by
            rw [← show r.pk = otp.pk from hpk]
            exact OtpTable.byPk_eq hr
          simp [OtpSys.lastAttempt, hcall, hphase, hrow, hunused, hmax]
        · exact Or.inl (Nat.lt_of_not_le hmax)
  | committed hcall =>
      rw [commit_auto hs hcall]
      exact below_done hs.below fun _ => rfl
  | rolledBack hcall => exact below_done hs.below fun _ => rfl
  | inserted => exact below_insert hcopies hs.below _
  | delivered hissue hphase => exact below_deliver hs.below _ _ _
  | issued hissue hphase =>
      refine below_insert ?_ ?_ _
      · exact hcopies
      · exact below_mark hs.below _ true
  | withdrawn hissue hfree => exact below_delete hs.below _
  | abandoned hissue => exact hs.below

/-! ## Acceptance -/

section Frame

variable {cfg : AuthConfig} {s : OtpSys}

theorem committed_setCall (hs : ∀ call ∈ s.verifies, call.atomic = false) {i : ℕ}
    {new : VerifyCall} (hnew : new.atomic = false) :
    ∀ call ∈ (s.setCall i new).verifies, call.atomic = false := by
  intro call hcall
  rcases List.mem_or_eq_of_mem_set hcall with hold | rfl
  · exact hs call hold
  · exact hnew

theorem logSuccess_verifies (done : VerifyPhase) : (s.logSuccess done).verifies = s.verifies := by
  cases done <;> rfl

theorem committed_update (hs : ∀ call ∈ s.verifies, call.atomic = false) {i : ℕ}
    {call : VerifyCall} (hauto : call.atomic = false) (w : OtpPending) (done missed : VerifyPhase) :
    ∀ other ∈ (s.update i call w done missed).verifies, other.atomic = false := by
  rcases update_cases s i hauto w done missed with heq | ⟨-, heq⟩ | heq
  · rw [heq]
    exact hs
  · rw [heq, logSuccess_verifies]
    exact committed_setCall hs hauto
  · rw [heq]
    exact committed_setCall hs hauto

theorem deliver_verifies (j : ℕ) (issue : IssueCall) (own : Option ℕ) :
    (s.deliver j issue own).verifies = s.verifies := by
  unfold OtpSys.deliver
  dsimp only
  split
  · rfl
  · split <;> rfl

theorem committed_effect {t : OtpSys} {act : OtpAct} (hs : BudgetInv cfg s)
    (hact : act.committed = true) (h : OtpEffect cfg s act t) :
    ∀ call ∈ t.verifies, call.atomic = false := by
  have hcalls := hs.committed
  have hauto : ∀ {i : ℕ} {call : VerifyCall}, s.verifies[i]? = some call → call.atomic = false :=
    fun hcall => hcalls _ (List.mem_of_getElem? hcall)
  have hset : ∀ {i : ℕ} {call : VerifyCall} {phase : VerifyPhase} {pending : Option OtpPending},
      s.verifies[i]? = some call →
        ∀ other ∈ (s.setCall i { call with phase := phase, pending := pending }).verifies,
          other.atomic = false := by
    intro i call phase pending hcall
    have hcommitted := hauto hcall
    exact committed_setCall hcalls hcommitted
  cases h with
  | called =>
      intro call hcall
      rcases List.mem_append.mp hcall with hold | hnew
      · exact hcalls call hold
      · cases List.mem_singleton.mp hnew
        simpa [OtpAct.committed] using hact
  | refused hcall | read hcall | compared hcall | rolledBack hcall => exact hset hcall
  | marked hcall | counted hcall | accepted hcall =>
      exact committed_update hcalls (hauto hcall) _ _ _
  | committed hcall =>
      rw [commit_auto hs hcall]
      exact hset hcall
  | delivered =>
      rw [deliver_verifies]
      exact hcalls
  | idle | announced | inserted | issued | withdrawn | abandoned => exact hcalls

/-- Only the update of a right guess accepts a record. -/
theorem update_events (hauto : ∀ call ∈ s.verifies, call.atomic = false) {i : ℕ} {call : VerifyCall}
    (hcall : s.verifies[i]? = some call) {w : OtpPending} {done missed : VerifyPhase} {pk : ℕ}
    {target : PrimaryIdentifierKind × String × OTPPurpose}
    (h : (s.update i call w done missed).events = s.events ++ [.verified pk target]) :
    ∃ otp, done = .verified otp ∧ otp.pk = pk ∧
      (∃ r ∈ s.otps.rows, r.pk = w.pk ∧ r.isUsed = false) ∧
      (s.update i call w done missed).otps = s.otps.touch [w.pk] w.bumps w.used := by
  rcases update_cases s i (hauto call (List.mem_of_getElem? hcall)) w done missed with
    heq | ⟨hunused, heq⟩ | heq
  · rw [heq] at h
    simp at h
  · cases done with
    | verified otp =>
        rw [heq] at h ⊢
        have hevent := List.append_cancel_left h
        cases hevent
        exact ⟨otp, rfl, rfl, hunused, rfl⟩
    | _ =>
        rw [heq] at h
        simp [OtpSys.logSuccess, OtpSys.touch, OtpSys.setCall] at h
  · rw [heq] at h
    simp [OtpSys.setCall] at h

theorem deliver_events (j : ℕ) (issue : IssueCall) (own : Option ℕ) (pk : ℕ)
    (target : PrimaryIdentifierKind × String × OTPPurpose) :
    (s.deliver j issue own).events ≠ s.events ++ [.verified pk target] := by
  unfold OtpSys.deliver
  dsimp only
  split
  · simp
  · split
    · simp [OtpSys.setIssue]
    · simp [OtpSys.log, OtpSys.touch, OtpSys.setIssue]

/-- **Step lemma.**  The right guess that is accepted was read below the limit. -/
theorem acceptedInBudget_effect {t : OtpSys} {act : OtpAct} (hs : BudgetInv cfg s)
    (h : OtpEffect cfg s act t) {pk : ℕ} {target : PrimaryIdentifierKind × String × OTPPurpose}
    (hevents : t.events = s.events ++ [.verified pk target]) :
    ∀ r ∈ t.otps.rows, r.pk = pk → r.attempts < cfg.maxAttempts := by
  have hsame : s.events ≠ s.events ++ [.verified pk target] := by simp
  cases h with
  | @accepted i now call otp missed hcall hphase =>
      obtain ⟨found, hdone, rfl, ⟨row, hrow, hrowpk, hunused⟩, htouch⟩ :=
        update_events hs.committed hcall hevents
      cases hdone
      intro r' hr' hpk'
      rw [htouch] at hr'
      obtain ⟨r, hr, rfl⟩ := OtpTable.mem_touch.mp hr'
      have hpk : r.pk = otp.pk := by split_ifs at hpk' <;> exact hpk'
      obtain rfl := OtpTable.row_unique hr hrow (hpk.trans hrowpk.symm)
      have hbelow := hs.below call (List.mem_of_getElem? hcall) otp.pk
        (by simp [VerifyCall.guessesRight, hphase]) r hr hpk hunused
      split_ifs <;> exact hbelow
  | marked hcall =>
      obtain ⟨otp, hdone, -⟩ := update_events hs.committed hcall hevents
      cases hdone
  | counted hcall hphase hdone =>
      obtain ⟨otp, rfl, -⟩ := update_events hs.committed hcall hevents
      rcases hdone with hdone | ⟨error, hdone⟩ <;> cases hdone
  | committed hcall =>
      rw [commit_auto hs hcall] at hevents
      exact absurd hevents hsame
  | delivered => exact absurd hevents (deliver_events _ _ _ pk target)
  | issued =>
      have hevent := List.append_cancel_left hevents
      cases hevent
  | idle | called | refused | read | compared | rolledBack | announced | inserted | withdrawn
    | abandoned => exact absurd hevents hsame

end Frame

theorem budgetInv_start (cfg : AuthConfig) (t : OtpTable) : BudgetInv cfg (OtpSys.start t) where
  race := raceInv_start t
  committed _ h := absurd h List.not_mem_nil
  below _ h := absurd h List.not_mem_nil

theorem budgetInv_step {cfg : AuthConfig} (s : OtpSys) (act : OtpAct) (hs : BudgetInv cfg s)
    (hact : act.committed = true ∧ LastAttemptAlone cfg s act) : BudgetInv cfg (s.step cfg act) where
  race := raceInv_step cfg s act hs.race
  committed := committed_effect hs hact.1 (otpEffect_step act)
  below := below_effect hs hact.2 (otpEffect_step act)

/-- **Attempt budget under concurrent guessing.**  Whatever the interleaving of calls that
commit their steps one by one: if no wrong guess uses up the budget of a record while a
right one is between its read and its update, then whenever a call is accepted the stored
counter is below the maximum. -/
theorem accepted_in_budget (cfg : AuthConfig) (t : OtpTable) (acts : List OtpAct)
    (hcommitted : ∀ act ∈ acts, act.committed = true)
    (hlast : Along (OtpSys.step cfg) (LastAttemptAlone cfg) (OtpSys.start t) acts)
    (pre : List OtpAct) (act : OtpAct) (hpre : pre ++ [act] <+: acts) :
    AcceptedInBudget cfg (run (OtpSys.step cfg) (OtpSys.start t) pre) act := by
  have hboth := along_and.mpr ⟨along_of_forall hcommitted, hlast⟩
  have hearlier : pre <+: acts := (List.prefix_append pre [act]).trans hpre
  have hinv := invariant_along budgetInv_step (budgetInv_start cfg t) (along_earlier hboth hearlier)
  exact fun pk target hevents => acceptedInBudget_effect hinv (otpEffect_step act) hevents

section Examples

/-- The right code alone: read, compare, mark. -/
def rightGuess : List OtpAct := [guess "123456", .advance 0 2, .advance 0 2, .advance 0 2]

theorem accepted_in_budget_right :
    Along (OtpSys.step plainConfig) (LastAttemptAlone plainConfig) (OtpSys.start lastChance)
        rightGuess ∧
      AcceptedInBudget plainConfig
        (run (OtpSys.step plainConfig) (OtpSys.start lastChance) (rightGuess.take 3))
        (.advance 0 2) := by
  have hlast : Along (OtpSys.step plainConfig) (LastAttemptAlone plainConfig)
      (OtpSys.start lastChance) rightGuess := by decide +kernel
  have hcommitted : ∀ act ∈ rightGuess, act.committed = true := by decide
  exact ⟨hlast, accepted_in_budget plainConfig lastChance rightGuess hcommitted hlast
    (rightGuess.take 3) (.advance 0 2) (by decide)⟩

/-- Two guesses read the record; the wrong one uses up the budget; then the right one is
compared and marked, before the wrong one marks the record. -/
def overtaken : List OtpAct :=
  [guess "123456", guess "000000", .advance 0 2, .advance 1 2, .advance 1 2, .advance 1 2,
    .advance 0 2, .advance 0 2]

theorem overtaken_beyond_budget :
    (∀ act ∈ overtaken, act.committed = true) ∧
      ¬ AcceptedInBudget plainConfig
        (run (OtpSys.step plainConfig) (OtpSys.start lastChance) (overtaken.take 7))
        (.advance 0 2) := by
  refine ⟨by decide, fun h => ?_⟩
  have hevents : ((run (OtpSys.step plainConfig) (OtpSys.start lastChance) (overtaken.take 7)).step
      plainConfig (.advance 0 2)).events = (run (OtpSys.step plainConfig) (OtpSys.start lastChance)
      (overtaken.take 7)).events ++ [.verified 0 (.email, "user@example.com", .login)] := by
    decide +kernel
  have hrows : ((run (OtpSys.step plainConfig) (OtpSys.start lastChance) (overtaken.take 7)).step
      plainConfig (.advance 0 2)).otps.rows =
      [⟨0, .email, "user@example.com", .login, "123456", "", 1, 100, 5, true⟩] := by
    decide +kernel
  have hlt : 5 < plainConfig.maxAttempts := h 0 _ hevents _ (by rw [hrows]; exact List.mem_singleton_self _) rfl
  exact absurd hlt (by decide)

end Examples

end SetadJang.Authentication
