import SetadJang.Authentication.OtpIssuing
import SetadJang.Framework.Rows

/-!
# One unused code

Every unused record of a target belongs to a call that has yet to commit or to discard it, or is
the record of the last delivery: a delivery marks all the others, those of calls in flight with
them.  So at most one unused code is left when no call is in flight, however many calls were made
at once, however late they were and whatever the cache has lost.
-/

namespace SetadJang.Authentication

open SetadJang.Framework

namespace OtpTable

/-- Each row of `t'` comes from a row of `t`, and is used if that one was. -/
def Descends (t t' : OtpTable) : Prop :=
  ∀ r' ∈ t'.rows, ∃ r ∈ t.rows, r'.pk = r.pk ∧ r'.target = r.target ∧
    (r.isUsed = true → r'.isUsed = true)

theorem descends_touch (t : OtpTable) (pks : List ℕ) (bumps : ℕ) (used : Bool) :
    t.Descends (t.touch pks bumps used) := by
  intro r' hr'
  obtain ⟨r, hr, hpk, htarget, hused, -⟩ := touch_back hr'
  exact ⟨r, hr, hpk, htarget, hused⟩

theorem descends_delete (t : OtpTable) (pk : ℕ) : t.Descends (t.delete pk) :=
  fun r hr => ⟨r, (mem_delete.mp hr).1, rfl, rfl, id⟩

theorem mem_markUsed_iff {t : OtpTable} {pk : ℕ} {r' : OTPCode} :
    r' ∈ (t.markUsed pk).rows ↔
      ∃ r ∈ t.rows, (if r.pk = pk ∧ r.isUsed = false then { r with isUsed := true } else r) = r' := by
  simp [markUsed, updateWhere]

theorem descends_markUsed (t : OtpTable) (pk : ℕ) : t.Descends (t.markUsed pk) := by
  intro r' hr'
  obtain ⟨r, hr, rfl⟩ := mem_markUsed_iff.mp hr'
  refine ⟨r, hr, ?_⟩
  split_ifs
  · exact ⟨rfl, rfl, fun _ => rfl⟩
  · exact ⟨rfl, rfl, id⟩

theorem descends_bumpAttempts (t : OtpTable) (pk : ℕ) : t.Descends (t.bumpAttempts pk) := by
  intro r' hr'
  obtain ⟨r, hr, rfl⟩ := mem_bumpAttempts.mp hr'
  refine ⟨r, hr, ?_⟩
  split_ifs
  · exact ⟨rfl, rfl, id⟩
  · exact ⟨rfl, rfl, id⟩

/-- What `_commit_otp_delivery` leaves unused of the target is the record that it is about. -/
theorem unused_commit {t : OtpTable} {otp r : OTPCode}
    (hr : r ∈ (t.touch (t.unusedFor otp.target (some otp.pk)) 0 true).rows)
    (htarget : r.target = otp.target) (hunused : r.isUsed = false) : r.pk = otp.pk := by
  obtain ⟨old, hold, hpk, htargets, hused, hmarked⟩ := touch_back hr
  by_contra hne
  have hown : some old.pk ≠ some otp.pk := by
    rw [← hpk]
    simpa using hne
  rcases mem_unusedFor hold (htargets.symm.trans htarget) hown with hwas | hin
  · exact absurd (hused hwas) (by simp [hunused])
  · exact absurd (hmarked hin rfl) (by simp [hunused])

/-- The unused codes of a target. -/
def unused (t : OtpTable) (target : OtpTarget) : List OTPCode :=
  t.rows.filter fun r => decide (r.target = target) && !r.isUsed

theorem mem_unused {t : OtpTable} {target : OtpTarget} {r : OTPCode} :
    r ∈ t.unused target ↔ r ∈ t.rows ∧ r.target = target ∧ r.isUsed = false := by
  simp [unused]

/-- Rows that all have one key are one row. -/
theorem length_unused_le_one {t : OtpTable} {target : OtpTarget}
    (h : ∀ a ∈ t.unused target, ∀ b ∈ t.unused target, a.pk = b.pk) :
    (t.unused target).length ≤ 1 := by
  have hnodup : ((t.unused target).map OTPCode.pk).Nodup :=
    t.pk_nodup.sublist (List.filter_sublist.map OTPCode.pk)
  cases hrows : t.unused target with
  | nil => simp
  | cons a rest =>
      cases rest with
      | nil => simp
      | cons b rest =>
          rw [hrows] at hnodup h
          have hpk := h a (by simp) b (by simp)
          simp [hpk] at hnodup

end OtpTable

/-! ## The records of the calls -/

section

variable {issuer : OtpIssuer} {s : IssueSys}

/-- A call in flight has yet to commit or to discard the record. -/
def Owned (s : IssueSys) (pk : ℕ) : Prop :=
  ∃ (i : ℕ) (call : IssuingCall), s.calls[i]? = some call ∧
    ∃ otp ∈ call.phase.record, otp.pk = pk

/-- No call on the target is between storing its record and the end. -/
def Idle (s : IssueSys) (target : OtpTarget) : Prop :=
  ∀ call ∈ s.calls, call.target = target → call.phase.record = none

/-- The keys come from a sequence, and a call's record is one of its target. -/
structure IssueInv (s : IssueSys) : Prop where
  fresh : ∀ r ∈ s.store.otps.rows, r.pk < s.store.nextPk
  owned : ∀ (i : ℕ) (call : IssuingCall), s.calls[i]? = some call → ∀ otp ∈ call.phase.record,
    otp.target = call.target ∧ otp.pk < s.store.nextPk ∧
      ∀ r ∈ s.store.otps.rows, r.pk = otp.pk → r.target = otp.target

theorem issueInv_table (hs : IssueInv s) {store : IssueStore} (hpk : store.nextPk = s.store.nextPk)
    (hrows : s.store.otps.Descends store.otps) : IssueInv ⟨store, s.calls⟩ := by
  constructor
  · intro r' hr'
    obtain ⟨r, hr, hsame, -⟩ := hrows r' hr'
    rw [hsame, show (⟨store, s.calls⟩ : IssueSys).store.nextPk = _ from hpk]
    exact hs.fresh r hr
  · intro i call hcall otp hotp
    obtain ⟨htarget, hlt, hof⟩ := hs.owned i call hcall otp hotp
    refine ⟨htarget, hpk ▸ hlt, fun r' hr' hr'pk => ?_⟩
    obtain ⟨r, hr, hsame, hsameTarget, -⟩ := hrows r' hr'
    exact hsameTarget.trans (hof r hr (hsame.symm.trans hr'pk))

/-- A call goes on with the record it had, or with none. -/
theorem issueInv_set (hs : IssueInv s) (phase : IssuingPhase) {i : ℕ} {call : IssuingCall}
    (hcall : s.calls[i]? = some call) (hrecord : ∀ otp ∈ phase.record, otp ∈ call.phase.record) :
    IssueInv ⟨s.store, s.calls.set i { call with phase := phase }⟩ := by
  refine ⟨hs.fresh, fun j other hother otp hotp => ?_⟩
  rcases getElem?_set_cases hother with ⟨rfl, rfl⟩ | ⟨-, hold⟩
  · exact hs.owned i call hcall otp (hrecord otp hotp)
  · exact hs.owned j other hold otp hotp

theorem issueInv_persisted (hs : IssueInv s) {i r expiresAt : ℕ} {call : IssuingCall}
    {codeHash codeSalt : String} :
    let otp := OtpIssuer.newRecord call.target s.store codeHash codeSalt expiresAt
    IssueInv ⟨s.store.persistNewOtp otp, s.calls.set i { call with phase := .sending r otp }⟩ := by
  intro otp
  have hrow : ∀ row ∈ (s.store.persistNewOtp otp).otps.rows, row = otp ∨ row ∈ s.store.otps.rows :=
    fun row hrow => OtpTable.mem_insert hrow
  constructor
  · intro row hmem
    rcases hrow row hmem with rfl | hold
    · exact Nat.lt_succ_self _
    · exact Nat.lt_succ_of_lt (hs.fresh row hold)
  · intro j other hother otp' hotp'
    rcases getElem?_set_cases hother with ⟨rfl, rfl⟩ | ⟨-, hold⟩
    · cases hotp'
      refine ⟨rfl, Nat.lt_succ_self _, fun row hmem hpk => ?_⟩
      rcases hrow row hmem with rfl | hold
      · rfl
      · exact absurd hpk (hs.fresh row hold).ne
    · obtain ⟨htarget, hlt, hof⟩ := hs.owned j other hold otp' hotp'
      refine ⟨htarget, Nat.lt_succ_of_lt hlt, fun row hmem hpk => ?_⟩
      rcases hrow row hmem with rfl | hold
      · exact absurd hpk.symm hlt.ne
      · exact hof row hold hpk

/-- **Step lemma.** -/
theorem issueInv_step (hs : IssueInv s) (act : IssueAct) : IssueInv (issuer.step s act) := by
  cases act with
  | tick us => exact ⟨hs.fresh, hs.owned⟩
  | evict key => exact ⟨hs.fresh, hs.owned⟩
  | call target =>
      refine ⟨hs.fresh, fun i call hcall otp hotp => ?_⟩
      rcases getElem?_concat_cases hcall with hold | ⟨-, rfl⟩
      · exact hs.owned i call hold otp hotp
      · cases hotp
  | consume pk =>
      simp only [OtpIssuer.step]
      split
      · exact issueInv_table hs rfl (OtpTable.descends_markUsed _ pk)
      · exact hs
  | bump pk => exact issueInv_table hs rfl (OtpTable.descends_bumpAttempts _ pk)
  | crash i =>
      simp only [OtpIssuer.step]
      split
      · next call hcall => exact issueInv_set hs _ hcall (fun _ h => absurd h (Option.not_mem_none _))
      · exact hs
  | advance i draw =>
      rcases step_advance issuer s i draw with
        hsame | ⟨call, hcall, store, phase, heffect, hstep⟩
      · rwa [hsame]
      · rw [hstep]
        cases heffect with
        | moved _ hrecord _ _ => exact issueInv_set hs _ hcall fun otp hotp => hrecord ▸ hotp
        | reserved claimedAt =>
            have hset := issueInv_set hs (.reserved s.store.clock) hcall (fun _ h => absurd h (Option.not_mem_none _))
            exact ⟨hset.fresh, hset.owned⟩
        | released _ _ _ hnone _ _ =>
            have hset := issueInv_set hs phase hcall (by simp [hnone])
            exact ⟨hset.fresh, hset.owned⟩
        | persisted => exact issueInv_persisted hs
        | @sent r otp hphase =>
            have hset := issueInv_set hs (.delivered r otp) hcall
              (by simp [hphase, IssuingPhase.record])
            exact ⟨hset.fresh, hset.owned⟩
        | @committed r otp hphase =>
            have htable : IssueInv ⟨s.store.commitOtpDelivery otp, s.calls⟩ :=
              issueInv_table hs rfl (OtpTable.descends_touch _ _ _ _)
            exact issueInv_set htable _ hcall (by simp [IssuingPhase.record])
        | @discarded r otp failure hphase =>
            have htable : IssueInv ⟨s.store.discardUndeliveredOtp otp, s.calls⟩ :=
              issueInv_table hs rfl (OtpTable.descends_delete _ _)
            exact issueInv_set htable _ hcall (by simp [IssuingPhase.record])

theorem issueInv_start (t : OtpTable) (clock : ℕ) : IssueInv (issueStart t clock) := by
  refine ⟨fun r hr => ?_, fun i call hcall => by cases hcall⟩
  exact Nat.lt_succ_of_le (le_foldr_max (List.mem_map_of_mem hr))

/-! ## What is unused -/

/-- What is unused of a target belongs to a call in flight, with one exception. -/
def OneKept (s : IssueSys) : Prop :=
  ∀ target, ∃ keep : Option ℕ, ∀ r ∈ s.store.otps.unused target,
    Owned s r.pk ∨ some r.pk = keep

/-- No process dies between storing a record and the end of the call. -/
def NoOrphan (s : IssueSys) : IssueAct → Prop
  | .crash i => ∀ call ∈ s.calls[i]?, call.phase.record = none
  | _ => True

instance (s : IssueSys) : ∀ act, Decidable (NoOrphan s act)
  | .crash i => inferInstanceAs (Decidable (∀ call ∈ s.calls[i]?, call.phase.record = none))
  | .tick _ | .call _ | .advance _ _ | .consume _ | .bump _ | .evict _ => isTrue trivial

/-- A call that moves on gives up no record but the one under `pk`. -/
theorem owned_set (store : IssueStore) (phase : IssuingPhase) {i : ℕ} {call : IssuingCall}
    (hcall : s.calls[i]? = some call) {pk : ℕ} (howned : Owned s pk) :
    (∃ otp ∈ call.phase.record, otp.pk = pk) ∨
      Owned ⟨store, s.calls.set i { call with phase := phase }⟩ pk := by
  obtain ⟨j, other, hother, hrecord⟩ := howned
  by_cases hij : i = j
  · subst hij
    obtain rfl := Option.some.inj (hcall.symm.trans hother)
    exact .inl hrecord
  · refine .inr ⟨j, other, ?_, hrecord⟩
    rw [← hother]
    exact List.getElem?_set_ne hij

/-- A call that moves on with its record. -/
theorem owned_keep {i : ℕ} {call : IssuingCall} {phase : IssuingPhase} {store : IssueStore}
    (hcall : s.calls[i]? = some call) (hrecord : ∀ otp ∈ call.phase.record, otp ∈ phase.record)
    {pk : ℕ} (howned : Owned s pk) :
    Owned ⟨store, s.calls.set i { call with phase := phase }⟩ pk := by
  rcases owned_set store phase hcall howned with ⟨otp, hotp, hpk⟩ | hother
  · have hi : i < s.calls.length := (List.getElem?_eq_some_iff.mp hcall).1
    exact ⟨i, _, List.getElem?_set_self hi, otp, hrecord otp hotp, hpk⟩
  · exact hother

theorem OtpTable.Descends.unused {t t' : OtpTable} (h : t.Descends t') {target : OtpTarget}
    {r' : OTPCode} (hr' : r' ∈ t'.unused target) : ∃ r ∈ t.unused target, r'.pk = r.pk := by
  obtain ⟨hmem, htarget, hunused⟩ := OtpTable.mem_unused.mp hr'
  obtain ⟨r, hr, hpk, hsame, hused⟩ := h r' hmem
  refine ⟨r, OtpTable.mem_unused.mpr ⟨hr, hsame.symm.trans htarget, ?_⟩, hpk⟩
  exact Bool.eq_false_of_not_eq_true fun hwas => by simp [hused hwas] at hunused

/-- Rows are only marked or deleted, and every call keeps its record. -/
theorem OneKept.descends (hs : OneKept s) {s' : IssueSys}
    (hrows : s.store.otps.Descends s'.store.otps) (howned : ∀ pk, Owned s pk → Owned s' pk) :
    OneKept s' := by
  intro target
  obtain ⟨keep, hkeep⟩ := hs target
  refine ⟨keep, fun r' hr' => ?_⟩
  obtain ⟨r, hr, hpk⟩ := hrows.unused hr'
  rw [hpk]
  exact (hkeep r hr).imp (howned r.pk) id

theorem OneKept.committed (hs : OneKept s) (hinv : IssueInv s) {i r : ℕ} {call : IssuingCall}
    {otp : OTPCode} (hcall : s.calls[i]? = some call) (hphase : call.phase = .delivered r otp) :
    OneKept ⟨s.store.commitOtpDelivery otp, s.calls.set i { call with phase := .issued otp }⟩ := by
  have hrecord : otp ∈ call.phase.record := by rw [hphase]; exact rfl
  obtain ⟨-, -, hof⟩ := hinv.owned i call hcall otp hrecord
  have hdesc : s.store.otps.Descends (s.store.commitOtpDelivery otp).otps :=
    OtpTable.descends_touch _ _ _ _
  intro target
  by_cases htarget : target = otp.target
  · -- the record of the delivery is the one that is kept
    subst htarget
    refine ⟨some otp.pk, fun row hrow => .inr ?_⟩
    obtain ⟨hmem, hrowTarget, hunused⟩ := OtpTable.mem_unused.mp hrow
    rw [OtpTable.unused_commit hmem hrowTarget hunused]
  · obtain ⟨keep, hkeep⟩ := hs target
    refine ⟨keep, fun row' hrow' => ?_⟩
    obtain ⟨row, hrow, hpk⟩ := hdesc.unused hrow'
    rw [hpk]
    rcases hkeep row hrow with howned | hkept
    · refine .inl ((owned_set _ _ hcall howned).resolve_left ?_)
      rintro ⟨otp', hotp', hpk'⟩
      obtain rfl : otp = otp' := Option.some.inj (hrecord.symm.trans hotp')
      obtain ⟨hmem, hrowTarget, -⟩ := OtpTable.mem_unused.mp hrow
      exact htarget (hrowTarget.symm.trans (hof row hmem hpk'.symm))
    · exact .inr hkept

theorem OneKept.discarded (hs : OneKept s) {i r : ℕ} {call : IssuingCall} {otp : OTPCode}
    {failure : SendFailure} (hcall : s.calls[i]? = some call)
    (hphase : call.phase = .discarding r otp failure) :
    OneKept ⟨s.store.discardUndeliveredOtp otp,
      s.calls.set i { call with phase := .failing r failure }⟩ := by
  have hrecord : otp ∈ call.phase.record := by rw [hphase]; exact rfl
  intro target
  obtain ⟨keep, hkeep⟩ := hs target
  refine ⟨keep, fun row hrow => ?_⟩
  obtain ⟨hmem, hrowTarget, hunused⟩ := OtpTable.mem_unused.mp hrow
  obtain ⟨hold, hne⟩ := OtpTable.mem_delete.mp hmem
  rcases hkeep row (OtpTable.mem_unused.mpr ⟨hold, hrowTarget, hunused⟩) with howned | hkept
  · refine .inl ((owned_set _ _ hcall howned).resolve_left ?_)
    rintro ⟨otp', hotp', hpk'⟩
    obtain rfl : otp = otp' := Option.some.inj (hrecord.symm.trans hotp')
    exact hne hpk'.symm
  · exact .inr hkept

theorem OneKept.persisted (hs : OneKept s) {i r expiresAt : ℕ} {call : IssuingCall}
    {codeHash codeSalt : String} (hcall : s.calls[i]? = some call)
    (hphase : call.phase = .persisting r codeHash codeSalt expiresAt) :
    let otp := OtpIssuer.newRecord call.target s.store codeHash codeSalt expiresAt
    OneKept ⟨s.store.persistNewOtp otp, s.calls.set i { call with phase := .sending r otp }⟩ := by
  intro otp target
  obtain ⟨keep, hkeep⟩ := hs target
  refine ⟨keep, fun row hrow => ?_⟩
  obtain ⟨hmem, hrowTarget, hunused⟩ := OtpTable.mem_unused.mp hrow
  have hi : i < s.calls.length := (List.getElem?_eq_some_iff.mp hcall).1
  rcases OtpTable.mem_insert hmem with rfl | hold
  · exact .inl ⟨i, _, List.getElem?_set_self hi, otp, rfl, rfl⟩
  · have hquiet : ∀ otp' ∈ call.phase.record, otp' ∈ (IssuingPhase.sending r otp).record := by
      simp [hphase, IssuingPhase.record]
    exact (hkeep row (OtpTable.mem_unused.mpr ⟨hold, hrowTarget, hunused⟩)).imp
      (owned_keep hcall hquiet) id

/-- **Step lemma.** -/
theorem OneKept.step (hs : OneKept s) (hinv : IssueInv s) {act : IssueAct} (hact : NoOrphan s act) :
    OneKept (issuer.step s act) := by
  have hsame : s.store.otps.Descends s.store.otps := fun r hr => ⟨r, hr, rfl, rfl, id⟩
  cases act with
  | tick us => exact hs
  | evict key => exact hs
  | call target =>
      refine hs.descends hsame fun pk howned => ?_
      obtain ⟨i, call, hcall, hrecord⟩ := howned
      have hi : i < s.calls.length := (List.getElem?_eq_some_iff.mp hcall).1
      exact ⟨i, call, (List.getElem?_append_left hi).trans hcall, hrecord⟩
  | consume pk =>
      simp only [OtpIssuer.step]
      split
      · exact hs.descends (OtpTable.descends_markUsed _ pk) fun _ => id
      · exact hs
  | bump pk => exact hs.descends (OtpTable.descends_bumpAttempts _ pk) fun _ => id
  | crash i =>
      simp only [OtpIssuer.step]
      split
      · next call hcall =>
          have hnone : call.phase.record = none := hact call (by rw [hcall]; rfl)
          exact hs.descends hsame fun pk => owned_keep hcall (by simp [hnone])
      · exact hs
  | advance i draw =>
      rcases step_advance issuer s i draw with
        hstay | ⟨call, hcall, store, phase, heffect, hstep⟩
      · rwa [hstay]
      · rw [hstep]
        cases heffect with
        | moved _ hrecord _ _ =>
            exact hs.descends hsame fun pk => owned_keep hcall fun otp hotp => hrecord ▸ hotp
        | reserved claimedAt _ hnone _ =>
            exact hs.descends hsame fun pk => owned_keep hcall (by simp [hnone])
        | released _ hnone _ _ _ _ =>
            exact hs.descends hsame fun pk => owned_keep hcall (by simp [hnone])
        | persisted hphase => exact hs.persisted hcall hphase
        | sent hphase =>
            exact hs.descends hsame fun pk =>
              owned_keep hcall (by simp [hphase, IssuingPhase.record])
        | committed hphase => exact hs.committed hinv hcall hphase
        | discarded hphase => exact hs.discarded hcall hphase

end

def plainIssuer : OtpIssuer := ⟨plainConfig, id, 60, 300⟩

def loginTarget : OtpTarget := (.email, "a@b.ir", .login)

def accepted : IssueDraw := ⟨"123456", "00", none⟩

/-- A second call gets a slot because the first one was evicted, and both codes are sent. -/
def overlappingSends : List IssueAct :=
  [.call loginTarget, .call loginTarget] ++ List.replicate 6 (.advance 0 accepted) ++
    [.evict (plainIssuer.cooldownKey loginTarget), .tick 60000000] ++
    List.replicate 7 (.advance 1 accepted) ++
    [.advance 0 accepted, .advance 0 accepted, .advance 1 accepted]

/-- The two have marked each other's code. -/
example : (run plainIssuer.step (issueStart ⟨[], by simp⟩ 0) overlappingSends).store.otps.unused
    loginTarget = [] := by decide +kernel

end SetadJang.Authentication
