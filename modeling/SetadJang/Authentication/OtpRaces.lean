import SetadJang.Authentication.OtpLockout
import SetadJang.Framework.Rows

/-!
# One-time codes under concurrent requests

`verify_otp` reads a record, compares the code and only then writes, so several requests can
be between their read and their write of one record.  Here a call takes one step at a time.
A call of an atomic service keeps what it writes, and the row lock that goes with it, until
the service commits or rolls back; the writes of `login_otp_verify` are committed one by one.
An update of a row that another transaction has written waits for its end.

Codes are issued meanwhile: `_persist_new_otp` stores a record, `_commit_otp_delivery` marks
the other unused records of the target used.  `generate_and_send_otp` commits the two one
after the other; inside the atomic wrappers of the first API both wait for the wrapper.
-/

namespace SetadJang.Authentication

open SetadJang.Framework

/-- What a code is good for. -/
def OTPCode.target (otp : OTPCode) : PrimaryIdentifierKind × String × OTPPurpose :=
  (otp.identifierKind, otp.identifierValue, otp.purpose)

namespace OtpTable

/-- An update of the rows with the given keys. -/
def touch (t : OtpTable) (pks : List ℕ) (bumps : ℕ) (used : Bool) : OtpTable :=
  t.updateWhere (fun r => decide (r.pk ∈ pks))
    (fun r => { r with attempts := r.attempts + bumps, isUsed := r.isUsed || used }) fun _ => rfl

/-- An insert; the key comes from a sequence. -/
def insert (t : OtpTable) (row : OTPCode) : OtpTable :=
  if h : row.pk ∈ t.rows.map OTPCode.pk then t
  else
    { rows := t.rows ++ [row]
      pk_nodup := by
        rw [List.map_append]
        refine List.Nodup.append t.pk_nodup (by simp) ?_
        simpa using h }

def delete (t : OtpTable) (pk : ℕ) : OtpTable where
  rows := t.rows.filter fun r => r.pk != pk
  pk_nodup := t.pk_nodup.sublist (List.filter_sublist.map OTPCode.pk)

/-- The rows `_commit_otp_delivery` updates. -/
def unusedFor (t : OtpTable) (target : PrimaryIdentifierKind × String × OTPPurpose) (own : Option ℕ) :
    List ℕ :=
  (t.rows.filter fun r => decide (r.target = target) && !r.isUsed && decide (some r.pk ≠ own)).map
    OTPCode.pk

end OtpTable

/-! ## Calls -/

/-- The writes of an open transaction on the record it checks. -/
structure OtpPending where
  pk : ℕ
  bumps : ℕ
  used : Bool
deriving DecidableEq, Repr

inductive VerifyPhase where
  | begun
  /-- The record was read. -/
  | read (otp : OTPCode)
  /-- The record is expired or has no attempts left: it is about to be marked. -/
  | rejected (otp : OTPCode) (error : OTPError)
  | wrong (otp : OTPCode)
  | right (otp : OTPCode)
  /-- The counter has reached the maximum: the record is about to be marked. -/
  | exhausted (otp : OTPCode)
  /-- `verify_otp` has returned. -/
  | verified (otp : OTPCode)
  | raised (error : OTPError)
  | ended
deriving DecidableEq, Repr

structure VerifyCall where
  kind : PrimaryIdentifierKind
  value : String
  purpose : OTPPurpose
  code : String
  /-- The caller runs in a transaction of its own. -/
  atomic : Bool
  phase : VerifyPhase
  pending : Option OtpPending
deriving DecidableEq, Repr

/-- The copy of the record that a call works with. -/
def VerifyPhase.copy : VerifyPhase → Option OTPCode
  | .read otp | .rejected otp _ | .wrong otp | .right otp | .exhausted otp | .verified otp => some otp
  | .begun | .raised _ | .ended => none

def VerifyCall.holds (call : VerifyCall) (pk : ℕ) : Bool :=
  call.pending.any fun pending => pending.pk == pk

/-- The table as the call sees it. -/
def VerifyCall.view (call : VerifyCall) (t : OtpTable) : OtpTable :=
  match call.pending with
  | none => t
  | some pending => t.touch [pending.pk] pending.bumps pending.used

/-- The checks of `verify_otp` on its copy, up to the comparison. -/
def OTPCode.compare (cfg : AuthConfig) (otp : OTPCode) (code : String) (now : ℕ) : VerifyPhase :=
  if otp.isExpired now then .rejected otp .expired
  else if cfg.maxAttempts ≤ otp.attempts then .rejected otp .tooManyAttempts
  else if otp.codeHash ≠ expectedHashFor cfg otp code then .wrong otp
  else .right otp

inductive IssuePhase where
  /-- The record is made, the code is on its way. -/
  | sending (own : Option ℕ)
  /-- The other records were updated in a transaction that is still open. -/
  | delivered (retired : List ℕ)
  | ended
deriving DecidableEq, Repr

structure IssueCall where
  row : OTPCode
  atomic : Bool
  /-- The records that were stored when this one was made. -/
  seen : List ℕ
  phase : IssuePhase
deriving DecidableEq, Repr

def IssueCall.holds (issue : IssueCall) (pk : ℕ) : Bool :=
  match issue.phase with
  | .delivered retired => decide (pk ∈ retired)
  | _ => false

/-! ## The system -/

/-- What has been committed. -/
inductive OtpEvent where
  | verified (pk : ℕ) (target : PrimaryIdentifierKind × String × OTPPurpose)
  /-- `_commit_otp_delivery` of a code that was made when the records `seen` were stored. -/
  | delivered (target : PrimaryIdentifierKind × String × OTPPurpose) (seen : List ℕ)
deriving DecidableEq, Repr

structure OtpSys where
  otps : OtpTable
  nextPk : ℕ
  verifies : List VerifyCall
  issues : List IssueCall
  events : List OtpEvent

inductive OtpAct where
  | verify (kind : PrimaryIdentifierKind) (value : String) (purpose : OTPPurpose) (code : String)
      (atomic : Bool)
  | advance (i now : ℕ)
  | commit (i : ℕ)
  | rollback (i : ℕ)
  | issue (row : OTPCode) (atomic : Bool)
  | deliver (j : ℕ)
  | commitIssue (j : ℕ)
  | discard (j : ℕ)
deriving DecidableEq, Repr

namespace OtpSys

variable (cfg : AuthConfig)

def setCall (s : OtpSys) (i : ℕ) (call : VerifyCall) : OtpSys :=
  { s with verifies := s.verifies.set i call }

def setIssue (s : OtpSys) (j : ℕ) (issue : IssueCall) : OtpSys :=
  { s with issues := s.issues.set j issue }

def touch (s : OtpSys) (pks : List ℕ) (bumps : ℕ) (used : Bool) : OtpSys :=
  { s with otps := s.otps.touch pks bumps used }

def log (s : OtpSys) (event : OtpEvent) : OtpSys := { s with events := s.events ++ [event] }

/-- An insert under the next key. -/
def insert (s : OtpSys) (row : OTPCode) : OtpSys :=
  { s with
    otps := s.otps.insert { row with pk := s.nextPk, attempts := 0, isUsed := false }
    nextPk := s.nextPk + 1 }

/-- Another call than `i` holds the lock of the row. -/
def lockedFor (s : OtpSys) (i pk : ℕ) : Bool :=
  (s.verifies.zipIdx.any fun call => call.2 != i && call.1.holds pk) ||
    s.issues.any fun issue => issue.holds pk

def locked (s : OtpSys) (pk : ℕ) : Bool :=
  (s.verifies.any fun call => call.holds pk) || s.issues.any fun issue => issue.holds pk

/-- The success of a call is committed. -/
def logSuccess (s : OtpSys) : VerifyPhase → OtpSys
  | .verified otp => s.log (.verified otp.pk otp.target)
  | _ => s

/-- A write of a call: kept in its transaction, or committed at once. -/
def write (s : OtpSys) (i : ℕ) (call : VerifyCall) (w : OtpPending) (done : VerifyPhase) : OtpSys :=
  if call.atomic then
    let pending : OtpPending :=
      match call.pending with
      | none => w
      | some old => ⟨w.pk, old.bumps + w.bumps, old.used || w.used⟩
    s.setCall i { call with phase := done, pending := some pending }
  else
    ((s.setCall i { call with phase := done }).touch [w.pk] w.bumps w.used).logSuccess done

/-- A conditional update, `filter(pk=pk, is_used=False).update(..)`. -/
def update (s : OtpSys) (i : ℕ) (call : VerifyCall) (w : OtpPending) (done missed : VerifyPhase) :
    OtpSys :=
  if s.lockedFor i w.pk then s
  else if (call.view s.otps).hasUnused w.pk then s.write i call w done
  else s.setCall i { call with phase := missed }

/-- The next step of `verify_otp`. -/
def advance (s : OtpSys) (i : ℕ) (call : VerifyCall) (now : ℕ) : OtpSys :=
  match call.phase with
  | .begun =>
      if pyIsBlank call.code then
        s.setCall i { call with phase := .raised (.invalidCode "کد نمی‌تواند خالی باشد.") }
      else
        match s.otps.latestUnused call.kind call.value call.purpose with
        | none => s.setCall i { call with phase := .raised .notFound }
        | some otp => s.setCall i { call with phase := .read otp }
  | .read otp => s.setCall i { call with phase := otp.compare cfg call.code now }
  | .rejected otp error =>
      s.update i call ⟨otp.pk, 0, true⟩ (.raised error) (.raised .notFound)
  | .wrong otp =>
      let nextAttemptCount := (((call.view s.otps).byPk otp.pk).elim 0 OTPCode.attempts) + 1
      s.update i call ⟨otp.pk, 1, false⟩
        (if cfg.maxAttempts ≤ nextAttemptCount then .exhausted otp
          else .raised (.invalidCode "کد وارد شده اشتباه است."))
        (.raised .notFound)
  | .exhausted otp =>
      s.update i call ⟨otp.pk, 0, true⟩ (.raised .tooManyAttempts) (.raised .tooManyAttempts)
  | .right otp => s.update i call ⟨otp.pk, 0, true⟩ (.verified otp) (.raised .notFound)
  | .verified _ | .raised _ | .ended => s

/-- The end of the service that called `verify_otp`. -/
def commit (s : OtpSys) (i : ℕ) (call : VerifyCall) : OtpSys :=
  match call.pending with
  | none => s.setCall i { call with phase := .ended }
  | some pending =>
      ((s.setCall i { call with phase := .ended, pending := none }).touch [pending.pk]
        pending.bumps pending.used).logSuccess call.phase

/-- `_commit_otp_delivery`. -/
def deliver (s : OtpSys) (j : ℕ) (issue : IssueCall) (own : Option ℕ) : OtpSys :=
  let retired := s.otps.unusedFor issue.row.target own
  if retired.any s.locked then s
  else if issue.atomic then s.setIssue j { issue with phase := .delivered retired }
  else
    ((s.setIssue j { issue with phase := .ended }).touch retired 0 true).log
      (.delivered issue.row.target issue.seen)

def step (s : OtpSys) : OtpAct → OtpSys
  | .verify kind value purpose code atomic =>
      { s with verifies := s.verifies ++ [⟨kind, value, purpose, code, atomic, .begun, none⟩] }
  | .advance i now =>
      match s.verifies[i]? with
      | none => s
      | some call => s.advance cfg i call now
  | .commit i =>
      match s.verifies[i]? with
      | none => s
      | some call =>
          match call.phase with
          | .verified _ | .raised _ => s.commit i call
          | _ => s
  | .rollback i =>
      match s.verifies[i]? with
      | none => s
      | some call => s.setCall i { call with phase := .ended, pending := none }
  | .issue row atomic =>
      let seen := s.otps.rows.map OTPCode.pk
      if atomic then { s with issues := s.issues ++ [⟨row, true, seen, .sending none⟩] }
      else
        let s' := s.insert row
        { s' with issues := s'.issues ++ [⟨row, false, seen, .sending (some s.nextPk)⟩] }
  | .deliver j =>
      match s.issues[j]? with
      | some issue =>
          match issue.phase with
          | .sending own => s.deliver j issue own
          | _ => s
      | none => s
  | .commitIssue j =>
      match s.issues[j]? with
      | some issue =>
          match issue.phase with
          | .delivered retired =>
              (((s.setIssue j { issue with phase := .ended }).touch retired 0 true).log
                (.delivered issue.row.target issue.seen)).insert issue.row
          | _ => s
      | none => s
  | .discard j =>
      match s.issues[j]? with
      | some issue =>
          match issue.phase with
          | .sending (some pk) =>
              if s.locked pk then s
              else { s.setIssue j { issue with phase := .ended } with otps := s.otps.delete pk }
          | _ => s.setIssue j { issue with phase := .ended }
      | none => s

/-- A table and no request in flight. -/
def start (t : OtpTable) : OtpSys where
  otps := t
  nextPk := (t.rows.map OTPCode.pk).foldr max 0 + 1
  verifies := []
  issues := []
  events := []

end OtpSys

/-! ## What one step can do -/

/-- The effect of a step, with what the step has looked at. -/
inductive OtpEffect (cfg : AuthConfig) (s : OtpSys) : OtpAct → OtpSys → Prop where
  | idle {act : OtpAct} : OtpEffect cfg s act s
  | called {kind : PrimaryIdentifierKind} {value : String} {purpose : OTPPurpose} {code : String}
      {atomic : Bool} : OtpEffect cfg s (.verify kind value purpose code atomic)
        { s with verifies := s.verifies ++ [⟨kind, value, purpose, code, atomic, .begun, none⟩] }
  | refused {i now : ℕ} {call : VerifyCall} {error : OTPError} : s.verifies[i]? = some call →
      OtpEffect cfg s (.advance i now) (s.setCall i { call with phase := .raised error })
  | read {i now : ℕ} {call : VerifyCall} {otp : OTPCode} : s.verifies[i]? = some call →
      otp ∈ s.otps.rows →
      OtpEffect cfg s (.advance i now) (s.setCall i { call with phase := .read otp })
  | compared {i now : ℕ} {call : VerifyCall} {otp : OTPCode} : s.verifies[i]? = some call →
      call.phase = .read otp →
      OtpEffect cfg s (.advance i now)
        (s.setCall i { call with phase := otp.compare cfg call.code now })
  /-- An expired or exhausted record is marked. -/
  | marked {i now pk : ℕ} {call : VerifyCall} {error missed : OTPError} :
      s.verifies[i]? = some call →
      OtpEffect cfg s (.advance i now) (s.update i call ⟨pk, 0, true⟩ (.raised error) (.raised missed))
  | counted {i now : ℕ} {call : VerifyCall} {otp : OTPCode} {done : VerifyPhase}
      {missed : OTPError} : s.verifies[i]? = some call → call.phase = .wrong otp →
      (done = .exhausted otp ∨ ∃ error, done = .raised error) →
      OtpEffect cfg s (.advance i now) (s.update i call ⟨otp.pk, 1, false⟩ done (.raised missed))
  | accepted {i now : ℕ} {call : VerifyCall} {otp : OTPCode} {missed : OTPError} :
      s.verifies[i]? = some call → call.phase = .right otp →
      OtpEffect cfg s (.advance i now)
        (s.update i call ⟨otp.pk, 0, true⟩ (.verified otp) (.raised missed))
  | committed {i : ℕ} {call : VerifyCall} : s.verifies[i]? = some call →
      OtpEffect cfg s (.commit i) (s.commit i call)
  | rolledBack {i : ℕ} {call : VerifyCall} : s.verifies[i]? = some call →
      OtpEffect cfg s (.rollback i) (s.setCall i { call with phase := .ended, pending := none })
  | announced {row : OTPCode} {atomic : Bool} :
      OtpEffect cfg s (.issue row atomic)
        { s with issues := s.issues ++ [⟨row, true, s.otps.rows.map OTPCode.pk, .sending none⟩] }
  | inserted {row : OTPCode} {atomic : Bool} :
      OtpEffect cfg s (.issue row atomic)
        { s.insert row with
          issues := (s.insert row).issues ++
            [⟨row, false, s.otps.rows.map OTPCode.pk, .sending (some s.nextPk)⟩] }
  | delivered {j : ℕ} {issue : IssueCall} {own : Option ℕ} : s.issues[j]? = some issue →
      issue.phase = .sending own → OtpEffect cfg s (.deliver j) (s.deliver j issue own)
  | issued {j : ℕ} {issue : IssueCall} {retired : List ℕ} : s.issues[j]? = some issue →
      issue.phase = .delivered retired →
      OtpEffect cfg s (.commitIssue j)
        ((((s.setIssue j { issue with phase := .ended }).touch retired 0 true).log
          (.delivered issue.row.target issue.seen)).insert issue.row)
  | withdrawn {j pk : ℕ} {issue : IssueCall} : s.issues[j]? = some issue → s.locked pk = false →
      OtpEffect cfg s (.discard j)
        { s.setIssue j { issue with phase := .ended } with otps := s.otps.delete pk }
  | abandoned {j : ℕ} {issue : IssueCall} : s.issues[j]? = some issue →
      OtpEffect cfg s (.discard j) (s.setIssue j { issue with phase := .ended })

section Effects

variable {cfg : AuthConfig} {s : OtpSys}

theorem otpEffect_advance {i : ℕ} {call : VerifyCall} (hcall : s.verifies[i]? = some call)
    (now : ℕ) : OtpEffect cfg s (.advance i now) (s.advance cfg i call now) := by
  unfold OtpSys.advance
  split
  · split
    · exact .refused hcall
    · split
      · exact .refused hcall
      · rename_i otp hlatest
        exact .read hcall (OtpTable.latestUnused_spec hlatest).1
  · rename_i otp hphase
    exact .compared hcall hphase
  · exact .marked hcall
  · rename_i otp hphase
    refine .counted hcall hphase ?_
    split_ifs
    · exact Or.inl rfl
    · exact Or.inr ⟨_, rfl⟩
  · exact .marked hcall
  · rename_i otp hphase
    exact .accepted hcall hphase
  · exact .idle
  · exact .idle
  · exact .idle

/-- **Step cases.** -/
theorem otpEffect_step (act : OtpAct) : OtpEffect cfg s act (s.step cfg act) := by
  cases act with
  | verify kind value purpose code atomic => exact .called
  | advance i now =>
      simp only [OtpSys.step]
      split
      · exact .idle
      · rename_i call hcall
        exact otpEffect_advance hcall now
  | commit i =>
      simp only [OtpSys.step]
      split
      · exact .idle
      · rename_i call hcall
        split
        · exact .committed hcall
        · exact .committed hcall
        · exact .idle
  | rollback i =>
      simp only [OtpSys.step]
      split
      · exact .idle
      · rename_i call hcall
        exact .rolledBack hcall
  | issue row atomic =>
      simp only [OtpSys.step]
      split
      · exact .announced
      · exact .inserted
  | deliver j =>
      simp only [OtpSys.step]
      split
      · rename_i issue hissue
        split
        · rename_i own hphase
          exact .delivered hissue hphase
        · exact .idle
      · exact .idle
  | commitIssue j =>
      simp only [OtpSys.step]
      split
      · rename_i issue hissue
        split
        · rename_i retired hphase
          exact .issued hissue hphase
        · exact .idle
      · exact .idle
  | discard j =>
      simp only [OtpSys.step]
      split
      · rename_i issue hissue
        split
        · split
          · exact .idle
          · rename_i hfree
            exact .withdrawn hissue (Bool.eq_false_of_not_eq_true hfree)
        · exact .abandoned hissue
      · exact .idle

end Effects

end SetadJang.Authentication
