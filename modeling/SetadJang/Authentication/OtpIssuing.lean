import Mathlib.Logic.Function.Basic
import SetadJang.Authentication.OtpDelivery
import SetadJang.Framework.Leases
import SetadJang.Framework.Runs

/-!
# Issuing one-time codes

`generate_and_send_otp` between its steps.  A call claims the cooldown slot of its target in the
cache, looks at the newest code in the database, stores a record, hands the code to the provider
and commits: the other codes of the target are marked used.  Where the provider fails the record
and the slot are deleted again.  No transaction is open across the call of the provider, so any
number of calls for one target may be at any of these steps; slots end by their timeout and may
be evicted, and a process may die between two steps.

The calls are those of `signup_request`, `login_otp_request`, `forgot_password_request` and
`identifier_add_request`, which run outside a transaction.  Time is in microseconds.
-/

namespace SetadJang.Authentication

open SetadJang.Framework

abbrev OtpTarget := PrimaryIdentifierKind × String × OTPPurpose

def microseconds (seconds : ℕ) : ℕ := seconds * 1000000

/-- The settings of the module; `digest` is the keyed digest of the cooldown keys. -/
structure OtpIssuer where
  cfg : AuthConfig
  digest : String → String
  cooldownSeconds : ℕ
  ttlSeconds : ℕ

/-- `_cooldown_key`. -/
def OtpIssuer.cooldownKey (issuer : OtpIssuer) (target : OtpTarget) : String :=
  "auth:otp:cooldown:" ++
    issuer.digest (target.1.value ++ "|" ++ target.2.1 ++ "|" ++ target.2.2.value)

/-- What the cache keeps under a cooldown key, and when it times out. -/
structure CooldownSlot where
  claimedAt : ℕ
  stop : ℕ
deriving DecidableEq, Repr

/-- A code that the provider has accepted. -/
structure SentCode where
  target : OtpTarget
  pk : ℕ
  reservedAt : ℕ
deriving DecidableEq, Repr

/-- The cache and the database, with what was sent and which records `verify_otp` has marked. -/
structure IssueStore where
  clock : ℕ
  slots : String → Option CooldownSlot
  otps : OtpTable
  nextPk : ℕ
  sent : List SentCode
  consumed : List ℕ

namespace IssueStore

variable (s : IssueStore)

/-- The end of the slot under a key. -/
def slotStop (key : String) : Option ℕ := (s.slots key).map CooldownSlot.stop

/-- `cache.get`. -/
def getSlot (key : String) : Option CooldownSlot :=
  (s.slots key).filter fun slot => decide (s.clock < slot.stop)

/-- What `cache.add` writes where the key is missing. -/
def addSlot (key : String) (claimedAt timeout : ℕ) : IssueStore :=
  { s with
    slots := Function.update s.slots key (some ⟨claimedAt, s.clock + microseconds timeout⟩) }

/-- `_release_cooldown_slot`: deletes what is there. -/
def releaseCooldownSlot (key : String) : IssueStore :=
  { s with slots := Function.update s.slots key none }

/-- `_persist_new_otp`. -/
def persistNewOtp (otp : OTPCode) : IssueStore :=
  { s with otps := s.otps.insert otp, nextPk := s.nextPk + 1 }

/-- `_commit_otp_delivery`. -/
def commitOtpDelivery (otp : OTPCode) : IssueStore :=
  { s with otps := s.otps.touch (s.otps.unusedFor otp.target (some otp.pk)) 0 true }

/-- `_discard_undelivered_otp`. -/
def discardUndeliveredOtp (otp : OTPCode) : IssueStore := { s with otps := s.otps.delete otp.pk }

end IssueStore

/-- How the call of the provider fails. -/
inductive SendFailure where
  | deliveryProvider
  | other
deriving DecidableEq, Repr

/-- What a step gets from outside: the random code and salt, and the answer of the provider. -/
structure IssueDraw where
  code : String
  salt : String
  failure : Option SendFailure
deriving DecidableEq, Repr

/-- Where a call of `generate_and_send_otp` is. -/
inductive IssuingPhase where
  | called
  | adding (claimedAt : ℕ)
  /-- `cache.add` was refused. -/
  | refused (claimedAt : ℕ)
  /-- The slot has ended between `cache.add` and `cache.get`. -/
  | retrying (claimedAt : ℕ)
  | reserved (reservedAt : ℕ)
  | checked (reservedAt : ℕ) (latest : Option OTPCode)
  /-- The database refuses. -/
  | releasing (reservedAt remaining : ℕ)
  | generating (reservedAt : ℕ)
  | persisting (reservedAt : ℕ) (codeHash codeSalt : String) (expiresAt : ℕ)
  | sending (reservedAt : ℕ) (otp : OTPCode)
  | delivered (reservedAt : ℕ) (otp : OTPCode)
  | discarding (reservedAt : ℕ) (otp : OTPCode) (failure : SendFailure)
  | failing (reservedAt : ℕ) (failure : SendFailure)
  | cooldownActive (secondsRemaining : ℕ)
  | deliveryFailed (failure : SendFailure)
  | issued (otp : OTPCode)
  /-- The process has died. -/
  | crashed
deriving DecidableEq, Repr

namespace IssuingPhase

/-- When the slot was reserved that the call is using. -/
def reservedAt : IssuingPhase → Option ℕ
  | reserved r | checked r _ | releasing r _ | generating r | persisting r _ _ _ | sending r _
  | delivered r _ | discarding r _ _ | failing r _ => some r
  | _ => none

/-- The record that the call has stored and has yet to commit or to discard. -/
def record : IssuingPhase → Option OTPCode
  | sending _ otp | delivered _ otp | discarding _ otp _ => some otp
  | _ => none

/-- The provider has accepted the code, and the other codes are not marked yet. -/
def handed : IssuingPhase → Bool
  | delivered _ _ => true
  | _ => false

end IssuingPhase

namespace OtpIssuer

variable (issuer : OtpIssuer) (target : OtpTarget)

def cooldown : ℕ := microseconds issuer.cooldownSeconds

/-- The record `_persist_new_otp` creates. -/
def newRecord (s : IssueStore) (codeHash codeSalt : String) (expiresAt : ℕ) : OTPCode where
  pk := s.nextPk
  identifierKind := target.1
  identifierValue := target.2.1
  purpose := target.2.2
  codeHash := codeHash
  codeSalt := codeSalt
  createdAt := s.clock
  expiresAt := expiresAt
  attempts := 0
  isUsed := false

/-- The next step of `generate_and_send_otp`. -/
def next (draw : IssueDraw) (s : IssueStore) : IssuingPhase → IssueStore × IssuingPhase
  | .called => (s, .adding s.clock)
  | .adding claimedAt =>
      if Live (s.slotStop (issuer.cooldownKey target)) s.clock then (s, .refused claimedAt)
      else
        (s.addSlot (issuer.cooldownKey target) claimedAt issuer.cooldownSeconds,
          .reserved s.clock)
  | .refused claimedAt =>
      match s.getSlot (issuer.cooldownKey target) with
      | none => (s, .retrying claimedAt)
      | some slot =>
          (s, .cooldownActive
            (max ((issuer.cooldown - (s.clock - slot.claimedAt)) / 1000000) 1))
  | .retrying claimedAt =>
      if Live (s.slotStop (issuer.cooldownKey target)) s.clock then
        (s, .cooldownActive issuer.cooldownSeconds)
      else
        (s.addSlot (issuer.cooldownKey target) claimedAt issuer.cooldownSeconds,
          .reserved s.clock)
  | .reserved r =>
      (s, .checked r (getLatestActiveOtp s.otps target.1 target.2.1 target.2.2 s.clock))
  | .checked r none => (s, .generating r)
  | .checked r (some latest) =>
      let elapsed := s.clock - latest.createdAt
      -- unlike the answer of the slot, this one may be zero seconds
      if elapsed < issuer.cooldown then (s, .releasing r ((issuer.cooldown - elapsed) / 1000000))
      else (s, .generating r)
  | .releasing _ remaining =>
      (s.releaseCooldownSlot (issuer.cooldownKey target), .cooldownActive remaining)
  | .generating r =>
      (s, .persisting r (hashCode issuer.cfg draw.code draw.salt target.1 target.2.1 target.2.2)
        draw.salt (s.clock + microseconds issuer.ttlSeconds))
  | .persisting r codeHash codeSalt expiresAt =>
      let otp := newRecord target s codeHash codeSalt expiresAt
      (s.persistNewOtp otp, .sending r otp)
  | .sending r otp =>
      match draw.failure with
      | none => ({ s with sent := s.sent ++ [⟨target, otp.pk, r⟩] }, .delivered r otp)
      | some failure => (s, .discarding r otp failure)
  | .delivered _ otp => (s.commitOtpDelivery otp, .issued otp)
  | .discarding r otp failure => (s.discardUndeliveredOtp otp, .failing r failure)
  | .failing _ failure =>
      (s.releaseCooldownSlot (issuer.cooldownKey target), .deliveryFailed failure)
  | .cooldownActive seconds => (s, .cooldownActive seconds)
  | .deliveryFailed failure => (s, .deliveryFailed failure)
  | .issued otp => (s, .issued otp)
  | .crashed => (s, .crashed)

end OtpIssuer

/-! ## The system -/

structure IssuingCall where
  target : OtpTarget
  phase : IssuingPhase
deriving DecidableEq, Repr

structure IssueSys where
  store : IssueStore
  calls : List IssuingCall

inductive IssueAct where
  | tick (us : ℕ)
  | call (target : OtpTarget)
  | advance (i : ℕ) (draw : IssueDraw)
  /-- `verify_otp` marks a record. -/
  | consume (pk : ℕ)
  /-- `verify_otp` counts an attempt. -/
  | bump (pk : ℕ)
  | evict (key : String)
  | crash (i : ℕ)
deriving DecidableEq, Repr

def OtpIssuer.step (issuer : OtpIssuer) (s : IssueSys) : IssueAct → IssueSys
  | .tick us => { s with store := { s.store with clock := s.store.clock + us } }
  | .call target => { s with calls := s.calls ++ [⟨target, .called⟩] }
  | .advance i draw =>
      match s.calls[i]? with
      | some call =>
          let after := issuer.next call.target draw s.store call.phase
          ⟨after.1, s.calls.set i { call with phase := after.2 }⟩
      | none => s
  | .consume pk =>
      if s.store.otps.hasUnused pk then
        { s with
          store :=
            { s.store with
              otps := s.store.otps.markUsed pk, consumed := s.store.consumed ++ [pk] } }
      else s
  | .bump pk => { s with store := { s.store with otps := s.store.otps.bumpAttempts pk } }
  | .evict key => { s with store := s.store.releaseCooldownSlot key }
  | .crash i =>
      match s.calls[i]? with
      | some call => { s with calls := s.calls.set i { call with phase := .crashed } }
      | none => s

/-- A table of codes, an empty cache and no call. -/
def issueStart (t : OtpTable) (clock : ℕ) : IssueSys where
  store :=
    { clock := clock, slots := fun _ => none, otps := t,
      nextPk := nextPk (t.rows.map OTPCode.pk), sent := [], consumed := [] }
  calls := []

/-! ## What one step can do -/

/-- The effect of a step of `generate_and_send_otp`, with what the step has looked at. -/
inductive IssueEffect (issuer : OtpIssuer) (target : OtpTarget) (s : IssueStore)
    (phase : IssuingPhase) : IssueStore → IssuingPhase → Prop where
  | moved {phase' : IssuingPhase} : phase'.reservedAt = phase.reservedAt →
      phase'.record = phase.record → phase.handed = false → phase'.handed = false →
      IssueEffect issuer target s phase s phase'
  | reserved (claimedAt : ℕ) : ¬ Live (s.slotStop (issuer.cooldownKey target)) s.clock →
      phase.record = none → phase.handed = false →
      IssueEffect issuer target s phase
        (s.addSlot (issuer.cooldownKey target) claimedAt issuer.cooldownSeconds)
        (.reserved s.clock)
  | released {r : ℕ} {phase' : IssuingPhase} : phase.reservedAt = some r →
      phase.record = none → phase'.reservedAt = none → phase'.record = none →
      phase.handed = false → phase'.handed = false →
      IssueEffect issuer target s phase (s.releaseCooldownSlot (issuer.cooldownKey target)) phase'
  | persisted {r expiresAt : ℕ} {codeHash codeSalt : String} :
      phase = .persisting r codeHash codeSalt expiresAt →
      IssueEffect issuer target s phase
        (s.persistNewOtp (OtpIssuer.newRecord target s codeHash codeSalt expiresAt))
        (.sending r (OtpIssuer.newRecord target s codeHash codeSalt expiresAt))
  | sent {r : ℕ} {otp : OTPCode} : phase = .sending r otp →
      IssueEffect issuer target s phase { s with sent := s.sent ++ [⟨target, otp.pk, r⟩] }
        (.delivered r otp)
  | committed {r : ℕ} {otp : OTPCode} : phase = .delivered r otp →
      IssueEffect issuer target s phase (s.commitOtpDelivery otp) (.issued otp)
  | discarded {r : ℕ} {otp : OTPCode} {failure : SendFailure} :
      phase = .discarding r otp failure →
      IssueEffect issuer target s phase (s.discardUndeliveredOtp otp) (.failing r failure)

/-- **Step cases.** -/
theorem issueEffect_next (issuer : OtpIssuer) (target : OtpTarget) (draw : IssueDraw)
    (s : IssueStore) (phase : IssuingPhase) :
    IssueEffect issuer target s phase (issuer.next target draw s phase).1
      (issuer.next target draw s phase).2 := by
  cases phase with
  | called => exact .moved rfl rfl rfl rfl
  | adding claimedAt =>
      simp only [OtpIssuer.next]
      split
      · exact .moved rfl rfl rfl rfl
      · next hdead => exact .reserved claimedAt hdead rfl rfl
  | refused claimedAt =>
      simp only [OtpIssuer.next]
      split <;> exact .moved rfl rfl rfl rfl
  | retrying claimedAt =>
      simp only [OtpIssuer.next]
      split
      · exact .moved rfl rfl rfl rfl
      · next hdead => exact .reserved claimedAt hdead rfl rfl
  | reserved r => exact .moved rfl rfl rfl rfl
  | checked r latest =>
      cases latest with
      | none => exact .moved rfl rfl rfl rfl
      | some latest =>
          simp only [OtpIssuer.next]
          split <;> exact .moved rfl rfl rfl rfl
  | releasing r remaining => exact .released rfl rfl rfl rfl rfl rfl
  | generating r => exact .moved rfl rfl rfl rfl
  | persisting r codeHash codeSalt expiresAt => exact .persisted rfl
  | sending r otp =>
      simp only [OtpIssuer.next]
      split
      · exact .sent rfl
      · exact .moved rfl rfl rfl rfl
  | delivered r otp => exact .committed rfl
  | discarding r otp failure => exact .discarded rfl
  | failing r failure => exact .released rfl rfl rfl rfl rfl rfl
  | cooldownActive seconds => exact .moved rfl rfl rfl rfl
  | deliveryFailed failure => exact .moved rfl rfl rfl rfl
  | issued otp => exact .moved rfl rfl rfl rfl
  | crashed => exact .moved rfl rfl rfl rfl

/-- A step of the system, if it is one of the calls' steps. -/
theorem step_advance (issuer : OtpIssuer) (s : IssueSys) (i : ℕ) (draw : IssueDraw) :
    issuer.step s (.advance i draw) = s ∨
      ∃ call, s.calls[i]? = some call ∧ ∃ store phase,
        IssueEffect issuer call.target s.store call.phase store phase ∧
        issuer.step s (.advance i draw) = ⟨store, s.calls.set i { call with phase := phase }⟩ := by
  simp only [OtpIssuer.step]
  split
  · next call hcall =>
      exact .inr ⟨call, hcall, _, _, issueEffect_next issuer call.target draw s.store call.phase,
        rfl⟩
  · exact .inl rfl

end SetadJang.Authentication
