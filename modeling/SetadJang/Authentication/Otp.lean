import Mathlib.Data.List.MinMax
import SetadJang.Framework.Txn
import SetadJang.Framework.PyText

/-!
# One-time codes: `verify_otp`

The code table and the verification routine of `apps/authentication/otp.py`.
`verify_otp` is not atomic at its own level: every failure path writes in a
short block of its own (attempt counter, invalidation) and then raises.  What
those writes are worth is decided by the caller's transaction, so the routine is
modelled as a `Txn` whose writes survive its own raise.

The keyed hash is a parameter.  Primary keys are unique by construction of the
table.
-/

namespace SetadJang.Authentication

open SetadJang.Framework SetadJang.Framework.Txn

inductive PrimaryIdentifierKind where
  | email
  | phone
deriving DecidableEq, Repr

def PrimaryIdentifierKind.value : PrimaryIdentifierKind → String
  | .email => "email"
  | .phone => "phone"

inductive OTPPurpose where
  | signup
  | login
  | identifierAdd
  | emailVerification
  | passwordReset
deriving DecidableEq, Repr

def OTPPurpose.value : OTPPurpose → String
  | .signup => "signup"
  | .login => "login"
  | .identifierAdd => "identifier_add"
  | .emailVerification => "email_verification"
  | .passwordReset => "password_reset"

/-- A stored code.  Only its keyed hash is kept. -/
structure OTPCode where
  pk : ℕ
  identifierKind : PrimaryIdentifierKind
  identifierValue : String
  purpose : OTPPurpose
  codeHash : String
  codeSalt : String
  createdAt : ℕ
  expiresAt : ℕ
  attempts : ℕ
  isUsed : Bool
deriving DecidableEq, Repr

/-- `OTPCode.is_expired`. -/
def OTPCode.isExpired (otp : OTPCode) (now : ℕ) : Bool := decide (otp.expiresAt < now)

/-- The code table; the primary key is unique. -/
structure OtpTable where
  rows : List OTPCode
  pk_nodup : (rows.map OTPCode.pk).Nodup

namespace OtpTable

/-- `filter(p).update(f)` for an update that leaves the primary key alone. -/
def updateWhere (t : OtpTable) (p : OTPCode → Bool) (f : OTPCode → OTPCode)
    (hf : ∀ r, (f r).pk = r.pk) : OtpTable where
  rows := t.rows.map fun r => if p r then f r else r
  pk_nodup := by
    have hpk : (OTPCode.pk ∘ fun r => if p r then f r else r) = OTPCode.pk := by
      funext r
      by_cases h : p r <;> simp [h, hf]
    rw [List.map_map, hpk]
    exact t.pk_nodup

/-- The row `filter(pk=pk, is_used=False).update(is_used=True)` writes. -/
def markUsed (t : OtpTable) (pk : ℕ) : OtpTable :=
  t.updateWhere (fun r => r.pk == pk && !r.isUsed) (fun r => { r with isUsed := true })
    fun _ => rfl

/-- `filter(pk=pk, is_used=False).update(attempts=F("attempts") + 1)`. -/
def bumpAttempts (t : OtpTable) (pk : ℕ) : OtpTable :=
  t.updateWhere (fun r => r.pk == pk && !r.isUsed)
    (fun r => { r with attempts := r.attempts + 1 }) fun _ => rfl

/-- The newest unused code for an identifier and a purpose. -/
def latestUnused (t : OtpTable) (kind : PrimaryIdentifierKind) (value : String)
    (purpose : OTPPurpose) : Option OTPCode :=
  (t.rows.filter fun r => r.identifierKind == kind && r.identifierValue == value &&
    r.purpose == purpose && !r.isUsed).argmax OTPCode.createdAt

/-- Some unused row has this primary key: the row count of the conditional
updates is positive. -/
def hasUnused (t : OtpTable) (pk : ℕ) : Bool :=
  t.rows.any fun r => r.pk == pk && !r.isUsed

/-- `refresh_from_db`. -/
def byPk (t : OtpTable) (pk : ℕ) : Option OTPCode := t.rows.find? (·.pk == pk)

end OtpTable

/-- Accounts, as the entry points of the code check read and write them. -/
structure User where
  pk : ℕ
  email : Option String
  phoneNumber : Option String
  primaryIdentifier : PrimaryIdentifierKind
  isEmailVerified : Bool
  isPhoneVerified : Bool
  firstName : String
  lastName : String
  password : String
  isActive : Bool
deriving DecidableEq, Repr

structure AuthSession where
  pk : ℕ
  user : ℕ
  refreshJti : String
  isRevoked : Bool
  lastSeenAt : ℕ
deriving DecidableEq, Repr

structure AuthStore where
  otps : OtpTable
  users : List User
  sessions : List AuthSession

/-- Settings and the library functions the code relies on.  `hmac` is
HMAC-SHA256 in hexadecimal, `upper` is the comparison map of `iexact`. -/
structure AuthConfig where
  secretKey : String
  maxAttempts : ℕ
  hmac : String → String → String
  normalizeEmail : String → Option String
  normalizePhone : String → Option String
  upper : String → String
  makePassword : String → String

inductive OTPError where
  | notFound
  | expired
  | invalidCode (message : String)
  | tooManyAttempts
deriving DecidableEq, Repr

/-- `_hash_code`. -/
def hashCode (cfg : AuthConfig) (code salt : String) (kind : PrimaryIdentifierKind)
    (value : String) (purpose : OTPPurpose) : String :=
  cfg.hmac cfg.secretKey
    (salt ++ "|" ++ kind.value ++ "|" ++ value ++ "|" ++ purpose.value ++ "|" ++ code)

/-- `_hash_code_legacy`: records from before the salt. -/
def hashCodeLegacy (cfg : AuthConfig) (code : String) : String :=
  cfg.hmac cfg.secretKey code

/-- `_expected_hash_for`. -/
def expectedHashFor (cfg : AuthConfig) (otp : OTPCode) (code : String) : String :=
  if otp.codeSalt = "" then hashCodeLegacy cfg code
  else hashCode cfg code otp.codeSalt otp.identifierKind otp.identifierValue otp.purpose

/-- `_mark_otp_used`: true when this call is the one that invalidated the code. -/
def markOtpUsed (otp : OTPCode) : Txn AuthStore OTPError Bool := do
  let store ← get
  modify fun s => { s with otps := s.otps.markUsed otp.pk }
  return store.otps.hasUnused otp.pk

/-- `_increment_otp_attempts`: the attempt count after the increment. -/
def incrementOtpAttempts (otp : OTPCode) : Txn AuthStore OTPError ℕ :=
  atomic do
    let store ← get
    require (store.otps.hasUnused otp.pk = true) .notFound
    modify fun s => { s with otps := s.otps.bumpAttempts otp.pk }
    let fresh ← get
    let row ← orRaise (fresh.otps.byPk otp.pk) .notFound
    return row.attempts

/-- `verify_otp`.  Every failing branch writes first and raises afterwards. -/
def verifyOtp (cfg : AuthConfig) (kind : PrimaryIdentifierKind) (value : String)
    (purpose : OTPPurpose) (code : String) (now : ℕ) : Txn AuthStore OTPError OTPCode := do
  if pyIsBlank code then
    throw (.invalidCode "کد نمی‌تواند خالی باشد.")
  let store ← get
  let otp ← orRaise (store.otps.latestUnused kind value purpose) .notFound
  if otp.isExpired now then
    require ((← markOtpUsed otp) = true) .notFound
    throw .expired
  if cfg.maxAttempts ≤ otp.attempts then
    require ((← markOtpUsed otp) = true) .notFound
    throw .tooManyAttempts
  if otp.codeHash ≠ expectedHashFor cfg otp code then
    let nextAttemptCount ← incrementOtpAttempts otp
    if cfg.maxAttempts ≤ nextAttemptCount then
      let _ ← markOtpUsed otp
      throw .tooManyAttempts
    throw (.invalidCode "کد وارد شده اشتباه است.")
  require ((← markOtpUsed otp) = true) .notFound
  return { otp with isUsed := true }

end SetadJang.Authentication
