import SetadJang.Authentication.Otp

/-!
# The entry points that consume a one-time code

`signup_verify`, `forgot_password_confirm`, `identifier_add_verify` and
`login_otp_verify` of `apps/authentication/services.py`.  The first three are
wrapped in `@transaction.atomic`, the last one is not; that is the only
difference in how they run the code check.

A request carries its own clock reading.  `serve` dispatches a request to its
entry point and `step` is the database after it.
-/

namespace SetadJang.Authentication

open SetadJang.Framework SetadJang.Framework.Txn

inductive AuthServiceError where
  | identifierAlreadyExists
  | identifierNotFound
  | otpService (message : String) (original : OTPError)
  | identifierAlreadyVerified
  | identifierChannelAlreadyOccupied (message : String)
  | validation
deriving DecidableEq, Repr

/-- `_map_otp_error_to_service_error`, on the errors of the code check. -/
def mapOtpErrorToServiceError : OTPError → AuthServiceError
  | .notFound =>
      .otpService "کد نامعتبر یا منقضی شده است. لطفاً درخواست جدید بدهید." .notFound
  | .expired =>
      .otpService "کد نامعتبر یا منقضی شده است. لطفاً درخواست جدید بدهید." .expired
  | .invalidCode message => .otpService "کد وارد شده اشتباه است." (.invalidCode message)
  | .tooManyAttempts =>
      .otpService "تعداد تلاش‌های اشتباه از حد مجاز گذشته است. لطفاً درخواست جدید بدهید."
        .tooManyAttempts

/-- `_normalize_identifier_by_kind`. -/
def normalizeIdentifierByKind (cfg : AuthConfig) (kind : PrimaryIdentifierKind)
    (value : String) : Option String :=
  match kind with
  | .email => cfg.normalizeEmail value
  | .phone => cfg.normalizePhone value

/-- The channel of an account: its identifier and whether it is verified. -/
def getIdentifierStateForUser (user : User) (kind : PrimaryIdentifierKind) :
    Option String × Bool :=
  match kind with
  | .email => (user.email, user.isEmailVerified)
  | .phone => (user.phoneNumber, user.isPhoneVerified)

/-- The account carries this identifier: `iexact` for email, exact for phone. -/
def matchesIdentifier (cfg : AuthConfig) (kind : PrimaryIdentifierKind) (value : String)
    (user : User) : Bool :=
  match kind with
  | .email => user.email.any fun e => cfg.upper e == cfg.upper value
  | .phone => user.phoneNumber == some value

/-- `_identifier_exists_for_other_user`. -/
def identifierExistsForOtherUser (cfg : AuthConfig) (users : List User)
    (kind : PrimaryIdentifierKind) (value : String) (excludeUserId : ℕ) : Bool :=
  users.any fun u => u.pk != excludeUserId && matchesIdentifier cfg kind value u

/-- `_ensure_identifier_can_be_added_or_verified`: the normalised identifier. -/
def ensureIdentifierCanBeAddedOrVerified (cfg : AuthConfig) (users : List User) (user : User)
    (kind : PrimaryIdentifierKind) (value : String) : Except AuthServiceError String :=
  match normalizeIdentifierByKind cfg kind value with
  | none => .error .validation
  | some normalizedValue =>
      match getIdentifierStateForUser user kind with
      | (some currentValue, currentVerified) =>
          if currentValue = normalizedValue then
            if currentVerified then .error .identifierAlreadyVerified
            else .ok normalizedValue
          else
            match kind with
            | .email => .error (.identifierChannelAlreadyOccupied
                "برای این حساب قبلاً یک ایمیل ثبت شده است. جایگزینی ایمیل در این endpoint پشتیبانی نمی‌شود.")
            | .phone => .error (.identifierChannelAlreadyOccupied
                "برای این حساب قبلاً یک شماره موبایل ثبت شده است. جایگزینی شماره موبایل در این endpoint پشتیبانی نمی‌شود.")
      | (none, _) =>
          if identifierExistsForOtherUser cfg users kind normalizedValue user.pk then
            .error .identifierAlreadyExists
          else .ok normalizedValue

/-- `get_active_user_by_identifier`. -/
def getActiveUserByIdentifier (cfg : AuthConfig) (users : List User)
    (kind : PrimaryIdentifierKind) (value : String) : Option User :=
  users.find? fun u => u.isActive && matchesIdentifier cfg kind value u

/-- The next value of a primary key sequence. -/
def nextPk (pks : List ℕ) : ℕ := pks.foldr max 0 + 1

/-- `_create_auth_session`, on the fields the other services read. -/
def createAuthSession (user : ℕ) (refreshJti : String) (now : ℕ) :
    Txn AuthStore AuthServiceError Unit :=
  modify fun s =>
    { s with
      sessions := s.sessions ++
        [⟨nextPk (s.sessions.map AuthSession.pk), user, refreshJti, false, now⟩] }

/-- `User.objects.create_user` for an identifier that is already normalised. -/
def createUser (cfg : AuthConfig) (kind : PrimaryIdentifierKind) (value password : String)
    (firstName lastName : String) : Txn AuthStore AuthServiceError ℕ := do
  let s ← get
  let pk := nextPk (s.users.map User.pk)
  let user : User :=
    { pk := pk
      email := if kind = .email then some value else none
      phoneNumber := if kind = .phone then some value else none
      primaryIdentifier := kind
      isEmailVerified := decide (kind = .email)
      isPhoneVerified := decide (kind = .phone)
      firstName := firstName
      lastName := lastName
      password := cfg.makePassword password
      isActive := true }
  modify fun s => { s with users := s.users ++ [user] }
  return pk

/-- `save(update_fields=…)` on one account row. -/
def updateUser (pk : ℕ) (f : User → User) : Txn AuthStore AuthServiceError Unit :=
  modify fun s => { s with users := s.users.map fun u => if u.pk = pk then f u else u }

/-- `revoke_all_user_sessions`, on the session rows. -/
def revokeAllUserSessions (user : ℕ) : Txn AuthStore AuthServiceError Unit :=
  modify fun s =>
    { s with
      sessions := s.sessions.map fun x => if x.user = user then { x with isRevoked := true } else x }

/-- The code check as every entry point calls it. -/
def checkCode (cfg : AuthConfig) (kind : PrimaryIdentifierKind) (value : String)
    (purpose : OTPPurpose) (code : String) (now : ℕ) :
    Txn AuthStore AuthServiceError OTPCode :=
  mapError mapOtpErrorToServiceError (verifyOtp cfg kind value purpose code now)

/-- `signup_verify`, decorated with `@transaction.atomic`.  Without an HTTP
request no session is registered. -/
def signupVerify (cfg : AuthConfig) (kind : PrimaryIdentifierKind) (value code : String)
    (password firstName lastName : String) (refreshJti : Option String) (now : ℕ) :
    Txn AuthStore AuthServiceError Unit :=
  atomic do
    let value ← orRaise (normalizeIdentifierByKind cfg kind value) .validation
    let _ ← checkCode cfg kind value .signup code now
    let s ← get
    require (¬ s.users.any (matchesIdentifier cfg kind value)) .identifierAlreadyExists
    let pk ← createUser cfg kind value password firstName lastName
    match refreshJti with
    | some jti => createAuthSession pk jti now
    | none => pure ()

/-- `forgot_password_confirm`, decorated with `@transaction.atomic`. -/
def forgotPasswordConfirm (cfg : AuthConfig) (kind : PrimaryIdentifierKind)
    (value code newPassword : String) (now : ℕ) : Txn AuthStore AuthServiceError Unit :=
  atomic do
    let value ← orRaise (normalizeIdentifierByKind cfg kind value) .validation
    let _ ← checkCode cfg kind value .passwordReset code now
    let s ← get
    let user ← orRaise (getActiveUserByIdentifier cfg s.users kind value) .identifierNotFound
    updateUser user.pk fun u => { u with password := cfg.makePassword newPassword }
    revokeAllUserSessions user.pk

/-- `save(update_fields=…)` of `identifier_add_verify`: a column is saved when the request's
own copy of the account differs. -/
def saveIdentifier (user : User) (kind : PrimaryIdentifierKind) (value : String) (row : User) :
    User :=
  match kind with
  | .email =>
      { row with
        email := if user.email ≠ some value then some value else row.email
        isEmailVerified := if user.isEmailVerified then row.isEmailVerified else true }
  | .phone =>
      { row with
        phoneNumber := if user.phoneNumber ≠ some value then some value else row.phoneNumber
        isPhoneVerified := if user.isPhoneVerified then row.isPhoneVerified else true }

/-- `identifier_add_verify`, decorated with `@transaction.atomic`.  `user` is the
account object of the request. -/
def identifierAddVerify (cfg : AuthConfig) (user : User) (kind : PrimaryIdentifierKind)
    (value code : String) (now : ℕ) : Txn AuthStore AuthServiceError Unit :=
  atomic do
    let s ← get
    let value ← fromExcept (ensureIdentifierCanBeAddedOrVerified cfg s.users user kind value)
    let _ ← checkCode cfg kind value .identifierAdd code now
    let s ← get
    let value ← fromExcept (ensureIdentifierCanBeAddedOrVerified cfg s.users user kind value)
    updateUser user.pk (saveIdentifier user kind value)

/-- `login_otp_verify`: not a transaction. -/
def loginOtpVerify (cfg : AuthConfig) (kind : PrimaryIdentifierKind) (value code : String)
    (refreshJti : String) (now : ℕ) : Txn AuthStore AuthServiceError Unit := do
  let value ← orRaise (normalizeIdentifierByKind cfg kind value) .validation
  let _ ← checkCode cfg kind value .login code now
  let s ← get
  let user ← orRaise (getActiveUserByIdentifier cfg s.users kind value) .identifierNotFound
  createAuthSession user.pk refreshJti now

/-! ## Requests -/

inductive Entry where
  | signupVerify (password firstName lastName : String) (refreshJti : Option String)
  | forgotPasswordConfirm (newPassword : String)
  | identifierAddVerify (user : User)
  | loginOtpVerify (refreshJti : String)
deriving DecidableEq, Repr

/-- The purpose whose codes an entry point consumes. -/
def Entry.purpose : Entry → OTPPurpose
  | .signupVerify .. => .signup
  | .forgotPasswordConfirm _ => .passwordReset
  | .identifierAddVerify _ => .identifierAdd
  | .loginOtpVerify _ => .login

structure Request where
  entry : Entry
  kind : PrimaryIdentifierKind
  value : String
  code : String
  now : ℕ
deriving DecidableEq, Repr

def serve (cfg : AuthConfig) (req : Request) : Txn AuthStore AuthServiceError Unit :=
  match req.entry with
  | .signupVerify password firstName lastName jti =>
      signupVerify cfg req.kind req.value req.code password firstName lastName jti req.now
  | .forgotPasswordConfirm newPassword =>
      forgotPasswordConfirm cfg req.kind req.value req.code newPassword req.now
  | .identifierAddVerify user =>
      identifierAddVerify cfg user req.kind req.value req.code req.now
  | .loginOtpVerify jti => loginOtpVerify cfg req.kind req.value req.code jti req.now

/-- The database after one request. -/
def step (cfg : AuthConfig) (s : AuthStore) (req : Request) : AuthStore :=
  after (serve cfg req) s

end SetadJang.Authentication
