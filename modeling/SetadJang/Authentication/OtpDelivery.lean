import SetadJang.Authentication.OtpSingleUse
import SetadJang.Authentication.Accounts

/-!
# Where a one-time code is sent

`generate_and_send_otp` of `apps/authentication/otp.py` and the requests that call it for an
existing account, `login_otp_request` and `forgot_password_request`.  The account is looked
up with `email__iexact`, which compares uppercase forms over all of Unicode, and the code is
sent to the address as the caller wrote it.  The two agree up to ASCII case unless a dotless
i or a long s of the one stands for an ASCII letter of the other.
-/

namespace SetadJang.Authentication

open SetadJang.Framework SetadJang.Framework.Txn

/-! ## The requests -/

/-- What a provider was asked to send. -/
structure Message where
  recipient : String
  code : String
  purpose : OTPPurpose
deriving DecidableEq, Repr

structure OtpMail where
  store : AuthStore
  sent : List Message

/-- What a call gets from outside: the cache's answer for the cooldown slot, the settings, the
clock, the random code and salt, and the answer of the provider. -/
structure OtpDraw where
  reserved : Option ℕ
  cooldownSeconds : ℕ
  ttlSeconds : ℕ
  now : ℕ
  code : String
  salt : String
  delivered : Bool

inductive OtpSendError where
  | cooldownActive (secondsRemaining : ℕ)
  | deliveryError (message : String)
deriving DecidableEq, Repr

inductive OtpRequestError where
  | validation
  | otpService (message : String) (original : OtpSendError)
deriving DecidableEq, Repr

/-- `_map_otp_error_to_service_error`, on the errors of sending a code. -/
def mapOtpSendErrorToServiceError : OtpSendError → OtpRequestError
  | .cooldownActive seconds =>
      .otpService ("لطفاً " ++ toString seconds ++ " ثانیه دیگر تلاش کنید.") (.cooldownActive seconds)
  | .deliveryError message =>
      .otpService "در ارسال کد خطایی رخ داد. لطفاً چند دقیقه دیگر تلاش کنید."
        (.deliveryError message)

/-- `_get_latest_active_otp`. -/
def getLatestActiveOtp (t : OtpTable) (kind : PrimaryIdentifierKind) (value : String)
    (purpose : OTPPurpose) (now : ℕ) : Option OTPCode :=
  (t.rows.filter fun r => decide (r.target = (kind, value, purpose)) && !r.isUsed &&
    decide (now < r.expiresAt)).argmax OTPCode.createdAt

/-- The seconds left of the cooldown: of an earlier reservation, or since the last code. -/
def cooldownLeft (t : OtpTable) (kind : PrimaryIdentifierKind) (value : String)
    (purpose : OTPPurpose) (draw : OtpDraw) : Option ℕ :=
  match draw.reserved with
  | some remaining => some remaining
  | none =>
      match getLatestActiveOtp t kind value purpose draw.now with
      | some latest =>
          let elapsed := draw.now - latest.createdAt
          if elapsed < draw.cooldownSeconds then some (draw.cooldownSeconds - elapsed) else none
      | none => none

/-- The record `_persist_new_otp` creates. -/
def newOtp (cfg : AuthConfig) (t : OtpTable) (kind : PrimaryIdentifierKind) (value : String)
    (purpose : OTPPurpose) (draw : OtpDraw) : OTPCode where
  pk := nextPk (t.rows.map OTPCode.pk)
  identifierKind := kind
  identifierValue := value
  purpose := purpose
  codeHash := hashCode cfg draw.code draw.salt kind value purpose
  codeSalt := draw.salt
  createdAt := draw.now
  expiresAt := draw.now + draw.ttlSeconds
  attempts := 0
  isUsed := false

def modifyOtps (f : OtpTable → OtpTable) : Txn OtpMail OtpSendError Unit :=
  modify fun s => { s with store := { s.store with otps := f s.store.otps } }

/-- `generate_and_send_otp`. -/
def generateAndSendOtp (cfg : AuthConfig) (kind : PrimaryIdentifierKind) (value : String)
    (purpose : OTPPurpose) (draw : OtpDraw) : Txn OtpMail OtpSendError OTPCode := do
  let s ← get
  match cooldownLeft s.store.otps kind value purpose draw with
  | some remaining => throw (.cooldownActive remaining)
  | none =>
      let otp := newOtp cfg s.store.otps kind value purpose draw
      modifyOtps (·.insert otp)
      if draw.delivered then
        modify fun s => { s with sent := s.sent ++ [⟨value, draw.code, purpose⟩] }
        modifyOtps fun t => t.touch (t.unusedFor otp.target (some otp.pk)) 0 true
        return otp
      else
        modifyOtps (·.delete otp.pk)
        throw (.deliveryError
          "متأسفانه در ارسال کد خطایی رخ داد. لطفاً چند دقیقه دیگر تلاش کنید.")

/-- A request for a code of an existing account. -/
def otpRequest (purpose : OTPPurpose) (cfg : AuthConfig) (kind : PrimaryIdentifierKind)
    (value : String) (draw : OtpDraw) : Txn OtpMail OtpRequestError Unit := do
  let value ← orRaise (normalizeIdentifierByKind cfg kind value) .validation
  let s ← get
  match getActiveUserByIdentifier cfg s.store.users kind value with
  | none => pure ()
  | some _ =>
      let _ ← mapError mapOtpSendErrorToServiceError (generateAndSendOtp cfg kind value purpose draw)
      pure ()

def loginOtpRequest := otpRequest .login

def forgotPasswordRequest := otpRequest .passwordReset

/-- The normalizers of the module, and `iexact` as PostgreSQL compares: `UPPER` on both
sides. -/
def iexactConfig (cfg : AuthConfig) : AuthConfig :=
  { withNormalizers cfg with upper := simpleUpper }

/-! ## What a request stores and sends -/

theorem mem_insert_new {t : OtpTable} {row : OTPCode} (h : row.pk ∉ t.rows.map OTPCode.pk) :
    row ∈ (t.insert row).rows := by
  rw [OtpTable.insert, dif_neg h]
  simp

/-- `_commit_otp_delivery` leaves the new record alone. -/
theorem mem_touch_unusedFor {t : OtpTable} {otp : OTPCode} (h : otp ∈ t.rows) :
    otp ∈ (t.touch (t.unusedFor otp.target (some otp.pk)) 0 true).rows := by
  have hout : otp.pk ∉ t.unusedFor otp.target (some otp.pk) := by
    simp [OtpTable.unusedFor]
  exact OtpTable.touch_other h hout

theorem commits_generateAndSendOtp {cfg : AuthConfig} {kind : PrimaryIdentifierKind}
    {value : String} {purpose : OTPPurpose} {draw : OtpDraw} {s t : OtpMail} {otp : OTPCode}
    (h : Commits (generateAndSendOtp cfg kind value purpose draw) s otp t) :
    otp.identifierValue = value ∧ otp.pk ∉ s.store.otps.rows.map OTPCode.pk ∧
      otp ∈ t.store.otps.rows ∧ t.sent = s.sent ++ [⟨value, draw.code, purpose⟩] := by
  unfold generateAndSendOtp at h
  simp only [commits_bind, commits_get] at h
  obtain ⟨_, _, ⟨rfl, rfl⟩, h⟩ := h
  split at h
  · simp only [commits_throw] at h
  · simp only [modifyOtps, commits_bind, commits_modify, commits_ite, commits_pure, commits_throw,
      and_false, exists_false, or_false] at h
    obtain ⟨-, _, rfl, -, -, _, rfl, -, _, rfl, rfl, rfl⟩ := h
    exact ⟨rfl, nextPk_not_mem, mem_touch_unusedFor (mem_insert_new nextPk_not_mem), rfl⟩

/-- A request that selects an account stores a record under the normalised identifier and
sends its code there. -/
theorem commits_otpRequest {purpose : OTPPurpose} {cfg : AuthConfig} {kind : PrimaryIdentifierKind}
    {value v : String} {draw : OtpDraw} {s t : OtpMail} {user : User}
    (hv : normalizeIdentifierByKind cfg kind value = some v)
    (huser : getActiveUserByIdentifier cfg s.store.users kind v = some user)
    (h : Commits (otpRequest purpose cfg kind value draw) s () t) :
    ∃ otp message, otp.identifierValue = v ∧ otp.pk ∉ s.store.otps.rows.map OTPCode.pk ∧
      otp ∈ t.store.otps.rows ∧ message.recipient = v ∧ t.sent = s.sent ++ [message] := by
  unfold otpRequest at h
  simp only [commits_bind, commits_orRaise, hv, Option.some.injEq, commits_get] at h
  obtain ⟨_, _, ⟨rfl, rfl⟩, _, _, ⟨rfl, rfl⟩, h⟩ := h
  rw [huser] at h
  simp only [commits_bind, commits_mapError, commits_pure] at h
  obtain ⟨otp, _, hsend, -, rfl⟩ := h
  obtain ⟨hvalue, hnew, hmem, hsent⟩ := commits_generateAndSendOtp hsend
  exact ⟨otp, _, hvalue, hnew, hmem, rfl, hsent⟩

/-! ## Case of addresses -/

/-- The lowercase of an ASCII letter. -/
def asciiLower (c : Char) : Char :=
  if 65 ≤ c.toNat ∧ c.toNat ≤ 90 then Char.ofNat (c.toNat + 32) else c

/-- Equal up to ASCII letter case. -/
def SameAddress (a b : String) : Prop := a.toList.map asciiLower = b.toList.map asciiLower

/-- The dotless i and the long s, the letters beyond ASCII whose uppercase is in ASCII. -/
def isFoldingLetter (c : Char) : Bool := c.toNat == 0x131 || c.toNat == 0x17F

/-- Where these letters stand in a text. -/
def foldingLetters (s : String) : List (Option Char) :=
  s.toList.map fun c => if isFoldingLetter c then some c else none

theorem asciiLower_toNat (c : Char) :
    (asciiLower c).toNat =
      if 65 ≤ c.toNat ∧ c.toNat ≤ 90 then c.toNat + 32 else c.toNat := by
  unfold asciiLower
  split_ifs
  · exact toNat_ofNat_ascii (by omega)
  · rfl

theorem foldingLetter_eq_iff {c d : Char} :
    ((if isFoldingLetter c then some c else none) = if isFoldingLetter d then some d else none) ↔
      (isFoldingLetter c = true ∨ isFoldingLetter d = true → c = d) := by
  by_cases hc : isFoldingLetter c = true <;> by_cases hd : isFoldingLetter d = true <;>
    simp only [hc, hd, if_true, if_false, Option.some.injEq, reduceCtorEq, or_true, true_or,
      or_self, forall_true_left, false_iff, Bool.false_eq_true, IsEmpty.forall_iff]
  · rintro rfl
    exact hd hc
  · rintro rfl
    exact hc hd

/-- Two characters with one uppercase differ beyond ASCII case exactly when one of them is a
folding letter and the other is not that letter. -/
theorem asciiLower_eq_iff {c d : Char} (hc : IsEmailChar c)
    (h : simpleUpperChar d = simpleUpperChar c) :
    asciiLower c = asciiLower d ↔
      (if isFoldingLetter c then some c else none) = if isFoldingLetter d then some d else none := by
  have hcode := code_of_isEmailChar hc
  have hupper := simpleUpperCode_of_ascii (n := c.toNat) (by omega)
  have hsame : simpleUpperCode d.toNat = simpleUpperCode c.toNat := by
    refine simpleUpperCode_eq_of_char ?_ ?_ h <;>
      · rw [hupper]
        split_ifs <;> omega
  have hcases := simpleUpperCode_ascii (n := d.toNat) (t := simpleUpperCode c.toNat)
    (by rw [hupper]; split_ifs <;> omega) hsame
  rw [hupper] at hcases
  rw [foldingLetter_eq_iff, ← Char.toNat_inj, ← Char.toNat_inj, asciiLower_toNat, asciiLower_toNat]
  simp only [isFoldingLetter, Bool.or_eq_true, beq_iff_eq]
  split_ifs at hcases ⊢ <;> omega

theorem map_asciiLower_eq_iff {cs ds : List Char} (hcs : ∀ c ∈ cs, IsEmailChar c)
    (h : cs.map simpleUpperChar = ds.map simpleUpperChar) :
    cs.map asciiLower = ds.map asciiLower ↔
      (cs.map fun c => if isFoldingLetter c then some c else none) =
        ds.map fun d => if isFoldingLetter d then some d else none := by
  induction cs generalizing ds with
  | nil =>
      obtain rfl : ds = [] := by simpa using h.symm
      exact iff_of_true rfl rfl
  | cons c cs ih =>
      cases ds with
      | nil => cases h
      | cons d ds =>
          obtain ⟨hhead, htail⟩ := List.cons.inj h
          have hrest := ih (fun x hx => hcs x (List.mem_cons_of_mem _ hx)) htail
          have hfirst := asciiLower_eq_iff (hcs c List.mem_cons_self) hhead.symm
          simp only [List.map_cons, List.cons.injEq, hfirst, hrest]

/-- An accepted address that selects an account is the address of the account up to ASCII
case, exactly when the folding letters stand at the same places in both. -/
theorem sameAddress_iff {raw address email : String} (haddress : normalizeEmail raw = .ok address)
    (hupper : simpleUpper email = simpleUpper address) :
    SameAddress address email ↔ foldingLetters address = foldingLetters email := by
  have hmaps : address.toList.map simpleUpperChar = email.toList.map simpleUpperChar := by
    have htexts := congrArg String.toList hupper.symm
    simpa only [simpleUpper, String.toList_ofList] using htexts
  exact map_asciiLower_eq_iff (isEmailChar_normalizeEmail haddress) hmaps

theorem selected_email {cfg : AuthConfig} {users : List User} {address : String} {user : User}
    (h : getActiveUserByIdentifier (iexactConfig cfg) users .email address = some user) :
    ∃ email, user.email = some email ∧ simpleUpper email = simpleUpper address := by
  have hmatch := List.find?_some h
  simp only [Bool.and_eq_true, matchesIdentifier, Option.any_eq_true, iexactConfig,
    beq_iff_eq] at hmatch
  obtain ⟨-, email, hemail, hupper⟩ := hmatch
  exact ⟨email, hemail, hupper⟩

/-- The record a passed check returns is stored under the identifier of the check. -/
theorem commits_checkCode_value {cfg : AuthConfig} {kind : PrimaryIdentifierKind} {value : String}
    {purpose : OTPPurpose} {code : String} {now : ℕ} {s t : AuthStore} {otp : OTPCode}
    (h : Commits (checkCode cfg kind value purpose code now) s otp t) :
    otp.identifierValue = value := by
  simp only [checkCode, commits_mapError, commits_verifyOtp_iff] at h
  obtain ⟨row, ⟨-, hrow, -⟩, rfl, -⟩ := h
  have hmem := List.argmax_mem (Option.mem_def.mpr hrow)
  simp only [List.mem_filter, Bool.and_eq_true, beq_iff_eq] at hmem
  exact hmem.2.1.1.2

/-! ## The account's own address -/

/-- **A code goes to the account's own address, exactly.** Let an accepted spelling select an
account.  A login or reset request for it stores the record and sends the code to an address
that is the account's email up to ASCII case, and a code that is accepted under it is stored
under such an address, if and only if the dotless i and the long s stand at the same places
in the normalised spelling and in the account's email. -/
theorem otp_own_address_iff (cfg : AuthConfig) {users : List User} {raw address : String}
    {user : User} (haddress : normalizeEmail raw = .ok address)
    (huser : getActiveUserByIdentifier (iexactConfig cfg) users .email address = some user) :
    ∃ email, user.email = some email ∧
      (∀ request ∈ [loginOtpRequest, forgotPasswordRequest], ∀ (draw : OtpDraw) (s t : OtpMail),
        s.store.users = users → Commits (request (iexactConfig cfg) .email raw draw) s () t →
        ∃ otp message, otp.pk ∉ s.store.otps.rows.map OTPCode.pk ∧ otp ∈ t.store.otps.rows ∧
          t.sent = s.sent ++ [message] ∧
          (SameAddress message.recipient email ∧ SameAddress otp.identifierValue email ↔
            foldingLetters address = foldingLetters email)) ∧
      ∀ (purpose : OTPPurpose) (code : String) (now : ℕ) (s t : AuthStore) (otp : OTPCode),
        Commits (checkCode (iexactConfig cfg) .email address purpose code now) s otp t →
        (SameAddress otp.identifierValue email ↔ foldingLetters address = foldingLetters email) := by
  obtain ⟨email, hemail, hupper⟩ := selected_email huser
  have hsame := sameAddress_iff haddress hupper
  have hnormal : normalizeIdentifierByKind (iexactConfig cfg) .email raw = some address := by
    simp [normalizeIdentifierByKind, iexactConfig, withNormalizers, haddress, Except.toOption]
  -- the two requests are one body with two purposes
  have hrequest : ∀ (purpose : OTPPurpose) (draw : OtpDraw) (s t : OtpMail),
      s.store.users = users →
      Commits (otpRequest purpose (iexactConfig cfg) .email raw draw) s () t →
      ∃ otp message, otp.pk ∉ s.store.otps.rows.map OTPCode.pk ∧ otp ∈ t.store.otps.rows ∧
        t.sent = s.sent ++ [message] ∧
        (SameAddress message.recipient email ∧ SameAddress otp.identifierValue email ↔
          foldingLetters address = foldingLetters email) := by
    intro purpose draw s t husers hcommit
    obtain ⟨otp, message, hvalue, hnew, hmem, hrecipient, hsent⟩ :=
      commits_otpRequest hnormal (husers ▸ huser) hcommit
    refine ⟨otp, message, hnew, hmem, hsent, ?_⟩
    rw [hrecipient, hvalue, and_self]
    exact hsame
  refine ⟨email, hemail, ?_, ?_⟩
  · intro request hmem
    rcases List.mem_pair.mp hmem with rfl | rfl
    · exact hrequest .login
    · exact hrequest .passwordReset
  · intro purpose code now s t otp hcommit
    rw [commits_checkCode_value hcommit]
    exact hsame

/-! ## A reset code for another mailbox -/

def adminAccount : OtpMail where
  store :=
    { otps := ⟨[], List.nodup_nil⟩
      users := [⟨1, some "admin@example.com", none, .email, true, false, "", "", "p", true⟩]
      sessions := [] }
  sent := []

def sampleDraw : OtpDraw := ⟨none, 60, 300, 100, "482913", "s", true⟩

/-- Someone asks for a reset under the spelling with a dotless i. -/
def dotlessReset : Txn OtpMail OtpRequestError Unit :=
  forgotPasswordRequest (iexactConfig sampleConfig) .email "admın@example.com" sampleDraw

/-- The code of the account `admin@example.com` is sent to `admın@example.com`. -/
theorem reset_code_sent_to_other_mailbox :
    ¬ ∀ (raw address : String) (user : User) (draw : OtpDraw) (s t : OtpMail),
      normalizeEmail raw = .ok address →
      getActiveUserByIdentifier (iexactConfig sampleConfig) s.store.users .email address =
        some user →
      Commits (forgotPasswordRequest (iexactConfig sampleConfig) .email raw draw) s () t →
      ∀ message, t.sent = s.sent ++ [message] → ∀ email ∈ user.email,
        SameAddress message.recipient email := by
  intro h
  have haccepted : normalizeEmail "admın@example.com" = .ok "admın@example.com" := by
    decide +kernel
  have hselected : getActiveUserByIdentifier (iexactConfig sampleConfig) adminAccount.store.users
      .email "admın@example.com" =
      some ⟨1, some "admin@example.com", none, .email, true, false, "", "", "p", true⟩ := by
    decide +kernel
  have hcommit : Commits dotlessReset adminAccount () (after dotlessReset adminAccount) :=
    commits_after (by decide +kernel)
  have hsent : (after dotlessReset adminAccount).sent =
      [⟨"admın@example.com", "482913", .passwordReset⟩] := by decide +kernel
  have hsame := h _ _ _ _ _ _ haccepted hselected hcommit _ hsent "admin@example.com" rfl
  revert hsame
  unfold SameAddress
  decide +kernel

/-- The code that was sent there resets the password of the account. -/
example :
    ((after (forgotPasswordConfirm (iexactConfig sampleConfig) .email "admın@example.com" "482913"
      "n" 150) (after dotlessReset adminAccount).store).users.map User.password) = ["n"] := by
  decide +kernel

/-- The same request in capital letters: the code goes to the account. -/
theorem otp_own_address_capital :
    ∃ otp message, otp ∈ (after (forgotPasswordRequest (iexactConfig sampleConfig) .email
        "Admin@Example.COM" sampleDraw) adminAccount).store.otps.rows ∧
      (after (forgotPasswordRequest (iexactConfig sampleConfig) .email "Admin@Example.COM"
        sampleDraw) adminAccount).sent = [message] ∧
      SameAddress message.recipient "admin@example.com" ∧
      SameAddress otp.identifierValue "admin@example.com" := by
  have haddress : normalizeEmail "Admin@Example.COM" = .ok "admin@example.com" := by decide +kernel
  have huser : getActiveUserByIdentifier (iexactConfig sampleConfig) adminAccount.store.users
      .email "admin@example.com" =
      some ⟨1, some "admin@example.com", none, .email, true, false, "", "", "p", true⟩ := by
    decide +kernel
  obtain ⟨email, hemail, hrequest, -⟩ := otp_own_address_iff sampleConfig haddress huser
  obtain rfl := Option.some.inj hemail
  obtain ⟨otp, message, -, hmem, hsent, hiff⟩ := hrequest forgotPasswordRequest
    (List.mem_cons_of_mem _ List.mem_cons_self) sampleDraw adminAccount _ rfl
    (commits_after (by decide +kernel))
  exact ⟨otp, message, hmem, hsent, hiff.mpr rfl⟩

end SetadJang.Authentication
