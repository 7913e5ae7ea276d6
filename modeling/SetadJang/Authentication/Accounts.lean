import SetadJang.Authentication.Normalizers
import SetadJang.Authentication.OtpLockout

/-!
# Account operations

`make_primary_identifier`, `_prepare_phone_number_update` and the account part of
`update_profile` of `apps/authentication/services.py`, next to the entry points that attach
an identifier.  Each works on an account object loaded by its request and saves only the
columns it lists, so what is written depends on the loaded object and not on the stored row.
-/

namespace SetadJang.Authentication

open SetadJang.Framework SetadJang.Framework.Txn

/-- The settings with the normalizers of `normalizers.py`. -/
def withNormalizers (cfg : AuthConfig) : AuthConfig :=
  { cfg with
    normalizeEmail := fun value => (normalizeEmail value).toOption
    normalizePhone := fun value => (normalizePhone value).toOption }

/-- `User.primary_identifier_value`. -/
def User.primaryIdentifierValue (user : User) : Option String :=
  match user.primaryIdentifier with
  | .phone => user.phoneNumber
  | .email => user.email

/-- `User.objects.get(pk=…)`. -/
def userByPk (users : List User) (pk : ℕ) : Option User := users.find? (·.pk == pk)

theorem userByPk_spec {users : List User} {pk : ℕ} {user : User}
    (h : userByPk users pk = some user) : user ∈ users ∧ user.pk = pk :=
  ⟨List.mem_of_find?_eq_some h, by simpa using List.find?_some h⟩

/-- A save of columns of an account, as the account reads it afterwards. -/
theorem userByPk_save {users : List User} {pk : ℕ} {f : User → User}
    (hf : ∀ row, (f row).pk = row.pk) :
    userByPk (users.map fun row => if row.pk = pk then f row else row) pk =
      (userByPk users pk).map f := by
  unfold userByPk
  induction users with
  | nil => rfl
  | cons row rows ih =>
      by_cases hpk : row.pk = pk
      · simp [hpk, hf]
      · simp only [List.map_cons, hpk, if_false, List.find?_cons, beq_eq_false_iff_ne.mpr hpk]
        exact ih

/-- A sequence gives a key that is not in use. -/
theorem nextPk_not_mem {pks : List ℕ} : nextPk pks ∉ pks := by
  intro hmem
  have hle : ∀ xs : List ℕ, ∀ x ∈ xs, x ≤ xs.foldr max 0 := by
    intro xs
    induction xs with
    | nil => simp
    | cons y ys ih =>
        intro x hx
        rcases List.mem_cons.mp hx with rfl | hx
        · exact le_max_left _ _
        · exact (ih x hx).trans (le_max_right _ _)
  have := hle pks _ hmem
  unfold nextPk at this
  omega

/-! ## Switching the primary identifier -/

inductive PrimaryIdentifierError where
  | notAttached (message : String)
  | notVerified (message : String)
deriving DecidableEq, Repr

/-- `make_primary_identifier`, decorated with `@transaction.atomic`. -/
def makePrimaryIdentifier (user : User) (kind : PrimaryIdentifierKind) :
    Txn AuthStore PrimaryIdentifierError Unit :=
  atomic do
    let (currentValue, currentVerified) := getIdentifierStateForUser user kind
    require (currentValue ≠ none) (.notAttached "این شناسه هنوز به حساب شما متصل نشده است.")
    require (currentVerified = true) (.notVerified "این شناسه هنوز تأیید نشده است.")
    if user.primaryIdentifier = kind then
      pure ()
    else
      modify fun s =>
        { s with
          users := s.users.map fun row =>
            if row.pk = user.pk then { row with primaryIdentifier := kind } else row }

/-! ## Changing the phone number -/

inductive ProfileError where
  | validation (message : String)
  | integrity
deriving DecidableEq, Repr

/-- The columns that `_prepare_phone_number_update` lists, with the values set on the object;
`none` stands for a column that is not listed. -/
structure PhoneUpdate where
  phoneNumber : Option (Option String)
  isPhoneVerified : Option Bool
deriving DecidableEq, Repr

/-- `save(update_fields=…)` of these columns. -/
def PhoneUpdate.save (update : PhoneUpdate) (row : User) : User :=
  { row with
    phoneNumber := update.phoneNumber.getD row.phoneNumber
    isPhoneVerified := update.isPhoneVerified.getD row.isPhoneVerified }

/-- `_prepare_phone_number_update`. -/
def preparePhoneNumberUpdate (users : List User) (user : User) (phoneNumber : Option String) :
    Except ProfileError PhoneUpdate :=
  match phoneNumber with
  | none => .ok ⟨none, none⟩
  | some phoneNumber =>
      if phoneNumber = "" then
        if user.primaryIdentifier = .phone ∧ user.email.getD "" = "" then
          .error (.validation "برای این حساب حذف شماره موبایل مجاز نیست.")
        else
          .ok
            { phoneNumber := if user.phoneNumber ≠ none then some none else none
              isPhoneVerified := if user.isPhoneVerified then some false else none }
      else
        match normalizePhone phoneNumber with
        | .error message => .error (.validation message)
        | .ok normalizedPhone =>
            if users.any fun u => u.pk != user.pk && u.phoneNumber == some normalizedPhone then
              .error (.validation "این شماره موبایل قبلاً ثبت شده است.")
            else if user.phoneNumber ≠ some normalizedPhone then
              .ok
                { phoneNumber := some (some normalizedPhone)
                  isPhoneVerified := if user.isPhoneVerified then some false else none }
            else .ok ⟨none, none⟩

/-- The columns a call of `_prepare_phone_number_update` can list. -/
theorem preparePhoneNumberUpdate_cases {users : List User} {user : User}
    {phoneNumber : Option String} {update : PhoneUpdate}
    (h : preparePhoneNumberUpdate users user phoneNumber = .ok update) :
    (phoneNumber ≠ some "" ∧ update = ⟨none, none⟩) ∨
      (phoneNumber = some "" ∧ ¬ (user.primaryIdentifier = .phone ∧ user.email.getD "" = "") ∧
        update = ⟨if user.phoneNumber ≠ none then some none else none,
          if user.isPhoneVerified then some false else none⟩) ∨
      (∃ normalizedPhone, phoneNumber ≠ some "" ∧ user.phoneNumber ≠ some normalizedPhone ∧
        update = ⟨some (some normalizedPhone), if user.isPhoneVerified then some false else none⟩) := by
  unfold preparePhoneNumberUpdate at h
  split at h
  · exact Or.inl ⟨by simp, (Except.ok.inj h).symm⟩
  · rename_i number
    by_cases hempty : number = ""
    · rw [if_pos hempty] at h
      by_cases hguard : user.primaryIdentifier = .phone ∧ user.email.getD "" = ""
      · rw [if_pos hguard] at h
        cases h
      · rw [if_neg hguard] at h
        exact Or.inr (Or.inl ⟨by rw [hempty], hguard, (Except.ok.inj h).symm⟩)
    · have hnumber : some number ≠ some "" := fun heq => hempty (Option.some.inj heq)
      rw [if_neg hempty] at h
      split at h
      · cases h
      · rename_i normalizedPhone _
        by_cases htaken : users.any fun u =>
            u.pk != user.pk && u.phoneNumber == some normalizedPhone
        · rw [if_pos htaken] at h
          cases h
        · rw [if_neg htaken] at h
          by_cases hsame : user.phoneNumber ≠ some normalizedPhone
          · rw [if_pos hsame] at h
            exact Or.inr (Or.inr ⟨normalizedPhone, hnumber, hsame, (Except.ok.inj h).symm⟩)
          · rw [if_neg hsame] at h
            exact Or.inl ⟨hnumber, (Except.ok.inj h).symm⟩

/-- `update_profile`, decorated with `@transaction.atomic`, on the account row.  The save is
refused by the constraint `user_must_have_email_or_phone`. -/
def updateProfile (user : User) (phoneNumber : Option String) : Txn AuthStore ProfileError Unit :=
  atomic do
    let s ← get
    let update ← fromExcept (preparePhoneNumberUpdate s.users user phoneNumber)
    if update.phoneNumber = none ∧ update.isPhoneVerified = none then
      pure ()
    else
      require (∀ row ∈ s.users, row.pk = user.pk →
        row.email ≠ none ∨ (update.save row).phoneNumber ≠ none) .integrity
      modify fun s =>
        { s with users := s.users.map fun row => if row.pk = user.pk then update.save row else row }

/-! ## What a committed call has done -/

/-- The code check passes for the record `otp`. -/
def CodePasses (cfg : AuthConfig) (s : AuthStore) (kind : PrimaryIdentifierKind) (value : String)
    (purpose : OTPPurpose) (code : String) (now : ℕ) (otp : OTPCode) : Prop :=
  pyIsBlank code = false ∧ s.otps.latestUnused kind value purpose = some otp ∧
    otp.isExpired now = false ∧ otp.attempts < cfg.maxAttempts ∧
    otp.codeHash = expectedHashFor cfg otp code

theorem commits_verifyOtp_iff {cfg : AuthConfig} {kind : PrimaryIdentifierKind} {value : String}
    {purpose : OTPPurpose} {code : String} {now : ℕ} {s t : AuthStore} {r : OTPCode} :
    Commits (verifyOtp cfg kind value purpose code now) s r t ↔
      ∃ otp, CodePasses cfg s kind value purpose code now otp ∧ r = { otp with isUsed := true } ∧
        t = { s with otps := s.otps.markUsed otp.pk } := by
  unfold Commits CodePasses
  by_cases hnone : pyIsBlank code = true ∨ s.otps.latestUnused kind value purpose = none
  · obtain ⟨e, he⟩ := exec_verifyOtp_none cfg now hnone
    rw [he]
    constructor
    · intro h
      cases h
    · rintro ⟨otp, ⟨hcode, hrow, -⟩, -⟩
      rcases hnone with hblank | hempty
      · rw [hcode] at hblank
        cases hblank
      · rw [hrow] at hempty
        cases hempty
  · obtain ⟨hcode, hrow⟩ := not_or.mp hnone
    obtain ⟨otp, hrow⟩ := Option.ne_none_iff_exists'.mp hrow
    have hcode : pyIsBlank code = false := by simpa using hcode
    rw [exec_verifyOtp cfg kind value purpose now hcode hrow]
    constructor
    · intro h
      split_ifs at h with hexpired hspent hhash hnext
      all_goals cases h
      exact ⟨otp, ⟨hcode, hrow, by simpa using hexpired, by omega, not_not.mp hhash⟩, rfl, rfl⟩
    · rintro ⟨otp', ⟨-, hrow', hexpired, hbudget, hhash⟩, rfl, rfl⟩
      rw [hrow] at hrow'
      cases hrow'
      rw [if_neg (by simp [hexpired]), if_neg (by omega), if_neg (by simp [hhash])]

theorem ensureIdentifier_ok {cfg : AuthConfig} {users : List User} {user : User}
    {kind : PrimaryIdentifierKind} {value v : String}
    (h : ensureIdentifierCanBeAddedOrVerified cfg users user kind value = .ok v) :
    normalizeIdentifierByKind cfg kind value = some v ∧
      (getIdentifierStateForUser user kind = (some v, false) ∨
        (getIdentifierStateForUser user kind).1 = none) := by
  unfold ensureIdentifierCanBeAddedOrVerified at h
  cases hnormal : normalizeIdentifierByKind cfg kind value with
  | none => simp [hnormal] at h
  | some normalizedValue =>
      rw [hnormal] at h
      rcases hstate : getIdentifierStateForUser user kind with ⟨current, verified⟩
      rw [hstate] at h
      cases current with
      | none =>
          simp only at h
          split_ifs at h
          exact ⟨by rw [Except.ok.inj h], Or.inr rfl⟩
      | some currentValue =>
          simp only at h
          split_ifs at h with hsame hverified
          · obtain rfl := Except.ok.inj h
            exact ⟨rfl, Or.inl (by rw [hsame]; simpa using hverified)⟩
          · cases kind <;> cases h

/-- **`identifier_add_verify`.** It goes through when both checks and the code check do, and
then spends the code and saves the identifier. -/
theorem commits_identifierAddVerify {cfg : AuthConfig} {user : User} {kind : PrimaryIdentifierKind}
    {value code : String} {now : ℕ} {s t : AuthStore} :
    Commits (identifierAddVerify cfg user kind value code now) s () t ↔
      ∃ v w otp, ensureIdentifierCanBeAddedOrVerified cfg s.users user kind value = .ok v ∧
        CodePasses cfg s kind v .identifierAdd code now otp ∧
        ensureIdentifierCanBeAddedOrVerified cfg s.users user kind v = .ok w ∧
        t = { s with
              otps := s.otps.markUsed otp.pk
              users := s.users.map fun row =>
                if row.pk = user.pk then saveIdentifier user kind w row else row } := by
  simp only [identifierAddVerify, checkCode, updateUser, commits_atomic, commits_bind, commits_get,
    commits_fromExcept, commits_mapError, commits_verifyOtp_iff, commits_modify]
  constructor
  · rintro ⟨_, _, ⟨rfl, rfl⟩, v, _, ⟨hfirst, rfl⟩, _, _, ⟨otp, hcode, -, rfl⟩, _, _, ⟨rfl, rfl⟩,
      w, _, ⟨hsecond, rfl⟩, rfl⟩
    exact ⟨v, w, otp, hfirst, hcode, hsecond, rfl⟩
  · rintro ⟨v, w, otp, hfirst, hcode, hsecond, rfl⟩
    exact ⟨s, s, ⟨rfl, rfl⟩, v, s, ⟨hfirst, rfl⟩, _, _, ⟨otp, hcode, rfl, rfl⟩, _, _, ⟨rfl, rfl⟩,
      w, _, ⟨hsecond, rfl⟩, rfl⟩

theorem allOrNothing_identifierAddVerify {cfg : AuthConfig} {user : User}
    {kind : PrimaryIdentifierKind} {value code : String} {now : ℕ} :
    AllOrNothing (identifierAddVerify cfg user kind value code now) := allOrNothing_atomic _

theorem allOrNothing_updateProfile {user : User} {phoneNumber : Option String} :
    AllOrNothing (updateProfile user phoneNumber) := allOrNothing_atomic _

theorem commits_makePrimaryIdentifier {user : User} {kind : PrimaryIdentifierKind}
    {s t : AuthStore} (h : Commits (makePrimaryIdentifier user kind) s () t) :
    (getIdentifierStateForUser user kind).1 ≠ none ∧
      (t = s ∨ t = { s with
                    users := s.users.map fun row =>
                      if row.pk = user.pk then { row with primaryIdentifier := kind } else row }) := by
  simp only [makePrimaryIdentifier, commits_atomic, commits_bind, commits_require, commits_ite,
    commits_pure, commits_modify] at h
  obtain ⟨-, u, ⟨hvalue, rfl⟩, -, u, ⟨-, rfl⟩, ⟨-, -, rfl⟩ | ⟨-, rfl⟩⟩ := h
  · exact ⟨hvalue, Or.inl rfl⟩
  · exact ⟨hvalue, Or.inr rfl⟩

/-- **`update_profile`.** It goes through when the phone number may be changed, and then saves
the listed columns. -/
theorem commits_updateProfile {user : User} {phoneNumber : Option String} {s t : AuthStore} :
    Commits (updateProfile user phoneNumber) s () t ↔
      ∃ update, preparePhoneNumberUpdate s.users user phoneNumber = .ok update ∧
        (update.phoneNumber = none ∧ update.isPhoneVerified = none ∧ t = s ∨
          ¬ (update.phoneNumber = none ∧ update.isPhoneVerified = none) ∧
          (∀ row ∈ s.users, row.pk = user.pk →
            row.email ≠ none ∨ (update.save row).phoneNumber ≠ none) ∧
          t = { s with
                users := s.users.map fun row =>
                  if row.pk = user.pk then update.save row else row }) := by
  simp only [updateProfile, commits_atomic, commits_bind, commits_get, commits_fromExcept,
    commits_ite, commits_pure, commits_require, commits_modify]
  constructor
  · rintro ⟨_, _, ⟨rfl, rfl⟩, update, _, ⟨hupdate, rfl⟩, ⟨⟨hnumber, hflag⟩, -, rfl⟩ |
      ⟨hsome, _, _, ⟨hrows, rfl⟩, rfl⟩⟩
    · exact ⟨update, hupdate, Or.inl ⟨hnumber, hflag, rfl⟩⟩
    · exact ⟨update, hupdate, Or.inr ⟨hsome, hrows, rfl⟩⟩
  · rintro ⟨update, hupdate, ⟨hnumber, hflag, rfl⟩ | ⟨hsome, hrows, rfl⟩⟩
    · exact ⟨t, t, ⟨rfl, rfl⟩, update, t, ⟨hupdate, rfl⟩, Or.inl ⟨⟨hnumber, hflag⟩, trivial, rfl⟩⟩
    · exact ⟨s, s, ⟨rfl, rfl⟩, update, s, ⟨hupdate, rfl⟩, Or.inr ⟨hsome, (), s, ⟨hrows, rfl⟩, rfl⟩⟩

end SetadJang.Authentication
