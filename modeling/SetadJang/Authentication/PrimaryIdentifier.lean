import SetadJang.Framework.Rows
import SetadJang.Authentication.Accounts

/-!
# The primary identifier of an account

`primary_identifier` names the channel an account logs in with, and `User` reads the
identifier through it.  The account operations in sequence, each on a freshly loaded row:
the named channel keeps a value, except when `update_profile` removes the phone number of
an account whose primary identifier is the phone and which has an email as well.
-/

namespace SetadJang.Authentication

open SetadJang.Framework SetadJang.Framework.Txn

inductive AccountOp where
  | signupVerify (kind : PrimaryIdentifierKind) (value code password firstName lastName : String)
      (refreshJti : Option String) (now : ℕ)
  | identifierAddVerify (pk : ℕ) (kind : PrimaryIdentifierKind) (value code : String) (now : ℕ)
  | makePrimaryIdentifier (pk : ℕ) (kind : PrimaryIdentifierKind)
  | updateProfile (pk : ℕ) (phoneNumber : Option String)
  | otherCodes (otps : OtpTable)

/-- The database after one operation.  `otherCodes` stands for whatever else happens to the
code table in between. -/
def accountStep (cfg : AuthConfig) (s : AuthStore) : AccountOp → AuthStore
  | .signupVerify kind value code password firstName lastName refreshJti now =>
      after (signupVerify (withNormalizers cfg) kind value code password firstName lastName
        refreshJti now) s
  | .identifierAddVerify pk kind value code now =>
      match userByPk s.users pk with
      | some user => after (identifierAddVerify (withNormalizers cfg) user kind value code now) s
      | none => s
  | .makePrimaryIdentifier pk kind =>
      match userByPk s.users pk with
      | some user => after (makePrimaryIdentifier user kind) s
      | none => s
  | .updateProfile pk phoneNumber =>
      match userByPk s.users pk with
      | some user => after (updateProfile user phoneNumber) s
      | none => s
  | .otherCodes otps => { s with otps := otps }

/-- Every account has a value in the channel its primary identifier names. -/
def PrimaryExists (users : List User) : Prop := ∀ user ∈ users, user.primaryIdentifierValue ≠ none

/-- The operation removes the phone number of an account that is primary by phone and has an
email too. -/
def RemovesPrimaryPhone (s : AuthStore) : AccountOp → Prop
  | .updateProfile pk phoneNumber =>
      phoneNumber = some "" ∧ ∃ user ∈ userByPk s.users pk,
        user.primaryIdentifier = .phone ∧ user.email.getD "" ≠ ""
  | _ => False

instance (s : AuthStore) : ∀ op, Decidable (RemovesPrimaryPhone s op)
  | .updateProfile _ _ => inferInstanceAs (Decidable (_ ∧ ∃ user ∈ userByPk s.users _, _))
  | .signupVerify .. => isFalse id
  | .identifierAddVerify .. => isFalse id
  | .makePrimaryIdentifier .. => isFalse id
  | .otherCodes _ => isFalse id

/-! ## Saving -/

/-- A save of columns of one account: what holds of the saved row and of the others. -/
theorem forall_mem_save {users : List User} {user : User} {f : User → User} {P : User → Prop}
    (hunique : UniqueBy User.pk users) (huser : user ∈ users) (h : ∀ row ∈ users, P row)
    (hsaved : P (f user)) : ∀ row ∈ users.map fun row => if row.pk = user.pk then f row else row,
      P row := by
  intro row' hrow'
  obtain ⟨row, hrow, rfl⟩ := List.mem_map.mp hrow'
  split_ifs with hpk
  · rwa [hunique row hrow user huser hpk]
  · exact h row hrow

/-! ## The operations -/

theorem primaryIdentifierValue_saveIdentifier {user row : User} {kind : PrimaryIdentifierKind}
    {value : String} (h : row.primaryIdentifierValue ≠ none) :
    (saveIdentifier user kind value row).primaryIdentifierValue ≠ none := by
  cases kind <;> cases hprimary : row.primaryIdentifier <;>
    simp only [User.primaryIdentifierValue, saveIdentifier, hprimary] at h ⊢ <;>
    first
      | exact h
      | split_ifs
        · simp
        · exact h

/-- What a saved phone update leaves in the primary channel of the row it was prepared from. -/
theorem primaryIdentifierValue_phoneUpdate {users : List User} {user : User}
    {phoneNumber : Option String} {update : PhoneUpdate}
    (h : preparePhoneNumberUpdate users user phoneNumber = .ok update)
    (hexists : user.primaryIdentifierValue ≠ none) :
    (update.save user).primaryIdentifierValue = none ↔
      phoneNumber = some "" ∧ user.primaryIdentifier = .phone := by
  unfold User.primaryIdentifierValue at hexists ⊢
  cases hprimary : user.primaryIdentifier with
  | email =>
      simp only [hprimary] at hexists
      simp [PhoneUpdate.save, hprimary, hexists]
  | phone =>
      simp only [hprimary] at hexists
      rcases preparePhoneNumberUpdate_cases h with ⟨hnumber, rfl⟩ | ⟨hnumber, -, rfl⟩ |
        ⟨normalizedPhone, hnumber, -, rfl⟩
      · simp [PhoneUpdate.save, hprimary, hexists, hnumber]
      · simp [PhoneUpdate.save, hprimary, hexists, hnumber]
      · simp [PhoneUpdate.save, hprimary, hnumber]

/-- A signup adds one account, primary by the identifier it was made for. -/
theorem commits_signupVerify {cfg : AuthConfig} {kind : PrimaryIdentifierKind}
    {value code password firstName lastName : String} {refreshJti : Option String} {now : ℕ}
    {s t : AuthStore}
    (h : Commits (signupVerify cfg kind value code password firstName lastName refreshJti now)
      s () t) :
    ∃ user, t.users = s.users ++ [user] ∧ user.pk = nextPk (s.users.map User.pk) ∧
      user.primaryIdentifierValue ≠ none := by
  simp only [signupVerify, checkCode, createUser, createAuthSession, commits_atomic, commits_bind,
    commits_orRaise, commits_mapError, commits_verifyOtp_iff, commits_get, commits_require,
    commits_modify, commits_pure] at h
  obtain ⟨v, _, ⟨-, rfl⟩, _, _, ⟨otp, -, -, rfl⟩, _, _, ⟨rfl, rfl⟩, _, _, ⟨-, rfl⟩, pk, _,
    ⟨_, _, ⟨rfl, rfl⟩, _, _, rfl, rfl, rfl⟩, hsession⟩ := h
  refine ⟨⟨nextPk _, if kind = .email then some v else none, if kind = .phone then some v else none, kind,
    decide (kind = .email), decide (kind = .phone), firstName, lastName, cfg.makePassword password,
    true⟩, ?_, rfl, ?_⟩
  · cases refreshJti with
    | none =>
        simp only [commits_pure] at hsession
        rw [hsession.2]
    | some jti =>
        simp only [commits_modify] at hsession
        rw [hsession]
  · cases kind <;> simp [User.primaryIdentifierValue]

/-! ## One step -/

/-- What one operation does to the accounts: nothing, a new account, or a save of columns of
the account it has loaded. -/
inductive AccountEffect (s : AuthStore) : AccountOp → List User → Prop where
  | idle {op : AccountOp} : ¬ RemovesPrimaryPhone s op → AccountEffect s op s.users
  | created {op : AccountOp} {user : User} : ¬ RemovesPrimaryPhone s op →
      user.pk = nextPk (s.users.map User.pk) → user.primaryIdentifierValue ≠ none →
      AccountEffect s op (s.users ++ [user])
  | saved {op : AccountOp} {user : User} {f : User → User} : user ∈ s.users →
      (∀ row, (f row).pk = row.pk) →
      ((f user).primaryIdentifierValue = none ↔ RemovesPrimaryPhone s op) →
      AccountEffect s op (s.users.map fun row => if row.pk = user.pk then f row else row)

section Effects

variable {cfg : AuthConfig} {s : AuthStore}

theorem accountEffect_signupVerify (kind : PrimaryIdentifierKind)
    (value code password firstName lastName : String) (refreshJti : Option String) (now : ℕ) :
    AccountEffect s (.signupVerify kind value code password firstName lastName refreshJti now)
      (after (signupVerify cfg kind value code password firstName lastName refreshJti now)
        s).users := by
  have hall : AllOrNothing
      (signupVerify cfg kind value code password firstName lastName refreshJti now) :=
    allOrNothing_atomic _
  rcases hall s with hsame | ⟨⟨⟩, hcommit⟩
  · rw [hsame]
    exact .idle id
  · obtain ⟨user, husers, hpk, hvalue⟩ := commits_signupVerify hcommit
    rw [husers]
    exact .created id hpk hvalue

theorem accountEffect_identifierAddVerify (hexists : PrimaryExists s.users) {pk : ℕ} {user : User}
    (huser : userByPk s.users pk = some user) (kind : PrimaryIdentifierKind)
    (value code : String) (now : ℕ) :
    AccountEffect s (.identifierAddVerify pk kind value code now)
      (after (identifierAddVerify cfg user kind value code now) s).users := by
  rcases allOrNothing_identifierAddVerify s with hsame | ⟨⟨⟩, hcommit⟩
  · rw [hsame]
    exact .idle id
  · obtain ⟨v, w, otp, -, -, -, ht⟩ := commits_identifierAddVerify.mp hcommit
    have hmem := (userByPk_spec huser).1
    rw [ht]
    refine .saved hmem (fun row => by cases kind <;> rfl) (iff_of_false ?_ id)
    exact primaryIdentifierValue_saveIdentifier (hexists user hmem)

theorem accountEffect_makePrimaryIdentifier {pk : ℕ} {user : User}
    (huser : userByPk s.users pk = some user) (kind : PrimaryIdentifierKind) :
    AccountEffect s (.makePrimaryIdentifier pk kind)
      (after (makePrimaryIdentifier user kind) s).users := by
  have hall : AllOrNothing (makePrimaryIdentifier user kind) := allOrNothing_atomic _
  rcases hall s with hsame | ⟨⟨⟩, hcommit⟩
  · rw [hsame]
    exact .idle id
  · obtain ⟨hvalue, ht⟩ := commits_makePrimaryIdentifier hcommit
    rcases ht with ht | ht
    · rw [ht]
      exact .idle id
    · rw [ht]
      refine .saved (userByPk_spec huser).1 (fun _ => rfl) (iff_of_false ?_ id)
      cases kind <;> exact hvalue

theorem accountEffect_updateProfile (hexists : PrimaryExists s.users)
    (hunique : UniqueBy User.pk s.users) {pk : ℕ} {user : User}
    (huser : userByPk s.users pk = some user) (phoneNumber : Option String) :
    AccountEffect s (.updateProfile pk phoneNumber)
      (after (updateProfile user phoneNumber) s).users := by
  have hmem := (userByPk_spec huser).1
  have hvalue := hexists user hmem
  have hremoves : RemovesPrimaryPhone s (.updateProfile pk phoneNumber) ↔
      phoneNumber = some "" ∧ user.primaryIdentifier = .phone ∧ user.email.getD "" ≠ "" := by
    simp only [RemovesPrimaryPhone, huser, Option.mem_some, exists_eq_left']
  by_cases hcommits : ∃ t, Commits (updateProfile user phoneNumber) s () t
  · obtain ⟨t, hcommit⟩ := hcommits
    obtain ⟨update, hupdate, ht⟩ := commits_updateProfile.mp hcommit
    have hnone : (update.save user).primaryIdentifierValue = none ↔
        RemovesPrimaryPhone s (.updateProfile pk phoneNumber) := by
      rw [primaryIdentifierValue_phoneUpdate hupdate hvalue, hremoves]
      refine and_congr_right fun hnumber => ⟨fun hprimary => ⟨hprimary, ?_⟩, And.left⟩
      rcases preparePhoneNumberUpdate_cases hupdate with ⟨hother, -⟩ | ⟨-, hguard, -⟩ | ⟨_, hother, -⟩
      · exact absurd hnumber hother
      · exact fun hemail => hguard ⟨hprimary, hemail⟩
      · exact absurd hnumber hother
    rw [hcommit.after_eq]
    rcases ht with ⟨hnumber, hflag, rfl⟩ | ⟨-, -, rfl⟩
    · have hsave : update.save user = user := by simp [PhoneUpdate.save, hnumber, hflag]
      rw [hsave] at hnone
      exact .idle fun hbad => hvalue (hnone.mpr hbad)
    · exact .saved hmem (fun _ => rfl) hnone
  · rw [allOrNothing_updateProfile.after_eq_self fun _ t hcommit => hcommits ⟨t, hcommit⟩]
    -- the email keeps the removal within the constraint, so it would have been committed
    refine .idle fun hbad => hcommits ?_
    obtain ⟨rfl, hprimary, hemail⟩ := hremoves.mp hbad
    have hphone : user.phoneNumber ≠ none := by simpa [User.primaryIdentifierValue, hprimary] using hvalue
    have hprepared : preparePhoneNumberUpdate s.users user (some "") =
        .ok ⟨some none, if user.isPhoneVerified then some false else none⟩ := by
      simp [preparePhoneNumberUpdate, hemail, hphone]
    refine ⟨_, commits_updateProfile.mpr ⟨_, hprepared, Or.inr ⟨by simp, ?_, rfl⟩⟩⟩
    intro row hrow hpk
    rw [hunique row hrow user hmem hpk]
    left
    intro hnone
    exact hemail (by rw [hnone]; rfl)

/-- **One operation.** Under the invariant every operation has one of these effects. -/
theorem accountEffect_step (hunique : UniqueBy User.pk s.users) (hexists : PrimaryExists s.users)
    (op : AccountOp) : AccountEffect s op (accountStep cfg s op).users := by
  cases op with
  | signupVerify kind value code password firstName lastName refreshJti now =>
      exact accountEffect_signupVerify kind value code password firstName lastName refreshJti now
  | identifierAddVerify pk kind value code now =>
      simp only [accountStep]
      split
      · rename_i user huser
        exact accountEffect_identifierAddVerify hexists huser kind value code now
      · exact .idle id
  | makePrimaryIdentifier pk kind =>
      simp only [accountStep]
      split
      · rename_i user huser
        exact accountEffect_makePrimaryIdentifier huser kind
      · exact .idle id
  | updateProfile pk phoneNumber =>
      simp only [accountStep]
      split
      · rename_i user huser
        exact accountEffect_updateProfile hexists hunique huser phoneNumber
      · rename_i hnone
        refine .idle ?_
        rintro ⟨-, user, huser, -⟩
        rw [hnone] at huser
        cases huser
  | otherCodes otps => exact .idle id

end Effects

/-- Primary keys stay unique, whatever the effect. -/
theorem uniqueBy_accountEffect {s : AuthStore} {op : AccountOp} {users : List User}
    (hunique : UniqueBy User.pk s.users) (h : AccountEffect s op users) :
    UniqueBy User.pk users := by
  cases h with
  | idle _ => exact hunique
  | created _ hpk _ =>
      refine uniqueBy_append (fun row hrow heq => ?_) hunique
      have hmem : nextPk (s.users.map User.pk) ∈ s.users.map User.pk := by
        rw [← hpk, ← heq]
        exact List.mem_map_of_mem hrow
      exact nextPk_not_mem hmem
  | saved _ hf _ =>
      refine uniqueBy_map (fun row => ?_) hunique
      split_ifs
      · exact hf row
      · rfl

/-- Exactly the removal of a primary phone loses a primary identifier. -/
theorem primaryExists_accountEffect {s : AuthStore} {op : AccountOp} {users : List User}
    (hunique : UniqueBy User.pk s.users) (hexists : PrimaryExists s.users)
    (h : AccountEffect s op users) : PrimaryExists users ↔ ¬ RemovesPrimaryPhone s op := by
  cases h with
  | idle hother => exact iff_of_true hexists hother
  | created hother _ hvalue =>
      refine iff_of_true (fun row hrow => ?_) hother
      rcases List.mem_append.mp hrow with hrow | hrow
      · exact hexists row hrow
      · rw [List.mem_singleton.mp hrow]
        exact hvalue
  | @saved user f hmem _ hnone =>
      rw [← hnone]
      constructor
      · intro hafter
        exact hafter (f user) (List.mem_map.mpr ⟨user, hmem, if_pos rfl⟩)
      · exact forall_mem_save hunique hmem hexists

/-! ## Whole runs -/

/-- **The primary identifier exists.** In every state of a sequence of account operations
each account has a value in its primary channel, exactly when no operation of the sequence
removes the phone number of an account that is primary by phone and has an email. -/
theorem primary_identifier_exists_iff (cfg : AuthConfig) {s : AuthStore}
    (hunique : UniqueBy User.pk s.users) (hstart : PrimaryExists s.users) (ops : List AccountOp) :
    (∀ pre, pre <+: ops → PrimaryExists (run (accountStep cfg) s pre).users) ↔
      Along (accountStep cfg) (fun s op => ¬ RemovesPrimaryPhone s op) s ops := by
  rw [← along_states (P := fun s : AuthStore => PrimaryExists s.users) hstart]
  have hinvariant : UniqueBy User.pk s.users ∧ PrimaryExists s.users := ⟨hunique, hstart⟩
  refine along_congr (I := fun s : AuthStore => UniqueBy User.pk s.users ∧ PrimaryExists s.users)
    ?_ ?_ hinvariant ops
  · rintro s op ⟨hunique, hexists⟩
    exact primaryExists_accountEffect hunique hexists (accountEffect_step hunique hexists op)
  · rintro s op ⟨hunique, hexists⟩ hafter
    exact ⟨uniqueBy_accountEffect hunique (accountEffect_step hunique hexists op), hafter⟩

/-! ## An account that loses its primary identifier -/

/-- A signup code for a phone number and a code that attaches an email. -/
def phoneAndEmailCodes : OtpTable where
  rows :=
    [⟨1, .phone, "+989120000000", .signup,
        hashCode sampleConfig "111111" "s" .phone "+989120000000" .signup, "s", 100, 220, 0, false⟩,
      ⟨2, .email, "ali@example.com", .identifierAdd,
        hashCode sampleConfig "222222" "s" .email "ali@example.com" .identifierAdd, "s", 100, 220,
        0, false⟩]
  pk_nodup := by decide

def noAccounts : AuthStore := ⟨phoneAndEmailCodes, [], []⟩

/-- Sign up by phone, attach an email, remove the phone number. -/
def phoneRemoval : List AccountOp :=
  [.signupVerify .phone "09120000000" "111111" "p" "" "" none 150,
    .identifierAddVerify 1 .email "Ali@Example.com" "222222" 150, .updateProfile 1 (some "")]

/-- The account is left with the phone as its primary identifier and no phone number. -/
theorem phone_removal_loses_primary :
    ¬ ∀ (s : AuthStore) (ops : List AccountOp), s.users = [] →
      PrimaryExists (run (accountStep sampleConfig) s ops).users := by
  intro h
  have hrun := h noAccounts phoneRemoval rfl
  have husers : (run (accountStep sampleConfig) noAccounts phoneRemoval).users =
      [⟨1, some "ali@example.com", none, .phone, true, false, "", "", "p", true⟩] := by
    decide +kernel
  rw [husers] at hrun
  exact hrun _ List.mem_cons_self rfl

/-- The same account keeps it when the primary identifier is switched first. -/
theorem primary_identifier_exists_switched :
    PrimaryExists (run (accountStep sampleConfig) noAccounts
      (phoneRemoval.take 2 ++ [.makePrimaryIdentifier 1 .email, .updateProfile 1 (some "")])).users :=
  (primary_identifier_exists_iff sampleConfig (s := noAccounts)
    (fun _ h => absurd h List.not_mem_nil) (fun _ h => absurd h List.not_mem_nil) _).mpr
    (by decide +kernel) _ (List.prefix_refl _)

end SetadJang.Authentication
