import SetadJang.Framework.Rows
import SetadJang.Authentication.Accounts

/-!
# Verified identifiers under concurrent requests

The verification flag of a channel and the identifier it is about are two columns of one
row.  `identifier_add_verify` and `update_profile` each load the row, decide on their own
copy and save the columns they changed on it; no lock spans the load and the save.  The
system runs any number of such requests of one account in any order.

The flag of the email channel can be trusted in every run.  The flag of the phone channel
can be trusted as long as no request saves one of the two columns next to a value of the
other that its copy did not show.
-/

namespace SetadJang.Authentication

open SetadJang.Framework SetadJang.Framework.Txn

/-- The requests of one account.  A request holds its copy from the load until it is served.
`completed` records the verifications, for the proofs only. -/
structure ProfileSys where
  store : AuthStore
  loaded : List (Option User)
  completed : List (PrimaryIdentifierKind × String)

inductive ProfileAct where
  | load
  | identifierAddVerify (request : ℕ) (kind : PrimaryIdentifierKind) (value code : String)
      (now : ℕ)
  | updateProfile (request : ℕ) (phoneNumber : Option String)
  | elsewhere (otps : OtpTable) (others : List User)

namespace ProfileSys

variable (cfg : AuthConfig) (pk : ℕ)

/-- The copy a request holds. -/
def copy (s : ProfileSys) (request : ℕ) : Option User := s.loaded[request]?.join

/-- What a call of `identifier_add_verify` verifies: the identifier its code was checked for,
when it commits. -/
def verifies (s : ProfileSys) (user : User) (kind : PrimaryIdentifierKind) (value code : String)
    (now : ℕ) : List (PrimaryIdentifierKind × String) :=
  match (exec (identifierAddVerify (withNormalizers cfg) user kind value code now) s.store).1 with
  | .ok _ => (normalizeIdentifierByKind (withNormalizers cfg) kind value).toList.map (kind, ·)
  | .error _ => []

/-- One step.  `elsewhere` is whatever else happens to the codes and to other accounts. -/
def step (s : ProfileSys) : ProfileAct → ProfileSys
  | .load =>
      match userByPk s.store.users pk with
      | some row => { s with loaded := s.loaded ++ [some row] }
      | none => s
  | .identifierAddVerify request kind value code now =>
      match s.copy request with
      | some user =>
          { store := after (identifierAddVerify (withNormalizers cfg) user kind value code now) s.store
            loaded := s.loaded.set request none
            completed := s.completed ++ s.verifies cfg user kind value code now }
      | none => s
  | .updateProfile request phoneNumber =>
      match s.copy request with
      | some user =>
          { s with
            store := after (updateProfile user phoneNumber) s.store
            loaded := s.loaded.set request none }
      | none => s
  | .elsewhere otps others =>
      { s with
        store :=
          { s.store with
            otps := otps
            users := s.store.users.filter (·.pk == pk) ++ others.filter (·.pk != pk) } }

/-- No request is under way. -/
def start (store : AuthStore) (completed : List (PrimaryIdentifierKind × String)) : ProfileSys :=
  ⟨store, [], completed⟩

end ProfileSys

/-- A channel that is flagged verified holds an identifier of a completed verification. -/
def VerifiedChannel (completed : List (PrimaryIdentifierKind × String)) (row : User)
    (kind : PrimaryIdentifierKind) : Prop :=
  (getIdentifierStateForUser row kind).2 = true →
    ∃ value ∈ (getIdentifierStateForUser row kind).1, (kind, value) ∈ completed

/-- **Verified means verified**, in both channels of the stored row. -/
def Verified (pk : ℕ) (s : ProfileSys) : Prop :=
  ∀ row ∈ userByPk s.store.users pk, ∀ kind, VerifiedChannel s.completed row kind

/-- A call of `update_profile` on this copy saves `number` and not the flag: the copy is not
verified, and the argument removes its number or is another one that is free. -/
def SavesNumberAlone (users : List User) (user : User) (phoneNumber number : Option String) :
    Prop :=
  user.isPhoneVerified = false ∧
    match number with
    | none =>
        phoneNumber = some "" ∧ user.phoneNumber ≠ none ∧
          ¬ (user.primaryIdentifier = .phone ∧ user.email.getD "" = "")
    | some saved =>
        (∃ text ∈ phoneNumber, text ≠ "" ∧ normalizePhone text = .ok saved) ∧
          user.phoneNumber ≠ some saved ∧
          ∀ other ∈ users, other.pk ≠ user.pk → other.phoneNumber ≠ some saved

/-- The save of a step fits the stored row.  A request that flags the number of its copy,
without saving it, finds that number or another verified one.  A request that saves another
number, without clearing the flag, finds the flag cleared or saves a verified number. -/
def FlagFits (cfg : AuthConfig) (pk : ℕ) (s : ProfileSys) : ProfileAct → Prop
  | .identifierAddVerify request kind value code now =>
      ∀ user number otp row, s.copy request = some user → kind = .phone →
        normalizePhone value = .ok number → user.phoneNumber = some number →
        user.isPhoneVerified = false →
        CodePasses (withNormalizers cfg) s.store .phone number .identifierAdd code now otp →
        userByPk s.store.users pk = some row →
          ∃ stored ∈ row.phoneNumber, stored = number ∨ (.phone, stored) ∈ s.completed
  | .updateProfile request phoneNumber =>
      ∀ user number row, s.copy request = some user →
        SavesNumberAlone s.store.users user phoneNumber number →
        userByPk s.store.users pk = some row → row.email ≠ none ∨ number ≠ none →
          row.isPhoneVerified = false ∨ ∃ saved ∈ number, (.phone, saved) ∈ s.completed
  | _ => True

/-! ## What a save does to a channel -/

/-- `_prepare_phone_number_update` lists the number and not the flag. -/
theorem prepared_iff_savesNumberAlone {users : List User} {user : User}
    {phoneNumber number : Option String} :
    preparePhoneNumberUpdate users user phoneNumber = .ok ⟨some number, none⟩ ↔
      SavesNumberAlone users user phoneNumber number := by
  unfold preparePhoneNumberUpdate SavesNumberAlone
  cases phoneNumber with
  | none => cases number <;> simp
  | some text =>
      by_cases hempty : text = ""
      · -- a removal
        simp only [hempty, if_true]
        by_cases hguard : user.primaryIdentifier = .phone ∧ user.email.getD "" = ""
        · cases number <;> simp [hguard]
        · cases number <;> simp [hguard, and_comm]
      · simp only [hempty, if_false]
        cases hnormal : normalizePhone text with
        | error message => cases number <;> simp [hempty, hnormal]
        | ok saved =>
            have hfree : (∀ other ∈ users, other.pk ≠ user.pk → other.phoneNumber ≠ some saved) ↔
                (users.any fun u => u.pk != user.pk && u.phoneNumber == some saved) = false := by
              simp
            cases htaken : users.any fun u => u.pk != user.pk && u.phoneNumber == some saved with
            | true =>
                rw [htaken] at hfree
                cases number with
                | none => simp [hempty, htaken]
                | some number =>
                    refine iff_of_false (by simp [htaken]) ?_
                    rintro ⟨-, ⟨_, htext, -, hnumber⟩, -, hothers⟩
                    obtain rfl := Option.some.inj htext
                    obtain rfl := Except.ok.inj (hnormal.symm.trans hnumber)
                    cases hfree.mp hothers
            | false =>
                have hothers := hfree.mpr htaken
                simp only [htaken, Bool.false_eq_true, if_false]
                by_cases hsame : user.phoneNumber = some saved
                · cases number with
                  | none => simp [hempty, hsame]
                  | some number =>
                      by_cases hnumber : saved = number
                      · simp [hsame, ← hnumber]
                      · simp [hsame, hnormal, hnumber]
                · cases number with
                  | none => simp [hempty, hsame]
                  | some number =>
                      by_cases hnumber : saved = number
                      · rw [← hnumber]
                        simpa [hsame, hempty, hnormal] using fun _ => hothers
                      · simp [hsame, hnormal, hnumber]

theorem normalizeIdentifier_again {cfg : AuthConfig} {kind : PrimaryIdentifierKind}
    {value v w : String} (h : normalizeIdentifierByKind (withNormalizers cfg) kind value = some v)
    (hagain : normalizeIdentifierByKind (withNormalizers cfg) kind v = some w) : w = v := by
  cases kind with
  | email =>
      simp only [normalizeIdentifierByKind, withNormalizers, toOption_eq_some] at h hagain
      exact normalizeEmail_eq_self h hagain
  | phone =>
      simp only [normalizeIdentifierByKind, withNormalizers, toOption_eq_some] at h hagain
      rw [normalizePhone_eq_self (matchesE164_normalizePhone h)] at hagain
      exact (Except.ok.inj hagain).symm

/-- The channel that `identifier_add_verify` saves, on a copy that passed its check. -/
theorem verifiedChannel_saveIdentifier {completed : List (PrimaryIdentifierKind × String)}
    {user row : User} {kind : PrimaryIdentifierKind} {v : String}
    (hcopy : getIdentifierStateForUser user kind = (some v, false) ∨
      (getIdentifierStateForUser user kind).1 = none) :
    VerifiedChannel (completed ++ [(kind, v)]) (saveIdentifier user kind v row) kind ↔
      (getIdentifierStateForUser user kind = (some v, false) →
        ∃ stored ∈ (getIdentifierStateForUser row kind).1,
          stored = v ∨ (kind, stored) ∈ completed) := by
  rcases hcopy with hcopy | hcopy
  · -- only the flag is saved
    have hsaved : getIdentifierStateForUser (saveIdentifier user kind v row) kind =
        ((getIdentifierStateForUser row kind).1, true) := by
      cases kind <;>
        simp only [getIdentifierStateForUser, Prod.mk.injEq] at hcopy <;>
        simp [getIdentifierStateForUser, saveIdentifier, hcopy.1, hcopy.2]
    simp only [VerifiedChannel, hsaved, hcopy, forall_true_left, List.mem_append,
      List.mem_singleton, Prod.mk.injEq, true_and, or_comm]
  · -- the identifier is saved
    have hsaved : (getIdentifierStateForUser (saveIdentifier user kind v row) kind).1 = some v := by
      cases kind <;>
        simp only [getIdentifierStateForUser] at hcopy <;>
        simp [getIdentifierStateForUser, saveIdentifier, hcopy]
    refine iff_of_true (fun _ => ⟨v, hsaved, by simp⟩) fun hstate => ?_
    rw [hstate] at hcopy
    cases hcopy

/-- The other channel is not touched. -/
theorem verifiedChannel_saveIdentifier_other {completed : List (PrimaryIdentifierKind × String)}
    {user row : User} {kind other : PrimaryIdentifierKind} {v : String} (h : other ≠ kind) :
    VerifiedChannel (completed ++ [(kind, v)]) (saveIdentifier user kind v row) other ↔
      VerifiedChannel completed row other := by
  have hsame : getIdentifierStateForUser (saveIdentifier user kind v row) other =
      getIdentifierStateForUser row other := by
    cases kind <;> cases other <;> first | rfl | exact absurd rfl h
  simp only [VerifiedChannel, hsame, List.mem_append, List.mem_singleton, Prod.mk.injEq, h,
    false_and, or_false]

/-- The phone channel after `update_profile`. -/
theorem verifiedChannel_phoneUpdate {completed : List (PrimaryIdentifierKind × String)}
    {users : List User} {user row : User} {phoneNumber : Option String} {update : PhoneUpdate}
    (hupdate : preparePhoneNumberUpdate users user phoneNumber = .ok update)
    (hrow : VerifiedChannel completed row .phone) :
    VerifiedChannel completed (update.save row) .phone ↔
      ∀ number, update = ⟨some number, none⟩ →
        row.isPhoneVerified = false ∨ ∃ saved ∈ number, (.phone, saved) ∈ completed := by
  have hflag : update.isPhoneVerified = none ∨ update.isPhoneVerified = some false := by
    rcases preparePhoneNumberUpdate_cases hupdate with ⟨-, rfl⟩ | ⟨-, -, rfl⟩ | ⟨_, -, -, rfl⟩
    · exact Or.inl rfl
    · cases user.isPhoneVerified <;> simp
    · cases user.isPhoneVerified <;> simp
  obtain ⟨number, flag⟩ := update
  rcases hflag with rfl | rfl
  · cases number with
    | none => simpa [PhoneUpdate.save] using hrow
    | some number =>
        simp only [VerifiedChannel, getIdentifierStateForUser, PhoneUpdate.save, Option.getD_some,
          Option.getD_none, PhoneUpdate.mk.injEq, Option.some.injEq, and_true, forall_eq']
        cases row.isPhoneVerified <;> simp
  · refine iff_of_true (fun htrue => ?_) (by simp)
    simp [getIdentifierStateForUser, PhoneUpdate.save] at htrue

/-! ## What one call does -/

/-- The identifier the first check returns is the one the second check returns. -/
theorem commits_identifierAddVerify_normalized {cfg : AuthConfig} {user : User}
    {kind : PrimaryIdentifierKind} {value code : String} {now : ℕ} {s t : AuthStore}
    (h : Commits (identifierAddVerify (withNormalizers cfg) user kind value code now) s () t) :
    ∃ v, normalizeIdentifierByKind (withNormalizers cfg) kind value = some v ∧
      (getIdentifierStateForUser user kind = (some v, false) ∨
        (getIdentifierStateForUser user kind).1 = none) ∧
      (∃ otp, CodePasses (withNormalizers cfg) s kind v .identifierAdd code now otp) ∧
      t.users = s.users.map fun row =>
        if row.pk = user.pk then saveIdentifier user kind v row else row := by
  obtain ⟨v, w, otp, hfirst, hcode, hsecond, rfl⟩ := commits_identifierAddVerify.mp h
  obtain ⟨hv, hstate⟩ := ensureIdentifier_ok hfirst
  obtain rfl := normalizeIdentifier_again hv (ensureIdentifier_ok hsecond).1
  exact ⟨w, hv, hstate, ⟨otp, hcode⟩, rfl⟩

/-- On a copy that shows the number unverified the right code is enough. -/
theorem identifierAddVerify_commits {cfg : AuthConfig} {user : User} {value number code : String}
    {now : ℕ} {s : AuthStore} {otp : OTPCode} (hnumber : normalizePhone value = .ok number)
    (hphone : user.phoneNumber = some number) (hflag : user.isPhoneVerified = false)
    (hcode : CodePasses (withNormalizers cfg) s .phone number .identifierAdd code now otp) :
    ∃ t, Commits (identifierAddVerify (withNormalizers cfg) user .phone value code now) s () t := by
  have hensure : ∀ text, normalizePhone text = .ok number →
      ensureIdentifierCanBeAddedOrVerified (withNormalizers cfg) s.users user .phone text =
        .ok number := by
    intro text htext
    simp [ensureIdentifierCanBeAddedOrVerified, normalizeIdentifierByKind, withNormalizers, htext,
      Except.toOption, getIdentifierStateForUser, hphone, hflag]
  have hagain := normalizePhone_eq_self (matchesE164_normalizePhone hnumber)
  exact ⟨_, commits_identifierAddVerify.mpr
    ⟨number, number, otp, hensure value hnumber, hcode, hensure number hagain, rfl⟩⟩

/-! ## The invariant -/

/-- The flag of the email channel says whether there is an email. -/
def EmailSettled (user : User) : Prop := user.isEmailVerified = user.email.isSome

/-- What all requests agree on: the row is one, the copies are copies of it, and the email of
an account is either the same everywhere or comes with its flag. -/
structure Tracked (pk : ℕ) (s : ProfileSys) : Prop where
  one : ∀ row ∈ s.store.users, row.pk = pk → userByPk s.store.users pk = some row
  own : ∀ user, some user ∈ s.loaded → user.pk = pk
  email : ∀ row ∈ userByPk s.store.users pk,
    (∃ email, row.email = some email ∧ ∀ user, some user ∈ s.loaded → user.email = some email) ∨
      (EmailSettled row ∧ ∀ user, some user ∈ s.loaded → EmailSettled user)

theorem ProfileSys.copy_mem {s : ProfileSys} {request : ℕ} {user : User}
    (h : s.copy request = some user) : some user ∈ s.loaded := by
  unfold ProfileSys.copy at h
  rw [Option.join_eq_some_iff] at h
  exact List.mem_of_getElem? h

theorem mem_of_mem_set_none {loaded : List (Option User)} {request : ℕ} {user : User}
    (h : some user ∈ loaded.set request none) : some user ∈ loaded := by
  rcases List.mem_or_eq_of_mem_set h with h | h
  · exact h
  · cases h

/-- With no request under way, the flag of a verified row is enough. -/
theorem tracked_start {pk : ℕ} {store : AuthStore}
    {completed : List (PrimaryIdentifierKind × String)} (hunique : UniqueBy User.pk store.users)
    (hverified : Verified pk (ProfileSys.start store completed)) :
    Tracked pk (ProfileSys.start store completed) where
  one := by
    intro row hrow hpk
    cases hfind : userByPk store.users pk with
    | none =>
        rw [userByPk, List.find?_eq_none] at hfind
        exact absurd (by simpa using hpk) (hfind row hrow)
    | some found =>
        obtain ⟨hmem, hfound⟩ := userByPk_spec hfind
        rw [hunique found hmem row hrow (hfound.trans hpk.symm)] at hfind
        exact hfind
  own := fun _ h => absurd h List.not_mem_nil
  email := by
    intro row hrow
    cases hemail : row.email with
    | some email => exact Or.inl ⟨email, rfl, fun _ h => absurd h List.not_mem_nil⟩
    | none =>
        refine Or.inr ⟨?_, fun _ h => absurd h List.not_mem_nil⟩
        have hchannel := hverified row hrow .email
        cases hflag : row.isEmailVerified with
        | false => simp [EmailSettled, hemail, hflag]
        | true =>
            obtain ⟨value, hvalue, -⟩ := hchannel hflag
            simp [getIdentifierStateForUser, hemail] at hvalue

section Step

variable {cfg : AuthConfig} {pk : ℕ} {s : ProfileSys}

/-- A save by a served request keeps the invariant if it keeps the email what it was, or
flags what it saves. -/
theorem tracked_save (htracked : Tracked pk s) {f : User → User} {t : AuthStore}
    {completed : List (PrimaryIdentifierKind × String)} (request : ℕ)
    (hf : ∀ row, (f row).pk = row.pk)
    (ht : t.users = s.store.users.map fun row => if row.pk = pk then f row else row)
    (hsame : ∀ row email, row.email = some email →
      (∀ user, some user ∈ s.loaded → user.email = some email) → (f row).email = some email)
    (hsettled : ∀ row, EmailSettled row → (∀ user, some user ∈ s.loaded → EmailSettled user) →
      EmailSettled (f row)) :
    Tracked pk ⟨t, s.loaded.set request none, completed⟩ where
  one := by
    intro row' hrow' hpk
    simp only [ht] at hrow' ⊢
    obtain ⟨row, hrow, rfl⟩ := List.mem_map.mp hrow'
    rw [userByPk_save hf]
    split_ifs at hpk ⊢ with heq
    · rw [htracked.one row hrow heq, Option.map_some]
    · exact absurd hpk heq
  own := fun user huser => htracked.own user (mem_of_mem_set_none huser)
  email := by
    intro row' hrow'
    simp only [ht] at hrow'
    rw [userByPk_save hf, Option.mem_map] at hrow'
    obtain ⟨row, hrow, rfl⟩ := hrow'
    rcases htracked.email row hrow with ⟨email, hemail, hcopies⟩ | ⟨hrow, hcopies⟩
    · exact Or.inl ⟨email, hsame row email hemail hcopies, fun user huser =>
        hcopies user (mem_of_mem_set_none huser)⟩
    · exact Or.inr ⟨hsettled row hrow hcopies, fun user huser =>
        hcopies user (mem_of_mem_set_none huser)⟩

/-- A served request that changed nothing. -/
theorem tracked_served (htracked : Tracked pk s) (request : ℕ)
    (completed : List (PrimaryIdentifierKind × String)) :
    Tracked pk ⟨s.store, s.loaded.set request none, completed⟩ := by
  refine tracked_save (f := id) htracked request (fun _ => rfl) ?_ (fun _ _ h _ => h)
    (fun _ h _ => h)
  simp

/-- The email a committed `identifier_add_verify` leaves. -/
theorem tracked_identifierAddVerify (htracked : Tracked pk s) {request : ℕ} {user : User}
    (huser : s.copy request = some user) (kind : PrimaryIdentifierKind) (value code : String)
    (now : ℕ) (completed : List (PrimaryIdentifierKind × String)) :
    Tracked pk
      ⟨after (identifierAddVerify (withNormalizers cfg) user kind value code now) s.store,
        s.loaded.set request none, completed⟩ := by
  have hmem := ProfileSys.copy_mem huser
  by_cases hcommits : ∃ t,
      Commits (identifierAddVerify (withNormalizers cfg) user kind value code now) s.store () t
  · obtain ⟨t, hcommit⟩ := hcommits
    rw [hcommit.after_eq]
    obtain ⟨v, -, hstate, -, ht⟩ := commits_identifierAddVerify_normalized hcommit
    rw [htracked.own user hmem] at ht
    refine tracked_save (f := saveIdentifier user kind v) htracked request
      (fun row => by cases kind <;> rfl) ht ?_ ?_
    · intro row email hemail hcopies
      cases kind with
      | phone => exact hemail
      | email =>
          have hcopy := hcopies user hmem
          simp only [getIdentifierStateForUser, hcopy, Prod.mk.injEq, reduceCtorEq,
            or_false] at hstate
          simp [saveIdentifier, hcopy, hstate.1, hemail]
    · intro row hrow hcopies
      cases kind with
      | phone => exact hrow
      | email =>
          have hcopy : user.isEmailVerified = user.email.isSome := hcopies user hmem
          simp only [getIdentifierStateForUser, Prod.mk.injEq] at hstate
          have hnone : user.email = none := by
            rcases hstate with ⟨hemail, hflag⟩ | hnone
            · rw [hemail, hflag] at hcopy
              cases hcopy
            · exact hnone
          rw [hnone] at hcopy
          simp [EmailSettled, saveIdentifier, hnone, hcopy]
  · rw [allOrNothing_identifierAddVerify.after_eq_self fun _ t hcommit => hcommits ⟨t, hcommit⟩]
    exact tracked_served htracked request completed

/-- `update_profile` saves no email. -/
theorem tracked_updateProfile (htracked : Tracked pk s) {request : ℕ} {user : User}
    (huser : s.copy request = some user) (phoneNumber : Option String) :
    Tracked pk ⟨after (updateProfile user phoneNumber) s.store, s.loaded.set request none,
      s.completed⟩ := by
  by_cases hcommits : ∃ t, Commits (updateProfile user phoneNumber) s.store () t
  · obtain ⟨t, hcommit⟩ := hcommits
    rw [hcommit.after_eq]
    obtain ⟨update, -, ht⟩ := commits_updateProfile.mp hcommit
    rcases ht with ⟨-, -, rfl⟩ | ⟨-, -, rfl⟩
    · exact tracked_served htracked request s.completed
    · rw [htracked.own user (ProfileSys.copy_mem huser)]
      exact tracked_save (f := update.save) htracked request (fun _ => rfl) rfl (fun _ _ h _ => h)
        (fun _ h _ => h)
  · rw [allOrNothing_updateProfile.after_eq_self fun _ t hcommit => hcommits ⟨t, hcommit⟩]
    exact tracked_served htracked request s.completed

theorem userByPk_elsewhere (users others : List User) :
    userByPk (users.filter (·.pk == pk) ++ others.filter (·.pk != pk)) pk = userByPk users pk := by
  unfold userByPk
  have hothers : (others.filter (·.pk != pk)).find? (·.pk == pk) = none := by
    rw [List.find?_eq_none]
    intro row hrow
    simpa using (List.mem_filter.mp hrow).2
  rw [List.find?_append, hothers, Option.or_none, List.find?_filter]
  congr 1
  funext row
  by_cases hpk : row.pk = pk <;> simp [hpk]

/-- **Every step keeps the invariant.** -/
theorem tracked_step (htracked : Tracked pk s) (act : ProfileAct) :
    Tracked pk (s.step cfg pk act) := by
  cases act with
  | load =>
      simp only [ProfileSys.step]
      split
      · rename_i row hrow
        have hcases : ∀ {user : User}, some user ∈ s.loaded ++ [some row] →
            some user ∈ s.loaded ∨ user = row := by
          intro user huser
          rcases List.mem_append.mp huser with huser | huser
          · exact Or.inl huser
          · exact Or.inr (Option.some.inj (List.mem_singleton.mp huser))
        refine ⟨htracked.one, fun user huser => ?_, fun row' hrow' => ?_⟩
        · rcases hcases huser with huser | rfl
          · exact htracked.own user huser
          · exact (userByPk_spec hrow).2
        · obtain rfl : row = row' := Option.some.inj (hrow.symm.trans hrow')
          rcases htracked.email row hrow with ⟨email, hemail, hcopies⟩ | ⟨hsettled, hcopies⟩
          · refine Or.inl ⟨email, hemail, fun user huser => ?_⟩
            rcases hcases huser with huser | rfl
            · exact hcopies user huser
            · exact hemail
          · refine Or.inr ⟨hsettled, fun user huser => ?_⟩
            rcases hcases huser with huser | rfl
            · exact hcopies user huser
            · exact hsettled
      · exact htracked
  | identifierAddVerify request kind value code now =>
      simp only [ProfileSys.step]
      split
      · rename_i user huser
        exact tracked_identifierAddVerify htracked huser kind value code now _
      · exact htracked
  | updateProfile request phoneNumber =>
      simp only [ProfileSys.step]
      split
      · rename_i user huser
        exact tracked_updateProfile htracked huser phoneNumber
      · exact htracked
  | elsewhere otps others =>
      simp only [ProfileSys.step]
      refine ⟨fun row hrow hpk => ?_, htracked.own, fun row hrow => ?_⟩
      · simp only [userByPk_elsewhere]
        rcases List.mem_append.mp hrow with hrow | hrow
        · exact htracked.one row (List.mem_filter.mp hrow).1 hpk
        · exact absurd hpk (by simpa using (List.mem_filter.mp hrow).2)
      · simp only [userByPk_elsewhere] at hrow
        exact htracked.email row hrow

/-- The same row under the same verifications. -/
theorem verified_congr {s' : ProfileSys} (hverified : Verified pk s)
    (hrow : userByPk s'.store.users pk = userByPk s.store.users pk)
    (hcompleted : s'.completed = s.completed) : Verified pk s' := by
  unfold Verified
  rw [hrow, hcompleted]
  exact hverified

/-- The flags after a saved identifier: the other channel is as it was, the saved one is in
order if the stored identifier is the verified one or was verified before. -/
theorem verified_saveIdentifier (hverified : Verified pk s) {user : User}
    {kind : PrimaryIdentifierKind} {v : String} {t : AuthStore} {loaded : List (Option User)}
    (hstate : getIdentifierStateForUser user kind = (some v, false) ∨
      (getIdentifierStateForUser user kind).1 = none)
    (ht : t.users = s.store.users.map fun row =>
      if row.pk = pk then saveIdentifier user kind v row else row) :
    Verified pk ⟨t, loaded, s.completed ++ [(kind, v)]⟩ ↔
      ∀ row ∈ userByPk s.store.users pk, getIdentifierStateForUser user kind = (some v, false) →
        ∃ stored ∈ (getIdentifierStateForUser row kind).1,
          stored = v ∨ (kind, stored) ∈ s.completed := by
  simp only [Verified, ht, userByPk_save (f := saveIdentifier user kind v)
    (fun row => by cases kind <;> rfl), Option.mem_map, forall_exists_index, and_imp,
    forall_apply_eq_imp_iff₂]
  refine forall₂_congr fun row hrow => ?_
  rw [← verifiedChannel_saveIdentifier hstate]
  refine ⟨fun h => h kind, fun h other => ?_⟩
  by_cases hother : other = kind
  · rw [hother]
    exact h
  · exact (verifiedChannel_saveIdentifier_other hother).mpr (hverified row hrow other)

/-- An email that a request flags is the stored one. -/
theorem email_agrees (htracked : Tracked pk s) {user row : User} {v : String}
    (hmem : some user ∈ s.loaded) (hrow : row ∈ userByPk s.store.users pk)
    (hcopy : getIdentifierStateForUser user .email = (some v, false)) :
    (getIdentifierStateForUser row .email).1 = some v := by
  simp only [getIdentifierStateForUser, Prod.mk.injEq] at hcopy
  rcases htracked.email row hrow with ⟨email, hemail, hcopies⟩ | ⟨-, hcopies⟩
  · rw [← hcopy.1, hcopies user hmem]
    exact hemail
  · -- a settled copy that shows an email shows its flag too
    have hsettled : user.isEmailVerified = user.email.isSome := hcopies user hmem
    rw [hcopy.1, hcopy.2] at hsettled
    cases hsettled

/-- `identifier_add_verify` keeps the flags true exactly when its save fits. -/
theorem verified_identifierAddVerify (htracked : Tracked pk s) (hverified : Verified pk s)
    {request : ℕ} {user : User} (huser : s.copy request = some user)
    (kind : PrimaryIdentifierKind) (value code : String) (now : ℕ) :
    Verified pk (s.step cfg pk (.identifierAddVerify request kind value code now)) ↔
      FlagFits cfg pk s (.identifierAddVerify request kind value code now) := by
  have hmem := ProfileSys.copy_mem huser
  simp only [ProfileSys.step, huser]
  by_cases hcommits : ∃ t,
      Commits (identifierAddVerify (withNormalizers cfg) user kind value code now) s.store () t
  · obtain ⟨t, hcommit⟩ := hcommits
    obtain ⟨v, hv, hstate, hcode, ht⟩ := commits_identifierAddVerify_normalized hcommit
    have hverifies : s.verifies cfg user kind value code now = [(kind, v)] := by
      have hexec : exec (identifierAddVerify (withNormalizers cfg) user kind value code now)
          s.store = (.ok (), t) := hcommit
      simp only [ProfileSys.verifies, hexec, hv, Option.toList_some, List.map_cons, List.map_nil]
    rw [htracked.own user hmem] at ht
    rw [hcommit.after_eq, hverifies, verified_saveIdentifier hverified hstate ht]
    cases kind with
    | email =>
        have hleft : ∀ row ∈ userByPk s.store.users pk,
            getIdentifierStateForUser user .email = (some v, false) →
              ∃ stored ∈ (getIdentifierStateForUser row .email).1,
                stored = v ∨ (.email, stored) ∈ s.completed :=
          fun row hrow hcopy => ⟨v, email_agrees htracked hmem hrow hcopy, Or.inl rfl⟩
        refine iff_of_true hleft ?_
        intro _ _ _ _ _ hkind
        cases hkind
    | phone =>
        have hnumber : normalizePhone value = .ok v := toOption_eq_some.mp hv
        simp only [getIdentifierStateForUser, Prod.mk.injEq]
        constructor
        · intro h user' number otp row huser' _ hnumber' hphone hflag _ hrow
          obtain rfl : user = user' := Option.some.inj (huser.symm.trans huser')
          obtain rfl : v = number := Except.ok.inj (hnumber.symm.trans hnumber')
          exact h row hrow ⟨hphone, hflag⟩
        · intro h row hrow hcopy
          obtain ⟨otp, hotp⟩ := hcode
          exact h user v otp row huser rfl hnumber hcopy.1 hcopy.2 hotp hrow
  · have hverifies : s.verifies cfg user kind value code now = [] := by
      unfold ProfileSys.verifies
      split
      · rename_i u hok
        exact absurd ⟨_, commits_after hok⟩ hcommits
      · rfl
    rw [allOrNothing_identifierAddVerify.after_eq_self fun _ t hcommit => hcommits ⟨t, hcommit⟩,
      hverifies]
    refine iff_of_true (verified_congr hverified rfl (by simp)) ?_
    -- with the right code and a copy that shows the number, the call would have committed
    intro user' number otp row huser' hkind hnumber hphone hflag hcode hrow
    subst hkind
    obtain rfl : user = user' := Option.some.inj (huser.symm.trans huser')
    exact absurd (identifierAddVerify_commits hnumber hphone hflag hcode) hcommits

/-- `update_profile` keeps the flags true exactly when its save fits. -/
theorem verified_updateProfile (htracked : Tracked pk s) (hverified : Verified pk s)
    {request : ℕ} {user : User} (huser : s.copy request = some user)
    (phoneNumber : Option String) :
    Verified pk (s.step cfg pk (.updateProfile request phoneNumber)) ↔
      FlagFits cfg pk s (.updateProfile request phoneNumber) := by
  have hmem := ProfileSys.copy_mem huser
  simp only [ProfileSys.step, huser]
  by_cases hcommits : ∃ t, Commits (updateProfile user phoneNumber) s.store () t
  · obtain ⟨t, hcommit⟩ := hcommits
    rw [hcommit.after_eq]
    obtain ⟨update, hupdate, ht⟩ := commits_updateProfile.mp hcommit
    rcases ht with ⟨hnumber, hflag, rfl⟩ | ⟨-, hconstraint, rfl⟩
    · -- nothing to save
      refine iff_of_true (verified_congr hverified rfl rfl) ?_
      intro user' number row huser' hsaves hrow _
      obtain rfl : user = user' := Option.some.inj (huser.symm.trans huser')
      have hprepared := prepared_iff_savesNumberAlone.mpr hsaves
      rw [Except.ok.inj (hupdate.symm.trans hprepared)] at hnumber
      cases hnumber
    · rw [htracked.own user hmem]
      simp only [Verified, userByPk_save (f := update.save) (fun _ => rfl), Option.mem_map,
        forall_exists_index, and_imp, forall_apply_eq_imp_iff₂]
      constructor
      · intro h user' number row huser' hsaves hrow _
        obtain rfl : user = user' := Option.some.inj (huser.symm.trans huser')
        have hsame := Except.ok.inj
          (hupdate.symm.trans (prepared_iff_savesNumberAlone.mpr hsaves))
        exact (verifiedChannel_phoneUpdate hupdate (hverified row hrow .phone)).mp
          (h row hrow .phone) number hsame
      · intro h row hrow kind
        cases kind with
        | email => exact hverified row hrow .email
        | phone =>
            refine (verifiedChannel_phoneUpdate hupdate (hverified row hrow .phone)).mpr ?_
            rintro number rfl
            obtain ⟨hrowmem, hrowpk⟩ := userByPk_spec hrow
            refine h user number row huser (prepared_iff_savesNumberAlone.mp hupdate) hrow ?_
            exact hconstraint row hrowmem (hrowpk.trans (htracked.own user hmem).symm)
  · rw [allOrNothing_updateProfile.after_eq_self fun _ t hcommit => hcommits ⟨t, hcommit⟩]
    refine iff_of_true (verified_congr hverified rfl rfl) ?_
    -- a save of the number alone that meets the constraint would have been committed
    intro user' number row huser' hsaves hrow hconstraint
    obtain rfl : user = user' := Option.some.inj (huser.symm.trans huser')
    have hupdate := prepared_iff_savesNumberAlone.mpr hsaves
    refine absurd ⟨_, commits_updateProfile.mpr ⟨_, hupdate, Or.inr ⟨by simp, ?_, rfl⟩⟩⟩ hcommits
    intro row' hrow' hpk
    rw [htracked.own user hmem] at hpk
    obtain rfl : row' = row := Option.some.inj ((htracked.one row' hrow' hpk).symm.trans hrow)
    exact hconstraint

/-- **One step.** From a state whose flags can be trusted, they can be trusted after the step
exactly when its save fits the stored row. -/
theorem verified_step_iff (htracked : Tracked pk s) (hverified : Verified pk s)
    (act : ProfileAct) : Verified pk (s.step cfg pk act) ↔ FlagFits cfg pk s act := by
  cases act with
  | load =>
      refine iff_of_true ?_ trivial
      simp only [ProfileSys.step]
      split
      · exact verified_congr hverified rfl rfl
      · exact hverified
  | identifierAddVerify request kind value code now =>
      cases huser : s.copy request with
      | some user => exact verified_identifierAddVerify htracked hverified huser kind value code now
      | none =>
          simp only [ProfileSys.step, huser]
          refine iff_of_true hverified fun user _ _ _ huser' => ?_
          rw [huser] at huser'
          cases huser'
  | updateProfile request phoneNumber =>
      cases huser : s.copy request with
      | some user => exact verified_updateProfile htracked hverified huser phoneNumber
      | none =>
          simp only [ProfileSys.step, huser]
          refine iff_of_true hverified fun user _ _ huser' => ?_
          rw [huser] at huser'
          cases huser'
  | elsewhere otps others =>
      refine iff_of_true ?_ trivial
      exact verified_congr hverified (userByPk_elsewhere s.store.users others) rfl

end Step

/-! ## Whole runs -/

/-- **Verified means verified, exactly.** In every state of an interleaving of requests of
one account, a verified flag stands next to an identifier the account has verified, if and
only if that is so at the start and each save of the run fits the row it is made to. -/
theorem verified_means_verified_iff (cfg : AuthConfig) (pk : ℕ) {store : AuthStore}
    (hunique : UniqueBy User.pk store.users)
    (completed : List (PrimaryIdentifierKind × String)) (acts : List ProfileAct) :
    (∀ pre, pre <+: acts →
        Verified pk (run (ProfileSys.step cfg pk) (.start store completed) pre)) ↔
      Verified pk (.start store completed) ∧
        Along (ProfileSys.step cfg pk) (FlagFits cfg pk) (.start store completed) acts := by
  by_cases hstart : Verified pk (.start store completed)
  · rw [← along_states (P := Verified pk) hstart]
    have hinvariant : Tracked pk (.start store completed) ∧ Verified pk (.start store completed) :=
      ⟨tracked_start hunique hstart, hstart⟩
    rw [and_iff_right hstart]
    refine along_congr (I := fun s => Tracked pk s ∧ Verified pk s) ?_ ?_ hinvariant acts
    · rintro s act ⟨htracked, hverified⟩
      exact verified_step_iff htracked hverified act
    · rintro s act ⟨htracked, -⟩ hafter
      exact ⟨tracked_step htracked act, hafter⟩
  · refine iff_of_false (fun h => hstart ?_) fun h => hstart h.1
    exact h [] (List.nil_prefix)

/-! ## A number that was never verified -/

/-- A number that was set but not verified yet, and the code sent to it. -/
def unverifiedNumber : AuthStore where
  otps :=
    { rows := [⟨1, .phone, "+989120000000", .identifierAdd,
        hashCode sampleConfig "333333" "s" .phone "+989120000000" .identifierAdd, "s", 100, 220, 0,
        false⟩]
      pk_nodup := by decide }
  users :=
    [⟨1, some "ali@example.com", some "+989120000000", .email, true, false, "", "", "p", true⟩]
  sessions := []

/-- Two requests load the row.  One changes the number, the other then enters the code that
was sent to the old one. -/
def overlappingRequests : List ProfileAct :=
  [.load, .load, .updateProfile 1 (some "09350000000"),
    .identifierAddVerify 0 .phone "09120000000" "333333" 150]

theorem verified_unverifiedNumber :
    Verified 1 (.start unverifiedNumber [(.email, "ali@example.com")]) := by
  intro row hrow kind
  obtain rfl := Option.some.inj hrow
  cases kind with
  | email => exact fun _ => ⟨"ali@example.com", rfl, by decide⟩
  | phone => exact fun hflag => absurd hflag (by decide)

theorem uniqueBy_unverifiedNumber : UniqueBy User.pk unverifiedNumber.users := by
  intro x hx y hy _
  rw [List.mem_singleton.mp hx, List.mem_singleton.mp hy]

/-- The new number ends up flagged as verified, and no code was ever sent to it. -/
theorem overlapping_requests_break_verified :
    ¬ ∀ (store : AuthStore) (completed : List (PrimaryIdentifierKind × String))
        (acts : List ProfileAct), UniqueBy User.pk store.users →
      Verified 1 (.start store completed) →
      Verified 1 (run (ProfileSys.step sampleConfig 1) (.start store completed) acts) := by
  intro h
  have hrun := h unverifiedNumber [(.email, "ali@example.com")] overlappingRequests
    uniqueBy_unverifiedNumber verified_unverifiedNumber
  have hfinal : (run (ProfileSys.step sampleConfig 1)
        (.start unverifiedNumber [(.email, "ali@example.com")]) overlappingRequests).store.users =
      [⟨1, some "ali@example.com", some "+989350000000", .email, true, true, "", "", "p", true⟩] ∧
      (run (ProfileSys.step sampleConfig 1)
        (.start unverifiedNumber [(.email, "ali@example.com")]) overlappingRequests).completed =
      [(.email, "ali@example.com"), (.phone, "+989120000000")] := by
    decide +kernel
  unfold Verified at hrun
  rw [hfinal.1, hfinal.2] at hrun
  obtain ⟨value, hvalue, hmem⟩ := hrun _ rfl .phone rfl
  obtain rfl := Option.some.inj hvalue
  revert hmem
  decide

/-- The change of the number alone. -/
theorem verified_means_verified_change :
    Verified 1 (run (ProfileSys.step sampleConfig 1)
      (.start unverifiedNumber [(.email, "ali@example.com")])
      [.load, .updateProfile 0 (some "09350000000")]) :=
  (verified_means_verified_iff sampleConfig 1 uniqueBy_unverifiedNumber _
    [.load, .updateProfile 0 (some "09350000000")]).mpr
    ⟨verified_unverifiedNumber, trivial, fun _ _ row _ _ hrow _ =>
      Or.inl (by obtain rfl := Option.some.inj hrow; rfl), trivial⟩ _ (List.prefix_refl _)

end SetadJang.Authentication
