import Mathlib.Data.List.Nodup
import SetadJang.Framework.Runs
import SetadJang.Authentication.Services

/-!
# The attempt budget of a one-time code

What `AUTH_OTP_MAX_ATTEMPTS` is for: after that many wrong answers for a record
nothing is accepted for it any more.  A request is a transaction of its own, so
a run is a list of requests.

The counter that enforces the budget is written by `verify_otp` before it
raises.  `login_otp_verify` lets the write stand.  The three atomic entry points
turn the raise into a rollback, so a wrong answer through them leaves no trace
and the record can be tried without limit.
-/

namespace SetadJang.Authentication

open SetadJang.Framework SetadJang.Framework.Txn

/-! ## Updates of the code table -/

namespace OtpTable

theorem row_unique {t : OtpTable} {r r' : OTPCode} (hr : r ∈ t.rows) (hr' : r' ∈ t.rows)
    (hpk : r.pk = r'.pk) : r = r' :=
  List.inj_on_of_nodup_map t.pk_nodup hr hr' hpk

theorem mem_markUsed {t : OtpTable} {pk : ℕ} {r' : OTPCode} :
    r' ∈ (t.markUsed pk).rows ↔
      ∃ r ∈ t.rows, (if r.pk = pk ∧ r.isUsed = false then { r with isUsed := true } else r) = r' := by
  simp [markUsed, updateWhere]

theorem mem_bumpAttempts {t : OtpTable} {pk : ℕ} {r' : OTPCode} :
    r' ∈ (t.bumpAttempts pk).rows ↔
      ∃ r ∈ t.rows, (if r.pk = pk ∧ r.isUsed = false then { r with attempts := r.attempts + 1 }
        else r) = r' := by
  simp [bumpAttempts, updateWhere]

theorem latestUnused_spec {t : OtpTable} {kind : PrimaryIdentifierKind} {value : String}
    {purpose : OTPPurpose} {otp : OTPCode} (h : t.latestUnused kind value purpose = some otp) :
    otp ∈ t.rows ∧ otp.purpose = purpose ∧ otp.isUsed = false := by
  have hmem := List.argmax_mem (Option.mem_def.mpr h)
  simp only [List.mem_filter, Bool.and_eq_true, beq_iff_eq, Bool.not_eq_true'] at hmem
  exact ⟨hmem.1, hmem.2.1.2, hmem.2.2⟩

theorem hasUnused_of_latestUnused {t : OtpTable} {kind : PrimaryIdentifierKind}
    {value : String} {purpose : OTPPurpose} {otp : OTPCode}
    (h : t.latestUnused kind value purpose = some otp) : t.hasUnused otp.pk = true := by
  obtain ⟨hmem, -, hfresh⟩ := latestUnused_spec h
  simp only [hasUnused, List.any_eq_true, Bool.and_eq_true, beq_iff_eq, Bool.not_eq_true']
  exact ⟨otp, hmem, rfl, hfresh⟩

/-- After the increment `refresh_from_db` finds the row, one attempt further. -/
theorem byPk_bumpAttempts {t : OtpTable} {otp : OTPCode} (hmem : otp ∈ t.rows)
    (hfresh : otp.isUsed = false) :
    (t.bumpAttempts otp.pk).byPk otp.pk = some { otp with attempts := otp.attempts + 1 } := by
  have hrow : { otp with attempts := otp.attempts + 1 } ∈ (t.bumpAttempts otp.pk).rows :=
    mem_bumpAttempts.mpr ⟨otp, hmem, by simp [hfresh]⟩
  cases hfind : (t.bumpAttempts otp.pk).byPk otp.pk with
  | none =>
      rw [byPk, List.find?_eq_none] at hfind
      exact absurd (by simp) (hfind _ hrow)
  | some r =>
      have hpk : r.pk = otp.pk := by simpa using List.find?_some hfind
      have hr := List.mem_of_find?_eq_some hfind
      rw [row_unique hr hrow hpk]

end OtpTable

/-! ## What one code check does -/

/-- A row only moves forward: it keeps its key and purpose, stays used once it
is used, and never loses an attempt. -/
def Progress (s t : AuthStore) : Prop :=
  ∀ r' ∈ t.otps.rows, ∃ r ∈ s.otps.rows,
    r.pk = r'.pk ∧ r.purpose = r'.purpose ∧ (r.isUsed = true → r'.isUsed = true) ∧
      r.attempts ≤ r'.attempts

theorem progress_refl (s : AuthStore) : Progress s s :=
  fun r hr => ⟨r, hr, rfl, rfl, id, le_rfl⟩

theorem progress_trans (s t u : AuthStore) (hst : Progress s t) (htu : Progress t u) :
    Progress s u := by
  intro r'' hr''
  obtain ⟨r', hr', hpk', hpur', hused', hatt'⟩ := htu r'' hr''
  obtain ⟨r, hr, hpk, hpur, hused, hatt⟩ := hst r' hr'
  exact ⟨r, hr, hpk.trans hpk', hpur.trans hpur', hused' ∘ hused, hatt.trans hatt'⟩

theorem progress_markUsed (s : AuthStore) (pk : ℕ) :
    Progress s { s with otps := s.otps.markUsed pk } := by
  intro r' hr'
  obtain ⟨r, hr, rfl⟩ := OtpTable.mem_markUsed.mp hr'
  refine ⟨r, hr, ?_⟩
  split_ifs <;> simp

theorem progress_bumpAttempts (s : AuthStore) (pk : ℕ) :
    Progress s { s with otps := s.otps.bumpAttempts pk } := by
  intro r' hr'
  obtain ⟨r, hr, rfl⟩ := OtpTable.mem_bumpAttempts.mp hr'
  refine ⟨r, hr, ?_⟩
  split_ifs <;> simp

theorem exec_markOtpUsed (otp : OTPCode) (s : AuthStore) :
    exec (markOtpUsed otp) s =
      (.ok (s.otps.hasUnused otp.pk), { s with otps := s.otps.markUsed otp.pk }) := rfl

theorem exec_incrementOtpAttempts {s : AuthStore} {kind : PrimaryIdentifierKind}
    {value : String} {purpose : OTPPurpose} {otp : OTPCode}
    (h : s.otps.latestUnused kind value purpose = some otp) :
    exec (incrementOtpAttempts otp) s =
      (.ok (otp.attempts + 1), { s with otps := s.otps.bumpAttempts otp.pk }) := by
  obtain ⟨hmem, -, hfresh⟩ := OtpTable.latestUnused_spec h
  refine exec_atomic_ok ?_
  simp [exec_bind, require, OtpTable.hasUnused_of_latestUnused h,
    OtpTable.byPk_bumpAttempts hmem hfresh, orRaise]

/-- **The code check, branch by branch.** The outcome and the store it leaves
when nobody rolls it back. -/
theorem exec_verifyOtp (cfg : AuthConfig) (kind : PrimaryIdentifierKind) (value : String)
    (purpose : OTPPurpose) {code : String} (now : ℕ) {s : AuthStore} {otp : OTPCode}
    (hcode : pyIsBlank code = false)
    (h : s.otps.latestUnused kind value purpose = some otp) :
    exec (verifyOtp cfg kind value purpose code now) s =
      if otp.isExpired now then
        (.error .expired, { s with otps := s.otps.markUsed otp.pk })
      else if cfg.maxAttempts ≤ otp.attempts then
        (.error .tooManyAttempts, { s with otps := s.otps.markUsed otp.pk })
      else if otp.codeHash ≠ expectedHashFor cfg otp code then
        if cfg.maxAttempts ≤ otp.attempts + 1 then
          (.error .tooManyAttempts,
            { s with otps := (s.otps.bumpAttempts otp.pk).markUsed otp.pk })
        else
          (.error (.invalidCode "کد وارد شده اشتباه است."),
            { s with otps := s.otps.bumpAttempts otp.pk })
      else (.ok { otp with isUsed := true }, { s with otps := s.otps.markUsed otp.pk }) := by
  have hunused := OtpTable.hasUnused_of_latestUnused h
  unfold verifyOtp
  simp only [hcode, Bool.false_eq_true, if_false, exec_bind, exec_get, h, orRaise, exec_pure]
  split_ifs <;>
    simp [exec_bind, exec_markOtpUsed, exec_incrementOtpAttempts h, require, *]

theorem exec_verifyOtp_none (cfg : AuthConfig) {kind : PrimaryIdentifierKind} {value : String}
    {purpose : OTPPurpose} {code : String} (now : ℕ) {s : AuthStore}
    (h : pyIsBlank code = true ∨ s.otps.latestUnused kind value purpose = none) :
    ∃ e, exec (verifyOtp cfg kind value purpose code now) s = (.error e, s) := by
  unfold verifyOtp
  by_cases hcode : pyIsBlank code = true
  · exact ⟨_, by simp only [hcode, if_true]; rfl⟩
  · have hnone := h.resolve_left hcode
    refine ⟨.notFound, ?_⟩
    simp [hcode, exec_bind, hnone, orRaise]

theorem keeps_verifyOtp (cfg : AuthConfig) (kind : PrimaryIdentifierKind) (value : String)
    (purpose : OTPPurpose) (code : String) (now : ℕ) :
    Keeps Progress (verifyOtp cfg kind value purpose code now) := by
  intro s
  unfold after
  by_cases hnone : pyIsBlank code = true ∨ s.otps.latestUnused kind value purpose = none
  · obtain ⟨e, he⟩ := exec_verifyOtp_none cfg now hnone
    rw [he]
    exact progress_refl s
  · obtain ⟨hcode, hrow⟩ := not_or.mp hnone
    obtain ⟨otp, hrow⟩ := Option.ne_none_iff_exists'.mp hrow
    rw [exec_verifyOtp cfg kind value purpose now (by simpa using hcode) hrow]
    split_ifs
    · exact progress_markUsed s otp.pk
    · exact progress_markUsed s otp.pk
    · exact progress_trans _ _ _ (progress_bumpAttempts s otp.pk)
        (progress_markUsed { s with otps := s.otps.bumpAttempts otp.pk } otp.pk)
    · exact progress_bumpAttempts s otp.pk
    · exact progress_markUsed s otp.pk

/-- A check that passes found a live row below the budget and the right code. -/
theorem commits_verifyOtp {cfg : AuthConfig} {kind : PrimaryIdentifierKind} {value : String}
    {purpose : OTPPurpose} {code : String} {now : ℕ} {s t : AuthStore} {r : OTPCode}
    (h : Commits (verifyOtp cfg kind value purpose code now) s r t) :
    pyIsBlank code = false ∧ ∃ otp, s.otps.latestUnused kind value purpose = some otp ∧
      otp.attempts < cfg.maxAttempts ∧ otp.codeHash = expectedHashFor cfg otp code := by
  unfold verifyOtp at h
  simp only [commits_bind, commits_ite, commits_throw, commits_get, commits_orRaise,
    and_false, false_and, exists_false, or_false, false_or] at h
  obtain ⟨hcode, store, u, ⟨rfl, rfl⟩, otp, u', ⟨hrow, rfl⟩, -, hbudget, hhash, -⟩ := h
  exact ⟨by simpa using hcode, otp, hrow, by omega, not_not.mp hhash⟩

/-! ## What one request does -/

/-- The identifier an entry point passes to the code check, when it gets there. -/
def identifierOf (cfg : AuthConfig) (s : AuthStore) (req : Request) : Option String :=
  match req.entry with
  | .identifierAddVerify user =>
      (ensureIdentifierCanBeAddedOrVerified cfg s.users user req.kind req.value).toOption
  | _ => normalizeIdentifierByKind cfg req.kind req.value

/-- The record a request is answered for.  A blank code is refused before any
record is looked up. -/
def selected (cfg : AuthConfig) (s : AuthStore) (req : Request) : Option OTPCode :=
  if pyIsBlank req.code then none
  else (identifierOf cfg s req).bind fun v =>
    s.otps.latestUnused req.kind v req.entry.purpose

/-- The request is answered for the record `pk` and its code is wrong. -/
def WrongFor (cfg : AuthConfig) (s : AuthStore) (pk : ℕ) (req : Request) : Prop :=
  ∃ otp ∈ selected cfg s req, otp.pk = pk ∧ otp.codeHash ≠ expectedHashFor cfg otp req.code

instance (cfg : AuthConfig) (s : AuthStore) (pk : ℕ) (req : Request) :
    Decidable (WrongFor cfg s pk req) :=
  inferInstanceAs (Decidable (∃ otp ∈ selected cfg s req, _))

/-- The request is answered for the record `pk` and succeeds. -/
def Accepted (cfg : AuthConfig) (s : AuthStore) (pk : ℕ) (req : Request) : Prop :=
  (∃ otp ∈ selected cfg s req, otp.pk = pk) ∧ ∃ t, Commits (serve cfg req) s () t

theorem selected_spec {cfg : AuthConfig} {s : AuthStore} {req : Request} {otp : OTPCode}
    (h : selected cfg s req = some otp) :
    pyIsBlank req.code = false ∧ ∃ v, identifierOf cfg s req = some v ∧
      s.otps.latestUnused req.kind v req.entry.purpose = some otp := by
  unfold selected at h
  split_ifs at h with hcode
  exact ⟨by simpa using hcode, Option.bind_eq_some_iff.mp h⟩

/-- **Inversion of a successful request.** Whatever the entry point, success
means that the code check passed for the selected record. -/
theorem commits_serve {cfg : AuthConfig} {s t : AuthStore} {req : Request}
    (h : Commits (serve cfg req) s () t) :
    ∃ otp, selected cfg s req = some otp ∧ otp.attempts < cfg.maxAttempts ∧
      otp.codeHash = expectedHashFor cfg otp req.code := by
  have hcheck : ∃ v u r, identifierOf cfg s req = some v ∧
      Commits (verifyOtp cfg req.kind v req.entry.purpose req.code req.now) s r u := by
    unfold serve at h
    unfold identifierOf
    cases hentry : req.entry with
    | signupVerify password firstName lastName jti =>
        simp only [hentry, signupVerify, checkCode, commits_atomic, commits_bind,
          commits_orRaise, commits_mapError] at h
        obtain ⟨v, u, ⟨hv, rfl⟩, r, u', hr, -⟩ := h
        exact ⟨v, u', r, hv, hr⟩
    | forgotPasswordConfirm newPassword =>
        simp only [hentry, forgotPasswordConfirm, checkCode, commits_atomic, commits_bind,
          commits_orRaise, commits_mapError] at h
        obtain ⟨v, u, ⟨hv, rfl⟩, r, u', hr, -⟩ := h
        exact ⟨v, u', r, hv, hr⟩
    | identifierAddVerify user =>
        simp only [hentry, identifierAddVerify, checkCode, commits_atomic, commits_bind,
          commits_get, commits_fromExcept, commits_mapError] at h
        obtain ⟨store, u, ⟨rfl, rfl⟩, v, u', ⟨hv, rfl⟩, r, u'', hr, -⟩ := h
        exact ⟨v, u'', r, by simp [hv, Except.toOption], hr⟩
    | loginOtpVerify jti =>
        simp only [hentry, loginOtpVerify, checkCode, commits_bind, commits_orRaise,
          commits_mapError] at h
        obtain ⟨v, u, ⟨hv, rfl⟩, r, u', hr, -⟩ := h
        exact ⟨v, u', r, hv, hr⟩
  obtain ⟨v, u, r, hv, hr⟩ := hcheck
  obtain ⟨hcode, otp, hrow, hbudget, hhash⟩ := commits_verifyOtp hr
  exact ⟨otp, by simp [selected, hcode, hv, hrow], hbudget, hhash⟩

/-- A request whose code is wrong does not succeed. -/
theorem not_commits_of_wrongFor {cfg : AuthConfig} {s t : AuthStore} {pk : ℕ}
    {req : Request} (hwrong : WrongFor cfg s pk req) : ¬ Commits (serve cfg req) s () t := by
  intro h
  obtain ⟨otp, hotp, -, hne⟩ := hwrong
  obtain ⟨otp', hotp', -, heq⟩ := commits_serve h
  rw [Option.mem_def, hotp'] at hotp
  cases hotp
  exact hne heq

/-- **Rollback.** Through an atomic entry point a wrong code leaves the database
as it was, counter included. -/
theorem step_of_wrongFor_atomic {cfg : AuthConfig} {s : AuthStore} {pk : ℕ} {req : Request}
    (hentry : req.entry.purpose ≠ .login) (hwrong : WrongFor cfg s pk req) :
    step cfg s req = s := by
  have hatomic : ∃ m : Txn AuthStore AuthServiceError Unit, serve cfg req = atomic m := by
    unfold serve
    cases h : req.entry with
    | signupVerify password firstName lastName jti => exact ⟨_, rfl⟩
    | forgotPasswordConfirm newPassword => exact ⟨_, rfl⟩
    | identifierAddVerify user => exact ⟨_, rfl⟩
    | loginOtpVerify jti => exact absurd (by rw [h]; rfl) hentry
  obtain ⟨m, hm⟩ := hatomic
  unfold step
  rw [hm]
  rcases allOrNothing_atomic m s with hsame | ⟨⟨⟩, hcommit⟩
  · exact hsame
  · rw [← hm] at hcommit
    exact absurd hcommit (not_commits_of_wrongFor hwrong)

theorem keeps_checkCode (cfg : AuthConfig) (kind : PrimaryIdentifierKind) (value : String)
    (purpose : OTPPurpose) (code : String) (now : ℕ) :
    Keeps Progress (checkCode cfg kind value purpose code now) :=
  keeps_mapError (keeps_verifyOtp cfg kind value purpose code now)

/-- A write to the other tables leaves the code table alone. -/
theorem keeps_modify_otherTables {f : AuthStore → AuthStore} (h : ∀ s, (f s).otps = s.otps) :
    Keeps Progress (modify f : Txn AuthStore AuthServiceError PUnit) :=
  keeps_modify fun s => by
    unfold Progress
    rw [h s]
    exact progress_refl s

theorem keeps_createUser (cfg : AuthConfig) (kind : PrimaryIdentifierKind)
    (value password firstName lastName : String) :
    Keeps Progress (createUser cfg kind value password firstName lastName) :=
  keeps_bind progress_trans (keeps_get progress_refl) fun _ =>
    keeps_bind progress_trans (keeps_modify_otherTables fun _ => rfl) fun _ =>
      keeps_pure progress_refl _

/-- **Step lemma.** No request moves a row of the code table backwards. -/
theorem progress_step (cfg : AuthConfig) (s : AuthStore) (req : Request) :
    Progress s (step cfg s req) := by
  suffices h : Keeps Progress (serve cfg req) from h s
  unfold serve
  cases req.entry with
  | signupVerify password firstName lastName jti =>
      refine keeps_atomic progress_refl ?_
      refine keeps_bind progress_trans (keeps_orRaise progress_refl _ _) fun v => ?_
      refine keeps_bind progress_trans (keeps_checkCode _ _ _ _ _ _) fun _ => ?_
      refine keeps_bind progress_trans (keeps_get progress_refl) fun _ => ?_
      refine keeps_bind progress_trans (keeps_require progress_refl _ _) fun _ => ?_
      refine keeps_bind progress_trans (keeps_createUser _ _ _ _ _ _) fun _ => ?_
      cases jti with
      | none => exact keeps_pure progress_refl ()
      | some jti => exact keeps_modify_otherTables fun _ => rfl
  | forgotPasswordConfirm newPassword =>
      refine keeps_atomic progress_refl ?_
      refine keeps_bind progress_trans (keeps_orRaise progress_refl _ _) fun v => ?_
      refine keeps_bind progress_trans (keeps_checkCode _ _ _ _ _ _) fun _ => ?_
      refine keeps_bind progress_trans (keeps_get progress_refl) fun _ => ?_
      refine keeps_bind progress_trans (keeps_orRaise progress_refl _ _) fun _ => ?_
      refine keeps_bind progress_trans (keeps_modify_otherTables fun _ => rfl) fun _ => ?_
      exact keeps_modify_otherTables fun _ => rfl
  | identifierAddVerify user =>
      refine keeps_atomic progress_refl ?_
      refine keeps_bind progress_trans (keeps_get progress_refl) fun _ => ?_
      refine keeps_bind progress_trans (keeps_fromExcept progress_refl _) fun v => ?_
      refine keeps_bind progress_trans (keeps_checkCode _ _ _ _ _ _) fun _ => ?_
      refine keeps_bind progress_trans (keeps_get progress_refl) fun _ => ?_
      refine keeps_bind progress_trans (keeps_fromExcept progress_refl _) fun v => ?_
      cases req.kind with
      | email => exact keeps_modify_otherTables fun _ => rfl
      | phone => exact keeps_modify_otherTables fun _ => rfl
  | loginOtpVerify jti =>
      refine keeps_bind progress_trans (keeps_orRaise progress_refl _ _) fun v => ?_
      refine keeps_bind progress_trans (keeps_checkCode _ _ _ _ _ _) fun _ => ?_
      refine keeps_bind progress_trans (keeps_get progress_refl) fun _ => ?_
      refine keeps_bind progress_trans (keeps_orRaise progress_refl _ _) fun _ => ?_
      exact keeps_modify_otherTables fun _ => rfl

/-! ## Counting wrong answers -/

/-- Every row of the key is a login code that is used up or has at least `n`
attempts on its counter. -/
def Spent (s : AuthStore) (pk n : ℕ) : Prop :=
  ∀ r ∈ s.otps.rows, r.pk = pk → r.purpose = .login ∧ (r.isUsed = true ∨ n ≤ r.attempts)

theorem spent_of_progress {s t : AuthStore} {pk n : ℕ} (h : Progress s t)
    (hs : Spent s pk n) : Spent t pk n := by
  intro r' hr' hpk'
  obtain ⟨r, hr, hpk, hpur, hused, hatt⟩ := h r' hr'
  obtain ⟨hlogin, hspent⟩ := hs r hr (hpk.trans hpk')
  refine ⟨hpur ▸ hlogin, ?_⟩
  rcases hspent with hu | hn
  · exact Or.inl (hused hu)
  · exact Or.inr (hn.trans hatt)

/-- The store a wrong code leaves behind when nothing rolls it back: the row is
used up or one attempt further. -/
theorem exec_verifyOtp_wrong {cfg : AuthConfig} {kind : PrimaryIdentifierKind} {value : String}
    {purpose : OTPPurpose} {code : String} (now : ℕ) {s : AuthStore} {otp : OTPCode}
    (hcode : pyIsBlank code = false)
    (hrow : s.otps.latestUnused kind value purpose = some otp)
    (hne : otp.codeHash ≠ expectedHashFor cfg otp code) :
    ∃ e t, exec (verifyOtp cfg kind value purpose code now) s = (.error e, t) ∧
      ∀ r' ∈ t.otps.rows, r'.pk = otp.pk →
        r'.isUsed = true ∨ r'.attempts = otp.attempts + 1 := by
  obtain ⟨hmem, -, -⟩ := OtpTable.latestUnused_spec hrow
  have hmark : ∀ (tab : OtpTable), ∀ r' ∈ (tab.markUsed otp.pk).rows, r'.pk = otp.pk →
      r'.isUsed = true ∨ r'.attempts = otp.attempts + 1 := by
    intro tab r' hr' hpk
    obtain ⟨r, -, rfl⟩ := OtpTable.mem_markUsed.mp hr'
    left
    split_ifs at hpk ⊢ with h
    · rfl
    · simpa [hpk] using h
  have hbump : ∀ r' ∈ (s.otps.bumpAttempts otp.pk).rows, r'.pk = otp.pk →
      r'.isUsed = true ∨ r'.attempts = otp.attempts + 1 := by
    intro r' hr' hpk
    obtain ⟨r, hr, rfl⟩ := OtpTable.mem_bumpAttempts.mp hr'
    split_ifs at hpk ⊢ with h
    · exact Or.inr (by rw [OtpTable.row_unique hr hmem hpk])
    · exact Or.inl (by simpa [hpk] using h)
  rw [exec_verifyOtp cfg kind value purpose now hcode hrow]
  split_ifs
  · exact ⟨_, _, rfl, hmark _⟩
  · exact ⟨_, _, rfl, hmark _⟩
  · exact ⟨_, _, rfl, hmark _⟩
  · exact ⟨_, _, rfl, hbump⟩

/-- **Step lemma for a wrong login code.** It costs one attempt. -/
theorem spent_step_wrong {cfg : AuthConfig} {s : AuthStore} {pk n : ℕ} {req : Request}
    (hs : Spent s pk n) (hwrong : WrongFor cfg s pk req) :
    Spent (step cfg s req) pk (n + 1) := by
  obtain ⟨otp, hotp, rfl, hne⟩ := hwrong
  obtain ⟨hcode, v, hv, hrow⟩ := selected_spec hotp
  obtain ⟨hmem, hpur, hfresh⟩ := OtpTable.latestUnused_spec hrow
  obtain ⟨hlogin, hspent⟩ := hs otp hmem rfl
  have hn : n ≤ otp.attempts := hspent.resolve_left (by simp [hfresh])
  obtain ⟨e, t, hexec, hrows⟩ := exec_verifyOtp_wrong req.now hcode hrow hne
  have hstep : step cfg s req = t := by
    cases hentry : req.entry with
    | loginOtpVerify jti =>
        simp only [identifierOf, hentry] at hv
        simp only [hentry, Entry.purpose] at hexec
        have hcheck := exec_mapError_error (f := mapOtpErrorToServiceError) hexec
        simp only [step, after, serve, hentry, loginOtpVerify, hv, orRaise, exec_bind, exec_pure]
        rw [checkCode, hcheck]
    | signupVerify password firstName lastName jti =>
        rw [hentry] at hpur
        simp [Entry.purpose, hlogin] at hpur
    | forgotPasswordConfirm newPassword =>
        rw [hentry] at hpur
        simp [Entry.purpose, hlogin] at hpur
    | identifierAddVerify user =>
        rw [hentry] at hpur
        simp [Entry.purpose, hlogin] at hpur
  intro r' hr' hpk'
  refine ⟨(spent_of_progress (progress_step cfg s req) hs r' hr' hpk').1, ?_⟩
  rw [hstep] at hr'
  rcases hrows r' hr' hpk' with hused | hatt
  · exact Or.inl hused
  · exact Or.inr (by omega)

/-- The wrong answers for the record `pk` along a run. -/
def wrongAnswers (cfg : AuthConfig) (pk : ℕ) : AuthStore → List Request → ℕ
  | _, [] => 0
  | s, req :: reqs =>
      (if WrongFor cfg s pk req then 1 else 0) + wrongAnswers cfg pk (step cfg s req) reqs

/-- **Lockout.** Once the budget of wrong answers for the record is reached, no
later request is accepted for it, whatever its code and entry point. -/
def LockoutLaw (cfg : AuthConfig) (s : AuthStore) (pk : ℕ) : Prop :=
  ∀ reqs req, cfg.maxAttempts ≤ wrongAnswers cfg pk s reqs →
    ¬ Accepted cfg (run (step cfg) s reqs) pk req

/-- **Run lemma.** Along any run the counter keeps up with the wrong answers. -/
theorem spent_run {cfg : AuthConfig} {pk : ℕ} (reqs : List Request) {s : AuthStore} {n : ℕ}
    (hs : Spent s pk n) :
    Spent (run (step cfg) s reqs) pk (n + wrongAnswers cfg pk s reqs) := by
  induction reqs generalizing s n with
  | nil => exact hs
  | cons req reqs ih =>
      by_cases hwrong : WrongFor cfg s pk req
      · have h := ih (spent_step_wrong hs hwrong)
        simpa [wrongAnswers, hwrong, Nat.add_assoc] using h
      · have h := ih (spent_of_progress (progress_step cfg s req) hs)
        simpa [wrongAnswers, hwrong] using h

theorem not_accepted_of_spent {cfg : AuthConfig} {s : AuthStore} {pk n : ℕ} {req : Request}
    (hs : Spent s pk n) (hn : cfg.maxAttempts ≤ n) : ¬ Accepted cfg s pk req := by
  rintro ⟨⟨otp, hotp, hpk⟩, t, ht⟩
  obtain ⟨otp', hotp', hbudget, -⟩ := commits_serve ht
  rw [Option.mem_def, hotp'] at hotp
  cases hotp
  obtain ⟨-, v, -, hrow⟩ := selected_spec hotp'
  obtain ⟨hmem, -, hfresh⟩ := OtpTable.latestUnused_spec hrow
  rcases (hs otp hmem hpk).2 with hused | hatt
  · simp [hfresh] at hused
  · omega

theorem lockoutLaw_of_login {cfg : AuthConfig} {s : AuthStore} {row : OTPCode}
    (hrow : row ∈ s.otps.rows) (hlogin : row.purpose = .login) :
    LockoutLaw cfg s row.pk := by
  have hs : Spent s row.pk 0 := by
    intro r hr hpk
    rw [OtpTable.row_unique hr hrow hpk]
    exact ⟨hlogin, Or.inr (Nat.zero_le _)⟩
  intro reqs req hreached
  exact not_accepted_of_spent (spent_run reqs hs) (by omega)

/-- Repeating a request that the rollback erases changes nothing and counts
every time. -/
theorem wrongAnswers_replicate {cfg : AuthConfig} {s : AuthStore} {pk : ℕ} {req : Request}
    (hwrong : WrongFor cfg s pk req) (hsame : step cfg s req = s) (n : ℕ) :
    wrongAnswers cfg pk s (List.replicate n req) = n ∧
      run (step cfg) s (List.replicate n req) = s := by
  induction n with
  | zero => exact ⟨rfl, rfl⟩
  | succ n ih =>
      simp only [List.replicate_succ, wrongAnswers, run_cons, hsame, if_pos hwrong, ih]
      exact ⟨by omega, trivial⟩

theorem not_lockoutLaw_of_atomic {cfg : AuthConfig} {s : AuthStore} {pk : ℕ}
    {wrong right : Request} (hentry : wrong.entry.purpose ≠ .login)
    (hwrong : WrongFor cfg s pk wrong) (hright : Accepted cfg s pk right) :
    ¬ LockoutLaw cfg s pk := by
  intro hlaw
  obtain ⟨hcount, hrun⟩ :=
    wrongAnswers_replicate hwrong (step_of_wrongFor_atomic hentry hwrong) cfg.maxAttempts
  refine hlaw (List.replicate cfg.maxAttempts wrong) right hcount.ge ?_
  rw [hrun]
  exact hright

theorem purpose_of_wrongFor {cfg : AuthConfig} {s : AuthStore} {row : OTPCode} {req : Request}
    (hrow : row ∈ s.otps.rows) (hwrong : WrongFor cfg s row.pk req) :
    req.entry.purpose = row.purpose := by
  obtain ⟨otp, hotp, hpk, -⟩ := hwrong
  obtain ⟨-, v, -, hsel⟩ := selected_spec hotp
  obtain ⟨hmem, hpur, -⟩ := OtpTable.latestUnused_spec hsel
  rw [OtpTable.row_unique hrow hmem hpk.symm, hpur]

/-- **When the lockout works.** It works for every login code.  For a code that
is still usable (some request is accepted for it now, and some code is wrong for
it) it works only for login codes: the other three entry points roll the attempt
counter back. -/
theorem lockoutLaw_iff_login (cfg : AuthConfig) (s : AuthStore) (row : OTPCode)
    (hrow : row ∈ s.otps.rows) :
    (row.purpose = .login → LockoutLaw cfg s row.pk) ∧
      ((∃ right, Accepted cfg s row.pk right) → (∃ wrong, WrongFor cfg s row.pk wrong) →
        (LockoutLaw cfg s row.pk ↔ row.purpose = .login)) := by
  refine ⟨lockoutLaw_of_login hrow, ?_⟩
  rintro ⟨right, hright⟩ ⟨wrong, hwrong⟩
  refine ⟨fun hlaw => ?_, lockoutLaw_of_login hrow⟩
  by_contra hpur
  rw [← purpose_of_wrongFor hrow hwrong] at hpur
  exact not_lockoutLaw_of_atomic hpur hwrong hright hlaw

/-! ## A password reset that can be guessed without limit -/

/-- Five attempts; the keyed hash only has to tell the two codes below apart. -/
def sampleConfig : AuthConfig where
  secretKey := "k"
  maxAttempts := 5
  hmac := fun key msg => key ++ ":" ++ msg
  normalizeEmail := some
  normalizePhone := some
  upper := id
  makePassword := id

def sampleRow (purpose : OTPPurpose) : OTPCode where
  pk := 7
  identifierKind := .email
  identifierValue := "ali@example.com"
  purpose := purpose
  codeHash := hashCode sampleConfig "482913" "s" .email "ali@example.com" purpose
  codeSalt := "s"
  createdAt := 100
  expiresAt := 220
  attempts := 0
  isUsed := false

def sampleStore (purpose : OTPPurpose) : AuthStore where
  otps := ⟨[sampleRow purpose], by simp⟩
  users := [⟨1, some "ali@example.com", none, .email, true, false, "", "", "p", true⟩]
  sessions := []

def sampleRequest (entry : Entry) (code : String) : Request :=
  ⟨entry, .email, "ali@example.com", code, 150⟩

def sampleWrong : Request := sampleRequest (.forgotPasswordConfirm "n") "000000"

def sampleRight : Request := sampleRequest (.forgotPasswordConfirm "n") "482913"

theorem sampleRight_accepted :
    Accepted sampleConfig (sampleStore .passwordReset) 7 sampleRight :=
  ⟨by decide, _, rfl⟩

/-- Five wrong codes through `forgot_password_confirm`, and the sixth request
still resets the password. -/
theorem passwordReset_not_locked : ¬ LockoutLaw sampleConfig (sampleStore .passwordReset) 7 := by
  have hwrong : WrongFor sampleConfig (sampleStore .passwordReset) 7 sampleWrong := by decide
  exact not_lockoutLaw_of_atomic (by decide) hwrong sampleRight_accepted

/-- The same identifier with a login code is locked; with a reset code the
lockout would need the purpose to be login. -/
theorem lockoutLaw_samples :
    LockoutLaw sampleConfig (sampleStore .login) 7 ∧
      (LockoutLaw sampleConfig (sampleStore .passwordReset) 7 ↔
        OTPPurpose.passwordReset = OTPPurpose.login) :=
  ⟨(lockoutLaw_iff_login sampleConfig (sampleStore .login) (sampleRow .login)
      (by simp [sampleStore])).1 rfl,
    (lockoutLaw_iff_login sampleConfig (sampleStore .passwordReset) (sampleRow .passwordReset)
      (by simp [sampleStore])).2 ⟨sampleRight, sampleRight_accepted⟩ ⟨sampleWrong, by decide⟩⟩

end SetadJang.Authentication
