import SetadJang.Authentication.OtpRaces

/-!
# Single use of one-time codes

Two successes for one record would both have found it unused.  The one that is committed
first leaves it used, and until then it holds the lock of the row; so the other update is
either later, and finds nothing, or waits.  The same holds of a delivery: the records it
marks stay used.
-/

namespace SetadJang.Authentication

open SetadJang.Framework

/-- What the order of two committed events may be: no record is accepted twice, and none
after the delivery of a newer code for its target. -/
def OtpEvent.Allows : OtpEvent → OtpEvent → Prop
  | .verified pk _, .verified pk' _ => pk ≠ pk'
  | .delivered target seen, .verified pk target' => ¬ (target' = target ∧ pk ∈ seen)
  | _, .delivered _ _ => True

/-- The event leaves the record used. -/
def OtpEvent.Retires (r : OTPCode) : OtpEvent → Prop
  | .verified pk _ => r.pk = pk
  | .delivered target seen => r.target = target ∧ r.pk ∈ seen

/-- The event is about records that were stored under keys below `n`. -/
def OtpEvent.Before (n : ℕ) : OtpEvent → Prop
  | .verified pk _ => pk < n
  | .delivered _ seen => ∀ pk ∈ seen, pk < n

/-! ## The table -/

namespace OtpTable

theorem mem_touch {t : OtpTable} {pks : List ℕ} {bumps : ℕ} {used : Bool} {r' : OTPCode} :
    r' ∈ (t.touch pks bumps used).rows ↔
      ∃ r ∈ t.rows, (if r.pk ∈ pks then
        { r with attempts := r.attempts + bumps, isUsed := r.isUsed || used } else r) = r' := by
  simp [touch, updateWhere]

/-- A row after an update: its key and target are the ones it had, and it is used if it was. -/
theorem touch_back {t : OtpTable} {pks : List ℕ} {bumps : ℕ} {used : Bool} {r' : OTPCode}
    (h : r' ∈ (t.touch pks bumps used).rows) :
    ∃ r ∈ t.rows, r'.pk = r.pk ∧ r'.target = r.target ∧ (r.isUsed = true → r'.isUsed = true) ∧
      (r.pk ∈ pks → used = true → r'.isUsed = true) := by
  obtain ⟨r, hr, rfl⟩ := mem_touch.mp h
  refine ⟨r, hr, ?_⟩
  split_ifs with hpk
  · exact ⟨rfl, rfl, fun hu => by simp [hu], fun _ hu => by simp [hu]⟩
  · exact ⟨rfl, rfl, id, fun hin => absurd hin hpk⟩

/-- The rows that an update leaves alone. -/
theorem touch_other {t : OtpTable} {pks : List ℕ} {bumps : ℕ} {used : Bool} {r : OTPCode}
    (hr : r ∈ t.rows) (hpk : r.pk ∉ pks) : r ∈ (t.touch pks bumps used).rows :=
  mem_touch.mpr ⟨r, hr, by simp [hpk]⟩

theorem mem_insert {t : OtpTable} {row r : OTPCode} (h : r ∈ (t.insert row).rows) :
    r = row ∨ r ∈ t.rows := by
  unfold insert at h
  split_ifs at h
  · exact Or.inr h
  · rcases List.mem_append.mp h with h | h
    · exact Or.inr h
    · exact Or.inl (List.mem_singleton.mp h)

theorem mem_insert_of_mem {t : OtpTable} {row r : OTPCode} (h : r ∈ t.rows) :
    r ∈ (t.insert row).rows := by
  unfold insert
  split_ifs
  · exact h
  · exact List.mem_append_left _ h

theorem mem_delete {t : OtpTable} {pk : ℕ} {r : OTPCode} :
    r ∈ (t.delete pk).rows ↔ r ∈ t.rows ∧ r.pk ≠ pk := by
  simp [delete]

theorem hasUnused_iff {t : OtpTable} {pk : ℕ} :
    t.hasUnused pk = true ↔ ∃ r ∈ t.rows, r.pk = pk ∧ r.isUsed = false := by
  simp [hasUnused]

/-- The delivery passes over the rows that are used already. -/
theorem mem_unusedFor {t : OtpTable} {target : PrimaryIdentifierKind × String × OTPPurpose}
    {own : Option ℕ} {r : OTPCode} (hr : r ∈ t.rows) (htarget : r.target = target)
    (hown : some r.pk ≠ own) : r.isUsed = true ∨ r.pk ∈ t.unusedFor target own := by
  cases hused : r.isUsed with
  | true => exact Or.inl rfl
  | false =>
      right
      refine List.mem_map_of_mem (List.mem_filter.mpr ⟨hr, ?_⟩)
      simp [htarget, hused, hown]

end OtpTable

/-! ## The invariant -/

/-- The call has marked a record it accepts, and the service is still open. -/
def VerifyCall.Succeeded (call : VerifyCall) (otp : OTPCode) : Prop :=
  call.phase = .verified otp ∧ call.atomic = true

structure RaceInv (s : OtpSys) : Prop where
  fresh : ∀ r ∈ s.otps.rows, r.pk < s.nextPk
  copies : ∀ call ∈ s.verifies, ∀ otp ∈ call.phase.copy, otp.pk < s.nextPk ∧
    ∀ r ∈ s.otps.rows, r.pk = otp.pk → r.target = otp.target
  locks : ∀ (i j : ℕ) (a b : VerifyCall) (pk : ℕ), s.verifies[i]? = some a →
    s.verifies[j]? = some b → a.holds pk = true → b.holds pk = true → i = j
  exclusive : ∀ call ∈ s.verifies, ∀ issue ∈ s.issues, ∀ pk, call.holds pk = true →
    issue.holds pk = false
  success : ∀ call ∈ s.verifies, ∀ otp, call.Succeeded otp →
    (∃ bumps, call.pending = some ⟨otp.pk, bumps, true⟩) ∧
      ∃ r ∈ s.otps.rows, r.pk = otp.pk ∧ r.isUsed = false
  spent : ∀ event ∈ s.events, ∀ r ∈ s.otps.rows, event.Retires r → r.isUsed = true
  past : ∀ event ∈ s.events, event.Before s.nextPk
  seen : ∀ issue ∈ s.issues, (∀ pk ∈ issue.seen, pk < s.nextPk) ∧
    ∀ own, issue.phase = .sending (some own) → own ∉ issue.seen
  retiring : ∀ issue ∈ s.issues, ∀ retired, issue.phase = .delivered retired →
    ∀ r ∈ s.otps.rows, r.target = issue.row.target → r.pk ∈ issue.seen →
      r.isUsed = true ∨ r.pk ∈ retired
  auto : ∀ call ∈ s.verifies, call.atomic = false → call.pending = none
  lawful : s.events.Pairwise OtpEvent.Allows

/-! ## Primitive changes of the state -/

/-- An update of rows that no open success is about. -/
theorem raceInv_touch {s : OtpSys} (hs : RaceInv s) {pks : List ℕ} {bumps : ℕ} {used : Bool}
    (hfree : ∀ call ∈ s.verifies, ∀ pk ∈ pks, call.holds pk = false) :
    RaceInv (s.touch pks bumps used) := by
  refine { hs with
      fresh := ?fresh, copies := ?copies, success := ?success, spent := ?spent,
      retiring := ?retiring }
  case fresh =>
    intro r' hr'
    obtain ⟨r, hr, hpk, -⟩ := OtpTable.touch_back hr'
    rw [hpk]
    exact hs.fresh r hr
  case copies =>
    intro call hcall otp hotp
    refine ⟨(hs.copies call hcall otp hotp).1, fun r' hr' hpk' => ?_⟩
    obtain ⟨r, hr, hpk, htarget, -⟩ := OtpTable.touch_back hr'
    rw [htarget]
    exact (hs.copies call hcall otp hotp).2 r hr (hpk ▸ hpk')
  case success =>
    intro call hcall otp hsucc
    obtain ⟨⟨b, hpending⟩, r, hr, hpk, hunused⟩ := hs.success call hcall otp hsucc
    refine ⟨⟨b, hpending⟩, r, OtpTable.touch_other hr fun hin => ?_, hpk, hunused⟩
    have hfalse := hfree call hcall r.pk hin
    simp [VerifyCall.holds, hpending, hpk] at hfalse
  case spent =>
    intro event hevent r' hr' hretires
    obtain ⟨r, hr, hpk, htarget, hused, -⟩ := OtpTable.touch_back hr'
    refine hused (hs.spent event hevent r hr ?_)
    cases event with
    | verified pk target => exact hpk.symm.trans hretires
    | delivered target seen => exact ⟨htarget.symm.trans hretires.1, hpk ▸ hretires.2⟩
  case retiring =>
    intro issue hissue retired hphase r' hr' htarget' hseen
    obtain ⟨r, hr, hpk, htarget, hused, -⟩ := OtpTable.touch_back hr'
    rw [hpk] at hseen ⊢
    exact (hs.retiring issue hissue retired hphase r hr (htarget ▸ htarget') hseen).imp hused id

/-- An event that the table already shows. -/
theorem raceInv_log {s : OtpSys} (hs : RaceInv s) {event : OtpEvent}
    (hspent : ∀ r ∈ s.otps.rows, event.Retires r → r.isUsed = true)
    (hbefore : event.Before s.nextPk) (hallows : ∀ old ∈ s.events, old.Allows event) :
    RaceInv (s.log event) := by
  refine { hs with spent := ?spent, past := ?past, lawful := ?lawful }
  case spent =>
    intro e he
    rcases List.mem_append.mp he with he | he
    · exact hs.spent e he
    · cases List.mem_singleton.mp he
      exact hspent
  case past =>
    intro e he
    rcases List.mem_append.mp he with he | he
    · exact hs.past e he
    · cases List.mem_singleton.mp he
      exact hbefore
  case lawful =>
    refine List.pairwise_append.mpr ⟨hs.lawful, List.pairwise_singleton _ _, fun old hold e he => ?_⟩
    cases List.mem_singleton.mp he
    exact hallows old hold

/-- A delivery is allowed at any time. -/
theorem allows_delivered (old : OtpEvent) (target : PrimaryIdentifierKind × String × OTPPurpose)
    (seen : List ℕ) : old.Allows (.delivered target seen) := by
  cases old <;> trivial

/-- A new key is one that nothing speaks about. -/
theorem raceInv_insert {s : OtpSys} (hs : RaceInv s) (row : OTPCode) : RaceInv (s.insert row) := by
  have hcases : ∀ r ∈ (s.insert row).otps.rows, r.pk = s.nextPk ∨ r ∈ s.otps.rows := by
    intro r hr
    rcases OtpTable.mem_insert hr with rfl | hr
    · exact Or.inl rfl
    · exact Or.inr hr
  have hlater : ∀ {n : ℕ}, n < s.nextPk → n < (s.insert row).nextPk := fun h => Nat.lt_succ_of_lt h
  refine { hs with
      fresh := ?fresh, copies := ?copies, success := ?success, spent := ?spent, past := ?past,
      seen := ?seen, retiring := ?retiring }
  case fresh =>
    intro r hr
    rcases hcases r hr with hpk | hold
    · rw [hpk]
      exact Nat.lt_succ_self _
    · exact hlater (hs.fresh r hold)
  case copies =>
    intro call hcall otp hotp
    obtain ⟨hlt, htarget⟩ := hs.copies call hcall otp hotp
    refine ⟨hlater hlt, fun r hr hpk => ?_⟩
    rcases hcases r hr with hnew | hold
    · omega
    · exact htarget r hold hpk
  case success =>
    intro call hcall otp hsucc
    obtain ⟨hpending, r, hr, hrest⟩ := hs.success call hcall otp hsucc
    exact ⟨hpending, r, OtpTable.mem_insert_of_mem hr, hrest⟩
  case spent =>
    intro event hevent r hr hretires
    rcases hcases r hr with hnew | hold
    · have hpast := hs.past event hevent
      cases event with
      | verified pk target =>
          have hpk : r.pk = pk := hretires
          have hlt : pk < s.nextPk := hpast
          omega
      | delivered target seen =>
          have hlt := hpast r.pk hretires.2
          omega
    · exact hs.spent event hevent r hold hretires
  case past =>
    intro event hevent
    have hpast := hs.past event hevent
    cases event with
    | verified pk target => exact hlater hpast
    | delivered target seen => exact fun pk hpk => hlater (hpast pk hpk)
  case seen =>
    intro issue hissue
    obtain ⟨hlt, hown⟩ := hs.seen issue hissue
    exact ⟨fun pk hpk => hlater (hlt pk hpk), hown⟩
  case retiring =>
    intro issue hissue retired hphase r hr htarget hseen
    rcases hcases r hr with hnew | hold
    · have hlt := (hs.seen issue hissue).1 r.pk hseen
      omega
    · exact hs.retiring issue hissue retired hphase r hold htarget hseen

theorem raceInv_delete {s : OtpSys} (hs : RaceInv s) {pk : ℕ}
    (hfree : ∀ call ∈ s.verifies, call.holds pk = false) :
    RaceInv { s with otps := s.otps.delete pk } := by
  have hback : ∀ {r : OTPCode}, r ∈ (s.otps.delete pk).rows → r ∈ s.otps.rows :=
    fun hr => (OtpTable.mem_delete.mp hr).1
  refine { hs with
      fresh := fun r hr => hs.fresh r (hback hr), copies := ?copies, success := ?success,
      spent := fun event hevent r hr => hs.spent event hevent r (hback hr),
      retiring := fun issue hissue retired hphase r hr => hs.retiring issue hissue retired hphase r (hback hr) }
  case copies =>
    intro call hcall otp hotp
    obtain ⟨hlt, htarget⟩ := hs.copies call hcall otp hotp
    exact ⟨hlt, fun r hr => htarget r (hback hr)⟩
  case success =>
    intro call hcall otp hsucc
    obtain ⟨⟨bumps, hpending⟩, r, hr, hpk, hunused⟩ := hs.success call hcall otp hsucc
    refine ⟨⟨bumps, hpending⟩, r, OtpTable.mem_delete.mpr ⟨hr, fun heq => ?_⟩, hpk, hunused⟩
    have hfalse := hfree call hcall
    simp [VerifyCall.holds, hpending, ← hpk, heq] at hfalse

theorem lockedFor_false {s : OtpSys} {i pk : ℕ} (h : s.lockedFor i pk = false) :
    (∀ (j : ℕ) (other : VerifyCall), s.verifies[j]? = some other → other.holds pk = true → j = i) ∧
      ∀ issue ∈ s.issues, issue.holds pk = false := by
  simp only [OtpSys.lockedFor, Bool.or_eq_false_iff, List.any_eq_false] at h
  constructor
  · intro j other hother hholds
    by_contra hne
    exact h.1 (other, j) (List.mk_mem_zipIdx_iff_getElem?.mpr hother) (by simp [hne, hholds])
  · intro issue hissue
    exact Bool.eq_false_of_not_eq_true (h.2 issue hissue)

theorem locked_false {s : OtpSys} {pk : ℕ} (h : s.locked pk = false) :
    (∀ call ∈ s.verifies, call.holds pk = false) ∧ ∀ issue ∈ s.issues, issue.holds pk = false := by
  simp only [OtpSys.locked, Bool.or_eq_false_iff, List.any_eq_false] at h
  exact ⟨fun call hcall => Bool.eq_false_of_not_eq_true (h.1 call hcall),
    fun issue hissue => Bool.eq_false_of_not_eq_true (h.2 issue hissue)⟩

/-- A call takes its next step: its copy is one of a stored record, it takes a lock only
when it is free, and it succeeds only on an unused row that it has marked. -/
theorem raceInv_setCall {s : OtpSys} (hs : RaceInv s) {i : ℕ} {call new : VerifyCall}
    (hcall : s.verifies[i]? = some call)
    (hcopy : ∀ otp ∈ new.phase.copy, otp.pk < s.nextPk ∧
      ∀ r ∈ s.otps.rows, r.pk = otp.pk → r.target = otp.target)
    (hholds : ∀ pk, new.holds pk = true → call.holds pk = true ∨ s.lockedFor i pk = false)
    (hsuccess : ∀ otp, new.Succeeded otp → (∃ bumps, new.pending = some ⟨otp.pk, bumps, true⟩) ∧
      ∃ r ∈ s.otps.rows, r.pk = otp.pk ∧ r.isUsed = false)
    (hauto : new.atomic = false → new.pending = none) : RaceInv (s.setCall i new) := by
  have hmem : ∀ {other : VerifyCall}, other ∈ (s.setCall i new).verifies →
      other = new ∨ other ∈ s.verifies :=
    fun hother => (List.mem_or_eq_of_mem_set hother).symm
  -- a lock the call has now is one it had before or one that was free
  have halone : ∀ {pk j : ℕ} {other : VerifyCall}, new.holds pk = true →
      s.verifies[j]? = some other → other.holds pk = true → j = i := by
    intro pk j other hnew hother hh
    rcases hholds pk hnew with hold | hfree
    · exact hs.locks j i other call pk hother hcall hh hold
    · exact (lockedFor_false hfree).1 j other hother hh
  have hcases : ∀ {j : ℕ} {other : VerifyCall}, (s.setCall i new).verifies[j]? = some other →
      (i = j ∧ new = other) ∨ s.verifies[j]? = some other := by
    intro j other hj
    simp only [OtpSys.setCall, List.getElem?_set] at hj
    split_ifs at hj with hij hlt
    · exact Or.inl ⟨hij, Option.some.inj hj⟩
    · exact Or.inr hj
  refine { hs with
      copies := ?copies, locks := ?locks, exclusive := ?exclusive, success := ?success,
      auto := ?auto }
  case copies =>
    intro other hother
    rcases hmem hother with rfl | hold
    · exact hcopy
    · exact hs.copies other hold
  case locks =>
    intro j k a b pk ha hb hholdsa hholdsb
    rcases hcases ha with ⟨rfl, rfl⟩ | ha <;> rcases hcases hb with ⟨rfl, rfl⟩ | hb
    · rfl
    · exact (halone hholdsa hb hholdsb).symm
    · exact halone hholdsb ha hholdsa
    · exact hs.locks j k a b pk ha hb hholdsa hholdsb
  case exclusive =>
    intro other hother issue hissue pk hh
    rcases hmem hother with rfl | hold
    · rcases hholds pk hh with hheld | hfree
      · exact hs.exclusive call (List.mem_of_getElem? hcall) issue hissue pk hheld
      · exact (lockedFor_false hfree).2 issue hissue
    · exact hs.exclusive other hold issue hissue pk hh
  case success =>
    intro other hother
    rcases hmem hother with rfl | hold
    · exact hsuccess
    · exact hs.success other hold
  case auto =>
    intro other hother
    rcases hmem hother with rfl | hold
    · exact hauto
    · exact hs.auto other hold

theorem raceInv_setIssue {s : OtpSys} (hs : RaceInv s) {j : ℕ} {issue : IssueCall}
    {phase : IssuePhase} (hissue : s.issues[j]? = some issue)
    (hholds : ∀ pk, { issue with phase := phase }.holds pk = true → s.locked pk = false)
    (hsending : ∀ own, phase ≠ .sending own)
    (hretiring : ∀ retired, phase = .delivered retired → ∀ r ∈ s.otps.rows,
      r.target = issue.row.target → r.pk ∈ issue.seen → r.isUsed = true ∨ r.pk ∈ retired) :
    RaceInv (s.setIssue j { issue with phase := phase }) := by
  have hmem : ∀ {other : IssueCall}, other ∈ (s.setIssue j { issue with phase := phase }).issues →
      other = { issue with phase := phase } ∨ other ∈ s.issues :=
    fun hother => (List.mem_or_eq_of_mem_set hother).symm
  refine { hs with exclusive := ?exclusive, seen := ?seen, retiring := ?retiring }
  case exclusive =>
    intro call hcall other hother pk hh
    rcases hmem hother with rfl | hold
    · by_contra hheld
      have hfree := (locked_false (hholds pk (Bool.eq_true_of_not_eq_false hheld))).1 call hcall
      rw [hh] at hfree
      cases hfree
    · exact hs.exclusive call hcall other hold pk hh
  case seen =>
    intro other hother
    rcases hmem hother with rfl | hold
    · exact ⟨(hs.seen issue (List.mem_of_getElem? hissue)).1, fun own h => absurd h (hsending _)⟩
    · exact hs.seen other hold
  case retiring =>
    intro other hother retired hphase
    rcases hmem hother with rfl | hold
    · exact hretiring retired hphase
    · exact hs.retiring other hold retired hphase

/-- The end of a generation. -/
theorem raceInv_endIssue {s : OtpSys} (hs : RaceInv s) {j : ℕ} {issue : IssueCall}
    (hissue : s.issues[j]? = some issue) :
    RaceInv (s.setIssue j { issue with phase := .ended }) :=
  raceInv_setIssue hs hissue nofun nofun nofun

theorem raceInv_addCall {s : OtpSys} (hs : RaceInv s) {call : VerifyCall}
    (hphase : call.phase = .begun) (hpending : call.pending = none) :
    RaceInv { s with verifies := s.verifies ++ [call] } := by
  have hidle : ∀ pk, call.holds pk = false := fun pk => by simp [VerifyCall.holds, hpending]
  have hmem : ∀ {other : VerifyCall}, other ∈ s.verifies ++ [call] →
      other ∈ s.verifies ∨ other = call := by
    intro other hother
    rcases List.mem_append.mp hother with h | h
    · exact Or.inl h
    · exact Or.inr (List.mem_singleton.mp h)
  have hheld : ∀ {j pk : ℕ} {other : VerifyCall}, (s.verifies ++ [call])[j]? = some other →
      other.holds pk = true → s.verifies[j]? = some other := by
    intro j pk other hother hh
    rcases getElem?_concat_cases hother with hold | ⟨-, rfl⟩
    · exact hold
    · rw [hidle pk] at hh
      cases hh
  refine { hs with
      copies := ?copies, locks := ?locks, exclusive := ?exclusive, success := ?success,
      auto := ?auto }
  case copies =>
    intro other hother otp hotp
    rcases hmem hother with hold | rfl
    · exact hs.copies other hold otp hotp
    · rw [hphase] at hotp
      cases hotp
  case locks =>
    intro i j a b pk ha hb hholdsa hholdsb
    exact hs.locks i j a b pk (hheld ha hholdsa) (hheld hb hholdsb) hholdsa hholdsb
  case exclusive =>
    intro other hother issue hissue pk hh
    rcases hmem hother with hold | rfl
    · exact hs.exclusive other hold issue hissue pk hh
    · rw [hidle pk] at hh
      cases hh
  case success =>
    rintro other hother otp hsucc
    rcases hmem hother with hold | rfl
    · exact hs.success other hold otp hsucc
    · rw [VerifyCall.Succeeded, hphase] at hsucc
      cases hsucc.1
  case auto =>
    intro other hother
    rcases hmem hother with hold | rfl
    · exact hs.auto other hold
    · exact fun _ => hpending

theorem raceInv_addIssue {s : OtpSys} (hs : RaceInv s) {issue : IssueCall} {own : Option ℕ}
    (hphase : issue.phase = .sending own) (hseen : ∀ pk ∈ issue.seen, pk < s.nextPk)
    (hown : ∀ pk, own = some pk → pk ∉ issue.seen) :
    RaceInv { s with issues := s.issues ++ [issue] } := by
  have hmem : ∀ {other : IssueCall}, other ∈ s.issues ++ [issue] →
      other ∈ s.issues ∨ other = issue := by
    intro other hother
    rcases List.mem_append.mp hother with h | h
    · exact Or.inl h
    · exact Or.inr (List.mem_singleton.mp h)
  refine { hs with exclusive := ?exclusive, seen := ?seen, retiring := ?retiring }
  case exclusive =>
    intro call hcall other hother pk hh
    rcases hmem hother with hold | rfl
    · exact hs.exclusive call hcall other hold pk hh
    · simp [IssueCall.holds, hphase]
  case seen =>
    intro other hother
    rcases hmem hother with hold | rfl
    · exact hs.seen other hold
    · refine ⟨hseen, fun pk hpk => hown pk ?_⟩
      rw [hphase] at hpk
      exact IssuePhase.sending.inj hpk
  case retiring =>
    intro other hother retired hdelivered
    rcases hmem hother with hold | rfl
    · exact hs.retiring other hold retired hdelivered
    · rw [hphase] at hdelivered
      cases hdelivered

/-! ## Successes -/

/-- Nothing that was committed stands against a record that is stored unused. -/
theorem allows_verified {s : OtpSys} (hs : RaceInv s) {r : OTPCode} (hr : r ∈ s.otps.rows)
    (hunused : r.isUsed = false) : ∀ old ∈ s.events, old.Allows (.verified r.pk r.target) := by
  intro old hold
  have hnot : ¬ old.Retires r := by
    intro hretires
    rw [hs.spent old hold r hr hretires] at hunused
    cases hunused
  cases old with
  | verified pk target => exact fun heq => hnot heq.symm
  | delivered target seen => exact hnot

/-- A row that is marked, and the success logged. -/
theorem raceInv_logSuccess {s : OtpSys} (hs : RaceInv s) {r otp : OTPCode} {bumps : ℕ}
    (hfree : ∀ call ∈ s.verifies, call.holds otp.pk = false) (hr : r ∈ s.otps.rows)
    (hpk : r.pk = otp.pk) (htarget : r.target = otp.target) (hunused : r.isUsed = false) :
    RaceInv ((s.touch [otp.pk] bumps true).log (.verified otp.pk otp.target)) := by
  have htouch : RaceInv (s.touch [otp.pk] bumps true) :=
    raceInv_touch hs fun call hcall pk hin => by
      rw [List.mem_singleton.mp hin]
      exact hfree call hcall
  refine raceInv_log htouch ?_ ?_ ?_
  · intro r' hr' hretires
    obtain ⟨row, -, hrow, -, -, hmark⟩ := OtpTable.touch_back hr'
    have hsame : r'.pk = otp.pk := hretires
    exact hmark (by simp [← hrow, hsame]) rfl
  · show otp.pk < s.nextPk
    rw [← hpk]
    exact hs.fresh r hr
  · rw [← hpk, ← htarget]
    exact allows_verified hs hr hunused

/-- What a call sees unused is stored unused. -/
theorem unused_of_view {call : VerifyCall} {t : OtpTable} {pk : ℕ}
    (h : (call.view t).hasUnused pk = true) : ∃ r ∈ t.rows, r.pk = pk ∧ r.isUsed = false := by
  obtain ⟨r', hr', hpk', hunused'⟩ := OtpTable.hasUnused_iff.mp h
  unfold VerifyCall.view at hr'
  split at hr'
  · exact ⟨r', hr', hpk', hunused'⟩
  · obtain ⟨r, hr, hpk, -, hused, -⟩ := OtpTable.touch_back hr'
    refine ⟨r, hr, hpk ▸ hpk', ?_⟩
    by_contra hne
    rw [hused (Bool.eq_true_of_not_eq_false hne)] at hunused'
    cases hunused'

/-- A call moves on without a write. -/
theorem raceInv_setPhase {s : OtpSys} (hs : RaceInv s) {i : ℕ} {call : VerifyCall}
    {phase : VerifyPhase} (hcall : s.verifies[i]? = some call)
    (hcopy : ∀ otp ∈ phase.copy, call.phase.copy = some otp ∨ otp ∈ s.otps.rows)
    (hphase : ∀ otp, phase ≠ .verified otp) : RaceInv (s.setCall i { call with phase := phase }) := by
  have hmem := List.mem_of_getElem? hcall
  refine raceInv_setCall hs hcall ?_ (fun pk hh => Or.inl hh) ?_ (hs.auto call hmem)
  · intro otp hotp
    rcases hcopy otp hotp with hold | hrow
    · exact hs.copies call hmem otp hold
    · refine ⟨hs.fresh otp hrow, fun r hr hpk => ?_⟩
      rw [OtpTable.row_unique hr hrow hpk]
  · rintro otp ⟨hverified, -⟩
    exact absurd hverified (hphase otp)

/-- **Conditional updates.**  A success is the update of a right guess. -/
theorem raceInv_update {s : OtpSys} (hs : RaceInv s) {i : ℕ} {call : VerifyCall} {w : OtpPending}
    {done missed : VerifyPhase} (hcall : s.verifies[i]? = some call)
    (hdone : ∀ otp ∈ done.copy, call.phase.copy = some otp)
    (hright : ∀ otp, done = .verified otp → w = ⟨otp.pk, 0, true⟩)
    (hmissed : ∃ error, missed = .raised error) : RaceInv (s.update i call w done missed) := by
  have hmem := List.mem_of_getElem? hcall
  unfold OtpSys.update
  split
  · exact hs
  rename_i hlock
  have hfree := lockedFor_false (Bool.eq_false_of_not_eq_true hlock)
  split
  · rename_i hunused
    obtain ⟨r, hr, hpk, hrunused⟩ := unused_of_view hunused
    unfold OtpSys.write
    split
    · -- the write stays in the transaction of the call
      rename_i hatomic
      refine raceInv_setCall hs hcall ?_ ?_ ?_ ?_
      · exact fun otp hotp => hs.copies call hmem otp (hdone otp hotp)
      · intro pk hh
        right
        obtain rfl : w.pk = pk := by
          cases hpending : call.pending <;> simpa [VerifyCall.holds, hpending] using hh
        exact Bool.eq_false_of_not_eq_true hlock
      · rintro otp ⟨hverified, -⟩
        obtain rfl := hright otp hverified
        refine ⟨?_, r, hr, hpk, hrunused⟩
        cases hpending : call.pending with
        | none => exact ⟨0, rfl⟩
        | some old => exact ⟨old.bumps, by simp⟩
      · intro h
        rw [hatomic] at h
        cases h
    · -- the write is committed at once
      rename_i hauto
      have hnone := hs.auto call hmem (Bool.eq_false_of_not_eq_true hauto)
      have hmove : RaceInv (s.setCall i { call with phase := done }) := by
        refine raceInv_setCall hs hcall ?_ (fun pk hh => Or.inl hh) ?_ (fun _ => hnone)
        · exact fun otp hotp => hs.copies call hmem otp (hdone otp hotp)
        · rintro otp ⟨-, hatomic⟩
          exact absurd hatomic hauto
      have hunheld : ∀ other ∈ (s.setCall i { call with phase := done }).verifies,
          other.holds w.pk = false := by
        intro other hother
        obtain ⟨j, hj⟩ := List.getElem?_of_mem hother
        simp only [OtpSys.setCall, List.getElem?_set] at hj
        split_ifs at hj with hij hlt
        · cases hj
          simp [VerifyCall.holds, hnone]
        · by_contra hh
          exact hij (hfree.1 j other hj (Bool.eq_true_of_not_eq_false hh)).symm
      cases hverified : done with
      | verified otp =>
          obtain rfl := hright otp hverified
          have htarget := (hs.copies call hmem otp (hdone otp (by rw [hverified]; rfl))).2 r hr hpk
          rw [hverified] at hmove hunheld
          exact raceInv_logSuccess hmove hunheld hr hpk htarget hrunused
      | _ =>
          rw [hverified] at hmove hunheld
          refine raceInv_touch hmove fun other hother pk hin => ?_
          rw [List.mem_singleton.mp hin]
          exact hunheld other hother
  · obtain ⟨error, rfl⟩ := hmissed
    exact raceInv_setPhase hs hcall nofun nofun

theorem compare_copy (cfg : AuthConfig) (otp : OTPCode) (code : String) (now : ℕ) :
    (otp.compare cfg code now).copy = some otp ∧
      ∀ found, otp.compare cfg code now ≠ .verified found := by
  unfold OTPCode.compare
  split_ifs <;> exact ⟨rfl, nofun⟩

/-- The commit of a service: the lock is given up, the row is written, the success logged. -/
theorem raceInv_commit {s : OtpSys} (hs : RaceInv s) {i : ℕ} {call : VerifyCall}
    (hcall : s.verifies[i]? = some call) : RaceInv (s.commit i call) := by
  have hmem := List.mem_of_getElem? hcall
  unfold OtpSys.commit
  split
  · exact raceInv_setPhase hs hcall nofun nofun
  · rename_i pending hpending
    have hatomic : call.atomic = true := by
      by_contra hauto
      rw [hs.auto call hmem (Bool.eq_false_of_not_eq_true hauto)] at hpending
      cases hpending
    have hend : RaceInv (s.setCall i { call with phase := .ended, pending := none }) :=
      raceInv_setCall hs hcall nofun nofun nofun fun _ => rfl
    have hunheld : ∀ other ∈ (s.setCall i { call with phase := .ended, pending := none }).verifies,
        other.holds pending.pk = false := by
      intro other hother
      obtain ⟨j, hj⟩ := List.getElem?_of_mem hother
      simp only [OtpSys.setCall, List.getElem?_set] at hj
      split_ifs at hj with hij hlt
      · cases hj
        rfl
      · by_contra hh
        exact hij (hs.locks i j call other pending.pk hcall hj (by simp [VerifyCall.holds, hpending])
          (Bool.eq_true_of_not_eq_false hh))
    cases hphase : call.phase with
    | verified otp =>
        obtain ⟨⟨bumps, hown⟩, r, hr, hpk, hunused⟩ := hs.success call hmem otp ⟨hphase, hatomic⟩
        obtain rfl : pending = ⟨otp.pk, bumps, true⟩ := Option.some.inj (hpending.symm.trans hown)
        have htarget := (hs.copies call hmem otp (by rw [hphase]; rfl)).2 r hr hpk
        exact raceInv_logSuccess hend hunheld hr hpk htarget hunused
    | _ =>
        refine raceInv_touch hend fun other hother pk hin => ?_
        rw [List.mem_singleton.mp hin]
        exact hunheld other hother

/-- A delivery: the records it passed over are used already. -/
theorem raceInv_logDelivery {s : OtpSys} (hs : RaceInv s) (issue : IssueCall) {retired : List ℕ}
    (hmem : issue ∈ s.issues)
    (hfree : ∀ call ∈ s.verifies, ∀ pk ∈ retired, call.holds pk = false)
    (hretired : ∀ r ∈ s.otps.rows, r.target = issue.row.target → r.pk ∈ issue.seen →
      r.isUsed = true ∨ r.pk ∈ retired) :
    RaceInv ((s.touch retired 0 true).log (.delivered issue.row.target issue.seen)) := by
  refine raceInv_log (raceInv_touch hs hfree) ?_ (hs.seen issue hmem).1 ?_
  · rintro r' hr' ⟨htarget', hseen⟩
    obtain ⟨r, hr, hpk, htarget, hused, hmark⟩ := OtpTable.touch_back hr'
    rw [hpk] at hseen
    rcases hretired r hr (htarget ▸ htarget') hseen with h | h
    · exact hused h
    · exact hmark h rfl
  · exact fun old _ => allows_delivered old _ _

theorem raceInv_deliver {s : OtpSys} (hs : RaceInv s) {j : ℕ} {issue : IssueCall} {own : Option ℕ}
    (hissue : s.issues[j]? = some issue) (hphase : issue.phase = .sending own) :
    RaceInv (s.deliver j issue own) := by
  have hmem := List.mem_of_getElem? hissue
  have hretired : ∀ r ∈ s.otps.rows, r.target = issue.row.target → r.pk ∈ issue.seen →
      r.isUsed = true ∨ r.pk ∈ s.otps.unusedFor issue.row.target own := by
    intro r hr htarget hseen
    refine OtpTable.mem_unusedFor hr htarget fun heq => ?_
    exact (hs.seen issue hmem).2 r.pk (by rw [hphase, heq]) hseen
  unfold OtpSys.deliver
  dsimp only
  split
  · exact hs
  · rename_i hunlocked
    have hfree : ∀ pk ∈ s.otps.unusedFor issue.row.target own, s.locked pk = false := by
      intro pk hpk
      by_contra hlocked
      exact hunlocked (List.any_eq_true.mpr ⟨pk, hpk, Bool.eq_true_of_not_eq_false hlocked⟩)
    split
    · refine raceInv_setIssue hs hissue (fun pk hh => ?_) nofun ?_
      · exact hfree pk (by simpa [IssueCall.holds] using hh)
      · rintro retired ⟨⟩
        exact hretired
    · have hend := raceInv_endIssue hs hissue
      refine raceInv_logDelivery hend { issue with phase := .ended } ?_ ?_ hretired
      · have hj : j < s.issues.length := (List.getElem?_eq_some_iff.mp hissue).1
        exact List.mem_of_getElem? (List.getElem?_set_self hj)
      · exact fun call hcall pk hpk => (locked_false (hfree pk hpk)).1 call hcall

/-! ## Runs -/

theorem le_foldr_max {n : ℕ} {ns : List ℕ} (h : n ∈ ns) : n ≤ ns.foldr max 0 := by
  induction ns with
  | nil => cases h
  | cons m ns ih =>
      rcases List.mem_cons.mp h with rfl | h
      · exact le_max_left _ _
      · exact (ih h).trans (le_max_right _ _)

theorem raceInv_start (t : OtpTable) : RaceInv (OtpSys.start t) where
  fresh r hr := Nat.lt_succ_of_le (le_foldr_max (List.mem_map_of_mem hr))
  copies _ h := absurd h List.not_mem_nil
  locks i j a b pk h := by simp [OtpSys.start] at h
  exclusive _ h := absurd h List.not_mem_nil
  success _ h := absurd h List.not_mem_nil
  spent _ h := absurd h List.not_mem_nil
  past _ h := absurd h List.not_mem_nil
  seen _ h := absurd h List.not_mem_nil
  retiring _ h := absurd h List.not_mem_nil
  auto _ h := absurd h List.not_mem_nil
  lawful := List.Pairwise.nil

/-- **Step lemma.** -/
theorem raceInv_effect {cfg : AuthConfig} {s t : OtpSys} {act : OtpAct} (hs : RaceInv s)
    (h : OtpEffect cfg s act t) : RaceInv t := by
  have hseen : ∀ pk ∈ s.otps.rows.map OTPCode.pk, pk < s.nextPk := by
    intro pk hpk
    obtain ⟨r, hr, rfl⟩ := List.mem_map.mp hpk
    exact hs.fresh r hr
  cases h with
  | idle => exact hs
  | called => exact raceInv_addCall hs rfl rfl
  | refused hcall => exact raceInv_setPhase hs hcall nofun nofun
  | read hcall hotp =>
      refine raceInv_setPhase hs hcall (fun found hfound => ?_) nofun
      cases hfound
      exact Or.inr hotp
  | @compared i now call otp hcall hphase =>
      obtain ⟨hcopy, hnot⟩ := compare_copy cfg otp call.code now
      refine raceInv_setPhase hs hcall (fun found hfound => Or.inl ?_) hnot
      rw [hcopy] at hfound
      rw [hphase]
      exact hfound
  | marked hcall => exact raceInv_update hs hcall nofun nofun ⟨_, rfl⟩
  | counted hcall hphase hdone =>
      rcases hdone with rfl | ⟨error, rfl⟩
      · refine raceInv_update hs hcall (fun found hfound => ?_) nofun ⟨_, rfl⟩
        rw [hphase]
        exact hfound
      · exact raceInv_update hs hcall nofun nofun ⟨_, rfl⟩
  | accepted hcall hphase =>
      refine raceInv_update hs hcall (fun found hfound => ?_) ?_ ⟨_, rfl⟩
      · rw [hphase]
        exact hfound
      · rintro found ⟨⟩
        rfl
  | committed hcall => exact raceInv_commit hs hcall
  | rolledBack hcall => exact raceInv_setCall hs hcall nofun nofun nofun fun _ => rfl
  | announced => exact raceInv_addIssue hs rfl hseen nofun
  | inserted =>
      refine raceInv_addIssue (raceInv_insert hs _) rfl (fun pk hpk => ?_) ?_
      · exact Nat.lt_succ_of_lt (hseen pk hpk)
      · rintro pk ⟨⟩ hin
        exact absurd (hseen _ hin) (Nat.lt_irrefl _)
  | delivered hissue hphase => exact raceInv_deliver hs hissue hphase
  | @issued j issue retired hissue hphase =>
      have hmem := List.mem_of_getElem? hissue
      have hj : j < s.issues.length := (List.getElem?_eq_some_iff.mp hissue).1
      refine raceInv_insert (raceInv_logDelivery (raceInv_endIssue hs hissue)
        { issue with phase := .ended } (List.mem_of_getElem? (List.getElem?_set_self hj)) ?_
        (hs.retiring issue hmem retired hphase)) _
      -- the transaction has held the locks of the records it passed over
      intro call hcall pk hpk
      by_contra hh
      have hheld := hs.exclusive call hcall issue hmem pk (Bool.eq_true_of_not_eq_false hh)
      simp [IssueCall.holds, hphase, hpk] at hheld
  | withdrawn hissue hfree =>
      exact raceInv_delete (raceInv_endIssue hs hissue) (locked_false hfree).1
  | abandoned hissue => exact raceInv_endIssue hs hissue

theorem raceInv_step (cfg : AuthConfig) (s : OtpSys) (act : OtpAct) (hs : RaceInv s) :
    RaceInv (s.step cfg act) :=
  raceInv_effect hs (otpEffect_step act)

/-- **Single use of one-time codes.**  In every run, no record is accepted twice, and none
after the delivery of a newer code for the same identifier and purpose was committed. -/
theorem otp_single_use (cfg : AuthConfig) (t : OtpTable) (acts : List OtpAct) :
    (run (OtpSys.step cfg) (OtpSys.start t) acts).events.Pairwise OtpEvent.Allows :=
  (invariant_run (raceInv_step cfg) (raceInv_start t) acts).lawful

/-- The hash is the code itself, and five attempts are allowed. -/
def plainConfig : AuthConfig where
  secretKey := ""
  maxAttempts := 5
  hmac _ code := code
  normalizeEmail := some
  normalizePhone := some
  upper := id
  makePassword := id

/-- A record with one attempt left. -/
def lastChance : OtpTable where
  rows := [⟨0, .email, "user@example.com", .login, "123456", "", 1, 100, 4, false⟩]
  pk_nodup := by simp

def guess (code : String) : OtpAct := .verify .email "user@example.com" .login code false

/-- Two submits of the right code, both read before either is marked. -/
example : (run (OtpSys.step plainConfig) (OtpSys.start lastChance)
    [guess "123456", guess "123456", .advance 0 2, .advance 1 2, .advance 0 2, .advance 1 2,
      .advance 1 2, .advance 0 2]).events =
    [.verified 0 (.email, "user@example.com", .login)] := by decide +kernel

end SetadJang.Authentication
