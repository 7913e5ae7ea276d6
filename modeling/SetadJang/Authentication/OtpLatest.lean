import SetadJang.Authentication.OtpCooldown

/-!
# The code that was sent last

What keeps the code of a delivery usable: the record of the last code sent for a target stays
unused until `verify_otp` marks it, and when no call on the target is in flight it is the only
unused one, so it is the one that `verify_otp` reads.
-/

namespace SetadJang.Authentication

open SetadJang.Framework

/-- The last code sent for a target. -/
def IssueStore.lastSent (s : IssueStore) (target : OtpTarget) : Option SentCode :=
  (s.sentTo target).getLast?

theorem lastSent_mem {s : IssueStore} {target : OtpTarget} {e : SentCode}
    (h : s.lastSent target = some e) : e ∈ s.sent ∧ e.target = target := by
  obtain ⟨hmem, htarget⟩ := List.mem_filter.mp (List.mem_of_getLast? h)
  exact ⟨hmem, of_decide_eq_true htarget⟩

theorem lastSent_append_self {s : IssueStore} {e : SentCode} :
    ({ s with sent := s.sent ++ [e] } : IssueStore).lastSent e.target = some e := by
  simp [IssueStore.lastSent, IssueStore.sentTo]

theorem lastSent_append_other {s : IssueStore} {e : SentCode} {target : OtpTarget}
    (h : target ≠ e.target) :
    ({ s with sent := s.sent ++ [e] } : IssueStore).lastSent target = s.lastSent target := by
  simp [IssueStore.lastSent, IssueStore.sentTo, Ne.symm h]

/-- The record is there and unused, or `verify_otp` has marked it. -/
def Standing (s : IssueStore) (pk : ℕ) (target : OtpTarget) : Prop :=
  pk ∈ s.consumed ∨ ∃ row ∈ s.otps.unused target, row.pk = pk

/-! ## What leaves a record standing -/

section Standing

variable {s : IssueStore} {pk : ℕ} {target : OtpTarget} (h : Standing s pk target)

include h

theorem Standing.persisted (otp : OTPCode) : Standing (s.persistNewOtp otp) pk target := by
  rcases h with hmark | ⟨row, hrow, hpk⟩
  · exact .inl hmark
  · obtain ⟨hmem, htarget, hunused⟩ := OtpTable.mem_unused.mp hrow
    exact .inr ⟨row, OtpTable.mem_unused.mpr ⟨OtpTable.mem_insert_of_mem hmem, htarget, hunused⟩,
      hpk⟩

/-- A delivery for another target, or the delivery of the record itself. -/
theorem Standing.committed {otp : OTPCode} (hsafe : target ≠ otp.target ∨ pk = otp.pk) :
    Standing (s.commitOtpDelivery otp) pk target := by
  rcases h with hmark | ⟨row, hrow, rfl⟩
  · exact .inl hmark
  · obtain ⟨hmem, htarget, hunused⟩ := OtpTable.mem_unused.mp hrow
    refine .inr ⟨row, OtpTable.mem_unused.mpr ⟨OtpTable.touch_other hmem ?_, htarget, hunused⟩, rfl⟩
    intro hin
    obtain ⟨other, hother, hpk⟩ := List.mem_map.mp hin
    simp only [List.mem_filter, Bool.and_eq_true, decide_eq_true_eq] at hother
    obtain ⟨hotherMem, ⟨hotherTarget, -⟩, hotherPk⟩ := hother
    rcases hsafe with hne | heq
    · obtain rfl := List.inj_on_of_nodup_map s.otps.pk_nodup hotherMem hmem hpk
      exact hne (htarget.symm.trans hotherTarget)
    · exact hotherPk (by rw [hpk, heq])

theorem Standing.discarded {otp : OTPCode} (hne : pk ≠ otp.pk) :
    Standing (s.discardUndeliveredOtp otp) pk target := by
  rcases h with hmark | ⟨row, hrow, hpk⟩
  · exact .inl hmark
  · obtain ⟨hmem, htarget, hunused⟩ := OtpTable.mem_unused.mp hrow
    have hkept := OtpTable.mem_delete.mpr ⟨hmem, hpk ▸ hne⟩
    exact .inr ⟨row, OtpTable.mem_unused.mpr ⟨hkept, htarget, hunused⟩, hpk⟩

theorem Standing.consumed (mark : ℕ) :
    Standing { s with otps := s.otps.markUsed mark, consumed := s.consumed ++ [mark] } pk target := by
  rcases h with hmark | ⟨row, hrow, rfl⟩
  · exact .inl (List.mem_append_left _ hmark)
  · obtain ⟨hmem, htarget, hunused⟩ := OtpTable.mem_unused.mp hrow
    by_cases hmarked : row.pk = mark
    · subst hmarked
      exact .inl (List.mem_append_right _ (List.mem_singleton.mpr rfl))
    · have hkept : row ∈ (s.otps.markUsed mark).rows :=
        OtpTable.mem_markUsed_iff.mpr ⟨row, hmem, by simp [hmarked]⟩
      exact .inr ⟨row, OtpTable.mem_unused.mpr ⟨hkept, htarget, hunused⟩, rfl⟩

theorem Standing.bumped (count : ℕ) :
    Standing { s with otps := s.otps.bumpAttempts count } pk target := by
  rcases h with hmark | ⟨row, hrow, hpk⟩
  · exact .inl hmark
  · obtain ⟨hmem, htarget, hunused⟩ := OtpTable.mem_unused.mp hrow
    refine .inr ⟨_, OtpTable.mem_unused.mpr
      ⟨OtpTable.mem_bumpAttempts.mpr ⟨row, hmem, rfl⟩, ?_, ?_⟩, ?_⟩
    all_goals split_ifs <;> assumption

end Standing

/-! ## The invariant -/

structure CodeInv (s : IssueSys) : Prop where
  sentPk : ∀ e ∈ s.store.sent, e.pk < s.store.nextPk
  /-- Until its code is sent a call's record is not one that was sent. -/
  unsent : ∀ call ∈ s.calls, ∀ otp ∈ call.phase.record, call.phase.handed = false →
    ∀ e ∈ s.store.sent, e.target = call.target → e.pk ≠ otp.pk
  spent : ∀ pk ∈ s.store.consumed, pk < s.store.nextPk ∧
    ∀ row ∈ s.store.otps.rows, row.pk = pk → row.isUsed = true
  standing : ∀ call ∈ s.calls, ∀ otp ∈ call.phase.record, Standing s.store otp.pk call.target
  latest : ∀ call ∈ s.calls, ∀ otp ∈ call.phase.record, call.phase.handed = true →
    ∃ e, s.store.lastSent call.target = some e ∧ e.pk = otp.pk
  kept : ∀ target e, s.store.lastSent target = some e → Standing s.store e.pk target
  only : ∀ target e, s.store.lastSent target = some e → ∀ row ∈ s.store.otps.unused target,
    Owned s row.pk ∨ row.pk = e.pk ∨
      ∃ call ∈ s.calls, call.target = target ∧ call.phase.handed = true

section

variable {issuer : OtpIssuer} {s : IssueSys}

/-- Two calls on one target do not both have a record. -/
theorem SlotInv.same (hs : SlotInv issuer s) {i j : ℕ} {call other : IssuingCall}
    (hcall : s.calls[i]? = some call) (hother : s.calls[j]? = some other)
    (htarget : other.target = call.target) {otp otp' : OTPCode} (hotp : otp ∈ call.phase.record)
    (hotp' : otp' ∈ other.phase.record) : i = j := by
  have hreserved : ∀ {phase : IssuingPhase} {otp : OTPCode}, otp ∈ phase.record →
      ∃ r, phase.reservedAt = some r := by
    intro phase otp h
    cases phase <;> first | exact ⟨_, rfl⟩ | cases h
  obtain ⟨r, hr⟩ := hreserved hotp
  obtain ⟨r', hr'⟩ := hreserved hotp'
  exact (hs.slots (issuer.cooldownKey call.target)).unique i j _ _ ⟨call, hcall, rfl, r, hr, rfl⟩
    ⟨other, hother, by rw [htarget], r', hr', rfl⟩

theorem handed_of_record_none {phase : IssuingPhase} (h : phase.record = none) :
    phase.handed = false := by
  cases phase <;> first | rfl | cases h

/-- A call that has handed its code over stays where another moves. -/
theorem handed_set {i : ℕ} {call : IssuingCall} {phase : IssuingPhase} {target : OtpTarget}
    (hcall : s.calls[i]? = some call) (hquiet : call.target = target → call.phase.handed = false)
    (h : ∃ other ∈ s.calls, other.target = target ∧ other.phase.handed = true) :
    ∃ other ∈ s.calls.set i { call with phase := phase },
      other.target = target ∧ other.phase.handed = true := by
  obtain ⟨other, hother, htarget, hhanded⟩ := h
  obtain ⟨j, hj⟩ := List.getElem?_of_mem hother
  by_cases hij : i = j
  · subst hij
    obtain rfl := Option.some.inj (hcall.symm.trans hj)
    rw [hquiet htarget] at hhanded
    cases hhanded
  · refine ⟨other, List.mem_of_getElem? (i := j) ?_, htarget, hhanded⟩
    rw [← hj]
    exact List.getElem?_set_ne hij

/-! ## One step -/

/-- A call moves with the record it has, or without one, and the database stays. -/
theorem CodeInv.moved (hs : CodeInv s) (store : IssueStore) (hotps : store.otps = s.store.otps)
    (hpk : store.nextPk = s.store.nextPk) (hsent : store.sent = s.store.sent)
    (hconsumed : store.consumed = s.store.consumed) {i : ℕ} {call : IssuingCall}
    {phase : IssuingPhase} (hcall : s.calls[i]? = some call)
    (hrecord : phase.record = call.phase.record) (hbefore : call.phase.handed = false)
    (hafter : phase.handed = false) :
    CodeInv ⟨store, s.calls.set i { call with phase := phase }⟩ := by
  have hmem : call ∈ s.calls := List.mem_of_getElem? hcall
  have hlast : ∀ target, store.lastSent target = s.store.lastSent target := fun target => by
    rw [IssueStore.lastSent, IssueStore.sentTo, hsent]
    rfl
  have hstanding : ∀ {pk : ℕ} {target : OtpTarget}, Standing s.store pk target →
      Standing store pk target := by
    intro pk target h
    rwa [Standing, hotps, hconsumed]
  refine ⟨?_, ?_, ?_, ?_, ?_, ?_, ?_⟩
  · intro e he
    change e.pk < store.nextPk
    rw [hpk]
    exact hs.sentPk e (hsent ▸ he)
  · intro other hother otp hotp hquiet e he
    rcases List.mem_or_eq_of_mem_set hother with hold | rfl
    · exact hs.unsent other hold otp hotp hquiet e (hsent ▸ he)
    · exact hs.unsent call hmem otp (hrecord ▸ hotp) hbefore e (hsent ▸ he)
  · intro pk hmark
    change pk ∈ store.consumed at hmark
    rw [hconsumed] at hmark
    change pk < store.nextPk ∧ ∀ row ∈ store.otps.rows, _
    rw [hpk, hotps]
    exact hs.spent pk hmark
  · intro other hother otp hotp
    rcases List.mem_or_eq_of_mem_set hother with hold | rfl
    · exact hstanding (hs.standing other hold otp hotp)
    · exact hstanding (hs.standing call hmem otp (hrecord ▸ hotp))
  · intro other hother otp hotp hhanded
    rcases List.mem_or_eq_of_mem_set hother with hold | rfl
    · obtain ⟨e, he, hepk⟩ := hs.latest other hold otp hotp hhanded
      exact ⟨e, (hlast _).trans he, hepk⟩
    · rw [hafter] at hhanded
      cases hhanded
  · intro target e he
    exact hstanding (hs.kept target e ((hlast target).symm.trans he))
  · intro target e he row hrow
    change row ∈ store.otps.unused target at hrow
    rw [hotps] at hrow
    refine (hs.only target e ((hlast target).symm.trans he) row hrow).imp ?_ (.imp id ?_)
    · exact owned_keep hcall fun otp hotp => hrecord ▸ hotp
    · exact handed_set hcall fun _ => hbefore

/-- Rows are only marked, and the records stay. -/
theorem CodeInv.table (hs : CodeInv s) {store : IssueStore} (hpk : store.nextPk = s.store.nextPk)
    (hsent : store.sent = s.store.sent) (hrows : s.store.otps.Descends store.otps)
    (hspent : ∀ pk ∈ store.consumed, pk < store.nextPk ∧
      ∀ row ∈ store.otps.rows, row.pk = pk → row.isUsed = true)
    (hstanding : ∀ {pk : ℕ} {target : OtpTarget}, Standing s.store pk target →
      Standing store pk target) : CodeInv { s with store := store } := by
  have hlast : ∀ target, store.lastSent target = s.store.lastSent target := fun target => by
    rw [IssueStore.lastSent, IssueStore.sentTo, hsent]
    rfl
  refine ⟨?_, ?_, hspent, fun call hcall otp hotp => hstanding (hs.standing call hcall otp hotp),
    ?_, fun target e he => hstanding (hs.kept target e ((hlast target).symm.trans he)), ?_⟩
  · intro e he
    change e.pk < store.nextPk
    rw [hpk]
    exact hs.sentPk e (hsent ▸ he)
  · exact fun call hcall otp hotp hquiet e he => hs.unsent call hcall otp hotp hquiet e (hsent ▸ he)
  · intro call hcall otp hotp hhanded
    obtain ⟨e, he, hepk⟩ := hs.latest call hcall otp hotp hhanded
    exact ⟨e, (hlast _).trans he, hepk⟩
  · intro target e he row hrow
    obtain ⟨old, hold, hrowPk⟩ := hrows.unused hrow
    rw [hrowPk]
    exact hs.only target e ((hlast target).symm.trans he) old hold

theorem CodeInv.persisted (hs : CodeInv s) (hinv : IssueInv s) {i r expiresAt : ℕ}
    {call : IssuingCall} {codeHash codeSalt : String} (hcall : s.calls[i]? = some call)
    (hphase : call.phase = .persisting r codeHash codeSalt expiresAt) :
    let otp := OtpIssuer.newRecord call.target s.store codeHash codeSalt expiresAt
    CodeInv ⟨s.store.persistNewOtp otp, s.calls.set i { call with phase := .sending r otp }⟩ := by
  intro otp
  have hnew : otp ∈ (s.store.persistNewOtp otp).otps.rows := by
    refine mem_insert_new fun hin => ?_
    obtain ⟨row, hrow, hpk⟩ := List.mem_map.mp hin
    exact absurd hpk (hinv.fresh row hrow).ne
  refine ⟨fun e he => Nat.lt_succ_of_lt (hs.sentPk e he), ?_, ?_, ?_, ?_,
    fun target e he => (hs.kept target e he).persisted otp, ?_⟩
  · intro other hother otp' hotp' hquiet e he htarget
    rcases List.mem_or_eq_of_mem_set hother with hold | rfl
    · exact hs.unsent other hold otp' hotp' hquiet e he htarget
    · cases hotp'
      exact (hs.sentPk e he).ne
  · intro pk hmark
    obtain ⟨hlt, hused⟩ := hs.spent pk hmark
    refine ⟨Nat.lt_succ_of_lt hlt, fun row hrow hpk => ?_⟩
    rcases OtpTable.mem_insert hrow with rfl | hold
    · exact absurd hpk.symm hlt.ne
    · exact hused row hold hpk
  · intro other hother otp' hotp'
    rcases List.mem_or_eq_of_mem_set hother with hold | rfl
    · exact (hs.standing other hold otp' hotp').persisted otp
    · cases hotp'
      exact .inr ⟨otp, OtpTable.mem_unused.mpr ⟨hnew, rfl, rfl⟩, rfl⟩
  · intro other hother otp' hotp' hhanded
    rcases List.mem_or_eq_of_mem_set hother with hold | rfl
    · exact hs.latest other hold otp' hotp' hhanded
    · cases hhanded
  · intro target e he row hrow
    obtain ⟨hmem, hrowTarget, hunused⟩ := OtpTable.mem_unused.mp hrow
    have hi : i < s.calls.length := (List.getElem?_eq_some_iff.mp hcall).1
    rcases OtpTable.mem_insert hmem with rfl | hold
    · exact .inl ⟨i, _, List.getElem?_set_self hi, otp, rfl, rfl⟩
    · refine (hs.only target e he row (OtpTable.mem_unused.mpr ⟨hold, hrowTarget, hunused⟩)).imp ?_
        (.imp id ?_)
      · exact owned_keep hcall (by simp [hphase, IssuingPhase.record])
      · exact handed_set hcall fun _ => by rw [hphase]; rfl

theorem CodeInv.sent (hs : CodeInv s) (hinv : IssueInv s) (hslot : SlotInv issuer s) {i r : ℕ}
    {call : IssuingCall} {otp : OTPCode} (hcall : s.calls[i]? = some call)
    (hphase : call.phase = .sending r otp) :
    CodeInv ⟨{ s.store with sent := s.store.sent ++ [⟨call.target, otp.pk, r⟩] },
      s.calls.set i { call with phase := .delivered r otp }⟩ := by
  have hmem : call ∈ s.calls := List.mem_of_getElem? hcall
  have hrecord : otp ∈ call.phase.record := by rw [hphase]; exact rfl
  have hi : i < s.calls.length := (List.getElem?_eq_some_iff.mp hcall).1
  -- the call is the only one on its target that has a record
  have halone : ∀ (j : ℕ) (other : IssuingCall), s.calls[j]? = some other →
      other.target = call.target → ∀ otp' ∈ other.phase.record, i = j :=
    fun j other hother htarget otp' hotp' => hslot.same hcall hother htarget hrecord hotp'
  have hself : ({ s.store with sent := s.store.sent ++ [⟨call.target, otp.pk, r⟩] } :
      IssueStore).lastSent call.target = some ⟨call.target, otp.pk, r⟩ :=
    lastSent_append_self (e := ⟨call.target, otp.pk, r⟩)
  have hother : ∀ {target : OtpTarget}, target ≠ call.target →
      ({ s.store with sent := s.store.sent ++ [⟨call.target, otp.pk, r⟩] } :
        IssueStore).lastSent target = s.store.lastSent target :=
    fun h => lastSent_append_other (e := ⟨call.target, otp.pk, r⟩) h
  refine ⟨?_, ?_, hs.spent, ?_, ?_, ?_, ?_⟩
  · intro e he
    rcases List.mem_append.mp he with hold | hnew
    · exact hs.sentPk e hold
    · rw [List.mem_singleton.mp hnew]
      exact (hinv.owned i call hcall otp hrecord).2.1
  · intro other hmemOther otp' hotp' hquiet e he htarget
    obtain ⟨j, hj⟩ := List.getElem?_of_mem hmemOther
    rcases getElem?_set_cases hj with ⟨-, rfl⟩ | ⟨hne, hold⟩
    · cases hquiet
    · rcases List.mem_append.mp he with he | he
      · exact hs.unsent other (List.mem_of_getElem? hold) otp' hotp' hquiet e he htarget
      · rw [List.mem_singleton.mp he] at htarget
        exact absurd (halone j other hold htarget.symm otp' hotp') hne
  · intro other hmemOther otp' hotp'
    rcases List.mem_or_eq_of_mem_set hmemOther with hold | rfl
    · exact hs.standing other hold otp' hotp'
    · cases hotp'
      exact hs.standing call hmem otp hrecord
  · intro other hmemOther otp' hotp' hhanded
    obtain ⟨j, hj⟩ := List.getElem?_of_mem hmemOther
    rcases getElem?_set_cases hj with ⟨-, rfl⟩ | ⟨hne, hold⟩
    · cases hotp'
      exact ⟨_, hself, rfl⟩
    · have htarget : other.target ≠ call.target := fun h => hne (halone j other hold h otp' hotp')
      obtain ⟨e, he, hepk⟩ := hs.latest other (List.mem_of_getElem? hold) otp' hotp' hhanded
      exact ⟨e, (hother htarget).trans he, hepk⟩
  · intro target e he
    by_cases htarget : target = call.target
    · subst htarget
      obtain rfl := Option.some.inj (hself.symm.trans he)
      exact hs.standing call hmem otp hrecord
    · exact hs.kept target e ((hother htarget).symm.trans he)
  · intro target e he row hrow
    by_cases htarget : target = call.target
    · subst htarget
      exact .inr (.inr ⟨_, List.mem_set hi _, rfl, rfl⟩)
    · refine (hs.only target e ((hother htarget).symm.trans he) row hrow).imp ?_ (.imp id ?_)
      · exact owned_keep hcall (by simp [hphase, IssuingPhase.record])
      · exact handed_set hcall fun _ => by rw [hphase]; rfl

/-- The call that commits has the last code of its target, and is alone there. -/
theorem CodeInv.committed (hs : CodeInv s) (hinv : IssueInv s) (hslot : SlotInv issuer s)
    {i r : ℕ} {call : IssuingCall} {otp : OTPCode} (hcall : s.calls[i]? = some call)
    (hphase : call.phase = .delivered r otp) :
    CodeInv ⟨s.store.commitOtpDelivery otp, s.calls.set i { call with phase := .issued otp }⟩ := by
  have hmem : call ∈ s.calls := List.mem_of_getElem? hcall
  have hrecord : otp ∈ call.phase.record := by rw [hphase]; exact rfl
  obtain ⟨htarget, -, hof⟩ := hinv.owned i call hcall otp hrecord
  obtain ⟨last, hlast, hlastPk⟩ := hs.latest call hmem otp hrecord (by rw [hphase]; rfl)
  have hdesc : s.store.otps.Descends (s.store.commitOtpDelivery otp).otps :=
    OtpTable.descends_touch _ _ _ _
  refine ⟨hs.sentPk, ?_, ?_, ?_, ?_, ?_, ?_⟩
  · intro other hother otp' hotp' hquiet e he
    rcases List.mem_or_eq_of_mem_set hother with hold | rfl
    · exact hs.unsent other hold otp' hotp' hquiet e he
    · cases hotp'
  · intro pk hmark
    obtain ⟨hlt, hused⟩ := hs.spent pk hmark
    refine ⟨hlt, fun row' hrow' hpk => ?_⟩
    obtain ⟨row, hrow, hsame, -, hmono⟩ := hdesc row' hrow'
    exact hmono (hused row hrow (hsame.symm.trans hpk))
  · intro other hother otp' hotp'
    obtain ⟨j, hj⟩ := List.getElem?_of_mem hother
    rcases getElem?_set_cases hj with ⟨-, rfl⟩ | ⟨hne, hold⟩
    · cases hotp'
    · refine (hs.standing other (List.mem_of_getElem? hold) otp' hotp').committed (.inl fun h => ?_)
      exact hne (hslot.same hcall hold (h.trans htarget) hrecord hotp')
  · intro other hother otp' hotp' hhanded
    rcases List.mem_or_eq_of_mem_set hother with hold | rfl
    · exact hs.latest other hold otp' hotp' hhanded
    · cases hhanded
  · intro target e he
    refine (hs.kept target e he).committed ?_
    by_cases hsame : target = call.target
    · subst hsame
      obtain rfl := Option.some.inj (hlast.symm.trans he)
      exact .inr hlastPk
    · exact .inl fun h => hsame (h.trans htarget)
  · intro target e he row' hrow'
    obtain ⟨hmem', hrowTarget, hunused⟩ := OtpTable.mem_unused.mp hrow'
    by_cases hsame : target = call.target
    · subst hsame
      obtain rfl := Option.some.inj (hlast.symm.trans he)
      right; left
      rw [hlastPk]
      exact OtpTable.unused_commit hmem' (hrowTarget.trans htarget.symm) hunused
    · obtain ⟨row, hrow, hpk⟩ := hdesc.unused hrow'
      rw [hpk]
      refine (hs.only target e he row hrow).imp ?_ (.imp id ?_)
      · intro howned
        refine (owned_set _ _ hcall howned).resolve_left ?_
        rintro ⟨otp', hotp', hpk'⟩
        obtain rfl : otp = otp' := Option.some.inj (hrecord.symm.trans hotp')
        obtain ⟨hold, holdTarget, -⟩ := OtpTable.mem_unused.mp hrow
        exact hsame (holdTarget.symm.trans ((hof row hold hpk'.symm).trans htarget))
      · exact handed_set hcall fun h => absurd h.symm hsame

theorem CodeInv.discarded (hs : CodeInv s) (hinv : IssueInv s) (hslot : SlotInv issuer s)
    {i r : ℕ} {call : IssuingCall} {otp : OTPCode} {failure : SendFailure}
    (hcall : s.calls[i]? = some call) (hphase : call.phase = .discarding r otp failure) :
    CodeInv ⟨s.store.discardUndeliveredOtp otp,
      s.calls.set i { call with phase := .failing r failure }⟩ := by
  have hmem : call ∈ s.calls := List.mem_of_getElem? hcall
  have hrecord : otp ∈ call.phase.record := by rw [hphase]; exact rfl
  have hquiet : call.phase.handed = false := by rw [hphase]; rfl
  obtain ⟨htarget, -, hof⟩ := hinv.owned i call hcall otp hrecord
  -- a record that stands for another target is another record
  have hsafe : ∀ {pk : ℕ} {target : OtpTarget}, Standing s.store pk target →
      (target = call.target → pk ≠ otp.pk) → Standing (s.store.discardUndeliveredOtp otp) pk target := by
    intro pk target hstanding hne
    by_cases hsame : target = call.target
    · exact hstanding.discarded (hne hsame)
    · rcases hstanding with hmark | ⟨row, hrow, rfl⟩
      · exact .inl hmark
      · obtain ⟨hold, hrowTarget, -⟩ := OtpTable.mem_unused.mp hrow
        refine Standing.discarded (.inr ⟨row, hrow, rfl⟩) fun hpk => hsame ?_
        exact hrowTarget.symm.trans ((hof row hold hpk).trans htarget)
  refine ⟨hs.sentPk, ?_, ?_, ?_, ?_, ?_, ?_⟩
  · intro other hother otp' hotp' hq e he
    rcases List.mem_or_eq_of_mem_set hother with hold | rfl
    · exact hs.unsent other hold otp' hotp' hq e he
    · cases hotp'
  · intro pk hmark
    obtain ⟨hlt, hused⟩ := hs.spent pk hmark
    exact ⟨hlt, fun row hrow => hused row (OtpTable.mem_delete.mp hrow).1⟩
  · intro other hother otp' hotp'
    obtain ⟨j, hj⟩ := List.getElem?_of_mem hother
    rcases getElem?_set_cases hj with ⟨-, rfl⟩ | ⟨hne, hold⟩
    · cases hotp'
    · refine hsafe (hs.standing other (List.mem_of_getElem? hold) otp' hotp') fun h => ?_
      exact absurd (hslot.same hcall hold h hrecord hotp') hne
  · intro other hother otp' hotp' hhanded
    rcases List.mem_or_eq_of_mem_set hother with hold | rfl
    · exact hs.latest other hold otp' hotp' hhanded
    · cases hhanded
  · intro target e he
    refine hsafe (hs.kept target e he) fun h => ?_
    obtain ⟨hin, hsent⟩ := lastSent_mem he
    exact hs.unsent call hmem otp hrecord hquiet e hin (hsent.trans h)
  · intro target e he row hrow
    obtain ⟨hmem', hrowTarget, hunused⟩ := OtpTable.mem_unused.mp hrow
    obtain ⟨hold, hne⟩ := OtpTable.mem_delete.mp hmem'
    have hbefore := OtpTable.mem_unused.mpr ⟨hold, hrowTarget, hunused⟩
    refine (hs.only target e he row hbefore).imp ?_ (.imp id ?_)
    · intro howned
      refine (owned_set _ _ hcall howned).resolve_left ?_
      rintro ⟨otp', hotp', hpk'⟩
      obtain rfl : otp = otp' := Option.some.inj (hrecord.symm.trans hotp')
      exact hne hpk'.symm
    · exact handed_set hcall fun _ => hquiet

/-- **Step lemma.** -/
theorem CodeInv.step (hs : CodeInv s) (hinv : IssueInv s) (hslot : SlotInv issuer s)
    {act : IssueAct} (hact : NoOrphan s act) : CodeInv (issuer.step s act) := by
  cases act with
  | tick us => exact ⟨hs.sentPk, hs.unsent, hs.spent, hs.standing, hs.latest, hs.kept, hs.only⟩
  | evict key => exact ⟨hs.sentPk, hs.unsent, hs.spent, hs.standing, hs.latest, hs.kept, hs.only⟩
  | call target =>
      -- a new call has no record
      have hnew : ∀ call ∈ s.calls ++ [⟨target, .called⟩], ∀ otp ∈ call.phase.record,
          call ∈ s.calls := by
        intro call hcall otp hotp
        rcases List.mem_append.mp hcall with hold | hlast
        · exact hold
        · rw [List.mem_singleton.mp hlast] at hotp
          cases hotp
      refine ⟨hs.sentPk, fun call hcall otp hotp => hs.unsent call (hnew call hcall otp hotp) otp hotp,
        hs.spent, fun call hcall otp hotp => hs.standing call (hnew call hcall otp hotp) otp hotp,
        fun call hcall otp hotp => hs.latest call (hnew call hcall otp hotp) otp hotp, hs.kept,
        fun target e he row hrow => (hs.only target e he row hrow).imp ?_ (.imp id ?_)⟩
      · rintro ⟨i, call, hcall, hrecord⟩
        have hi : i < s.calls.length := (List.getElem?_eq_some_iff.mp hcall).1
        exact ⟨i, call, (List.getElem?_append_left hi).trans hcall, hrecord⟩
      · rintro ⟨call, hcall, hrest⟩
        exact ⟨call, List.mem_append_left _ hcall, hrest⟩
  | consume pk =>
      simp only [OtpIssuer.step]
      split
      · next hunused =>
          refine hs.table rfl rfl (OtpTable.descends_markUsed _ pk) ?_ fun h => h.consumed pk
          intro mark hmark
          rcases List.mem_append.mp hmark with hold | hnew
          · obtain ⟨hlt, hused⟩ := hs.spent mark hold
            refine ⟨hlt, fun row' hrow' hpk => ?_⟩
            obtain ⟨row, hrow, hsame, -, hmono⟩ := OtpTable.descends_markUsed _ pk row' hrow'
            exact hmono (hused row hrow (hsame.symm.trans hpk))
          · obtain rfl := List.mem_singleton.mp hnew
            obtain ⟨row, hrow, rfl, -⟩ := OtpTable.hasUnused_iff.mp hunused
            refine ⟨hinv.fresh row hrow, fun row' hrow' hpk => ?_⟩
            obtain ⟨old, hold, rfl⟩ := OtpTable.mem_markUsed_iff.mp hrow'
            split_ifs at hpk ⊢ with hcond
            · rfl
            · exact Bool.eq_true_of_not_eq_false fun h => hcond ⟨hpk, h⟩
      · exact hs
  | bump pk =>
      refine hs.table rfl rfl (OtpTable.descends_bumpAttempts _ pk) ?_ fun h => h.bumped pk
      intro mark hmark
      obtain ⟨hlt, hused⟩ := hs.spent mark hmark
      refine ⟨hlt, fun row' hrow' hpk => ?_⟩
      obtain ⟨row, hrow, hsame, -, hmono⟩ := OtpTable.descends_bumpAttempts _ pk row' hrow'
      exact hmono (hused row hrow (hsame.symm.trans hpk))
  | crash i =>
      simp only [OtpIssuer.step]
      split
      · next call hcall =>
          have hnone : call.phase.record = none := hact call (by rw [hcall]; rfl)
          exact hs.moved s.store rfl rfl rfl rfl hcall hnone.symm (handed_of_record_none hnone) rfl
      · exact hs
  | advance i draw =>
      rcases step_advance issuer s i draw with
        hstay | ⟨call, hcall, store, phase, heffect, hstep⟩
      · rwa [hstay]
      · rw [hstep]
        cases heffect with
        | moved _ hrecord hbefore hafter =>
            exact hs.moved s.store rfl rfl rfl rfl hcall hrecord hbefore hafter
        | reserved claimedAt _ hnone hbefore =>
            refine hs.moved (s.store.addSlot _ _ _) rfl rfl rfl rfl hcall ?_ hbefore rfl
            exact hnone.symm
        | released _ hnone _ hafterNone hbefore hafter =>
            exact hs.moved (s.store.releaseCooldownSlot _) rfl rfl rfl rfl hcall
              (hafterNone.trans hnone.symm) hbefore hafter
        | persisted hphase => exact hs.persisted hinv hcall hphase
        | sent hphase => exact hs.sent hinv hslot hcall hphase
        | committed hphase => exact hs.committed hinv hslot hcall hphase
        | discarded hphase => exact hs.discarded hinv hslot hcall hphase

theorem codeInv_start (t : OtpTable) (clock : ℕ) : CodeInv (issueStart t clock) :=
  ⟨fun _ he => absurd he List.not_mem_nil, fun _ hcall => absurd hcall List.not_mem_nil,
    fun _ hpk => absurd hpk List.not_mem_nil, fun _ hcall => absurd hcall List.not_mem_nil,
    fun _ hcall => absurd hcall List.not_mem_nil, fun _ _ he => (Option.some_ne_none _ he.symm).elim,
    fun _ _ he => (Option.some_ne_none _ he.symm).elim⟩

end

theorem OtpTable.latestUnused_eq (t : OtpTable) (kind : PrimaryIdentifierKind) (value : String)
    (purpose : OTPPurpose) :
    t.latestUnused kind value purpose = (t.unused (kind, value, purpose)).argmax OTPCode.createdAt := by
  have hfilter : (t.rows.filter fun r => r.identifierKind == kind && r.identifierValue == value &&
      r.purpose == purpose && !r.isUsed) = t.unused (kind, value, purpose) := by
    refine List.filter_congr fun r _ => ?_
    rw [Bool.eq_iff_iff]
    simp [OTPCode.target, and_assoc]
  rw [OtpTable.latestUnused, hfilter]

/-- **The code in use.** As long as no call outlives its slot and no process dies in the middle of
one: when no call on a target is in flight, `verify_otp` reads the code that was sent last, and
no other code once that one is marked. -/
theorem last_sent_is_read (issuer : OtpIssuer) (t : OtpTable) (clock : ℕ) (acts : List IssueAct)
    (h : Along issuer.step (fun s act => SlotsInTime issuer s act ∧ NoOrphan s act)
      (issueStart t clock) acts)
    (kind : PrimaryIdentifierKind) (value : String) (purpose : OTPPurpose) (e : SentCode)
    (hlast : (run issuer.step (issueStart t clock) acts).store.lastSent (kind, value, purpose) =
      some e)
    (hidle : Idle (run issuer.step (issueStart t clock) acts) (kind, value, purpose)) :
    let s := (run issuer.step (issueStart t clock) acts).store
    (s.otps.latestUnused kind value purpose).map OTPCode.pk =
      if e.pk ∈ s.consumed then none else some e.pk := by
  intro s
  obtain ⟨hinv, hslot, hcode⟩ := invariant_along
    (I := fun s => IssueInv s ∧ SlotInv issuer s ∧ CodeInv s)
    (fun s act hs hact => ⟨issueInv_step hs.1 act, hs.2.1.step hact.1,
      hs.2.2.step hs.1 hs.2.1 hact.2⟩)
    ⟨issueInv_start t clock, slotInv_start t clock, codeInv_start t clock⟩ h
  -- no call in flight: what is unused is the code sent last
  have honly : ∀ row ∈ s.otps.unused (kind, value, purpose), row.pk = e.pk := by
    intro row hrow
    rcases hcode.only _ e hlast row hrow with ⟨i, call, hcall, otp, hotp, hpk⟩ | hsame | hhanded
    · obtain ⟨hmem, hrowTarget, -⟩ := OtpTable.mem_unused.mp hrow
      obtain ⟨hcallTarget, -, hof⟩ := hinv.owned i call hcall otp hotp
      have hnone := hidle call (List.mem_of_getElem? hcall)
        (hcallTarget.symm.trans ((hof row hmem hpk.symm).symm.trans hrowTarget))
      rw [hnone] at hotp
      cases hotp
    · exact hsame
    · obtain ⟨call, hcall, htarget, hhanded⟩ := hhanded
      have hnone := hidle call hcall htarget
      rw [handed_of_record_none hnone] at hhanded
      cases hhanded
  rw [OtpTable.latestUnused_eq]
  split_ifs with hmark
  · have hempty : s.otps.unused (kind, value, purpose) = [] := by
      refine List.eq_nil_iff_forall_not_mem.mpr fun row hrow => ?_
      obtain ⟨hmem, -, hunused⟩ := OtpTable.mem_unused.mp hrow
      exact absurd ((hcode.spent e.pk hmark).2 row hmem (honly row hrow)) (by simp [hunused])
    rw [hempty]
    rfl
  · obtain ⟨row, hrow, -⟩ := (hcode.kept _ e hlast).resolve_left hmark
    cases hmax : (s.otps.unused (kind, value, purpose)).argmax OTPCode.createdAt with
    | none =>
        rw [List.argmax_eq_none.mp hmax] at hrow
        cases hrow
    | some latest =>
        rw [Option.map_some, honly latest (List.argmax_mem hmax)]

theorem last_sent_is_read_patient :
    let s := (run plainIssuer.step (issueStart ⟨[], by simp⟩ 0) patientSends).store
    (s.otps.latestUnused .email "a@b.ir" .login).map OTPCode.pk =
      if 2 ∈ s.consumed then none else some 2 :=
  last_sent_is_read plainIssuer ⟨[], by simp⟩ 0 patientSends (by decide +kernel) .email "a@b.ir"
    .login ⟨loginTarget, 2, 60000000⟩ (by decide +kernel) (by unfold Idle; decide +kernel)

end SetadJang.Authentication
