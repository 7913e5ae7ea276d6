import SetadJang.Authentication.OtpCurrent

/-!
# The cooldown of one-time codes

`cache.add` lets one call at a time have the slot of a target, but the slot ends by its timeout
and is deleted by its name.  As long as every call ends before its slot does, and the cache
evicts no slot that has not ended, the calls that send a code have reserved their slots a
cooldown apart.  No two deliveries overlap then, so none marks the code of a newer one: the code
that `verify_otp` reads is the one that was sent last.
-/

namespace SetadJang.Authentication

open SetadJang.Framework

section

variable (issuer : OtpIssuer)

/-- Call `i` uses the slot under the key, which ends at `stop`. -/
def HoldsSlot (s : IssueSys) (key : String) (i stop : ℕ) : Prop :=
  ∃ call : IssuingCall, s.calls[i]? = some call ∧ issuer.cooldownKey call.target = key ∧
    ∃ r ∈ call.phase.reservedAt, r + issuer.cooldown = stop

/-- Every call in flight is before the end of its slot. -/
def CallsInTime (s : IssueSys) : Prop :=
  ∀ call ∈ s.calls, ∀ r ∈ call.phase.reservedAt, s.store.clock < r + issuer.cooldown

/-- No call is late after the step, and no slot is evicted before its end. -/
def SlotsInTime (s : IssueSys) (act : IssueAct) : Prop :=
  CallsInTime issuer (issuer.step s act) ∧
    match act with
    | .evict key => ¬ Live (s.store.slotStop key) s.store.clock
    | _ => True

instance (s : IssueSys) (act : IssueAct) : Decidable (SlotsInTime issuer s act) := by
  unfold SlotsInTime CallsInTime
  cases act <;> infer_instance

/-- The slots of the calls, and of the codes that were sent. -/
structure SlotInv (s : IssueSys) : Prop where
  slots : ∀ key, Exclusive (HoldsSlot issuer s key) (s.store.slotStop key) s.store.clock
  past : ∀ call ∈ s.calls, ∀ r ∈ call.phase.reservedAt, r ≤ s.store.clock
  live : ∀ e ∈ s.store.sent, e.reservedAt + issuer.cooldown ≤ s.store.clock ∨
    s.store.slotStop (issuer.cooldownKey e.target) = some (e.reservedAt + issuer.cooldown)
  later : ∀ e ∈ s.store.sent, ∀ call ∈ s.calls,
    issuer.cooldownKey call.target = issuer.cooldownKey e.target →
    ∀ r ∈ call.phase.reservedAt, call.phase.handed = false → e.reservedAt + issuer.cooldown ≤ r
  spaced : s.store.sent.Pairwise fun a b => issuer.cooldownKey a.target = issuer.cooldownKey b.target →
    a.reservedAt + issuer.cooldown ≤ b.reservedAt

end

section

variable {issuer : OtpIssuer} {s : IssueSys}

/-- What a call that has moved holds. -/
theorem holdsSlot_set {store : IssueStore} {i j stop : ℕ} {call : IssuingCall}
    {phase : IssuingPhase} {key : String}
    (h : HoldsSlot issuer ⟨store, s.calls.set i { call with phase := phase }⟩ key j stop) :
    j ≠ i ∧ HoldsSlot issuer s key j stop ∨
      j = i ∧ issuer.cooldownKey call.target = key ∧
        ∃ r ∈ phase.reservedAt, r + issuer.cooldown = stop := by
  obtain ⟨other, hother, hkey, hr⟩ := h
  rcases getElem?_set_cases hother with ⟨rfl, rfl⟩ | ⟨hne, hold⟩
  · exact .inr ⟨rfl, hkey, hr⟩
  · exact .inl ⟨Ne.symm hne, other, hold, hkey, hr⟩

/-- A call that moves within its slot, or is done with it. -/
theorem exclusive_moved {store : IssueStore} (hslots : store.slots = s.store.slots)
    (hclock : store.clock = s.store.clock) {i : ℕ} {call : IssuingCall} {phase : IssuingPhase}
    (hcall : s.calls[i]? = some call) (hreserved : ∀ r ∈ phase.reservedAt, r ∈ call.phase.reservedAt)
    (hs : ∀ key, Exclusive (HoldsSlot issuer s key) (s.store.slotStop key) s.store.clock)
    (key : String) :
    Exclusive (HoldsSlot issuer ⟨store, s.calls.set i { call with phase := phase }⟩ key)
      (store.slotStop key) store.clock := by
  rw [IssueStore.slotStop, hslots, hclock]
  refine (hs key).mono fun j stop hj => ?_
  rcases holdsSlot_set hj with ⟨-, hold⟩ | ⟨rfl, hkey, r, hr, hstop⟩
  · exact hold
  · exact ⟨call, hcall, hkey, r, hreserved r hr, hstop⟩

theorem slotStop_addSlot_self (s : IssueStore) (key : String) (claimedAt : ℕ) :
    (s.addSlot key claimedAt issuer.cooldownSeconds).slotStop key =
      some (s.clock + issuer.cooldown) := by
  simp [IssueStore.slotStop, IssueStore.addSlot, OtpIssuer.cooldown]

theorem slotStop_addSlot_other (s : IssueStore) {key key' : String} (h : key' ≠ key)
    (claimedAt timeout : ℕ) :
    (s.addSlot key claimedAt timeout).slotStop key' = s.slotStop key' := by
  simp [IssueStore.slotStop, IssueStore.addSlot, h]

theorem slotStop_release_self (s : IssueStore) (key : String) :
    (s.releaseCooldownSlot key).slotStop key = none := by
  simp [IssueStore.slotStop, IssueStore.releaseCooldownSlot]

theorem slotStop_release_other (s : IssueStore) {key key' : String} (h : key' ≠ key) :
    (s.releaseCooldownSlot key).slotStop key' = s.slotStop key' := by
  simp [IssueStore.slotStop, IssueStore.releaseCooldownSlot, h]

/-! ## One step -/

/-- A step that leaves the cache and what was sent alone. -/
theorem SlotInv.moved (hs : SlotInv issuer s) (store : IssueStore)
    (hslots : store.slots = s.store.slots) (hclock : store.clock = s.store.clock)
    (hsent : store.sent = s.store.sent) {i : ℕ} {call : IssuingCall} {phase : IssuingPhase}
    (hcall : s.calls[i]? = some call) (hreserved : ∀ r ∈ phase.reservedAt, r ∈ call.phase.reservedAt)
    (hphase : phase.reservedAt = none ∨ call.phase.handed = false) :
    SlotInv issuer ⟨store, s.calls.set i { call with phase := phase }⟩ := by
  have hmem : call ∈ s.calls := List.mem_of_getElem? hcall
  have hstop : ∀ key, store.slotStop key = s.store.slotStop key := fun key => by
    rw [IssueStore.slotStop, hslots, IssueStore.slotStop]
  refine ⟨exclusive_moved hslots hclock hcall hreserved hs.slots, ?past, ?live, ?later, ?spaced⟩
  case past =>
    intro other hother r hr
    change r ≤ store.clock
    rw [hclock]
    rcases List.mem_or_eq_of_mem_set hother with hold | rfl
    · exact hs.past other hold r hr
    · exact hs.past call hmem r (hreserved r hr)
  case live =>
    intro e he
    change _ ≤ store.clock ∨ store.slotStop _ = _
    rw [hclock, hstop]
    exact hs.live e (hsent ▸ he)
  case later =>
    intro e he other hother hkey r hr hsending
    rcases List.mem_or_eq_of_mem_set hother with hold | rfl
    · exact hs.later e (hsent ▸ he) other hold hkey r hr hsending
    · rcases hphase with hnone | hcallPhase
      · simp [hnone] at hr
      · exact hs.later e (hsent ▸ he) call hmem hkey r (hreserved r hr) hcallPhase
  case spaced =>
    change store.sent.Pairwise _
    rw [hsent]
    exact hs.spaced

/-- A slot that has ended is reserved. -/
theorem SlotInv.reserved (hs : SlotInv issuer s) {i claimedAt : ℕ} {call : IssuingCall}
    (hdead : ¬ Live (s.store.slotStop (issuer.cooldownKey call.target)) s.store.clock)
    (hpos : s.store.clock < s.store.clock + issuer.cooldown) :
    SlotInv issuer
      ⟨s.store.addSlot (issuer.cooldownKey call.target) claimedAt issuer.cooldownSeconds,
        s.calls.set i { call with phase := .reserved s.store.clock }⟩ := by
  -- a code that was sent under the key has had its cooldown
  have hover : ∀ e ∈ s.store.sent,
      issuer.cooldownKey e.target = issuer.cooldownKey call.target →
        e.reservedAt + issuer.cooldown ≤ s.store.clock := by
    intro e he hkey
    rcases hs.live e he with hover | hlive
    · exact hover
    · exact Nat.le_of_not_lt fun hlt => hdead ⟨_, hkey ▸ hlive, hlt⟩
  refine ⟨fun key => ?slots, ?past, ?live, ?later, hs.spaced⟩
  case slots =>
    by_cases hkey : key = issuer.cooldownKey call.target
    · subst hkey
      rw [slotStop_addSlot_self]
      refine (hs.slots _).take (i := i) hdead hpos fun j stop hj => ?_
      rcases holdsSlot_set hj with ⟨-, hold⟩ | ⟨rfl, -, r, hr, hstop⟩
      · exact .inl hold
      · obtain rfl := Option.some.inj hr
        exact .inr ⟨rfl, hstop.symm⟩
    · rw [slotStop_addSlot_other _ hkey]
      refine (hs.slots key).mono fun j stop hj => ?_
      rcases holdsSlot_set hj with ⟨-, hold⟩ | ⟨-, hnew, -⟩
      · exact hold
      · exact absurd hnew.symm hkey
  case past =>
    intro other hother r hr
    rcases List.mem_or_eq_of_mem_set hother with hold | rfl
    · exact hs.past other hold r hr
    · obtain rfl := Option.some.inj hr
      exact Nat.le_refl _
  case live =>
    intro e he
    by_cases hkey : issuer.cooldownKey e.target = issuer.cooldownKey call.target
    · exact .inl (hover e he hkey)
    · rw [slotStop_addSlot_other _ hkey]
      exact hs.live e he
  case later =>
    intro e he other hother hkey r hr hsending
    rcases List.mem_or_eq_of_mem_set hother with hold | rfl
    · exact hs.later e he other hold hkey r hr hsending
    · obtain rfl := Option.some.inj hr
      exact hover e he hkey.symm

/-- A call that has sent nothing gives its slot back. -/
theorem SlotInv.released (hs : SlotInv issuer s) {i r : ℕ} {call : IssuingCall}
    {phase : IssuingPhase} (hcall : s.calls[i]? = some call)
    (hreserved : call.phase.reservedAt = some r) (hsending : call.phase.handed = false)
    (hnone : phase.reservedAt = none) :
    SlotInv issuer ⟨s.store.releaseCooldownSlot (issuer.cooldownKey call.target),
      s.calls.set i { call with phase := phase }⟩ := by
  have hmem : call ∈ s.calls := List.mem_of_getElem? hcall
  refine ⟨fun key => ?slots, ?past, ?live, ?later, hs.spaced⟩
  case slots =>
    by_cases hkey : key = issuer.cooldownKey call.target
    · subst hkey
      rw [slotStop_release_self]
      refine (hs.slots _).free ⟨call, hcall, rfl, r, hreserved, rfl⟩ fun j stop hj => ?_
      rcases holdsSlot_set hj with ⟨hne, hold⟩ | ⟨-, -, r', hr', -⟩
      · exact ⟨hold, hne⟩
      · simp [hnone] at hr'
    · rw [slotStop_release_other _ hkey]
      refine (hs.slots key).mono fun j stop hj => ?_
      rcases holdsSlot_set hj with ⟨-, hold⟩ | ⟨-, hnew, -⟩
      · exact hold
      · exact absurd hnew.symm hkey
  case past =>
    intro other hother r' hr'
    rcases List.mem_or_eq_of_mem_set hother with hold | rfl
    · exact hs.past other hold r' hr'
    · simp [hnone] at hr'
  case live =>
    intro e he
    by_cases hkey : issuer.cooldownKey e.target = issuer.cooldownKey call.target
    · left
      calc e.reservedAt + issuer.cooldown ≤ r :=
            hs.later e he call hmem hkey.symm r hreserved hsending
        _ ≤ s.store.clock := hs.past call hmem r hreserved
    · rw [slotStop_release_other _ hkey]
      exact hs.live e he
  case later =>
    intro e he other hother hkey r' hr' hother'
    rcases List.mem_or_eq_of_mem_set hother with hold | rfl
    · exact hs.later e he other hold hkey r' hr' hother'
    · simp [hnone] at hr'

/-- The provider accepts a code: the call has the slot, and nobody else does. -/
theorem SlotInv.sent (hs : SlotInv issuer s) {i r : ℕ} {call : IssuingCall} {otp : OTPCode}
    (hcall : s.calls[i]? = some call) (hphase : call.phase = .sending r otp) :
    SlotInv issuer ⟨{ s.store with sent := s.store.sent ++ [⟨call.target, otp.pk, r⟩] },
      s.calls.set i { call with phase := .delivered r otp }⟩ := by
  have hmem : call ∈ s.calls := List.mem_of_getElem? hcall
  have hreserved : call.phase.reservedAt = some r := by rw [hphase]; rfl
  have hsending : call.phase.handed = false := by rw [hphase]; rfl
  have hholds : HoldsSlot issuer s (issuer.cooldownKey call.target) i (r + issuer.cooldown) :=
    ⟨call, hcall, rfl, r, hreserved, rfl⟩
  refine ⟨?slots, ?past, ?live, ?later, ?spaced⟩
  case slots =>
    exact exclusive_moved rfl rfl hcall (fun r' hr' => hreserved ▸ hr') hs.slots
  case past =>
    intro other hother r' hr'
    rcases List.mem_or_eq_of_mem_set hother with hold | rfl
    · exact hs.past other hold r' hr'
    · exact hs.past call hmem r' (hreserved ▸ hr')
  case live =>
    intro e he
    rcases List.mem_append.mp he with hold | hnew
    · exact hs.live e hold
    · rw [List.mem_singleton.mp hnew]
      exact .inr ((hs.slots _).current i _ hholds).1
  case later =>
    intro e he other hother hkey r' hr' hdelivered
    obtain ⟨j, hj⟩ := List.getElem?_of_mem hother
    rcases getElem?_set_cases hj with ⟨-, rfl⟩ | ⟨hne, hold⟩
    · cases hdelivered
    · rcases List.mem_append.mp he with he | he
      · exact hs.later e he other (List.mem_of_getElem? hold) hkey r' hr' hdelivered
      · -- the other call would have the slot as well
        rw [List.mem_singleton.mp he] at hkey
        exact absurd ((hs.slots _).unique i j _ _ hholds ⟨other, hold, hkey, r', hr', rfl⟩) hne
  case spaced =>
    refine List.pairwise_append.mpr ⟨hs.spaced, List.pairwise_singleton _ _, fun e he e' he' => ?_⟩
    rw [List.mem_singleton.mp he']
    exact fun hkey => hs.later e he call hmem hkey.symm r hreserved hsending

theorem SlotInv.evicted (hs : SlotInv issuer s) {key : String}
    (hdead : ¬ Live (s.store.slotStop key) s.store.clock) :
    SlotInv issuer { s with store := s.store.releaseCooldownSlot key } := by
  refine ⟨fun key' => ?slots, hs.past, ?live, hs.later, hs.spaced⟩
  case slots =>
    by_cases hkey : key' = key
    · subst hkey
      exact exclusive_of_nobody _ _ ((hs.slots key').nobody hdead)
    · rw [slotStop_release_other _ hkey]
      exact hs.slots key'
  case live =>
    intro e he
    by_cases hkey : issuer.cooldownKey e.target = key
    · left
      rcases hs.live e he with hover | hlive
      · exact hover
      · exact Nat.le_of_not_lt fun hlt => hdead ⟨_, hkey ▸ hlive, hlt⟩
    · rw [slotStop_release_other _ hkey]
      exact hs.live e he

/-- **Step lemma.** -/
theorem SlotInv.step (hs : SlotInv issuer s) {act : IssueAct} (hact : SlotsInTime issuer s act) :
    SlotInv issuer (issuer.step s act) := by
  cases act with
  | tick us =>
      have hle : s.store.clock ≤ s.store.clock + us := Nat.le_add_right _ us
      refine ⟨fun key => (hs.slots key).wait fun i stop hi => ?_,
        fun call hcall r hr => (hs.past call hcall r hr).trans hle,
        fun e he => (hs.live e he).imp_left fun hover => hover.trans hle, hs.later, hs.spaced⟩
      obtain ⟨call, hcall, -, r, hr, rfl⟩ := hi
      exact hact.1 call (List.mem_of_getElem? hcall) r hr
  | call target =>
      refine ⟨fun key => (hs.slots key).mono fun i stop hi => ?_, fun other hother r hr => ?_,
        hs.live, fun e he other hother hkey r hr hsending => ?_, hs.spaced⟩
      · obtain ⟨other, hother, hkey, r, hr, hstop⟩ := hi
        rcases getElem?_concat_cases hother with hold | ⟨-, rfl⟩
        · exact ⟨other, hold, hkey, r, hr, hstop⟩
        · cases hr
      · rcases List.mem_append.mp hother with hold | hnew
        · exact hs.past other hold r hr
        · rw [List.mem_singleton.mp hnew] at hr
          cases hr
      · rcases List.mem_append.mp hother with hold | hnew
        · exact hs.later e he other hold hkey r hr hsending
        · rw [List.mem_singleton.mp hnew] at hr
          cases hr
  | consume pk =>
      simp only [OtpIssuer.step]
      split
      · exact ⟨hs.slots, hs.past, hs.live, hs.later, hs.spaced⟩
      · exact hs
  | bump pk => exact ⟨hs.slots, hs.past, hs.live, hs.later, hs.spaced⟩
  | evict key => exact hs.evicted hact.2
  | crash i =>
      simp only [OtpIssuer.step]
      split
      · next call hcall => exact hs.moved s.store rfl rfl rfl hcall (fun _ h => absurd h (Option.not_mem_none _)) (.inl rfl)
      · exact hs
  | advance i draw =>
      rcases step_advance issuer s i draw with
        hstay | ⟨call, hcall, store, phase, heffect, hstep⟩
      · rwa [hstay]
      · have htime := hact.1
        rw [hstep] at htime ⊢
        cases heffect with
        | moved hreserved _ hsending _ =>
            exact hs.moved s.store rfl rfl rfl hcall (fun r hr => hreserved ▸ hr) (.inr hsending)
        | reserved claimedAt hdead =>
            have hi : i < s.calls.length := (List.getElem?_eq_some_iff.mp hcall).1
            exact hs.reserved hdead (htime _ (List.mem_set hi _) _ rfl)
        | released hreserved _ hnone _ hsending _ =>
            exact hs.released hcall hreserved hsending hnone
        | persisted hphase =>
            refine hs.moved (s.store.persistNewOtp _) rfl rfl rfl hcall ?_ (.inr ?_)
            · simp [hphase, IssuingPhase.reservedAt]
            · rw [hphase]; rfl
        | sent hphase => exact hs.sent hcall hphase
        | committed =>
            exact hs.moved (s.store.commitOtpDelivery _) rfl rfl rfl hcall (fun _ h => absurd h (Option.not_mem_none _)) (.inl rfl)
        | discarded hphase =>
            refine hs.moved (s.store.discardUndeliveredOtp _) rfl rfl rfl hcall ?_ (.inr ?_)
            · simp [hphase, IssuingPhase.reservedAt]
            · rw [hphase]; rfl

theorem slotInv_start (t : OtpTable) (clock : ℕ) : SlotInv issuer (issueStart t clock) := by
  refine ⟨fun key => exclusive_of_nobody _ _ ?_, fun call hcall => absurd hcall List.not_mem_nil,
    fun e he => absurd he List.not_mem_nil, fun e he => absurd he List.not_mem_nil,
    List.Pairwise.nil⟩
  rintro i stop ⟨call, hcall, -⟩
  cases hcall

end

/-- The codes that were sent for a target. -/
def IssueStore.sentTo (s : IssueStore) (target : OtpTarget) : List SentCode :=
  s.sent.filter fun e => decide (e.target = target)

/-- **The cooldown.** As long as no call outlives its slot, the calls that sent a code for one
target had reserved their slots a cooldown apart, so `n` codes in a period take `n - 1`
cooldowns. -/
theorem sends_spaced (issuer : OtpIssuer) (t : OtpTable) (clock : ℕ) (acts : List IssueAct)
    (h : Along issuer.step (SlotsInTime issuer) (issueStart t clock) acts) (target : OtpTarget) :
    let sends := (run issuer.step (issueStart t clock) acts).store.sentTo target
    (sends.Pairwise fun a b => a.reservedAt + issuer.cooldown ≤ b.reservedAt) ∧
      ∀ first last, (sends.filter fun e =>
          decide (first ≤ e.reservedAt) && decide (e.reservedAt ≤ last)).length * issuer.cooldown ≤
        last - first + issuer.cooldown := by
  intro sends
  have hinv := invariant_along (I := SlotInv issuer) (fun s act hs hact => hs.step hact)
    (slotInv_start t clock) h
  have hspaced : sends.Pairwise fun a b => a.reservedAt + issuer.cooldown ≤ b.reservedAt := by
    refine (hinv.spaced.filter _).imp_of_mem fun {a b} ha hb hab => hab ?_
    have htarget : ∀ e ∈ sends, e.target = target := fun e he =>
      of_decide_eq_true (List.mem_filter.mp he).2
    rw [htarget a ha, htarget b hb]
  refine ⟨hspaced, fun first last => ?_⟩
  have hstarts : ((sends.filter fun e =>
      decide (first ≤ e.reservedAt) && decide (e.reservedAt ≤ last)).map
        SentCode.reservedAt).Pairwise fun a b => a + issuer.cooldown ≤ b :=
    List.pairwise_map.mpr (hspaced.filter _)
  have hmul := length_mul_le_of_spaced first last hstarts ?_
  · rw [List.length_map] at hmul
    omega
  · intro start hstart
    obtain ⟨e, he, rfl⟩ := List.mem_map.mp hstart
    simpa using (List.mem_filter.mp he).2

/-- A call that the slot refuses, and one after the cooldown. -/
def patientSends : List IssueAct :=
  .call loginTarget :: List.replicate 8 (.advance 0 accepted) ++
    [.call loginTarget, .advance 1 accepted, .advance 1 accepted, .advance 1 accepted,
      .tick 60000000, .call loginTarget] ++
    List.replicate 8 (.advance 2 accepted)

theorem sends_spaced_patient :
    let sends := (run plainIssuer.step (issueStart ⟨[], by simp⟩ 0) patientSends).store.sentTo
      loginTarget
    (sends.Pairwise fun a b => a.reservedAt + plainIssuer.cooldown ≤ b.reservedAt) ∧
      ∀ first last, (sends.filter fun e =>
          decide (first ≤ e.reservedAt) && decide (e.reservedAt ≤ last)).length *
            plainIssuer.cooldown ≤ last - first + plainIssuer.cooldown :=
  sends_spaced plainIssuer ⟨[], by simp⟩ 0 patientSends (by decide +kernel) loginTarget

end SetadJang.Authentication
