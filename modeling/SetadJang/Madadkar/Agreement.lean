import SetadJang.Madadkar.Counters

/-!
# Payment and participation agree

A payment and its participation are written together, but not always decided
together.  Two steps act on what they remember instead of what is stored: the
expiry task overwrites the participation it loaded earlier, and
`_persist_initiated_payment` attaches a pending payment to a participation it
reserved earlier.  When the row has moved on in between, the two disagree.
-/

namespace SetadJang.Madadkar

open SetadJang.Framework SetadJang.Framework.Txn

/-- The participation statuses that go with a payment status. -/
def PaymentStatus.Fits : PaymentStatus → ParticipationStatus → Prop
  | .success, st => st = .paid ∨ st = .refunded
  | .failed, st => st = .failed ∨ st = .expired
  | .pending, st => st = .pendingPayment

instance : ∀ (a : PaymentStatus) (b : ParticipationStatus), Decidable (a.Fits b)
  | .success, _ => inferInstanceAs (Decidable (_ ∨ _))
  | .failed, _ => inferInstanceAs (Decidable (_ ∨ _))
  | .pending, _ => inferInstanceAs (Decidable (_ = _))

/-- Every participation with a payment has a status that goes with it. -/
def Agreement (s : Store) : Prop :=
  ∀ pay ∈ s.payments, ∀ p ∈ s.participations[pay.participation]?, pay.status.Fits p.status

instance (s : Store) : Decidable (Agreement s) :=
  inferInstanceAs (Decidable (∀ pay ∈ s.payments, _))

/-! ## Commits -/

section

variable {s t : Store} (hw : Wired s) (hs : Agreement s)

include hw hs

/-- A payment and its participation are settled together. -/
theorem Agreement.settled {k : ℕ} {pay : Payment} {st : Settlement}
    {status : ParticipationStatus} {paidAt : Option ℕ} (hpay : s.payments[k]? = some pay)
    (hpays : t.payments = s.payments.modify k (·.settle st))
    (hps : t.participations = s.participations.modify pay.participation (·.withStatus status paidAt))
    (hfits : st.status.Fits status) : Agreement t := by
  intro q hq p hp
  obtain ⟨j, hj⟩ := List.getElem?_of_mem hq
  rw [hpays] at hj
  rw [hps, Option.mem_def] at hp
  by_cases hkj : k = j
  · subst hkj
    obtain rfl : pay.settle st = q := by simpa [hpay] using hj
    obtain ⟨old, -, rfl⟩ : ∃ old, s.participations[pay.participation]? = some old ∧
        old.withStatus status paidAt = p := by
      simpa [Payment.settle] using hp
    exact hfits
  · rw [List.getElem?_modify_ne _ _ hkj] at hj
    have hne : pay.participation ≠ q.participation :=
      fun h => hkj (hw.payment_key hpay hj h)
    rw [List.getElem?_modify_ne _ _ hne] at hp
    exact hs q (List.mem_of_getElem? hj) p hp

omit hw in
/-- A participation is overwritten alone. -/
theorem Agreement.overwritten {pid : ℕ} {status : ParticipationStatus} {paidAt : Option ℕ}
    (hpays : t.payments = s.payments)
    (hps : t.participations = s.participations.modify pid (·.withStatus status paidAt))
    (hfits : ∀ pay ∈ s.payments, pay.participation = pid → pay.status.Fits status) :
    Agreement t := by
  intro q hq p hp
  rw [hpays] at hq
  rw [hps, Option.mem_def] at hp
  by_cases hpid : pid = q.participation
  · subst hpid
    obtain ⟨old, -, rfl⟩ : ∃ old, s.participations[q.participation]? = some old ∧
        old.withStatus status paidAt = p := by
      simpa using hp
    exact hfits q hq rfl
  · rw [List.getElem?_modify_ne _ _ hpid] at hp
    exact hs q hq p hp

theorem Agreement.reserved {p₀ : Participation} (hpays : t.payments = s.payments)
    (hps : t.participations = s.participations ++ [p₀]) : Agreement t := by
  intro q hq p hp
  rw [hpays] at hq
  have hlt := hw.payment_participation _ (List.mem_map_of_mem hq)
  rw [hps, List.getElem?_append_left hlt] at hp
  exact hs q hq p hp

omit hw in
theorem Agreement.persisted {pay : Payment} (hpays : t.payments = s.payments ++ [pay])
    (hps : t.participations = s.participations) (hpend : pay.status = .pending)
    (hstill : ∀ p ∈ s.participations[pay.participation]?, p.status = .pendingPayment) :
    Agreement t := by
  intro q hq p hp
  rw [hps] at hp
  rw [hpays] at hq
  rcases List.mem_append.mp hq with hold | hnew
  · exact hs q hold p hp
  · obtain rfl := List.mem_singleton.mp hnew
    rw [hpend]
    exact hstill p hp

end

/-- What a commit has to find for the rows to agree after it. -/
def Effect.FindsAgreement (s : Store) : Effect → Prop
  | .release pid => ∀ pay ∈ s.payments, pay.participation ≠ pid
  | .persist pid => ∀ p ∈ s.participations[pid]?, p.status = .pendingPayment
  | .expire pid _ => ∀ pay ∈ s.payments, pay.participation = pid → pay.status ≠ .success
  | .refund => False
  | _ => True

/-- **Step lemma.** -/
theorem agreement_commit {s t : Store} {e : Effect} (hw : Wired s) (hs : Agreement s)
    (hok : e.FindsAgreement s) (h : Commit s e t) : Agreement t := by
  cases h with
  | reserve hrow hroom hpos => exact hs.reserved hw rfl rfl
  | release hp hpend =>
      exact hs.overwritten rfl rfl fun pay hpay hpid => absurd hpid (hok pay hpay)
  | persist hpid hnew hpend => exact hs.persisted rfl rfl hpend hok
  | mismatch hpay hp => exact hs.settled hw hpay rfl rfl (Or.inl rfl)
  | reject hpay hp hpend => exact hs.settled hw hpay rfl rfl (Or.inl rfl)
  | succeed hpay hp hpend => exact hs.settled hw hpay rfl rfl (Or.inl rfl)
  | expire hnone =>
      refine hs.overwritten rfl rfl fun pay hpay hpid => ?_
      have hns := hok pay hpay hpid
      have hnp := hnone pay hpay hpid
      cases hst : pay.status with
      | success => exact absurd hst hns
      | pending => exact absurd hst hnp
      | failed => exact Or.inr rfl
  | expireWith hpay hpid hpend =>
      subst hpid
      exact hs.settled hw hpay rfl rfl (Or.inr rfl)
  | fund hrow hroom => exact hs
  | voidFund hf => exact hs
  | requestRefund hpay hr hpend => exact hok.elim
  | reviewRefund hr hpend hpay hstatus => exact hok.elim
  | completeRefund hr happ hpay hp hpart => exact hok.elim
  | completeFullRefund hr happ hpay hp hfull => exact hok.elim
  | createAdjustment hpend => exact hs
  | reviewAdjustment ha hpend hstatus => exact hs
  | applyAdjustment ha happ hnone => exact hs
  | applyPaymentAdjustment ha happ hk hpay => exact hs

/-! ## Reservations under way -/

/-- The participation an unfinished `initiate_participation` has reserved. -/
def Thread.initiating : Thread → Option ℕ
  | .reserved pid _ _ => some pid
  | .accepted pid _ _ _ => some pid
  | .refused pid => some pid
  | _ => none

def initiated (s : Sys) : List ℕ := s.threads.filterMap Thread.initiating

/-- Calls under way own different participations, and these have no payment yet. -/
structure Reserving (s : Sys) : Prop where
  distinct : (initiated s).Nodup
  unpaid : ∀ pid ∈ initiated s,
    pid < s.db.participations.length ∧ pid ∉ s.db.payments.map Payment.participation

/-- A step of the payment services. -/
def payStep (s : Sys) (a : PayAct) : Sys := step s (.pay a)

/-- Only a stored payment adds a key to the payment table. -/
theorem paymentKeys_commit {s t : Store} {e : Effect} (h : Commit s e t)
    (hne : ∀ pid, e ≠ .persist pid) :
    t.payments.map Payment.participation = s.payments.map Payment.participation := by
  cases h with
  | persist hpid hnew hpend => exact absurd rfl (hne _)
  | mismatch hpay hp => exact map_participation_savePayment _ _ _
  | reject hpay hp hpend => exact map_participation_savePayment _ _ _
  | succeed hpay hp hpend => exact map_participation_savePayment _ _ _
  | expireWith hpay hpid hpend => exact map_participation_savePayment _ _ _
  | reserve hrow hroom hpos => rfl
  | release hp hpend => rfl
  | expire hnone => rfl
  | fund hrow hroom => rfl
  | voidFund hf => rfl
  | requestRefund hpay hr hpend => rfl
  | reviewRefund hr hpend hpay hstatus => rfl
  | completeRefund hr happ hpay hp hpart => rfl
  | completeFullRefund hr happ hpay hp hfull => rfl
  | createAdjustment hpend => rfl
  | reviewAdjustment ha hpend hstatus => rfl
  | applyAdjustment ha happ hnone => rfl
  | applyPaymentAdjustment ha happ hk hpay => rfl

theorem paymentKeys_step {s : Sys} {a : Act} (hne : ∀ pid, attempts s a ≠ some (.persist pid)) :
    (step s a).db.payments.map Payment.participation =
      s.db.payments.map Payment.participation := by
  rcases step_db s a with hsame | ⟨e, he, hcommit⟩
  · rw [hsame]
  · refine paymentKeys_commit hcommit fun pid hpid => hne pid ?_
    rw [he, hpid]

theorem participations_length_le (s : Sys) (a : Act) :
    s.db.participations.length ≤ (step s a).db.participations.length := by
  by_contra hlt
  have hk : (step s a).db.participations.length < s.db.participations.length := by omega
  obtain ⟨p, hp, -⟩ := (stable_step s a).participations _ _ (List.getElem?_eq_getElem hk)
  exact absurd (lt_length_of_getElem? hp) (by omega)

/-- A step that gives away no reservation and stores no payment. -/
theorem Reserving.of_same {s : Sys} {a : Act} (hs : Reserving s)
    (hne : ∀ pid, attempts s a ≠ some (.persist pid))
    (hthreads : initiated (step s a) = initiated s) : Reserving (step s a) := by
  refine ⟨hthreads ▸ hs.distinct, ?_⟩
  intro pid hpid
  rw [hthreads] at hpid
  rw [paymentKeys_step hne]
  have hlen := participations_length_le s a
  have hold := hs.unpaid pid hpid
  exact ⟨by omega, hold.2⟩

theorem reserving_initiate {s : Sys} (hw : Wired s.db) (hs : Reserving s) (c user : ℕ)
    (shareCount : ℤ) (now : ℕ) : Reserving (step s (.pay (.initiate c user shareCount now))) := by
  have hnot : ∀ pid, attempts s (.pay (.initiate c user shareCount now)) ≠
      some (.persist pid) := by simp [attempts]
  by_cases hcount : shareCount < 1
  · exact hs.of_same hnot (by simp [initiated, step, threadsAfter, hcount])
  · rcases hexec : exec (reserveParticipationShares c user shareCount.toNat now) s.db with ⟨r, t⟩
    cases r with
    | error e =>
        exact hs.of_same hnot (by simp [initiated, step, threadsAfter, hcount, hexec])
    | ok r =>
        obtain ⟨pid, p⟩ := r
        obtain ⟨rfl, -, htable, -⟩ := commits_reserve (show Commits _ _ _ _ from hexec)
        have hlen : t.participations.length = s.db.participations.length + 1 := by simp [htable]
        have hpays : t.payments = s.db.payments := by rw [htable]; rfl
        have hdb : (step s (.pay (.initiate c user shareCount now))).db = t := by
          simp only [step, after, transaction, payTransaction, if_neg hcount]
          rw [exec_bind_ok hexec]
          rfl
        have hthreads : initiated (step s (.pay (.initiate c user shareCount now))) =
            initiated s ++ [s.db.participations.length] := by
          simp [initiated, step, threadsAfter, hcount, hexec, List.filterMap_append,
            Thread.initiating]
        -- the new key is beyond every key in use
        have hfresh : s.db.participations.length ∉ initiated s := fun hmem =>
          absurd (hs.unpaid _ hmem).1 (by omega)
        refine ⟨?_, ?_⟩
        · rw [hthreads]
          simpa [List.nodup_append] using ⟨hs.distinct, fun pid hpid heq => hfresh (heq ▸ hpid)⟩
        · intro pid hpid
          rw [hthreads] at hpid
          rw [hdb, hpays, hlen]
          rcases List.mem_append.mp hpid with hold | hnew
          · exact ⟨by have := (hs.unpaid pid hold).1; omega, (hs.unpaid pid hold).2⟩
          · obtain rfl := List.mem_singleton.mp hnew
            exact ⟨by omega, fun hmem => absurd (hw.payment_participation _ hmem) (by omega)⟩

/-- A call ends: its reservation is given up, or turned into the stored payment. -/
theorem reserving_finish {s : Sys} {a : Act} {i pid : ℕ} {th : Thread} (hs : Reserving s)
    (hi : s.threads[i]? = some th) (hth : th.initiating = some pid)
    (hthreads : (step s a).threads = s.threads.set i .done)
    (hkeys : (step s a).db.payments.map Payment.participation =
        s.db.payments.map Payment.participation ∨
      (step s a).db.payments.map Payment.participation =
        s.db.payments.map Payment.participation ++ [pid]) : Reserving (step s a) := by
  have hset : initiated (step s a) = (s.threads.set i .done).filterMap Thread.initiating := by
    rw [initiated, hthreads]
  obtain ⟨hnodup, hsub⟩ := filterMap_set_none hth (b := .done) rfl hi hs.distinct
  refine ⟨hset ▸ hnodup, ?_⟩
  intro pid' hpid'
  rw [hset] at hpid'
  obtain ⟨hold, hne⟩ := hsub pid' hpid'
  obtain ⟨hlt, hunpaid⟩ := hs.unpaid pid' hold
  have hlen := participations_length_le s a
  refine ⟨by omega, ?_⟩
  rcases hkeys with hkeys | hkeys
  · rw [hkeys]
    exact hunpaid
  · rw [hkeys]
    simp [hunpaid, hne]

theorem paymentKeys_persist {s t : Store} {pid : ℕ} (h : Commit s (.persist pid) t) :
    t.payments.map Payment.participation = s.payments.map Payment.participation ++ [pid] := by
  cases h with
  | persist hpid hnew hpend => simp

theorem reserving_gateway {s : Sys} (hs : Reserving s) (i : ℕ)
    (answer : Option PaymentRequestResult) : Reserving (step s (.pay (.gateway i answer))) := by
  refine hs.of_same (by simp [attempts]) ?_
  simp only [initiated, step, threadsAfter]
  split
  · next pid user amount result hi =>
      refine filterMap_set_same hi ?_
      split_ifs <;> rfl
  · next hi => exact filterMap_set_same hi rfl
  · rfl

theorem reserving_persist {s : Sys} (hs : Reserving s) (i : ℕ) :
    Reserving (step s (.pay (.persist i))) := by
  by_cases hacc : ∃ pid user amount result,
      s.threads[i]? = some (.accepted pid user amount result)
  · obtain ⟨pid, user, amount, result, hi⟩ := hacc
    refine reserving_finish hs hi rfl (by simp [step, threadsAfter, hi]) ?_
    rcases step_db s (.pay (.persist i)) with hsame | ⟨e, he, hcommit⟩
    · exact Or.inl (by rw [hsame])
    · obtain rfl : Effect.persist pid = e := by simpa [attempts, hi] using he
      exact Or.inr (paymentKeys_persist hcommit)
  · push Not at hacc
    exact hs.of_same (by simp [attempts]) (by simp only [initiated, step, threadsAfter])

theorem reserving_release {s : Sys} (hs : Reserving s) (i : ℕ) :
    Reserving (step s (.pay (.release i))) := by
  by_cases href : ∃ pid, s.threads[i]? = some (.refused pid)
  · obtain ⟨pid, hi⟩ := href
    exact reserving_finish hs hi rfl (by simp [step, threadsAfter, hi])
      (Or.inl (paymentKeys_step (by simp [attempts, hi])))
  · push Not at href
    exact hs.of_same (by simp [attempts]) (by simp only [initiated, step, threadsAfter])

/-- The other calls own no reservation. -/
theorem initiated_other {s : Sys} {a : PayAct}
    (ha : ∀ c user shareCount now, a ≠ .initiate c user shareCount now)
    (hg : ∀ i answer, a ≠ .gateway i answer) (hp : ∀ i, a ≠ .persist i)
    (hr : ∀ i, a ≠ .release i) : initiated (step s (.pay a)) = initiated s := by
  cases a with
  | initiate c user shareCount now => exact absurd rfl (ha _ _ _ _)
  | gateway i answer => exact absurd rfl (hg _ _)
  | persist i => exact absurd rfl (hp _)
  | release i => exact absurd rfl (hr _)
  | callback authority =>
      simp only [initiated, step, threadsAfter]
      split
      · split
        · split_ifs
          · simp [List.filterMap_append, Thread.initiating]
          · rfl
        · rfl
      · rfl
  | provider i answer =>
      simp only [initiated, step, threadsAfter]
      split
      · next hi => exact filterMap_set_same hi rfl
      · next hi => exact filterMap_set_same hi rfl
      · rfl
  | finalize i now hooksOk =>
      simp only [initiated, step, threadsAfter]
      split
      · next hi => exact filterMap_set_same hi rfl
      · rfl
  | cancel authority =>
      simp only [initiated, step, threadsAfter]
      split
      · split
        · split_ifs
          · simp [List.filterMap_append, Thread.initiating]
          · rfl
        · rfl
      · rfl
  | cancelLocked i now =>
      simp only [initiated, step, threadsAfter]
      split
      · next hi => exact filterMap_set_same hi rfl
      · rfl
  | loadStale pid cutoff =>
      simp only [initiated, step, threadsAfter]
      split
      · split_ifs
        · simp [List.filterMap_append, Thread.initiating]
        · rfl
      · rfl
  | expire i now =>
      simp only [initiated, step, threadsAfter]
      split
      · next hi => exact filterMap_set_same hi rfl
      · rfl

/-- Only a `persist` step stores a payment, only a `release` step releases. -/
theorem attempts_pay {s : Sys} {a : PayAct} {e : Effect} (h : attempts s (.pay a) = some e) :
    (∀ pid, e = .persist pid → ∃ i user amount result, a = .persist i ∧
      s.threads[i]? = some (.accepted pid user amount result)) ∧
    (∀ pid, e = .release pid → ∃ i, a = .release i ∧ s.threads[i]? = some (.refused pid)) ∧
    e ≠ .refund := by
  cases a with
  | initiate c user shareCount now =>
      obtain rfl : Effect.reserve = e := by simpa [attempts] using h
      simp
  | persist i =>
      simp only [attempts] at h
      split at h
      · next pid user amount result hi =>
          obtain rfl : Effect.persist pid = e := by simpa using h
          simp [hi]
      · simp at h
  | release i =>
      simp only [attempts] at h
      split at h
      · next pid hi =>
          obtain rfl : Effect.release pid = e := by simpa using h
          simp [hi]
      · simp at h
  | finalize i now hooksOk =>
      simp only [attempts] at h
      split at h
      · simp only [Option.some.injEq, verdictEffect] at h
        split_ifs at h <;> subst h <;> simp
      · simp at h
  | cancelLocked i now =>
      simp only [attempts] at h
      split at h
      · next k hi =>
          obtain rfl : Effect.reject k = e := by simpa using h
          simp
      · simp at h
  | expire i now =>
      simp only [attempts] at h
      split at h
      · next pid copy hi =>
          obtain rfl : Effect.expire pid copy.campaign = e := by simpa using h
          simp
      · simp at h
  | gateway i answer => simp [attempts] at h
  | callback authority => simp [attempts] at h
  | provider i answer => simp [attempts] at h
  | cancel authority => simp [attempts] at h
  | loadStale pid cutoff => simp [attempts] at h

/-- **Step lemma for the threads.** -/
theorem reserving_step {s : Sys} (hw : Wired s.db) (hs : Reserving s) (a : PayAct) :
    Reserving (payStep s a) := by
  by_cases hinit : ∃ c user shareCount now, a = .initiate c user shareCount now
  · obtain ⟨c, user, shareCount, now, rfl⟩ := hinit
    exact reserving_initiate hw hs c user shareCount now
  by_cases hgate : ∃ i answer, a = .gateway i answer
  · obtain ⟨i, answer, rfl⟩ := hgate
    exact reserving_gateway hs i answer
  by_cases hpersist : ∃ i, a = .persist i
  · obtain ⟨i, rfl⟩ := hpersist
    exact reserving_persist hs i
  by_cases hrelease : ∃ i, a = .release i
  · obtain ⟨i, rfl⟩ := hrelease
    exact reserving_release hs i
  push Not at hinit hgate hpersist hrelease
  refine hs.of_same ?_ (initiated_other hinit hgate hpersist hrelease)
  intro pid hattempt
  obtain ⟨i, user, amount, result, rfl, -⟩ := (attempts_pay hattempt).1 pid rfl
  exact hpersist i rfl

/-! ## Runs -/

/-- The rows a commit remembers have not moved on: a payment is stored for a
participation that is still PENDING_PAYMENT, and an expiry does not meet a
SUCCESS payment. -/
def Effect.OnCurrentRow (s : Store) : Effect → Prop
  | .persist pid => ∀ p ∈ s.participations[pid]?, p.status = .pendingPayment
  | .expire pid _ => ∀ pay ∈ s.payments, pay.participation = pid → pay.status ≠ .success
  | _ => True

instance (s : Store) : ∀ e : Effect, Decidable (e.OnCurrentRow s)
  | .persist pid => inferInstanceAs (Decidable (∀ p ∈ s.participations[pid]?, _))
  | .expire _ _ => inferInstanceAs (Decidable (∀ pay ∈ s.payments, _))
  | .reserve | .release _ | .mismatch _ | .reject _ | .succeed _ | .fund | .voidFund | .refund
  | .adjust => isTrue trivial

def ActsOnCurrentRow (s : Sys) (a : PayAct) : Prop :=
  ∀ e ∈ attempts s (.pay a), e.OnCurrentRow s.db

instance (s : Sys) (a : PayAct) : Decidable (ActsOnCurrentRow s a) :=
  inferInstanceAs (Decidable (∀ e ∈ attempts s (.pay a), _))

/-- The invariant behind the agreement. -/
structure Agreed (s : Sys) : Prop where
  wired : Wired s.db
  reserving : Reserving s
  agreement : Agreement s.db

theorem agreed_start (campaigns : List Campaign) : Agreed (start campaigns) := by
  refine ⟨wired_start campaigns, ⟨by simp [initiated, start], by simp [initiated, start]⟩, ?_⟩
  intro pay hpay
  simp [start] at hpay

theorem findsAgreement_of_attempts {s : Sys} {a : PayAct} {e : Effect} (hs : Reserving s)
    (hok : ActsOnCurrentRow s a) (he : attempts s (.pay a) = some e) :
    e.FindsAgreement s.db := by
  obtain ⟨-, hrelease, hrefund⟩ := attempts_pay he
  have hcurrent := hok e he
  cases e with
  | release pid =>
      obtain ⟨i, -, hi⟩ := hrelease pid rfl
      have hmem : pid ∈ initiated s :=
        List.mem_filterMap.mpr ⟨_, List.mem_of_getElem? hi, rfl⟩
      intro pay hpay hpid
      exact (hs.unpaid pid hmem).2 (hpid ▸ List.mem_map_of_mem hpay)
  | persist pid => exact hcurrent
  | expire pid c => exact hcurrent
  | refund => exact absurd rfl hrefund
  | reserve => trivial
  | mismatch k => trivial
  | reject k => trivial
  | succeed k => trivial
  | fund => trivial
  | voidFund => trivial
  | adjust => trivial

theorem agreed_step {s : Sys} {a : PayAct} (hs : Agreed s) (hok : ActsOnCurrentRow s a) :
    Agreed (payStep s a) := by
  refine ⟨wired_step hs.wired _, reserving_step hs.wired hs.reserving a, ?_⟩
  unfold payStep
  rcases step_db s (.pay a) with hsame | ⟨e, he, hcommit⟩
  · rw [hsame]
    exact hs.agreement
  · exact agreement_commit hs.wired hs.agreement
      (findsAgreement_of_attempts hs.reserving hok he) hcommit

/-- **Payment and participation agree** in every state of a run whose expiries
and stored payments act on rows that have not moved on. -/
theorem payment_participation_agree (campaigns : List Campaign) (acts : List PayAct)
    (hok : Along payStep ActsOnCurrentRow (start campaigns) acts) :
    ∀ pre, pre <+: acts → Agreement (run payStep (start campaigns) pre).db := by
  intro pre hpre
  have hagreed : Agreed (run payStep (start campaigns) pre) :=
    invariant_along (fun s a hs => agreed_step hs) (agreed_start campaigns)
      (along_earlier hok hpre)
  exact hagreed.agreement

/-- A payment is stored, and verified; the expiry task loads the participation
before the verification and writes afterwards. -/
def staleExpiry : List PayAct :=
  [.initiate 0 1 2 5, .gateway 0 (some (gatewayYes "A1")), .persist 0, .loadStale 0 30,
    .callback "A1", .provider 2 (some (confirms 2000)), .finalize 2 31 true, .expire 1 32]

/-- The participation expires while the gateway answers. -/
def expiryBeforePersist : List PayAct :=
  [.initiate 0 1 2 5, .gateway 0 (some (gatewayYes "A1")), .loadStale 0 30, .expire 1 31,
    .persist 0]

/-- Up to the late write all is well. -/
theorem agreement_before_staleExpiry :
    Agreement (run payStep (start [tenShares]) (staleExpiry.take 7)).db :=
  payment_participation_agree [tenShares] (staleExpiry.take 7) (by decide) _ (List.prefix_refl _)

/-- A SUCCESS payment with an EXPIRED participation, and a PENDING payment with an
EXPIRED participation. -/
theorem stale_writes_disagree :
    ¬ Agreement (run payStep (start [tenShares]) staleExpiry).db ∧
      ¬ Agreement (run payStep (start [tenShares]) expiryBeforePersist).db := by
  decide

end SetadJang.Madadkar
