import Mathlib.Data.List.Nodup
import SetadJang.Madadkar.Effects

/-!
# Referential integrity

What every commit keeps regardless of the order of the calls: rows stay under
their keys with the columns no service writes, foreign keys point to rows that
exist, a participation has at most one payment.  The threads are tied to the
rows they read.
-/

namespace SetadJang.Madadkar

open SetadJang.Framework SetadJang.Framework.Txn

/-! ## Columns that are never written -/

def SameParticipation (p q : Participation) : Prop :=
  q.campaign = p.campaign ∧ q.user = p.user ∧ q.shareCount = p.shareCount ∧
    q.totalAmount = p.totalAmount

def SamePayment (p q : Payment) : Prop :=
  q.participation = p.participation ∧ q.amount = p.amount

theorem sameParticipation_refl (p : Participation) : SameParticipation p p :=
  ⟨rfl, rfl, rfl, rfl⟩

theorem sameParticipation_withStatus (status : ParticipationStatus) (paidAt : Option ℕ)
    (p : Participation) : SameParticipation p (p.withStatus status paidAt) :=
  ⟨rfl, rfl, rfl, rfl⟩

theorem samePayment_refl (p : Payment) : SamePayment p p := ⟨rfl, rfl⟩

theorem samePayment_settle (st : Settlement) (p : Payment) : SamePayment p (p.settle st) :=
  ⟨rfl, rfl⟩

/-- Participations and payments keep their identity. -/
structure Stable (s t : Store) : Prop where
  participations : Evolves SameParticipation s.participations t.participations
  payments : Evolves SamePayment s.payments t.payments

theorem stable_refl (s : Store) : Stable s s :=
  ⟨evolves_refl sameParticipation_refl _, evolves_refl samePayment_refl _⟩

theorem evolves_saveParticipation (ps : List Participation) (pid : ℕ)
    (status : ParticipationStatus) (paidAt : Option ℕ) :
    Evolves SameParticipation ps (ps.modify pid (·.withStatus status paidAt)) :=
  evolves_modify sameParticipation_refl fun p _ => sameParticipation_withStatus status paidAt p

theorem evolves_savePayment (pays : List Payment) (k : ℕ) (st : Settlement) :
    Evolves SamePayment pays (pays.modify k (·.settle st)) :=
  evolves_modify samePayment_refl fun pay _ => samePayment_settle st pay

theorem stable_commit {s t : Store} {e : Effect} (h : Commit s e t) : Stable s t := by
  have hps := evolves_refl sameParticipation_refl s.participations
  have hpays := evolves_refl samePayment_refl s.payments
  cases h with
  | reserve hrow hroom hpos => exact ⟨evolves_append sameParticipation_refl _ _, hpays⟩
  | release hp hpend => exact ⟨evolves_saveParticipation _ _ _ _, hpays⟩
  | persist hpid hnew hpend => exact ⟨hps, evolves_append samePayment_refl _ _⟩
  | mismatch hpay hp => exact ⟨evolves_saveParticipation _ _ _ _, evolves_savePayment _ _ _⟩
  | reject hpay hp hpend =>
      exact ⟨evolves_saveParticipation _ _ _ _, evolves_savePayment _ _ _⟩
  | succeed hpay hp hpend =>
      exact ⟨evolves_saveParticipation _ _ _ _, evolves_savePayment _ _ _⟩
  | expire hnone => exact ⟨evolves_saveParticipation _ _ _ _, hpays⟩
  | expireWith hpay hpid hpend =>
      exact ⟨evolves_saveParticipation _ _ _ _, evolves_savePayment _ _ _⟩
  | completeFullRefund hr happ hpay hp hfull =>
      exact ⟨evolves_saveParticipation _ _ _ _, hpays⟩
  | fund hrow hroom => exact ⟨hps, hpays⟩
  | voidFund hf => exact ⟨hps, hpays⟩
  | requestRefund hpay hr hpend => exact ⟨hps, hpays⟩
  | reviewRefund hr hpend hpay hstatus => exact ⟨hps, hpays⟩
  | completeRefund hr happ hpay hp hpart => exact ⟨hps, hpays⟩
  | createAdjustment hpend => exact ⟨hps, hpays⟩
  | reviewAdjustment ha hpend hstatus => exact ⟨hps, hpays⟩
  | applyAdjustment ha happ hnone => exact ⟨hps, hpays⟩
  | applyPaymentAdjustment ha happ hk hpay => exact ⟨hps, hpays⟩

theorem stable_step (s : Sys) (a : Act) : Stable s.db (step s a).db := by
  rcases step_db s a with hsame | ⟨e, -, hcommit⟩
  · rw [hsame]
    exact stable_refl s.db
  · exact stable_commit hcommit

/-! ## Foreign keys -/

/-- Foreign keys resolve, and the one-to-one key of a payment is unique. -/
structure Wired (s : Store) : Prop where
  payment_participation : ∀ pid ∈ s.payments.map Payment.participation,
    pid < s.participations.length
  payment_unique : (s.payments.map Payment.participation).Nodup
  refund_payment : ∀ k ∈ s.refunds.map PaymentRefund.payment, k < s.payments.length
  event_payment : ∀ k ∈ s.events.map PaymentEvent.payment, k < s.payments.length

theorem map_participation_savePayment (pays : List Payment) (k : ℕ) (st : Settlement) :
    (pays.modify k (·.settle st)).map Payment.participation = pays.map Payment.participation := by
  refine map_modify_same ?_ pays k
  intro pay
  rfl

theorem map_payment_saveRefund (rs : List PaymentRefund) (i : ℕ) (status : RefundStatus)
    (ref : Option String) :
    (rs.modify i fun r =>
      { r with status := status, providerRefId := ref.getD r.providerRefId }).map
        PaymentRefund.payment = rs.map PaymentRefund.payment := by
  refine map_modify_same ?_ rs i
  intro r
  rfl

theorem lt_length_of_getElem? {α : Type} {xs : List α} {k : ℕ} {a : α} (h : xs[k]? = some a) :
    k < xs.length :=
  (List.getElem?_eq_some_iff.mp h).1

/-- A commit that adds at most one event, for a payment that exists, and leaves
the keys alone. -/
theorem Wired.of_keys {s t : Store} (hs : Wired s)
    (hps : t.participations.length = s.participations.length)
    (hpays : t.payments.map Payment.participation = s.payments.map Payment.participation)
    (hrefunds : t.refunds.map PaymentRefund.payment = s.refunds.map PaymentRefund.payment)
    (hevents : ∀ e ∈ t.events, e ∈ s.events ∨ e.payment < s.payments.length) : Wired t := by
  have hlen : t.payments.length = s.payments.length := by
    simpa using congrArg List.length hpays
  refine ⟨?_, ?_, ?_, ?_⟩
  · rw [hpays, hps]
    exact hs.payment_participation
  · rw [hpays]
    exact hs.payment_unique
  · rw [hrefunds, hlen]
    exact hs.refund_payment
  · intro k hk
    obtain ⟨e, he, rfl⟩ := List.mem_map.mp hk
    rw [hlen]
    rcases hevents e he with hold | hnew
    · exact hs.event_payment _ (List.mem_map_of_mem hold)
    · exact hnew

theorem mem_concat_event {es : List PaymentEvent} {e e' : PaymentEvent} {n : ℕ}
    (he : e ∈ es ++ [e']) (hn : e'.payment < n) : e ∈ es ∨ e.payment < n := by
  rcases List.mem_append.mp he with hold | hnew
  · exact Or.inl hold
  · exact Or.inr (by simpa [List.mem_singleton.mp hnew] using hn)

/-- A new payment refers to a participation that has none yet, its event to it. -/
theorem Wired.persisted {s : Store} (hs : Wired s) {pay : Payment}
    (hpid : pay.participation < s.participations.length)
    (hnew : ∀ q ∈ s.payments, q.participation ≠ pay.participation) :
    Wired ((s.addPayment pay).addEvent
      (Store.eventFor pay s.payments.length .created none (some .pending))) := by
  have hfresh : pay.participation ∉ s.payments.map Payment.participation := by
    intro hmem
    obtain ⟨q, hq, heq⟩ := List.mem_map.mp hmem
    exact hnew q hq heq
  refine ⟨?_, ?_, ?_, ?_⟩
  · intro pid hmem
    simp only [Store.addEvent_payments, Store.addPayment_payments, List.map_append,
      List.map_cons, List.map_nil, List.mem_append, List.mem_singleton] at hmem
    rcases hmem with hold | rfl
    · exact hs.payment_participation pid hold
    · exact hpid
  · simpa [List.nodup_append] using ⟨hs.payment_unique, by simpa using hfresh⟩
  · intro k hk
    have hlt := hs.refund_payment k hk
    simp only [Store.addEvent_payments, Store.addPayment_payments, List.length_append,
      List.length_singleton]
    omega
  · intro k hk
    simp only [Store.addEvent_events, Store.addPayment_events, List.map_append, List.map_cons,
      List.map_nil, List.mem_append, List.mem_singleton] at hk
    simp only [Store.addEvent_payments, Store.addPayment_payments, List.length_append,
      List.length_singleton]
    rcases hk with hold | rfl
    · have hlt := hs.event_payment k hold
      omega
    · simp [Store.eventFor]

/-- A new refund and its event refer to a stored payment. -/
theorem Wired.refundRequested {s : Store} (hs : Wired s) {k : ℕ} {pay : Payment}
    {r : PaymentRefund} (hpay : s.payments[k]? = some pay) (hr : r.payment = k) :
    Wired ((s.addRefund r).noted k pay .refundRequested) := by
  refine ⟨hs.payment_participation, hs.payment_unique, ?_, ?_⟩
  · intro i hi
    simp only [Store.noted, Store.addEvent_refunds, Store.addRefund_refunds, List.map_append,
      List.map_cons, List.map_nil, List.mem_append, List.mem_singleton] at hi
    rcases hi with hold | rfl
    · exact hs.refund_payment i hold
    · rw [hr]
      exact lt_length_of_getElem? hpay
  · intro i hi
    obtain ⟨e, he, rfl⟩ := List.mem_map.mp hi
    rcases mem_concat_event he (lt_length_of_getElem? hpay) with hold | hnew
    · exact hs.event_payment _ (List.mem_map_of_mem hold)
    · exact hnew

theorem wired_commit {s t : Store} {e : Effect} (hs : Wired s) (h : Commit s e t) :
    Wired t := by
  cases h with
  | reserve hrow hroom hpos =>
      refine ⟨?_, hs.payment_unique, hs.refund_payment, hs.event_payment⟩
      intro pid hpid
      have := hs.payment_participation pid hpid
      simp only [Store.sync_participations, Store.addParticipation_participations,
        List.length_append, List.length_singleton]
      omega
  | release hp hpend =>
      exact hs.of_keys (by simp) rfl rfl fun e he => Or.inl he
  | persist hpid hnew hpend => exact hs.persisted hpid hnew
  | mismatch hpay hp =>
      exact hs.of_keys (by simp [Store.failed]) (map_participation_savePayment _ _ _) rfl
        fun e he => mem_concat_event he (lt_length_of_getElem? hpay)
  | reject hpay hp hpend =>
      exact hs.of_keys (by simp [Store.failed]) (map_participation_savePayment _ _ _) rfl
        fun e he => mem_concat_event he (lt_length_of_getElem? hpay)
  | succeed hpay hp hpend =>
      exact hs.of_keys (by simp [Store.succeeded]) (map_participation_savePayment _ _ _) rfl
        fun e he => mem_concat_event he (lt_length_of_getElem? hpay)
  | expire hnone => exact hs.of_keys (by simp) rfl rfl fun e he => Or.inl he
  | expireWith hpay hpid hpend =>
      exact hs.of_keys (by simp [Store.expiredWith]) (map_participation_savePayment _ _ _) rfl
        fun e he => mem_concat_event he (lt_length_of_getElem? hpay)
  | fund hrow hroom => exact hs.of_keys rfl rfl rfl fun e he => Or.inl he
  | voidFund hf => exact hs.of_keys rfl rfl rfl fun e he => Or.inl he
  | requestRefund hpay hr hpend => exact hs.refundRequested hpay hr
  | reviewRefund hr hpend hpay hstatus =>
      exact hs.of_keys rfl rfl (map_payment_saveRefund _ _ _ _)
        fun e he => mem_concat_event he (lt_length_of_getElem? hpay)
  | completeRefund hr happ hpay hp hpart =>
      exact hs.of_keys rfl rfl (map_payment_saveRefund _ _ _ _)
        fun e he => mem_concat_event he (lt_length_of_getElem? hpay)
  | completeFullRefund hr happ hpay hp hfull =>
      exact hs.of_keys (by simp [Store.noted]) rfl (map_payment_saveRefund _ _ _ _)
        fun e he => mem_concat_event he (lt_length_of_getElem? hpay)
  | createAdjustment hpend => exact hs.of_keys rfl rfl rfl fun e he => Or.inl he
  | reviewAdjustment ha hpend hstatus => exact hs.of_keys rfl rfl rfl fun e he => Or.inl he
  | applyAdjustment ha happ hnone => exact hs.of_keys rfl rfl rfl fun e he => Or.inl he
  | applyPaymentAdjustment ha happ hk hpay =>
      exact hs.of_keys rfl rfl rfl
        fun e he => mem_concat_event he (lt_length_of_getElem? hpay)

theorem wired_step {s : Sys} (hs : Wired s.db) (a : Act) : Wired (step s a).db := by
  rcases step_db s a with hsame | ⟨e, -, hcommit⟩
  · rw [hsame]
    exact hs
  · exact wired_commit hs hcommit

theorem wired_start (campaigns : List Campaign) : Wired (start campaigns).db :=
  ⟨by simp [start], by simp [start], by simp [start], by simp [start]⟩

/-- Two payments of one participation are the same payment. -/
theorem Wired.payment_key {s : Store} (hs : Wired s) {k k' : ℕ} {pay pay' : Payment}
    (hpay : s.payments[k]? = some pay) (hpay' : s.payments[k']? = some pay')
    (hpid : pay.participation = pay'.participation) : k = k' := by
  have hlen : k < (s.payments.map Payment.participation).length := by
    simpa using lt_length_of_getElem? hpay
  refine (List.getElem?_inj hlen hs.payment_unique).mp ?_
  simp [hpay, hpay', hpid]

/-! ## Threads -/

/-- What a thread that a step starts or moves on has read. -/
inductive Spawned (s : Sys) : Thread → Prop
  | done : Spawned s .done
  | reserved {c user n now pid : ℕ} {p : Participation} {t : Store}
      (h : Commits (reserveParticipationShares c user n now) s.db (pid, p) t) :
      Spawned s (.reserved pid user p.totalAmount)
  | accepted {pid user amount : ℕ} {result : PaymentRequestResult}
      (h : Thread.reserved pid user amount ∈ s.threads) :
      Spawned s (.accepted pid user amount result)
  | refused {pid user amount : ℕ} (h : Thread.reserved pid user amount ∈ s.threads) :
      Spawned s (.refused pid)
  | verifying {k : ℕ} {pay : Payment} (h : s.db.payments[k]? = some pay) :
      Spawned s (.verifying k pay.amount)
  | verified {k amount : ℕ} {result : PaymentVerifyResult}
      (h : Thread.verifying k amount ∈ s.threads) : Spawned s (.verified k amount result)
  | cancelling {k : ℕ} {pay : Payment} (h : s.db.payments[k]? = some pay) :
      Spawned s (.cancelling k)
  | expiring {pid : ℕ} {p : Participation} (h : s.db.participations[pid]? = some p)
      (hpend : p.status = .pendingPayment) : Spawned s (.expiring pid p)

theorem mem_of_mem_set {s : Sys} {i : ℕ} {th th' : Thread} (h : th ∈ s.threads.set i th')
    (hnew : Spawned s th') : th ∈ s.threads ∨ Spawned s th := by
  rcases List.mem_or_eq_of_mem_set h with hold | rfl
  · exact Or.inl hold
  · exact Or.inr hnew

theorem mem_of_mem_concat {s : Sys} {th th' : Thread} (h : th ∈ s.threads ++ [th'])
    (hnew : Spawned s th') : th ∈ s.threads ∨ Spawned s th := by
  rcases List.mem_append.mp h with hold | hnew'
  · exact Or.inl hold
  · exact Or.inr (List.mem_singleton.mp hnew' ▸ hnew)

/-- **Thread inversion.** A thread after a step was there before or is one that
the step started or moved on. -/
theorem mem_threadsAfter {s : Sys} {a : Act} {th : Thread} (h : th ∈ threadsAfter s a) :
    th ∈ s.threads ∨ Spawned s th := by
  cases a with
  | fin a => exact Or.inl h
  | pay a =>
      cases a with
      | initiate c user shareCount now =>
          simp only [threadsAfter] at h
          split_ifs at h
          · exact Or.inl h
          · rcases hexec : exec (reserveParticipationShares c user shareCount.toNat now) s.db
              with ⟨r, t⟩
            rw [hexec] at h
            cases r with
            | error e => exact Or.inl h
            | ok r => exact mem_of_mem_concat h (.reserved hexec)
      | gateway i answer =>
          simp only [threadsAfter] at h
          split at h
          · next pid user amount result hthread =>
              refine mem_of_mem_set h ?_
              split_ifs
              · exact .accepted (List.mem_of_getElem? hthread)
              · exact .refused (List.mem_of_getElem? hthread)
          · next pid user amount hthread =>
              exact mem_of_mem_set h (.refused (List.mem_of_getElem? hthread))
          · exact Or.inl h
      | persist i =>
          simp only [threadsAfter] at h
          split at h
          · exact mem_of_mem_set h .done
          · exact Or.inl h
      | release i =>
          simp only [threadsAfter] at h
          split at h
          · exact mem_of_mem_set h .done
          · exact Or.inl h
      | callback authority =>
          simp only [threadsAfter] at h
          split at h
          · split at h
            · next pay hpay =>
                split_ifs at h
                · exact mem_of_mem_concat h (.verifying hpay)
                · exact Or.inl h
            · exact Or.inl h
          · exact Or.inl h
      | provider i answer =>
          simp only [threadsAfter] at h
          split at h
          · next k amount result hthread =>
              exact mem_of_mem_set h (.verified (List.mem_of_getElem? hthread))
          · exact mem_of_mem_set h .done
          · exact Or.inl h
      | finalize i now hooksOk =>
          simp only [threadsAfter] at h
          split at h
          · exact mem_of_mem_set h .done
          · exact Or.inl h
      | cancel authority =>
          simp only [threadsAfter] at h
          split at h
          · split at h
            · next pay hpay =>
                split_ifs at h
                · exact mem_of_mem_concat h (.cancelling hpay)
                · exact Or.inl h
            · exact Or.inl h
          · exact Or.inl h
      | cancelLocked i now =>
          simp only [threadsAfter] at h
          split at h
          · exact mem_of_mem_set h .done
          · exact Or.inl h
      | loadStale pid cutoff =>
          simp only [threadsAfter] at h
          split at h
          · next p hp =>
              split_ifs at h with hstale
              · exact mem_of_mem_concat h (.expiring hp hstale.1)
              · exact Or.inl h
          · exact Or.inl h
      | expire i now =>
          simp only [threadsAfter] at h
          split at h
          · exact mem_of_mem_set h .done
          · exact Or.inl h

/-- The expiry threads hold copies of rows of the same campaign. -/
def CopiesAligned (s : Sys) : Prop :=
  ∀ pid copy, Thread.expiring pid copy ∈ s.threads →
    ∃ p, s.db.participations[pid]? = some p ∧ p.campaign = copy.campaign

theorem copiesAligned_step {s : Sys} (hs : CopiesAligned s) (a : Act) :
    CopiesAligned (step s a) := by
  intro pid copy hmem
  have hold : ∃ p, s.db.participations[pid]? = some p ∧ p.campaign = copy.campaign := by
    rcases mem_threadsAfter hmem with hold | hnew
    · exact hs pid copy hold
    · cases hnew with
      | expiring hp hpend => exact ⟨copy, hp, rfl⟩
  obtain ⟨p, hp, hc⟩ := hold
  obtain ⟨p', hp', hsame⟩ := (stable_step s a).participations pid p hp
  exact ⟨p', hp', hsame.1.trans hc⟩

/-- An expiry is attempted on the campaign of the row it overwrites. -/
theorem CopiesAligned.of_attempts {s : Sys} (hs : CopiesAligned s) {a : Act} {pid c : ℕ}
    (h : attempts s a = some (.expire pid c)) :
    ∃ p, s.db.participations[pid]? = some p ∧ p.campaign = c := by
  cases a with
  | fin a => cases a <;> simp [attempts] at h
  | pay a =>
      cases a with
      | expire i now =>
          simp only [attempts] at h
          split at h
          · next pid' copy hthread =>
              obtain ⟨rfl, rfl⟩ : pid' = pid ∧ copy.campaign = c := by simpa using h
              exact hs pid' copy (List.mem_of_getElem? hthread)
          · simp at h
      | finalize i now hooksOk =>
          simp only [attempts] at h
          split at h
          · simp only [Option.some.injEq, verdictEffect] at h
            split_ifs at h
          · simp at h
      | persist i =>
          simp only [attempts] at h
          split at h <;> simp at h
      | release i =>
          simp only [attempts] at h
          split at h <;> simp at h
      | cancelLocked i now =>
          simp only [attempts] at h
          split at h <;> simp at h
      | initiate c user shareCount now => simp [attempts] at h
      | gateway i answer => simp [attempts] at h
      | callback authority => simp [attempts] at h
      | provider i answer => simp [attempts] at h
      | cancel authority => simp [attempts] at h
      | loadStale pid cutoff => simp [attempts] at h

end SetadJang.Madadkar
