import SetadJang.Madadkar.System

/-!
# What a committed transaction can do

`Commit s e t` lists, for every transaction of the system, what it checked and
the store it left.  `step_db` says that a step leaves the database alone or is
one of these commits; every invariant is proved by cases on `Commit` and never
looks into a service again.
-/

namespace SetadJang.Madadkar

open SetadJang.Framework SetadJang.Framework.Txn

/-! ## Stores left by the transactions -/

namespace Store

/-- A payment and its participation go to FAILED. -/
def failed (s : Store) (k : ℕ) (pay : Payment) (c : ℕ) (kind : PaymentEventKind)
    (gatewayStatus : String) (now : ℕ) : Store :=
  let st : Settlement := ⟨.failed, gatewayStatus, none, none, now⟩
  (((s.savePayment k st).addEvent
    (eventFor (pay.settle st) k kind (some pay.status) (some .failed))).saveParticipation
      pay.participation .failed none).sync c

/-- A payment goes to SUCCESS and its participation to PAID. -/
def succeeded (s : Store) (k : ℕ) (pay : Payment) (gatewayStatus refId : String) (now : ℕ) :
    Store :=
  let st : Settlement := ⟨.success, gatewayStatus, some refId, some now, now⟩
  (((s.savePayment k st).addEvent
    (eventFor (pay.settle st) k .verifySuccess (some pay.status) (some .success))).saveParticipation
      pay.participation .paid (some now))

/-- A participation expires together with its pending payment. -/
def expiredWith (s : Store) (pid k : ℕ) (pay : Payment) (now : ℕ) : Store :=
  let st : Settlement := ⟨.failed, "expired", none, none, now⟩
  ((s.saveParticipation pid .expired none).savePayment k st).addEvent
    (eventFor (pay.settle st) k .expired (some .pending) (some .failed))

/-- A ledger line that records no change of status. -/
def noted (s : Store) (k : ℕ) (pay : Payment) (kind : PaymentEventKind) : Store :=
  s.addEvent (eventFor pay k kind (some pay.status) (some pay.status))

end Store

/-- The kinds of commits, with the rows the conditions on runs speak about. -/
inductive Effect where
  | reserve
  | release (pid : ℕ)
  | persist (pid : ℕ)
  | mismatch (k : ℕ)
  | reject (k : ℕ)
  | succeed (k : ℕ)
  | expire (pid c : ℕ)
  | fund
  | voidFund
  | refund
  | adjust
deriving DecidableEq, Repr

/-- **The commits of the system.** -/
inductive Commit (s : Store) : Effect → Store → Prop
  | reserve {c user n now : ℕ} {row : Campaign} (hrow : s.campaigns[c]? = some row)
      (hroom : n ≤ row.remainingShares) (hpos : 1 ≤ n) :
      Commit s .reserve ((s.addParticipation
        ⟨c, user, n, row.sharePrice, n * row.sharePrice, .pendingPayment, now, none⟩).sync c)
  | release {pid : ℕ} {p : Participation} (hp : s.participations[pid]? = some p)
      (hpend : p.status = .pendingPayment) :
      Commit s (.release pid) ((s.saveParticipation pid .failed none).sync p.campaign)
  | persist {pay : Payment} (hpid : pay.participation < s.participations.length)
      (hnew : ∀ q ∈ s.payments, q.participation ≠ pay.participation)
      (hpend : pay.status = .pending) :
      Commit s (.persist pay.participation) ((s.addPayment pay).addEvent
        (Store.eventFor pay s.payments.length .created none (some .pending)))
  | mismatch {k now : ℕ} {pay : Payment} {p : Participation} {gatewayStatus : String}
      (hpay : s.payments[k]? = some pay) (hp : s.participations[pay.participation]? = some p) :
      Commit s (.mismatch k) (s.failed k pay p.campaign .amountMismatch gatewayStatus now)
  | reject {k now : ℕ} {pay : Payment} {p : Participation} {gatewayStatus : String}
      (hpay : s.payments[k]? = some pay) (hp : s.participations[pay.participation]? = some p)
      (hpend : pay.status = .pending) :
      Commit s (.reject k) (s.failed k pay p.campaign .verifyFailed gatewayStatus now)
  | succeed {k now : ℕ} {pay : Payment} {p : Participation} {gatewayStatus refId : String}
      (hpay : s.payments[k]? = some pay) (hp : s.participations[pay.participation]? = some p)
      (hpend : pay.status = .pending) :
      Commit s (.succeed k)
        (((s.succeeded k pay gatewayStatus refId now).sync p.campaign).autoComplete p.campaign)
  | expire {pid c : ℕ}
      (hnone : ∀ pay ∈ s.payments, pay.participation = pid → pay.status ≠ .pending) :
      Commit s (.expire pid c) ((s.saveParticipation pid .expired none).sync c)
  | expireWith {pid c k now : ℕ} {pay : Payment} (hpay : s.payments[k]? = some pay)
      (hpid : pay.participation = pid) (hpend : pay.status = .pending) :
      Commit s (.expire pid c) ((s.expiredWith pid k pay now).sync c)
  | fund {f : ExternalFunding} {row : Campaign} (hrow : s.campaigns[f.campaign]? = some row)
      (hroom : f.shares ≤ row.remainingShares) :
      Commit s .fund (((s.addFunding f).sync f.campaign).autoComplete f.campaign)
  | voidFund {k : ℕ} {f : ExternalFunding} (hf : s.fundings[k]? = some f) :
      Commit s .voidFund ((s.voidFunding k).sync f.campaign)
  | requestRefund {k : ℕ} {pay : Payment} {r : PaymentRefund} (hpay : s.payments[k]? = some pay)
      (hr : r.payment = k) (hpend : r.status = .pendingReview) (hsuccess : pay.status = .success)
      (hcap : completedRefundTotal s k + openRefundTotal s k + r.amount ≤ pay.amount) :
      Commit s .refund ((s.addRefund r).noted k pay .refundRequested)
  | reviewRefund {i : ℕ} {r : PaymentRefund} {pay : Payment} {status : RefundStatus}
      {kind : PaymentEventKind} (hr : s.refunds[i]? = some r)
      (hpend : r.status = .pendingReview) (hpay : s.payments[r.payment]? = some pay)
      (hstatus : status ≠ .completed) :
      Commit s .refund ((s.saveRefund i status none).noted r.payment pay kind)
  | completeRefund {i : ℕ} {r : PaymentRefund} {pay : Payment} {p : Participation}
      {providerRefId : String} (hr : s.refunds[i]? = some r) (happ : r.status = .approved)
      (hpay : s.payments[r.payment]? = some pay)
      (hp : s.participations[pay.participation]? = some p) (hpart : r.amount < pay.amount) :
      Commit s .refund (((s.saveRefund i .completed (some providerRefId)).noted r.payment pay
        .refundCompleted).sync p.campaign)
  | completeFullRefund {i : ℕ} {r : PaymentRefund} {pay : Payment} {p : Participation}
      {providerRefId : String} (hr : s.refunds[i]? = some r) (happ : r.status = .approved)
      (hpay : s.payments[r.payment]? = some pay)
      (hp : s.participations[pay.participation]? = some p) (hfull : pay.amount ≤ r.amount) :
      Commit s .refund ((((s.saveRefund i .completed (some providerRefId)).saveParticipation
        pay.participation .refunded none).noted r.payment pay .refundCompleted).sync p.campaign)
  | createAdjustment {a : CampaignFinancialAdjustment} (hpend : a.status = .pendingReview) :
      Commit s .adjust (s.addAdjustment a)
  | reviewAdjustment {i : ℕ} {a : CampaignFinancialAdjustment}
      {status : FinancialAdjustmentStatus} (ha : s.adjustments[i]? = some a)
      (hpend : a.status = .pendingReview) (hstatus : status ≠ .applied) :
      Commit s .adjust (s.saveAdjustment i status)
  | applyAdjustment {i : ℕ} {a : CampaignFinancialAdjustment} (ha : s.adjustments[i]? = some a)
      (happ : a.status = .approved) (hnone : a.payment = none) :
      Commit s .adjust ((s.saveAdjustment i .applied).sync a.campaign)
  | applyPaymentAdjustment {i k : ℕ} {a : CampaignFinancialAdjustment} {pay : Payment}
      (ha : s.adjustments[i]? = some a) (happ : a.status = .approved)
      (hk : a.payment = some k) (hpay : s.payments[k]? = some pay) :
      Commit s .adjust (((s.saveAdjustment i .applied).noted k pay .adjustmentApplied).sync
        a.campaign)

/-! ## Helpers of the services -/

theorem commits_getCampaign {c : ℕ} {row : Campaign} {s t : Store} :
    Commits (getCampaign c) s row t ↔
      (s.campaigns[c]? = some row ∧ row.isActive = true) ∧ t = s := by
  simp only [getCampaign, commits_bind, commits_get, commits_orRaise, commits_require,
    commits_pure]
  constructor
  · rintro ⟨_, _, ⟨rfl, rfl⟩, row', _, ⟨hrow, rfl⟩, _, _, ⟨hact, rfl⟩, rfl, rfl⟩
    exact ⟨⟨hrow, hact⟩, rfl⟩
  · rintro ⟨⟨hrow, hact⟩, rfl⟩
    exact ⟨t, t, ⟨rfl, rfl⟩, row, t, ⟨hrow, rfl⟩, (), t, ⟨hact, rfl⟩, rfl, rfl⟩

theorem commits_getParticipation {pid : ℕ} {p : Participation} {s t : Store} :
    Commits (getParticipation pid) s p t ↔ s.participations[pid]? = some p ∧ t = s := by
  simp only [getParticipation, commits_bind, commits_get, commits_orRaise]
  constructor
  · rintro ⟨_, _, ⟨rfl, rfl⟩, hp, rfl⟩
    exact ⟨hp, rfl⟩
  · rintro ⟨hp, rfl⟩
    exact ⟨t, t, ⟨rfl, rfl⟩, hp, rfl⟩

theorem commits_getPayment {k : ℕ} {pay : Payment} {s t : Store} :
    Commits (getPayment k) s pay t ↔ s.payments[k]? = some pay ∧ t = s := by
  simp only [getPayment, commits_bind, commits_get, commits_orRaise]
  constructor
  · rintro ⟨_, _, ⟨rfl, rfl⟩, hp, rfl⟩
    exact ⟨hp, rfl⟩
  · rintro ⟨hp, rfl⟩
    exact ⟨t, t, ⟨rfl, rfl⟩, hp, rfl⟩

theorem commits_syncCampaignCounters_iff {c : ℕ} {u : Unit} {s t : Store} :
    Commits (syncCampaignCounters c) s u t ↔
      (∃ row, s.campaigns[c]? = some row ∧ (ledger s c).purchasedShares ≤ row.totalShares) ∧
        t = s.sync c := by
  simp only [syncCampaignCounters, commits_bind, commits_get, commits_orRaise, commits_require,
    commits_modify]
  constructor
  · rintro ⟨_, _, ⟨rfl, rfl⟩, row, _, ⟨hrow, rfl⟩, _, _, ⟨hroom, rfl⟩, rfl⟩
    exact ⟨⟨row, hrow, hroom⟩, rfl⟩
  · rintro ⟨⟨row, hrow, hroom⟩, rfl⟩
    exact ⟨s, s, ⟨rfl, rfl⟩, row, s, ⟨hrow, rfl⟩, (), s, ⟨hroom, rfl⟩, rfl⟩

theorem commits_syncCampaignCounters {c : ℕ} {u : Unit} {s t : Store}
    (h : Commits (syncCampaignCounters c) s u t) : t = s.sync c :=
  (commits_syncCampaignCounters_iff.mp h).2

theorem commits_recordPaymentEvent_iff {k : ℕ} {kind : PaymentEventKind}
    {prev new : Option PaymentStatus} {u : Unit} {s t : Store} :
    Commits (recordPaymentEvent k kind prev new) s u t ↔
      ∃ pay, s.payments[k]? = some pay ∧
        t = s.addEvent (Store.eventFor pay k kind prev new) := by
  simp only [recordPaymentEvent, commits_bind, commits_getPayment, commits_modify]
  constructor
  · rintro ⟨pay, _, ⟨hpay, rfl⟩, rfl⟩
    exact ⟨pay, hpay, rfl⟩
  · rintro ⟨pay, hpay, rfl⟩
    exact ⟨pay, s, ⟨hpay, rfl⟩, rfl⟩

theorem commits_recordPaymentEvent {k : ℕ} {kind : PaymentEventKind}
    {prev new : Option PaymentStatus} {u : Unit} {s t : Store}
    (h : Commits (recordPaymentEvent k kind prev new) s u t) :
    ∃ pay, s.payments[k]? = some pay ∧ t = s.addEvent (Store.eventFor pay k kind prev new) :=
  commits_recordPaymentEvent_iff.mp h

theorem commits_savePaymentRow_iff {k : ℕ} {st : Settlement} {u : Unit} {s t : Store} :
    Commits (savePaymentRow k st) s u t ↔
      (st.gatewayStatus.length ≤ 50 ∧ (st.refId.getD "").length ≤ 100) ∧
        t = s.savePayment k st := by
  simp only [savePaymentRow, commits_bind, commits_require, commits_modify]
  constructor
  · rintro ⟨_, _, ⟨hstatus, rfl⟩, _, _, ⟨href, rfl⟩, rfl⟩
    exact ⟨⟨hstatus, href⟩, rfl⟩
  · rintro ⟨⟨hstatus, href⟩, rfl⟩
    exact ⟨(), s, ⟨hstatus, rfl⟩, (), s, ⟨href, rfl⟩, rfl⟩

theorem commits_savePaymentRow {k : ℕ} {st : Settlement} {u : Unit} {s t : Store}
    (h : Commits (savePaymentRow k st) s u t) : t = s.savePayment k st :=
  (commits_savePaymentRow_iff.mp h).2

/-- Saving a payment and recording its event, as every settlement does. -/
theorem commits_saveAndRecord {k : ℕ} {st : Settlement} {kind : PaymentEventKind}
    {prev new : Option PaymentStatus} {pay : Payment} {u v : Unit} {s s' t : Store}
    (hpay : s.payments[k]? = some pay) (hsave : Commits (savePaymentRow k st) s u s')
    (hrec : Commits (recordPaymentEvent k kind prev new) s' v t) :
    t = (s.savePayment k st).addEvent (Store.eventFor (pay.settle st) k kind prev new) := by
  obtain rfl := commits_savePaymentRow hsave
  obtain ⟨pay', hpay', rfl⟩ := commits_recordPaymentEvent hrec
  have hsettled : pay.settle st = pay' := by simpa [hpay] using hpay'
  rw [hsettled]

theorem commits_failPayment {k : ℕ} {pay : Payment} {p : Participation}
    {kind : PaymentEventKind} {gatewayStatus : String} {now : ℕ} {u : Unit} {s t : Store}
    (hpay : s.payments[k]? = some pay)
    (h : Commits (failPayment k pay p kind gatewayStatus now) s u t) :
    t = s.failed k pay p.campaign kind gatewayStatus now := by
  simp only [failPayment, commits_bind, commits_modify] at h
  obtain ⟨_, s₁, hsave, _, s₂, hrec, _, s₃, rfl, hsync⟩ := h
  rw [commits_syncCampaignCounters hsync, commits_saveAndRecord hpay hsave hrec]
  rfl

/-! ## The payment transactions -/

theorem commits_reserve {c user n now pid : ℕ} {p : Participation} {s t : Store}
    (h : Commits (reserveParticipationShares c user n now) s (pid, p) t) :
    pid = s.participations.length ∧ p.status = .pendingPayment ∧
      t = (s.addParticipation p).sync c ∧ Commit s .reserve t := by
  simp only [reserveParticipationShares, commits_atomic, commits_bind, commits_getCampaign,
    commits_fromExcept, commits_require, commits_get, commits_modify, commits_pure,
    Prod.mk.injEq] at h
  obtain ⟨row, _, ⟨⟨hrow, -⟩, rfl⟩, _, _, ⟨-, rfl⟩, _, _, ⟨hroom, rfl⟩, _, _, ⟨hpos, rfl⟩, _, _,
    ⟨rfl, rfl⟩, _, s₁, rfl, _, s₂, hsync, ⟨rfl, rfl⟩, rfl⟩ := h
  rw [commits_syncCampaignCounters hsync]
  exact ⟨rfl, rfl, rfl, .reserve hrow hroom hpos.1⟩

theorem commit_of_release {pid : ℕ} {s t : Store} {u : Unit}
    (h : Commits (releaseReservedParticipation pid) s u t) :
    t = s ∨ Commit s (.release pid) t := by
  simp only [releaseReservedParticipation, commits_atomic, commits_bind, commits_getParticipation,
    commits_ite, commits_getCampaign, commits_modify, commits_pure] at h
  obtain ⟨p, _, ⟨hp, rfl⟩, ⟨-, -, rfl⟩ | ⟨hpend, row, _, ⟨-, rfl⟩, _, s₁, rfl, hsync⟩⟩ := h
  · exact Or.inl rfl
  · rw [commits_syncCampaignCounters hsync]
    exact Or.inr (.release hp (not_not.mp hpend))

theorem commits_persist {pid user amount : ℕ} {name authority gatewayStatus : String}
    {s t : Store} {k : ℕ}
    (h : Commits (persistInitiatedPayment pid user amount name authority gatewayStatus) s k t) :
    ∃ pay : Payment, pay.participation = pid ∧ pay.amount = amount ∧ pay.status = .pending ∧
      (∀ q ∈ s.payments, q.participation ≠ pid) ∧ pid < s.participations.length ∧
      t = (s.addPayment pay).addEvent
        (Store.eventFor pay s.payments.length .created none (some .pending)) := by
  simp only [persistInitiatedPayment, commits_atomic, commits_bind, commits_get, commits_require,
    commits_modify, commits_pure] at h
  obtain ⟨_, _, ⟨rfl, rfl⟩, _, _, ⟨hnew, rfl⟩, _, _, ⟨hpid, rfl⟩, _, _, ⟨-, rfl⟩, _, _, ⟨-, rfl⟩,
    _, s₁, rfl, _, s₂, hrec, -, rfl⟩ := h
  obtain ⟨pay, hpay, rfl⟩ := commits_recordPaymentEvent hrec
  simp only [Store.addPayment_payments, List.getElem?_concat_length, Option.some.injEq] at hpay
  simp only [List.all_eq_true, Bool.and_eq_true, bne_iff_ne, ne_eq] at hnew
  refine ⟨pay, by rw [← hpay], by rw [← hpay], by rw [← hpay], ?_, hpid, by rw [hpay]⟩
  intro q hq
  exact (hnew q hq).1

theorem commit_of_persist {pid user amount : ℕ} {name authority gatewayStatus : String}
    {s t : Store} {k : ℕ}
    (h : Commits (persistInitiatedPayment pid user amount name authority gatewayStatus) s k t) :
    Commit s (.persist pid) t := by
  obtain ⟨pay, rfl, -, hpend, hnew, hpid, rfl⟩ := commits_persist h
  exact .persist hpid hnew hpend

theorem commit_of_mismatch {k now : ℕ} {result : PaymentVerifyResult} {s t : Store} {u : Unit}
    (h : Commits (rejectMismatchedPayment k result now) s u t) : Commit s (.mismatch k) t := by
  simp only [rejectMismatchedPayment, commits_atomic, commits_bind, commits_getPayment,
    commits_getParticipation, commits_getCampaign] at h
  obtain ⟨pay, _, ⟨hpay, rfl⟩, p, _, ⟨hp, rfl⟩, row, _, ⟨-, rfl⟩, hfail⟩ := h
  rw [commits_failPayment hpay hfail]
  exact .mismatch hpay hp

/-- The effect a verification that does not report a foreign amount attempts. -/
def verdictEffect (k : ℕ) (result : PaymentVerifyResult) : Effect :=
  if result.success = true then .succeed k else .reject k

theorem commit_of_finalize {k now : ℕ} {result : PaymentVerifyResult} {hooksOk : Bool}
    {s t : Store} {u : Unit} (h : Commits (finalizeVerifiedPayment k result now hooksOk) s u t) :
    t = s ∨ Commit s (verdictEffect k result) t := by
  simp only [finalizeVerifiedPayment, commits_atomic, commits_bind, commits_getPayment,
    commits_ite, commits_getParticipation, commits_getCampaign, commits_modify, commits_require,
    commits_pure] at h
  obtain ⟨pay, _, ⟨hpay, rfl⟩, ⟨-, -, rfl⟩ | ⟨hpend, p, _, ⟨hp, rfl⟩, row, _, ⟨-, rfl⟩,
    ⟨hfail, h⟩ | ⟨hok, _, s₁, hsave, _, s₂, hrec, _, s₃, rfl, _, s₄, hsync, _, s₅, rfl, -, rfl⟩⟩⟩ := h
  · exact Or.inl rfl
  · rw [commits_failPayment hpay h, verdictEffect, if_neg (by simp [hfail])]
    exact Or.inr (.reject hpay hp (not_not.mp hpend))
  · rw [commits_syncCampaignCounters hsync, commits_saveAndRecord hpay hsave hrec, verdictEffect,
      if_pos (by simpa using hok)]
    exact Or.inr (.succeed hpay hp (not_not.mp hpend))

theorem commit_of_cancel {k now : ℕ} {s t : Store} {u : Unit}
    (h : Commits (cancelLockedPayment k now) s u t) : t = s ∨ Commit s (.reject k) t := by
  simp only [cancelLockedPayment, commits_atomic, commits_bind, commits_getPayment, commits_ite,
    commits_getParticipation, commits_getCampaign, commits_pure] at h
  obtain ⟨pay, _, ⟨hpay, rfl⟩, ⟨-, -, rfl⟩ | ⟨hpend, p, _, ⟨hp, rfl⟩, row, _, ⟨-, rfl⟩, h⟩⟩ := h
  · exact Or.inl rfl
  · rw [commits_failPayment hpay h]
    exact Or.inr (.reject hpay hp (not_not.mp hpend))

theorem pendingPaymentOf_eq_some {s : Store} {pid k : ℕ} (h : pendingPaymentOf s pid = some k) :
    ∃ pay, s.payments[k]? = some pay ∧ pay.participation = pid ∧ pay.status = .pending := by
  obtain ⟨hk, hpay, -⟩ := List.findIdx?_eq_some_iff_getElem.mp h
  simp only [Bool.and_eq_true, beq_iff_eq] at hpay
  exact ⟨s.payments[k], List.getElem?_eq_getElem hk, hpay.1, hpay.2⟩

theorem pendingPaymentOf_eq_none {s : Store} {pid : ℕ} (h : pendingPaymentOf s pid = none) :
    ∀ pay ∈ s.payments, pay.participation = pid → pay.status ≠ .pending := by
  intro pay hpay hpid hpend
  have := List.findIdx?_eq_none_iff.mp h pay hpay
  simp [hpid, hpend] at this

theorem commit_of_expire {pid now : ℕ} {copy : Participation} {s t : Store} {u : Unit}
    (h : Commits (expireStaleParticipation pid copy now) s u t) :
    t = s ∨ copy.status = .pendingPayment ∧ Commit s (.expire pid copy.campaign) t := by
  simp only [expireStaleParticipation, commits_atomic, commits_bind, commits_ite,
    commits_getCampaign, commits_modify, commits_get, commits_pure] at h
  obtain ⟨-, -, rfl⟩ | ⟨hpend, row, s', ⟨-, rfl⟩, _, s₁, rfl, _, s₂, ⟨rfl, rfl⟩, h⟩ := h
  · exact Or.inl rfl
  refine Or.inr ⟨not_not.mp hpend, ?_⟩
  cases hk : pendingPaymentOf (s'.saveParticipation pid .expired none) pid with
  | none =>
      simp only [hk] at h
      rw [commits_syncCampaignCounters h]
      exact .expire (pendingPaymentOf_eq_none hk)
  | some k =>
      simp only [hk, commits_bind] at h
      obtain ⟨_, s₃, hsave, _, s₄, hrec, hsync⟩ := h
      obtain ⟨pay, hpay, hpid, hstatus⟩ := pendingPaymentOf_eq_some hk
      rw [commits_syncCampaignCounters hsync, commits_saveAndRecord hpay hsave hrec]
      exact .expireWith hpay hpid hstatus

/-! ## The other transactions -/

theorem commits_recordExternalFunding {c : ℕ} {passedStatus : CampaignStatus} {shares : ℤ}
    {amount : Option ℤ} {cleanOk : Bool} {s t : Store} {k : ℕ}
    (h : Commits (recordExternalFunding c passedStatus shares amount cleanOk) s k t) :
    ∃ (f : ExternalFunding) (row : Campaign), f.campaign = c ∧ f.shares = shares.toNat ∧
      s.campaigns[c]? = some row ∧ f.shares ≤ row.remainingShares ∧
      t = ((s.addFunding f).sync c).autoComplete c := by
  simp only [recordExternalFunding, commits_atomic, commits_bind, commits_require,
    commits_getCampaign, commits_get, commits_modify, commits_pure] at h
  obtain ⟨_, _, ⟨-, rfl⟩, _, _, ⟨hpos, rfl⟩, _, _, ⟨-, rfl⟩, row, _, ⟨⟨hrow, -⟩, rfl⟩, _, _,
    ⟨hroom, rfl⟩, _, _, ⟨-, rfl⟩, _, _, ⟨rfl, rfl⟩, _, s₁, rfl, _, s₂, hsync, _, s₃, rfl, -,
    rfl⟩ := h
  rw [commits_syncCampaignCounters hsync]
  exact ⟨_, row, rfl, rfl, hrow, by simpa using hroom, rfl⟩

theorem commit_of_recordExternalFunding {c : ℕ} {passedStatus : CampaignStatus} {shares : ℤ}
    {amount : Option ℤ} {cleanOk : Bool} {s t : Store} {k : ℕ}
    (h : Commits (recordExternalFunding c passedStatus shares amount cleanOk) s k t) :
    Commit s .fund t := by
  obtain ⟨f, row, rfl, -, hrow, hroom, rfl⟩ := commits_recordExternalFunding h
  exact .fund hrow hroom

theorem commit_of_voidExternalFunding {k : ℕ} {s t : Store} {u : Unit}
    (h : Commits (voidExternalFunding k) s u t) : Commit s .voidFund t := by
  simp only [voidExternalFunding, commits_atomic, commits_bind, commits_get, commits_orRaise,
    commits_require, commits_getCampaign, commits_modify] at h
  obtain ⟨_, _, ⟨rfl, rfl⟩, f, _, ⟨hf, rfl⟩, _, _, ⟨-, rfl⟩, row, _, ⟨-, rfl⟩, _, s₁, rfl,
    hsync⟩ := h
  rw [commits_syncCampaignCounters hsync]
  exact .voidFund hf

/-- A ledger line copies the stored payment. -/
theorem commits_note {s t : Store} {k : ℕ} {pay : Payment} {kind : PaymentEventKind} {u : Unit}
    (hpay : s.payments[k]? = some pay)
    (h : Commits (recordPaymentEvent k kind (some pay.status) (some pay.status)) s u t) :
    t = s.noted k pay kind := by
  obtain ⟨pay', hpay', rfl⟩ := commits_recordPaymentEvent h
  rw [hpay, Option.some.injEq] at hpay'
  rw [← hpay']
  rfl

/-- What a request may still take of a payment. -/
def refundableRemainder (s : Store) (k : ℕ) (pay : Payment) : ℤ :=
  (pay.amount : ℤ) - completedRefundTotal s k - openRefundTotal s k

/-- A request that is granted: the refund stored under its key, or a new one. -/
theorem commits_requestPaymentRefund_iff {k : ℕ} {amount : ℤ} {key : Option String}
    {hooksOk : Bool} {s t : Store} {r : ℕ} :
    Commits (requestPaymentRefund k amount key hooksOk) s r t ↔
      ∃ pay, s.payments[k]? = some pay ∧ pay.status = .success ∧ 0 < amount ∧
        amount ≤ refundableRemainder s k pay ∧
        ((refundByKey s key = some r ∧ t = s) ∨
          (refundByKey s key = none ∧
            (∀ key' ∈ key, (s.refunds.all fun r => r.idempotencyKey != some key') = true) ∧
            (∀ key' ∈ key, key'.length ≤ 120) ∧ hooksOk = true ∧ r = s.refunds.length ∧
            t = (s.addRefund ⟨k, amount.toNat, .pendingReview, key, ""⟩).noted k pay
              .refundRequested)) := by
  simp only [requestPaymentRefund, commits_atomic, commits_bind, commits_getPayment,
    commits_require, commits_get]
  constructor
  · rintro ⟨pay, _, ⟨hpay, rfl⟩, _, _, ⟨hsuccess, rfl⟩, _, _, ⟨hpos, rfl⟩, _, _, ⟨rfl, rfl⟩, _, s',
      ⟨hroom, rfl⟩, h⟩
    refine ⟨pay, hpay, hsuccess, hpos, hroom, ?_⟩
    cases hkey : refundByKey s' key with
    | some existing =>
        simp only [hkey, commits_pure] at h
        exact Or.inl ⟨by rw [h.1], h.2⟩
    | none =>
        simp only [hkey, commits_bind, commits_require, commits_modify, commits_pure] at h
        obtain ⟨_, _, ⟨hnew, rfl⟩, _, _, ⟨hwidth, rfl⟩, _, s₁, rfl, _, s₂, hrec, _, _,
          ⟨hhooks, rfl⟩, rfl, rfl⟩ := h
        rw [commits_note (by simpa using hpay) hrec]
        exact Or.inr ⟨rfl, hnew, hwidth, hhooks, rfl, rfl⟩
  · rintro ⟨pay, hpay, hsuccess, hpos, hroom, hanswer⟩
    refine ⟨pay, s, ⟨hpay, rfl⟩, (), s, ⟨hsuccess, rfl⟩, (), s, ⟨hpos, rfl⟩, s, s, ⟨rfl, rfl⟩, (),
      s, ⟨hroom, rfl⟩, ?_⟩
    rcases hanswer with ⟨hkey, rfl⟩ | ⟨hkey, hnew, hwidth, hhooks, rfl, rfl⟩
    · simp [hkey, commits_pure]
    · rw [hkey]
      simp only [commits_bind, commits_require, commits_modify, commits_pure]
      exact ⟨(), s, ⟨hnew, rfl⟩, (), s, ⟨hwidth, rfl⟩, ⟨⟩, _, rfl, (), _,
        commits_recordPaymentEvent_iff.mpr ⟨pay, hpay, rfl⟩, (), _, ⟨hhooks, rfl⟩, trivial, rfl⟩

theorem commit_of_requestPaymentRefund {k : ℕ} {amount : ℤ} {key : Option String}
    {hooksOk : Bool} {s t : Store} {r : ℕ}
    (h : Commits (requestPaymentRefund k amount key hooksOk) s r t) :
    t = s ∨ Commit s .refund t := by
  obtain ⟨pay, hpay, hsuccess, hpos, hroom, ⟨-, rfl⟩ | ⟨-, -, -, -, -, rfl⟩⟩ :=
    commits_requestPaymentRefund_iff.mp h
  · exact Or.inl rfl
  · rw [refundableRemainder] at hroom
    refine Or.inr (.requestRefund hpay rfl rfl hsuccess ?_)
    simp only
    omega

theorem commits_reviewPaymentRefund_iff {i : ℕ} {status : RefundStatus} {kind : PaymentEventKind}
    {refusal : String} {s t : Store} {u : Unit} :
    Commits (reviewPaymentRefund i status kind refusal) s u t ↔
      ∃ r pay, s.refunds[i]? = some r ∧ r.status = .pendingReview ∧
        s.payments[r.payment]? = some pay ∧
        t = (s.saveRefund i status none).noted r.payment pay kind := by
  simp only [reviewPaymentRefund, commits_atomic, commits_bind, commits_get, commits_orRaise,
    commits_require, commits_getPayment, commits_modify]
  constructor
  · rintro ⟨_, _, ⟨rfl, rfl⟩, r, _, ⟨hr, rfl⟩, _, _, ⟨hpend, rfl⟩, pay, _, ⟨hpay, rfl⟩, _, s₁, rfl,
      hrec⟩
    exact ⟨r, pay, hr, hpend, hpay, commits_note (by simpa using hpay) hrec⟩
  · rintro ⟨r, pay, hr, hpend, hpay, rfl⟩
    exact ⟨s, s, ⟨rfl, rfl⟩, r, s, ⟨hr, rfl⟩, (), s, ⟨hpend, rfl⟩, pay, s, ⟨hpay, rfl⟩, ⟨⟩, _, rfl,
      commits_recordPaymentEvent_iff.mpr ⟨pay, hpay, rfl⟩⟩

theorem commit_of_reviewPaymentRefund {i : ℕ} {status : RefundStatus} {kind : PaymentEventKind}
    {refusal : String} {s t : Store} {u : Unit} (hstatus : status ≠ .completed)
    (h : Commits (reviewPaymentRefund i status kind refusal) s u t) : Commit s .refund t := by
  obtain ⟨r, pay, hr, hpend, hpay, rfl⟩ := commits_reviewPaymentRefund_iff.mp h
  exact .reviewRefund hr hpend hpay hstatus

/-- The store a completion leaves, before the counters are computed again. -/
def Store.refunded (s : Store) (i : ℕ) (r : PaymentRefund) (pay : Payment)
    (providerRefId : String) : Store :=
  if pay.amount ≤ r.amount then
    ((s.saveRefund i .completed (some providerRefId)).saveParticipation pay.participation .refunded
      none).noted r.payment pay .refundCompleted
  else
    (s.saveRefund i .completed (some providerRefId)).noted r.payment pay .refundCompleted

theorem commits_completePaymentRefund_iff {i : ℕ} {providerRefId : String} {s t : Store}
    {u : Unit} :
    Commits (completePaymentRefund i providerRefId) s u t ↔
      ∃ r pay p row, s.refunds[i]? = some r ∧ r.status = .approved ∧
        s.payments[r.payment]? = some pay ∧ s.participations[pay.participation]? = some p ∧
        s.campaigns[p.campaign]? = some row ∧ row.isActive = true ∧ providerRefId.length ≤ 120 ∧
        (ledger (s.refunded i r pay providerRefId) p.campaign).purchasedShares ≤ row.totalShares ∧
        t = (s.refunded i r pay providerRefId).sync p.campaign := by
  simp only [completePaymentRefund, commits_atomic, commits_bind, commits_get, commits_orRaise,
    commits_require, commits_getPayment, commits_getParticipation, commits_getCampaign,
    commits_modify, commits_ite, commits_syncCampaignCounters_iff]
  constructor
  · rintro ⟨_, _, ⟨rfl, rfl⟩, r, _, ⟨hr, rfl⟩, _, _, ⟨happ, rfl⟩, pay, _, ⟨hpay, rfl⟩, p, _,
      ⟨hp, rfl⟩, row, _, ⟨⟨hrow, hactive⟩, rfl⟩, _, _, ⟨hwidth, rfl⟩, _, s₁, rfl, h⟩
    refine ⟨r, pay, p, row, hr, happ, hpay, hp, hrow, hactive, hwidth, ?_⟩
    rcases h with ⟨hfull, _, s₂, rfl, _, s₃, hrec, ⟨row', hrow', hroom⟩, rfl⟩ |
      ⟨hpart, _, s₃, hrec, ⟨row', hrow', hroom⟩, rfl⟩
    · obtain rfl := commits_note (by simpa using hpay) hrec
      obtain rfl : row = row' := Option.some.inj (hrow.symm.trans hrow')
      rw [Store.refunded, if_pos hfull]
      exact ⟨hroom, rfl⟩
    · obtain rfl := commits_note (by simpa using hpay) hrec
      obtain rfl : row = row' := Option.some.inj (hrow.symm.trans hrow')
      rw [Store.refunded, if_neg hpart]
      exact ⟨hroom, rfl⟩
  · rintro ⟨r, pay, p, row, hr, happ, hpay, hp, hrow, hactive, hwidth, hroom, rfl⟩
    refine ⟨s, s, ⟨rfl, rfl⟩, r, s, ⟨hr, rfl⟩, (), s, ⟨happ, rfl⟩, pay, s, ⟨hpay, rfl⟩, p, s,
      ⟨hp, rfl⟩, row, s, ⟨⟨hrow, hactive⟩, rfl⟩, (), s, ⟨hwidth, rfl⟩, ⟨⟩, _, rfl, ?_⟩
    by_cases hfull : pay.amount ≤ r.amount
    · rw [Store.refunded, if_pos hfull] at hroom ⊢
      exact Or.inl ⟨hfull, ⟨⟩, _, rfl, (), _, commits_recordPaymentEvent_iff.mpr ⟨pay, hpay, rfl⟩,
        ⟨row, hrow, hroom⟩, rfl⟩
    · rw [Store.refunded, if_neg hfull] at hroom ⊢
      exact Or.inr ⟨hfull, (), _, commits_recordPaymentEvent_iff.mpr ⟨pay, hpay, rfl⟩,
        ⟨row, hrow, hroom⟩, rfl⟩

theorem commit_of_completePaymentRefund {i : ℕ} {providerRefId : String} {s t : Store} {u : Unit}
    (h : Commits (completePaymentRefund i providerRefId) s u t) : Commit s .refund t := by
  obtain ⟨r, pay, p, row, hr, happ, hpay, hp, -, -, -, -, rfl⟩ :=
    commits_completePaymentRefund_iff.mp h
  by_cases hfull : pay.amount ≤ r.amount
  · rw [Store.refunded, if_pos hfull]
    exact .completeFullRefund hr happ hpay hp hfull
  · rw [Store.refunded, if_neg hfull]
    exact .completeRefund hr happ hpay hp (by omega)

theorem commit_of_createFinancialAdjustment {c : ℕ} {payment : Option ℕ} {amount : ℤ}
    {ty : FinancialAdjustmentType} {s t : Store} {k : ℕ}
    (h : Commits (createFinancialAdjustment c payment amount ty) s k t) : Commit s .adjust t := by
  simp only [createFinancialAdjustment, commits_atomic, commits_bind, commits_get,
    commits_require, commits_modify, commits_pure] at h
  obtain ⟨_, _, ⟨-, rfl⟩, _, _, ⟨rfl, rfl⟩, _, _, ⟨-, rfl⟩, _, _, ⟨-, rfl⟩, _, s₁, rfl, -,
    rfl⟩ := h
  exact .createAdjustment rfl

theorem commit_of_reviewFinancialAdjustment {i : ℕ} {status : FinancialAdjustmentStatus}
    {refusal : String} {s t : Store} {u : Unit} (hstatus : status ≠ .applied)
    (h : Commits (reviewFinancialAdjustment i status refusal) s u t) : Commit s .adjust t := by
  simp only [reviewFinancialAdjustment, commits_atomic, commits_bind, commits_get,
    commits_orRaise, commits_require, commits_modify] at h
  obtain ⟨_, _, ⟨rfl, rfl⟩, a, _, ⟨ha, rfl⟩, _, _, ⟨hpend, rfl⟩, rfl⟩ := h
  exact .reviewAdjustment ha hpend hstatus

theorem commit_of_applyFinancialAdjustment {i : ℕ} {hooksOk : Bool} {s t : Store} {u : Unit}
    (h : Commits (applyFinancialAdjustment i hooksOk) s u t) : Commit s .adjust t := by
  simp only [applyFinancialAdjustment, commits_atomic, commits_bind, commits_get,
    commits_orRaise, commits_require, commits_getCampaign, commits_modify] at h
  obtain ⟨_, _, ⟨rfl, rfl⟩, a, _, ⟨ha, rfl⟩, _, _, ⟨happ, rfl⟩, row, _, ⟨-, rfl⟩, _, s₁, rfl,
    h⟩ := h
  cases hk : a.payment with
  | none =>
      simp only [hk, commits_bind, commits_require] at h
      obtain ⟨_, s₂, hsync, -, rfl⟩ := h
      rw [commits_syncCampaignCounters hsync]
      exact .applyAdjustment ha happ hk
  | some k =>
      simp only [hk, commits_bind, commits_getPayment, commits_require] at h
      obtain ⟨pay, _, ⟨hpay, rfl⟩, _, s₂, hrec, _, s₃, hsync, -, rfl⟩ := h
      rw [commits_syncCampaignCounters hsync, commits_note hpay hrec]
      exact .applyPaymentAdjustment ha happ hk (by simpa using hpay)

/-! ## Steps -/

/-- The effect a step has on the database, if it commits. -/
def attempts (s : Sys) : Act → Option Effect
  | .pay (.initiate ..) => some .reserve
  | .pay (.persist i) =>
      match s.threads[i]? with
      | some (.accepted pid ..) => some (.persist pid)
      | _ => none
  | .pay (.release i) =>
      match s.threads[i]? with
      | some (.refused pid) => some (.release pid)
      | _ => none
  | .pay (.finalize i _ _) =>
      match s.threads[i]? with
      | some (.verified k amount result) =>
          some (if result.mismatches amount then .mismatch k else verdictEffect k result)
      | _ => none
  | .pay (.cancelLocked i _) =>
      match s.threads[i]? with
      | some (.cancelling k) => some (.reject k)
      | _ => none
  | .pay (.expire i _) =>
      match s.threads[i]? with
      | some (.expiring pid copy) => some (.expire pid copy.campaign)
      | _ => none
  | .pay _ => none
  | .fin (.recordExternalFunding ..) => some .fund
  | .fin (.voidExternalFunding _) => some .voidFund
  | .fin (.requestRefund ..) => some .refund
  | .fin (.approveRefund _) => some .refund
  | .fin (.rejectRefund _) => some .refund
  | .fin (.completeRefund ..) => some .refund
  | .fin (.createAdjustment ..) => some .adjust
  | .fin (.approveAdjustment _) => some .adjust
  | .fin (.rejectAdjustment _) => some .adjust
  | .fin (.applyAdjustment ..) => some .adjust

theorem allOrNothing_transaction (s : Sys) (a : Act) : AllOrNothing (transaction s a) := by
  cases a with
  | pay a =>
      cases a with
      | initiate c user shareCount now =>
          exact allOrNothing_ite (allOrNothing_throw _)
            (allOrNothing_bind_pure (allOrNothing_atomic _) _)
      | persist i =>
          simp only [transaction, payTransaction]
          split
          · exact allOrNothing_bind_pure (allOrNothing_atomic _) _
          · exact allOrNothing_pure ()
      | release i =>
          simp only [transaction, payTransaction]
          split
          · exact allOrNothing_atomic _
          · exact allOrNothing_pure ()
      | finalize i now hooksOk =>
          simp only [transaction, payTransaction]
          split
          · exact allOrNothing_ite (allOrNothing_atomic _) (allOrNothing_atomic _)
          · exact allOrNothing_pure ()
      | cancelLocked i now =>
          simp only [transaction, payTransaction]
          split
          · exact allOrNothing_atomic _
          · exact allOrNothing_pure ()
      | expire i now =>
          simp only [transaction, payTransaction]
          split
          · exact allOrNothing_atomic _
          · exact allOrNothing_pure ()
      | gateway i answer => exact allOrNothing_pure ()
      | callback authority => exact allOrNothing_pure ()
      | provider i answer => exact allOrNothing_pure ()
      | cancel authority => exact allOrNothing_pure ()
      | loadStale pid cutoff => exact allOrNothing_pure ()
  | fin a =>
      cases a with
      | recordExternalFunding c passedStatus shares amount cleanOk =>
          exact allOrNothing_bind_pure (allOrNothing_atomic _) _
      | requestRefund k amount idempotencyKey hooksOk =>
          exact allOrNothing_bind_pure (allOrNothing_atomic _) _
      | createAdjustment c payment amount ty =>
          exact allOrNothing_bind_pure (allOrNothing_atomic _) _
      | voidExternalFunding k => exact allOrNothing_atomic _
      | approveRefund r => exact allOrNothing_atomic _
      | rejectRefund r => exact allOrNothing_atomic _
      | completeRefund r providerRefId => exact allOrNothing_atomic _
      | approveAdjustment a => exact allOrNothing_atomic _
      | rejectAdjustment a => exact allOrNothing_atomic _
      | applyAdjustment a hooksOk => exact allOrNothing_atomic _

/-- Dropping a result. -/
theorem commits_of_drop {α : Type} {m : Txn Store MadadkarError α} {s t : Store} {u : Unit}
    (h : Commits (m >>= fun _ => pure ()) s u t) : ∃ a, Commits m s a t := by
  simp only [commits_bind, commits_pure] at h
  obtain ⟨a, _, hm, -, rfl⟩ := h
  exact ⟨a, hm⟩

theorem commit_of_payTransaction {s : Sys} {a : PayAct} {t : Store} {u : Unit}
    (h : Commits (payTransaction s a) s.db u t) :
    t = s.db ∨ ∃ e, attempts s (.pay a) = some e ∧ Commit s.db e t := by
  cases a with
  | initiate c user shareCount now =>
      simp only [payTransaction, commits_ite, commits_throw, and_false, false_or] at h
      obtain ⟨r, hr⟩ := commits_of_drop h.2
      exact Or.inr ⟨_, rfl, (commits_reserve hr).2.2.2⟩
  | persist i =>
      simp only [payTransaction] at h
      split at h
      · next pid user amount result hthread =>
          obtain ⟨r, hr⟩ := commits_of_drop h
          exact Or.inr ⟨_, by simp only [attempts, hthread], commit_of_persist hr⟩
      · exact Or.inl (commits_pure.mp h).2
  | release i =>
      simp only [payTransaction] at h
      split at h
      · next pid hthread =>
          exact (commit_of_release h).imp_right fun hc =>
            ⟨_, by simp only [attempts, hthread], hc⟩
      · exact Or.inl (commits_pure.mp h).2
  | finalize i now hooksOk =>
      simp only [payTransaction] at h
      split at h
      · next k amount result hthread =>
          by_cases hm : result.mismatches amount = true
          · rw [if_pos hm] at h
            exact Or.inr ⟨_, by simp only [attempts, hthread, hm, if_true], commit_of_mismatch h⟩
          · rw [if_neg hm] at h
            exact (commit_of_finalize h).imp_right fun hc =>
              ⟨_, by simp only [attempts, hthread, hm]; rfl, hc⟩
      · exact Or.inl (commits_pure.mp h).2
  | cancelLocked i now =>
      simp only [payTransaction] at h
      split at h
      · next k hthread =>
          exact (commit_of_cancel h).imp_right fun hc =>
            ⟨_, by simp only [attempts, hthread], hc⟩
      · exact Or.inl (commits_pure.mp h).2
  | expire i now =>
      simp only [payTransaction] at h
      split at h
      · next pid copy hthread =>
          exact (commit_of_expire h).imp_right fun hc =>
            ⟨_, by simp only [attempts, hthread], hc.2⟩
      · exact Or.inl (commits_pure.mp h).2
  | gateway i answer => exact Or.inl (commits_pure.mp h).2
  | callback authority => exact Or.inl (commits_pure.mp h).2
  | provider i answer => exact Or.inl (commits_pure.mp h).2
  | cancel authority => exact Or.inl (commits_pure.mp h).2
  | loadStale pid cutoff => exact Or.inl (commits_pure.mp h).2

theorem commit_of_finTransaction {s : Sys} {a : FinAct} {t : Store} {u : Unit}
    (h : Commits (finTransaction a) s.db u t) :
    t = s.db ∨ ∃ e, attempts s (.fin a) = some e ∧ Commit s.db e t := by
  cases a with
  | recordExternalFunding c passedStatus shares amount cleanOk =>
      obtain ⟨r, hr⟩ := commits_of_drop h
      exact Or.inr ⟨_, rfl, commit_of_recordExternalFunding hr⟩
  | voidExternalFunding k => exact Or.inr ⟨_, rfl, commit_of_voidExternalFunding h⟩
  | requestRefund k amount idempotencyKey hooksOk =>
      obtain ⟨r, hr⟩ := commits_of_drop h
      exact (commit_of_requestPaymentRefund hr).imp_right fun hc => ⟨_, rfl, hc⟩
  | approveRefund r =>
      exact Or.inr ⟨_, rfl, commit_of_reviewPaymentRefund (by decide) h⟩
  | rejectRefund r =>
      exact Or.inr ⟨_, rfl, commit_of_reviewPaymentRefund (by decide) h⟩
  | completeRefund r providerRefId =>
      exact Or.inr ⟨_, rfl, commit_of_completePaymentRefund h⟩
  | createAdjustment c payment amount ty =>
      obtain ⟨r, hr⟩ := commits_of_drop h
      exact Or.inr ⟨_, rfl, commit_of_createFinancialAdjustment hr⟩
  | approveAdjustment a =>
      exact Or.inr ⟨_, rfl, commit_of_reviewFinancialAdjustment (by decide) h⟩
  | rejectAdjustment a =>
      exact Or.inr ⟨_, rfl, commit_of_reviewFinancialAdjustment (by decide) h⟩
  | applyAdjustment a hooksOk => exact Or.inr ⟨_, rfl, commit_of_applyFinancialAdjustment h⟩

/-- **Step inversion.** A step leaves the database alone or is one commit of the
kind it attempts. -/
theorem step_db (s : Sys) (a : Act) :
    (step s a).db = s.db ∨ ∃ e, attempts s a = some e ∧ Commit s.db e (step s a).db := by
  rcases allOrNothing_transaction s a s.db with hsame | ⟨u, hcommit⟩
  · exact Or.inl hsame
  · cases a with
    | pay a => exact commit_of_payTransaction hcommit
    | fin a => exact commit_of_finTransaction hcommit

/-! ## Columns of a campaign -/

section Columns

variable {β : Type} {g : Campaign → β} (hcounters : ∀ row k, g (row.withCounters k) = g row)
  {s t : Store} {e : Effect}

include hcounters

theorem column_sync (s : Store) (c : ℕ) : (s.sync c).campaigns.map g = s.campaigns.map g :=
  map_modify_same (fun row => hcounters row _) s.campaigns c

/-- Only a success and a funding write more of a campaign than its counters. -/
theorem column_commit_of_ne (h : Commit s e t) (hsucceed : ∀ k, e ≠ .succeed k)
    (hfund : e ≠ .fund) : t.campaigns.map g = s.campaigns.map g := by
  have hsync := column_sync hcounters
  cases h with
  | succeed hpay hp hpend => exact absurd rfl (hsucceed _)
  | fund hrow hroom => exact absurd rfl hfund
  | reserve hrow hroom hpos => exact hsync _ _
  | release hp hpend => exact hsync _ _
  | persist hpid hnew hpend => rfl
  | mismatch hpay hp => exact hsync _ _
  | reject hpay hp hpend => exact hsync _ _
  | expire hnone => exact hsync _ _
  | expireWith hpay hpid hpend => exact hsync _ _
  | voidFund hf => exact hsync _ _
  | requestRefund hpay hr hpend => rfl
  | reviewRefund hr hpend hpay hstatus => rfl
  | completeRefund hr happ hpay hp hpart => exact hsync _ _
  | completeFullRefund hr happ hpay hp hfull => exact hsync _ _
  | createAdjustment hpend => rfl
  | reviewAdjustment ha hpend hstatus => rfl
  | applyAdjustment ha happ hnone => exact hsync _ _
  | applyPaymentAdjustment ha happ hk hpay => exact hsync _ _

/-- Every commit leaves a column alone that is neither a counter nor the status. -/
theorem column_commit (hstatus : ∀ row : Campaign, g { row with status := .completed } = g row)
    (h : Commit s e t) : t.campaigns.map g = s.campaigns.map g := by
  have hauto : ∀ (u : Store) (c : ℕ), (u.autoComplete c).campaigns.map g = u.campaigns.map g := by
    intro u c
    refine map_modify_same ?_ u.campaigns c
    intro row
    split_ifs
    · exact hstatus row
    · rfl
  by_cases hplain : (∀ k, e ≠ .succeed k) ∧ e ≠ .fund
  · exact column_commit_of_ne hcounters h hplain.1 hplain.2
  · cases h with
    | succeed hpay hp hpend => exact (hauto _ _).trans (column_sync hcounters _ _)
    | fund hrow hroom => exact (hauto _ _).trans (column_sync hcounters _ _)
    | _ => exact absurd ⟨nofun, nofun⟩ hplain

end Columns

end SetadJang.Madadkar
