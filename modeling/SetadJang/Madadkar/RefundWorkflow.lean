import SetadJang.Madadkar.Refunds
import SetadJang.Madadkar.Transparency

/-!
# Refunds of one payment, call after call

`request_payment_refund`, `approve_payment_refund`, `reject_payment_refund` and
`complete_payment_refund` in any order, with the two things the callers rely on.
A participation is to be REFUNDED when its payment has gone back: a completion
decides this from the amount of the one refund it completes.  A request is to be
repeated safely under its key: the room that is left is checked before the key is
looked up, and the key does not say which payment it was used for.
-/

namespace SetadJang.Madadkar

open SetadJang.Framework SetadJang.Framework.Txn

inductive RefundCall where
  | request (k : ℕ) (amount : ℤ) (idempotencyKey : Option String) (hooksOk : Bool)
  | approve (r : ℕ)
  | reject (r : ℕ)
  | complete (r : ℕ) (providerRefId : String)
deriving DecidableEq, Repr

def refundStep (s : Store) : RefundCall → Store
  | .request k amount idempotencyKey hooksOk =>
      after (requestPaymentRefund k amount idempotencyKey hooksOk) s
  | .approve r => after (approvePaymentRefund r) s
  | .reject r => after (rejectPaymentRefund r) s
  | .complete r providerRefId => after (completePaymentRefund r providerRefId) s

/-- **Step inversion.** A refund call leaves the store alone or commits. -/
theorem refundStep_cases (s : Store) (c : RefundCall) :
    refundStep s c = s ∨ Commit s .refund (refundStep s c) := by
  cases c with
  | request k amount idempotencyKey hooksOk =>
      rcases allOrNothing_atomic _ s with hsame | ⟨r, hcommit⟩
      · exact Or.inl hsame
      · exact commit_of_requestPaymentRefund hcommit
  | approve r =>
      exact (allOrNothing_atomic _ s).imp_right fun ⟨_, hcommit⟩ =>
        commit_of_reviewPaymentRefund (by decide) hcommit
  | reject r =>
      exact (allOrNothing_atomic _ s).imp_right fun ⟨_, hcommit⟩ =>
        commit_of_reviewPaymentRefund (by decide) hcommit
  | complete r providerRefId =>
      exact (allOrNothing_atomic _ s).imp_right fun ⟨_, hcommit⟩ =>
        commit_of_completePaymentRefund hcommit

/-- What refund commits keep, refund calls keep. -/
theorem refundStep_keeps {P : Store → Prop} {s : Store} (hs : P s)
    (h : ∀ t, Commit s .refund t → P t) (c : RefundCall) : P (refundStep s c) := by
  rcases refundStep_cases s c with hsame | hcommit
  · rw [hsame]
    exact hs
  · exact h _ hcommit

theorem payments_refund {s t : Store} (h : Commit s .refund t) : t.payments = s.payments := by
  cases h <;> rfl

/-! ## The payment while it is refunded -/

/-- A successful payment whose campaign can store a completion. -/
structure Donation (k : ℕ) (pay : Payment) (s : Store) : Prop where
  payment : s.payments[k]? = some pay
  wired : Wired s
  cap : RefundCap s
  storable : ∃ p row, s.participations[pay.participation]? = some p ∧
    s.campaigns[p.campaign]? = some row ∧ row.isActive = true ∧
    reservedShares s.participations p.campaign ≤ row.totalShares

theorem reservedShares_refund {s t : Store} (h : Commit s .refund t) (c : ℕ) :
    reservedShares t.participations c ≤ reservedShares s.participations c := by
  cases h with
  | completeFullRefund hr happ hpay hp hfull =>
      apply sumWhere_modify_le
      · exact fun _ => rfl
      · intro p _ hreserved
        simp [Participation.reservedIn, Participation.withStatus, ParticipationStatus.isReserved]
          at hreserved
  | requestRefund hpay hr hpend => exact Nat.le_refl _
  | reviewRefund hr hpend hpay hstatus => exact Nat.le_refl _
  | completeRefund hr happ hpay hp hpart => exact Nat.le_refl _

theorem Donation.commit {k : ℕ} {pay : Payment} {s t : Store} (hd : Donation k pay s)
    (h : Commit s .refund t) : Donation k pay t := by
  refine ⟨by rw [payments_refund h, hd.payment], wired_commit hd.wired h,
    refundCap_commit hd.wired hd.cap h, ?_⟩
  obtain ⟨p, row, hp, hrow, hactive, hroom⟩ := hd.storable
  obtain ⟨p', hp', hcampaign, -, -, -⟩ := (stable_commit h).participations _ p hp
  have hcolumns := column_commit (g := fun row => (row.isActive, row.totalShares))
    (fun _ _ => rfl) (fun _ => rfl) h
  obtain ⟨row', hrow', hsame⟩ := exists_row_of_map_eq hcolumns.symm hrow
  obtain ⟨hactive', htotal'⟩ := Prod.mk.inj hsame
  refine ⟨p', row', hp', by rw [hcampaign, hrow'], by rw [← hactive', hactive], ?_⟩
  rw [hcampaign, ← htotal']
  exact (reservedShares_refund h _).trans hroom

theorem Donation.step {k : ℕ} {pay : Payment} {s : Store} (hd : Donation k pay s)
    (c : RefundCall) : Donation k pay (refundStep s c) :=
  refundStep_keeps hd (fun _ h => hd.commit h) c

/-! ## Refunded and repaid -/

/-- The participation of the payment is REFUNDED. -/
def IsRefunded (s : Store) (pay : Payment) : Prop :=
  s.participations[pay.participation]?.map Participation.status = some .refunded

instance (s : Store) (pay : Payment) : Decidable (IsRefunded s pay) :=
  inferInstanceAs (Decidable (_ = _))

/-- REFUNDED says that the completed refunds add up to the payment. -/
def RefundedMeansRepaid (k : ℕ) (s : Store) : Prop :=
  ∀ pay ∈ s.payments[k]?, (IsRefunded s pay ↔ completedRefundTotal s k = pay.amount)

instance (k : ℕ) (s : Store) : Decidable (RefundedMeansRepaid k s) :=
  inferInstanceAs (Decidable (∀ pay ∈ s.payments[k]?, _))

theorem refundedMeansRepaid_iff {k : ℕ} {s : Store} {pay : Payment}
    (hpay : s.payments[k]? = some pay) :
    RefundedMeansRepaid k s ↔ (IsRefunded s pay ↔ completedRefundTotal s k = pay.amount) := by
  rw [RefundedMeansRepaid, hpay]
  simp only [Option.mem_some_iff, forall_eq']

/-- The call completes a refund of a part of the payment, and with it everything has gone back. -/
def RepaysByPart (k : ℕ) (s : Store) : RefundCall → Prop
  | .complete r providerRefId => ∃ x ∈ s.refunds[r]?, ∃ pay ∈ s.payments[k]?,
      x.payment = k ∧ x.status = .approved ∧ providerRefId.length ≤ 120 ∧ 0 < x.amount ∧
        x.amount < pay.amount ∧ completedRefundTotal s k + x.amount = pay.amount
  | _ => False

instance (k : ℕ) (s : Store) : ∀ c, Decidable (RepaysByPart k s c)
  | .complete r _ => inferInstanceAs (Decidable (∃ x ∈ s.refunds[r]?, ∃ pay ∈ s.payments[k]?, _))
  | .request .. => inferInstanceAs (Decidable False)
  | .approve _ => inferInstanceAs (Decidable False)
  | .reject _ => inferInstanceAs (Decidable False)

theorem refunded_refunds (s : Store) (i : ℕ) (r : PaymentRefund) (pay : Payment) (ref : String) :
    (s.refunded i r pay ref).refunds = (s.saveRefund i .completed (some ref)).refunds := by
  unfold Store.refunded
  split <;> rfl

theorem refunded_participations (s : Store) (i : ℕ) (r : PaymentRefund) (pay : Payment)
    (ref : String) :
    (s.refunded i r pay ref).participations = if pay.amount ≤ r.amount then
      s.participations.modify pay.participation (·.withStatus .refunded none)
      else s.participations := by
  unfold Store.refunded
  split <;> rfl

/-- A call that pays nothing out. -/
theorem RefundedMeansRepaid.of_same {k : ℕ} {s t : Store} (hs : RefundedMeansRepaid k s)
    (hpays : t.payments = s.payments) (hps : t.participations = s.participations)
    (htotal : completedRefundTotal t k = completedRefundTotal s k) : RefundedMeansRepaid k t := by
  intro pay hpay
  rw [hpays] at hpay
  rw [htotal, IsRefunded, hps]
  exact hs pay hpay

theorem completedRefundTotal_request (s : Store) {r : PaymentRefund} (hpend : r.status = .pendingReview)
    (j : ℕ) (pay : Payment) (kind : PaymentEventKind) (k : ℕ) :
    completedRefundTotal ((s.addRefund r).noted j pay kind) k = completedRefundTotal s k := by
  show sumWhere _ _ (s.refunds ++ [r]) = _
  rw [sumWhere_append, if_neg (by simp [PaymentRefund.ofPayment, hpend])]
  rfl

theorem completedRefundTotal_review {s : Store} {i : ℕ} {r : PaymentRefund} {status : RefundStatus}
    (hr : s.refunds[i]? = some r) (hpend : r.status = .pendingReview) (hstatus : status ≠ .completed)
    (j : ℕ) (pay : Payment) (kind : PaymentEventKind) (k : ℕ) :
    completedRefundTotal ((s.saveRefund i status none).noted j pay kind) k =
      completedRefundTotal s k := by
  have hmove := completedRefundTotal_move (t := (s.saveRefund i status none).noted j pay kind) hr
    (by simp [hpend]) rfl k
  rw [hmove, if_neg fun h => hstatus h.2, Nat.add_zero]

/-- The participation of another payment is another participation. -/
theorem isRefunded_refunded_of_ne {k : ℕ} {pay pay' : Payment} {s : Store} (hw : Wired s)
    (hpay : s.payments[k]? = some pay) {i : ℕ} {x : PaymentRefund}
    (hpay' : s.payments[x.payment]? = some pay') (hne : x.payment ≠ k) (ref : String) (c : ℕ) :
    IsRefunded ((s.refunded i x pay' ref).sync c) pay ↔ IsRefunded s pay := by
  have hother : pay'.participation ≠ pay.participation := by
    intro heq
    exact hne (hw.payment_key hpay' hpay heq)
  rw [IsRefunded, Store.sync_participations, refunded_participations]
  split_ifs
  · rw [List.getElem?_modify_ne _ _ hother, IsRefunded]
  · rfl

theorem isRefunded_refunded {s : Store} {pay : Payment} {p : Participation}
    (hp : s.participations[pay.participation]? = some p) (i : ℕ) (x : PaymentRefund) (ref : String)
    (c : ℕ) :
    IsRefunded ((s.refunded i x pay ref).sync c) pay ↔ pay.amount ≤ x.amount ∨ IsRefunded s pay := by
  rw [IsRefunded, Store.sync_participations, refunded_participations]
  split_ifs with hfull
  · simp [hp, hfull, Participation.withStatus]
  · simp only [hfull, false_or]
    rfl

/-- **A completion.** It keeps the status in step unless it pays out the last part. -/
theorem refundedMeansRepaid_complete_iff {k : ℕ} {pay pay' : Payment} {s : Store}
    (hd : Donation k pay s) (hs : RefundedMeansRepaid k s) {i : ℕ} {x : PaymentRefund}
    (hx : s.refunds[i]? = some x) (happ : x.status = .approved)
    (hpay' : s.payments[x.payment]? = some pay') {ref : String} {c : ℕ}
    (hafter : Donation k pay ((s.refunded i x pay' ref).sync c)) :
    RefundedMeansRepaid k ((s.refunded i x pay' ref).sync c) ↔
      ¬ (x.payment = k ∧ 0 < x.amount ∧ x.amount < pay.amount ∧
        completedRefundTotal s k + x.amount = pay.amount) := by
  have hmove := completedRefundTotal_move (t := (s.refunded i x pay' ref).sync c) hx
    (by simp [happ]) (refunded_refunds s i x pay' ref) k
  have hcap := hafter.cap k pay hafter.payment
  rw [claimedRefunds_eq, hmove] at hcap
  have hbefore := hs pay hd.payment
  rw [refundedMeansRepaid_iff hafter.payment, hmove]
  -- a refund of another payment moves neither the status nor the total
  by_cases hk : x.payment = k
  · obtain ⟨p, -, hp, -⟩ := hd.storable
    obtain rfl : pay' = pay := Option.some.inj (hpay'.symm.trans (hk ▸ hd.payment))
    rw [if_pos ⟨hk, rfl⟩] at hcap ⊢
    rw [isRefunded_refunded hp, hbefore]
    constructor
    · rintro hiff ⟨-, hpos, hpart, hsum⟩
      have := hiff.mpr hsum
      omega
    · intro hnot
      constructor
      · intro h
        omega
      · intro hsum
        by_contra hlow
        exact hnot ⟨hk, by omega, by omega, hsum⟩
  · rw [if_neg fun h => hk h.1, isRefunded_refunded_of_ne hd.wired hd.payment hpay' hk, Nat.add_zero]
    exact iff_of_true hbefore fun h => hk h.1

/-- Such a completion is never refused. -/
theorem RepaysByPart.returns {k : ℕ} {pay : Payment} {s : Store} (hd : Donation k pay s) {r : ℕ}
    {providerRefId : String} (h : RepaysByPart k s (.complete r providerRefId)) :
    Returns (completePaymentRefund r providerRefId) s := by
  obtain ⟨x, hx, pay', hpay', rfl, happ, hwidth, -, hpart, -⟩ := h
  obtain ⟨p, row, hp, hrow, hactive, hroom⟩ := hd.storable
  obtain rfl : pay' = pay := Option.some.inj (hpay'.symm.trans hd.payment)
  refine ⟨(), _, commits_completePaymentRefund_iff.mpr
    ⟨x, pay', p, row, hx, happ, hpay', hp, hrow, hactive, hwidth, ?_, rfl⟩⟩
  show reservedShares (s.refunded r x pay' providerRefId).participations p.campaign ≤ _
  rw [refunded_participations, if_neg (by omega)]
  exact hroom

/-- **Step lemma.** -/
theorem refundedMeansRepaid_step_iff {k : ℕ} {pay : Payment} {s : Store} (hd : Donation k pay s)
    (hs : RefundedMeansRepaid k s) (c : RefundCall) :
    RefundedMeansRepaid k (refundStep s c) ↔ ¬ RepaysByPart k s c := by
  cases c with
  | request j amount idempotencyKey hooksOk =>
      refine iff_of_true ((allOrNothing_atomic _).preserves hs fun r t h => ?_) not_false
      obtain ⟨q, -, -, -, -, ⟨-, rfl⟩ | ⟨-, -, -, -, -, rfl⟩⟩ := commits_requestPaymentRefund_iff.mp h
      · exact hs
      · exact hs.of_same rfl rfl (completedRefundTotal_request _ rfl _ _ _ _)
  | approve r =>
      refine iff_of_true ((allOrNothing_atomic _).preserves hs fun u t h => ?_) not_false
      obtain ⟨x, q, hx, hpend, -, rfl⟩ := commits_reviewPaymentRefund_iff.mp h
      exact hs.of_same rfl rfl (completedRefundTotal_review hx hpend (by decide) _ _ _ _)
  | reject r =>
      refine iff_of_true ((allOrNothing_atomic _).preserves hs fun u t h => ?_) not_false
      obtain ⟨x, q, hx, hpend, -, rfl⟩ := commits_reviewPaymentRefund_iff.mp h
      exact hs.of_same rfl rfl (completedRefundTotal_review hx hpend (by decide) _ _ _ _)
  | complete r providerRefId =>
      have hafter := hd.step (.complete r providerRefId)
      -- a completion that is refused writes nothing, and it is none that repays by parts
      by_cases hreturns : Returns (completePaymentRefund r providerRefId) s
      · obtain ⟨u, t, hcommit⟩ := hreturns
        rw [refundStep, hcommit.after_eq] at hafter ⊢
        obtain ⟨x, pay', p, row, hx, happ, hpay', -, -, -, hwidth, -, rfl⟩ :=
          commits_completePaymentRefund_iff.mp hcommit
        rw [refundedMeansRepaid_complete_iff hd hs hx happ hpay' hafter]
        apply not_congr
        constructor
        · rintro ⟨hk, hpos, hpart, hsum⟩
          exact ⟨x, hx, pay, hd.payment, hk, happ, hwidth, hpos, hpart, hsum⟩
        · rintro ⟨x', hx', q, hq, hk, -, -, hpos, hpart, hsum⟩
          obtain rfl := Option.some.inj (hx.symm.trans hx')
          obtain rfl := Option.some.inj (hd.payment.symm.trans hq)
          exact ⟨hk, hpos, hpart, hsum⟩
      · have hsame : refundStep s (.complete r providerRefId) = s :=
          (allOrNothing_atomic _).after_eq_self fun a t h => hreturns ⟨a, t, h⟩
        rw [hsame]
        exact iff_of_true hs fun h => hreturns (h.returns hd)

/-! ## From the finalisation on -/

/-- What is known of payments before any of them is refunded. -/
structure Unspent (s : Store) : Prop where
  positive : ∀ n ∈ s.payments.map Payment.amount, 1 ≤ n
  pending : ∀ r ∈ s.refunds, ∀ pay ∈ s.payments[r.payment]?, pay.status ≠ .pending

/-- No payment becomes pending again. -/
def StaysSettled (pay pay' : Payment) : Prop := pay'.status = .pending → pay.status = .pending

theorem staysSettled_settle (pays : List Payment) (k : ℕ) {st : Settlement}
    (hst : st.status ≠ .pending) :
    Evolves StaysSettled pays (pays.modify k (·.settle st)) :=
  evolves_modify (fun _ => id) fun _ _ h => absurd h hst

theorem staysSettled_commit {s t : Store} {e : Effect} (h : Commit s e t) :
    Evolves StaysSettled s.payments t.payments := by
  cases h with
  | persist hpid hnew hpend => exact evolves_append (fun _ => id) _ _
  | mismatch hpay hp => exact staysSettled_settle _ _ nofun
  | reject hpay hp hpend => exact staysSettled_settle _ _ nofun
  | succeed hpay hp hpend => exact staysSettled_settle _ _ nofun
  | expireWith hpay hpid hpend => exact staysSettled_settle _ _ nofun
  | _ => exact evolves_refl (fun _ => id) _

theorem amounts_settle (pays : List Payment) (k : ℕ) (st : Settlement) :
    (pays.modify k (·.settle st)).map Payment.amount = pays.map Payment.amount :=
  map_modify_same (f := fun pay => pay.settle st) (fun _ => rfl) pays k

/-- Only a new payment brings a new amount. -/
theorem amounts_commit {s t : Store} {e : Effect} (h : Commit s e t) (he : ∀ pid, e ≠ .persist pid) :
    t.payments.map Payment.amount = s.payments.map Payment.amount := by
  cases h with
  | persist hpid hnew hpend => exact absurd rfl (he _)
  | mismatch hpay hp => exact amounts_settle _ _ _
  | reject hpay hp hpend => exact amounts_settle _ _ _
  | succeed hpay hp hpend => exact amounts_settle _ _ _
  | expireWith hpay hpid hpend => exact amounts_settle _ _ _
  | _ => rfl

/-- The refunds of a commit: the old ones, and one on a successful payment. -/
theorem refunds_commit {s t : Store} {e : Effect} (h : Commit s e t) {r : PaymentRefund}
    (hr : r ∈ t.refunds) :
    (∃ r₀ ∈ s.refunds, r₀.payment = r.payment) ∨
      ∃ pay, s.payments[r.payment]? = some pay ∧ pay.status = .success := by
  cases h with
  | requestRefund hpay hnew hpend hsuccess =>
      rcases List.mem_append.mp hr with hold | hlast
      · exact Or.inl ⟨r, hold, rfl⟩
      · obtain rfl := List.mem_singleton.mp hlast
        exact Or.inr ⟨_, hnew ▸ hpay, hsuccess⟩
  | reviewRefund hx hpend hpay hstatus => exact Or.inl (refund_moved rfl hr)
  | completeRefund hx happ hpay hp hpart => exact Or.inl (refund_moved rfl hr)
  | completeFullRefund hx happ hpay hp hfull => exact Or.inl (refund_moved rfl hr)
  | _ => exact Or.inl ⟨r, hr, rfl⟩

theorem Unspent.pending_commit {s t : Store} {e : Effect} (hw : Wired s) (hs : Unspent s)
    (h : Commit s e t) : ∀ r ∈ t.refunds, ∀ pay ∈ t.payments[r.payment]?, pay.status ≠ .pending := by
  intro r hr pay' hpay' hpend
  have hknown : ∃ pay, s.payments[r.payment]? = some pay ∧ pay.status ≠ .pending := by
    rcases refunds_commit h hr with ⟨r₀, hr₀, hsame⟩ | ⟨pay, hpay, hsuccess⟩
    · have hlt := hw.refund_payment r₀.payment (List.mem_map_of_mem hr₀)
      have hpay := List.getElem?_eq_getElem hlt
      refine ⟨_, hsame ▸ hpay, hs.pending r₀ hr₀ _ hpay⟩
    · exact ⟨pay, hpay, by simp [hsuccess]⟩
  obtain ⟨pay, hpay, hne⟩ := hknown
  obtain ⟨pay'', hpay'', hstays⟩ := staysSettled_commit h _ _ hpay
  obtain rfl := Option.some.inj (hpay'.symm.trans hpay'')
  exact hne (hstays hpend)

/-- A payment is stored only with a positive amount. -/
theorem persist_amount {pid user amount : ℕ} {name authority gatewayStatus : String}
    {s t : Store} {k : ℕ}
    (h : Commits (persistInitiatedPayment pid user amount name authority gatewayStatus) s k t) :
    1 ≤ amount := by
  simp only [persistInitiatedPayment, commits_atomic, commits_bind, commits_get, commits_require] at h
  obtain ⟨_, _, ⟨rfl, rfl⟩, _, _, -, _, _, -, _, _, ⟨hpos, -⟩, -⟩ := h
  exact hpos

theorem attempts_persist {s : Sys} {a : Act} {pid : ℕ} (h : attempts s a = some (.persist pid)) :
    ∃ i, a = .pay (.persist i) := by
  cases a with
  | fin a => cases a <;> simp [attempts] at h
  | pay a =>
      cases a with
      | persist i => exact ⟨i, rfl⟩
      | finalize i now hooksOk =>
          simp only [attempts] at h
          split at h
          · simp only [Option.some.injEq, verdictEffect] at h
            split_ifs at h
          · simp at h
      | release i =>
          simp only [attempts] at h
          split at h <;> simp at h
      | cancelLocked i now =>
          simp only [attempts] at h
          split at h <;> simp at h
      | expire i now =>
          simp only [attempts] at h
          split at h <;> simp at h
      | _ => simp [attempts] at h

theorem positive_step {s : Sys} (hs : ∀ n ∈ s.db.payments.map Payment.amount, 1 ≤ n) (a : Act) :
    ∀ n ∈ (step s a).db.payments.map Payment.amount, 1 ≤ n := by
  by_cases ha : ∃ i, a = .pay (.persist i)
  · obtain ⟨i, rfl⟩ := ha
    apply (allOrNothing_transaction s (.pay (.persist i))).preserves
      (P := fun t => ∀ n ∈ t.payments.map Payment.amount, 1 ≤ n) hs
    intro u t hcommit
    simp only [transaction, payTransaction] at hcommit
    split at hcommit
    · obtain ⟨k, hk⟩ := commits_of_drop hcommit
      obtain ⟨pay, -, hamount, -, -, -, rfl⟩ := commits_persist hk
      intro n hn
      simp only [Store.addEvent_payments, Store.addPayment_payments, List.map_append,
        List.mem_append, List.map_cons, List.map_nil, List.mem_singleton] at hn
      rcases hn with hold | rfl
      · exact hs n hold
      · rw [hamount]
        exact persist_amount hk
    · rw [(commits_pure.mp hcommit).2]
      exact hs
  · rcases step_db s a with hsame | ⟨e, he, hcommit⟩
    · rwa [hsame]
    · rw [amounts_commit hcommit fun pid h => ha (attempts_persist (h ▸ he))]
      exact hs

theorem unspent_step {s : Sys} (hw : Wired s.db) (hs : Unspent s.db) (a : Act) :
    Unspent (step s a).db := by
  refine ⟨positive_step hs.positive a, ?_⟩
  rcases step_db s a with hsame | ⟨e, -, hcommit⟩
  · rw [hsame]
    exact hs.pending
  · exact hs.pending_commit hw hcommit

/-- What every interleaving of the services keeps. -/
theorem unspent_run (campaigns : List Campaign) (acts : List Act) :
    Wired (run step (start campaigns) acts).db ∧ Unspent (run step (start campaigns) acts).db := by
  apply invariant_run (I := fun s : Sys => Wired s.db ∧ Unspent s.db)
  · rintro s a ⟨hw, hs⟩
    exact ⟨wired_step hw a, unspent_step hw hs a⟩
  · refine ⟨wired_start campaigns, ?_, ?_⟩
    · simp [start]
    · simp [start]

/-- A finalisation that succeeds finds an active campaign with room for the shares. -/
theorem commits_finalize_success {s t : Store} {k now : ℕ} {pay : Payment}
    {result : PaymentVerifyResult} {hooksOk : Bool} {u : Unit} (hpay : s.payments[k]? = some pay)
    (hpend : pay.status = .pending) (hsuccess : result.success = true)
    (h : Commits (finalizeVerifiedPayment k result now hooksOk) s u t) :
    ∃ p row, s.participations[pay.participation]? = some p ∧ s.campaigns[p.campaign]? = some row ∧
      row.isActive = true ∧
      reservedShares (s.succeeded k pay result.gatewayStatus result.refId now).participations
        p.campaign ≤ row.totalShares ∧
      t = ((s.succeeded k pay result.gatewayStatus result.refId now).sync p.campaign).autoComplete
        p.campaign := by
  simp only [finalizeVerifiedPayment, commits_atomic, commits_bind, commits_getPayment,
    commits_ite, commits_getParticipation, commits_getCampaign, commits_modify, commits_require,
    commits_pure, commits_syncCampaignCounters_iff] at h
  obtain ⟨pay', _, ⟨hpay', rfl⟩, ⟨hne, -⟩ | ⟨-, p, _, ⟨hp, rfl⟩, row, _, ⟨⟨hrow, hactive⟩, rfl⟩,
    ⟨hfail, -⟩ | ⟨-, _, s₁, hsave, _, s₂, hrec, _, s₃, rfl, _, s₄, ⟨⟨row', hrow', hroom⟩, rfl⟩, _,
      s₅, rfl, -, rfl⟩⟩⟩ := h
  · obtain rfl := Option.some.inj (hpay.symm.trans hpay')
    exact absurd hpend hne
  · exact absurd (hsuccess.symm.trans hfail) (by simp)
  · obtain rfl := Option.some.inj (hpay.symm.trans hpay')
    obtain rfl := commits_saveAndRecord hpay hsave hrec
    obtain rfl : row = row' := Option.some.inj (hrow.symm.trans hrow')
    exact ⟨p, row, hp, hrow, hactive, hroom, rfl⟩

/-- A payment that has just become SUCCESS: nothing of it has gone back. -/
theorem donation_finalized {s t : Store} (hw : Wired s) (hcap : RefundCap s) (hs : Unspent s)
    {k now : ℕ} {pay : Payment} {result : PaymentVerifyResult} {hooksOk : Bool} {u : Unit}
    (hpay : s.payments[k]? = some pay) (hpend : pay.status = .pending)
    (hsuccess : result.success = true)
    (h : Commits (finalizeVerifiedPayment k result now hooksOk) s u t) :
    (∃ pay', Donation k pay' t) ∧ RefundedMeansRepaid k t := by
  obtain ⟨p, row, hp, hrow, hactive, hroom, rfl⟩ := commits_finalize_success hpay hpend hsuccess h
  have hcommit : Commit s (.succeed k)
      (((s.succeeded k pay result.gatewayStatus result.refId now).sync p.campaign).autoComplete
        p.campaign) := .succeed hpay hp hpend
  have hpay' : (((s.succeeded k pay result.gatewayStatus result.refId now).sync
      p.campaign).autoComplete p.campaign).payments[k]? =
        some (pay.settle ⟨.success, result.gatewayStatus, some result.refId, some now, now⟩) := by
    simp [Store.succeeded, hpay]
  have hp' : (((s.succeeded k pay result.gatewayStatus result.refId now).sync
      p.campaign).autoComplete p.campaign).participations[pay.participation]? =
        some (p.withStatus .paid (some now)) := by
    simp [Store.succeeded, hp]
  constructor
  · refine ⟨_, hpay', wired_commit hw hcommit, refundCap_commit hw hcap hcommit, ?_⟩
    have hcolumns := column_commit (g := fun row => (row.isActive, row.totalShares))
      (fun _ _ => rfl) (fun _ => rfl) hcommit
    obtain ⟨row', hrow', hsame⟩ := exists_row_of_map_eq hcolumns.symm hrow
    obtain ⟨hactive', htotal'⟩ := Prod.mk.inj hsame
    refine ⟨_, row', hp', hrow', hactive' ▸ hactive, ?_⟩
    rw [← htotal']
    exact hroom
  · rw [refundedMeansRepaid_iff hpay', IsRefunded]
    -- no refund names a payment that was pending until now
    have hnone : completedRefundTotal s k = 0 := by
      apply sumWhere_eq_zero
      intro r hr
      have hne : r.payment ≠ k := by
        rintro rfl
        exact hs.pending r hr pay hpay hpend
      simp [PaymentRefund.ofPayment, hne]
    have hpos : 1 ≤ pay.amount := hs.positive _ (List.mem_map_of_mem (List.mem_of_getElem? hpay))
    refine iff_of_false ?_ ?_
    · show ¬ (Option.map _ (_ : List Participation)[pay.participation]?) = _
      rw [hp']
      simp [Participation.withStatus]
    · show ¬ completedRefundTotal s k = pay.amount
      omega

/-- **Refunded means fully refunded.** From the finalisation of a payment on, its participation is
REFUNDED in every state exactly when everything has gone back, as long as no call pays the last
part of the payment out after others. -/
theorem refunded_iff_repaid (campaigns : List Campaign) (acts : List Act) {k now : ℕ}
    {result : PaymentVerifyResult} {hooksOk : Bool} {t : Store}
    (hpending : ∃ pay, (run step (start campaigns) acts).db.payments[k]? = some pay ∧
      pay.status = .pending)
    (hsuccess : result.success = true)
    (hfinal : Commits (finalizeVerifiedPayment k result now hooksOk)
      (run step (start campaigns) acts).db () t) (calls : List RefundCall) :
    (∀ pre, pre <+: calls → RefundedMeansRepaid k (run refundStep t pre)) ↔
      Along refundStep (fun s c => ¬ RepaysByPart k s c) t calls := by
  obtain ⟨hw, hs⟩ := unspent_run campaigns acts
  obtain ⟨pay, hpay, hpend⟩ := hpending
  obtain ⟨⟨pay', hd⟩, hstart⟩ :=
    donation_finalized hw (refund_cap campaigns acts) hs hpay hpend hsuccess hfinal
  rw [← along_states hstart]
  apply along_congr (I := fun s => Donation k pay' s ∧ RefundedMeansRepaid k s) _ _ ⟨hd, hstart⟩
  · rintro s c ⟨hd, hs⟩
    exact refundedMeansRepaid_step_iff hd hs c
  · rintro s c ⟨hd, hs⟩ hafter
    exact ⟨hd.step c, hafter⟩

/-- Two shares are bought; the provider has confirmed the amount. -/
def confirmedTwoShares : List Act :=
  [.pay (.initiate 0 1 2 5), .pay (.gateway 0 (some (gatewayYes "A1"))), .pay (.persist 0),
    .pay (.callback "A1"), .pay (.provider 1 (some (confirms 2000)))]

/-- The store after the finalisation. -/
def paidTwoShares : Store :=
  (run step (start [tenShares]) (confirmedTwoShares ++ [.pay (.finalize 1 9 true)])).db

def refundWhole : List RefundCall := [.request 0 2000 none true, .approve 0, .complete 0 "R1"]

def refundInHalves : List RefundCall :=
  [.request 0 1000 none true, .request 0 1000 none true, .approve 0, .approve 1, .complete 0 "R1",
    .complete 1 "R2"]

/-- A refund in one piece. -/
theorem refunded_iff_repaid_whole :
    RefundedMeansRepaid 0 (run refundStep paidTwoShares refundWhole) := by
  have hfinal : Commits (finalizeVerifiedPayment 0 (confirms 2000) 9 true)
      (run step (start [tenShares]) confirmedTwoShares).db () paidTwoShares := rfl
  refine (refunded_iff_repaid [tenShares] confirmedTwoShares ⟨_, rfl, rfl⟩ rfl hfinal
    refundWhole).mpr ?_ refundWhole (List.prefix_refl _)
  decide +kernel

/-- A refund in two halves: everything has gone back, and the participation is PAID. -/
theorem repaid_in_halves :
    let s := run refundStep paidTwoShares refundInHalves
    ¬ RefundedMeansRepaid 0 s ∧ completedRefundTotal s 0 = 2000 ∧
      s.participations.map Participation.status = [.paid] ∧
      s.campaigns.map (fun c => (c.purchasedShares, c.purchasedAmount, c.participantCount)) =
        [(2, 0, 1)] := by
  decide +kernel

/-! ## Requests under a key -/

/-- No refund call writes the payment or the key of a refund. -/
def SameRequest (r r' : PaymentRefund) : Prop :=
  r'.payment = r.payment ∧ r'.idempotencyKey = r.idempotencyKey

theorem sameRequest_commit {s t : Store} (h : Commit s .refund t) :
    Evolves SameRequest s.refunds t.refunds := by
  have hrefl : ∀ r, SameRequest r r := fun _ => ⟨rfl, rfl⟩
  cases h with
  | requestRefund hpay hr hpend => exact evolves_append hrefl _ _
  | reviewRefund hr hpend hpay hstatus => exact evolves_modify hrefl fun _ _ => ⟨rfl, rfl⟩
  | completeRefund hr happ hpay hp hpart => exact evolves_modify hrefl fun _ _ => ⟨rfl, rfl⟩
  | completeFullRefund hr happ hpay hp hfull => exact evolves_modify hrefl fun _ _ => ⟨rfl, rfl⟩

theorem refundByKey_eq_some_iff {s : Store} {key : String} (hkey : key ≠ "") {r : ℕ} :
    refundByKey s (some key) = some r ↔
      (∃ x, s.refunds[r]? = some x ∧ x.idempotencyKey = some key) ∧
        ∀ j < r, ∀ x ∈ s.refunds[j]?, x.idempotencyKey ≠ some key := by
  rw [refundByKey, if_neg hkey, List.findIdx?_eq_some_iff_getElem]
  constructor
  · rintro ⟨hr, hfound, hfirst⟩
    refine ⟨⟨_, List.getElem?_eq_getElem hr, by simpa using hfound⟩, fun j hj x hx => ?_⟩
    obtain ⟨hlt, rfl⟩ := List.getElem?_eq_some_iff.mp hx
    simpa using hfirst j hj
  · rintro ⟨⟨x, hx, hfound⟩, hfirst⟩
    obtain ⟨hr, rfl⟩ := List.getElem?_eq_some_iff.mp hx
    refine ⟨hr, by simpa using hfound, fun j hj => ?_⟩
    simpa using hfirst j hj _ (List.getElem?_eq_getElem (hj.trans hr))

/-- A key keeps finding its refund. -/
theorem refundByKey_evolves {s t : Store} (h : Evolves SameRequest s.refunds t.refunds)
    {key : String} (hkey : key ≠ "") {r : ℕ} (hr : refundByKey s (some key) = some r) :
    refundByKey t (some key) = some r := by
  rw [refundByKey_eq_some_iff hkey] at hr ⊢
  obtain ⟨⟨x, hx, hfound⟩, hfirst⟩ := hr
  obtain ⟨x', hx', hsame⟩ := h r x hx
  refine ⟨⟨x', hx', hsame.2.trans hfound⟩, fun j hj y' hy' => ?_⟩
  have hlt := (List.getElem?_eq_some_iff.mp hx).1
  obtain ⟨y, hy, hsame'⟩ := h j _ (List.getElem?_eq_getElem (hj.trans hlt))
  obtain rfl := Option.some.inj (hy'.symm.trans hy)
  rw [hsame'.2]
  exact hfirst j hj _ (List.getElem?_eq_getElem (hj.trans hlt))

/-- The payment is successful and that much of it can still be requested. -/
def RoomFor (s : Store) (k : ℕ) (amount : ℤ) : Prop :=
  ∃ pay ∈ s.payments[k]?, pay.status = .success ∧ amount ≤ refundableRemainder s k pay

instance (s : Store) (k : ℕ) (amount : ℤ) : Decidable (RoomFor s k amount) :=
  inferInstanceAs (Decidable (∃ pay ∈ s.payments[k]?, _))

/-- A request under a key that is in use. -/
theorem commits_request_known_iff {s t : Store} {key : String} {r r' : ℕ}
    (hr : refundByKey s (some key) = some r) {k : ℕ} {amount : ℤ} {hooksOk : Bool} :
    Commits (requestPaymentRefund k amount (some key) hooksOk) s r' t ↔
      0 < amount ∧ RoomFor s k amount ∧ r' = r ∧ t = s := by
  rw [commits_requestPaymentRefund_iff]
  constructor
  · rintro ⟨pay, hpay, hsuccess, hpos, hroom, ⟨hr', rfl⟩ | ⟨hnone, -⟩⟩
    · exact ⟨hpos, ⟨pay, hpay, hsuccess, hroom⟩, Option.some.inj (hr'.symm.trans hr), rfl⟩
    · rw [hr] at hnone
      cases hnone
  · rintro ⟨hpos, ⟨pay, hpay, hsuccess, hroom⟩, rfl, rfl⟩
    exact ⟨pay, hpay, hsuccess, hpos, hroom, Or.inl ⟨hr, rfl⟩⟩

/-- What a caller expects of a key: the same request returns the same refund and writes nothing,
and a request for another payment does not return it. -/
def KeyIsSafe (s : Store) (k : ℕ) (amount : ℤ) (key : String) (r : ℕ) : Prop :=
  (∀ hooksOk, Commits (requestPaymentRefund k amount (some key) hooksOk) s r s) ∧
    ∀ k', k' ≠ k → ∀ amount' hooksOk t,
      ¬ Commits (requestPaymentRefund k' amount' (some key) hooksOk) s r t

theorem keyIsSafe_iff {s : Store} {key : String} {r : ℕ} (hr : refundByKey s (some key) = some r)
    {k : ℕ} {amount : ℤ} (hpos : 0 < amount) :
    KeyIsSafe s k amount key r ↔ RoomFor s k amount ∧ ∀ k', k' ≠ k → ¬ RoomFor s k' 1 := by
  have hrequest : ∀ {k' : ℕ} {amount' : ℤ} {hooksOk : Bool} {t : Store},
      Commits (requestPaymentRefund k' amount' (some key) hooksOk) s r t ↔
        0 < amount' ∧ RoomFor s k' amount' ∧ r = r ∧ t = s := commits_request_known_iff hr
  constructor
  · rintro ⟨hsame, hother⟩
    refine ⟨(hrequest.mp (hsame true)).2.1, fun k' hne hroom => ?_⟩
    exact hother k' hne 1 true s (hrequest.mpr ⟨one_pos, hroom, rfl, rfl⟩)
  · rintro ⟨hroom, hother⟩
    refine ⟨fun hooksOk => hrequest.mpr ⟨hpos, hroom, rfl, rfl⟩, ?_⟩
    intro k' hne amount' hooksOk t hcommit
    obtain ⟨hpos', ⟨pay, hpay, hsuccess, hleft⟩, -, -⟩ := hrequest.mp hcommit
    exact hother k' hne ⟨pay, hpay, hsuccess, by omega⟩

/-- What a request leaves when it stores a refund: its key finds it. -/
theorem refundByKey_created {s t : Store} {k : ℕ} {amount : ℤ} {key : String} {hooksOk : Bool}
    {r : ℕ} (hkey : key ≠ "") (hnew : refundByKey s (some key) = none)
    (h : Commits (requestPaymentRefund k amount (some key) hooksOk) s r t) :
    refundByKey t (some key) = some r ∧ 0 < amount := by
  obtain ⟨pay, -, -, hpos, -, ⟨hr, -⟩ | ⟨-, hunused, -, -, rfl, rfl⟩⟩ :=
    commits_requestPaymentRefund_iff.mp h
  · rw [hnew] at hr
    cases hr
  · refine ⟨(refundByKey_eq_some_iff hkey).mpr ⟨⟨_, List.getElem?_concat_length, rfl⟩, ?_⟩, hpos⟩
    intro j hj x hx
    have hold : s.refunds[j]? = some x := by
      rw [← hx]
      exact (List.getElem?_append_left hj).symm
    simpa using List.all_eq_true.mp (hunused key rfl) x (List.mem_of_getElem? hold)

/-- **Refund keys.** After a request has stored a refund under a key and any refund calls have
followed, the key is safe exactly when the amount could be requested once more and no other
payment has anything left to request. -/
theorem refund_key_safe_iff {s t : Store} {k : ℕ} {amount : ℤ} {key : String} {hooksOk : Bool}
    {r : ℕ} (hkey : key ≠ "") (hnew : refundByKey s (some key) = none)
    (h : Commits (requestPaymentRefund k amount (some key) hooksOk) s r t)
    (calls : List RefundCall) :
    KeyIsSafe (run refundStep t calls) k amount key r ↔
      RoomFor (run refundStep t calls) k amount ∧
        ∀ k', k' ≠ k → ¬ RoomFor (run refundStep t calls) k' 1 := by
  obtain ⟨hcreated, hpos⟩ := refundByKey_created hkey hnew h
  refine keyIsSafe_iff ?_ hpos
  -- the invariant: the key finds the refund that was stored under it
  apply invariant_run (I := fun s => refundByKey s (some key) = some r) _ hcreated
  intro s c hs
  exact refundStep_keeps hs (fun _ hc => refundByKey_evolves (sameRequest_commit hc) hkey hs) c

/-- Two donors have paid two shares each. -/
def twoDonations : Store :=
  (run step (start [tenShares]) (confirmedTwoShares ++ [.pay (.finalize 1 9 true),
    .pay (.initiate 0 2 2 11), .pay (.gateway 2 (some (gatewayYes "A2"))), .pay (.persist 2),
    .pay (.callback "A2"), .pay (.provider 3 (some (confirms 2000))),
    .pay (.finalize 3 13 true)])).db

/-- A quarter of the only payment is requested: the key is safe. -/
theorem refund_key_safe_iff_quarter :
    KeyIsSafe (run refundStep (refundStep paidTwoShares (.request 0 500 (some "K1") true)) [])
      0 500 "K1" 0 := by
  have hcreated : Commits (requestPaymentRefund 0 500 (some "K1") true) paidTwoShares 0
      (refundStep paidTwoShares (.request 0 500 (some "K1") true)) := rfl
  refine (refund_key_safe_iff (by decide) (by decide +kernel) hcreated []).mpr
    ⟨by decide +kernel, ?_⟩
  rintro k' hne ⟨pay, hpay, -⟩
  have hlen : (run refundStep (refundStep paidTwoShares (.request 0 500 (some "K1") true))
      []).payments.length = 1 := by decide +kernel
  have hlt := lt_length_of_getElem? hpay
  omega

/-- A whole payment is requested: the repeated request is refused, and under the same key the
other payment gets this refund. -/
theorem refund_key_unsafe :
    let s := refundStep twoDonations (.request 0 2000 (some "K1") true)
    refundByKey s (some "K1") = some 0 ∧
      (exec (requestPaymentRefund 0 2000 (some "K1") true) s).1 =
        .error (.refundWorkflow "مبلغ بازپرداخت از مانده قابل بازپرداخت بیشتر است.") ∧
      (exec (requestPaymentRefund 1 500 (some "K1") true) s).1 = .ok 0 ∧
      ¬ KeyIsSafe s 0 2000 "K1" 0 := by
  refine ⟨by decide +kernel, by decide +kernel, by decide +kernel, fun h => ?_⟩
  have hok := congrArg Prod.fst (h.1 true)
  exact absurd hok (by decide +kernel)

end SetadJang.Madadkar
