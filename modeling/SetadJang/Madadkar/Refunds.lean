import SetadJang.Madadkar.Counters

/-!
# The refund cap

`request_payment_refund` is the only place where refunds are measured against
the payment: what it grants may not exceed the amount less the completed and the
open refunds.  A review or a completion only moves a refund between these two
sums, or out of both.

All four services lock the payment row in their first statement, so the two sums
a request reads belong to one state of the refunds of its payment.
-/

namespace SetadJang.Madadkar

open SetadJang.Framework SetadJang.Framework.Txn

/-- Refunds that hold a part of the payment: waiting, approved or paid out. -/
def claimedRefunds (s : Store) (k : ℕ) : ℕ :=
  sumWhere (PaymentRefund.ofPayment k [.pendingReview, .approved, .completed])
    PaymentRefund.amount s.refunds

/-- No payment has more refunds than it brought in. -/
def RefundCap (s : Store) : Prop :=
  ∀ k pay, s.payments[k]? = some pay → claimedRefunds s k ≤ pay.amount

/-- The two sums of a request cover everything that is claimed. -/
theorem claimedRefunds_eq (s : Store) (k : ℕ) :
    claimedRefunds s k = completedRefundTotal s k + openRefundTotal s k := by
  apply sumWhere_disjoint
  · intro r
    cases hst : r.status <;> simp [PaymentRefund.ofPayment, hst]
  · intro r hr
    cases hst : r.status <;> simp_all [PaymentRefund.ofPayment]

/-- Refunds refer to stored payments. -/
theorem claimedRefunds_new {s : Store} (hw : Wired s) {k : ℕ} (hk : s.payments.length ≤ k) :
    claimedRefunds s k = 0 := by
  apply sumWhere_eq_zero
  intro r hr
  have hlt := hw.refund_payment r.payment (List.mem_map_of_mem hr)
  have hne : r.payment ≠ k := by omega
  simp [PaymentRefund.ofPayment, hne]

/-! ## Commits -/

section

variable {s t : Store} (hw : Wired s) (hs : RefundCap s)

include hw hs

/-- A commit under which no payment gets a larger claim. -/
theorem RefundCap.of_le (hstable : Stable s t) (hle : ∀ k, claimedRefunds t k ≤ claimedRefunds s k) :
    RefundCap t := by
  intro k pay hpay
  by_cases hk : k < s.payments.length
  · have hold := List.getElem?_eq_getElem hk
    obtain ⟨pay', hpay', -, hamount⟩ := hstable.payments k _ hold
    rw [hpay] at hpay'
    cases hpay'
    rw [hamount]
    exact (hle k).trans (hs k _ hold)
  · have hzero := claimedRefunds_new hw (Nat.le_of_not_lt hk)
    have := hle k
    omega

/-- A commit that leaves the refunds alone. -/
theorem RefundCap.of_same (hstable : Stable s t) (hrefunds : t.refunds = s.refunds) :
    RefundCap t := by
  apply hs.of_le hw hstable
  intro k
  rw [claimedRefunds, claimedRefunds, hrefunds]

/-- Moving one refund to another status gives no payment a larger claim when the
refund was claimed before. -/
theorem RefundCap.moved {i : ℕ} {r : PaymentRefund} {status : RefundStatus} {ref : Option String}
    (hstable : Stable s t) (hr : s.refunds[i]? = some r)
    (hclaimed : r.status = .pendingReview ∨ r.status = .approved)
    (hrefunds : t.refunds = (s.saveRefund i status ref).refunds) : RefundCap t := by
  apply hs.of_le hw hstable
  intro k
  have hbalance := sumWhere_modify
    (PaymentRefund.ofPayment k [.pendingReview, .approved, .completed]) PaymentRefund.amount
    (fun r => { r with status := status, providerRefId := ref.getD r.providerRefId }) hr
  have hbefore : PaymentRefund.ofPayment k [.pendingReview, .approved, .completed] r =
      (r.payment == k) := by
    rcases hclaimed with h | h <;> simp [PaymentRefund.ofPayment, h]
  rw [hbefore] at hbalance
  rw [claimedRefunds, claimedRefunds, hrefunds, Store.saveRefund_refunds]
  by_cases hk : r.payment = k
  · simp only [hk, beq_self_eq_true, if_true] at hbalance
    split_ifs at hbalance <;> omega
  · have hne : (r.payment == k) = false := by simpa using hk
    simp only [PaymentRefund.ofPayment, hne, Bool.false_and, Bool.false_eq_true, if_false] at hbalance
    exact Nat.le_of_eq hbalance

omit hw in
/-- A request that stays within what is left. -/
theorem RefundCap.requested {k : ℕ} {pay : Payment} {r : PaymentRefund}
    (hpay : s.payments[k]? = some pay) (hr : r.payment = k)
    (hcap : completedRefundTotal s k + openRefundTotal s k + r.amount ≤ pay.amount) :
    RefundCap ((s.addRefund r).noted k pay .refundRequested) := by
  intro j q hq
  have hsum : claimedRefunds ((s.addRefund r).noted k pay .refundRequested) j ≤
      claimedRefunds s j + (if r.payment = j then r.amount else 0) := by
    simp only [claimedRefunds, Store.noted, Store.addEvent_refunds, Store.addRefund_refunds,
      sumWhere_append]
    by_cases hj : r.payment = j
    · simp only [hj, if_true]
      split_ifs <;> omega
    · simp [PaymentRefund.ofPayment, hj]
  have hq' : s.payments[j]? = some q := hq
  by_cases hj : r.payment = j
  · have hkj : k = j := hr.symm.trans hj
    subst hkj
    rw [hpay] at hq'
    cases hq'
    rw [if_pos hj] at hsum
    have hclaimed := claimedRefunds_eq s k
    omega
  · rw [if_neg hj] at hsum
    have hold := hs j q hq'
    omega

end

/-- **Step lemma.** -/
theorem refundCap_commit {s t : Store} {e : Effect} (hw : Wired s) (hs : RefundCap s)
    (h : Commit s e t) : RefundCap t := by
  have hstable := stable_commit h
  cases h with
  | requestRefund hpay hr hpend hsuccess hcap => exact hs.requested hpay hr hcap
  | reviewRefund hr hpend hpay hstatus => exact hs.moved hw hstable hr (Or.inl hpend) rfl
  | completeRefund hr happ hpay hp hpart => exact hs.moved hw hstable hr (Or.inr happ) rfl
  | completeFullRefund hr happ hpay hp hfull => exact hs.moved hw hstable hr (Or.inr happ) rfl
  | reserve hrow hroom hpos => exact hs.of_same hw hstable rfl
  | release hp hpend => exact hs.of_same hw hstable rfl
  | persist hpid hnew hpend => exact hs.of_same hw hstable rfl
  | mismatch hpay hp => exact hs.of_same hw hstable rfl
  | reject hpay hp hpend => exact hs.of_same hw hstable rfl
  | succeed hpay hp hpend => exact hs.of_same hw hstable rfl
  | expire hnone => exact hs.of_same hw hstable rfl
  | expireWith hpay hpid hpend => exact hs.of_same hw hstable rfl
  | fund hrow hroom => exact hs.of_same hw hstable rfl
  | voidFund hf => exact hs.of_same hw hstable rfl
  | createAdjustment hpend => exact hs.of_same hw hstable rfl
  | reviewAdjustment ha hpend hstatus => exact hs.of_same hw hstable rfl
  | applyAdjustment ha happ hnone => exact hs.of_same hw hstable rfl
  | applyPaymentAdjustment ha happ hk hpay => exact hs.of_same hw hstable rfl

theorem refundCap_step {s : Sys} (hw : Wired s.db) (hs : RefundCap s.db) (a : Act) :
    RefundCap (step s a).db := by
  rcases step_db s a with hsame | ⟨e, -, hcommit⟩
  · rw [hsame]
    exact hs
  · exact refundCap_commit hw hs hcommit

theorem refundCap_start (campaigns : List Campaign) : RefundCap (start campaigns).db := by
  intro k pay hpay
  simp [start] at hpay

/-- **Refund cap.** In every state that any interleaving of the services reaches,
the waiting, approved and completed refunds of a payment add up to at most its
amount. -/
theorem refund_cap (campaigns : List Campaign) (acts : List Act) :
    RefundCap (run step (start campaigns) acts).db := by
  have hboth : Wired (run step (start campaigns) acts).db ∧
      RefundCap (run step (start campaigns) acts).db := by
    apply invariant_run (I := fun s : Sys => Wired s.db ∧ RefundCap s.db)
    · rintro s a ⟨hw, hs⟩
      exact ⟨wired_step hw a, refundCap_step hw hs a⟩
    · exact ⟨wired_start campaigns, refundCap_start campaigns⟩
  exact hboth.2

end SetadJang.Madadkar
