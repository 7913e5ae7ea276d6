import SetadJang.Madadkar.RefundWorkflow
import SetadJang.Madadkar.Transparency

/-!
# The accounting-control summary

`get_campaign_financial_control_summary` sets the stored `purchased_amount` beside the sums it is
made of.  The counter takes back the completed refunds of PAID participations; the summary counts
all completed refunds of the campaign.  A participation whose payment went back in one piece is
REFUNDED: its refund is in the summary and its amount is in neither figure.
-/

namespace SetadJang.Madadkar

open SetadJang.Framework SetadJang.Framework.Txn

/-! ## The selector -/

structure FinancialControlSummary where
  campaignId : ℕ
  grossPaidAmount : ℕ
  completedRefundAmount : ℕ
  completedRefundCount : ℕ
  appliedAdjustmentDelta : ℤ
  appliedAdjustmentCount : ℕ
  netEffectiveAmount : ℕ
  remainingShares : ℕ
deriving DecidableEq, Repr

/-- `get_campaign_financial_control_summary` of the stored row of a campaign. -/
def getCampaignFinancialControlSummary (s : Store) (c : ℕ) (campaign : Campaign) :
    FinancialControlSummary where
  campaignId := c
  grossPaidAmount := paidAmount s.participations c
  completedRefundAmount := ((campaignRefunds s c).map PaymentRefund.amount).sum
  completedRefundCount := (campaignRefunds s c).length
  appliedAdjustmentDelta :=
    ((appliedAdjustments s c).map CampaignFinancialAdjustment.signedAmount).sum
  appliedAdjustmentCount := (appliedAdjustments s c).length
  netEffectiveAmount := campaign.purchasedAmount
  remainingShares := campaign.remainingShares

/-- The net amount is what the other figures come to. -/
def FinancialControlSummary.AddsUp (summary : FinancialControlSummary) : Prop :=
  (summary.netEffectiveAmount : ℤ) =
    max (summary.grossPaidAmount - summary.completedRefundAmount + summary.appliedAdjustmentDelta) 0

instance (summary : FinancialControlSummary) : Decidable summary.AddsUp :=
  inferInstanceAs (Decidable (_ = _))

/-! ## The refunds the counter leaves out -/

/-- The completed refunds of participations of the campaign that are not PAID. -/
def refundsOfUnpaid (s : Store) (c : ℕ) : ℕ :=
  sumWhere (fun r => r.status == .completed && r.ofCampaign s.participations s.payments c &&
    !paymentPaidIn s.participations s.payments c r.payment) PaymentRefund.amount s.refunds

theorem ofCampaign_of_paidIn {ps : List Participation} {pays : List Payment} {c : ℕ}
    {r : PaymentRefund} (h : paymentPaidIn ps pays c r.payment = true) :
    r.ofCampaign ps pays c = true := by
  simp only [paymentPaidIn, Option.any_eq_true, Option.bind_eq_some_iff] at h
  obtain ⟨p, ⟨pay, hpay, hp⟩, hpaid⟩ := h
  simp only [Participation.paidIn, Bool.and_eq_true] at hpaid
  simp only [PaymentRefund.ofCampaign, Payment.ofCampaign, Option.any_eq_true]
  exact ⟨pay, hpay, p, hp, hpaid.1⟩

theorem refunds_split (s : Store) (c : ℕ) :
    ((campaignRefunds s c).map PaymentRefund.amount).sum =
      completedRefunds s.participations s.payments s.refunds c + refundsOfUnpaid s c := by
  apply sumWhere_disjoint
  · intro r
    cases hpaid : paymentPaidIn s.participations s.payments c r.payment with
    | true => simp [PaymentRefund.countsIn, hpaid, ofCampaign_of_paidIn hpaid]
    | false => simp [PaymentRefund.countsIn, hpaid]
  · intro r hcounted
    simp only [PaymentRefund.countsIn, Bool.and_eq_true] at hcounted
    simp [hcounted.2]

/-! ## What a REFUNDED participation says -/

/-- Something of the payment of a REFUNDED participation has gone back. -/
def RefundedPaidBack (s : Store) : Prop :=
  ∀ (pid : ℕ) (p : Participation), s.participations[pid]? = some p → p.status = .refunded →
    ∃ k pay, s.payments[k]? = some pay ∧ pay.participation = pid ∧ 0 < completedRefundTotal s k

/-- Who is REFUNDED was REFUNDED before. -/
def RefundsNobody (s t : Store) : Prop :=
  ∀ (pid : ℕ) (p : Participation), t.participations[pid]? = some p → p.status = .refunded →
    ∃ q, s.participations[pid]? = some q ∧ q.status = .refunded

/-- A write that refunds nobody and takes no refund back. -/
theorem RefundedPaidBack.of_kept {s t : Store} (hs : RefundedPaidBack s) (hstable : Stable s t)
    (hkept : RefundsNobody s t) (htotal : ∀ k, completedRefundTotal s k ≤ completedRefundTotal t k) :
    RefundedPaidBack t := by
  intro pid p hp hrefunded
  obtain ⟨q, hq, hbefore⟩ := hkept pid p hp hrefunded
  obtain ⟨k, pay, hpay, hkey, hpos⟩ := hs pid q hq hbefore
  obtain ⟨pay', hpay', hsame⟩ := hstable.payments k pay hpay
  exact ⟨k, pay', hpay', hsame.1.trans hkey, lt_of_lt_of_le hpos (htotal k)⟩

theorem refundsNobody_same {s t : Store} (hps : t.participations = s.participations) :
    RefundsNobody s t := by
  intro pid p hp hrefunded
  rw [hps] at hp
  exact ⟨p, hp, hrefunded⟩

theorem refundsNobody_withStatus {s t : Store} {i : ℕ} {status : ParticipationStatus}
    {paidAt : Option ℕ}
    (hps : t.participations = s.participations.modify i (·.withStatus status paidAt))
    (hne : status ≠ .refunded) :
    RefundsNobody s t := by
  intro pid p hp hrefunded
  rw [hps] at hp
  rcases getElem?_modify_cases hp with ⟨-, q, -, rfl⟩ | ⟨-, hold⟩
  · exact absurd hrefunded hne
  · exact ⟨p, hold, hrefunded⟩

theorem refundedPaidBack_commit {s t : Store} {e : Effect} (hs : RefundedPaidBack s)
    (hpos : ∀ n ∈ s.payments.map Payment.amount, 1 ≤ n) (h : Commit s e t) :
    RefundedPaidBack t := by
  have hstable := stable_commit h
  have hsame : ∀ {t : Store}, t.refunds = s.refunds →
      ∀ k, completedRefundTotal s k ≤ completedRefundTotal t k := by
    intro t hrefunds k
    rw [completedRefundTotal, completedRefundTotal, hrefunds]
  have hmoved : ∀ {t : Store} {i : ℕ} {r : PaymentRefund} {status : RefundStatus}
      {ref : Option String}, s.refunds[i]? = some r → r.status ≠ .completed →
      t.refunds = (s.saveRefund i status ref).refunds →
      ∀ k, completedRefundTotal s k ≤ completedRefundTotal t k := by
    intro t i r status ref hr hopen hrefunds k
    rw [completedRefundTotal_move hr hopen hrefunds k]
    exact Nat.le_add_right _ _
  cases h with
  | reserve hrow hroom hnum =>
      refine hs.of_kept hstable ?_ (hsame rfl)
      intro pid p hp hrefunded
      rcases getElem?_concat_cases hp with hold | ⟨-, rfl⟩
      · exact ⟨p, hold, hrefunded⟩
      · cases hrefunded
  | release hp hpend =>
      exact hs.of_kept hstable (refundsNobody_withStatus rfl (by decide)) (hsame rfl)
  | persist hpid hnew hpend => exact hs.of_kept hstable (refundsNobody_same rfl) (hsame rfl)
  | mismatch hpay hp =>
      exact hs.of_kept hstable (refundsNobody_withStatus rfl (by decide)) (hsame rfl)
  | reject hpay hp hpend =>
      exact hs.of_kept hstable (refundsNobody_withStatus rfl (by decide)) (hsame rfl)
  | succeed hpay hp hpend =>
      exact hs.of_kept hstable (refundsNobody_withStatus rfl (by decide)) (hsame rfl)
  | expire hnone => exact hs.of_kept hstable (refundsNobody_withStatus rfl (by decide)) (hsame rfl)
  | expireWith hpay hpid hpend =>
      exact hs.of_kept hstable (refundsNobody_withStatus rfl (by decide)) (hsame rfl)
  | requestRefund hpay hr hpend hsuccess hroom =>
      refine hs.of_kept hstable (refundsNobody_same rfl) fun k => ?_
      rw [completedRefundTotal_request s hpend]
  | reviewRefund hr hpend hpay hstatus =>
      exact hs.of_kept hstable (refundsNobody_same rfl) (hmoved hr (by simp [hpend]) rfl)
  | completeRefund hr happ hpay hp hpart =>
      exact hs.of_kept hstable (refundsNobody_same rfl) (hmoved hr (by simp [happ]) rfl)
  | @completeFullRefund i r pay p ref hr happ hpay hp hfull =>
      intro pid q hq hrefunded
      have hparts := getElem?_modify_cases hq
      rcases hparts with ⟨rfl, -⟩ | ⟨-, hold⟩
      · -- the refund that is completed here
        refine ⟨r.payment, pay, hpay, rfl, ?_⟩
        have hmove := completedRefundTotal_move (t := ((((s.saveRefund i .completed
          (some ref)).saveParticipation pay.participation .refunded none).noted r.payment pay
            .refundCompleted).sync p.campaign)) hr (by simp [happ]) rfl r.payment
        have hamount := hpos pay.amount (List.mem_map_of_mem (List.mem_of_getElem? hpay))
        rw [if_pos ⟨rfl, rfl⟩] at hmove
        omega
      · obtain ⟨k, pay', hpay', hkey, htotal⟩ := hs pid q hold hrefunded
        exact ⟨k, pay', hpay', hkey, lt_of_lt_of_le htotal (hmoved hr (by simp [happ]) rfl k)⟩
  | fund hrow hroom => exact hs.of_kept hstable (refundsNobody_same rfl) (hsame rfl)
  | voidFund hf => exact hs.of_kept hstable (refundsNobody_same rfl) (hsame rfl)
  | createAdjustment hpend => exact hs.of_kept hstable (refundsNobody_same rfl) (hsame rfl)
  | reviewAdjustment ha hpend hstatus =>
      exact hs.of_kept hstable (refundsNobody_same rfl) (hsame rfl)
  | applyAdjustment ha happ hnone =>
      exact hs.of_kept hstable (refundsNobody_same rfl) (hsame rfl)
  | applyPaymentAdjustment ha happ hk hpay =>
      exact hs.of_kept hstable (refundsNobody_same rfl) (hsame rfl)

theorem refundedPaidBack_sequential (campaigns : List Campaign) (ops : List Operation) :
    RefundedPaidBack (run perform (start campaigns) ops).db := by
  have hboth : (∀ n ∈ (run perform (start campaigns) ops).db.payments.map Payment.amount, 1 ≤ n) ∧
      RefundedPaidBack (run perform (start campaigns) ops).db := by
    apply invariant_sequential (I := fun s : Sys =>
      (∀ n ∈ s.db.payments.map Payment.amount, 1 ≤ n) ∧ RefundedPaidBack s.db)
    · rintro s a ⟨hpos, hback⟩
      refine ⟨positive_step hpos a, ?_⟩
      rcases step_db s a with hsame | ⟨e, -, hcommit⟩
      · rw [hsame]
        exact hback
      · exact refundedPaidBack_commit hback hpos hcommit
    · constructor
      · simp [start]
      · intro pid p hp
        simp [start] at hp
  exact hboth.2

/-- The summary counts a refund that the counter leaves out exactly when a participation is
REFUNDED. -/
theorem refundsOfUnpaid_eq_zero_iff {s : Store} (hs : Settled s)
    (hback : RefundedPaidBack s) (c : ℕ) :
    refundsOfUnpaid s c = 0 ↔
      ∀ p ∈ s.participations, p.campaign = c → p.status ≠ .refunded := by
  constructor
  · intro hzero p hp hcampaign hrefunded
    obtain ⟨pid, hpid⟩ := List.getElem?_of_mem hp
    obtain ⟨k, pay, hpay, rfl, hpos⟩ := hback pid p hpid hrefunded
    have hle : completedRefundTotal s k ≤ refundsOfUnpaid s c := by
      apply sumWhere_le_of_imp
      intro r hr hof
      obtain ⟨rfl, hcompleted⟩ : r.payment = k ∧ r.status = .completed := by
        simpa [PaymentRefund.ofPayment] using hof
      simp [PaymentRefund.ofCampaign, Payment.ofCampaign, paymentPaidIn, Participation.paidIn,
        hpay, hpid, hcampaign, hrefunded, hcompleted]
    omega
  · intro hnone
    apply sumWhere_eq_zero
    intro r hr
    by_contra hcounted
    simp only [Bool.not_eq_false, Bool.and_eq_true, beq_iff_eq, Bool.not_eq_true',
      PaymentRefund.ofCampaign, Payment.ofCampaign, Option.any_eq_true] at hcounted
    obtain ⟨⟨-, pay, hpay, p, hp, hcampaign⟩, hunpaid⟩ := hcounted
    have hsuccess := hs.refunds r hr pay hpay
    -- a completed refund has a successful payment, so its participation is PAID or REFUNDED
    rcases hs.success r.payment pay hpay hsuccess p hp with hpaid | ⟨hrefunded, -⟩
    · simp [paymentPaidIn, Participation.paidIn, hpay, hp, hcampaign, hpaid] at hunpaid
    · exact hnone p (List.mem_of_getElem? hp) hcampaign hrefunded

/-! ## When the summary adds up -/

/-- **The summary.** In every state a sequential run of the services reaches, it adds up exactly
when no participation of the campaign is REFUNDED, or the refunds of the PAID ones leave nothing of
what they paid. -/
theorem control_summary_adds_up_iff (campaigns : List Campaign) (ops : List Operation) (c : ℕ)
    (row : Campaign) (hrow : (run perform (start campaigns) ops).db.campaigns[c]? = some row) :
    let s := (run perform (start campaigns) ops).db
    (getCampaignFinancialControlSummary s c row).AddsUp ↔
      (∀ p ∈ s.participations, p.campaign = c → p.status ≠ .refunded) ∨
        (paidAmount s.participations c : ℤ) + adjustmentDelta s.adjustments c ≤
          completedRefunds s.participations s.payments s.refunds c := by
  have hsound := sound_sequential campaigns ops
  have hs := settled_sequential campaigns ops
  have hback := refundedPaidBack_sequential campaigns ops
  intro s
  rw [← refundsOfUnpaid_eq_zero_iff hs hback]
  have hstored : row.purchasedAmount = (ledger s c).purchasedAmount := by
    rw [← hsound.synced c row hrow]
    rfl
  have hsplit := refunds_split s c
  have hdelta := signed_sum s c
  simp only [FinancialControlSummary.AddsUp, getCampaignFinancialControlSummary, hstored, ledger,
    hsplit, hdelta]
  change _ ↔ refundsOfUnpaid s c = 0 ∨ _
  omega

/-- The stored row after one donation went back in full and another in part. -/
def partlyRefunded : Campaign :=
  { tenShares with purchasedShares := 3, purchasedAmount := 2500, participantCount := 1 }

theorem control_summary_adds_up_iff_refunded :
    (getCampaignFinancialControlSummary (run perform (start [tenShares]) refundedRun).db 0
        partlyRefunded).AddsUp ↔
      (∀ p ∈ (run perform (start [tenShares]) refundedRun).db.participations, p.campaign = 0 →
          p.status ≠ .refunded) ∨
        (paidAmount (run perform (start [tenShares]) refundedRun).db.participations 0 : ℤ) +
            adjustmentDelta (run perform (start [tenShares]) refundedRun).db.adjustments 0 ≤
          completedRefunds (run perform (start [tenShares]) refundedRun).db.participations
            (run perform (start [tenShares]) refundedRun).db.payments
            (run perform (start [tenShares]) refundedRun).db.refunds 0 :=
  control_summary_adds_up_iff [tenShares] refundedRun 0 partlyRefunded (by decide +kernel)

/-- 3000 are paid and 2500 of them are left after a refund of 500, but the summary counts refunds
of 2500. -/
theorem control_summary_off :
    (run perform (start [tenShares]) refundedRun).db.campaigns[0]? = some partlyRefunded ∧
      getCampaignFinancialControlSummary (run perform (start [tenShares]) refundedRun).db 0
          partlyRefunded =
        ⟨0, 3000, 2500, 2, 0, 0, 2500, 7⟩ ∧
      ¬ (getCampaignFinancialControlSummary (run perform (start [tenShares]) refundedRun).db 0
          partlyRefunded).AddsUp := by
  refine ⟨?_, ?_, ?_⟩
  · decide +kernel
  · decide +kernel
  · decide +kernel

end SetadJang.Madadkar
