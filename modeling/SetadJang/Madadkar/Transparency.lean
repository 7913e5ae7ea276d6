import Mathlib.Algebra.Ring.Int.Defs
import SetadJang.Madadkar.Refunds
import SetadJang.Madadkar.Sequential

/-!
# The public transparency report

`get_public_campaign_transparency` counts SUCCESS payments, all completed
refunds and applied adjustments.  `purchased_amount` counts PAID participations,
the completed refunds of PAID participations and the same adjustments.  The two
figures agree when every SUCCESS payment belongs to a participation of its amount
that is PAID, or REFUNDED after its whole amount went back.  Sequential runs keep
it that way.
-/

namespace SetadJang.Madadkar

open SetadJang.Framework SetadJang.Framework.Txn

/-! ## The selector -/

inductive DisbursementStatus where
  | requested
  | approved
  | rejected
  | paid
  | canceled
deriving DecidableEq, Repr

structure CampaignDisbursement where
  campaign : ℕ
  amount : ℕ
  status : DisbursementStatus
deriving DecidableEq, Repr

/-- `signed_amount`: positive for a credit, negative for anything else. -/
def CampaignFinancialAdjustment.signedAmount (a : CampaignFinancialAdjustment) : ℤ :=
  if a.adjustmentType = .credit then a.amount else -a.amount

/-- The figures of the report. -/
structure PublicCampaignTransparency where
  grossRaisedAmount : ℕ
  completedRefundAmount : ℕ
  appliedAdjustmentDelta : ℤ
  netRaisedAmount : ℕ
  externalFundedShares : ℕ
  externalFundedAmount : ℕ
  externalFundingCount : ℕ
  totalFundedAmount : ℕ
  paidDisbursementAmount : ℕ
  committedDisbursementAmount : ℕ
  remainingDisbursableAmount : ℕ
  successfulPaymentCount : ℕ
  completedRefundCount : ℕ
  paidDisbursementCount : ℕ
deriving DecidableEq, Repr

/-- `participation__campaign=campaign` on a payment. -/
def Payment.ofCampaign (ps : List Participation) (c : ℕ) (pay : Payment) : Bool :=
  ps[pay.participation]?.any fun p => p.campaign == c

/-- `payment__participation__campaign=campaign` on a refund. -/
def PaymentRefund.ofCampaign (ps : List Participation) (pays : List Payment) (c : ℕ)
    (r : PaymentRefund) : Bool :=
  pays[r.payment]?.any (Payment.ofCampaign ps c)

/-- The rows behind `gross_amount`. -/
def successfulPayments (s : Store) (c : ℕ) : List Payment :=
  s.payments.filter fun pay => pay.status == .success && pay.ofCampaign s.participations c

/-- The rows behind `refund_amount`. -/
def campaignRefunds (s : Store) (c : ℕ) : List PaymentRefund :=
  s.refunds.filter fun r => r.status == .completed && r.ofCampaign s.participations s.payments c

def appliedAdjustments (s : Store) (c : ℕ) : List CampaignFinancialAdjustment :=
  s.adjustments.filter fun a => a.campaign == c && a.status == .applied

def CampaignDisbursement.committed (d : CampaignDisbursement) : Bool :=
  [DisbursementStatus.requested, .approved, .paid].contains d.status

/-- `get_public_campaign_transparency`.  The disbursements are a table of their
own. -/
def getPublicCampaignTransparency (s : Store) (disbursements : List CampaignDisbursement)
    (c : ℕ) : PublicCampaignTransparency :=
  let own := disbursements.filter fun d => d.campaign == c
  let paidOnes := own.filter fun d => d.status == .paid
  let gross := ((successfulPayments s c).map Payment.amount).sum
  let refunded := ((campaignRefunds s c).map PaymentRefund.amount).sum
  let delta := ((appliedAdjustments s c).map CampaignFinancialAdjustment.signedAmount).sum
  let net := ((gross : ℤ) - refunded + delta).toNat
  let committed := ((own.filter CampaignDisbursement.committed).map CampaignDisbursement.amount).sum
  { grossRaisedAmount := gross
    completedRefundAmount := refunded
    appliedAdjustmentDelta := delta
    netRaisedAmount := net
    externalFundedShares := externalShares s.fundings c
    externalFundedAmount := externalAmount s.fundings c
    externalFundingCount := (s.fundings.filter (ExternalFunding.recordedIn c)).length
    totalFundedAmount := net + externalAmount s.fundings c
    paidDisbursementAmount := (paidOnes.map CampaignDisbursement.amount).sum
    committedDisbursementAmount := committed
    remainingDisbursableAmount := net - committed
    successfulPaymentCount := (successfulPayments s c).length
    completedRefundCount := (campaignRefunds s c).length
    paidDisbursementCount := paidOnes.length }

/-! ## What sequential runs keep -/

structure Settled (s : Store) : Prop where
  amounts : ∀ pay ∈ s.payments, ∀ p ∈ s.participations[pay.participation]?,
    pay.amount = p.totalAmount
  success : ∀ k pay, s.payments[k]? = some pay → pay.status = .success →
    ∀ p ∈ s.participations[pay.participation]?,
      p.status = .paid ∨ (p.status = .refunded ∧ completedRefundTotal s k = pay.amount)
  paid : ∀ pid p, s.participations[pid]? = some p → p.status = .paid →
    ∃ pay ∈ s.payments, pay.participation = pid ∧ pay.status = .success
  refunds : ∀ r ∈ s.refunds, ∀ pay ∈ s.payments[r.payment]?, pay.status = .success
  cap : RefundCap s

section

variable {s t : Store} (hw : Wired s) (hs : Settled s)

include hs

/-- The three tables are left alone. -/
theorem Settled.of_same (hps : t.participations = s.participations)
    (hpays : t.payments = s.payments) (hrefunds : t.refunds = s.refunds) : Settled t := by
  obtain ⟨hamounts, hsuccess, hpaid, hrefund, hcap⟩ := hs
  refine
    { amounts := ?amounts, success := ?success, paid := ?paid, refunds := ?refunds, cap := ?cap }
  case amounts =>
    rw [hps, hpays]
    exact hamounts
  case success =>
    rw [hps, hpays]
    intro k pay hpay hstatus p hp
    rw [completedRefundTotal, hrefunds]
    exact hsuccess k pay hpay hstatus p hp
  case paid =>
    rw [hps, hpays]
    exact hpaid
  case refunds =>
    rw [hpays, hrefunds]
    exact hrefund
  case cap =>
    intro k pay hpay
    rw [claimedRefunds, hrefunds]
    rw [hpays] at hpay
    exact hcap k pay hpay

include hw in
/-- A new participation has no payment. -/
theorem Settled.reserved {p₀ : Participation} (hopen : p₀.status = .pendingPayment)
    (hps : t.participations = s.participations ++ [p₀]) (hpays : t.payments = s.payments)
    (hrefunds : t.refunds = s.refunds) (hcap : RefundCap t) : Settled t := by
  have hlookup : ∀ pay ∈ s.payments, t.participations[pay.participation]? =
      s.participations[pay.participation]? := by
    intro pay hpay
    rw [hps, List.getElem?_append_left (hw.payment_participation _ (List.mem_map_of_mem hpay))]
  refine
    { amounts := ?amounts, success := ?success, paid := ?paid, refunds := ?refunds, cap := hcap }
  case amounts =>
    intro pay hpay p hp
    rw [hpays] at hpay
    rw [hlookup pay hpay] at hp
    exact hs.amounts pay hpay p hp
  case success =>
    intro k pay hpay hstatus p hp
    rw [hpays] at hpay
    rw [hlookup pay (List.mem_of_getElem? hpay)] at hp
    rw [completedRefundTotal, hrefunds]
    exact hs.success k pay hpay hstatus p hp
  case paid =>
    intro pid p hp hstatus
    rw [hps] at hp
    rw [hpays]
    rcases getElem?_concat_cases hp with hold | ⟨-, rfl⟩
    · exact hs.paid pid p hold hstatus
    · rw [hopen] at hstatus
      cases hstatus
  case refunds =>
    rw [hpays, hrefunds]
    exact hs.refunds

/-- A participation without a SUCCESS payment gives its shares back. -/
theorem Settled.overwritten {pid : ℕ} {status : ParticipationStatus} {paidAt : Option ℕ}
    (hps : t.participations = s.participations.modify pid (·.withStatus status paidAt))
    (hpays : t.payments = s.payments) (hrefunds : t.refunds = s.refunds)
    (hunpaid : ∀ pay ∈ s.payments, pay.participation = pid → pay.status ≠ .success)
    (hout : status ≠ .paid) (hcap : RefundCap t) : Settled t := by
  refine
    { amounts := ?amounts, success := ?success, paid := ?paid, refunds := ?refunds, cap := hcap }
  case amounts =>
    intro pay hpay p hp
    rw [hpays] at hpay
    rw [hps, Option.mem_def] at hp
    rcases getElem?_modify_cases hp with ⟨rfl, old, hold, rfl⟩ | ⟨-, hold⟩
    · exact hs.amounts pay hpay old hold
    · exact hs.amounts pay hpay p hold
  case success =>
    intro k pay hpay hstatus p hp
    rw [hpays] at hpay
    rw [hps, Option.mem_def] at hp
    rw [completedRefundTotal, hrefunds]
    rcases getElem?_modify_cases hp with ⟨hpid, -⟩ | ⟨-, hold⟩
    · exact absurd hstatus (hunpaid pay (List.mem_of_getElem? hpay) hpid.symm)
    · exact hs.success k pay hpay hstatus p hold
  case paid =>
    intro j p hp hstatus
    rw [hps] at hp
    rw [hpays]
    rcases getElem?_modify_cases hp with ⟨-, old, -, rfl⟩ | ⟨-, hold⟩
    · exact absurd hstatus hout
    · exact hs.paid j p hold hstatus
  case refunds =>
    rw [hpays, hrefunds]
    exact hs.refunds

include hw in
/-- A pending payment and its participation are settled together. -/
theorem Settled.together {k : ℕ} {pay : Payment} {st : Settlement}
    {status : ParticipationStatus} {paidAt : Option ℕ} (hpay : s.payments[k]? = some pay)
    (hpend : pay.status = .pending)
    (hps : t.participations =
      s.participations.modify pay.participation (·.withStatus status paidAt))
    (hpays : t.payments = s.payments.modify k (·.settle st)) (hrefunds : t.refunds = s.refunds)
    (hfits : st.status = .success ↔ status = .paid) (hcap : RefundCap t) : Settled t := by
  refine
    { amounts := ?amounts, success := ?success, paid := ?paid, refunds := ?refunds, cap := hcap }
  case amounts =>
    intro q hq p hp
    obtain ⟨j, hj⟩ := List.getElem?_of_mem hq
    rw [hpays] at hj
    rw [hps, Option.mem_def] at hp
    -- neither write touches the amounts or the key between the two rows
    obtain ⟨q₀, hq₀, hkey, hamount⟩ : ∃ q₀ ∈ s.payments,
        q.participation = q₀.participation ∧ q.amount = q₀.amount := by
      rcases getElem?_modify_cases hj with ⟨-, a, ha, rfl⟩ | ⟨-, hold⟩
      · exact ⟨a, List.mem_of_getElem? ha, rfl, rfl⟩
      · exact ⟨q, List.mem_of_getElem? hold, rfl, rfl⟩
    rw [hkey] at hp
    rw [hamount]
    rcases getElem?_modify_cases hp with ⟨heq, old, hold, rfl⟩ | ⟨-, hold⟩
    · rw [heq] at hold
      exact hs.amounts q₀ hq₀ old hold
    · exact hs.amounts q₀ hq₀ p hold
  case success =>
    intro j q hq hsuccess p hp
    rw [hpays] at hq
    rw [hps, Option.mem_def] at hp
    rw [completedRefundTotal, hrefunds]
    rcases getElem?_modify_cases hq with ⟨-, a, ha, rfl⟩ | ⟨hkj, hold⟩
    · rw [hpay] at ha
      cases ha
      left
      have hstatus := hfits.mp hsuccess
      rcases getElem?_modify_cases hp with ⟨-, old, -, rfl⟩ | ⟨hne, -⟩
      · exact hstatus
      · exact absurd rfl hne
    · -- another payment belongs to another participation
      rcases getElem?_modify_cases hp with ⟨heq, -⟩ | ⟨-, hrow⟩
      · exact absurd (hw.payment_key hpay hold heq) hkj
      · exact hs.success j q hold hsuccess p hrow
  case paid =>
    intro pid p hp hpaid
    rw [hps] at hp
    rw [hpays]
    rcases getElem?_modify_cases hp with ⟨rfl, old, -, rfl⟩ | ⟨-, hold⟩
    · refine ⟨pay.settle st, ?_, rfl, hfits.mpr hpaid⟩
      apply List.mem_of_getElem? (i := k)
      simp [hpay]
    · obtain ⟨q, hq, hkey, hsuccess⟩ := hs.paid pid p hold hpaid
      obtain ⟨j, hj⟩ := List.getElem?_of_mem hq
      have hkj : k ≠ j := by
        rintro rfl
        rw [hpay] at hj
        cases hj
        rw [hpend] at hsuccess
        cases hsuccess
      refine ⟨q, ?_, hkey, hsuccess⟩
      apply List.mem_of_getElem? (i := j)
      rw [List.getElem?_modify_ne _ _ hkj, hj]
  case refunds =>
    intro r hr q hq
    rw [hrefunds] at hr
    rw [hpays, Option.mem_def] at hq
    rcases getElem?_modify_cases hq with ⟨heq, -⟩ | ⟨-, hold⟩
    · -- nobody can ask for a refund of a payment that is still pending
      have hsuccess := hs.refunds r hr pay (by rw [← heq, hpay]; rfl)
      rw [hpend] at hsuccess
      cases hsuccess
    · exact hs.refunds r hr q hold

include hw in
theorem Settled.persisted {pay : Payment} {p : Participation}
    (hp : s.participations[pay.participation]? = some p) (hamount : pay.amount = p.totalAmount)
    (hpend : pay.status = .pending) (hps : t.participations = s.participations)
    (hpays : t.payments = s.payments ++ [pay]) (hrefunds : t.refunds = s.refunds)
    (hcap : RefundCap t) : Settled t := by
  refine
    { amounts := ?amounts, success := ?success, paid := ?paid, refunds := ?refunds, cap := hcap }
  case amounts =>
    intro q hq p' hp'
    rw [hpays] at hq
    rw [hps] at hp'
    rcases List.mem_append.mp hq with hold | hnew
    · exact hs.amounts q hold p' hp'
    · obtain rfl := List.mem_singleton.mp hnew
      rw [hp, Option.mem_some_iff] at hp'
      rw [← hp']
      exact hamount
  case success =>
    intro j q hq hsuccess p' hp'
    rw [hpays] at hq
    rw [hps] at hp'
    rw [completedRefundTotal, hrefunds]
    rcases getElem?_concat_cases hq with hold | ⟨-, rfl⟩
    · exact hs.success j q hold hsuccess p' hp'
    · rw [hpend] at hsuccess
      cases hsuccess
  case paid =>
    intro pid p' hp' hpaid
    rw [hps] at hp'
    obtain ⟨q, hq, hrest⟩ := hs.paid pid p' hp' hpaid
    exact ⟨q, by rw [hpays]; exact List.mem_append_left _ hq, hrest⟩
  case refunds =>
    intro r hr q hq
    rw [hrefunds] at hr
    have hlt := hw.refund_payment _ (List.mem_map_of_mem hr)
    rw [hpays, List.getElem?_append_left hlt] at hq
    exact hs.refunds r hr q hq

/-- A refund is asked for: nothing is paid out yet. -/
theorem Settled.refundRequested {r : PaymentRefund} {pay : Payment}
    (hpay : s.payments[r.payment]? = some pay) (hsuccess : pay.status = .success)
    (hopen : r.status = .pendingReview) (hps : t.participations = s.participations)
    (hpays : t.payments = s.payments) (hrefunds : t.refunds = s.refunds ++ [r])
    (hcap : RefundCap t) : Settled t := by
  refine
    { amounts := ?amounts, success := ?success, paid := ?paid, refunds := ?refunds, cap := hcap }
  case amounts =>
    rw [hps, hpays]
    exact hs.amounts
  case success =>
    intro k q hq hstatus p hp
    rw [hpays] at hq
    rw [hps] at hp
    have hsame : completedRefundTotal t k = completedRefundTotal s k := by
      rw [completedRefundTotal, completedRefundTotal, hrefunds, sumWhere_append]
      simp [PaymentRefund.ofPayment, hopen]
    rw [hsame]
    exact hs.success k q hq hstatus p hp
  case paid =>
    rw [hps, hpays]
    exact hs.paid
  case refunds =>
    intro r' hr' q hq
    rw [hpays] at hq
    rw [hrefunds] at hr'
    rcases List.mem_append.mp hr' with hold | hnew
    · exact hs.refunds r' hold q hq
    · obtain rfl := List.mem_singleton.mp hnew
      rw [hpay, Option.mem_some_iff] at hq
      rw [← hq]
      exact hsuccess

omit hs in
/-- What a refund that was not paid out yet adds when it moves on. -/
theorem completedRefundTotal_move {i : ℕ} {r : PaymentRefund} {status : RefundStatus}
    {ref : Option String} (hr : s.refunds[i]? = some r) (hopen : r.status ≠ .completed)
    (hrefunds : t.refunds = (s.saveRefund i status ref).refunds) (k : ℕ) :
    completedRefundTotal t k = completedRefundTotal s k +
      if r.payment = k ∧ status = .completed then r.amount else 0 := by
  have hbalance := sumWhere_modify (PaymentRefund.ofPayment k [.completed]) PaymentRefund.amount
    (fun r => { r with status := status, providerRefId := ref.getD r.providerRefId }) hr
  rw [completedRefundTotal, completedRefundTotal, hrefunds, Store.saveRefund_refunds]
  have hbefore : PaymentRefund.ofPayment k [.completed] r = false := by
    simp [PaymentRefund.ofPayment, hopen]
  rw [hbefore] at hbalance
  simpa [PaymentRefund.ofPayment] using hbalance

omit hs in
/-- Moving a refund leaves its payment. -/
theorem refund_moved {i : ℕ} {status : RefundStatus} {ref : Option String} {r : PaymentRefund}
    (hrefunds : t.refunds = (s.saveRefund i status ref).refunds) (hr : r ∈ t.refunds) :
    ∃ r₀ ∈ s.refunds, r₀.payment = r.payment := by
  rw [hrefunds, Store.saveRefund_refunds] at hr
  obtain ⟨j, hj⟩ := List.getElem?_of_mem hr
  rcases getElem?_modify_cases hj with ⟨-, r₀, hr₀, rfl⟩ | ⟨-, hold⟩
  · exact ⟨r₀, List.mem_of_getElem? hr₀, rfl⟩
  · exact ⟨r, List.mem_of_getElem? hold, rfl⟩

/-- A refund moves on and the participation stays as it is. -/
theorem Settled.refundMoved {i : ℕ} {r : PaymentRefund} {status : RefundStatus}
    {ref : Option String} (hr : s.refunds[i]? = some r) (hopen : r.status ≠ .completed)
    (hps : t.participations = s.participations) (hpays : t.payments = s.payments)
    (hrefunds : t.refunds = (s.saveRefund i status ref).refunds) (hcap : RefundCap t) :
    Settled t := by
  refine
    { amounts := ?amounts, success := ?success, paid := ?paid, refunds := ?refunds, cap := hcap }
  case amounts =>
    rw [hps, hpays]
    exact hs.amounts
  case success =>
    intro k q hq hstatus p hp
    have hq' : s.payments[k]? = some q := hpays ▸ hq
    rw [hps] at hp
    rcases hs.success k q hq' hstatus p hp with hpaid | ⟨hrefunded, hall⟩
    · exact Or.inl hpaid
    · -- everything went back before, and the cap leaves nothing to add
      right
      have hmove := completedRefundTotal_move hr hopen hrefunds k
      have hclaimed := claimedRefunds_eq t k
      have hbound := hcap k q hq
      refine ⟨hrefunded, ?_⟩
      omega
  case paid =>
    rw [hps, hpays]
    exact hs.paid
  case refunds =>
    intro r' hr' q hq
    rw [hpays] at hq
    obtain ⟨r₀, hr₀, hkey⟩ := refund_moved hrefunds hr'
    rw [← hkey] at hq
    exact hs.refunds r₀ hr₀ q hq

include hw in
/-- A refund of the whole amount is paid out and the participation becomes
REFUNDED. -/
theorem Settled.refundedInFull {i : ℕ} {r : PaymentRefund} {pay : Payment} {ref : Option String}
    (hr : s.refunds[i]? = some r) (hopen : r.status ≠ .completed)
    (hpay : s.payments[r.payment]? = some pay) (hfull : pay.amount ≤ r.amount)
    (hps : t.participations =
      s.participations.modify pay.participation (·.withStatus .refunded none))
    (hpays : t.payments = s.payments)
    (hrefunds : t.refunds = (s.saveRefund i .completed ref).refunds) (hcap : RefundCap t) :
    Settled t := by
  refine
    { amounts := ?amounts, success := ?success, paid := ?paid, refunds := ?refunds, cap := hcap }
  case amounts =>
    intro q hq p hp
    rw [hpays] at hq
    rw [hps, Option.mem_def] at hp
    rcases getElem?_modify_cases hp with ⟨heq, old, hold, rfl⟩ | ⟨-, hold⟩
    · rw [heq] at hold
      exact hs.amounts q hq old hold
    · exact hs.amounts q hq p hold
  case success =>
    intro k q hq hstatus p hp
    have hq' : s.payments[k]? = some q := hpays ▸ hq
    rw [hps, Option.mem_def] at hp
    have hmove := completedRefundTotal_move hr hopen hrefunds k
    have hclaimed := claimedRefunds_eq t k
    have hbound := hcap k q hq
    rcases getElem?_modify_cases hp with ⟨heq, old, -, rfl⟩ | ⟨-, hold⟩
    · -- the cap leaves no room for another completed refund of this payment
      right
      obtain rfl := hw.payment_key hpay hq' heq
      rw [hpay] at hq'
      cases hq'
      rw [if_pos ⟨rfl, rfl⟩] at hmove
      refine ⟨rfl, ?_⟩
      omega
    · rcases hs.success k q hq' hstatus p hold with hpaid | ⟨hrefunded, hall⟩
      · exact Or.inl hpaid
      · refine Or.inr ⟨hrefunded, ?_⟩
        omega
  case paid =>
    intro pid p hp hpaid
    rw [hps] at hp
    rw [hpays]
    rcases getElem?_modify_cases hp with ⟨-, old, -, rfl⟩ | ⟨-, hold⟩
    · cases hpaid
    · exact hs.paid pid p hold hpaid
  case refunds =>
    intro r' hr' q hq
    rw [hpays] at hq
    obtain ⟨r₀, hr₀, hkey⟩ := refund_moved hrefunds hr'
    rw [← hkey] at hq
    exact hs.refunds r₀ hr₀ q hq

end

/-- **Step lemma.** -/
theorem settled_commit {s t : Store} {e : Effect} (hw : Wired s) (hs : Settled s)
    (hcalm : e.Calm s) (h : Commit s e t) : Settled t := by
  have hcap := refundCap_commit hw hs.cap h
  cases h with
  | reserve hrow hroom hpos => exact hs.reserved hw rfl rfl rfl rfl hcap
  | release hp hpend =>
      refine hs.overwritten rfl rfl rfl ?_ (by decide) hcap
      intro pay hpay hpid
      exact absurd hpid (hcalm pay hpay)
  | persist hpid hnew hpend => exact hcalm.elim
  | mismatch hpay hp =>
      exact hs.together hw hpay (hcalm _ hpay) rfl rfl rfl (by simp) hcap
  | reject hpay hp hpend => exact hs.together hw hpay hpend rfl rfl rfl (by simp) hcap
  | succeed hpay hp hpend => exact hs.together hw hpay hpend rfl rfl rfl (by simp) hcap
  | expire hnone =>
      refine hs.overwritten rfl rfl rfl ?_ (by decide) hcap
      intro pay hpay hpid hsuccess
      have hlt := hw.payment_participation _ (List.mem_map_of_mem hpay)
      obtain ⟨p, hrow⟩ : ∃ p, s.participations[pay.participation]? = some p :=
        ⟨_, List.getElem?_eq_getElem hlt⟩
      obtain ⟨k, hk⟩ := List.getElem?_of_mem hpay
      have hopen : p.status = .pendingPayment := by
        apply hcalm
        rw [← hpid]
        exact hrow
      rcases hs.success k pay hk hsuccess _ hrow with hpaid | ⟨hrefunded, -⟩
      · rw [hopen] at hpaid
        cases hpaid
      · rw [hopen] at hrefunded
        cases hrefunded
  | expireWith hpay hpid hpend =>
      subst hpid
      exact hs.together hw hpay hpend rfl rfl rfl (by simp) hcap
  | fund hrow hroom => exact hs.of_same rfl rfl rfl
  | voidFund hf => exact hs.of_same rfl rfl rfl
  | requestRefund hpay hr hpend hsuccess hroom =>
      subst hr
      exact hs.refundRequested hpay hsuccess hpend rfl rfl rfl hcap
  | reviewRefund hr hpend hpay hstatus =>
      exact hs.refundMoved hr (by simp [hpend]) rfl rfl rfl hcap
  | completeRefund hr happ hpay hp hpart =>
      exact hs.refundMoved hr (by simp [happ]) rfl rfl rfl hcap
  | completeFullRefund hr happ hpay hp hfull =>
      exact hs.refundedInFull hw hr (by simp [happ]) hpay hfull rfl rfl rfl hcap
  | createAdjustment hpend => exact hs.of_same rfl rfl rfl
  | reviewAdjustment ha hpend hstatus => exact hs.of_same rfl rfl rfl
  | applyAdjustment ha happ hnone => exact hs.of_same rfl rfl rfl
  | applyPaymentAdjustment ha happ hk hpay => exact hs.of_same rfl rfl rfl

theorem settled_sequential (campaigns : List Campaign) (ops : List Operation) :
    Settled (run perform (start campaigns) ops).db := by
  apply sequential_run
  · intro s t hw hs h
    cases h with
    | persist hp hopen hamount hpend hnew =>
        have hcap := refundCap_commit hw hs.cap (.persist (lt_length_of_getElem? hp) hnew hpend)
        exact hs.persisted hw hp hamount hpend rfl rfl rfl hcap
    | other h hcalm => exact settled_commit hw hs hcalm h
  · exact ⟨by simp [start], by simp [start], by simp [start], by simp [start],
      refundCap_start campaigns⟩

/-! ## The two figures, payment by payment -/

section

variable {s : Store}

/-- A payment whose participation is PAID in the campaign. -/
def Payment.paidFor (ps : List Participation) (c : ℕ) (pay : Payment) : Bool :=
  ps[pay.participation]?.any (Participation.paidIn c)

/-- `gross_amount`, spread over the payments. -/
theorem gross_range (s : Store) (c : ℕ) :
    ((successfulPayments s c).map Payment.amount).sum =
      ∑ k ∈ Finset.range s.payments.length, s.payments[k]?.elim 0 fun pay =>
        if pay.status == .success && pay.ofCampaign s.participations c then pay.amount else 0 :=
  sumWhere_range _ _ _

/-- A sum over the completed refunds whose payment passes, spread over the payments. -/
theorem refunds_fiber (hw : Wired s) (q : ℕ → Bool) :
    sumWhere (fun r => r.status == .completed && q r.payment) PaymentRefund.amount s.refunds =
      ∑ k ∈ Finset.range s.payments.length, if q k then completedRefundTotal s k else 0 := by
  have hkey : ∀ r ∈ s.refunds, r.payment < s.payments.length := by
    intro r hr
    exact hw.refund_payment _ (List.mem_map_of_mem hr)
  rw [sumWhere_fiber hkey]
  apply Finset.sum_congr rfl
  intro k _
  have hpred : (fun r : PaymentRefund => r.status == .completed && r.payment == k) =
      PaymentRefund.ofPayment k [.completed] := by
    funext r
    cases hst : r.status <;> simp [PaymentRefund.ofPayment, hst]
  rw [hpred]
  rfl

/-- `paid_amount`, spread over the payments: every PAID participation has one
payment and that payment has its amount. -/
theorem paidAmount_payments (hw : Wired s) (hs : Settled s) (c : ℕ) :
    paidAmount s.participations c =
      ∑ k ∈ Finset.range s.payments.length, s.payments[k]?.elim 0 fun pay =>
        if pay.paidFor s.participations c then pay.amount else 0 := by
  have hkey : ∀ pay ∈ s.payments, pay.participation < s.participations.length := by
    intro pay hpay
    exact hw.payment_participation _ (List.mem_map_of_mem hpay)
  have hgroup := sumWhere_fiber (p := fun _ => true) hkey
    (fun pid => s.participations[pid]?.any (Participation.paidIn c)) Payment.amount
  rw [paidAmount, sumWhere_range]
  symm
  rw [← sumWhere_range]
  refine Eq.trans hgroup ?_
  apply Finset.sum_congr rfl
  intro pid hpid
  obtain ⟨p, hrow⟩ : ∃ p, s.participations[pid]? = some p :=
    ⟨_, List.getElem?_eq_getElem (Finset.mem_range.mp hpid)⟩
  rw [hrow]
  simp only [Option.any_some, Option.elim_some]
  by_cases hpaid : p.paidIn c = true
  · have hstatus : p.status = .paid := by
      simpa using (Bool.and_eq_true_iff.mp hpaid).2
    obtain ⟨pay, hpay, rfl, -⟩ := hs.paid pid p hrow hstatus
    have hone := sumWhere_unique (p := fun _ => true) hw.payment_unique hpay rfl Payment.amount
    rw [if_pos hpaid, if_pos hpaid, hone]
    exact hs.amounts pay hpay p hrow
  · rw [if_neg hpaid, if_neg hpaid]

/-- **Balance of one payment.** Both figures count it in full, or the refunds of
the report take back what the report counts. -/
theorem payment_balance (hw : Wired s) (hs : Settled s) (c : ℕ) {k : ℕ} {pay : Payment}
    (hpay : s.payments[k]? = some pay) :
    (if pay.status == .success && pay.ofCampaign s.participations c then pay.amount else 0) +
        (if pay.paidFor s.participations c then completedRefundTotal s k else 0) =
      (if pay.paidFor s.participations c then pay.amount else 0) +
        (if pay.ofCampaign s.participations c then completedRefundTotal s k else 0) := by
  have hmem := List.mem_of_getElem? hpay
  obtain ⟨p, hp⟩ : ∃ p, s.participations[pay.participation]? = some p :=
    ⟨_, List.getElem?_eq_getElem (hw.payment_participation _ (List.mem_map_of_mem hmem))⟩
  simp only [Payment.ofCampaign, Payment.paidFor, Participation.paidIn, hp, Option.any_some]
  by_cases hc : p.campaign = c
  · by_cases hpaid : p.status = .paid
    · have hsuccess : pay.status = .success := by
        obtain ⟨pay', hpay', hof, hstatus⟩ := hs.paid _ p hp hpaid
        rw [List.inj_on_of_nodup_map hw.payment_unique hpay' hmem hof] at hstatus
        exact hstatus
      simp [hc, hpaid, hsuccess]
    · by_cases hsuccess : pay.status = .success
      · rcases hs.success k pay hpay hsuccess p hp with h | ⟨-, hfull⟩
        · exact absurd h hpaid
        · simp [hc, hpaid, hsuccess, hfull]
      · have hnone : completedRefundTotal s k = 0 := by
          apply sumWhere_eq_zero
          intro r hr
          have hother : r.payment ≠ k := by
            rintro rfl
            exact hsuccess (hs.refunds r hr pay hpay)
          simp [PaymentRefund.ofPayment, hother]
        simp [hpaid, hsuccess, hnone]
  · simp [hc]

/-- **Both figures without adjustments.** -/
theorem report_balance (hw : Wired s) (hs : Settled s) (c : ℕ) :
    ((successfulPayments s c).map Payment.amount).sum +
        completedRefunds s.participations s.payments s.refunds c =
      paidAmount s.participations c + ((campaignRefunds s c).map PaymentRefund.amount).sum := by
  have hcounted : completedRefunds s.participations s.payments s.refunds c = _ :=
    refunds_fiber hw (paymentPaidIn s.participations s.payments c)
  have hall : ((campaignRefunds s c).map PaymentRefund.amount).sum = _ :=
    refunds_fiber hw fun k => s.payments[k]?.any (Payment.ofCampaign s.participations c)
  rw [hcounted, hall, gross_range, paidAmount_payments hw hs, ← Finset.sum_add_distrib,
    ← Finset.sum_add_distrib]
  -- all four figures are now sums over the payments; they balance payment by payment
  apply Finset.sum_congr rfl
  intro k hk
  obtain ⟨pay, hpay⟩ : ∃ pay, s.payments[k]? = some pay :=
    ⟨_, List.getElem?_eq_getElem (Finset.mem_range.mp hk)⟩
  simp only [paymentPaidIn, hpay, Option.elim_some, Option.any_some, Option.bind_some]
  exact payment_balance hw hs c hpay

/-- The report adds up signed amounts, the counters subtract two sums. -/
theorem signed_sum (s : Store) (c : ℕ) :
    ((appliedAdjustments s c).map CampaignFinancialAdjustment.signedAmount).sum =
      adjustmentDelta s.adjustments c := by
  unfold appliedAdjustments adjustmentDelta
  induction s.adjustments with
  | nil => rfl
  | cons a as ih =>
      rw [sumWhere_cons, sumWhere_cons, List.filter_cons]
      by_cases happlied : (a.campaign == c && a.status == .applied) = true
      · rw [if_pos happlied, List.map_cons, List.sum_cons, ih]
        cases hty : a.adjustmentType <;>
          simp only [CampaignFinancialAdjustment.appliedIn, happlied, hty,
            CampaignFinancialAdjustment.signedAmount] <;> simp <;> omega
      · rw [if_neg happlied, ih]
        simp [CampaignFinancialAdjustment.appliedIn, happlied]

end

/-- **The report agrees with the counters.** In every state a sequential run of
the services reaches, `net_raised_amount` is the campaign's stored
`purchased_amount`. -/
theorem transparency_agrees (campaigns : List Campaign) (ops : List Operation)
    (disbursements : List CampaignDisbursement) (c : ℕ) (row : Campaign)
    (hrow : (run perform (start campaigns) ops).db.campaigns[c]? = some row) :
    (getPublicCampaignTransparency (run perform (start campaigns) ops).db disbursements
      c).netRaisedAmount = row.purchasedAmount := by
  have hsound := sound_sequential campaigns ops
  have hs := settled_sequential campaigns ops
  generalize run perform (start campaigns) ops = sys at hsound hs hrow
  have hstored : row.purchasedAmount = (ledger sys.db c).purchasedAmount := by
    rw [← hsound.synced c row hrow]
    rfl
  have hbalance := report_balance hsound.wired hs c
  have hdelta := signed_sum sys.db c
  rw [hstored]
  simp only [getPublicCampaignTransparency, ledger, hdelta]
  omega

/-- Two paid participations; one is refunded in full, the other in part. -/
def refundedRun : List Operation :=
  [.initiate 0 1 2 5 (some (gatewayYes "A1")), .verify "A1" (some (confirms 2000)) 6 true,
    .initiate 0 2 3 7 (some (gatewayYes "A2")), .verify "A2" (some (confirms 3000)) 8 true,
    .fin (.requestRefund 0 2000 none true), .fin (.approveRefund 0),
    .fin (.completeRefund 0 "R1"), .fin (.requestRefund 1 500 none true),
    .fin (.approveRefund 1), .fin (.completeRefund 1 "R2")]

theorem transparency_agrees_refunded :
    (getPublicCampaignTransparency (run perform (start [tenShares]) refundedRun).db [] 0
      ).netRaisedAmount = 2500 :=
  transparency_agrees [tenShares] refundedRun [] 0
    { tenShares with purchasedShares := 3, purchasedAmount := 2500, participantCount := 1 }
    (by decide +kernel)

end SetadJang.Madadkar
