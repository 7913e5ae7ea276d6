import Mathlib.Data.List.Dedup
import SetadJang.Framework.Rows

/-!
# Madadkar: campaigns, participations, payments

The tables behind `apps/madadkar/services.py`.  No service deletes a row, so a
table is a list and a primary key is a position.  The counters of a campaign are
denormalised; `ledger` is what `_sync_campaign_counters` computes for them from
the participations, refunds, adjustments and external fundings.

The second half gives the single writes of the services names, with the lemmas
that say which tables and which ledgers each of them leaves alone.
-/

namespace SetadJang.Madadkar

open SetadJang.Framework

inductive CampaignStatus where
  | draft
  | published
  | completed
  | closed
deriving DecidableEq, Repr

inductive ParticipationStatus where
  | pendingPayment
  | paid
  | failed
  | expired
  | refunded
deriving DecidableEq, Repr

inductive PaymentStatus where
  | pending
  | success
  | failed
deriving DecidableEq, Repr

inductive PaymentEventKind where
  | created
  | verifySuccess
  | verifyFailed
  | amountMismatch
  | expired
  | refundRequested
  | refundApproved
  | refundRejected
  | refundCompleted
  | adjustmentApplied
deriving DecidableEq, Repr

inductive ExternalFundingStatus where
  | recorded
  | voided
deriving DecidableEq, Repr

inductive RefundStatus where
  | pendingReview
  | approved
  | rejected
  | completed
deriving DecidableEq, Repr

inductive FinancialAdjustmentType where
  | credit
  | debit
deriving DecidableEq, Repr

inductive FinancialAdjustmentStatus where
  | pendingReview
  | approved
  | rejected
  | applied
deriving DecidableEq, Repr

structure Campaign where
  status : CampaignStatus
  isActive : Bool
  isVisible : Bool
  hasDeadline : Bool
  deadline : Option ℕ
  totalShares : ℕ
  sharePrice : ℕ
  purchasedShares : ℕ
  purchasedAmount : ℕ
  participantCount : ℕ
  externalFundedShares : ℕ
  externalFundedAmount : ℕ
deriving DecidableEq, Repr

structure Participation where
  campaign : ℕ
  user : ℕ
  shareCount : ℕ
  sharePriceSnapshot : ℕ
  totalAmount : ℕ
  status : ParticipationStatus
  createdAt : ℕ
  paidAt : Option ℕ
deriving DecidableEq, Repr

structure Payment where
  participation : ℕ
  user : ℕ
  amount : ℕ
  gatewayName : String
  authority : String
  refId : String
  gatewayStatus : String
  status : PaymentStatus
  paidAt : Option ℕ
  verifiedAt : Option ℕ
deriving DecidableEq, Repr

/-- A line of the append-only payment ledger.  The empty status of the source is
`none`. -/
structure PaymentEvent where
  payment : ℕ
  eventKind : PaymentEventKind
  previousStatus : Option PaymentStatus
  newStatus : Option PaymentStatus
  amount : ℕ
  gatewayStatus : String
  refId : String
deriving DecidableEq, Repr

structure ExternalFunding where
  campaign : ℕ
  shares : ℕ
  amount : ℕ
  sharePriceSnapshot : ℕ
  status : ExternalFundingStatus
deriving DecidableEq, Repr

structure PaymentRefund where
  payment : ℕ
  amount : ℕ
  status : RefundStatus
  idempotencyKey : Option String
  providerRefId : String
deriving DecidableEq, Repr

structure CampaignFinancialAdjustment where
  campaign : ℕ
  payment : Option ℕ
  amount : ℕ
  adjustmentType : FinancialAdjustmentType
  status : FinancialAdjustmentStatus
deriving DecidableEq, Repr

structure Store where
  campaigns : List Campaign
  participations : List Participation
  payments : List Payment
  events : List PaymentEvent
  fundings : List ExternalFunding
  refunds : List PaymentRefund
  adjustments : List CampaignFinancialAdjustment
deriving DecidableEq, Repr

/-! ## Properties of a campaign row -/

def Campaign.fundedShares (c : Campaign) : ℕ := c.purchasedShares + c.externalFundedShares

def Campaign.remainingShares (c : Campaign) : ℕ := c.totalShares - c.fundedShares

def Campaign.isFullyFunded (c : Campaign) : Bool := decide (c.totalShares ≤ c.fundedShares)

/-- Statuses whose shares count as taken. -/
def ParticipationStatus.isReserved : ParticipationStatus → Bool
  | .paid | .pendingPayment => true
  | _ => false

/-! ## The ledger of a campaign -/

/-- The five denormalised counters. -/
structure Counters where
  purchasedShares : ℕ
  purchasedAmount : ℕ
  participantCount : ℕ
  externalFundedShares : ℕ
  externalFundedAmount : ℕ
deriving DecidableEq, Repr

def Campaign.counters (c : Campaign) : Counters where
  purchasedShares := c.purchasedShares
  purchasedAmount := c.purchasedAmount
  participantCount := c.participantCount
  externalFundedShares := c.externalFundedShares
  externalFundedAmount := c.externalFundedAmount

def Campaign.withCounters (c : Campaign) (k : Counters) : Campaign :=
  { c with
    purchasedShares := k.purchasedShares
    purchasedAmount := k.purchasedAmount
    participantCount := k.participantCount
    externalFundedShares := k.externalFundedShares
    externalFundedAmount := k.externalFundedAmount }

def Participation.reservedIn (c : ℕ) (p : Participation) : Bool :=
  p.campaign == c && p.status.isReserved

def Participation.paidIn (c : ℕ) (p : Participation) : Bool :=
  p.campaign == c && p.status == .paid

/-- `reserved_shares`: PAID and PENDING_PAYMENT shares of the campaign. -/
def reservedShares (ps : List Participation) (c : ℕ) : ℕ :=
  sumWhere (Participation.reservedIn c) Participation.shareCount ps

/-- `paid_amount`. -/
def paidAmount (ps : List Participation) (c : ℕ) : ℕ :=
  sumWhere (Participation.paidIn c) Participation.totalAmount ps

/-- `unique_users`: distinct users with a PAID participation. -/
def uniqueUsers (ps : List Participation) (c : ℕ) : ℕ :=
  ((ps.filter (Participation.paidIn c)).map Participation.user).dedup.length

/-- The join `payment__participation` of the refund query. -/
def paymentPaidIn (ps : List Participation) (pays : List Payment) (c k : ℕ) : Bool :=
  (pays[k]?.bind fun pay => ps[pay.participation]?).any (Participation.paidIn c)

def PaymentRefund.countsIn (ps : List Participation) (pays : List Payment) (c : ℕ)
    (r : PaymentRefund) : Bool :=
  r.status == .completed && paymentPaidIn ps pays c r.payment

/-- `completed_refunds`. -/
def completedRefunds (ps : List Participation) (pays : List Payment)
    (rs : List PaymentRefund) (c : ℕ) : ℕ :=
  sumWhere (PaymentRefund.countsIn ps pays c) PaymentRefund.amount rs

def CampaignFinancialAdjustment.appliedIn (c : ℕ) (ty : FinancialAdjustmentType)
    (a : CampaignFinancialAdjustment) : Bool :=
  a.campaign == c && a.status == .applied && a.adjustmentType == ty

/-- `adjustment_delta`: credits minus everything else. -/
def adjustmentDelta (as : List CampaignFinancialAdjustment) (c : ℕ) : ℤ :=
  (sumWhere (CampaignFinancialAdjustment.appliedIn c .credit)
      CampaignFinancialAdjustment.amount as : ℤ) -
    sumWhere (CampaignFinancialAdjustment.appliedIn c .debit)
      CampaignFinancialAdjustment.amount as

def ExternalFunding.recordedIn (c : ℕ) (f : ExternalFunding) : Bool :=
  f.campaign == c && f.status == .recorded

def externalShares (fs : List ExternalFunding) (c : ℕ) : ℕ :=
  sumWhere (ExternalFunding.recordedIn c) ExternalFunding.shares fs

def externalAmount (fs : List ExternalFunding) (c : ℕ) : ℕ :=
  sumWhere (ExternalFunding.recordedIn c) ExternalFunding.amount fs

/-- **The formulas of `_sync_campaign_counters`.** The amount is cut off at zero. -/
def ledger (s : Store) (c : ℕ) : Counters where
  purchasedShares := reservedShares s.participations c
  purchasedAmount :=
    ((paidAmount s.participations c : ℤ)
      - completedRefunds s.participations s.payments s.refunds c
      + adjustmentDelta s.adjustments c).toNat
  participantCount := uniqueUsers s.participations c
  externalFundedShares := externalShares s.fundings c
  externalFundedAmount := externalAmount s.fundings c

/-! ## Single writes -/

/-- The fields a verification, a cancellation or an expiry writes to a payment.
`refId` and `paidAt` are in `update_fields` only on success. -/
structure Settlement where
  status : PaymentStatus
  gatewayStatus : String
  refId : Option String
  paidAt : Option ℕ
  verifiedAt : ℕ
deriving DecidableEq, Repr

def Payment.settle (pay : Payment) (st : Settlement) : Payment :=
  { pay with
    status := st.status
    gatewayStatus := st.gatewayStatus
    refId := st.refId.getD pay.refId
    paidAt := st.paidAt <|> pay.paidAt
    verifiedAt := some st.verifiedAt }

def Participation.withStatus (p : Participation) (status : ParticipationStatus)
    (paidAt : Option ℕ) : Participation :=
  { p with status := status, paidAt := paidAt <|> p.paidAt }

namespace Store

@[simps]
def addParticipation (s : Store) (p : Participation) : Store :=
  { s with participations := s.participations ++ [p] }

@[simps]
def saveParticipation (s : Store) (pid : ℕ) (status : ParticipationStatus)
    (paidAt : Option ℕ) : Store :=
  { s with participations := s.participations.modify pid (·.withStatus status paidAt) }

@[simps]
def addPayment (s : Store) (pay : Payment) : Store :=
  { s with payments := s.payments ++ [pay] }

@[simps]
def savePayment (s : Store) (k : ℕ) (st : Settlement) : Store :=
  { s with payments := s.payments.modify k (·.settle st) }

/-- The row `_record_payment_event` appends: it copies the payment as it stands. -/
def eventFor (pay : Payment) (k : ℕ) (kind : PaymentEventKind)
    (previousStatus newStatus : Option PaymentStatus) : PaymentEvent :=
  ⟨k, kind, previousStatus, newStatus, pay.amount, pay.gatewayStatus, pay.refId⟩

@[simps]
def addEvent (s : Store) (e : PaymentEvent) : Store :=
  { s with events := s.events ++ [e] }

@[simps]
def addFunding (s : Store) (f : ExternalFunding) : Store :=
  { s with fundings := s.fundings ++ [f] }

@[simps]
def voidFunding (s : Store) (k : ℕ) : Store :=
  { s with fundings := s.fundings.modify k fun f => { f with status := .voided } }

@[simps]
def addRefund (s : Store) (r : PaymentRefund) : Store :=
  { s with refunds := s.refunds ++ [r] }

@[simps]
def saveRefund (s : Store) (k : ℕ) (status : RefundStatus) (providerRefId : Option String) :
    Store :=
  { s with
    refunds := s.refunds.modify k fun r =>
      { r with status := status, providerRefId := providerRefId.getD r.providerRefId } }

@[simps]
def addAdjustment (s : Store) (a : CampaignFinancialAdjustment) : Store :=
  { s with adjustments := s.adjustments ++ [a] }

@[simps]
def saveAdjustment (s : Store) (k : ℕ) (status : FinancialAdjustmentStatus) : Store :=
  { s with adjustments := s.adjustments.modify k fun a => { a with status := status } }

/-- The save of `_sync_campaign_counters`. -/
@[simps]
def sync (s : Store) (c : ℕ) : Store :=
  { s with campaigns := s.campaigns.modify c (·.withCounters (ledger s c)) }

/-- `auto_complete_campaign_if_fully_funded`. -/
@[simps]
def autoComplete (s : Store) (c : ℕ) : Store :=
  { s with
    campaigns := s.campaigns.modify c fun row =>
      if row.status = .published ∧ row.isFullyFunded = true then { row with status := .completed }
      else row }

end Store

end SetadJang.Madadkar
