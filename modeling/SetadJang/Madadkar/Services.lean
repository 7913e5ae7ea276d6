import SetadJang.Framework.Txn
import SetadJang.Madadkar.Model

/-!
# Madadkar services

The transactions of `apps/madadkar/services.py`, each an `atomic` block over the
store.  A row is locked while its transaction runs, so a transaction is one step
of the system; what a service does between its transactions (the gateway call,
an early read) is in `SetadJang.Madadkar.System`.

Receipts, risk signals and notifications write to tables that nothing here
reads.  A service that calls them can only be stopped by them: `hooksOk` is
false when one of them raises.
-/

namespace SetadJang.Madadkar

open SetadJang.Framework SetadJang.Framework.Txn

inductive MadadkarError where
  | doesNotExist
  | integrityError
  | dataError
  | validation (message : String)
  | invalidShareCount (message : String)
  | campaignNotAcceptingShares (reason : String)
  | insufficientShares (requested remaining : ℕ)
  | externalSharesLimit (remaining : ℕ)
  | refundWorkflow (message : String)
  | financialAdjustmentWorkflow (message : String)
  | hook
deriving DecidableEq, Repr

/-! ## Rows and counters -/

/-- `Campaign.objects.select_for_update().get(pk=…)`: the default manager sees
active rows only. -/
def getCampaign (c : ℕ) : Txn Store MadadkarError Campaign := do
  let s ← get
  let row ← orRaise s.campaigns[c]? .doesNotExist
  require (row.isActive = true) .doesNotExist
  return row

def getParticipation (pid : ℕ) : Txn Store MadadkarError Participation := do
  let s ← get
  orRaise s.participations[pid]? .doesNotExist

def getPayment (k : ℕ) : Txn Store MadadkarError Payment := do
  let s ← get
  orRaise s.payments[k]? .doesNotExist

/-- `_sync_campaign_counters`.  The table refuses more purchased shares than the
campaign has; external shares are outside that constraint. -/
def syncCampaignCounters (c : ℕ) : Txn Store MadadkarError Unit := do
  let s ← get
  let row ← orRaise s.campaigns[c]? .doesNotExist
  require ((ledger s c).purchasedShares ≤ row.totalShares) .integrityError
  modify fun s => s.sync c

/-- `_record_payment_event`. -/
def recordPaymentEvent (k : ℕ) (kind : PaymentEventKind)
    (previousStatus newStatus : Option PaymentStatus) : Txn Store MadadkarError Unit := do
  let pay ← getPayment k
  modify fun s => s.addEvent (Store.eventFor pay k kind previousStatus newStatus)

/-- `payment.save(update_fields=…)` with the column widths of the table. -/
def savePaymentRow (k : ℕ) (st : Settlement) : Txn Store MadadkarError Unit := do
  require (st.gatewayStatus.length ≤ 50) .dataError
  require ((st.refId.getD "").length ≤ 100) .dataError
  modify fun s => s.savePayment k st

/-- `_is_campaign_open_for_participation`. -/
def isCampaignOpenForParticipation (row : Campaign) (now : ℕ) : Except MadadkarError Unit :=
  if row.isActive = false then
    .error (.campaignNotAcceptingShares "این حرکت غیرفعال شده است.")
  else if row.isVisible = false then
    .error (.campaignNotAcceptingShares "این حرکت در حال حاضر قابل مشارکت نیست.")
  else if row.status = .draft then
    .error (.campaignNotAcceptingShares "این حرکت هنوز منتشر نشده است.")
  else if row.status = .completed then
    .error (.campaignNotAcceptingShares "این حرکت تکمیل شده و سهم بیشتری قابل خرید نیست.")
  else if row.status = .closed then
    .error (.campaignNotAcceptingShares "این حرکت بسته شده است.")
  else if row.hasDeadline = true ∧ row.deadline.any (fun d => decide (d ≤ now)) = true then
    .error (.campaignNotAcceptingShares "مهلت این حرکت به پایان رسیده است.")
  else if row.isFullyFunded = true then
    .error (.campaignNotAcceptingShares "تمام سهم‌های این حرکت رزرو شده است.")
  else .ok ()

/-! ## Participation and payment -/

/-- `_reserve_participation_shares`: the new participation and its key. -/
def reserveParticipationShares (c user shareCount now : ℕ) :
    Txn Store MadadkarError (ℕ × Participation) :=
  atomic do
    let lockedCampaign ← getCampaign c
    fromExcept (isCampaignOpenForParticipation lockedCampaign now)
    require (shareCount ≤ lockedCampaign.remainingShares)
      (.insufficientShares shareCount lockedCampaign.remainingShares)
    let price := lockedCampaign.sharePrice
    require (1 ≤ shareCount ∧ 1 ≤ price) .integrityError
    let s ← get
    let participation : Participation :=
      ⟨c, user, shareCount, price, shareCount * price, .pendingPayment, now, none⟩
    modify fun s => s.addParticipation participation
    syncCampaignCounters c
    return (s.participations.length, participation)

/-- `_release_reserved_participation`: a participation that is no longer pending
is left alone. -/
def releaseReservedParticipation (pid : ℕ) : Txn Store MadadkarError Unit :=
  atomic do
    let lockedParticipation ← getParticipation pid
    if lockedParticipation.status ≠ .pendingPayment then
      return ()
    let _ ← getCampaign lockedParticipation.campaign
    modify fun s => s.saveParticipation pid .failed none
    syncCampaignCounters lockedParticipation.campaign

/-- `_persist_initiated_payment`.  A participation has at most one payment and an
authority is unique. -/
def persistInitiatedPayment (pid user amount : ℕ) (gatewayName authority gatewayStatus : String) :
    Txn Store MadadkarError ℕ :=
  atomic do
    let s ← get
    require (s.payments.all fun pay => pay.participation != pid && pay.authority != authority)
      .integrityError
    require (pid < s.participations.length) .integrityError
    require (1 ≤ amount) .integrityError
    require (authority.length ≤ 100 ∧ gatewayStatus.length ≤ 50 ∧ gatewayName.length ≤ 50)
      .dataError
    modify fun s =>
      s.addPayment ⟨pid, user, amount, gatewayName, authority, "", gatewayStatus, .pending, none, none⟩
    recordPaymentEvent s.payments.length .created none (some .pending)
    return s.payments.length

/-- `PaymentVerifyResult`. -/
structure PaymentVerifyResult where
  success : Bool
  refId : String
  verifiedAmount : ℤ
  gatewayStatus : String
deriving DecidableEq, Repr

/-- The writes shared by every rejection: payment to FAILED with its event,
participation to FAILED, counters. -/
def failPayment (k : ℕ) (pay : Payment) (p : Participation) (kind : PaymentEventKind)
    (gatewayStatus : String) (now : ℕ) : Txn Store MadadkarError Unit := do
  savePaymentRow k ⟨.failed, gatewayStatus, none, none, now⟩
  recordPaymentEvent k kind (some pay.status) (some .failed)
  modify fun s => s.saveParticipation pay.participation .failed none
  syncCampaignCounters p.campaign

/-- The amount-mismatch block of `verify_payment`.  It locks the payment and
writes; it does not look at the status it finds. -/
def rejectMismatchedPayment (k : ℕ) (result : PaymentVerifyResult) (now : ℕ) :
    Txn Store MadadkarError Unit :=
  atomic do
    let lockedPayment ← getPayment k
    let lockedParticipation ← getParticipation lockedPayment.participation
    let _ ← getCampaign lockedParticipation.campaign
    failPayment k lockedPayment lockedParticipation .amountMismatch result.gatewayStatus now

/-- The final block of `verify_payment`, with the check under the lock. -/
def finalizeVerifiedPayment (k : ℕ) (result : PaymentVerifyResult) (now : ℕ) (hooksOk : Bool) :
    Txn Store MadadkarError Unit :=
  atomic do
    let lockedPayment ← getPayment k
    if lockedPayment.status ≠ .pending then
      return ()
    let lockedParticipation ← getParticipation lockedPayment.participation
    let _ ← getCampaign lockedParticipation.campaign
    if result.success = false then
      failPayment k lockedPayment lockedParticipation .verifyFailed result.gatewayStatus now
    else
      savePaymentRow k ⟨.success, result.gatewayStatus, some result.refId, some now, now⟩
      recordPaymentEvent k .verifySuccess (some lockedPayment.status) (some .success)
      modify fun s => s.saveParticipation lockedPayment.participation .paid (some now)
      syncCampaignCounters lockedParticipation.campaign
      modify fun s => s.autoComplete lockedParticipation.campaign
      require (hooksOk = true) .hook

/-- The transaction of `cancel_pending_payment`. -/
def cancelLockedPayment (k now : ℕ) : Txn Store MadadkarError Unit :=
  atomic do
    let lockedPayment ← getPayment k
    if lockedPayment.status ≠ .pending then
      return ()
    let lockedParticipation ← getParticipation lockedPayment.participation
    let _ ← getCampaign lockedParticipation.campaign
    failPayment k lockedPayment lockedParticipation .verifyFailed "NOK" now

/-- `Payment.objects.filter(participation=…, status=PENDING).first()`. -/
def pendingPaymentOf (s : Store) (pid : ℕ) : Option ℕ :=
  s.payments.findIdx? fun pay => pay.participation == pid && pay.status == .pending

/-- `expire_stale_participation`.  The decision is made on the object that was
passed in (`copy`); the stored row is overwritten without being read. -/
def expireStaleParticipation (pid : ℕ) (copy : Participation) (now : ℕ) :
    Txn Store MadadkarError Unit :=
  atomic do
    if copy.status ≠ .pendingPayment then
      return ()
    let _ ← getCampaign copy.campaign
    modify fun s => s.saveParticipation pid .expired none
    let s ← get
    match pendingPaymentOf s pid with
    | none => pure ()
    | some k =>
        savePaymentRow k ⟨.failed, "expired", none, none, now⟩
        recordPaymentEvent k .expired (some .pending) (some .failed)
    syncCampaignCounters copy.campaign

/-! ## External funding -/

/-- `record_external_funding`.  The status check reads the object that was passed
in; the share limit reads the locked row.  `cleanOk` is the outcome of the
funding's own `full_clean`. -/
def recordExternalFunding (c : ℕ) (passedStatus : CampaignStatus) (shares : ℤ)
    (amount : Option ℤ) (cleanOk : Bool) : Txn Store MadadkarError ℕ :=
  atomic do
    require (passedStatus = .draft ∨ passedStatus = .published)
      (.validation "ثبت تأمین خارجی فقط برای حرکت‌های پیش‌نویس یا منتشرشده ممکن است.")
    require (1 ≤ shares) (.validation "تعداد سهم باید حداقل ۱ باشد.")
    require (∀ a ∈ amount, 1 ≤ a) (.validation "مبلغ دریافتی نمی‌تواند صفر یا منفی باشد.")
    let lockedCampaign ← getCampaign c
    require (shares ≤ lockedCampaign.remainingShares)
      (.externalSharesLimit lockedCampaign.remainingShares)
    let price := lockedCampaign.sharePrice
    require (cleanOk = true) (.validation "")
    let s ← get
    modify fun s =>
      s.addFunding
        ⟨c, shares.toNat, (amount.getD (shares * price)).toNat, price, .recorded⟩
    syncCampaignCounters c
    modify fun s => s.autoComplete c
    return s.fundings.length

/-- `void_external_funding`. -/
def voidExternalFunding (k : ℕ) : Txn Store MadadkarError Unit :=
  atomic do
    let s ← get
    let locked ← orRaise s.fundings[k]? .doesNotExist
    require (locked.status ≠ .voided)
      (.validation "این رکورد تأمین خارجی قبلاً باطل شده است.")
    let _ ← getCampaign locked.campaign
    modify fun s => s.voidFunding k
    syncCampaignCounters locked.campaign

/-! ## Refunds -/

def PaymentRefund.ofPayment (k : ℕ) (statuses : List RefundStatus) (r : PaymentRefund) : Bool :=
  r.payment == k && statuses.contains r.status

/-- `_completed_refund_total`. -/
def completedRefundTotal (s : Store) (k : ℕ) : ℕ :=
  sumWhere (PaymentRefund.ofPayment k [.completed]) PaymentRefund.amount s.refunds

/-- `_open_refund_total`. -/
def openRefundTotal (s : Store) (k : ℕ) : ℕ :=
  sumWhere (PaymentRefund.ofPayment k [.pendingReview, .approved]) PaymentRefund.amount s.refunds

/-- The stored refund with a non-empty idempotency key. -/
def refundByKey (s : Store) (key : Option String) : Option ℕ :=
  match key with
  | none => none
  | some key =>
      if key = "" then none else s.refunds.findIdx? fun r => r.idempotencyKey == some key

/-- `request_payment_refund`: the new refund, or the one stored under the key. -/
def requestPaymentRefund (k : ℕ) (amount : ℤ) (idempotencyKey : Option String)
    (hooksOk : Bool) : Txn Store MadadkarError ℕ :=
  atomic do
    let lockedPayment ← getPayment k
    require (lockedPayment.status = .success)
      (.refundWorkflow "فقط پرداخت‌های موفق قابل بازپرداخت هستند.")
    require (0 < amount) (.refundWorkflow "مبلغ بازپرداخت باید بزرگ‌تر از صفر باشد.")
    let s ← get
    require (amount ≤ (lockedPayment.amount : ℤ) - completedRefundTotal s k - openRefundTotal s k)
      (.refundWorkflow "مبلغ بازپرداخت از مانده قابل بازپرداخت بیشتر است.")
    match refundByKey s idempotencyKey with
    | some existing => return existing
    | none =>
        -- the column is unique, and the empty key is a value like any other
        require (∀ key ∈ idempotencyKey, s.refunds.all fun r => r.idempotencyKey != some key)
          .integrityError
        require (∀ key ∈ idempotencyKey, key.length ≤ 120) .dataError
        modify fun s => s.addRefund ⟨k, amount.toNat, .pendingReview, idempotencyKey, ""⟩
        recordPaymentEvent k .refundRequested (some lockedPayment.status)
          (some lockedPayment.status)
        require (hooksOk = true) .hook
        return s.refunds.length

/-- `approve_payment_refund` and `reject_payment_refund`: a review moves a pending
request and records it on the payment. -/
def reviewPaymentRefund (r : ℕ) (status : RefundStatus) (kind : PaymentEventKind)
    (refusal : String) : Txn Store MadadkarError Unit :=
  atomic do
    let s ← get
    let lockedRefund ← orRaise s.refunds[r]? .doesNotExist
    require (lockedRefund.status = .pendingReview) (.refundWorkflow refusal)
    let pay ← getPayment lockedRefund.payment
    modify fun s => s.saveRefund r status none
    recordPaymentEvent lockedRefund.payment kind (some pay.status) (some pay.status)

def approvePaymentRefund (r : ℕ) : Txn Store MadadkarError Unit :=
  reviewPaymentRefund r .approved .refundApproved
    "فقط درخواست‌های در انتظار بررسی قابل تأیید هستند."

def rejectPaymentRefund (r : ℕ) : Txn Store MadadkarError Unit :=
  reviewPaymentRefund r .rejected .refundRejected
    "فقط درخواست‌های در انتظار بررسی قابل رد هستند."

/-- `complete_payment_refund`.  A refund of the whole amount takes the
participation to REFUNDED. -/
def completePaymentRefund (r : ℕ) (providerRefId : String) : Txn Store MadadkarError Unit :=
  atomic do
    let s ← get
    let lockedRefund ← orRaise s.refunds[r]? .doesNotExist
    require (lockedRefund.status = .approved)
      (.refundWorkflow "فقط بازپرداخت‌های تأییدشده قابل تکمیل هستند.")
    let lockedPayment ← getPayment lockedRefund.payment
    let participation ← getParticipation lockedPayment.participation
    let _ ← getCampaign participation.campaign
    require (providerRefId.length ≤ 120) .dataError
    modify fun s => s.saveRefund r .completed (some providerRefId)
    if lockedPayment.amount ≤ lockedRefund.amount then
      modify fun s => s.saveParticipation lockedPayment.participation .refunded none
    recordPaymentEvent lockedRefund.payment .refundCompleted (some lockedPayment.status)
      (some lockedPayment.status)
    syncCampaignCounters participation.campaign

/-! ## Financial adjustments -/

/-- `create_financial_adjustment`. -/
def createFinancialAdjustment (c : ℕ) (payment : Option ℕ) (amount : ℤ)
    (ty : FinancialAdjustmentType) : Txn Store MadadkarError ℕ :=
  atomic do
    require (0 < amount)
      (.financialAdjustmentWorkflow "مبلغ اصلاح مالی باید بزرگ‌تر از صفر باشد.")
    let s ← get
    require (∀ k ∈ payment, (s.payments[k]?.bind fun pay => s.participations[pay.participation]?).any
        (fun p => p.campaign == c) = true)
      (.financialAdjustmentWorkflow "پرداخت انتخاب‌شده متعلق به این حرکت نیست.")
    require (c < s.campaigns.length) .integrityError
    modify fun s => s.addAdjustment ⟨c, payment, amount.toNat, ty, .pendingReview⟩
    return s.adjustments.length

/-- `approve_financial_adjustment` and `reject_financial_adjustment`. -/
def reviewFinancialAdjustment (a : ℕ) (status : FinancialAdjustmentStatus) (refusal : String) :
    Txn Store MadadkarError Unit :=
  atomic do
    let s ← get
    let lockedAdjustment ← orRaise s.adjustments[a]? .doesNotExist
    require (lockedAdjustment.status = .pendingReview) (.financialAdjustmentWorkflow refusal)
    modify fun s => s.saveAdjustment a status

def approveFinancialAdjustment (a : ℕ) : Txn Store MadadkarError Unit :=
  reviewFinancialAdjustment a .approved "فقط اصلاحات در انتظار بررسی قابل تأیید هستند."

def rejectFinancialAdjustment (a : ℕ) : Txn Store MadadkarError Unit :=
  reviewFinancialAdjustment a .rejected "فقط اصلاحات در انتظار بررسی قابل رد هستند."

/-- `apply_financial_adjustment`. -/
def applyFinancialAdjustment (a : ℕ) (hooksOk : Bool) : Txn Store MadadkarError Unit :=
  atomic do
    let s ← get
    let lockedAdjustment ← orRaise s.adjustments[a]? .doesNotExist
    require (lockedAdjustment.status = .approved)
      (.financialAdjustmentWorkflow "فقط اصلاحات تأییدشده قابل اعمال هستند.")
    let _ ← getCampaign lockedAdjustment.campaign
    modify fun s => s.saveAdjustment a .applied
    match lockedAdjustment.payment with
    | none => pure ()
    | some k =>
        let pay ← getPayment k
        recordPaymentEvent k .adjustmentApplied (some pay.status) (some pay.status)
    syncCampaignCounters lockedAdjustment.campaign
    require (hooksOk = true) .hook

end SetadJang.Madadkar
