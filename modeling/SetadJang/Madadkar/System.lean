import SetadJang.Framework.Runs
import SetadJang.Madadkar.Services

/-!
# Madadkar as a system of interleaved calls

A call of `initiate_participation`, `verify_payment` or `cancel_pending_payment`
and an iteration of the expiry task are threads: each keeps in memory what it
read and takes its next transaction later.  The gateway and the provider answer
what they like, including an exception.  The other services are one transaction
each.

`transaction` says which transaction an action runs, `step` is total, and a run
is any list of actions.
-/

namespace SetadJang.Madadkar

open SetadJang.Framework SetadJang.Framework.Txn

/-- `PaymentRequestResult`, with the name of the provider that answered. -/
structure PaymentRequestResult where
  success : Bool
  authority : String
  gatewayStatus : String
  providerName : String
deriving DecidableEq, Repr

/-- Where a call stands between two of its steps. -/
inductive Thread where
  /-- Shares reserved, gateway not asked yet. -/
  | reserved (pid user amount : ℕ)
  /-- The gateway gave an authority; the payment is not stored yet. -/
  | accepted (pid user amount : ℕ) (result : PaymentRequestResult)
  /-- The gateway refused or raised; the shares are not released yet. -/
  | refused (pid : ℕ)
  /-- `verify_payment` read a pending payment. -/
  | verifying (k amount : ℕ)
  /-- `verify_payment` has the provider's answer. -/
  | verified (k amount : ℕ) (result : PaymentVerifyResult)
  /-- `cancel_pending_payment` read a pending payment. -/
  | cancelling (k : ℕ)
  /-- The expiry task loaded a stale participation. -/
  | expiring (pid : ℕ) (copy : Participation)
  | done
deriving DecidableEq, Repr

structure Sys where
  db : Store
  threads : List Thread
deriving DecidableEq, Repr

/-- Steps of the payment services and of the expiry task. -/
inductive PayAct where
  | initiate (c user : ℕ) (shareCount : ℤ) (now : ℕ)
  | gateway (i : ℕ) (answer : Option PaymentRequestResult)
  | persist (i : ℕ)
  | release (i : ℕ)
  | callback (authority : String)
  | provider (i : ℕ) (answer : Option PaymentVerifyResult)
  | finalize (i now : ℕ) (hooksOk : Bool)
  | cancel (authority : String)
  | cancelLocked (i now : ℕ)
  | loadStale (pid cutoff : ℕ)
  | expire (i now : ℕ)
deriving DecidableEq, Repr

/-- Calls of the external funding, refund and adjustment services. -/
inductive FinAct where
  | recordExternalFunding (c : ℕ) (passedStatus : CampaignStatus) (shares : ℤ)
      (amount : Option ℤ) (cleanOk : Bool)
  | voidExternalFunding (k : ℕ)
  | requestRefund (k : ℕ) (amount : ℤ) (idempotencyKey : Option String) (hooksOk : Bool)
  | approveRefund (r : ℕ)
  | rejectRefund (r : ℕ)
  | completeRefund (r : ℕ) (providerRefId : String)
  | createAdjustment (c : ℕ) (payment : Option ℕ) (amount : ℤ) (ty : FinancialAdjustmentType)
  | approveAdjustment (a : ℕ)
  | rejectAdjustment (a : ℕ)
  | applyAdjustment (a : ℕ) (hooksOk : Bool)
deriving DecidableEq, Repr

inductive Act where
  | pay (a : PayAct)
  | fin (a : FinAct)
deriving DecidableEq, Repr

/-- `Payment.objects.filter(authority=…).first()`. -/
def paymentByAuthority (db : Store) (authority : String) : Option ℕ :=
  db.payments.findIdx? fun pay => pay.authority == authority

/-- The provider reported success for another amount. -/
def PaymentVerifyResult.mismatches (result : PaymentVerifyResult) (amount : ℕ) : Bool :=
  result.success && result.verifiedAmount != (amount : ℤ)

/-- The transaction a step of a payment call runs, results dropped. -/
def payTransaction (s : Sys) : PayAct → Txn Store MadadkarError Unit
  | .initiate c user shareCount now =>
      if shareCount < 1 then throw (.invalidShareCount "تعداد سهم باید حداقل 1 باشد.")
      else do
        let _ ← reserveParticipationShares c user shareCount.toNat now
  | .persist i =>
      match s.threads[i]? with
      | some (.accepted pid user amount result) => do
          let _ ← persistInitiatedPayment pid user amount result.providerName result.authority
            result.gatewayStatus
      | _ => pure ()
  | .release i =>
      match s.threads[i]? with
      | some (.refused pid) => releaseReservedParticipation pid
      | _ => pure ()
  | .finalize i now hooksOk =>
      match s.threads[i]? with
      | some (.verified k amount result) =>
          if result.mismatches amount then rejectMismatchedPayment k result now
          else finalizeVerifiedPayment k result now hooksOk
      | _ => pure ()
  | .cancelLocked i now =>
      match s.threads[i]? with
      | some (.cancelling k) => cancelLockedPayment k now
      | _ => pure ()
  | .expire i now =>
      match s.threads[i]? with
      | some (.expiring pid copy) => expireStaleParticipation pid copy now
      | _ => pure ()
  | _ => pure ()

def finTransaction : FinAct → Txn Store MadadkarError Unit
  | .recordExternalFunding c passedStatus shares amount cleanOk => do
      let _ ← recordExternalFunding c passedStatus shares amount cleanOk
  | .voidExternalFunding k => voidExternalFunding k
  | .requestRefund k amount idempotencyKey hooksOk => do
      let _ ← requestPaymentRefund k amount idempotencyKey hooksOk
  | .approveRefund r => approvePaymentRefund r
  | .rejectRefund r => rejectPaymentRefund r
  | .completeRefund r providerRefId => completePaymentRefund r providerRefId
  | .createAdjustment c payment amount ty => do
      let _ ← createFinancialAdjustment c payment amount ty
  | .approveAdjustment a => approveFinancialAdjustment a
  | .rejectAdjustment a => rejectFinancialAdjustment a
  | .applyAdjustment a hooksOk => applyFinancialAdjustment a hooksOk

def transaction (s : Sys) : Act → Txn Store MadadkarError Unit
  | .pay a => payTransaction s a
  | .fin a => finTransaction a

/-- The threads after a step.  Reads spawn a thread only when they do not return
early; a transaction ends its thread whatever its outcome. -/
def threadsAfter (s : Sys) : Act → List Thread
  | .pay (.initiate c user shareCount now) =>
      if shareCount < 1 then s.threads
      else
        match (exec (reserveParticipationShares c user shareCount.toNat now) s.db).1 with
        | .ok (pid, p) => s.threads ++ [.reserved pid user p.totalAmount]
        | .error _ => s.threads
  | .pay (.gateway i answer) =>
      match s.threads[i]?, answer with
      | some (.reserved pid user amount), some result =>
          s.threads.set i
            (if result.success = true ∧ result.authority ≠ "" then .accepted pid user amount result
            else .refused pid)
      | some (.reserved pid _ _), none => s.threads.set i (.refused pid)
      | _, _ => s.threads
  | .pay (.persist i) =>
      match s.threads[i]? with
      | some (.accepted ..) => s.threads.set i .done
      | _ => s.threads
  | .pay (.release i) =>
      match s.threads[i]? with
      | some (.refused _) => s.threads.set i .done
      | _ => s.threads
  | .pay (.callback authority) =>
      match paymentByAuthority s.db authority with
      | some k =>
          match s.db.payments[k]? with
          | some pay => if pay.status = .pending then s.threads ++ [.verifying k pay.amount] else s.threads
          | none => s.threads
      | none => s.threads
  | .pay (.provider i answer) =>
      match s.threads[i]?, answer with
      | some (.verifying k amount), some result => s.threads.set i (.verified k amount result)
      | some (.verifying _ _), none => s.threads.set i .done
      | _, _ => s.threads
  | .pay (.finalize i _ _) =>
      match s.threads[i]? with
      | some (.verified ..) => s.threads.set i .done
      | _ => s.threads
  | .pay (.cancel authority) =>
      match paymentByAuthority s.db authority with
      | some k =>
          match s.db.payments[k]? with
          | some pay => if pay.status = .pending then s.threads ++ [.cancelling k] else s.threads
          | none => s.threads
      | none => s.threads
  | .pay (.cancelLocked i _) =>
      match s.threads[i]? with
      | some (.cancelling _) => s.threads.set i .done
      | _ => s.threads
  | .pay (.loadStale pid cutoff) =>
      match s.db.participations[pid]? with
      | some p =>
          if p.status = .pendingPayment ∧ p.createdAt < cutoff then s.threads ++ [.expiring pid p]
          else s.threads
      | none => s.threads
  | .pay (.expire i _) =>
      match s.threads[i]? with
      | some (.expiring ..) => s.threads.set i .done
      | _ => s.threads
  | .fin _ => s.threads

/-- One step of the system. -/
def step (s : Sys) (a : Act) : Sys where
  db := after (transaction s a) s.db
  threads := threadsAfter s a

/-- A campaign as it is created: nothing bought, nothing funded. -/
def Campaign.fresh (c : Campaign) : Campaign :=
  c.withCounters ⟨0, 0, 0, 0, 0⟩

/-- The system before any service ran: some campaigns and nothing else. -/
def start (campaigns : List Campaign) : Sys where
  db :=
    { campaigns := campaigns.map Campaign.fresh
      participations := []
      payments := []
      events := []
      fundings := []
      refunds := []
      adjustments := [] }
  threads := []

/-- A published campaign of ten shares at 1000, for concrete runs. -/
def tenShares : Campaign :=
  ⟨.published, true, true, false, none, 10, 1000, 0, 0, 0, 0, 0⟩

/-- A positive answer of the gateway. -/
def gatewayYes (authority : String) : PaymentRequestResult := ⟨true, authority, "100", "zarinpal"⟩

/-- A provider that confirms an amount. -/
def confirms (amount : ℤ) : PaymentVerifyResult := ⟨true, "ref", amount, "100"⟩

end SetadJang.Madadkar
