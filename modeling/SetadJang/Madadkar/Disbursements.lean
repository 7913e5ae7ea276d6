import SetadJang.Framework.PyText
import SetadJang.Madadkar.Transparency

/-!
# Disbursements

The allocation ledger of `apps/madadkar/services.py`: money of a campaign is requested for a
recipient, approved, and marked as paid.  A request may not take more than the campaign has
collected and not yet committed.  The approval asks again, but adds its own amount to what is
available after that has been cut off at zero: the second check refuses nothing.
-/

namespace SetadJang.Madadkar

open SetadJang.Framework SetadJang.Framework.Txn

/-- The row with what the report does not read. -/
structure DisbursementRecord extends CampaignDisbursement where
  requestedBy : Option ℕ
  reviewedBy : Option ℕ
  paidBy : Option ℕ
  recipientName : String
  recipientIdentifier : String
  recipientBankAccount : String
  purpose : String
  note : String
  rejectionReason : String
  bankTrackingReference : String
deriving DecidableEq, Repr

inductive DisbursementError where
  | doesNotExist
  | dataError
  | workflow (message : String)
deriving DecidableEq, Repr

/-- The services of the campaigns beside the disbursements. -/
structure Treasury where
  sys : Sys
  disbursements : List DisbursementRecord
deriving DecidableEq, Repr

/-- The row holds money of the campaign. -/
def DisbursementRecord.holdsOf (c : ℕ) (x : DisbursementRecord) : Bool :=
  x.campaign == c && x.committed

/-- `committed` of `calculate_campaign_disbursable_amount`. -/
def committedAmount (xs : List DisbursementRecord) (c : ℕ) : ℕ :=
  sumWhere (DisbursementRecord.holdsOf c) (fun x => x.amount) xs

/-- `calculate_campaign_disbursable_amount`. -/
def calculateCampaignDisbursableAmount (xs : List DisbursementRecord) (c : ℕ) (row : Campaign) :
    ℕ :=
  ((row.purchasedAmount : ℤ) - committedAmount xs c).toNat

def Treasury.saveDisbursement (s : Treasury) (d : ℕ)
    (f : DisbursementRecord → DisbursementRecord) : Treasury :=
  { s with disbursements := s.disbursements.modify d f }

def getDisbursement (d : ℕ) : Txn Treasury DisbursementError DisbursementRecord := do
  let s ← get
  orRaise s.disbursements[d]? .doesNotExist

/-- What `request_campaign_disbursement` is told about the recipient. -/
structure DisbursementRequest where
  amount : ℤ
  recipientName : String
  recipientIdentifier : String
  recipientBankAccount : String
  purpose : String
  note : String
  requestedBy : Option ℕ
deriving DecidableEq, Repr

/-- The row a request creates. -/
def DisbursementRequest.row (r : DisbursementRequest) (c : ℕ) : DisbursementRecord where
  campaign := c
  requestedBy := r.requestedBy
  reviewedBy := none
  paidBy := none
  status := .requested
  amount := r.amount.toNat
  recipientName := pyStrip r.recipientName
  recipientIdentifier := pyStrip r.recipientIdentifier
  recipientBankAccount := pyStrip r.recipientBankAccount
  purpose := pyStrip r.purpose
  note := pyStrip r.note
  rejectionReason := ""
  bankTrackingReference := ""

/-- The widths of the columns. -/
def DisbursementRecord.fits (x : DisbursementRecord) : Bool :=
  decide (x.amount ≤ 9223372036854775807) && decide (x.recipientName.length ≤ 220) &&
    decide (x.recipientIdentifier.length ≤ 120) && decide (x.recipientBankAccount.length ≤ 120) &&
    decide (x.purpose.length ≤ 260) && decide (x.bankTrackingReference.length ≤ 120)

/-- `request_campaign_disbursement`.  The default manager sees active campaigns only. -/
def requestCampaignDisbursement (c : ℕ) (r : DisbursementRequest) :
    Txn Treasury DisbursementError ℕ :=
  atomic do
    let s ← get
    let lockedCampaign ← orRaise (s.sys.db.campaigns[c]?.filter Campaign.isActive) .doesNotExist
    require (0 < r.amount) (.workflow "مبلغ تخصیص باید بزرگ‌تر از صفر باشد.")
    require (r.amount ≤ calculateCampaignDisbursableAmount s.disbursements c lockedCampaign)
      (.workflow "مبلغ تخصیص از مانده قابل تخصیص حرکت بیشتر است.")
    require ((r.row c).fits = true) .dataError
    modify fun s => { s with disbursements := s.disbursements ++ [r.row c] }
    return s.disbursements.length

/-- `approve_campaign_disbursement`. -/
def approveCampaignDisbursement (d : ℕ) (reviewedBy : Option ℕ) :
    Txn Treasury DisbursementError Unit :=
  atomic do
    let locked ← getDisbursement d
    require (locked.status = .requested)
      (.workflow "فقط تخصیص‌های درخواست‌شده قابل تأیید هستند.")
    let s ← get
    let campaign ← orRaise s.sys.db.campaigns[locked.campaign]? .doesNotExist
    -- its own amount comes back after the rest has been cut off at zero
    let available :=
      calculateCampaignDisbursableAmount s.disbursements locked.campaign campaign + locked.amount
    require (locked.amount ≤ available)
      (.workflow "مانده قابل تخصیص برای تأیید این درخواست کافی نیست.")
    modify fun s =>
      s.saveDisbursement d fun x => { x with status := .approved, reviewedBy := reviewedBy }

/-- `reject_campaign_disbursement`. -/
def rejectCampaignDisbursement (d : ℕ) (reviewedBy : Option ℕ) (rejectionReason : String) :
    Txn Treasury DisbursementError Unit :=
  atomic do
    let locked ← getDisbursement d
    require (locked.status = .requested)
      (.workflow "فقط تخصیص‌های درخواست‌شده قابل رد هستند.")
    modify fun s =>
      s.saveDisbursement d fun x =>
        { x with
          status := .rejected
          reviewedBy := reviewedBy
          rejectionReason := pyStrip rejectionReason }

/-- `mark_campaign_disbursement_paid`. -/
def markCampaignDisbursementPaid (d : ℕ) (paidBy : Option ℕ) (bankTrackingReference : String) :
    Txn Treasury DisbursementError Unit :=
  atomic do
    let locked ← getDisbursement d
    require (locked.status = .approved)
      (.workflow "فقط تخصیص‌های تأییدشده قابل پرداخت هستند.")
    require (pyStrip bankTrackingReference ≠ "")
      (.workflow "شناسه پیگیری بانکی برای ثبت پرداخت الزامی است.")
    require ((pyStrip bankTrackingReference).length ≤ 120) .dataError
    modify fun s =>
      s.saveDisbursement d fun x =>
        { x with
          status := .paid
          paidBy := paidBy
          bankTrackingReference := pyStrip bankTrackingReference }

/-! ## What the services commit -/

theorem commits_getDisbursement {d : ℕ} {x : DisbursementRecord} {s t : Treasury} :
    Commits (getDisbursement d) s x t ↔ s.disbursements[d]? = some x ∧ t = s := by
  simp only [getDisbursement, commits_bind, commits_get, commits_orRaise]
  constructor
  · rintro ⟨_, _, ⟨rfl, rfl⟩, hx, rfl⟩
    exact ⟨hx, rfl⟩
  · rintro ⟨hx, rfl⟩
    exact ⟨t, t, ⟨rfl, rfl⟩, hx, rfl⟩

/-- **The second check.** What is available with the amount of the request is never less than
that amount. -/
theorem le_available (xs : List DisbursementRecord) (c : ℕ) (row : Campaign) (amount : ℕ) :
    amount ≤ calculateCampaignDisbursableAmount xs c row + amount := Nat.le_add_left _ _

/-- An approval commits exactly on a requested disbursement, whatever the campaign has left. -/
theorem commits_approve_iff {d : ℕ} {reviewedBy : Option ℕ} {u : Unit} {s t : Treasury} :
    Commits (approveCampaignDisbursement d reviewedBy) s u t ↔
      ∃ x row, s.disbursements[d]? = some x ∧ x.status = .requested ∧
        s.sys.db.campaigns[x.campaign]? = some row ∧
        t = s.saveDisbursement d fun x => { x with status := .approved, reviewedBy := reviewedBy } := by
  simp only [approveCampaignDisbursement, commits_atomic, commits_bind, commits_getDisbursement,
    commits_require, commits_get, commits_orRaise, commits_modify]
  constructor
  · rintro ⟨x, _, ⟨hx, rfl⟩, _, _, ⟨hreq, rfl⟩, _, _, ⟨rfl, rfl⟩, row, _, ⟨hrow, rfl⟩, _, _,
      ⟨-, rfl⟩, rfl⟩
    exact ⟨x, row, hx, hreq, hrow, rfl⟩
  · rintro ⟨x, row, hx, hreq, hrow, rfl⟩
    exact ⟨x, s, ⟨hx, rfl⟩, (), s, ⟨hreq, rfl⟩, s, s, ⟨rfl, rfl⟩, row, s, ⟨hrow, rfl⟩, (), s,
      ⟨le_available _ _ _ _, rfl⟩, rfl⟩

/-- **The re-check of an approval.** Every requested disbursement is approved.  So an approval
that comes back has covered amounts exactly where they were covered before. -/
theorem approve_rechecks_funds_iff {s : Treasury} {d : ℕ} {x : DisbursementRecord} {row : Campaign}
    (hx : s.disbursements[d]? = some x) (hreq : x.status = .requested)
    (hrow : s.sys.db.campaigns[x.campaign]? = some row) (reviewedBy : Option ℕ) :
    Returns (approveCampaignDisbursement d reviewedBy) s ∧
      ((Returns (approveCampaignDisbursement d reviewedBy) s →
          committedAmount s.disbursements x.campaign ≤ row.purchasedAmount) ↔
        committedAmount s.disbursements x.campaign ≤ row.purchasedAmount) := by
  have hreturns : Returns (approveCampaignDisbursement d reviewedBy) s :=
    ⟨(), _, commits_approve_iff.mpr ⟨x, row, hx, hreq, hrow, rfl⟩⟩
  refine ⟨hreturns, ?_⟩
  constructor
  · intro h
    exact h hreturns
  · intro h _
    exact h

def schoolBooks : DisbursementRequest := ⟨2000, "مدرسه", "", "", "خرید کتاب", "", none⟩

/-- Of a campaign that has collected nothing the whole request is approved. -/
theorem approve_rechecks_funds_iff_schoolBooks :
    Returns (approveCampaignDisbursement 0 none) ⟨start [tenShares], [schoolBooks.row 0]⟩ ∧
      ¬ (Returns (approveCampaignDisbursement 0 none) ⟨start [tenShares], [schoolBooks.row 0]⟩ →
          committedAmount [schoolBooks.row 0] 0 ≤ tenShares.purchasedAmount) := by
  have hrow : (start [tenShares]).db.campaigns[(schoolBooks.row 0).campaign]? = some tenShares := rfl
  have h := approve_rechecks_funds_iff (s := ⟨start [tenShares], [schoolBooks.row 0]⟩)
    (x := schoolBooks.row 0) (d := 0) rfl rfl hrow none
  exact ⟨h.1, h.2.not.mpr (by decide +kernel)⟩

/-! ## Runs -/

inductive TreasuryAct where
  | service (a : Act)
  | request (c : ℕ) (r : DisbursementRequest)
  | approve (d : ℕ) (reviewedBy : Option ℕ)
  | reject (d : ℕ) (reviewedBy : Option ℕ) (rejectionReason : String)
  | markPaid (d : ℕ) (paidBy : Option ℕ) (bankTrackingReference : String)
deriving DecidableEq, Repr

def treasuryStep (s : Treasury) : TreasuryAct → Treasury
  | .service a => { s with sys := step s.sys a }
  | .request c r => after (requestCampaignDisbursement c r) s
  | .approve d reviewedBy => after (approveCampaignDisbursement d reviewedBy) s
  | .reject d reviewedBy rejectionReason =>
      after (rejectCampaignDisbursement d reviewedBy rejectionReason) s
  | .markPaid d paidBy bankTrackingReference =>
      after (markCampaignDisbursementPaid d paidBy bankTrackingReference) s

def Treasury.start (campaigns : List Campaign) : Treasury := ⟨Madadkar.start campaigns, []⟩

/-- No campaign has committed more than it has collected. -/
def Covered (s : Treasury) : Prop :=
  ∀ c row, s.sys.db.campaigns[c]? = some row →
    committedAmount s.disbursements c ≤ row.purchasedAmount

/-- The service leaves every campaign what it has committed. -/
def KeepsFunds (s : Treasury) : TreasuryAct → Prop
  | .service a => Covered { s with sys := step s.sys a }
  | _ => True

theorem committedAmount_save_le {xs : List DisbursementRecord} {d : ℕ}
    {f : DisbursementRecord → DisbursementRecord} (hcampaign : ∀ x, (f x).campaign = x.campaign)
    (hamount : ∀ x, (f x).amount = x.amount)
    (hactive : ∀ x ∈ xs[d]?, (f x).committed = true → x.committed = true) (c : ℕ) :
    committedAmount (xs.modify d f) c ≤ committedAmount xs c := by
  apply sumWhere_modify_le hamount
  intro x hx hholds
  rw [DisbursementRecord.holdsOf, hcampaign, Bool.and_eq_true] at hholds
  rw [DisbursementRecord.holdsOf, Bool.and_eq_true]
  exact ⟨hholds.1, hactive x hx hholds.2⟩

theorem Covered.save {s : Treasury} (hs : Covered s) {d : ℕ}
    {f : DisbursementRecord → DisbursementRecord} (hcampaign : ∀ x, (f x).campaign = x.campaign)
    (hamount : ∀ x, (f x).amount = x.amount)
    (hactive : ∀ x ∈ s.disbursements[d]?, (f x).committed = true → x.committed = true) :
    Covered (s.saveDisbursement d f) := by
  intro c row hrow
  exact (committedAmount_save_le hcampaign hamount hactive c).trans (hs c row hrow)

/-- A request that commits stays within what the campaign has left. -/
theorem Covered.request {s t : Treasury} {c d : ℕ} {r : DisbursementRequest} (hs : Covered s)
    (h : Commits (requestCampaignDisbursement c r) s d t) : Covered t := by
  simp only [requestCampaignDisbursement, commits_atomic, commits_bind, commits_get,
    commits_orRaise, commits_require, commits_modify, commits_pure] at h
  obtain ⟨_, _, ⟨rfl, rfl⟩, row, _, ⟨hrow, rfl⟩, _, _, ⟨hpos, rfl⟩, _, _, ⟨hroom, rfl⟩, _, _,
    ⟨-, rfl⟩, _, _, rfl, -, rfl⟩ := h
  obtain ⟨hrow, -⟩ := Option.filter_eq_some_iff.mp hrow
  intro c' row' hrow'
  have hold := hs c' row' hrow'
  show committedAmount (_ ++ [r.row c]) c' ≤ _
  rw [committedAmount, sumWhere_append, ← committedAmount]
  -- only the campaign of the new row holds more than before
  by_cases hc : c = c'
  · subst hc
    obtain rfl : row = row' := Option.some.inj (hrow.symm.trans hrow')
    rw [calculateCampaignDisbursableAmount] at hroom
    have hamount : (r.row c).amount = r.amount.toNat := rfl
    split_ifs
    · omega
    · exact hold
  · have hout : (r.row c).holdsOf c' = false := by
      simp [DisbursementRecord.holdsOf, DisbursementRequest.row, hc]
    rw [hout, if_neg Bool.false_ne_true]
    exact hold

theorem Covered.approve {s t : Treasury} {d : ℕ} {reviewedBy : Option ℕ} {u : Unit} (hs : Covered s)
    (h : Commits (approveCampaignDisbursement d reviewedBy) s u t) : Covered t := by
  obtain ⟨x, row, hx, hreq, -, rfl⟩ := commits_approve_iff.mp h
  apply hs.save
  · exact fun _ => rfl
  · exact fun _ => rfl
  · intro y hy _
    obtain rfl := Option.some.inj (hx.symm.trans hy)
    simp [CampaignDisbursement.committed, hreq]

theorem Covered.reject {s t : Treasury} {d : ℕ} {reviewedBy : Option ℕ} {rejectionReason : String}
    {u : Unit} (hs : Covered s)
    (h : Commits (rejectCampaignDisbursement d reviewedBy rejectionReason) s u t) : Covered t := by
  simp only [rejectCampaignDisbursement, commits_atomic, commits_bind, commits_getDisbursement,
    commits_require, commits_modify] at h
  obtain ⟨x, _, ⟨hx, rfl⟩, _, _, ⟨hreq, rfl⟩, rfl⟩ := h
  apply hs.save
  · exact fun _ => rfl
  · exact fun _ => rfl
  · intro y _ hfreed
    cases hfreed

theorem Covered.markPaid {s t : Treasury} {d : ℕ} {paidBy : Option ℕ}
    {bankTrackingReference : String} {u : Unit} (hs : Covered s)
    (h : Commits (markCampaignDisbursementPaid d paidBy bankTrackingReference) s u t) :
    Covered t := by
  simp only [markCampaignDisbursementPaid, commits_atomic, commits_bind, commits_getDisbursement,
    commits_require, commits_modify] at h
  obtain ⟨x, _, ⟨hx, rfl⟩, _, _, ⟨happroved, rfl⟩, _, _, ⟨-, rfl⟩, _, _, ⟨-, rfl⟩, rfl⟩ := h
  apply hs.save
  · exact fun _ => rfl
  · exact fun _ => rfl
  · intro y hy _
    obtain rfl := Option.some.inj (hx.symm.trans hy)
    simp [CampaignDisbursement.committed, happroved]

/-- **Step lemma.** No disbursement service over-commits a campaign; another service does when it
takes away what is committed. -/
theorem covered_step_iff {s : Treasury} (hs : Covered s) (a : TreasuryAct) :
    Covered (treasuryStep s a) ↔ KeepsFunds s a := by
  cases a with
  | service a => exact Iff.rfl
  | request c r =>
      exact iff_of_true ((allOrNothing_atomic _).preserves hs fun _ _ => hs.request) trivial
  | approve d reviewedBy =>
      exact iff_of_true ((allOrNothing_atomic _).preserves hs fun _ _ => hs.approve) trivial
  | reject d reviewedBy rejectionReason =>
      exact iff_of_true ((allOrNothing_atomic _).preserves hs fun _ _ => hs.reject) trivial
  | markPaid d paidBy bankTrackingReference =>
      exact iff_of_true ((allOrNothing_atomic _).preserves hs fun _ _ => hs.markPaid) trivial

theorem covered_start (campaigns : List Campaign) : Covered (.start campaigns) := by
  intro c row _
  exact Nat.zero_le _

/-- In every state of a run the committed amounts are covered exactly as long as no other service
takes away what is committed. -/
theorem covered_run_iff (campaigns : List Campaign) (acts : List TreasuryAct) :
    (∀ pre, pre <+: acts → Covered (run treasuryStep (.start campaigns) pre)) ↔
      Along treasuryStep KeepsFunds (.start campaigns) acts := by
  rw [← along_states (covered_start campaigns)]
  apply along_congr (I := Covered) _ _ (covered_start campaigns)
  · intro s a hs
    exact covered_step_iff hs a
  · intro s a _ hafter
    exact hafter

/-- The whole collected amount is requested for a recipient; then the donor is paid back. -/
def refundAfterRequest : List TreasuryAct :=
  [.service (.pay (.initiate 0 1 2 5)), .service (.pay (.gateway 0 (some (gatewayYes "A1")))),
    .service (.pay (.persist 0)), .service (.pay (.callback "A1")),
    .service (.pay (.provider 1 (some (confirms 2000)))), .service (.pay (.finalize 1 9 true)),
    .request 0 schoolBooks,
    .service (.fin (.requestRefund 0 2000 none true)), .service (.fin (.approveRefund 0)),
    .service (.fin (.completeRefund 0 "R1"))]

/-- Nothing is left of the campaign's money, and the disbursement is approved. -/
theorem approved_without_funds :
    let s := run treasuryStep (.start [tenShares]) refundAfterRequest
    s.disbursements.map (fun x => x.status) = [.requested] ∧
      s.sys.db.campaigns.map Campaign.purchasedAmount = [0] ∧
      committedAmount s.disbursements 0 = 2000 ∧
      (treasuryStep s (.approve 0 none)).disbursements.map (fun x => x.status) =
        [.approved] := by
  decide +kernel

end SetadJang.Madadkar
