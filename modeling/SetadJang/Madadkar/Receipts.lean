import SetadJang.Framework.PyClock
import SetadJang.Framework.PyJson
import SetadJang.Madadkar.Services

/-!
# Donation receipts

A receipt is issued for a successful payment inside the transaction that settles it.  Its
hash is computed from the object in memory, whose timestamp is a UTC datetime and whose
snapshots are Python dictionaries; the verifier computes it again from the row.  `sha256` is
the hexadecimal digest of a text.
-/

namespace SetadJang.Madadkar

open SetadJang.Framework SetadJang.Framework.Txn

/-! ## Receipts -/

/-- A `DonationReceipt`; its timestamps are datetimes in an object and instants in a row. -/
structure DonationReceipt (τ : Type) where
  payment : ℕ
  user : ℕ
  campaign : ℕ
  receiptNumber : String
  receiptHash : String
  hashVersion : ℕ
  amount : ℕ
  issuedAt : τ
  paymentSnapshot : PyJson
  campaignSnapshot : PyJson
  donorSnapshot : PyJson
  resendCount : ℕ
  lastResentAt : Option τ

/-- A row of the receipt table. -/
abbrev ReceiptRow := DonationReceipt ℤ

namespace DonationReceipt

/-- The row that an insert writes. -/
def stored (receipt : DonationReceipt PyDateTime) : ReceiptRow :=
  { receipt with
    issuedAt := receipt.issuedAt.instant
    lastResentAt := receipt.lastResentAt.map PyDateTime.instant }

/-- The object that a query builds from a row: datetimes in UTC, and JSON columns with text
keys. -/
def readBack (row : ReceiptRow) : DonationReceipt PyDateTime :=
  { row with
    issuedAt := utcDateTime row.issuedAt.toNat
    paymentSnapshot := row.paymentSnapshot.readBack
    campaignSnapshot := row.campaignSnapshot.readBack
    donorSnapshot := row.donorSnapshot.readBack
    lastResentAt := row.lastResentAt.map fun instant => utcDateTime instant.toNat }

/-- `build_hash_payload`. -/
def buildHashPayload (receipt : DonationReceipt PyDateTime) : PyJson :=
  .dict
    [(.str "hash_version", .int receipt.hashVersion),
      (.str "receipt_number", .str receipt.receiptNumber),
      (.str "payment_id", .int receipt.payment),
      (.str "user_id", .int receipt.user),
      (.str "campaign_id", .int receipt.campaign),
      (.str "amount", .int receipt.amount),
      (.str "issued_at", .str (String.ofList receipt.issuedAt.isoformat)),
      (.str "payment_snapshot", receipt.paymentSnapshot),
      (.str "campaign_snapshot", receipt.campaignSnapshot),
      (.str "donor_snapshot", receipt.donorSnapshot)]

/-- `compute_receipt_hash`. -/
def computeReceiptHash (sha256 : String → String) (receipt : DonationReceipt PyDateTime) : String :=
  sha256 receipt.buildHashPayload.dumps

end DonationReceipt

/-- What `_build_receipt_number` makes of a payment and an instant. -/
def buildReceiptNumber (payment : ℕ) (issuedAt : PyDateTime) : String :=
  String.ofList ("MDK-".toList ++ (issuedAt.date.compact ++ '-' :: padded 10 payment))

/-! ## The tables around them -/

structure CampaignText where
  title : String
  slug : String
  sponsor : ℕ
deriving DecidableEq, Repr

structure Donor where
  email : Option String
  fullName : String
deriving DecidableEq, Repr

structure ReceiptTables where
  db : Store
  campaignTexts : List CampaignText
  sponsorNames : List String
  donors : List Donor
  receipts : List ReceiptRow

/-- A `Payment` object in the memory of a caller. -/
structure LoadedPayment where
  pk : ℕ
  row : Payment
deriving DecidableEq, Repr

inductive ReceiptError where
  | notSuccessful (message : String)
  | doesNotExist
  | integrityError
  | dataError
  | permission (message : String)
  | service (e : MadadkarError)
deriving DecidableEq, Repr

/-! ## Issuing -/

/-- The object `issue_donation_receipt_for_payment` builds, without its hash. -/
def newReceipt (payment : LoadedPayment) (participation : Participation) (texts : CampaignText)
    (sponsorName : String) (donor : Donor) (issuedAt : PyDateTime) : DonationReceipt PyDateTime where
  payment := payment.pk
  user := payment.row.user
  campaign := participation.campaign
  receiptNumber := buildReceiptNumber payment.pk issuedAt
  receiptHash := ""
  hashVersion := 1
  amount := payment.row.amount
  issuedAt := issuedAt
  paymentSnapshot :=
    .dict
      [(.str "payment_id", .int payment.pk),
        (.str "authority", .str payment.row.authority),
        (.str "ref_id", .str payment.row.refId),
        (.str "gateway_name", .str payment.row.gatewayName),
        (.str "paid_at", payment.row.paidAt.elim .null fun instant =>
          .str (String.ofList (utcDateTime instant).isoformat)),
        (.str "share_count", .int participation.shareCount)]
  campaignSnapshot :=
    .dict
      [(.str "campaign_id", .int participation.campaign),
        (.str "title", .str texts.title),
        (.str "slug", .str texts.slug),
        (.str "sponsor_id", .int texts.sponsor),
        (.str "sponsor_name", .str sponsorName)]
  donorSnapshot :=
    .dict
      [(.str "user_id", .int payment.row.user),
        (.str "email", .str (donor.email.getD "")),
        (.str "full_name", .str donor.fullName)]
  resendCount := 0
  lastResentAt := none

/-- `DonationReceipt.save` of an object that has a row: only the columns of a resend. -/
def receiptUpdateAllowed (updateFields : List String) : Bool :=
  !updateFields.isEmpty &&
    updateFields.all ["resend_count", "last_resent_at", "updated_at"].contains

section

variable (sha256 : String → String)

/-- `DonationReceipt.save` of a new object: a missing hash is filled in, and the table checks
its widths, its unique columns and the amount. -/
def insertReceipt (receipt : DonationReceipt PyDateTime) :
    Txn ReceiptTables ReceiptError (DonationReceipt PyDateTime) := do
  let receipt :=
    if receipt.receiptHash = "" then
      { receipt with receiptHash := receipt.computeReceiptHash sha256 }
    else receipt
  let t ← get
  require (receipt.receiptNumber.length ≤ 40 ∧ receipt.receiptHash.length ≤ 64) .dataError
  require (∀ row ∈ t.receipts, row.payment ≠ receipt.payment ∧
    row.receiptNumber ≠ receipt.receiptNumber ∧ row.receiptHash ≠ receipt.receiptHash)
    .integrityError
  require (1 ≤ receipt.amount) .integrityError
  modify fun t => { t with receipts := t.receipts ++ [receipt.stored] }
  return receipt

/-- `issue_donation_receipt_for_payment`. -/
def issueDonationReceiptForPayment (payment : LoadedPayment) (now : ℕ) :
    Txn ReceiptTables ReceiptError (DonationReceipt PyDateTime) := do
  require (payment.row.status = .success) (.notSuccessful "رسید فقط برای پرداخت موفق صادر می‌شود.")
  let t ← get
  match t.receipts.find? fun row => row.payment == payment.pk with
  | some existing => return existing.readBack
  | none =>
      let participation ← orRaise t.db.participations[payment.row.participation]? .doesNotExist
      let texts ← orRaise t.campaignTexts[participation.campaign]? .doesNotExist
      let sponsorName ← orRaise t.sponsorNames[texts.sponsor]? .doesNotExist
      let donor ← orRaise t.donors[payment.row.user]? .doesNotExist
      let issuedAt := utcDateTime ((payment.row.paidAt <|> payment.row.verifiedAt).getD now)
      let receipt := newReceipt payment participation texts sponsorName donor issuedAt
      insertReceipt sha256 { receipt with receiptHash := receipt.computeReceiptHash sha256 }

/-- The final block of `verify_payment` with the receipt of a success.  `hooksOk` is false
when the risk check or the notification raises. -/
def finalizeWithReceipt (k : ℕ) (result : PaymentVerifyResult) (now : ℕ) (hooksOk : Bool) :
    Txn ReceiptTables ReceiptError Unit :=
  atomic do
    let before ← get
    mapError .service (onPart ReceiptTables.db (fun db t => { t with db := db })
      (finalizeVerifiedPayment k result now true))
    if (before.db.payments[k]?.any fun pay => pay.status == .pending) = true ∧
        result.success = true then
      let t ← get
      let lockedPayment ← orRaise t.db.payments[k]? .doesNotExist
      let _ ← issueDonationReceiptForPayment sha256 ⟨k, lockedPayment⟩ now
      require (hooksOk = true) (.service .hook)

/-- The row that `record_receipt_resend` saves. -/
def DonationReceipt.resent (now : ℕ) (row : ReceiptRow) : ReceiptRow :=
  { row with
    resendCount := row.resendCount + 1
    lastResentAt := some (utcDateTime now).instant }

/-- `record_receipt_resend`. -/
def recordReceiptResend (r now : ℕ) : Txn ReceiptTables ReceiptError Unit :=
  atomic do
    let t ← get
    let _ ← orRaise t.receipts[r]? .doesNotExist
    require (receiptUpdateAllowed ["resend_count", "last_resent_at", "updated_at"] = true)
      (.permission "ویرایش رسید مشارکت مجاز نیست.")
    modify fun t => { t with receipts := t.receipts.modify r (DonationReceipt.resent now) }

/-- `verify_donation_receipt`. -/
def verifyDonationReceipt (receipts : List ReceiptRow) (receiptNumber receiptHash : String) :
    Bool × Option (DonationReceipt PyDateTime) :=
  match receipts.find? fun row => row.receiptNumber == receiptNumber with
  | none => (false, none)
  | some row =>
      let receipt := row.readBack
      let expected := receipt.computeReceiptHash sha256
      (expected == receiptHash && receipt.receiptHash == receiptHash, some receipt)

/-! ## The hash survives storage -/

variable {sha256}

/-- A receipt that is read back hashes as the object did, if its time was in UTC and its
snapshots have text keys. -/
theorem computeReceiptHash_readBack {receipt : DonationReceipt PyDateTime} {instant : ℕ}
    (htime : receipt.issuedAt = utcDateTime instant)
    (hpayment : receipt.paymentSnapshot.orderStable = true)
    (hcampaign : receipt.campaignSnapshot.orderStable = true)
    (hdonor : receipt.donorSnapshot.orderStable = true) :
    receipt.stored.readBack.computeReceiptHash sha256 = receipt.computeReceiptHash sha256 := by
  simp only [DonationReceipt.computeReceiptHash, DonationReceipt.buildHashPayload,
    DonationReceipt.stored, DonationReceipt.readBack, PyJson.dumps, dumpsEntries, htime,
    instant_utcDateTime, Int.toNat_natCast, dumps_readBack hpayment, dumps_readBack hcampaign,
    dumps_readBack hdonor]

theorem newReceipt_stable (payment : LoadedPayment) (participation : Participation)
    (texts : CampaignText) (sponsorName : String) (donor : Donor) (issuedAt : PyDateTime) :
    let receipt := newReceipt payment participation texts sponsorName donor issuedAt
    receipt.paymentSnapshot.orderStable = true ∧ receipt.campaignSnapshot.orderStable = true ∧
      receipt.donorSnapshot.orderStable = true := by
  have hpayment : ascending ((sortKeys ([.str "payment_id", .str "authority", .str "ref_id",
      .str "gateway_name", .str "paid_at", .str "share_count"] : List PyKey)).map
        PyKey.text) = true := by
    decide
  have hcampaign : ascending ((sortKeys ([.str "campaign_id", .str "title", .str "slug",
      .str "sponsor_id", .str "sponsor_name"] : List PyKey)).map PyKey.text) = true := by decide
  have hdonor : ascending ((sortKeys ([.str "user_id", .str "email", .str "full_name"] :
      List PyKey)).map PyKey.text) = true := by decide
  refine ⟨?_, ?_, ?_⟩
  · have hpaid : (payment.row.paidAt.elim PyJson.null fun instant =>
        .str (String.ofList (utcDateTime instant).isoformat)).orderStable = true := by
      cases payment.row.paidAt <;> rfl
    simp [newReceipt, PyJson.orderStable, orderStableEntries, hpayment, hpaid]
  · simp [newReceipt, PyJson.orderStable, orderStableEntries, hcampaign]
  · simp [newReceipt, PyJson.orderStable, orderStableEntries, hdonor]

/-! ## What issuing does -/

/-- The number of a receipt names its payment. -/
theorem buildReceiptNumber_inj {k j : ℕ} {t u : PyDateTime}
    (h : buildReceiptNumber k t = buildReceiptNumber j u) : k = j := by
  have hlist := List.append_cancel_left (String.ofList_injective h)
  have hdigits : ∀ d : PyDate, Digits d.compact := by
    intro d c hc
    simp only [PyDate.compact, List.mem_append] at hc
    rcases hc with hc | hc | hc
    · exact digits_padded _ _ c hc
    · exact digits_padded _ _ c hc
    · exact digits_padded _ _ c hc
  obtain ⟨-, hrest⟩ := digits_append_inj (hdigits _) (hdigits _) (stops_cons (by decide) _)
    (stops_cons (by decide) _) hlist
  exact padded_inj (List.cons.inj hrest).2

/-- A row that issuing adds for a payment. -/
structure FreshReceipt (sha256 : String → String) (receipts : List ReceiptRow)
    (payment : LoadedPayment) (row : ReceiptRow) : Prop where
  payment_eq : row.payment = payment.pk
  amount_eq : row.amount = payment.row.amount
  number_eq : ∃ issuedAt, row.receiptNumber = buildReceiptNumber payment.pk issuedAt
  hash_eq : row.readBack.computeReceiptHash sha256 = row.receiptHash
  new : ∀ old ∈ receipts, old.payment ≠ payment.pk

theorem commits_insertReceipt {receipt r : DonationReceipt PyDateTime} {t u : ReceiptTables}
    (hhash : receipt.receiptHash = receipt.computeReceiptHash sha256)
    (h : Commits (insertReceipt sha256 receipt) t r u) :
    r = receipt ∧ u = { t with receipts := t.receipts ++ [receipt.stored] } ∧
      ∀ row ∈ t.receipts, row.payment ≠ receipt.payment := by
  have hfill : (if receipt.receiptHash = "" then
      { receipt with receiptHash := receipt.computeReceiptHash sha256 } else receipt) = receipt := by
    rw [← hhash]
    exact ite_self receipt
  simp only [insertReceipt, hfill, commits_bind, commits_get, commits_require, commits_modify,
    commits_pure] at h
  obtain ⟨_, _, ⟨rfl, rfl⟩, _, _, ⟨-, rfl⟩, _, _, ⟨hnew, rfl⟩, _, _, ⟨-, rfl⟩, _, _, rfl, rfl, rfl⟩ := h
  exact ⟨rfl, rfl, fun row hrow => (hnew row hrow).1⟩

/-- **Issuing** gives back the receipt that is there, or adds one. -/
theorem commits_issue {payment : LoadedPayment} {now : ℕ} {t u : ReceiptTables}
    {receipt : DonationReceipt PyDateTime}
    (h : Commits (issueDonationReceiptForPayment sha256 payment now) t receipt u) :
    payment.row.status = .success ∧
      ((u = t ∧ ∃ row ∈ t.receipts, row.payment = payment.pk) ∨
        ∃ row, FreshReceipt sha256 t.receipts payment row ∧
          row.receiptHash = receipt.receiptHash ∧
          u = { t with receipts := t.receipts ++ [row] }) := by
  simp only [issueDonationReceiptForPayment, commits_bind, commits_require, commits_get] at h
  obtain ⟨_, _, ⟨hsuccess, rfl⟩, _, _, ⟨rfl, rfl⟩, h⟩ := h
  refine ⟨hsuccess, ?_⟩
  split at h
  · next existing hfind =>
      obtain ⟨-, rfl⟩ := commits_pure.mp h
      exact Or.inl ⟨rfl, existing, List.mem_of_find?_eq_some hfind, by
        simpa using List.find?_some hfind⟩
  · next hnone =>
      right
      simp only [commits_bind, commits_orRaise] at h
      obtain ⟨participation, _, ⟨-, rfl⟩, texts, _, ⟨-, rfl⟩, sponsorName, _, ⟨-, rfl⟩, donor, _,
        ⟨-, rfl⟩, hinsert⟩ := h
      obtain ⟨rfl, hu, hnew⟩ := commits_insertReceipt rfl hinsert
      obtain ⟨hpayment, hcampaign, hdonor⟩ := newReceipt_stable payment participation texts
        sponsorName donor (utcDateTime ((payment.row.paidAt <|> payment.row.verifiedAt).getD now))
      refine ⟨_, ⟨rfl, rfl, ⟨_, rfl⟩, ?_, hnew⟩, rfl, hu⟩
      exact computeReceiptHash_readBack rfl hpayment hcampaign hdonor

theorem allOrNothing_insertReceipt (receipt : DonationReceipt PyDateTime) :
    AllOrNothing (insertReceipt sha256 receipt) := by
  refine allOrNothing_bind (keeps_get fun _ => rfl) fun t => ?_
  refine allOrNothing_bind (keeps_require (fun _ => rfl) _ _) fun _ => ?_
  refine allOrNothing_bind (keeps_require (fun _ => rfl) _ _) fun _ => ?_
  refine allOrNothing_bind (keeps_require (fun _ => rfl) _ _) fun _ => ?_
  exact allOrNothing_bind_pure (allOrNothing_modify _) _

/-- The insert is the last thing that issuing does, so it needs no block of its own. -/
theorem allOrNothing_issue (payment : LoadedPayment) (now : ℕ) :
    AllOrNothing (issueDonationReceiptForPayment sha256 payment now) := by
  refine allOrNothing_bind (keeps_require (fun _ => rfl) _ _) fun _ => ?_
  refine allOrNothing_bind (keeps_get fun _ => rfl) fun t => ?_
  split
  · exact allOrNothing_pure _
  · refine allOrNothing_bind (keeps_orRaise (fun _ => rfl) _ _) fun participation => ?_
    refine allOrNothing_bind (keeps_orRaise (fun _ => rfl) _ _) fun texts => ?_
    refine allOrNothing_bind (keeps_orRaise (fun _ => rfl) _ _) fun sponsorName => ?_
    refine allOrNothing_bind (keeps_orRaise (fun _ => rfl) _ _) fun donor => ?_
    exact allOrNothing_insertReceipt _

/-! ## What verifying does -/

/-- A table of receipts as issuing fills it: one receipt a payment, numbered after it, with
the hash that its row has. -/
structure GenuineReceipts (sha256 : String → String) (receipts : List ReceiptRow) : Prop where
  onePer : (receipts.map DonationReceipt.payment).Nodup
  numbered : ∀ row ∈ receipts, ∃ issuedAt,
    row.receiptNumber = buildReceiptNumber row.payment issuedAt
  hashed : ∀ row ∈ receipts, row.readBack.computeReceiptHash sha256 = row.receiptHash

variable {receipts : List ReceiptRow}

theorem GenuineReceipts.payment_of_number (h : GenuineReceipts sha256 receipts)
    {row row' : ReceiptRow} (hrow : row ∈ receipts) (hrow' : row' ∈ receipts)
    (hnumber : row.receiptNumber = row'.receiptNumber) : row.payment = row'.payment := by
  obtain ⟨_, hleft⟩ := h.numbered row hrow
  obtain ⟨_, hright⟩ := h.numbered row' hrow'
  exact buildReceiptNumber_inj (hleft.symm.trans (hnumber.trans hright))

/-- **Verifying** accepts the hash of the receipt and no other. -/
theorem GenuineReceipts.verify_iff (h : GenuineReceipts sha256 receipts) {row : ReceiptRow}
    (hrow : row ∈ receipts) (hash : String) :
    (verifyDonationReceipt sha256 receipts row.receiptNumber hash).1 = true ↔
      hash = row.receiptHash := by
  have hfound : receipts.find? (fun r => r.receiptNumber == row.receiptNumber) = some row := by
    cases hfind : receipts.find? fun r => r.receiptNumber == row.receiptNumber with
    | none => exact absurd (List.find?_eq_none.mp hfind row hrow) (by simp)
    | some row' =>
        have hmem := List.mem_of_find?_eq_some hfind
        have hnumber : row'.receiptNumber = row.receiptNumber := by
          simpa using List.find?_some hfind
        rw [List.inj_on_of_nodup_map h.onePer hmem hrow (h.payment_of_number hmem hrow hnumber)]
  have hkeep : row.readBack.receiptHash = row.receiptHash := rfl
  simp only [verifyDonationReceipt, hfound, h.hashed row hrow, hkeep, Bool.and_self, beq_iff_eq]
  exact eq_comm

theorem GenuineReceipts.append (h : GenuineReceipts sha256 receipts) {payment : LoadedPayment}
    {row : ReceiptRow} (hrow : FreshReceipt sha256 receipts payment row) :
    GenuineReceipts sha256 (receipts ++ [row]) := by
  refine ⟨?_, ?_, ?_⟩
  · rw [List.map_append, List.nodup_append]
    refine ⟨h.onePer, by simp, ?_⟩
    simpa [hrow.payment_eq] using hrow.new
  · intro r hr
    rcases List.mem_append.mp hr with hold | hnew
    · exact h.numbered r hold
    · obtain rfl := List.mem_singleton.mp hnew
      rw [hrow.payment_eq]
      exact hrow.number_eq
  · intro r hr
    rcases List.mem_append.mp hr with hold | hnew
    · exact h.hashed r hold
    · obtain rfl := List.mem_singleton.mp hnew
      exact hrow.hash_eq

/-- A row after a resend: the columns that the hash and the number are made of are the same. -/
def SameReceipt (row row' : ReceiptRow) : Prop :=
  ∃ resendCount lastResentAt,
    row' = { row with resendCount := resendCount, lastResentAt := lastResentAt }

theorem sameReceipt_refl (row : ReceiptRow) : SameReceipt row row :=
  ⟨row.resendCount, row.lastResentAt, rfl⟩

theorem sameReceipt_trans (a b c : ReceiptRow) (hab : SameReceipt a b) (hbc : SameReceipt b c) :
    SameReceipt a c := by
  obtain ⟨_, _, rfl⟩ := hab
  obtain ⟨resendCount, lastResentAt, rfl⟩ := hbc
  exact ⟨resendCount, lastResentAt, rfl⟩

theorem sameReceipt_resent (now : ℕ) (row : ReceiptRow) : SameReceipt row (row.resent now) :=
  ⟨_, _, rfl⟩

/-- Resending rewrites one row, and nothing that was issued. -/
theorem after_recordReceiptResend (t : ReceiptTables) (r now : ℕ) :
    after (recordReceiptResend r now) t =
      { t with receipts := t.receipts.modify r (DonationReceipt.resent now) } := by
  cases hrow : t.receipts[r]? with
  | none =>
      have hout : t.receipts.modify r (DonationReceipt.resent now) = t.receipts :=
        List.modify_eq_self (List.getElem?_eq_none_iff.mp hrow)
      rw [hout]
      refine (allOrNothing_atomic _).after_eq_self ?_
      intro _ u hcommits
      simp only [commits_atomic, commits_bind, commits_get, commits_orRaise] at hcommits
      obtain ⟨_, _, ⟨rfl, rfl⟩, _, _, ⟨hsome, -⟩, -⟩ := hcommits
      rw [hrow] at hsome
      cases hsome
  | some row =>
      refine Commits.after_eq (a := ()) ?_
      simp only [recordReceiptResend, commits_atomic, commits_bind, commits_get, commits_orRaise,
        commits_require, commits_modify]
      exact ⟨t, t, ⟨rfl, rfl⟩, row, t, ⟨hrow, rfl⟩, (), t, ⟨by decide, rfl⟩, rfl⟩

/-- Every receipt of the rewritten table is a receipt of the old one. -/
theorem mem_modify_resent {r now : ℕ} {row : ReceiptRow}
    (h : row ∈ receipts.modify r (DonationReceipt.resent now)) :
    ∃ old ∈ receipts, SameReceipt old row := by
  obtain ⟨j, hj⟩ := List.getElem?_of_mem h
  rcases getElem?_modify_cases hj with ⟨rfl, old, hold, rfl⟩ | ⟨-, hold⟩
  · exact ⟨old, List.mem_of_getElem? hold, sameReceipt_resent now old⟩
  · exact ⟨row, List.mem_of_getElem? hold, sameReceipt_refl row⟩

theorem GenuineReceipts.resent (h : GenuineReceipts sha256 receipts) (r now : ℕ) :
    GenuineReceipts sha256 (receipts.modify r (DonationReceipt.resent now)) := by
  refine ⟨?_, ?_, ?_⟩
  · have hcolumn := map_modify_same (f := DonationReceipt.resent now)
      (g := DonationReceipt.payment) (fun _ => rfl) receipts r
    rw [hcolumn]
    exact h.onePer
  · intro row hrow
    obtain ⟨old, hold, _, _, rfl⟩ := mem_modify_resent hrow
    exact h.numbered old hold
  · intro row hrow
    obtain ⟨old, hold, _, _, rfl⟩ := mem_modify_resent hrow
    exact h.hashed old hold

end

end SetadJang.Madadkar
