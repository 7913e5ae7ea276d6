import SetadJang.Madadkar.Lifecycle
import SetadJang.Madadkar.Prices
import SetadJang.Madadkar.Receipts

/-!
# Receipts over runs

The services of the payment system, the edits of campaigns, sponsors and donors, and any
number of further calls of `issue_donation_receipt_for_payment`, each with the payment as its
caller loaded it.  A payment only becomes SUCCESS in the transaction that also issues its
receipt, and nothing rewrites what was issued.
-/

namespace SetadJang.Madadkar

open SetadJang.Framework SetadJang.Framework.Txn

structure ReceiptSys where
  tables : ReceiptTables
  threads : List Thread
  totalAmounts : List ℕ
  /-- The payments that callers of `issue_donation_receipt_for_payment` hold. -/
  loaded : List LoadedPayment

def ReceiptSys.sys (s : ReceiptSys) : Sys := ⟨s.tables.db, s.threads⟩

def ReceiptSys.prices (s : ReceiptSys) : PriceSys := ⟨s.sys, s.totalAmounts⟩

inductive ReceiptAct where
  | service (a : Act)
  | saveStatus (campaign : LoadedCampaign) (service : StatusService)
  /-- `title` and `sponsor` are the values of these two keywords, where they are given. -/
  | updateCampaign (c : ℕ) (fs : CampaignFields) (now : ℕ) (columnsOk : Bool) (title : String)
      (sponsor : ℕ)
  /-- `update_sponsor` with a name; `cleanOk` is the outcome of `full_clean`. -/
  | updateSponsor (sponsor : ℕ) (name : String) (cleanOk : Bool)
  | editDonor (user : ℕ) (donor : Donor)
  | loadPayment (k : ℕ)
  | issueDonationReceipt (i now : ℕ)
  | recordReceiptResend (r now : ℕ)

/-- A verdict that reaches the final block of `verify_payment`. -/
structure Verdict where
  payment : ℕ
  result : PaymentVerifyResult
  now : ℕ
  hooksOk : Bool
deriving DecidableEq, Repr

def verdictOf (s : Sys) : Act → Option Verdict
  | .pay (.finalize i now hooksOk) =>
      match s.threads[i]? with
      | some (.verified k amount result) =>
          if result.mismatches amount = true then none else some ⟨k, result, now, hooksOk⟩
      | _ => none
  | _ => none

/-- The texts of a campaign after `update_campaign`; its slug stays. -/
def CampaignText.edited (texts : CampaignText) (fs : CampaignFields) (title : String)
    (sponsor : ℕ) : CampaignText where
  title := if fs.has "title" = true then title else texts.title
  slug := texts.slug
  sponsor := if fs.has "sponsor" = true then sponsor else texts.sponsor

section

variable (sha256 : String → String)

/-- One step of the payment system with its receipts. -/
def receiptStep (s : ReceiptSys) : ReceiptAct → ReceiptSys
  | .service a =>
      { s with
        tables :=
          match verdictOf s.sys a with
          | some v => after (finalizeWithReceipt sha256 v.payment v.result v.now v.hooksOk) s.tables
          | none => { s.tables with db := (step s.sys a).db }
        threads := threadsAfter s.sys a }
  | .saveStatus campaign service =>
      { s with tables := { s.tables with db := after (service.call campaign) s.tables.db } }
  | .updateCampaign c fs now columnsOk title sponsor =>
      match s.prices.campaign? c with
      | some campaign =>
          match updateCampaign s.tables.db.participations c campaign fs now columnsOk with
          | .ok saved =>
              { s with
                tables :=
                  { s.tables with
                    db := (s.prices.save c saved).sys.db
                    campaignTexts := s.tables.campaignTexts.modify c fun texts =>
                      texts.edited fs title sponsor }
                totalAmounts := (s.prices.save c saved).totalAmounts }
          | .error _ => s
      | none => s
  | .updateSponsor sponsor name cleanOk =>
      if cleanOk = true then
        { s with tables := { s.tables with sponsorNames := s.tables.sponsorNames.set sponsor name } }
      else s
  | .editDonor user donor =>
      { s with tables := { s.tables with donors := s.tables.donors.set user donor } }
  | .loadPayment k =>
      match s.tables.db.payments[k]? with
      | some row => { s with loaded := s.loaded ++ [⟨k, row⟩] }
      | none => s
  | .issueDonationReceipt i now =>
      match s.loaded[i]? with
      | some payment =>
          { s with tables := after (issueDonationReceiptForPayment sha256 payment now) s.tables }
      | none => s
  | .recordReceiptResend r now => { s with tables := after (recordReceiptResend r now) s.tables }

end

/-- Campaigns with their texts, sponsors and donors, and no service called yet. -/
def receiptStart (campaigns : List StoredCampaign) (campaignTexts : List CampaignText)
    (sponsorNames : List String) (donors : List Donor) : ReceiptSys where
  tables :=
    { db := (priceStart campaigns).sys.db
      campaignTexts := campaignTexts
      sponsorNames := sponsorNames
      donors := donors
      receipts := [] }
  threads := []
  totalAmounts := (priceStart campaigns).totalAmounts
  loaded := []

/-! ## Becoming SUCCESS -/

/-- A payment that is SUCCESS after a commit was so before, or is the one confirmed. -/
theorem success_commit {s t : Store} {e : Effect} (h : Commit s e t) {k : ℕ} {pay : Payment}
    (hpay : t.payments[k]? = some pay) (hsuccess : pay.status = .success) :
    (∃ old, s.payments[k]? = some old ∧ old.status = .success) ∨ e = .succeed k := by
  have hsame : s.payments[k]? = some pay →
      (∃ old, s.payments[k]? = some old ∧ old.status = .success) ∨ e = .succeed k :=
    fun hold => Or.inl ⟨pay, hold, hsuccess⟩
  have hsettled : ∀ {j : ℕ} {st : Settlement},
      (s.payments.modify j (·.settle st))[k]? = some pay → (st.status = .success → e = .succeed j) →
      (∃ old, s.payments[k]? = some old ∧ old.status = .success) ∨ e = .succeed k := by
    intro j st hmodified hstatus
    rcases getElem?_modify_cases hmodified with ⟨rfl, old, -, rfl⟩ | ⟨-, hold⟩
    · exact Or.inr (hstatus hsuccess)
    · exact hsame hold
  cases h with
  | mismatch hpay' hp => exact hsettled hpay nofun
  | reject hpay' hp hpend => exact hsettled hpay nofun
  | expireWith hpay' hpid hpend => exact hsettled hpay nofun
  | succeed hpay' hp hpend => exact hsettled hpay fun _ => rfl
  | persist hpid hnew hpend =>
      rcases getElem?_concat_cases hpay with hold | ⟨-, rfl⟩
      · exact hsame hold
      · rw [hpend] at hsuccess
        cases hsuccess
  | reserve hrow hroom hpos => exact hsame hpay
  | release hp hpend => exact hsame hpay
  | expire hnone => exact hsame hpay
  | fund hrow hroom => exact hsame hpay
  | voidFund hf => exact hsame hpay
  | requestRefund hpay' hr hpend => exact hsame hpay
  | reviewRefund hr hpend hpay' hstatus => exact hsame hpay
  | completeRefund hr happ hpay' hp hpart => exact hsame hpay
  | completeFullRefund hr happ hpay' hp hfull => exact hsame hpay
  | createAdjustment hpend => exact hsame hpay
  | reviewAdjustment ha hpend hstatus => exact hsame hpay
  | applyAdjustment ha happ hnone => exact hsame hpay
  | applyPaymentAdjustment ha happ hk hpay' => exact hsame hpay

/-- Every SUCCESS of `t` is one of `s`. -/
def NoNewSuccess (s t : Store) : Prop :=
  ∀ (k : ℕ) (pay : Payment), t.payments[k]? = some pay → pay.status = .success →
    ∃ old, s.payments[k]? = some old ∧ old.status = .success

theorem noNewSuccess_of_payments {s t : Store} (h : t.payments = s.payments) :
    NoNewSuccess s t := by
  intro k pay hpay hsuccess
  exact ⟨pay, h ▸ hpay, hsuccess⟩

/-- Only a verdict makes a payment SUCCESS. -/
theorem noNewSuccess_step {s : Sys} {a : Act} (h : verdictOf s a = none) :
    NoNewSuccess s.db (step s a).db := by
  rcases step_db s a with hsame | ⟨e, he, hcommit⟩
  · exact noNewSuccess_of_payments (congrArg Store.payments hsame)
  · intro k pay hpay hsuccess
    refine (success_commit hcommit hpay hsuccess).resolve_right ?_
    rintro rfl
    cases a with
    | pay a =>
        obtain ⟨i, now, hooksOk, amount, result, rfl, hthread, hmismatch, -⟩ := attempts_succeed he
        simp [verdictOf, hthread, hmismatch] at h
    | fin a => cases a <;> cases he

/-- Every SUCCESS of `t` but that of `k` is one of `s`. -/
def OnlySuccess (s t : Store) (k : ℕ) : Prop :=
  ∀ (j : ℕ) (pay : Payment), t.payments[j]? = some pay → pay.status = .success →
    (∃ old, s.payments[j]? = some old ∧ old.status = .success) ∨ j = k

theorem NoNewSuccess.only {s t : Store} (h : NoNewSuccess s t) (k : ℕ) : OnlySuccess s t k :=
  fun j pay hpay hsuccess => Or.inl (h j pay hpay hsuccess)

/-- A verdict makes its own payment SUCCESS, if it is pending and the answer is positive, and
no other. -/
theorem success_finalize {s t : Store} {k now : ℕ} {result : PaymentVerifyResult} {hooksOk : Bool}
    {u : Unit} (h : Commits (finalizeVerifiedPayment k result now hooksOk) s u t) :
    Stable s t ∧ OnlySuccess s t k ∧
      (¬ ((s.payments[k]?.any fun pay => pay.status == .pending) = true ∧ result.success = true) →
        NoNewSuccess s t) := by
  rcases commit_of_finalize h with rfl | hcommit
  · have hnone : NoNewSuccess t t := noNewSuccess_of_payments rfl
    exact ⟨stable_refl t, hnone.only k, fun _ => hnone⟩
  · refine ⟨stable_commit hcommit, ?_⟩
    by_cases hsuccess : result.success = true
    · rw [verdictEffect, if_pos hsuccess] at hcommit
      constructor
      · intro j pay hpay hstatus
        refine (success_commit hcommit hpay hstatus).imp_right fun heq => ?_
        exact (Effect.succeed.inj heq).symm
      · intro hguard
        cases hcommit with
        | succeed hpay hp hpend => exact absurd ⟨by simp [hpay, hpend], hsuccess⟩ hguard
    · rw [verdictEffect, if_neg hsuccess] at hcommit
      have hnone : NoNewSuccess s t := fun j pay hpay hstatus =>
        (success_commit hcommit hpay hstatus).resolve_right fun heq => by cases heq
      exact ⟨hnone.only k, fun _ => hnone⟩

/-! ## What a step does to the receipts -/

variable {sha256 : String → String}

/-- **The changes of the tables.** The receipts stay, or one is resent, or a payment has its
receipt and is the only one that may have become SUCCESS. -/
inductive ReceiptChange (sha256 : String → String) (t u : ReceiptTables) : Prop
  | quiet (hstable : Stable t.db u.db) (hnone : NoNewSuccess t.db u.db)
      (hreceipts : u.receipts = t.receipts)
  | resent (r now : ℕ) (hdb : u.db = t.db)
      (hreceipts : u.receipts = t.receipts.modify r (DonationReceipt.resent now))
  | issued (payment : LoadedPayment) (hstable : Stable t.db u.db)
      (hloaded : ∃ pay, u.db.payments[payment.pk]? = some pay ∧ pay.amount = payment.row.amount)
      (hone : OnlySuccess t.db u.db payment.pk)
      (hreceipt : (u.receipts = t.receipts ∧ ∃ row ∈ t.receipts, row.payment = payment.pk) ∨
        ∃ row, FreshReceipt sha256 t.receipts payment row ∧ u.receipts = t.receipts ++ [row])

theorem receiptChange_same {t u : ReceiptTables} (hdb : u.db = t.db)
    (hreceipts : u.receipts = t.receipts) : ReceiptChange sha256 t u :=
  .quiet (hdb ▸ stable_refl t.db) (noNewSuccess_of_payments (congrArg Store.payments hdb)) hreceipts

theorem receiptChange_finalize (t : ReceiptTables) (v : Verdict) :
    ReceiptChange sha256 t
      (after (finalizeWithReceipt sha256 v.payment v.result v.now v.hooksOk) t) := by
  rcases allOrNothing_atomic _ t with hsame | ⟨_, hcommits⟩
  · rw [finalizeWithReceipt, hsame]
    exact receiptChange_same rfl rfl
  · rw [← finalizeWithReceipt] at hcommits
    generalize after (finalizeWithReceipt sha256 v.payment v.result v.now v.hooksOk) t = u at hcommits
    simp only [finalizeWithReceipt, commits_atomic, commits_bind, commits_get, commits_mapError,
      commits_onPart, commits_ite, commits_orRaise, commits_require, commits_pure] at hcommits
    obtain ⟨_, _, ⟨rfl, rfl⟩, _, t₁, ⟨db, hfinal, rfl⟩, hrest⟩ := hcommits
    obtain ⟨hstable, hone, hnone⟩ := success_finalize hfinal
    rcases hrest with ⟨-, _, _, ⟨rfl, rfl⟩, pay, _, ⟨hpay, rfl⟩, receipt, t₂, hissue, -, rfl⟩ |
      ⟨hguard, -, rfl⟩
    · obtain ⟨-, hcases⟩ := commits_issue hissue
      rcases hcases with ⟨rfl, hold⟩ | ⟨row, hrow, -, rfl⟩
      · exact .issued ⟨v.payment, pay⟩ hstable ⟨pay, hpay, rfl⟩ hone (Or.inl ⟨rfl, hold⟩)
      · exact .issued ⟨v.payment, pay⟩ hstable ⟨pay, hpay, rfl⟩ hone (Or.inr ⟨row, hrow, rfl⟩)
    · exact .quiet hstable (hnone hguard) rfl

/-- A caller who holds a payment issues its receipt. -/
theorem receiptChange_issue (t : ReceiptTables) (payment : LoadedPayment) (now : ℕ)
    (hloaded : ∃ pay, t.db.payments[payment.pk]? = some pay ∧ pay.amount = payment.row.amount) :
    ReceiptChange sha256 t (after (issueDonationReceiptForPayment sha256 payment now) t) := by
  rcases allOrNothing_issue payment now t with hsame | ⟨receipt, hcommits⟩
  · exact receiptChange_same (by rw [hsame]) (by rw [hsame])
  · generalize after (issueDonationReceiptForPayment sha256 payment now) t = u at hcommits
    obtain ⟨-, ⟨rfl, -⟩ | ⟨row, hrow, -, rfl⟩⟩ := commits_issue hcommits
    · exact receiptChange_same rfl rfl
    · have hnone : NoNewSuccess t.db t.db := noNewSuccess_of_payments rfl
      exact .issued payment (stable_refl t.db) hloaded (hnone.only payment.pk)
        (Or.inr ⟨row, hrow, rfl⟩)

/-- What the callers hold: payments of the table, as they were at some time. -/
structure LoadedPayments (s : ReceiptSys) : Prop where
  stored : ∀ payment ∈ s.loaded, ∃ pay,
    s.tables.db.payments[payment.pk]? = some pay ∧ pay.amount = payment.row.amount

/-- **Step lemma.** -/
theorem receiptChange_step {s : ReceiptSys} (hs : LoadedPayments s) (a : ReceiptAct) :
    ReceiptChange sha256 s.tables (receiptStep sha256 s a).tables := by
  cases a with
  | service a =>
      simp only [receiptStep]
      split
      · exact receiptChange_finalize s.tables _
      · next hnone => exact .quiet (stable_step s.sys a) (noNewSuccess_step hnone) rfl
  | saveStatus campaign service =>
      have hstore : ∃ campaigns, after (service.call campaign) s.tables.db =
          { s.tables.db with campaigns := campaigns } := by
        rw [after_call]
        split
        · exact ⟨_, rfl⟩
        · exact ⟨_, rfl⟩
      obtain ⟨campaigns, hstore⟩ := hstore
      simp only [receiptStep, hstore]
      exact .quiet ⟨evolves_refl sameParticipation_refl _, evolves_refl samePayment_refl _⟩
        (noNewSuccess_of_payments rfl) rfl
  | updateCampaign c fs now columnsOk title sponsor =>
      simp only [receiptStep]
      split
      · split
        · exact .quiet ⟨evolves_refl sameParticipation_refl _, evolves_refl samePayment_refl _⟩
            (noNewSuccess_of_payments rfl) rfl
        · exact receiptChange_same rfl rfl
      · exact receiptChange_same rfl rfl
  | updateSponsor sponsor name cleanOk =>
      simp only [receiptStep]
      split <;> exact receiptChange_same rfl rfl
  | editDonor user donor => exact receiptChange_same rfl rfl
  | loadPayment k =>
      simp only [receiptStep]
      split <;> exact receiptChange_same rfl rfl
  | issueDonationReceipt i now =>
      simp only [receiptStep]
      split
      · next payment hpayment =>
          exact receiptChange_issue s.tables payment now
            (hs.stored payment (List.mem_of_getElem? hpayment))
      · exact receiptChange_same rfl rfl
  | recordReceiptResend r now =>
      simp only [receiptStep, after_recordReceiptResend]
      exact .resent r now rfl rfl

theorem ReceiptChange.stable {t u : ReceiptTables} (h : ReceiptChange sha256 t u) :
    Stable t.db u.db := by
  cases h with
  | quiet hstable hnone hreceipts => exact hstable
  | resent r now hdb hreceipts => exact hdb ▸ stable_refl t.db
  | issued payment hstable hloaded hone hreceipt => exact hstable

theorem mem_loaded_step {s : ReceiptSys} {a : ReceiptAct} {payment : LoadedPayment}
    (h : payment ∈ (receiptStep sha256 s a).loaded) :
    payment ∈ s.loaded ∨ s.tables.db.payments[payment.pk]? = some payment.row := by
  cases a with
  | loadPayment k =>
      simp only [receiptStep] at h
      split at h
      · next row hrow =>
          rcases List.mem_append.mp h with hold | hnew
          · exact Or.inl hold
          · obtain rfl := List.mem_singleton.mp hnew
            exact Or.inr hrow
      · exact Or.inl h
  | updateCampaign c fs now columnsOk title sponsor =>
      simp only [receiptStep] at h
      split at h
      · split at h <;> exact Or.inl h
      · exact Or.inl h
  | updateSponsor sponsor name cleanOk =>
      simp only [receiptStep] at h
      split at h <;> exact Or.inl h
  | issueDonationReceipt i now =>
      simp only [receiptStep] at h
      split at h <;> exact Or.inl h
  | service a => exact Or.inl h
  | saveStatus campaign service => exact Or.inl h
  | editDonor user donor => exact Or.inl h
  | recordReceiptResend r now => exact Or.inl h

theorem loadedPayments_step {s : ReceiptSys} (hs : LoadedPayments s) (a : ReceiptAct) :
    LoadedPayments (receiptStep sha256 s a) := by
  refine ⟨fun payment hpayment => ?_⟩
  have hrow : ∃ pay, s.tables.db.payments[payment.pk]? = some pay ∧
      pay.amount = payment.row.amount := by
    rcases mem_loaded_step hpayment with hold | hrow
    · exact hs.stored payment hold
    · exact ⟨payment.row, hrow, rfl⟩
  obtain ⟨pay, hpay, hamount⟩ := hrow
  have hchange : ReceiptChange sha256 s.tables (receiptStep sha256 s a).tables :=
    receiptChange_step hs a
  obtain ⟨pay', hpay', -, hsame⟩ := hchange.stable.payments _ pay hpay
  exact ⟨pay', hpay', hsame.trans hamount⟩

/-! ## Every SUCCESS has its receipt -/

/-- The receipts of the tables are genuine, their amounts are those of their payments, and
every SUCCESS payment has one. -/
structure Receipted (sha256 : String → String) (t : ReceiptTables) : Prop where
  genuine : GenuineReceipts sha256 t.receipts
  amounts : ∀ row ∈ t.receipts, ∃ pay,
    t.db.payments[row.payment]? = some pay ∧ pay.amount = row.amount
  issued : ∀ (k : ℕ) (pay : Payment), t.db.payments[k]? = some pay → pay.status = .success →
    ∃ row ∈ t.receipts, row.payment = k

/-- Amounts survive a step that keeps the payments. -/
theorem amounts_of_stable {t u : ReceiptTables} (hstable : Stable t.db u.db)
    (hamounts : ∀ row ∈ t.receipts, ∃ pay,
      t.db.payments[row.payment]? = some pay ∧ pay.amount = row.amount)
    {row : ReceiptRow} (hrow : row ∈ t.receipts) :
    ∃ pay, u.db.payments[row.payment]? = some pay ∧ pay.amount = row.amount := by
  obtain ⟨pay, hpay, hamount⟩ := hamounts row hrow
  obtain ⟨pay', hpay', -, hsame⟩ := hstable.payments _ pay hpay
  exact ⟨pay', hpay', hsame.trans hamount⟩

theorem receipted_change {t u : ReceiptTables} (ht : Receipted sha256 t)
    (h : ReceiptChange sha256 t u) : Receipted sha256 u := by
  cases h with
  | quiet hstable hnone hreceipts =>
      refine ⟨hreceipts ▸ ht.genuine, ?_, ?_⟩
      · rw [hreceipts]
        exact fun row hrow => amounts_of_stable hstable ht.amounts hrow
      · intro k pay hpay hsuccess
        obtain ⟨old, hold, hwas⟩ := hnone k pay hpay hsuccess
        rw [hreceipts]
        exact ht.issued k old hold hwas
  | resent r now hdb hreceipts =>
      refine ⟨hreceipts ▸ ht.genuine.resent r now, ?_, ?_⟩
      · intro row hrow
        rw [hreceipts] at hrow
        obtain ⟨old, hold, _, _, rfl⟩ := mem_modify_resent hrow
        rw [hdb]
        exact ht.amounts old hold
      · intro k pay hpay hsuccess
        rw [hdb] at hpay
        obtain ⟨row, hrow, hkey⟩ := ht.issued k pay hpay hsuccess
        have hevolves : Evolves SameReceipt t.receipts
            (t.receipts.modify r (DonationReceipt.resent now)) :=
          evolves_modify sameReceipt_refl fun row _ => sameReceipt_resent now row
        obtain ⟨i, hi⟩ := List.getElem?_of_mem hrow
        obtain ⟨row', hrow', _, _, rfl⟩ := hevolves i row hi
        rw [hreceipts]
        exact ⟨_, List.mem_of_getElem? hrow', hkey⟩
  | issued payment hstable hloaded hone hreceipt =>
      have hissued : (∃ row ∈ u.receipts, row.payment = payment.pk) →
          (∀ row ∈ t.receipts, row ∈ u.receipts) →
          ∀ (k : ℕ) (pay : Payment), u.db.payments[k]? = some pay → pay.status = .success →
            ∃ row ∈ u.receipts, row.payment = k := by
        intro hown hold k pay hpay hsuccess
        rcases hone k pay hpay hsuccess with ⟨old, hwas, hwasSuccess⟩ | rfl
        · obtain ⟨row, hrow, hkey⟩ := ht.issued k old hwas hwasSuccess
          exact ⟨row, hold row hrow, hkey⟩
        · exact hown
      rcases hreceipt with ⟨hsame, hfound⟩ | ⟨row, hfresh, hreceipts⟩
      · rw [hsame] at hissued
        refine ⟨hsame ▸ ht.genuine, ?_, ?_⟩
        · rw [hsame]
          exact fun row hrow => amounts_of_stable hstable ht.amounts hrow
        · rw [hsame]
          exact hissued hfound fun row hrow => hrow
      · refine ⟨hreceipts ▸ ht.genuine.append hfresh, ?_, ?_⟩
        · intro r hr
          rw [hreceipts] at hr
          rcases List.mem_append.mp hr with hold | hnew
          · exact amounts_of_stable hstable ht.amounts hold
          · obtain rfl := List.mem_singleton.mp hnew
            rw [hfresh.payment_eq, hfresh.amount_eq]
            exact hloaded
        · refine hissued ⟨row, ?_, hfresh.payment_eq⟩ fun r hr => ?_
          · rw [hreceipts]
            exact List.mem_append_right _ (List.mem_singleton.mpr rfl)
          · rw [hreceipts]
            exact List.mem_append_left _ hr

/-- What was issued is still there, as it was issued. -/
theorem receipts_change {t u : ReceiptTables} (h : ReceiptChange sha256 t u) :
    Evolves SameReceipt t.receipts u.receipts := by
  have hsame := evolves_refl sameReceipt_refl t.receipts
  cases h with
  | quiet hstable hnone hreceipts => exact hreceipts ▸ hsame
  | resent r now hdb hreceipts =>
      rw [hreceipts]
      exact evolves_modify sameReceipt_refl fun row _ => sameReceipt_resent now row
  | issued payment hstable hloaded hone hreceipt =>
      rcases hreceipt with ⟨hreceipts, -⟩ | ⟨row, -, hreceipts⟩
      · exact hreceipts ▸ hsame
      · rw [hreceipts]
        exact evolves_append sameReceipt_refl _ _

/-! ## Runs -/

/-- What holds in every state of a run. -/
structure ReceiptBooks (sha256 : String → String) (s : ReceiptSys) : Prop where
  loaded : LoadedPayments s
  receipted : Receipted sha256 s.tables

theorem receiptBooks_start (campaigns : List StoredCampaign) (campaignTexts : List CampaignText)
    (sponsorNames : List String) (donors : List Donor) :
    ReceiptBooks sha256 (receiptStart campaigns campaignTexts sponsorNames donors) := by
  refine ⟨⟨fun payment h => by cases h⟩, ⟨by simp [receiptStart], ?_, ?_⟩, ?_, ?_⟩
  · intro row hrow
    cases hrow
  · intro row hrow
    cases hrow
  · intro row hrow
    cases hrow
  · intro k pay hpay
    simp [receiptStart, priceStart, start] at hpay

theorem receiptBooks_step {s : ReceiptSys} (hs : ReceiptBooks sha256 s) (a : ReceiptAct) :
    ReceiptBooks sha256 (receiptStep sha256 s a) :=
  ⟨loadedPayments_step hs.loaded a,
    receipted_change hs.receipted (receiptChange_step hs.loaded a)⟩

theorem receiptBooks_run {s : ReceiptSys} (hs : ReceiptBooks sha256 s) (acts : List ReceiptAct) :
    ReceiptBooks sha256 (run (receiptStep sha256) s acts) :=
  invariant_run (I := ReceiptBooks sha256) (fun _ a h => receiptBooks_step h a) hs acts

theorem receipts_run {s : ReceiptSys} (hs : ReceiptBooks sha256 s) (acts : List ReceiptAct) :
    Evolves SameReceipt s.tables.receipts
      (run (receiptStep sha256) s acts).tables.receipts := by
  induction acts generalizing s with
  | nil => exact evolves_refl sameReceipt_refl _
  | cons a acts ih =>
      have hchange : ReceiptChange sha256 s.tables (receiptStep sha256 s a).tables :=
        receiptChange_step hs.loaded a
      exact (receipts_change hchange).trans sameReceipt_trans (ih (receiptBooks_step hs a))

/-- Every SUCCESS payment has one receipt, of its amount and with a number of its own. -/
def OneReceiptEach (t : ReceiptTables) : Prop :=
  ∀ (k : ℕ) (pay : Payment), t.db.payments[k]? = some pay → pay.status = .success →
    ∃ (i : ℕ) (row : ReceiptRow), t.receipts[i]? = some row ∧ row.payment = k ∧
      row.amount = pay.amount ∧ ∀ (j : ℕ) (row' : ReceiptRow), t.receipts[j]? = some row' →
        row'.payment = k ∨ row'.receiptNumber = row.receiptNumber → j = i

theorem oneReceiptEach_of_receipted {t : ReceiptTables} (h : Receipted sha256 t) :
    OneReceiptEach t := by
  intro k pay hpay hsuccess
  obtain ⟨row, hrow, rfl⟩ := h.issued k pay hpay hsuccess
  obtain ⟨i, hi⟩ := List.getElem?_of_mem hrow
  obtain ⟨pay', hpay', hamount⟩ := h.amounts row hrow
  obtain rfl : pay = pay' := Option.some.inj (hpay.symm.trans hpay')
  refine ⟨i, row, hi, rfl, hamount.symm, ?_⟩
  intro j row' hj hsame
  have hpayment : row'.payment = row.payment :=
    hsame.elim id (h.genuine.payment_of_number (List.mem_of_getElem? hj) hrow)
  have hcolumn : (t.receipts.map DonationReceipt.payment)[j]? =
      (t.receipts.map DonationReceipt.payment)[i]? := by
    simp [hi, hj, hpayment]
  have hlt : j < (t.receipts.map DonationReceipt.payment).length := by
    simpa using (List.getElem?_eq_some_iff.mp hj).1
  exact (List.getElem?_inj hlt h.genuine.onePer).mp hcolumn

/-- Between any two moments of a run: a receipt that is there at the first is verified at the
second with the hash it was issued with, and with no other. -/
def Verifiable (sha256 : String → String) (t u : ReceiptTables) : Prop :=
  ∀ (i : ℕ) (row : ReceiptRow), t.receipts[i]? = some row → ∀ hash,
    (verifyDonationReceipt sha256 u.receipts row.receiptNumber hash).1 = true ↔
      hash = row.receiptHash

/-- **Receipts stay verifiable.** After any services, edits, resends and further issues, every
SUCCESS payment has its one receipt, and whenever a receipt is verified, then or later, its own
hash is accepted and no other. -/
theorem receipts_stay_verifiable (sha256 : String → String) (campaigns : List StoredCampaign)
    (campaignTexts : List CampaignText) (sponsorNames : List String) (donors : List Donor)
    (acts later : List ReceiptAct) :
    let s := run (receiptStep sha256) (receiptStart campaigns campaignTexts sponsorNames donors) acts
    OneReceiptEach s.tables ∧
      Verifiable sha256 s.tables (run (receiptStep sha256) s later).tables := by
  intro s
  have hs : ReceiptBooks sha256 s := receiptBooks_run (receiptBooks_start _ _ _ _) acts
  have hlater : ReceiptBooks sha256 (run (receiptStep sha256) s later) := receiptBooks_run hs later
  refine ⟨oneReceiptEach_of_receipted hs.receipted, ?_⟩
  intro i row hrow hash
  obtain ⟨row', hrow', _, _, rfl⟩ := receipts_run hs later i row hrow
  exact hlater.receipted.genuine.verify_iff (List.mem_of_getElem? hrow') hash

end SetadJang.Madadkar
