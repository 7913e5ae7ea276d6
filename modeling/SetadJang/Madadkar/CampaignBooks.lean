import SetadJang.Madadkar.Prices

/-!
# Campaign edits and the books

`update_campaign` against everything that has a claim on the shares of a campaign.
The lock on amount and shares looks at PAID participations, the constraint of the
table at the shares that are paid or reserved online; shares that were funded
outside the site are in neither.
-/

namespace SetadJang.Madadkar

open SetadJang.Framework SetadJang.Framework.Txn

/-- The columns of a stored campaign keep their bounds. -/
structure CampaignRecord.Bounded (campaign : CampaignRecord) : Prop where
  amount_min : 1000 ≤ campaign.totalAmount
  amount_max : campaign.totalAmount ≤ 9223372036854775807
  shares_min : 1 ≤ campaign.row.totalShares

/-- The books of a campaign: no share is taken twice, the price divides the amount, and there is
a deadline when the campaign says so. -/
structure CampaignRecord.Consistent (campaign : CampaignRecord) : Prop where
  funded : campaign.row.fundedShares ≤ campaign.row.totalShares
  price : campaign.row.sharePrice * campaign.row.totalShares = campaign.totalAmount
  deadline : campaign.row.hasDeadline = campaign.row.deadline.isSome

/-- `CampaignFieldLockedError` and `CampaignInvalidDataError`. -/
def CampaignEditError.IsOwn : CampaignEditError → Prop
  | .fieldLocked _ | .invalidData _ => True
  | .integrityError | .dataError => False

/-! ## The errors of the service -/

theorem checkFieldLocks_raises (row : Campaign) (locked : Bool) (fs : List CampaignField) :
    RaisesOnly CampaignEditError.IsOwn (checkFieldLocks row locked fs) := by
  induction fs with
  | nil => exact raisesOnly_ok _ _
  | cons f fs ih =>
      refine raisesOnly_bind ?_ fun _ => ih
      unfold checkFieldLock
      split_ifs
      · exact raisesOnly_ok _ _
      · exact raisesOnly_bind (raisesOnly_checkThat trivial _) fun _ =>
          raisesOnly_checkThat trivial _

theorem checkFinancialEdit_raises (campaign : CampaignRecord) (fs : CampaignFields) :
    RaisesOnly CampaignEditError.IsOwn (checkFinancialEdit campaign fs) := by
  unfold checkFinancialEdit
  split_ifs
  · refine raisesOnly_bind (raisesOnly_checkThat trivial _) fun _ => ?_
    refine raisesOnly_bind (raisesOnly_checkThat trivial _) fun _ => ?_
    refine raisesOnly_bind (raisesOnly_checkThat trivial _) fun _ => ?_
    exact raisesOnly_bind (raisesOnly_checkThat trivial _) fun _ => raisesOnly_checkThat trivial _
  · exact raisesOnly_ok _ _

theorem checkDeadlineEdit_raises (row : Campaign) (locked : Bool) (fs : CampaignFields) (now : ℕ) :
    RaisesOnly CampaignEditError.IsOwn (checkDeadlineEdit row locked fs now) := by
  unfold checkDeadlineEdit
  split_ifs
  · refine raisesOnly_bind (raisesOnly_checkThat trivial _) fun _ => ?_
    refine raisesOnly_bind (raisesOnly_checkThat trivial _) fun _ => ?_
    refine raisesOnly_bind (raisesOnly_checkThat trivial _) fun _ => ?_
    exact raisesOnly_bind (raisesOnly_checkThat trivial _) fun _ => raisesOnly_checkThat trivial _
  · exact raisesOnly_ok _ _

/-- What the table refuses is no error of the service's own. -/
theorem saveCampaign_raises (campaign : CampaignRecord) (columnsOk : Bool) :
    RaisesOnly (fun e => ¬ e.IsOwn) (saveCampaign campaign columnsOk) := by
  have htable : ∀ {e : CampaignEditError}, ¬ e.IsOwn → ∀ (c : Prop) [Decidable c],
      RaisesOnly (fun e => ¬ e.IsOwn) (checkThat c e) :=
    fun h c _ => raisesOnly_checkThat (p := fun e : CampaignEditError => ¬ e.IsOwn) h c
  refine raisesOnly_bind (htable (e := .dataError) id _) fun _ => ?_
  refine raisesOnly_bind (htable (e := .dataError) id _) fun _ => ?_
  exact raisesOnly_bind (htable (e := .integrityError) id _) fun _ => raisesOnly_ok _ _

/-! ## The edited row -/

/-- **Assigning fields.** What a column holds after the assignments: the value of the one field
that writes it, or what it held before. -/
theorem foldl_setattr_column {β γ : Type} (column : CampaignRecord → β)
    (pick : CampaignField → Option γ) (put : γ → β) (name : String)
    (hset : ∀ campaign f, column (campaign.setattr f) = ((pick f).map put).getD (column campaign))
    (hname : ∀ f, (pick f).isSome = true → f.name = name) {fs : List CampaignField}
    (hdistinct : (fs.map CampaignField.name).Nodup) (campaign : CampaignRecord) :
    column (fs.foldl CampaignRecord.setattr campaign) =
      ((fs.findSome? pick).map put).getD (column campaign) := by
  induction fs generalizing campaign with
  | nil => rfl
  | cons f fs ih =>
      rw [List.map_cons, List.nodup_cons] at hdistinct
      rw [List.foldl_cons, ih hdistinct.2, List.findSome?_cons]
      cases hf : pick f with
      | none => rw [hset, hf]; rfl
      | some value =>
          -- no later field writes the same column
          have hnone : fs.findSome? pick = none := by
            rw [List.findSome?_eq_none_iff]
            intro g hg
            rw [← Option.not_isSome_iff_eq_none]
            intro hpick
            refine hdistinct.1 ?_
            rw [hname f (by rw [hf]; rfl), ← hname g hpick]
            exact List.mem_map_of_mem hg
          rw [hnone, hset, hf]
          rfl

section Edited

variable (campaign : CampaignRecord) (fs : CampaignFields)

/-- The campaign after `setattr` for every field and the price of `Campaign.save`. -/
def CampaignRecord.edited : CampaignRecord :=
  (fs.fields.foldl CampaignRecord.setattr campaign).withPrice

/-- `new_total_amount`. -/
def CampaignRecord.newTotalAmount : ℤ := fs.totalAmount?.getD campaign.totalAmount

/-- `new_total_shares`. -/
def CampaignRecord.newTotalShares : ℤ := fs.totalShares?.getD campaign.row.totalShares

theorem withPrice_rest (campaign : CampaignRecord) :
    campaign.withPrice.row.hasDeadline = campaign.row.hasDeadline ∧
      campaign.withPrice.row.deadline = campaign.row.deadline ∧
      campaign.withPrice.row.purchasedShares = campaign.row.purchasedShares ∧
      campaign.withPrice.row.fundedShares = campaign.row.fundedShares := by
  unfold CampaignRecord.withPrice
  split_ifs <;> exact ⟨rfl, rfl, rfl, rfl⟩

theorem edited_totalAmount :
    (campaign.edited fs).totalAmount = (campaign.newTotalAmount fs).toNat := by
  rw [CampaignRecord.edited, CampaignRecord.withPrice_totalAmount]
  have hcolumn : (fs.fields.foldl CampaignRecord.setattr campaign).totalAmount =
      (fs.totalAmount?.map Int.toNat).getD campaign.totalAmount := by
    apply foldl_setattr_column CampaignRecord.totalAmount _ Int.toNat "total_amount" _ _ fs.distinct
    · intro campaign f
      cases f <;> rfl
    · intro f hf
      cases f <;> first | rfl | cases hf
  rw [hcolumn, CampaignRecord.newTotalAmount]
  cases fs.totalAmount? <;> simp

theorem edited_totalShares :
    (campaign.edited fs).row.totalShares = (campaign.newTotalShares fs).toNat := by
  rw [CampaignRecord.edited, CampaignRecord.withPrice_totalShares]
  have hcolumn : (fs.fields.foldl CampaignRecord.setattr campaign).row.totalShares =
      (fs.totalShares?.map Int.toNat).getD campaign.row.totalShares := by
    apply foldl_setattr_column (fun campaign => campaign.row.totalShares) _ Int.toNat
      "total_shares" _ _ fs.distinct
    · intro campaign f
      cases f <;> rfl
    · intro f hf
      cases f <;> first | rfl | cases hf
  rw [hcolumn, CampaignRecord.newTotalShares]
  cases fs.totalShares? <;> simp

theorem edited_hasDeadline :
    (campaign.edited fs).row.hasDeadline = fs.hasDeadline?.getD campaign.row.hasDeadline := by
  rw [CampaignRecord.edited, (withPrice_rest _).1, ← Option.map_id' (x := fs.hasDeadline?)]
  apply foldl_setattr_column (fun campaign => campaign.row.hasDeadline) _ _ "has_deadline" _ _
    fs.distinct
  · intro campaign f
    cases f <;> rfl
  · intro f hf
    cases f <;> first | rfl | cases hf

theorem edited_deadline :
    (campaign.edited fs).row.deadline = fs.deadline?.getD campaign.row.deadline := by
  rw [CampaignRecord.edited, (withPrice_rest _).2.1, ← Option.map_id' (x := fs.deadline?)]
  apply foldl_setattr_column (fun campaign => campaign.row.deadline) _ _ "deadline" _ _
    fs.distinct
  · intro campaign f
    cases f <;> rfl
  · intro f hf
    cases f <;> first | rfl | cases hf

/-- No field writes what has been bought or funded. -/
theorem edited_taken :
    (campaign.edited fs).row.purchasedShares = campaign.row.purchasedShares ∧
      (campaign.edited fs).row.fundedShares = campaign.row.fundedShares := by
  have hkept : ∀ fs : List CampaignField,
      (fs.foldl CampaignRecord.setattr campaign).row.counters = campaign.row.counters := by
    intro fs
    induction fs generalizing campaign with
    | nil => rfl
    | cons f fs ih =>
        rw [List.foldl_cons, ih]
        cases f <;> rfl
  have hcounters := hkept fs.fields
  simp only [Campaign.counters, Counters.mk.injEq] at hcounters
  rw [CampaignRecord.edited, (withPrice_rest _).2.2.1, (withPrice_rest _).2.2.2,
    Campaign.fundedShares, Campaign.fundedShares]
  exact ⟨hcounters.1, by rw [hcounters.1, hcounters.2.2.2.1]⟩

/-! ## What the checks have settled -/

variable {campaign fs}

/-- The three checks of the service let the edit pass. -/
def EditPasses (ps : List Participation) (c : ℕ) (campaign : CampaignRecord) (fs : CampaignFields)
    (now : ℕ) : Prop :=
  checkFieldLocks campaign.row (hasPaidParticipations ps c) fs.fields = .ok () ∧
    checkFinancialEdit campaign fs = .ok () ∧
    checkDeadlineEdit campaign.row (hasPaidParticipations ps c) fs now = .ok ()

/-- A field that is not given has no value. -/
theorem value_eq_none {γ : Type} {pick : CampaignField → Option γ} {name : String}
    (hname : ∀ f, (pick f).isSome = true → f.name = name) (h : fs.has name = false) :
    fs.fields.findSome? pick = none := by
  rw [List.findSome?_eq_none_iff]
  intro f hf
  rw [← Option.not_isSome_iff_eq_none]
  intro hpick
  rw [CampaignFields.has, List.contains_eq_mem, decide_eq_false_iff_not] at h
  exact h (hname f hpick ▸ List.mem_map_of_mem hf)

theorem financial_settled (hbound : campaign.Bounded) (hbooks : campaign.Consistent)
    (h : checkFinancialEdit campaign fs = .ok ()) :
    1000 ≤ campaign.newTotalAmount fs ∧ 1 ≤ campaign.newTotalShares fs ∧
      campaign.newTotalAmount fs % campaign.newTotalShares fs = 0 := by
  unfold checkFinancialEdit at h
  split_ifs at h with hgiven
  · simp only [validateCampaignFinancialFields, checkThat_bind_ok_iff, checkThat_ok_iff] at h
    exact ⟨h.1, h.2.1, h.2.2.2.2⟩
  · -- nothing financial is given: the stored values satisfy the rules
    rw [not_or, Bool.not_eq_true, Bool.not_eq_true] at hgiven
    have hamount : fs.totalAmount? = none :=
      value_eq_none (fun f hf => by cases f <;> first | rfl | cases hf) hgiven.1
    have hshares : fs.totalShares? = none :=
      value_eq_none (fun f hf => by cases f <;> first | rfl | cases hf) hgiven.2
    rw [CampaignRecord.newTotalAmount, CampaignRecord.newTotalShares, hamount, hshares]
    have hmin := hbound.amount_min
    have hone := hbound.shares_min
    simp only [Option.getD_none]
    refine ⟨by exact_mod_cast hmin, by exact_mod_cast hone, ?_⟩
    rw [← hbooks.price]
    push_cast
    exact Int.mul_emod_left _ _

theorem deadline_settled (hbooks : campaign.Consistent) {locked : Bool} {now : ℕ}
    (h : checkDeadlineEdit campaign.row locked fs now = .ok ()) :
    fs.hasDeadline?.getD campaign.row.hasDeadline =
      (fs.deadline?.getD campaign.row.deadline).isSome := by
  unfold checkDeadlineEdit at h
  split_ifs at h with hgiven
  · simp only [checkDeadlineFields, checkThat_bind_ok_iff, checkThat_ok_iff] at h
    obtain ⟨hneeded, hunwanted, -⟩ := h
    cases hflag : fs.hasDeadline?.getD campaign.row.hasDeadline <;>
      cases hdate : fs.deadline?.getD campaign.row.deadline <;> simp_all
  · rw [Bool.not_eq_true, deadlineFields, List.any_cons, List.any_cons, List.any_nil,
      Bool.or_false, Bool.or_eq_false_iff] at hgiven
    have hflag : fs.hasDeadline? = none :=
      value_eq_none (fun f hf => by cases f <;> first | rfl | cases hf) hgiven.1
    have hdate : fs.deadline? = none :=
      value_eq_none (fun f hf => by cases f <;> first | rfl | cases hf) hgiven.2
    rw [hflag, hdate]
    exact hbooks.deadline

/-- The price of an edit that the checks let pass divides its amount. -/
theorem edited_price (hbound : campaign.Bounded) (hbooks : campaign.Consistent)
    {ps : List Participation} {c now : ℕ} (hpass : EditPasses ps c campaign fs now) :
    (campaign.edited fs).row.sharePrice * (campaign.edited fs).row.totalShares =
      (campaign.edited fs).totalAmount := by
  obtain ⟨hmin, hone, hdvd⟩ := financial_settled hbound hbooks hpass.2.1
  have hamount := edited_totalAmount campaign fs
  have hshares := edited_totalShares campaign fs
  have hquotient : (campaign.edited fs).row.sharePrice =
      (campaign.edited fs).totalAmount / (campaign.edited fs).row.totalShares := by
    rw [CampaignRecord.edited, CampaignRecord.withPrice_totalAmount,
      CampaignRecord.withPrice_totalShares] at *
    exact CampaignRecord.withPrice_sharePrice (by omega) (by omega)
  rw [hquotient]
  apply Nat.div_mul_cancel
  rw [hamount, hshares]
  obtain ⟨a, ha⟩ := Int.eq_ofNat_of_zero_le (show 0 ≤ campaign.newTotalAmount fs by omega)
  obtain ⟨n, hn⟩ := Int.eq_ofNat_of_zero_le (show 0 ≤ campaign.newTotalShares fs by omega)
  rw [ha, hn] at hdvd ⊢
  rw [Int.toNat_natCast, Int.toNat_natCast]
  exact_mod_cast Int.dvd_of_emod_eq_zero hdvd

/-- What the table asks of an edit that the checks let pass. -/
theorem saveCampaign_edited_iff (hbound : campaign.Bounded) (hbooks : campaign.Consistent)
    {ps : List Participation} {c now : ℕ} (hpass : EditPasses ps c campaign fs now)
    {columnsOk : Bool} {saved : CampaignRecord} :
    saveCampaign (fs.fields.foldl CampaignRecord.setattr campaign) columnsOk = .ok saved ↔
      columnsOk = true ∧ campaign.newTotalAmount fs ≤ 9223372036854775807 ∧
        (campaign.row.purchasedShares : ℤ) ≤ campaign.newTotalShares fs ∧
        saved = campaign.edited fs := by
  obtain ⟨hmin, hone, hdvd⟩ := financial_settled hbound hbooks hpass.2.1
  have hamount := edited_totalAmount campaign fs
  have hshares := edited_totalShares campaign fs
  have hdeadline := deadline_settled hbooks hpass.2.2
  rw [← edited_hasDeadline, ← edited_deadline] at hdeadline
  have hbought := (edited_taken campaign fs).1
  have hprice : 1 ≤ (campaign.edited fs).row.sharePrice := by
    have hproduct := edited_price hbound hbooks hpass
    rw [Nat.one_le_iff_ne_zero]
    intro hzero
    rw [hzero, Nat.zero_mul] at hproduct
    omega
  rw [saveCampaign_ok_iff]
  constructor
  · rintro ⟨hcolumns, hbig, ⟨-, -, -, hroom, -⟩, rfl⟩
    change (campaign.edited fs).totalAmount ≤ _ at hbig
    change (campaign.edited fs).row.purchasedShares ≤ (campaign.edited fs).row.totalShares at hroom
    exact ⟨hcolumns, by omega, by omega, rfl⟩
  · rintro ⟨hcolumns, hbig, hroom, rfl⟩
    exact ⟨hcolumns, by omega, ⟨by omega, by omega, hprice, by omega, hdeadline⟩, rfl⟩

end Edited

/-! ## One edit -/

/-- The edit is refused by the service and writes nothing, or the saved campaign is consistent. -/
def EditKeepsBooks (s : PriceSys) (c : ℕ) (campaign : CampaignRecord) (fs : CampaignFields)
    (now : ℕ) (columnsOk : Bool) : Prop :=
  match updateCampaign s.sys.db.participations c campaign fs now columnsOk with
  | .error e => e.IsOwn ∧ priceStep s (.updateCampaign c fs now columnsOk) = s
  | .ok saved => saved.Consistent ∧
      priceStep s (.updateCampaign c fs now columnsOk) = s.save c saved

/-- The values fit their columns, and everything that is funded fits the shares. -/
def EditFits (campaign : CampaignRecord) (fs : CampaignFields) (columnsOk : Bool) : Prop :=
  columnsOk = true ∧ campaign.newTotalAmount fs ≤ 9223372036854775807 ∧
    (campaign.row.fundedShares : ℤ) ≤ campaign.newTotalShares fs

section Edit

variable {s : PriceSys} {c : ℕ} {campaign : CampaignRecord} {fs : CampaignFields} {now : ℕ}
  {columnsOk : Bool}

/-- A refusal of the checks. -/
theorem editKeepsBooks_refused (hc : s.campaign? c = some campaign)
    (hrefused : ¬ EditPasses s.sys.db.participations c campaign fs now) :
    EditKeepsBooks s c campaign fs now columnsOk := by
  unfold EditKeepsBooks
  cases hupdate : updateCampaign s.sys.db.participations c campaign fs now columnsOk with
  | ok saved =>
      obtain ⟨hlocks, hfin, hdead, -⟩ := updateCampaign_ok_iff.mp hupdate
      exact absurd ⟨hlocks, hfin, hdead⟩ hrefused
  | error e =>
      refine ⟨?_, by simp only [priceStep, hc, hupdate]⟩
      simp only [updateCampaign, except_bind_error_iff] at hupdate
      rcases hupdate with hlocks | ⟨_, hlocks, hfin | ⟨_, hfin, hdead | ⟨_, hdead, -⟩⟩⟩
      · exact checkFieldLocks_raises _ _ _ e hlocks
      · exact checkFinancialEdit_raises _ _ e hfin
      · exact checkDeadlineEdit_raises _ _ _ _ e hdead
      · exact absurd ⟨hlocks, hfin, hdead⟩ hrefused

/-- **Campaign edits and the books.** Among the edits that the checks let pass, exactly those keep
the books whose values fit their columns and leave room for everything that is funded. -/
theorem edit_keeps_books_iff (hc : s.campaign? c = some campaign) (hbound : campaign.Bounded)
    (hbooks : campaign.Consistent) :
    EditKeepsBooks s c campaign fs now columnsOk ↔
      (EditPasses s.sys.db.participations c campaign fs now → fs.fields ≠ [] →
        EditFits campaign fs columnsOk) := by
  by_cases hpass : EditPasses s.sys.db.participations c campaign fs now
  swap
  · exact iff_of_true (editKeepsBooks_refused hc hpass) fun h => absurd h hpass
  have hupdate : ∀ saved, updateCampaign s.sys.db.participations c campaign fs now columnsOk =
      .ok saved ↔ if fs.fields = [] then saved = campaign
        else saveCampaign (fs.fields.foldl CampaignRecord.setattr campaign) columnsOk =
          .ok saved := by
    intro saved
    rw [updateCampaign_ok_iff]
    exact ⟨fun h => h.2.2.2, fun h => ⟨hpass.1, hpass.2.1, hpass.2.2, h⟩⟩
  by_cases hnone : fs.fields = []
  · -- no field: the campaign comes back as it was
    have hsame := (hupdate campaign).mpr (by rw [if_pos hnone])
    refine iff_of_true ?_ fun _ hfields => absurd hnone hfields
    rw [EditKeepsBooks, hsame]
    exact ⟨hbooks, by simp only [priceStep, hc, hsame]⟩
  simp only [if_neg hnone, saveCampaign_edited_iff hbound hbooks hpass] at hupdate
  have htaken := edited_taken campaign fs
  have hshares := edited_totalShares campaign fs
  obtain ⟨-, hone, -⟩ := financial_settled hbound hbooks hpass.2.1
  have hbought : campaign.row.purchasedShares ≤ campaign.row.fundedShares := Nat.le_add_right _ _
  constructor
  · intro hkeeps _ _
    unfold EditKeepsBooks at hkeeps
    split at hkeeps
    · next e herror =>
        -- the checks have passed, so it is the table that refuses
        exfalso
        simp only [updateCampaign, except_bind_error_iff] at herror
        rcases herror with hlocks | ⟨_, -, hfin | ⟨_, -, hdead | ⟨_, -, hsave⟩⟩⟩
        · rw [hpass.1] at hlocks
          cases hlocks
        · rw [hpass.2.1] at hfin
          cases hfin
        · rw [hpass.2.2] at hdead
          cases hdead
        · rw [if_neg hnone] at hsave
          exact saveCampaign_raises _ _ e hsave hkeeps.1
    · next saved hsaved =>
        obtain ⟨hcolumns, hbig, -, rfl⟩ := (hupdate saved).mp hsaved
        have hfunded := hkeeps.1.funded
        exact ⟨hcolumns, hbig, by omega⟩
  · intro hfits
    obtain ⟨hcolumns, hbig, hfunded⟩ := hfits hpass hnone
    have hsaved := (hupdate (campaign.edited fs)).mpr ⟨hcolumns, hbig, by omega, rfl⟩
    rw [EditKeepsBooks, hsaved]
    refine ⟨⟨by omega, edited_price hbound hbooks hpass, ?_⟩, by simp only [priceStep, hc, hsaved]⟩
    rw [edited_hasDeadline, edited_deadline]
    exact deadline_settled hbooks hpass.2.2

end Edit

/-- Ten shares of which five are funded outside the site. -/
def offlineFunded : PriceSys where
  sys := run step (start [tenShares]) [.fin (.recordExternalFunding 0 .published 5 none true)]
  totalAmounts := [10000]

def offlineCampaign : CampaignRecord where
  row := { tenShares with externalFundedShares := 5, externalFundedAmount := 5000 }
  totalAmount := 10000

/-- Ten shares of which two are reserved. -/
def onlineReserved : PriceSys where
  sys := run step (start [tenShares]) [.pay (.initiate 0 1 2 5)]
  totalAmounts := [10000]

def reservedCampaign : CampaignRecord where
  row := { tenShares with purchasedShares := 2 }
  totalAmount := 10000

/-- The admin lowers the number of shares. -/
def lowerShares (n : ℤ) : CampaignFields where
  fields := [.totalShares n]
  distinct := List.nodup_singleton _

theorem offlineCampaign_consistent : offlineCampaign.Bounded ∧ offlineCampaign.Consistent :=
  ⟨⟨by decide, by decide, by decide⟩, ⟨by decide, by decide, by decide⟩⟩

/-- Five shares are left to a campaign of which five are funded: nothing overlaps. -/
theorem edit_keeps_books_iff_five :
    EditKeepsBooks offlineFunded 0 offlineCampaign (lowerShares 5) 6 true :=
  (edit_keeps_books_iff (by decide +kernel) offlineCampaign_consistent.1
    offlineCampaign_consistent.2).mpr fun _ _ => ⟨rfl, by decide, by decide⟩

/-- Four shares are saved although five are funded; and one share, below the two that are
reserved, is refused by the table and not by the service. -/
theorem edit_below_funded_shares :
    (offlineFunded.campaign? 0 = some offlineCampaign ∧ offlineCampaign.Consistent ∧
      ¬ EditKeepsBooks offlineFunded 0 offlineCampaign (lowerShares 4) 6 true) ∧
    onlineReserved.campaign? 0 = some reservedCampaign ∧
      updateCampaign onlineReserved.sys.db.participations 0 reservedCampaign (lowerShares 1) 6
        true = .error .integrityError := by
  refine ⟨⟨by decide +kernel, offlineCampaign_consistent.2, ?_⟩, by decide +kernel, by decide +kernel⟩
  intro hkeeps
  have hsaved : ∃ saved, updateCampaign offlineFunded.sys.db.participations 0 offlineCampaign
      (lowerShares 4) 6 true = .ok saved ∧ ¬ saved.row.fundedShares ≤ saved.row.totalShares :=
    ⟨_, rfl, by decide⟩
  obtain ⟨saved, hupdate, hover⟩ := hsaved
  rw [EditKeepsBooks, hupdate] at hkeeps
  exact hover hkeeps.1.funded

end SetadJang.Madadkar
