import SetadJang.Madadkar.Services

/-!
# Campaign edits

`update_campaign` of `apps/madadkar/services.py`.  The share price of a campaign
is no field of its own: `Campaign.save` computes it from the total amount and the
total shares.  Sponsor, amount and shares are locked by the first PAID
participation and by a terminal status.
-/

namespace SetadJang.Madadkar

open SetadJang.Framework

/-- A `Campaign` object with the amount its price is computed from. -/
structure CampaignRecord where
  row : Campaign
  totalAmount : ℕ
deriving DecidableEq, Repr

/-- `CampaignFieldLockedError` and `CampaignInvalidDataError` are the service's
own; the other two are the table's. -/
inductive CampaignEditError where
  | fieldLocked (message : String)
  | invalidData (message : String)
  | integrityError
  | dataError
deriving DecidableEq, Repr

/-- A keyword argument of `update_campaign`.  The value of a column that nothing
here reads is left out. -/
inductive CampaignField where
  | title
  | description
  | coverImage
  | isVisible (value : Bool)
  | sponsor
  | totalAmount (value : ℤ)
  | totalShares (value : ℤ)
  | hasDeadline (value : Bool)
  | deadline (value : Option ℕ)
deriving DecidableEq, Repr

def CampaignField.name : CampaignField → String
  | title => "title"
  | description => "description"
  | coverImage => "cover_image"
  | isVisible _ => "is_visible"
  | sponsor => "sponsor"
  | totalAmount _ => "total_amount"
  | totalShares _ => "total_shares"
  | hasDeadline _ => "has_deadline"
  | deadline _ => "deadline"

/-- `**fields`: keyword arguments in the order of the call, no name twice. -/
structure CampaignFields where
  fields : List CampaignField
  distinct : (fields.map CampaignField.name).Nodup

/-- `_ALWAYS_EDITABLE_FIELDS`. -/
def alwaysEditableFields : List String := ["title", "description", "cover_image", "is_visible"]

/-- `_LOCKED_AFTER_FIRST_PAYMENT`. -/
def lockedAfterFirstPayment : List String := ["sponsor", "total_amount", "total_shares"]

/-- `_DEADLINE_FIELDS`. -/
def deadlineFields : List String := ["has_deadline", "deadline"]

namespace CampaignFields

/-- `name in fields`. -/
def has (fs : CampaignFields) (name : String) : Bool :=
  (fs.fields.map CampaignField.name).contains name

def totalAmount? (fs : CampaignFields) : Option ℤ :=
  fs.fields.findSome? fun
    | .totalAmount value => some value
    | _ => none

def totalShares? (fs : CampaignFields) : Option ℤ :=
  fs.fields.findSome? fun
    | .totalShares value => some value
    | _ => none

def hasDeadline? (fs : CampaignFields) : Option Bool :=
  fs.fields.findSome? fun
    | .hasDeadline value => some value
    | _ => none

def deadline? (fs : CampaignFields) : Option (Option ℕ) :=
  fs.fields.findSome? fun
    | .deadline value => some value
    | _ => none

end CampaignFields

/-! ## Messages -/

/-- `get_status_display`. -/
def CampaignStatus.display : CampaignStatus → String
  | draft => "پیش‌نویس"
  | published => "منتشرشده"
  | completed => "تکمیل‌شده"
  | closed => "بسته‌شده"

/-- Digits, the last one first, with a comma after every three. -/
def groupDigits : List Char → List Char
  | a :: b :: c :: d :: ds => a :: b :: c :: ',' :: groupDigits (d :: ds)
  | ds => ds

/-- The format `{value:,}`. -/
def withCommas (value : ℤ) : String :=
  (if value < 0 then "-" else "") ++
    String.ofList (groupDigits (Nat.toDigits 10 value.natAbs).reverse).reverse

/-! ## Checks -/

/-- `validate_total_amount`, `validate_total_shares` and
`validate_share_price_divisibility`, as `_validate_campaign_financial_fields`
calls them. -/
def validateCampaignFinancialFields (totalAmount totalShares : ℤ) :
    Except CampaignEditError Unit := do
  checkThat (1000 ≤ totalAmount) (.invalidData "مبلغ کل حرکت باید حداقل 1,000 تومان باشد.")
  checkThat (1 ≤ totalShares) (.invalidData "تعداد سهم باید حداقل 1 باشد.")
  checkThat (totalShares ≤ 1000000)
    (.invalidData "تعداد سهم نمی‌تواند بیشتر از 1,000,000 باشد.")
  checkThat (0 < totalShares) (.invalidData "تعداد سهم باید عدد مثبت باشد.")
  checkThat (totalAmount % totalShares = 0)
    (.invalidData ("مبلغ کل (" ++ withCommas totalAmount ++ " تومان) باید بر تعداد سهم (" ++
      withCommas totalShares ++ ") بدون باقیمانده تقسیم شود."))

/-- `_has_paid_participations`. -/
def hasPaidParticipations (ps : List Participation) (c : ℕ) : Bool :=
  ps.any (Participation.paidIn c)

def Campaign.isTerminal (row : Campaign) : Bool :=
  row.status == .completed || row.status == .closed

/-- One turn of the loop over the field names. -/
def checkFieldLock (row : Campaign) (locked : Bool) (f : CampaignField) :
    Except CampaignEditError Unit :=
  if f.name ∈ alwaysEditableFields then .ok ()
  else do
    checkThat (row.isTerminal = false)
      (.fieldLocked ("حرکت در وضعیت «" ++ row.status.display ++ "» قرار دارد و فیلد «" ++ f.name ++
        "» قابل ویرایش نیست."))
    checkThat (¬ (locked = true ∧ f.name ∈ lockedAfterFirstPayment))
      (.fieldLocked ("به دلیل ثبت پرداخت‌های موفق، فیلد «" ++ f.name ++ "» قابل ویرایش نیست."))

def checkFieldLocks (row : Campaign) (locked : Bool) :
    List CampaignField → Except CampaignEditError Unit
  | [] => .ok ()
  | f :: fs => do
      checkFieldLock row locked f
      checkFieldLocks row locked fs

/-- The rules for `has_deadline` and `deadline`. -/
def checkDeadlineFields (row : Campaign) (locked newHasDeadline : Bool) (newDeadline : Option ℕ)
    (now : ℕ) : Except CampaignEditError Unit := do
  checkThat (¬ (newHasDeadline = true ∧ newDeadline = none))
    (.invalidData "در صورت فعال بودن مهلت زمانی، تاریخ پایان الزامی است.")
  checkThat (¬ (newHasDeadline = false ∧ newDeadline ≠ none))
    (.invalidData "اگر مهلت زمانی فعال نیست، تاریخ پایان نباید مقداردهی شود.")
  checkThat (¬ (newHasDeadline = true ∧ ∃ d ∈ newDeadline, d ≤ now))
    (.invalidData "تاریخ پایان باید در آینده باشد.")
  checkThat (¬ (locked = true ∧ row.hasDeadline = true ∧
      ∃ new ∈ newDeadline, ∃ old ∈ row.deadline, new < old))
    (.fieldLocked "پس از ثبت پرداخت موفق، مهلت پایان فقط می‌تواند به جلو منتقل شود.")
  checkThat (¬ (locked = true ∧ row.hasDeadline = true ∧ newHasDeadline = false))
    (.fieldLocked "پس از ثبت پرداخت موفق، نمی‌توان مهلت زمانی را غیرفعال کرد.")

/-- The financial check is made when an amount or a number of shares is given;
what is not given is taken from the campaign. -/
def checkFinancialEdit (campaign : CampaignRecord) (fs : CampaignFields) :
    Except CampaignEditError Unit :=
  if fs.has "total_amount" ∨ fs.has "total_shares" then
    validateCampaignFinancialFields (fs.totalAmount?.getD campaign.totalAmount)
      (fs.totalShares?.getD campaign.row.totalShares)
  else .ok ()

def checkDeadlineEdit (row : Campaign) (locked : Bool) (fs : CampaignFields) (now : ℕ) :
    Except CampaignEditError Unit :=
  if deadlineFields.any fs.has then
    checkDeadlineFields row locked (fs.hasDeadline?.getD row.hasDeadline)
      (fs.deadline?.getD row.deadline) now
  else .ok ()

/-! ## Writing -/

/-- `setattr(campaign, field_name, value)`. -/
def CampaignRecord.setattr (campaign : CampaignRecord) : CampaignField → CampaignRecord
  | .isVisible value => { campaign with row := { campaign.row with isVisible := value } }
  | .totalAmount value => { campaign with totalAmount := value.toNat }
  | .totalShares value => { campaign with row := { campaign.row with totalShares := value.toNat } }
  | .hasDeadline value => { campaign with row := { campaign.row with hasDeadline := value } }
  | .deadline value => { campaign with row := { campaign.row with deadline := value } }
  | .title | .description | .coverImage | .sponsor => campaign

/-- The price `Campaign.save` computes. -/
def CampaignRecord.withPrice (campaign : CampaignRecord) : CampaignRecord :=
  if campaign.row.totalShares ≠ 0 ∧ campaign.totalAmount ≠ 0 then
    { campaign with
      row := { campaign.row with sharePrice := campaign.totalAmount / campaign.row.totalShares } }
  else campaign

/-- `Campaign.save` with the constraints of the table.  `columnsOk` is false when
the table refuses the value of a column that is left out. -/
def saveCampaign (campaign : CampaignRecord) (columnsOk : Bool) :
    Except CampaignEditError CampaignRecord := do
  let priced := campaign.withPrice
  checkThat (columnsOk = true) .dataError
  checkThat (priced.totalAmount ≤ 9223372036854775807) .dataError
  checkThat (1000 ≤ priced.totalAmount ∧ 1 ≤ priced.row.totalShares ∧ 1 ≤ priced.row.sharePrice ∧
      priced.row.purchasedShares ≤ priced.row.totalShares ∧
      (priced.row.hasDeadline = priced.row.deadline.isSome))
    .integrityError
  return priced

/-- **`update_campaign`.** `campaign` is the stored row as the caller has just
read it, `ps` the participations, `c` its key.  The result is the row as saved. -/
def updateCampaign (ps : List Participation) (c : ℕ) (campaign : CampaignRecord)
    (fs : CampaignFields) (now : ℕ) (columnsOk : Bool) :
    Except CampaignEditError CampaignRecord := do
  let locked := hasPaidParticipations ps c
  checkFieldLocks campaign.row locked fs.fields
  checkFinancialEdit campaign fs
  checkDeadlineEdit campaign.row locked fs now
  if fs.fields = [] then return campaign
  saveCampaign (fs.fields.foldl CampaignRecord.setattr campaign) columnsOk

/-! ## What an accepted edit has checked -/

theorem checkFieldLock_ok_iff {row : Campaign} {locked : Bool} {f : CampaignField} :
    checkFieldLock row locked f = .ok () ↔
      f.name ∈ alwaysEditableFields ∨
        row.isTerminal = false ∧ ¬ (locked = true ∧ f.name ∈ lockedAfterFirstPayment) := by
  unfold checkFieldLock
  by_cases hfree : f.name ∈ alwaysEditableFields
  · simp [hfree]
  · rw [if_neg hfree, checkThat_bind_ok_iff, checkThat_ok_iff]
    simp only [hfree, false_or]

theorem checkFieldLocks_ok_iff {row : Campaign} {locked : Bool} {fs : List CampaignField} :
    checkFieldLocks row locked fs = .ok () ↔
      ∀ f ∈ fs, checkFieldLock row locked f = .ok () := by
  induction fs with
  | nil => simp [checkFieldLocks]
  | cons f fs ih =>
      rw [checkFieldLocks, except_bind_ok_iff, List.forall_mem_cons, ← ih]
      constructor
      · rintro ⟨_, hf, hrest⟩
        exact ⟨hf, hrest⟩
      · rintro ⟨hf, hrest⟩
        exact ⟨(), hf, hrest⟩

theorem saveCampaign_ok_iff {campaign saved : CampaignRecord} {columnsOk : Bool} :
    saveCampaign campaign columnsOk = .ok saved ↔
      columnsOk = true ∧ saved.totalAmount ≤ 9223372036854775807 ∧
        (1000 ≤ saved.totalAmount ∧ 1 ≤ saved.row.totalShares ∧ 1 ≤ saved.row.sharePrice ∧
          saved.row.purchasedShares ≤ saved.row.totalShares ∧
          saved.row.hasDeadline = saved.row.deadline.isSome) ∧
        saved = campaign.withPrice := by
  simp only [saveCampaign, checkThat_bind_ok_iff]
  constructor
  · rintro ⟨hcolumns, hbig, hchecks, hsaved⟩
    obtain rfl : campaign.withPrice = saved := Except.ok.inj hsaved
    exact ⟨hcolumns, hbig, hchecks, rfl⟩
  · rintro ⟨hcolumns, hbig, hchecks, rfl⟩
    exact ⟨hcolumns, hbig, hchecks, rfl⟩

section Update

variable {ps : List Participation} {c : ℕ} {campaign saved : CampaignRecord}
  {fs : CampaignFields} {now : ℕ} {columnsOk : Bool}

/-- An accepted edit passed every check; without a field nothing is saved. -/
theorem updateCampaign_ok_iff :
    updateCampaign ps c campaign fs now columnsOk = .ok saved ↔
      checkFieldLocks campaign.row (hasPaidParticipations ps c) fs.fields = .ok () ∧
        checkFinancialEdit campaign fs = .ok () ∧
        checkDeadlineEdit campaign.row (hasPaidParticipations ps c) fs now = .ok () ∧
        if fs.fields = [] then saved = campaign
        else saveCampaign (fs.fields.foldl CampaignRecord.setattr campaign) columnsOk =
          .ok saved := by
  simp only [updateCampaign, except_bind_ok_iff]
  by_cases hnone : fs.fields = []
  · simp only [if_pos hnone, eq_comm (a := saved)]
    constructor
    · rintro ⟨_, hlocks, _, hfin, _, hdead, hsaved⟩
      exact ⟨hlocks, hfin, hdead, Except.ok.inj hsaved⟩
    · rintro ⟨hlocks, hfin, hdead, rfl⟩
      exact ⟨(), hlocks, (), hfin, (), hdead, rfl⟩
  · simp only [if_neg hnone]
    constructor
    · rintro ⟨_, hlocks, _, hfin, _, hdead, hsaved⟩
      exact ⟨hlocks, hfin, hdead, hsaved⟩
    · rintro ⟨hlocks, hfin, hdead, hsaved⟩
      exact ⟨(), hlocks, (), hfin, (), hdead, hsaved⟩

end Update

/-! ## The price of an edited campaign -/

/-- What the table and `Campaign.save` keep true of a stored campaign. -/
structure CampaignRecord.Priced (campaign : CampaignRecord) : Prop where
  amount_min : 1000 ≤ campaign.totalAmount
  shares_min : 1 ≤ campaign.row.totalShares
  price_eq : campaign.row.sharePrice = campaign.totalAmount / campaign.row.totalShares

namespace CampaignRecord

@[simp] theorem withPrice_totalAmount (campaign : CampaignRecord) :
    campaign.withPrice.totalAmount = campaign.totalAmount := by
  unfold withPrice
  split_ifs <;> rfl

@[simp] theorem withPrice_totalShares (campaign : CampaignRecord) :
    campaign.withPrice.row.totalShares = campaign.row.totalShares := by
  unfold withPrice
  split_ifs <;> rfl

theorem withPrice_sharePrice {campaign : CampaignRecord} (hamount : 1000 ≤ campaign.totalAmount)
    (hshares : 1 ≤ campaign.row.totalShares) :
    campaign.withPrice.row.sharePrice = campaign.totalAmount / campaign.row.totalShares := by
  have hboth : campaign.row.totalShares ≠ 0 ∧ campaign.totalAmount ≠ 0 := by omega
  rw [withPrice, if_pos hboth]

/-- Only the two financial fields move what the price is computed from. -/
theorem setattr_terms (campaign : CampaignRecord) {f : CampaignField}
    (hf : f.name ≠ "total_amount" ∧ f.name ≠ "total_shares") :
    (campaign.setattr f).totalAmount = campaign.totalAmount ∧
      (campaign.setattr f).row.totalShares = campaign.row.totalShares := by
  cases f with
  | totalAmount value => exact absurd rfl hf.1
  | totalShares value => exact absurd rfl hf.2
  | _ => exact ⟨rfl, rfl⟩

theorem foldl_setattr_terms {fs : List CampaignField} (campaign : CampaignRecord)
    (hfs : ∀ f ∈ fs, f.name ≠ "total_amount" ∧ f.name ≠ "total_shares") :
    (fs.foldl setattr campaign).totalAmount = campaign.totalAmount ∧
      (fs.foldl setattr campaign).row.totalShares = campaign.row.totalShares := by
  induction fs generalizing campaign with
  | nil => exact ⟨rfl, rfl⟩
  | cons f fs ih =>
      obtain ⟨hamount, hshares⟩ := ih (campaign.setattr f) fun g hg => hfs g (List.mem_cons_of_mem f hg)
      obtain ⟨hamount', hshares'⟩ := campaign.setattr_terms (hfs f List.mem_cons_self)
      exact ⟨hamount.trans hamount', hshares.trans hshares'⟩

end CampaignRecord

section Update

variable {ps : List Participation} {c : ℕ} {campaign saved : CampaignRecord}
  {fs : CampaignFields} {now : ℕ} {columnsOk : Bool}

theorem updateCampaign_priced (hc : campaign.Priced)
    (h : updateCampaign ps c campaign fs now columnsOk = .ok saved) : saved.Priced := by
  obtain ⟨-, -, -, hsaved⟩ := updateCampaign_ok_iff.mp h
  split_ifs at hsaved with hnone
  · exact hsaved ▸ hc
  · obtain ⟨-, -, ⟨hamount, hshares, -⟩, rfl⟩ := saveCampaign_ok_iff.mp hsaved
    refine ⟨hamount, hshares, ?_⟩
    rw [CampaignRecord.withPrice_totalAmount] at hamount ⊢
    rw [CampaignRecord.withPrice_totalShares] at hshares ⊢
    exact CampaignRecord.withPrice_sharePrice hamount hshares

/-- **The lock.** Once a participation is PAID, no accepted edit moves the price. -/
theorem updateCampaign_locked (hc : campaign.Priced) (hpaid : hasPaidParticipations ps c = true)
    (h : updateCampaign ps c campaign fs now columnsOk = .ok saved) :
    saved.row.sharePrice = campaign.row.sharePrice := by
  obtain ⟨hlocks, -, -, hsaved⟩ := updateCampaign_ok_iff.mp h
  split_ifs at hsaved with hnone
  · rw [hsaved]
  have hterms : ∀ f ∈ fs.fields, f.name ≠ "total_amount" ∧ f.name ≠ "total_shares" := by
    intro f hf
    rcases checkFieldLock_ok_iff.mp (checkFieldLocks_ok_iff.mp hlocks f hf) with hfree | ⟨-, hlock⟩
    · constructor <;> rintro heq <;> simp [heq, alwaysEditableFields] at hfree
    · constructor <;> rintro heq <;> exact hlock ⟨hpaid, by simp [heq, lockedAfterFirstPayment]⟩
  obtain ⟨-, -, -, rfl⟩ := saveCampaign_ok_iff.mp hsaved
  obtain ⟨hamount, hshares⟩ := CampaignRecord.foldl_setattr_terms campaign hterms
  have hprice := CampaignRecord.withPrice_sharePrice (hamount ▸ hc.amount_min)
    (hshares ▸ hc.shares_min)
  rw [hprice, hamount, hshares, hc.price_eq]

end Update

end SetadJang.Madadkar
