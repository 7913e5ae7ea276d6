import SetadJang.Framework.Repeats
import SetadJang.Framework.Rows
import SetadJang.Madadkar.Model
import SetadJang.Madadkar.SettlementReport

/-!
# Reconciliation with the provider

`reconcile_provider_payments` of `apps/madadkar/services.py`: the rows of a settlement report are
compared with the payments of the provider, one item for each row.  A row finds its payment by the
authority or else by the reference; a row whose reference was met before is a duplicate, whatever
payment it names.

The call is one transaction: an item that the table cannot store loses the whole batch.
-/

namespace SetadJang.Madadkar

open SetadJang.Framework

inductive ReconciliationItemStatus where
  | matched
  | missingInternal
  | amountMismatch
  | statusMismatch
  | duplicateProviderRef
deriving DecidableEq, Repr

inductive ReconciliationStatus where
  | draft
  | completed
  | failed
deriving DecidableEq, Repr

/-- What an item can be refused with: by `json.dumps`, by the database driver, by the table. -/
inductive ReconciliationError where
  | typeError
  | valueError
  | dataError
deriving DecidableEq, Repr

structure PaymentReconciliationItem where
  payment : Option ℕ
  authority : String
  providerRefId : String
  providerAmount : ℤ
  providerStatus : String
  internalAmount : Option ℕ
  internalStatus : Option PaymentStatus
  status : ReconciliationItemStatus
  reason : String
  rawPayload : SettlementRow
deriving DecidableEq

structure PaymentReconciliationBatch where
  providerName : String
  sourceName : String
  status : ReconciliationStatus
  totalRows : ℕ
  matchedCount : ℕ
  mismatchCount : ℕ
  missingInternalCount : ℕ
  duplicateProviderRefCount : ℕ
  summary : List (String × ℕ)
  items : List PaymentReconciliationItem
deriving DecidableEq

/-! ## One row -/

/-- `_find_payment_for_reconciliation`.  The payments are listed as `Meta.ordering` lists them, so
`first` is the first of them. -/
def findPaymentForReconciliation (payments : List Payment) (providerName authority refId : String) :
    Option ℕ :=
  let byAuthority :=
    if authority ≠ "" then
      payments.findIdx? fun pay => pay.gatewayName == providerName && pay.authority == authority
    else none
  match byAuthority with
  | some k => some k
  | none =>
      if refId ≠ "" then
        payments.findIdx? fun pay => pay.gatewayName == providerName && pay.refId == refId
      else none

/-- The codes of a provider that mean success. -/
def providerSuccessCodes : List String := ["success", "paid", "verified", "100", "101"]

/-- `_classify_reconciliation_row`. -/
def classifyReconciliationRow (payment : Option Payment) (providerAmount : ℤ)
    (providerStatus : String) (duplicateRef : Bool) : ReconciliationItemStatus × String :=
  if duplicateRef = true then
    (.duplicateProviderRef, "شناسه مرجع در گزارش درگاه تکراری است.")
  else
    match payment with
    | none => (.missingInternal, "پرداخت متناظر در سیستم داخلی پیدا نشد.")
    | some pay =>
        if providerAmount ≠ 0 ∧ providerAmount ≠ pay.amount then
          (.amountMismatch, "مبلغ گزارش درگاه با مبلغ داخلی تطابق ندارد.")
        else if providerStatus ∈ providerSuccessCodes ∧ pay.status ≠ .success then
          (.statusMismatch, "درگاه پرداخت را موفق می‌داند اما وضعیت داخلی موفق نیست.")
        else if providerStatus ∉ providerSuccessCodes ∧ pay.status = .success then
          (.statusMismatch, "وضعیت داخلی موفق است اما گزارش درگاه موفق نیست.")
        else (.matched, "تطبیق موفق.")

/-- The item of a row. -/
def reconcileRow (payments : List Payment) (providerName : String) (row : SettlementRow)
    (duplicateRef : Bool) : PaymentReconciliationItem :=
  let authority := pyStrip row.authority
  let refId := pyStrip row.refId
  let providerStatus := pyLower (pyStrip row.status)
  let key := findPaymentForReconciliation payments providerName authority refId
  let payment := key.bind fun k => payments[k]?
  let verdict := classifyReconciliationRow payment row.amount providerStatus duplicateRef
  { payment := key
    authority := authority
    providerRefId := refId
    providerAmount := row.amount
    providerStatus := providerStatus
    internalAmount := payment.map Payment.amount
    internalStatus := payment.map Payment.status
    status := verdict.1
    reason := verdict.2
    rawPayload := row }

/-! ## What can be stored -/

/-- No text of the database holds the character NUL. -/
def noNul (s : String) : Bool := !s.toList.contains (Char.ofNat 0)

/-- `json.dumps` knows no dates. -/
def RawValue.serializable : RawValue → Bool
  | .cell (.date _) => false
  | _ => true

/-- What the JSON column stores of a serialised value: no NUL and no `Infinity`. -/
def RawValue.inJsonColumn : RawValue → Bool
  | .cell (.text value) => noNul value
  | .cell (.float value) =>
      match value.value with
      | .finite _ _ => true
      | _ => false
  | .cell _ => true
  | .rest values => values.all noNul

/-- The row as the JSON column stores it. -/
def SettlementRow.inJsonColumn (row : SettlementRow) : Bool :=
  noNul row.authority && noNul row.refId && noNul row.status &&
    row.rawPayload.all fun entry => noNul entry.1 && entry.2.inJsonColumn

/-- `PaymentReconciliationItem.objects.create`. -/
def PaymentReconciliationItem.create (item : PaymentReconciliationItem) :
    Except ReconciliationError Unit := do
  checkThat (∀ entry ∈ item.rawPayload.rawPayload, entry.2.serializable = true) .typeError
  checkThat (noNul item.authority = true ∧ noNul item.providerRefId = true ∧
    noNul item.providerStatus = true) .valueError
  checkThat (item.authority.length ≤ 100 ∧ item.providerRefId.length ≤ 100 ∧
    item.providerStatus.length ≤ 50) .dataError
  checkThat (0 ≤ item.providerAmount ∧ item.providerAmount ≤ 9223372036854775807) .dataError
  checkThat (item.rawPayload.inJsonColumn = true) .dataError

/-! ## The batch -/

/-- The loop of `reconcile_provider_payments`. -/
def reconcileRows (payments : List Payment) (providerName : String) :
    List String → List SettlementRow → Except ReconciliationError (List PaymentReconciliationItem)
  | _, [] => .ok []
  | seenRefs, row :: rows => do
      let refId := pyStrip row.refId
      let item := reconcileRow payments providerName row
        (decide (refId ≠ "") && decide (refId ∈ seenRefs))
      item.create
      let rest ← reconcileRows payments providerName
        (if refId ≠ "" then refId :: seenRefs else seenRefs) rows
      return item :: rest

/-- `_finalize_reconciliation_batch`. -/
def PaymentReconciliationBatch.finalize (batch : PaymentReconciliationBatch) :
    PaymentReconciliationBatch :=
  let count (status : ReconciliationItemStatus) :=
    batch.items.countP fun item => item.status == status
  let mismatches := batch.items.countP fun item => item.status != .matched
  { batch with
    matchedCount := count .matched
    missingInternalCount := count .missingInternal
    duplicateProviderRefCount := count .duplicateProviderRef
    mismatchCount := mismatches
    status := .completed
    summary := [("matched", count .matched), ("mismatches", mismatches),
      ("missing_internal", count .missingInternal),
      ("duplicate_provider_ref", count .duplicateProviderRef)] }

/-- The names of a batch fit their columns. -/
def namesFit (providerName sourceName : String) : Bool :=
  noNul (pyLower (pyStrip providerName)) && noNul (pyStrip sourceName) &&
    decide ((pyLower (pyStrip providerName)).length ≤ 50) &&
    decide ((pyStrip sourceName).length ≤ 180)

/-- `reconcile_provider_payments`. -/
def reconcileProviderPayments (payments : List Payment) (providerName : String)
    (rows : List SettlementRow) (sourceName : String) :
    Except ReconciliationError PaymentReconciliationBatch := do
  checkThat (namesFit providerName sourceName = true ∧ rows.length ≤ 2147483647) .dataError
  let items ← reconcileRows payments (pyLower (pyStrip providerName)) [] rows
  let batch : PaymentReconciliationBatch :=
    { providerName := pyLower (pyStrip providerName)
      sourceName := pyStrip sourceName
      status := .draft
      totalRows := rows.length
      matchedCount := 0
      mismatchCount := 0
      missingInternalCount := 0
      duplicateProviderRefCount := 0
      summary := []
      items := items }
  return batch.finalize

/-! ## The loop as a map -/

/-- The key a row is remembered by. -/
def SettlementRow.refKey (row : SettlementRow) : Option String :=
  if pyStrip row.refId ≠ "" then some (pyStrip row.refId) else none

/-- The row can be stored as an item. -/
structure SettlementRow.Storable (row : SettlementRow) : Prop where
  serializable : ∀ entry ∈ row.rawPayload, entry.2.serializable = true
  noNul : noNul (pyStrip row.authority) = true ∧ noNul (pyStrip row.refId) = true ∧
    noNul (pyLower (pyStrip row.status)) = true
  widths : (pyStrip row.authority).length ≤ 100 ∧ (pyStrip row.refId).length ≤ 100 ∧
    (pyLower (pyStrip row.status)).length ≤ 50
  amount : 0 ≤ row.amount ∧ row.amount ≤ 9223372036854775807
  json : row.inJsonColumn = true

theorem create_ok_iff {payments : List Payment} {providerName : String} {row : SettlementRow}
    {duplicateRef : Bool} :
    (reconcileRow payments providerName row duplicateRef).create = .ok () ↔ row.Storable := by
  simp only [PaymentReconciliationItem.create, checkThat_bind_ok_iff, checkThat_ok_iff]
  constructor
  · rintro ⟨hserial, hnul, hwidths, hamount, hjson⟩
    exact ⟨hserial, hnul, hwidths, hamount, hjson⟩
  · rintro ⟨hserial, hnul, hwidths, hamount, hjson⟩
    exact ⟨hserial, hnul, hwidths, hamount, hjson⟩

/-- The items of a batch: each row with its mark. -/
def itemsOf (payments : List Payment) (providerName : String) (seenRefs : List String)
    (rows : List SettlementRow) : List PaymentReconciliationItem :=
  List.zipWith (reconcileRow payments providerName) rows
    (markRepeats SettlementRow.refKey seenRefs rows)

theorem itemsOf_cons (payments : List Payment) (providerName : String) (seenRefs : List String)
    (row : SettlementRow) (rows : List SettlementRow) :
    itemsOf payments providerName seenRefs (row :: rows) =
      reconcileRow payments providerName row
          (decide (pyStrip row.refId ≠ "") && decide (pyStrip row.refId ∈ seenRefs)) ::
        itemsOf payments providerName
          (if pyStrip row.refId ≠ "" then pyStrip row.refId :: seenRefs else seenRefs) rows := by
  by_cases href : pyStrip row.refId = ""
  · have hkey : row.refKey = none := by simp [SettlementRow.refKey, href]
    rw [itemsOf, markRepeats_cons_none hkey]
    simp [href, itemsOf]
  · have hkey : row.refKey = some (pyStrip row.refId) := by simp [SettlementRow.refKey, href]
    rw [itemsOf, markRepeats_cons_some hkey]
    simp [href, itemsOf]

/-- **The loop.** It gets through exactly when every row can be stored. -/
theorem reconcileRows_ok_iff {payments : List Payment} {providerName : String}
    {seenRefs : List String} {rows : List SettlementRow} {items : List PaymentReconciliationItem} :
    reconcileRows payments providerName seenRefs rows = .ok items ↔
      (∀ row ∈ rows, row.Storable) ∧ items = itemsOf payments providerName seenRefs rows := by
  induction rows generalizing seenRefs items with
  | nil =>
      constructor
      · intro h
        exact ⟨nofun, (Except.ok.inj h).symm⟩
      · rintro ⟨-, rfl⟩
        rfl
  | cons row rows ih =>
      simp only [reconcileRows, except_bind_ok_iff, ih, List.forall_mem_cons, itemsOf_cons]
      constructor
      -- the first item that cannot be stored ends the loop
      · rintro ⟨_, hrow, rest, ⟨hrows, rfl⟩, hitems⟩
        obtain rfl := Except.ok.inj hitems
        exact ⟨⟨create_ok_iff.mp hrow, hrows⟩, rfl⟩
      · rintro ⟨⟨hrow, hrows⟩, rfl⟩
        exact ⟨(), create_ok_iff.mpr hrow, _, ⟨hrows, rfl⟩, rfl⟩

/-! ## Batches -/

section Batch

variable {payments : List Payment} {providerName sourceName : String} {rows : List SettlementRow}
  {batch : PaymentReconciliationBatch}

/-- A batch is stored exactly when its names fit and every row can be stored. -/
theorem reconcileProviderPayments_ok_iff :
    reconcileProviderPayments payments providerName rows sourceName = .ok batch ↔
      (namesFit providerName sourceName = true ∧ rows.length ≤ 2147483647) ∧
        (∀ row ∈ rows, row.Storable) ∧
        batch = PaymentReconciliationBatch.finalize
          { providerName := pyLower (pyStrip providerName)
            sourceName := pyStrip sourceName
            status := .draft
            totalRows := rows.length
            matchedCount := 0
            mismatchCount := 0
            missingInternalCount := 0
            duplicateProviderRefCount := 0
            summary := []
            items := itemsOf payments (pyLower (pyStrip providerName)) [] rows } := by
  unfold reconcileProviderPayments
  rw [checkThat_bind_ok_iff, except_bind_ok_iff]
  simp only [reconcileRows_ok_iff]
  constructor
  · rintro ⟨hnames, items, ⟨hrows, rfl⟩, hbatch⟩
    exact ⟨hnames, hrows, (Except.ok.inj hbatch).symm⟩
  · rintro ⟨hnames, hrows, rfl⟩
    exact ⟨hnames, _, ⟨hrows, rfl⟩, rfl⟩

theorem items_of_batch
    (h : reconcileProviderPayments payments providerName rows sourceName = .ok batch) :
    batch.items = itemsOf payments (pyLower (pyStrip providerName)) [] rows := by
  obtain ⟨-, -, rfl⟩ := reconcileProviderPayments_ok_iff.mp h
  rfl

/-- An item and its row. -/
theorem getElem?_itemsOf {name : String} {i : ℕ} {item : PaymentReconciliationItem} :
    (itemsOf payments name [] rows)[i]? = some item ↔
      ∃ row duplicateRef, rows[i]? = some row ∧
        (markRepeats SettlementRow.refKey [] rows)[i]? = some duplicateRef ∧
        item = reconcileRow payments name row duplicateRef := by
  rw [itemsOf, List.getElem?_zipWith_eq_some]
  constructor
  · rintro ⟨row, duplicateRef, hrow, hmark, rfl⟩
    exact ⟨row, duplicateRef, hrow, hmark, rfl⟩
  · rintro ⟨row, duplicateRef, hrow, hmark, rfl⟩
    exact ⟨row, duplicateRef, hrow, hmark, rfl⟩

theorem rawPayload_itemsOf (payments : List Payment) (name : String) (seenRefs : List String)
    (rows : List SettlementRow) :
    (itemsOf payments name seenRefs rows).map (fun item => item.rawPayload) = rows := by
  induction rows generalizing seenRefs with
  | nil => rfl
  | cons row rows ih =>
      rw [itemsOf_cons, List.map_cons, ih]
      rfl

/-! ## Classification -/

/-- The row names the payment and agrees with it. -/
def SettlementRow.Settles (payments : List Payment) (name : String) (row : SettlementRow) (k : ℕ) :
    Prop :=
  findPaymentForReconciliation payments name (pyStrip row.authority) (pyStrip row.refId) = some k ∧
    ∃ pay ∈ payments[k]?, (row.amount ≠ 0 → row.amount = pay.amount) ∧
      (pay.status = .success ↔ pyLower (pyStrip row.status) ∈ providerSuccessCodes)

theorem classify_duplicate_iff {payment : Option Payment} {amount : ℤ} {status : String}
    {duplicateRef : Bool} :
    (classifyReconciliationRow payment amount status duplicateRef).1 = .duplicateProviderRef ↔
      duplicateRef = true := by
  unfold classifyReconciliationRow
  cases duplicateRef with
  | true => simp
  | false =>
      cases payment with
      | none => simp
      | some pay =>
          simp only [Bool.false_eq_true, if_false]
          split_ifs <;> simp

theorem classify_matched_iff {payment : Option Payment} {amount : ℤ} {status : String}
    {duplicateRef : Bool} :
    (classifyReconciliationRow payment amount status duplicateRef).1 = .matched ↔
      duplicateRef = false ∧ ∃ pay ∈ payment, (amount ≠ 0 → amount = pay.amount) ∧
        (pay.status = .success ↔ status ∈ providerSuccessCodes) := by
  unfold classifyReconciliationRow
  cases duplicateRef with
  | true => simp
  | false =>
      cases payment with
      | none => simp
      | some pay =>
          simp only [Bool.false_eq_true, if_false, Option.mem_some_iff, exists_eq_left', true_and]
          split_ifs with hamount hfailed hunpaid
          · simp only [false_iff, not_and]
            exact fun h => absurd (h hamount.1) hamount.2
          · simp only [false_iff, not_and]
            exact fun _ h => hfailed.2 (h.mpr hfailed.1)
          · simp only [false_iff, not_and]
            exact fun _ h => hunpaid.1 (h.mp hunpaid.2)
          · simp only [true_iff]
            refine ⟨fun hne => by_contra fun h => hamount ⟨hne, h⟩, ?_⟩
            constructor
            · exact fun h => by_contra fun hcode => hunpaid ⟨hcode, h⟩
            · exact fun hcode => by_contra fun h => hfailed ⟨hcode, h⟩

/-- A MATCHED item: its row is no duplicate, names a payment and agrees with it. -/
theorem reconcileRow_matched_iff {name : String} {row : SettlementRow} {duplicateRef : Bool} :
    (reconcileRow payments name row duplicateRef).status = .matched ↔
      duplicateRef = false ∧ ∃ k, row.Settles payments name k ∧
        (reconcileRow payments name row duplicateRef).payment = some k := by
  unfold reconcileRow SettlementRow.Settles
  simp only [classify_matched_iff, Option.mem_def, Option.bind_eq_some_iff]
  constructor
  · rintro ⟨hfirst, pay, ⟨k, hk, hpay⟩, hagree⟩
    exact ⟨hfirst, k, ⟨hk, pay, hpay, hagree⟩, hk⟩
  · rintro ⟨hfirst, k, ⟨hk, pay, hpay, hagree⟩, -⟩
    exact ⟨hfirst, pay, ⟨k, hk, hpay⟩, hagree⟩

/-- A payment that is found is one of the provider. -/
theorem findPayment_gateway {name authority refId : String} {k : ℕ} {pay : Payment}
    (h : findPaymentForReconciliation payments name authority refId = some k)
    (hpay : payments[k]? = some pay) : pay.gatewayName = name := by
  have hfound : ∀ {p : Payment → Bool},
      payments.findIdx? (fun pay => pay.gatewayName == name && p pay) = some k →
        pay.gatewayName = name := by
    intro p hk
    obtain ⟨hlt, hp, -⟩ := List.findIdx?_eq_some_iff_getElem.mp hk
    rw [List.getElem?_eq_getElem hlt, Option.some.injEq] at hpay
    rw [hpay, Bool.and_eq_true, beq_iff_eq] at hp
    exact hp.1
  simp only [findPaymentForReconciliation] at h
  split at h
  · next k' hauthority =>
      obtain rfl := Option.some.inj h
      split_ifs at hauthority
      exact hfound hauthority
  · split_ifs at h
    exact hfound h

/-! ## At most one match for each payment -/

/-- A row that settles a payment which another row settles too is a duplicate by its reference, or
the other one is. -/
def SettledOnce (payments : List Payment) (name : String) (rows : List SettlementRow) : Prop :=
  ∀ (i j : ℕ) (a b : SettlementRow) (k : ℕ), i < j → rows[i]? = some a → rows[j]? = some b →
    a.Settles payments name k → b.Settles payments name k →
      RepeatsEarlier SettlementRow.refKey rows i ∨ RepeatsEarlier SettlementRow.refKey rows j

/-- The matched items of a batch are those of the rows that settle a payment first. -/
theorem matched_item_iff {name : String} {i k : ℕ} :
    (∃ item, (itemsOf payments name [] rows)[i]? = some item ∧ item.status = .matched ∧
        item.payment = some k) ↔
      ∃ row, rows[i]? = some row ∧ row.Settles payments name k ∧
        ¬ RepeatsEarlier SettlementRow.refKey rows i := by
  have hmark : ∀ {row}, rows[i]? = some row → ∃ duplicateRef,
      (markRepeats SettlementRow.refKey [] rows)[i]? = some duplicateRef ∧
        (duplicateRef = true ↔ RepeatsEarlier SettlementRow.refKey rows i) := by
    intro row hrow
    have hlt : i < (markRepeats SettlementRow.refKey [] rows).length := by
      rw [length_markRepeats]
      exact (List.getElem?_eq_some_iff.mp hrow).1
    refine ⟨_, List.getElem?_eq_getElem hlt, ?_⟩
    rw [← markRepeats_eq_true_iff, List.getElem?_eq_getElem hlt, Option.some.injEq]
  constructor
  · rintro ⟨item, hitem, hstatus, hpayment⟩
    obtain ⟨row, duplicateRef, hrow, hdup, rfl⟩ := getElem?_itemsOf.mp hitem
    obtain ⟨mark, hmark', hiff⟩ := hmark hrow
    obtain rfl := Option.some.inj (hdup.symm.trans hmark')
    obtain ⟨hfirst, k', hsettles, hpayment'⟩ := reconcileRow_matched_iff.mp hstatus
    obtain rfl := Option.some.inj (hpayment.symm.trans hpayment')
    refine ⟨row, hrow, hsettles, fun hrepeats => ?_⟩
    rw [hiff.mpr hrepeats] at hfirst
    cases hfirst
  · rintro ⟨row, hrow, hsettles, hfirst⟩
    obtain ⟨mark, hmark', hiff⟩ := hmark hrow
    obtain rfl : mark = false := by simpa using fun h => hfirst (hiff.mp h)
    refine ⟨_, getElem?_itemsOf.mpr ⟨row, false, hrow, hmark', rfl⟩, ?_, hsettles.1⟩
    exact reconcileRow_matched_iff.mpr ⟨rfl, k, hsettles, hsettles.1⟩

theorem payment_of_matched {name : String} {i : ℕ} {item : PaymentReconciliationItem}
    (hitem : (itemsOf payments name [] rows)[i]? = some item) (hstatus : item.status = .matched) :
    ∃ k, item.payment = some k := by
  obtain ⟨row, duplicateRef, -, -, rfl⟩ := getElem?_itemsOf.mp hitem
  obtain ⟨-, k, -, hk⟩ := reconcileRow_matched_iff.mp hstatus
  exact ⟨k, hk⟩

/-- **Double settlements.** Each payment has at most one MATCHED item exactly when of two rows that
settle one payment at least one repeats a reference. -/
theorem one_match_per_payment_iff
    (h : reconcileProviderPayments payments providerName rows sourceName = .ok batch) :
    OnePer (fun item => item.status = .matched) (fun item => item.payment) batch.items ↔
      SettledOnce payments (pyLower (pyStrip providerName)) rows := by
  rw [items_of_batch h]
  constructor
  · intro hone i j a b k hlt ha hb hsa hsb
    by_contra hfirst
    rw [not_or] at hfirst
    obtain ⟨x, hx, hxs, hxk⟩ := matched_item_iff.mpr ⟨a, ha, hsa, hfirst.1⟩
    obtain ⟨y, hy, hys, hyk⟩ := matched_item_iff.mpr ⟨b, hb, hsb, hfirst.2⟩
    have heq := hone i j x y hx hy hxs hys (hxk.trans hyk.symm)
    omega
  · intro honce i j x y hx hy hxs hys hsame
    obtain ⟨k, hxk⟩ := payment_of_matched hx hxs
    have hyk : y.payment = some k := hsame.symm.trans hxk
    obtain ⟨a, ha, hsa, hfa⟩ := matched_item_iff.mp ⟨x, hx, hxs, hxk⟩
    obtain ⟨b, hb, hsb, hfb⟩ := matched_item_iff.mp ⟨y, hy, hys, hyk⟩
    -- the condition speaks of the earlier row first
    rcases Nat.lt_trichotomy i j with hlt | heq | hgt
    · rcases honce i j a b k hlt ha hb hsa hsb with hrepeats | hrepeats
      · exact absurd hrepeats hfa
      · exact absurd hrepeats hfb
    · exact heq
    · rcases honce j i b a k hgt hb ha hsb hsa with hrepeats | hrepeats
      · exact absurd hrepeats hfb
      · exact absurd hrepeats hfa

/-- A settled payment of the provider. -/
def settledPayment : Payment where
  participation := 0
  user := 1
  amount := 5000
  gatewayName := "zarinpal"
  authority := "A1"
  refId := "R1"
  gatewayStatus := "100"
  status := .success
  paidAt := some 1
  verifiedAt := some 1

/-- A row about it. -/
def settledRow (authority refId : String) : SettlementRow := ⟨authority, refId, 5000, "paid", []⟩

theorem one_match_per_payment_iff_repeated :
    ∃ batch, reconcileProviderPayments [settledPayment] "Zarinpal"
        [settledRow "A1" "R1", settledRow "" "R1"] "" = .ok batch ∧
      (OnePer (fun item => item.status = .matched) (fun item => item.payment) batch.items ↔
        SettledOnce [settledPayment] (pyLower (pyStrip "Zarinpal"))
          [settledRow "A1" "R1", settledRow "" "R1"]) := by
  have hstatus : (reconcileProviderPayments [settledPayment] "Zarinpal"
      [settledRow "A1" "R1", settledRow "" "R1"] "").toOption.map (fun batch => batch.status) =
        some .completed := by decide +kernel
  obtain ⟨batch, hbatch, -⟩ := Option.map_eq_some_iff.mp hstatus
  have h := toOption_eq_some.mp hbatch
  exact ⟨batch, h, one_match_per_payment_iff h⟩

/-- One row names the payment by its authority, another by its reference: both are matched. -/
theorem two_matches_for_one_payment :
    ∃ batch, reconcileProviderPayments [settledPayment] "zarinpal"
        [settledRow "A1" "", settledRow "" "R1"] "" = .ok batch ∧
      ¬ OnePer (fun item => item.status = .matched) (fun item => item.payment) batch.items := by
  have hitems : (reconcileProviderPayments [settledPayment] "zarinpal"
      [settledRow "A1" "", settledRow "" "R1"] "").toOption.map
        (fun batch => batch.items.map fun item => (item.status, item.payment)) =
      some [(.matched, some 0), (.matched, some 0)] := by decide +kernel
  obtain ⟨batch, hbatch, hmap⟩ := Option.map_eq_some_iff.mp hitems
  refine ⟨batch, toOption_eq_some.mp hbatch, fun hone => ?_⟩
  obtain ⟨x, rest, hcons, hx, hrest⟩ := List.map_eq_cons_iff.mp hmap
  obtain ⟨y, hrest, hy⟩ := List.map_eq_singleton_iff.mp hrest
  obtain ⟨hxs, hxk⟩ := Prod.mk.inj hx
  obtain ⟨hys, hyk⟩ := Prod.mk.inj hy
  rw [hrest] at hcons
  rw [hcons] at hone
  have hsame := hone 0 1 x y rfl rfl hxs hys (hxk.trans hyk.symm)
  cases hsame

/-! ## Counts -/

theorem countP_duplicates (payments : List Payment) (name : String) (rows : List SettlementRow) :
    (itemsOf payments name [] rows).countP (fun item => item.status == .duplicateProviderRef) =
      (markRepeats SettlementRow.refKey [] rows).count true := by
  apply countP_zipWith_right
  · intro row duplicateRef
    rw [Bool.eq_iff_iff, beq_iff_eq, beq_iff_eq]
    exact classify_duplicate_iff
  · rw [length_markRepeats]

/-- The references of an accepted report, without the empty ones. -/
theorem refKeys_of_accepted (hrows : ∀ row ∈ rows, row.Accepted) :
    rows.filterMap SettlementRow.refKey = (rows.map fun row => row.refId).filter (· ≠ "") := by
  rw [← List.filterMap_eq_filter, List.filterMap_map]
  apply List.filterMap_congr
  intro row hrow
  have hstripped := (hrows row hrow).refId
  rw [SettlementRow.refKey, hstripped]
  by_cases href : row.refId = "" <;> simp [href, Option.guard]

/-- The counters of a batch are those of its items. -/
theorem counts_of_batch
    (h : reconcileProviderPayments payments providerName rows sourceName = .ok batch) :
    batch.totalRows = rows.length ∧
      batch.matchedCount = batch.items.countP (fun item => item.status == .matched) ∧
      batch.mismatchCount = batch.items.countP (fun item => item.status != .matched) ∧
      batch.duplicateProviderRefCount =
        batch.items.countP (fun item => item.status == .duplicateProviderRef) := by
  obtain ⟨-, -, rfl⟩ := reconcileProviderPayments_ok_iff.mp h
  exact ⟨rfl, rfl, rfl, rfl⟩

theorem countP_matched_add_mismatch (items : List PaymentReconciliationItem) :
    items.countP (fun item => item.status == .matched) +
      items.countP (fun item => item.status != .matched) = items.length := by
  rw [List.length_eq_countP_add_countP fun item => item.status == .matched]
  congr 1
  exact List.countP_congr fun item _ => by simp

/-- **Reconciliation conserves rows and matches soundly.** For the rows of an accepted report. -/
theorem reconciliation_sound {file : SettlementUpload} (hparse : parseSettlementReport file = .ok rows)
    (h : reconcileProviderPayments payments providerName rows sourceName = .ok batch) :
    batch.items.map (fun item => item.rawPayload) = rows ∧
      batch.totalRows = rows.length ∧
      batch.matchedCount + batch.mismatchCount = batch.totalRows ∧
      batch.duplicateProviderRefCount =
        ((rows.map fun row => row.refId).filter (· ≠ "")).length -
          ((rows.map fun row => row.refId).filter (· ≠ "")).dedup.length ∧
      ∀ item ∈ batch.items, item.status = .matched → ∃ k pay, item.payment = some k ∧
        payments[k]? = some pay ∧ pay.gatewayName = pyLower (pyStrip providerName) ∧
        (pay.amount : ℤ) = item.rawPayload.amount ∧
        (pay.status = .success ↔ pyLower item.rawPayload.status ∈ providerSuccessCodes) := by
  have hrows := (accepted_parse hparse).2
  have hitems := items_of_batch h
  have hraw := rawPayload_itemsOf payments (pyLower (pyStrip providerName)) [] rows
  rw [← hitems] at hraw
  obtain ⟨htotal, hmatched, hmismatch, hduplicates⟩ := counts_of_batch h
  refine ⟨hraw, htotal, ?_, ?_, ?_⟩
  · have hlength := congrArg List.length hraw
    rw [List.length_map] at hlength
    rw [hmatched, hmismatch, countP_matched_add_mismatch, htotal, hlength]
  · have hcount := count_markRepeats_nil SettlementRow.refKey rows
    rw [refKeys_of_accepted hrows, ← countP_duplicates payments (pyLower (pyStrip providerName)),
      ← hitems] at hcount
    omega
  · intro item hitem hstatus
    rw [hitems] at hitem
    obtain ⟨i, hi⟩ := List.getElem?_of_mem hitem
    obtain ⟨row, duplicateRef, hrow, -, rfl⟩ := getElem?_itemsOf.mp hi
    obtain ⟨-, k, ⟨hfound, pay, hpay, hamount, hagree⟩, hk⟩ := reconcileRow_matched_iff.mp hstatus
    have haccepted := hrows row (List.mem_of_getElem? hrow)
    rw [haccepted.status] at hagree
    have hpos := haccepted.amount_pos
    exact ⟨k, pay, hk, hpay, findPayment_gateway hfound hpay, (hamount (by omega)).symm, hagree⟩

/-- A CSV report about a settled payment: one row for it, one that repeats its reference, one blank
line and a row in which only the amount is zero. -/
def csvReport : SettlementUpload where
  filename := "settlement.CSV"
  csvCells := some (some ["Authority", " reference ", "مبلغ", "status"],
    [["A1", "R1", "5,000", "Paid"], [], ["", "R1", "5000", "paid"], ["", "", "0", ""]])
  xlsxCells := none

theorem reconciliation_sound_csv :
    ∃ rows batch, parseSettlementReport csvReport = .ok rows ∧ rows.length = 2 ∧
      reconcileProviderPayments [settledPayment] "zarinpal" rows "" = .ok batch ∧
      batch.matchedCount + batch.mismatchCount = batch.totalRows := by
  have hdecide : (parseSettlementReport csvReport).toOption.map (fun rows =>
      (rows.length,
        (reconcileProviderPayments [settledPayment] "zarinpal" rows "").toOption.isSome)) =
      some (2, true) := by decide +kernel
  obtain ⟨rows, hparsed, hpair⟩ := Option.map_eq_some_iff.mp hdecide
  obtain ⟨hlength, hsome⟩ := Prod.mk.inj hpair
  obtain ⟨batch, hbatch⟩ := Option.isSome_iff_exists.mp hsome
  have hparse := toOption_eq_some.mp hparsed
  have h := toOption_eq_some.mp hbatch
  have hsound := reconciliation_sound hparse h
  exact ⟨rows, batch, hparse, hlength, h, hsound.2.2.1⟩

/-! ## Which accepted reports can be stored -/

/-- The values of an accepted row fit the columns of an item. -/
structure SettlementRow.FitsItem (row : SettlementRow) : Prop where
  authority : row.authority.length ≤ 100
  refId : row.refId.length ≤ 100
  status : (pyLower row.status).length ≤ 50
  amount : row.amount ≤ 9223372036854775807
  serializable : ∀ entry ∈ row.rawPayload, entry.2.serializable = true
  json : row.inJsonColumn = true

theorem noNul_iff {s : String} : noNul s = true ↔ ∀ c ∈ s.toList, c.toNat ≠ 0 := by
  rw [noNul, Bool.not_eq_true', List.contains_eq_mem, decide_eq_false_iff_not]
  constructor
  · rintro h c hc hzero
    have hnul : c = Char.ofNat 0 := by rw [← Char.ofNat_toNat c, hzero]
    exact h (hnul ▸ hc)
  · intro h hmem
    exact h _ hmem rfl

theorem noNul_pyLower {s : String} (h : noNul s = true) : noNul (pyLower s) = true := by
  rw [noNul_iff] at h ⊢
  rw [pyLower, String.toList_ofList]
  exact fun c => lowerChars_ne_nul h

theorem storable_iff_fitsItem {row : SettlementRow} (haccepted : row.Accepted) :
    row.Storable ↔ row.FitsItem := by
  have hpos := haccepted.amount_pos
  constructor
  · rintro ⟨hserial, -, ⟨hauthority, hrefId, hstatus⟩, ⟨-, hamount⟩, hjson⟩
    rw [haccepted.authority] at hauthority
    rw [haccepted.refId] at hrefId
    rw [haccepted.status] at hstatus
    exact ⟨hauthority, hrefId, hstatus, hamount, hserial, hjson⟩
  · intro hfits
    have hjson := hfits.json
    simp only [SettlementRow.inJsonColumn, Bool.and_eq_true] at hjson
    obtain ⟨⟨⟨hauthority, hrefId⟩, hstatus⟩, -⟩ := hjson
    refine ⟨hfits.serializable, ?_, ?_, ⟨by omega, hfits.amount⟩, hfits.json⟩
    · rw [haccepted.authority, haccepted.refId, haccepted.status]
      exact ⟨hauthority, hrefId, noNul_pyLower hstatus⟩
    · rw [haccepted.authority, haccepted.refId, haccepted.status]
      exact ⟨hfits.authority, hfits.refId, hfits.status⟩

/-- **Accepted reports.** The rows are stored as a completed batch exactly when the names of the
batch and every row fit. -/
theorem accepted_report_reconciled_iff {file : SettlementUpload}
    (hparse : parseSettlementReport file = .ok rows) :
    (∃ batch, reconcileProviderPayments payments providerName rows sourceName = .ok batch ∧
        batch.status = .completed) ↔
      (namesFit providerName sourceName = true ∧ rows.length ≤ 2147483647) ∧
        ∀ row ∈ rows, row.FitsItem := by
  have haccepted := (accepted_parse hparse).2
  constructor
  · rintro ⟨batch, hbatch, -⟩
    obtain ⟨hnames, hrows, -⟩ := reconcileProviderPayments_ok_iff.mp hbatch
    exact ⟨hnames, fun row hrow => (storable_iff_fitsItem (haccepted row hrow)).mp (hrows row hrow)⟩
  · rintro ⟨hnames, hrows⟩
    have hstorable : ∀ row ∈ rows, row.Storable := fun row hrow =>
      (storable_iff_fitsItem (haccepted row hrow)).mpr (hrows row hrow)
    exact ⟨_, reconcileProviderPayments_ok_iff.mpr ⟨hnames, hstorable, rfl⟩, rfl⟩

theorem accepted_report_reconciled_iff_csv :
    ∃ rows, parseSettlementReport csvReport = .ok rows ∧
      ((∃ batch, reconcileProviderPayments [settledPayment] "zarinpal" rows "" = .ok batch ∧
          batch.status = .completed) ↔
        (namesFit "zarinpal" "" = true ∧ rows.length ≤ 2147483647) ∧
          ∀ row ∈ rows, row.FitsItem) := by
  have hsome : (parseSettlementReport csvReport).toOption.isSome = true := by decide +kernel
  obtain ⟨rows, hparsed⟩ := Option.isSome_iff_exists.mp hsome
  have hparse := toOption_eq_some.mp hparsed
  exact ⟨rows, hparse, accepted_report_reconciled_iff hparse⟩

/-- An XLSX report of one row, with a column the parser does not know. -/
def xlsxReport (authority : String) (amount : ℤ) (settled : Cell) : SettlementUpload where
  filename := "settlement.xlsx"
  csvCells := none
  xlsxCells := some ([.text "authority", .text "amount", .text "status", .text "settled"],
    [[.text authority, .int amount, .text "paid", settled]])

/-- What becomes of an upload: `none` where the parser refuses it. -/
def importReport (file : SettlementUpload) : Option (Except ReconciliationError ReconciliationStatus) :=
  (parseSettlementReport file).toOption.map fun rows =>
    (fun batch => batch.status) <$> reconcileProviderPayments [settledPayment] "zarinpal" rows ""

/-- A column of dates, an authority of 101 characters and an amount of 2^63 each lose the batch of
an accepted report. -/
theorem accepted_reports_lost :
    importReport (xlsxReport "A1" 5000 (.date "2026-01-02 00:00:00")) = some (.error .typeError) ∧
      importReport (xlsxReport (String.ofList (List.replicate 101 'A')) 5000 .empty) =
        some (.error .dataError) ∧
      importReport (xlsxReport "A1" 9223372036854775808 .empty) = some (.error .dataError) ∧
      importReport (xlsxReport "A1" 5000 .empty) = some (.ok .completed) := by
  refine ⟨?_, ?_, ?_, ?_⟩
  · decide +kernel
  · decide +kernel
  · decide +kernel
  · decide +kernel

end Batch

end SetadJang.Madadkar
