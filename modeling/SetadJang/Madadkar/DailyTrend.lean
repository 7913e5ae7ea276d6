import SetadJang.Framework.Buckets
import SetadJang.Framework.PyClock
import SetadJang.Madadkar.Transparency

/-!
# The daily trend

`_build_campaign_daily_trend` of `apps/madadkar/selectors.py`, which the intelligence report of a
campaign shows.  The database selects rows by their date in the project's time zone; the loops look
their buckets up by the date of the timestamp as it was read back, which is in UTC.

An event of the small hours is selected under one date and counted under the day before.  On the
first day of the window there is no such bucket.
-/

namespace SetadJang.Madadkar

open SetadJang.Framework

/-! ## Rows -/

structure TrendPayment extends Payment where
  createdAt : ℤ

structure TrendRefund extends PaymentRefund where
  completedAt : Option ℤ
  updatedAt : ℤ

structure TrendAdjustment extends CampaignFinancialAdjustment where
  appliedAt : Option ℤ
  updatedAt : ℤ

/-- `refund.completed_at or refund.updated_at`. -/
def TrendRefund.time (r : TrendRefund) : ℤ := r.completedAt.getD r.updatedAt

/-- `adjustment.applied_at or adjustment.updated_at`. -/
def TrendAdjustment.time (a : TrendAdjustment) : ℤ := a.appliedAt.getD a.updatedAt

/-- `filter(field__date__gte=start_date, field__date__lte=today)`; an empty column is not selected. -/
def filterDates {α : Type} (zone : EasternZone) (field : α → Option ℤ) (startDate today : ℤ)
    (rows : List α) : List α :=
  rows.filter fun a => (field a).any fun t =>
    decide (startDate ≤ zone.localDate t) && decide (zone.localDate t ≤ today)

/-! ## Buckets -/

structure DayBucket where
  date : List Char
  grossAmount : ℕ
  refundAmount : ℕ
  adjustmentDelta : ℤ
  netAmount : ℤ
  successfulPayments : ℕ
deriving DecidableEq

namespace DayBucket

def empty (day : ℤ) : DayBucket := ⟨isoDay day, 0, 0, 0, 0, 0⟩

def addPayment (b : DayBucket) (p : TrendPayment) : DayBucket :=
  { b with
    grossAmount := b.grossAmount + p.amount
    successfulPayments := b.successfulPayments + 1 }

def addRefund (b : DayBucket) (r : TrendRefund) : DayBucket :=
  { b with refundAmount := b.refundAmount + r.amount }

def addAdjustment (b : DayBucket) (a : TrendAdjustment) : DayBucket :=
  { b with adjustmentDelta := b.adjustmentDelta + a.signedAmount }

/-- The net amount, once all rows are counted. -/
def settle (b : DayBucket) : DayBucket :=
  { b with netAmount := max (b.grossAmount - b.refundAmount + b.adjustmentDelta) 0 }

/-- The bucket of a day with these rows. -/
def ofRows (day : ℤ) (payments : List TrendPayment) (refunds : List TrendRefund)
    (adjustments : List TrendAdjustment) : DayBucket :=
  settle
    { date := isoDay day
      grossAmount := (payments.map fun p => p.amount).sum
      refundAmount := (refunds.map fun r => r.amount).sum
      adjustmentDelta := (adjustments.map fun a => a.signedAmount).sum
      netAmount := 0
      successfulPayments := payments.length }

end DayBucket

/-- The days from `start_date` to `today`. -/
def trendDays (startDate today : ℤ) : List ℤ :=
  (List.range (today - startDate + 1).toNat).map fun offset : ℕ => startDate + offset

/-- `_build_campaign_daily_trend`. -/
def buildCampaignDailyTrend (zone : EasternZone) (successfulPayments : List TrendPayment)
    (refunds : List TrendRefund) (adjustments : List TrendAdjustment) (startDate today : ℤ) :
    Except ℤ (List DayBucket) := do
  let buckets := (trendDays startDate today).map fun day => (day, DayBucket.empty day)
  let buckets ← tally (fun p => utcDate p.createdAt) DayBucket.addPayment
    (filterDates zone (fun p => some p.createdAt) startDate today successfulPayments) buckets
  let buckets ← tally (fun r => utcDate r.time) DayBucket.addRefund
    (filterDates zone (fun r => r.completedAt) startDate today refunds) buckets
  let buckets ← tally (fun a => utcDate a.time) DayBucket.addAdjustment
    (filterDates zone (fun a => a.appliedAt) startDate today adjustments) buckets
  return buckets.map fun b => b.2.settle

/-- The trend as `get_campaign_intelligence` asks for it. -/
def intelligenceTrend (zone : EasternZone) (now days : ℤ) (participations : List Participation)
    (payments : List TrendPayment) (refunds : List TrendRefund)
    (adjustments : List TrendAdjustment) (c : ℕ) : Except ℤ (List DayBucket) :=
  let safeDays := max 1 (min days 365)
  let today := zone.localDate now
  buildCampaignDailyTrend zone
    (payments.filter fun p => p.status == .success && p.ofCampaign participations c)
    (refunds.filter fun r => r.status == .completed &&
      r.ofCampaign participations (payments.map TrendPayment.toPayment) c)
    (adjustments.filter fun a => a.campaign == c && a.status == .applied)
    (today - (safeDays - 1)) today

/-! ## What the loops leave -/

theorem mem_trendDays {startDate today day : ℤ} :
    day ∈ trendDays startDate today ↔ startDate ≤ day ∧ day ≤ today := by
  simp only [trendDays, List.mem_map, List.mem_range]
  constructor
  · rintro ⟨offset, hoffset, rfl⟩
    omega
  · rintro ⟨hstart, htoday⟩
    exact ⟨(day - startDate).toNat, by omega, by omega⟩

theorem nodup_trendDays (startDate today : ℤ) : (trendDays startDate today).Nodup := by
  apply List.Nodup.map _ List.nodup_range
  intro i j hij
  simp only at hij
  omega

theorem foldl_addPayment (b : DayBucket) (payments : List TrendPayment) :
    payments.foldl DayBucket.addPayment b =
      { b with
        grossAmount := b.grossAmount + (payments.map fun p => p.amount).sum
        successfulPayments := b.successfulPayments + payments.length } := by
  induction payments generalizing b with
  | nil => rfl
  | cons p payments ih =>
      rw [List.foldl_cons, ih]
      simp [DayBucket.addPayment, Nat.add_assoc, Nat.add_comm 1]

theorem foldl_addRefund (b : DayBucket) (refunds : List TrendRefund) :
    refunds.foldl DayBucket.addRefund b =
      { b with refundAmount := b.refundAmount + (refunds.map fun r => r.amount).sum } := by
  induction refunds generalizing b with
  | nil => rfl
  | cons r refunds ih =>
      rw [List.foldl_cons, ih]
      simp [DayBucket.addRefund, Nat.add_assoc]

theorem foldl_addAdjustment (b : DayBucket) (adjustments : List TrendAdjustment) :
    adjustments.foldl DayBucket.addAdjustment b =
      { b with
        adjustmentDelta := b.adjustmentDelta + (adjustments.map fun a => a.signedAmount).sum } := by
  induction adjustments generalizing b with
  | nil => simp
  | cons a adjustments ih =>
      rw [List.foldl_cons, ih]
      simp [DayBucket.addAdjustment, Int.add_assoc]

section Trend

variable {zone : EasternZone} {payments : List TrendPayment} {refunds : List TrendRefund}
  {adjustments : List TrendAdjustment} {startDate today : ℤ} {trend : List DayBucket}

/-- **The trend.** It is built when the UTC date of every selected row lies in the window, and each
bucket holds the rows of its UTC date. -/
theorem buildCampaignDailyTrend_ok_iff :
    buildCampaignDailyTrend zone payments refunds adjustments startDate today = .ok trend ↔
      ((∀ p ∈ filterDates zone (fun p => some p.createdAt) startDate today payments,
          utcDate p.createdAt ∈ trendDays startDate today) ∧
        (∀ r ∈ filterDates zone (fun r => r.completedAt) startDate today refunds,
          utcDate r.time ∈ trendDays startDate today) ∧
        ∀ a ∈ filterDates zone (fun a => a.appliedAt) startDate today adjustments,
          utcDate a.time ∈ trendDays startDate today) ∧
      trend = (trendDays startDate today).map fun day => DayBucket.ofRows day
        ((filterDates zone (fun p => some p.createdAt) startDate today payments).filter
          fun p => utcDate p.createdAt = day)
        ((filterDates zone (fun r => r.completedAt) startDate today refunds).filter
          fun r => utcDate r.time = day)
        ((filterDates zone (fun a => a.appliedAt) startDate today adjustments).filter
          fun a => utcDate a.time = day) := by
  have hbucket : ∀ (day : ℤ) (payments : List TrendPayment) (refunds : List TrendRefund)
      (adjustments : List TrendAdjustment),
      (adjustments.foldl DayBucket.addAdjustment (refunds.foldl DayBucket.addRefund
        (payments.foldl DayBucket.addPayment (DayBucket.empty day)))).settle =
        DayBucket.ofRows day payments refunds adjustments := by
    intro day payments refunds adjustments
    rw [foldl_addPayment, foldl_addRefund, foldl_addAdjustment]
    simp [DayBucket.empty, DayBucket.ofRows]
  unfold buildCampaignDailyTrend
  simp only [except_bind_ok_iff, tally_keys_ok_iff]
  constructor
  · rintro ⟨_, ⟨hpayments, rfl⟩, _, hsecond, _, hthird, htrend⟩
    obtain ⟨hrefunds, rfl⟩ := tally_keys_ok_iff.mp hsecond
    obtain ⟨hadjustments, rfl⟩ := tally_keys_ok_iff.mp hthird
    obtain rfl := Except.ok.inj htrend
    refine ⟨⟨hpayments, hrefunds, hadjustments⟩, ?_⟩
    rw [List.map_map]
    exact List.map_congr_left fun day _ => hbucket day _ _ _
  · rintro ⟨⟨hpayments, hrefunds, hadjustments⟩, rfl⟩
    refine ⟨_, ⟨hpayments, rfl⟩, _, tally_keys_ok_iff.mpr ⟨hrefunds, rfl⟩, _,
      tally_keys_ok_iff.mpr ⟨hadjustments, rfl⟩, ?_⟩
    show Except.ok _ = Except.ok _
    rw [List.map_map]
    congr 1
    exact List.map_congr_left fun day _ => hbucket day _ _ _

/-- The report of a campaign has a bucket for each of its days, one at least and 365 at most. -/
theorem length_intelligenceTrend {now days : ℤ} {participations : List Participation} {c : ℕ}
    (h : intelligenceTrend zone now days participations payments refunds adjustments c = .ok trend) :
    (trend.length : ℤ) = max 1 (min days 365) := by
  obtain ⟨-, rfl⟩ := buildCampaignDailyTrend_ok_iff.mp h
  rw [List.length_map, trendDays, List.length_map, List.length_range]
  omega

/-! ## Rows and days -/

/-- The rows each bucket holds after a loop, in a dictionary whose buckets are lists of rows. -/
def bucketRows {α : Type} (time : α → ℤ) (selected : List α) (startDate today : ℤ) :
    Except ℤ (List (ℤ × List α)) :=
  tally (fun a => utcDate (time a)) (fun held a => held ++ [a]) selected
    ((trendDays startDate today).map fun day => (day, []))

theorem bucketRows_ok_iff {α : Type} {time : α → ℤ} {selected : List α}
    {out : List (ℤ × List α)} :
    bucketRows time selected startDate today = .ok out ↔
      (∀ a ∈ selected, utcDate (time a) ∈ trendDays startDate today) ∧
        out = (trendDays startDate today).map fun day =>
          (day, selected.filter fun a => utcDate (time a) = day) := by
  rw [bucketRows, tally_keys_ok_iff]
  simp only [foldl_append_rows, List.nil_append]

/-- The rows such a dictionary holds for a day. -/
def rowsOn {α : Type} (buckets : List (ℤ × List α)) (day : ℤ) : List α := (buckets.lookup day).getD []

theorem rowsOn_days {α : Type} (rows : ℤ → List α) {day : ℤ} (h : day ∈ trendDays startDate today) :
    rowsOn ((trendDays startDate today).map fun day => (day, rows day)) day = rows day := by
  rw [rowsOn, lookup_keys rows h, Option.getD_some]

/-- The figures of the trend are those of the rows in its buckets. -/
theorem trend_of_bucketRows :
    buildCampaignDailyTrend zone payments refunds adjustments startDate today = .ok trend ↔
      ∃ ps rs as,
        bucketRows (fun p => p.createdAt)
          (filterDates zone (fun p => some p.createdAt) startDate today payments) startDate today =
            .ok ps ∧
        bucketRows TrendRefund.time
          (filterDates zone (fun r => r.completedAt) startDate today refunds) startDate today =
            .ok rs ∧
        bucketRows TrendAdjustment.time
          (filterDates zone (fun a => a.appliedAt) startDate today adjustments) startDate today =
            .ok as ∧
        trend = (trendDays startDate today).map fun day =>
          DayBucket.ofRows day (rowsOn ps day) (rowsOn rs day) (rowsOn as day) := by
  rw [buildCampaignDailyTrend_ok_iff]
  simp only [bucketRows_ok_iff]
  constructor
  · rintro ⟨⟨hpayments, hrefunds, hadjustments⟩, rfl⟩
    refine ⟨_, _, _, ⟨hpayments, rfl⟩, ⟨hrefunds, rfl⟩, ⟨hadjustments, rfl⟩, ?_⟩
    apply List.map_congr_left
    intro day hday
    rw [rowsOn_days _ hday, rowsOn_days _ hday, rowsOn_days _ hday]
  · rintro ⟨ps, rs, as, ⟨hpayments, rfl⟩, ⟨hrefunds, rfl⟩, ⟨hadjustments, rfl⟩, rfl⟩
    refine ⟨⟨hpayments, hrefunds, hadjustments⟩, ?_⟩
    apply List.map_congr_left
    intro day hday
    rw [rowsOn_days _ hday, rowsOn_days _ hday, rowsOn_days _ hday]

/-- Each selected row is in the bucket of its local date. -/
def PlacedByLocalDate {α : Type} (zone : EasternZone) (time : α → ℤ) (selected : List α)
    (startDate today : ℤ) : Prop :=
  bucketRows time selected startDate today = .ok ((trendDays startDate today).map fun day =>
    (day, selected.filter fun a => zone.localDate (time a) = day))

/-- The row is counted under its local date: at its time the date in Greenwich is the same. -/
theorem placedByLocalDate_iff {α : Type} {time : α → ℤ} {selected : List α}
    (hselected : ∀ a ∈ selected, zone.localDate (time a) ∈ trendDays startDate today) :
    PlacedByLocalDate zone time selected startDate today ↔
      ∀ a ∈ selected, zone.utcoffset (time a) ≤ zone.timeOfDay (time a) := by
  simp only [← zone.utcDate_eq_localDate_iff]
  rw [PlacedByLocalDate, bucketRows_ok_iff]
  constructor
  · rintro ⟨-, hbuckets⟩ a ha
    -- compare the two dictionaries at the local date of the row
    have hday := List.map_inj_left.mp hbuckets _ (hselected a ha)
    have hrows := (Prod.mk.inj hday).2
    have hmem : a ∈ selected.filter fun b => zone.localDate (time b) = zone.localDate (time a) := by
      simp [ha]
    rw [hrows] at hmem
    simpa using (List.mem_filter.mp hmem).2
  · intro hsame
    constructor
    · intro a ha
      rw [hsame a ha]
      exact hselected a ha
    · apply List.map_congr_left
      intro day _
      congr 1
      apply List.filter_congr
      intro a ha
      rw [hsame a ha]

/-- A selected row has a local date of the window. -/
theorem localDate_of_filterDates {α : Type} {field : α → Option ℤ} {time : α → ℤ} {rows : List α}
    (htime : ∀ a t, field a = some t → time a = t) :
    ∀ a ∈ filterDates zone field startDate today rows,
      zone.localDate (time a) ∈ trendDays startDate today := by
  intro a ha
  obtain ⟨t, hfield, hdates⟩ := (Option.any_eq_true _ _).mp (List.mem_filter.mp ha).2
  rw [Bool.and_eq_true, decide_eq_true_eq, decide_eq_true_eq] at hdates
  rw [htime a t hfield]
  exact mem_trendDays.mpr hdates

theorem time_of_completedAt (r : TrendRefund) (t : ℤ) (h : r.completedAt = some t) : r.time = t := by
  rw [TrendRefund.time, h, Option.getD_some]

theorem time_of_appliedAt (a : TrendAdjustment) (t : ℤ) (h : a.appliedAt = some t) : a.time = t := by
  rw [TrendAdjustment.time, h, Option.getD_some]

/-! ## When the trend is right -/

/-- What the trend is meant to be: every selected row in the bucket of its local date, and the sums
of the buckets those of the selected rows. -/
structure TrendRight (zone : EasternZone) (payments : List TrendPayment) (refunds : List TrendRefund)
    (adjustments : List TrendAdjustment) (startDate today : ℤ) (trend : List DayBucket) : Prop where
  payments_placed : PlacedByLocalDate zone (fun p => p.createdAt)
    (filterDates zone (fun p => some p.createdAt) startDate today payments) startDate today
  refunds_placed : PlacedByLocalDate zone TrendRefund.time
    (filterDates zone (fun r => r.completedAt) startDate today refunds) startDate today
  adjustments_placed : PlacedByLocalDate zone TrendAdjustment.time
    (filterDates zone (fun a => a.appliedAt) startDate today adjustments) startDate today
  gross : (trend.map fun b => b.grossAmount).sum =
    ((filterDates zone (fun p => some p.createdAt) startDate today payments).map
      fun p => p.amount).sum
  refunded : (trend.map fun b => b.refundAmount).sum =
    ((filterDates zone (fun r => r.completedAt) startDate today refunds).map fun r => r.amount).sum
  adjusted : (trend.map fun b => b.adjustmentDelta).sum =
    ((filterDates zone (fun a => a.appliedAt) startDate today adjustments).map
      fun a => a.signedAmount).sum

/-- Whatever is built, its sums are those of the selected rows. -/
theorem sums_of_trend
    (h : buildCampaignDailyTrend zone payments refunds adjustments startDate today = .ok trend) :
    (trend.map fun b => b.grossAmount).sum =
        ((filterDates zone (fun p => some p.createdAt) startDate today payments).map
          fun p => p.amount).sum ∧
      (trend.map fun b => b.refundAmount).sum =
        ((filterDates zone (fun r => r.completedAt) startDate today refunds).map
          fun r => r.amount).sum ∧
      (trend.map fun b => b.adjustmentDelta).sum =
        ((filterDates zone (fun a => a.appliedAt) startDate today adjustments).map
          fun a => a.signedAmount).sum := by
  obtain ⟨⟨hpayments, hrefunds, hadjustments⟩, rfl⟩ := buildCampaignDailyTrend_ok_iff.mp h
  have hnodup := nodup_trendDays startDate today
  refine ⟨?_, ?_, ?_⟩
  · rw [List.map_map]
    exact sum_shared hnodup hpayments fun p => p.amount
  · rw [List.map_map]
    exact sum_shared hnodup hrefunds fun r => r.amount
  · rw [List.map_map]
    exact sum_shared hnodup hadjustments fun a => a.signedAmount

/-- **The daily trend.** It is right exactly when no selected event lies in the hours after local
midnight in which Greenwich still counts the day before. -/
theorem daily_trend_right_iff :
    (∃ trend, buildCampaignDailyTrend zone payments refunds adjustments startDate today = .ok trend ∧
        TrendRight zone payments refunds adjustments startDate today trend) ↔
      (∀ p ∈ filterDates zone (fun p => some p.createdAt) startDate today payments,
          zone.utcoffset p.createdAt ≤ zone.timeOfDay p.createdAt) ∧
        (∀ r ∈ filterDates zone (fun r => r.completedAt) startDate today refunds,
          zone.utcoffset r.time ≤ zone.timeOfDay r.time) ∧
        ∀ a ∈ filterDates zone (fun a => a.appliedAt) startDate today adjustments,
          zone.utcoffset a.time ≤ zone.timeOfDay a.time := by
  have hpayments : ∀ p ∈ filterDates zone (fun p => some p.createdAt) startDate today payments,
      zone.localDate p.createdAt ∈ trendDays startDate today :=
    localDate_of_filterDates fun p t h => Option.some.inj h
  have hrefunds : ∀ r ∈ filterDates zone (fun r => r.completedAt) startDate today refunds,
      zone.localDate r.time ∈ trendDays startDate today :=
    localDate_of_filterDates time_of_completedAt
  have hadjustments : ∀ a ∈ filterDates zone (fun a => a.appliedAt) startDate today adjustments,
      zone.localDate a.time ∈ trendDays startDate today :=
    localDate_of_filterDates time_of_appliedAt
  rw [← placedByLocalDate_iff hpayments, ← placedByLocalDate_iff hrefunds,
    ← placedByLocalDate_iff hadjustments]
  constructor
  · rintro ⟨trend, -, hright⟩
    exact ⟨hright.payments_placed, hright.refunds_placed, hright.adjustments_placed⟩
  · rintro ⟨hplaced, hrefunded, hadjusted⟩
    have htrend := trend_of_bucketRows.mpr ⟨_, _, _, hplaced, hrefunded, hadjusted, rfl⟩
    obtain ⟨hgross, hback, hdelta⟩ := sums_of_trend htrend
    exact ⟨_, htrend, hplaced, hrefunded, hadjusted, hgross, hback, hdelta⟩

end Trend

/-- The clocks of Tehran, three and a half hours ahead of UTC. -/
def tehran : EasternZone where
  utcoffset _ := 12600000000
  ahead _ := by decide
  less_than_day _ := by decide

/-- A payment made in Tehran at half past midnight of 2026-01-02. -/
def earlyPayment : TrendPayment where
  participation := 0
  user := 1
  amount := 5000
  gatewayName := "zarinpal"
  authority := "A1"
  refId := "R1"
  gatewayStatus := "100"
  status := .success
  paidAt := none
  verifiedAt := none
  createdAt := 1767301200000000

/-- On the first day of the window it has no bucket; on the second it is counted under the first. -/
theorem early_payment_lost :
    tehran.localDate earlyPayment.createdAt = 20455 ∧
      buildCampaignDailyTrend tehran [earlyPayment] [] [] 20455 20455 = .error 20454 ∧
      (buildCampaignDailyTrend tehran [earlyPayment] [] [] 20454 20455).toOption.map
          (fun trend => trend.map fun b => b.grossAmount) = some [5000, 0] ∧
      isoDay 20455 = "2026-01-02".toList := by
  refine ⟨?_, ?_, ?_, ?_⟩
  · decide +kernel
  · decide +kernel
  · decide +kernel
  · decide +kernel

end SetadJang.Madadkar
