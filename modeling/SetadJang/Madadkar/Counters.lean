import SetadJang.Madadkar.Integrity

/-!
# Campaign counters

Every transaction that changes a row of a campaign's ledger ends with
`_sync_campaign_counters` on that campaign.  The frame lemmas say that the
single writes leave the ledgers of all other campaigns alone; the sync repairs
the one that is left.  So in every reachable state the stored counters are the
ledger.
-/

namespace SetadJang.Madadkar

open SetadJang.Framework SetadJang.Framework.Txn

/-! ## Frame lemmas of the ledger -/

theorem ledger_sync (s : Store) (c c' : ℕ) : ledger (s.sync c) c' = ledger s c' := rfl

theorem ledger_autoComplete (s : Store) (c c' : ℕ) :
    ledger (s.autoComplete c) c' = ledger s c' := rfl

theorem ledger_addEvent (s : Store) (e : PaymentEvent) (c : ℕ) :
    ledger (s.addEvent e) c = ledger s c := rfl

theorem ledger_noted (s : Store) (k : ℕ) (pay : Payment) (kind : PaymentEventKind) (c : ℕ) :
    ledger (s.noted k pay kind) c = ledger s c := rfl

/-- Two stores whose filtered tables agree on a campaign have its ledger in
common. -/
theorem ledger_congr {s t : Store} {c : ℕ}
    (hreserved : t.participations.filter (Participation.reservedIn c) =
      s.participations.filter (Participation.reservedIn c))
    (hpaid : t.participations.filter (Participation.paidIn c) =
      s.participations.filter (Participation.paidIn c))
    (hrefunds : t.refunds.filter (PaymentRefund.countsIn t.participations t.payments c) =
      s.refunds.filter (PaymentRefund.countsIn s.participations s.payments c))
    (hadj : ∀ ty, t.adjustments.filter (CampaignFinancialAdjustment.appliedIn c ty) =
      s.adjustments.filter (CampaignFinancialAdjustment.appliedIn c ty))
    (hfund : t.fundings.filter (ExternalFunding.recordedIn c) =
      s.fundings.filter (ExternalFunding.recordedIn c)) :
    ledger t c = ledger s c := by
  simp only [ledger, reservedShares, paidAmount, uniqueUsers, completedRefunds, adjustmentDelta,
    externalShares, externalAmount, sumWhere, hreserved, hpaid, hrefunds, hadj, hfund]

theorem ledger_addParticipation_of_ne {s : Store} {p : Participation} {c : ℕ}
    (hc : p.campaign ≠ c) : ledger (s.addParticipation p) c = ledger s c := by
  refine ledger_congr (filter_append_out (by simp [Participation.reservedIn, hc]))
    (filter_append_out (by simp [Participation.paidIn, hc])) ?_ (fun _ => rfl) rfl
  refine List.filter_congr fun r _ => ?_
  have hlookup : ∀ pid : ℕ, ((s.participations ++ [p])[pid]?).any (Participation.paidIn c) =
      (s.participations[pid]?).any (Participation.paidIn c) := by
    intro pid
    rcases Nat.lt_trichotomy pid s.participations.length with h | rfl | h
    · rw [List.getElem?_append_left h]
    · simp [Participation.paidIn, hc]
    · rw [List.getElem?_eq_none (by simp; omega), List.getElem?_eq_none (by omega)]
  cases hpay : s.payments[r.payment]? with
  | none => simp [PaymentRefund.countsIn, paymentPaidIn, hpay]
  | some pay => simp [PaymentRefund.countsIn, paymentPaidIn, hpay, hlookup]

theorem ledger_saveParticipation_of_ne {s : Store} {pid : ℕ} {p : Participation}
    {status : ParticipationStatus} {paidAt : Option ℕ} {c : ℕ}
    (hp : s.participations[pid]? = some p) (hc : p.campaign ≠ c) :
    ledger (s.saveParticipation pid status paidAt) c = ledger s c := by
  have hout : ∀ q, s.participations[pid]? = some q → q.campaign ≠ c := by
    intro q hq
    rw [hp] at hq
    cases hq
    exact hc
  refine ledger_congr
    (filter_modify_out fun q hq => by
      simp [Participation.reservedIn, Participation.withStatus, hout q hq])
    (filter_modify_out fun q hq => by
      simp [Participation.paidIn, Participation.withStatus, hout q hq]) ?_ (fun _ => rfl) rfl
  refine List.filter_congr fun r _ => ?_
  have hlookup : ∀ j : ℕ,
      ((s.participations.modify pid (·.withStatus status paidAt))[j]?).any
        (Participation.paidIn c) = (s.participations[j]?).any (Participation.paidIn c) := by
    intro j
    by_cases hj : pid = j
    · subst hj
      have hbeq : (p.campaign == c) = false := by simpa using hc
      simp [hp, Participation.paidIn, Participation.withStatus, hbeq]
    · rw [List.getElem?_modify_ne _ _ hj]
  cases hpay : s.payments[r.payment]? with
  | none => simp [PaymentRefund.countsIn, paymentPaidIn, hpay]
  | some pay => simp [PaymentRefund.countsIn, paymentPaidIn, hpay, hlookup]

theorem ledger_addPayment {s : Store} (hs : Wired s) (pay : Payment) (c : ℕ) :
    ledger (s.addPayment pay) c = ledger s c := by
  refine ledger_congr rfl rfl ?_ (fun _ => rfl) rfl
  refine List.filter_congr fun r hr => ?_
  have hk := hs.refund_payment r.payment (List.mem_map_of_mem hr)
  simp [PaymentRefund.countsIn, paymentPaidIn, List.getElem?_append_left hk]

theorem ledger_savePayment (s : Store) (k : ℕ) (st : Settlement) (c : ℕ) :
    ledger (s.savePayment k st) c = ledger s c := by
  refine ledger_congr rfl rfl ?_ (fun _ => rfl) rfl
  refine List.filter_congr fun r _ => ?_
  by_cases hk : k = r.payment
  · subst hk
    cases hpay : s.payments[r.payment]? with
    | none => simp [PaymentRefund.countsIn, paymentPaidIn, hpay]
    | some pay => simp [PaymentRefund.countsIn, paymentPaidIn, hpay, Payment.settle]
  · simp [PaymentRefund.countsIn, paymentPaidIn, List.getElem?_modify_ne _ _ hk]

/-- Settling a payment and its participation stays within the campaign. -/
theorem ledger_settled_of_ne {s : Store} {k pid : ℕ} {st : Settlement} {e : PaymentEvent}
    {p : Participation} {status : ParticipationStatus} {paidAt : Option ℕ} {c : ℕ}
    (hp : s.participations[pid]? = some p) (hc : p.campaign ≠ c) :
    ledger (((s.savePayment k st).addEvent e).saveParticipation pid status paidAt) c =
      ledger s c := by
  refine (ledger_saveParticipation_of_ne ?_ hc).trans ?_
  · exact hp
  · rw [ledger_addEvent, ledger_savePayment]

theorem ledger_addRefund {s : Store} {r : PaymentRefund} (hr : r.status ≠ .completed) (c : ℕ) :
    ledger (s.addRefund r) c = ledger s c :=
  ledger_congr rfl rfl (filter_append_out (by simp [PaymentRefund.countsIn, hr]))
    (fun _ => rfl) rfl

/-- A refund that is not completed counts nowhere, before and after a review. -/
theorem ledger_saveRefund_open {s : Store} {i : ℕ} {r : PaymentRefund} {status : RefundStatus}
    {ref : Option String} (hr : s.refunds[i]? = some r) (hold : r.status ≠ .completed)
    (hnew : status ≠ .completed) (c : ℕ) :
    ledger (s.saveRefund i status ref) c = ledger s c := by
  refine ledger_congr rfl rfl (filter_modify_out fun q hq => ?_) (fun _ => rfl) rfl
  rw [hr] at hq
  cases hq
  simp [PaymentRefund.countsIn, hold, hnew]

/-- A refund counts only in the campaign of its participation. -/
theorem ledger_saveRefund_of_ne {s : Store} {i : ℕ} {r : PaymentRefund} {pay : Payment}
    {p : Participation} {status : RefundStatus} {ref : Option String} {c : ℕ}
    (hr : s.refunds[i]? = some r) (hpay : s.payments[r.payment]? = some pay)
    (hp : s.participations[pay.participation]? = some p) (hc : p.campaign ≠ c) :
    ledger (s.saveRefund i status ref) c = ledger s c := by
  refine ledger_congr rfl rfl (filter_modify_out fun q hq => ?_) (fun _ => rfl) rfl
  rw [hr] at hq
  cases hq
  simp [PaymentRefund.countsIn, paymentPaidIn, hpay, hp, Participation.paidIn, hc]

theorem ledger_addAdjustment {s : Store} {a : CampaignFinancialAdjustment}
    (ha : a.status ≠ .applied) (c : ℕ) : ledger (s.addAdjustment a) c = ledger s c :=
  ledger_congr rfl rfl rfl
    (fun _ => filter_append_out (by simp [CampaignFinancialAdjustment.appliedIn, ha])) rfl

theorem ledger_saveAdjustment_open {s : Store} {i : ℕ} {a : CampaignFinancialAdjustment}
    {status : FinancialAdjustmentStatus} (ha : s.adjustments[i]? = some a)
    (hold : a.status ≠ .applied) (hnew : status ≠ .applied) (c : ℕ) :
    ledger (s.saveAdjustment i status) c = ledger s c := by
  refine ledger_congr rfl rfl rfl (fun ty => filter_modify_out fun q hq => ?_) rfl
  rw [ha] at hq
  cases hq
  simp [CampaignFinancialAdjustment.appliedIn, hold, hnew]

theorem ledger_saveAdjustment_of_ne {s : Store} {i : ℕ} {a : CampaignFinancialAdjustment}
    {status : FinancialAdjustmentStatus} {c : ℕ} (ha : s.adjustments[i]? = some a)
    (hc : a.campaign ≠ c) : ledger (s.saveAdjustment i status) c = ledger s c := by
  refine ledger_congr rfl rfl rfl (fun ty => filter_modify_out fun q hq => ?_) rfl
  rw [ha] at hq
  cases hq
  simp [CampaignFinancialAdjustment.appliedIn, hc]

theorem ledger_addFunding_of_ne {s : Store} {f : ExternalFunding} {c : ℕ}
    (hc : f.campaign ≠ c) : ledger (s.addFunding f) c = ledger s c :=
  ledger_congr rfl rfl rfl (fun _ => rfl)
    (filter_append_out (by simp [ExternalFunding.recordedIn, hc]))

theorem ledger_voidFunding_of_ne {s : Store} {k : ℕ} {f : ExternalFunding} {c : ℕ}
    (hf : s.fundings[k]? = some f) (hc : f.campaign ≠ c) :
    ledger (s.voidFunding k) c = ledger s c := by
  refine ledger_congr rfl rfl rfl (fun _ => rfl) (filter_modify_out fun q hq => ?_)
  rw [hf] at hq
  cases hq
  simp [ExternalFunding.recordedIn, hc]

/-! ## Stored counters -/

/-- The stored counters of every campaign are its ledger. -/
def Synced (s : Store) : Prop :=
  ∀ c row, s.campaigns[c]? = some row → row.counters = ledger s c

/-- A write outside the ledgers keeps them stored. -/
theorem Synced.of_ledger {s t : Store} (hs : Synced s) (hcamp : t.campaigns = s.campaigns)
    (hledger : ∀ c, ledger t c = ledger s c) : Synced t := by
  intro c row hrow
  rw [hcamp] at hrow
  rw [hledger]
  exact hs c row hrow

/-- **Sync rule.** Writes that leave all other ledgers alone, followed by the
sync of the campaign they belong to. -/
theorem Synced.sync {s u : Store} {c : ℕ} (hs : Synced s) (hcamp : u.campaigns = s.campaigns)
    (hledger : ∀ c', c ≠ c' → ledger u c' = ledger s c') : Synced (u.sync c) := by
  intro c' row hrow
  rw [ledger_sync]
  by_cases hc : c = c'
  · subst hc
    obtain ⟨old, -, rfl⟩ : ∃ old, u.campaigns[c]? = some old ∧
        old.withCounters (ledger u c) = row := by
      simpa [Store.sync] using hrow
    rfl
  · rw [Store.sync_campaigns, List.getElem?_modify_ne _ _ hc, hcamp] at hrow
    rw [hledger c' hc]
    exact hs c' row hrow

theorem Synced.autoComplete {s : Store} (hs : Synced s) (c : ℕ) : Synced (s.autoComplete c) := by
  intro c' row hrow
  rw [ledger_autoComplete]
  by_cases hc : c = c'
  · subst hc
    obtain ⟨old, hold, rfl⟩ := Option.map_eq_some_iff.mp
      (by simpa [Store.autoComplete] using hrow :
        Option.map _ s.campaigns[c]? = some row)
    rw [← hs c old hold]
    split_ifs <;> rfl
  · rw [Store.autoComplete_campaigns, List.getElem?_modify_ne _ _ hc] at hrow
    exact hs c' row hrow

/-- **Step lemma.** Every commit stores the ledgers again.  An expiry has to name
the campaign of the row it overwrites. -/
theorem synced_commit {s t : Store} {e : Effect} (hw : Wired s) (hs : Synced s)
    (halign : ∀ pid c, e = .expire pid c →
      ∃ p, s.participations[pid]? = some p ∧ p.campaign = c)
    (h : Commit s e t) : Synced t := by
  cases h with
  | reserve hrow hroom hpos =>
      exact hs.sync rfl fun c' hc => ledger_addParticipation_of_ne hc
  | release hp hpend =>
      exact hs.sync rfl fun c' hc => ledger_saveParticipation_of_ne hp hc
  | persist hpid hnew hpend =>
      exact hs.of_ledger rfl fun c => ledger_addPayment hw _ c
  | mismatch hpay hp => exact hs.sync rfl fun c' hc => ledger_settled_of_ne hp hc
  | reject hpay hp hpend => exact hs.sync rfl fun c' hc => ledger_settled_of_ne hp hc
  | succeed hpay hp hpend =>
      refine Synced.autoComplete ?_ _
      exact hs.sync rfl fun c' hc => ledger_settled_of_ne hp hc
  | @expire pid c hnone =>
      obtain ⟨p, hp, rfl⟩ := halign pid c rfl
      exact hs.sync rfl fun c' hc => ledger_saveParticipation_of_ne hp hc
  | @expireWith pid c k now pay hpay hpid hpend =>
      obtain ⟨p, hp, rfl⟩ := halign pid c rfl
      refine hs.sync rfl fun c' hc => ?_
      rw [Store.expiredWith, ledger_addEvent, ledger_savePayment,
        ledger_saveParticipation_of_ne hp hc]
  | fund hrow hroom =>
      refine Synced.autoComplete ?_ _
      exact hs.sync rfl fun c' hc => ledger_addFunding_of_ne hc
  | voidFund hf => exact hs.sync rfl fun c' hc => ledger_voidFunding_of_ne hf hc
  | requestRefund hpay hr hpend =>
      refine hs.of_ledger rfl fun c => ?_
      rw [ledger_noted, ledger_addRefund (by simp [hpend])]
  | reviewRefund hr hpend hpay hstatus =>
      refine hs.of_ledger rfl fun c => ?_
      rw [ledger_noted, ledger_saveRefund_open hr (by simp [hpend]) hstatus]
  | completeRefund hr happ hpay hp hpart =>
      refine hs.sync rfl fun c' hc => ?_
      rw [ledger_noted, ledger_saveRefund_of_ne hr hpay hp hc]
  | completeFullRefund hr happ hpay hp hfull =>
      refine hs.sync rfl fun c' hc => ?_
      rw [ledger_noted]
      refine (ledger_saveParticipation_of_ne ?_ hc).trans (ledger_saveRefund_of_ne hr hpay hp hc)
      exact hp
  | createAdjustment hpend =>
      exact hs.of_ledger rfl fun c => ledger_addAdjustment (by simp [hpend]) c
  | reviewAdjustment ha hpend hstatus =>
      exact hs.of_ledger rfl fun c => ledger_saveAdjustment_open ha (by simp [hpend]) hstatus c
  | applyAdjustment ha happ hnone =>
      exact hs.sync rfl fun c' hc => ledger_saveAdjustment_of_ne ha hc
  | applyPaymentAdjustment ha happ hk hpay =>
      refine hs.sync rfl fun c' hc => ?_
      rw [ledger_noted, ledger_saveAdjustment_of_ne ha hc]

/-! ## Every run -/

/-- What holds in every state whatever the calls do: keys, copies, counters. -/
structure Sound (s : Sys) : Prop where
  wired : Wired s.db
  copies : CopiesAligned s
  synced : Synced s.db

theorem sound_start (campaigns : List Campaign) : Sound (start campaigns) := by
  refine ⟨wired_start campaigns, ?_, ?_⟩
  · intro pid copy hmem
    simp [start] at hmem
  · intro c row hrow
    obtain ⟨old, -, rfl⟩ : ∃ old, campaigns[c]? = some old ∧ old.fresh = row := by
      simpa [start] using hrow
    simp [Campaign.fresh, Campaign.withCounters, Campaign.counters, ledger, start,
      reservedShares, paidAmount, uniqueUsers, completedRefunds, adjustmentDelta,
      externalShares, externalAmount]

theorem sound_step {s : Sys} (hs : Sound s) (a : Act) : Sound (step s a) := by
  refine ⟨wired_step hs.wired a, copiesAligned_step hs.copies a, ?_⟩
  rcases step_db s a with hsame | ⟨e, he, hcommit⟩
  · rw [hsame]
    exact hs.synced
  · refine synced_commit hs.wired hs.synced ?_ hcommit
    rintro pid c rfl
    exact hs.copies.of_attempts he

theorem sound_run (campaigns : List Campaign) (acts : List Act) :
    Sound (run step (start campaigns) acts) :=
  invariant_run (I := Sound) (fun _ a hs => sound_step hs a) (sound_start campaigns) acts

/-- **Counters equal the ledger.** In every state that any interleaving of the
services reaches, the five stored counters of every campaign are what
`_sync_campaign_counters` would compute there. -/
theorem counters_eq_ledger (campaigns : List Campaign) (acts : List Act) :
    Synced (run step (start campaigns) acts).db :=
  (sound_run campaigns acts).synced

end SetadJang.Madadkar
