import SetadJang.Madadkar.Agreement
import SetadJang.Madadkar.CampaignEdits

/-!
# The price of a share

A participation freezes the share price when its shares are reserved, and
`update_campaign` locks the price when a participation is PAID.  In between the
price may be edited: the payment that follows is confirmed at the price of the
reservation, not at that of the campaign.  `confirmed` says which participation a
verdict of the provider marks PAID.
-/

namespace SetadJang.Madadkar

open SetadJang.Framework SetadJang.Framework.Txn

/-- The payment system with the total amounts of its campaigns. -/
structure PriceSys where
  sys : Sys
  totalAmounts : List ℕ
deriving DecidableEq, Repr

inductive PriceAct where
  | pay (a : PayAct)
  | updateCampaign (c : ℕ) (fs : CampaignFields) (now : ℕ) (columnsOk : Bool)

def Store.sharePrice? (db : Store) (c : ℕ) : Option ℕ := db.campaigns[c]?.map Campaign.sharePrice

namespace PriceSys

/-- `get_admin_campaign_by_id`. -/
def campaign? (s : PriceSys) (c : ℕ) : Option CampaignRecord :=
  match s.sys.db.campaigns[c]?, s.totalAmounts[c]? with
  | some row, some totalAmount => if row.isActive = true then some ⟨row, totalAmount⟩ else none
  | _, _ => none

def save (s : PriceSys) (c : ℕ) (saved : CampaignRecord) : PriceSys where
  sys := { s.sys with db := { s.sys.db with campaigns := s.sys.db.campaigns.set c saved.row } }
  totalAmounts := s.totalAmounts.set c saved.totalAmount

end PriceSys

/-- A step of a payment call, or a whole call of `update_campaign` by the admin
endpoint, which reads the campaign first. -/
def priceStep (s : PriceSys) : PriceAct → PriceSys
  | .pay a => { s with sys := payStep s.sys a }
  | .updateCampaign c fs now columnsOk =>
      match s.campaign? c with
      | some campaign =>
          match updateCampaign s.sys.db.participations c campaign fs now columnsOk with
          | .ok saved => s.save c saved
          | .error _ => s
      | none => s

/-- A campaign as it stands in the table. -/
structure StoredCampaign where
  record : CampaignRecord
  priced : record.Priced

def priceStart (campaigns : List StoredCampaign) : PriceSys where
  sys := start (campaigns.map fun campaign => campaign.record.row)
  totalAmounts := campaigns.map fun campaign => campaign.record.totalAmount

/-- Every PAID participation was sold at the price its campaign has now. -/
def PriceUniform (db : Store) : Prop :=
  ∀ p ∈ db.participations, p.status = .paid →
    db.sharePrice? p.campaign = some p.sharePriceSnapshot ∧
      p.totalAmount = p.shareCount * p.sharePriceSnapshot

instance (db : Store) : Decidable (PriceUniform db) :=
  inferInstanceAs (Decidable (∀ p ∈ db.participations, _))

/-! ## The payment a verdict confirms -/

/-- The participation, with its key, that the success branch of `verify_payment`
marks PAID: the payment is pending, the campaign active, the answer fits the
columns and the shares fit the campaign. -/
def confirmed (db : Store) (k : ℕ) (result : PaymentVerifyResult) (now : ℕ) (hooksOk : Bool) :
    Option (ℕ × Participation) :=
  match db.payments[k]? with
  | none => none
  | some pay =>
      match db.participations[pay.participation]? with
      | none => none
      | some p =>
          match db.campaigns[p.campaign]? with
          | none => none
          | some row =>
              if pay.status = .pending ∧ row.isActive = true ∧ result.success = true ∧
                  result.gatewayStatus.length ≤ 50 ∧ result.refId.length ≤ 100 ∧
                  reservedShares (db.participations.modify pay.participation
                    (·.withStatus .paid (some now))) p.campaign ≤ row.totalShares ∧
                  hooksOk = true then
                some (pay.participation, p)
              else none

theorem confirmed_eq_some_iff {db : Store} {k now : ℕ} {result : PaymentVerifyResult}
    {hooksOk : Bool} {r : ℕ × Participation} :
    confirmed db k result now hooksOk = some r ↔
      ∃ pay p row, db.payments[k]? = some pay ∧ db.participations[pay.participation]? = some p ∧
        db.campaigns[p.campaign]? = some row ∧
        (pay.status = .pending ∧ row.isActive = true ∧ result.success = true ∧
          result.gatewayStatus.length ≤ 50 ∧ result.refId.length ≤ 100 ∧
          reservedShares (db.participations.modify pay.participation
            (·.withStatus .paid (some now))) p.campaign ≤ row.totalShares ∧ hooksOk = true) ∧
        r = (pay.participation, p) := by
  unfold confirmed
  constructor
  · intro h
    split at h
    · cases h
    · next pay hpay =>
        split at h
        · cases h
        · next p hp =>
            split at h
            · cases h
            · next row hrow =>
                split_ifs at h with hguards
                exact ⟨pay, p, row, hpay, hp, hrow, hguards, (Option.some.inj h).symm⟩
  · rintro ⟨pay, p, row, hpay, hp, hrow, hguards, rfl⟩
    simp only [hpay, hp, hrow, if_pos hguards]

/-- A confirmation runs the success branch to its end and commits. -/
theorem commits_of_confirmed {db : Store} {k now : ℕ} {result : PaymentVerifyResult}
    {hooksOk : Bool} {r : ℕ × Participation}
    (h : confirmed db k result now hooksOk = some r) :
    ∃ t, Commits (finalizeVerifiedPayment k result now hooksOk) db () t ∧
      t.participations = db.participations.modify r.1 (·.withStatus .paid (some now)) := by
  obtain ⟨pay, p, row, hpay, hp, hrow, ⟨hpend, hactive, hsuccess, hstatus, href, hroom, hhooks⟩,
    rfl⟩ := confirmed_eq_some_iff.mp h
  simp only [finalizeVerifiedPayment, commits_atomic, commits_bind, commits_getPayment,
    commits_ite, commits_getParticipation, commits_getCampaign, commits_modify, commits_require,
    commits_pure, commits_savePaymentRow_iff, commits_recordPaymentEvent_iff,
    commits_syncCampaignCounters_iff]
  refine ⟨((db.succeeded k pay result.gatewayStatus result.refId now).sync p.campaign).autoComplete
    p.campaign, ?_, rfl⟩
  refine ⟨pay, db, ⟨hpay, rfl⟩, Or.inr ⟨not_not.mpr hpend, p, db, ⟨hp, rfl⟩, row, db,
    ⟨⟨hrow, hactive⟩, rfl⟩, Or.inr ⟨by simp [hsuccess], ?_⟩⟩⟩
  exact ⟨(), _, ⟨⟨hstatus, href⟩, rfl⟩, (), _, ⟨_, by simp [hpay], rfl⟩, (), _, rfl, (), _,
    ⟨⟨row, hrow, hroom⟩, rfl⟩, (), _, rfl, hhooks, rfl⟩

/-- The success branch commits nothing unless it confirms a payment. -/
theorem confirmed_of_commits {db t : Store} {k now : ℕ} {result : PaymentVerifyResult}
    {hooksOk : Bool} {u : Unit} (hsuccess : result.success = true)
    (h : Commits (finalizeVerifiedPayment k result now hooksOk) db u t) :
    t = db ∨ ∃ r, confirmed db k result now hooksOk = some r := by
  simp only [finalizeVerifiedPayment, commits_atomic, commits_bind, commits_getPayment,
    commits_ite, commits_getParticipation, commits_getCampaign, commits_modify, commits_require,
    commits_pure, commits_savePaymentRow_iff, commits_syncCampaignCounters_iff] at h
  obtain ⟨pay, _, ⟨hpay, rfl⟩, ⟨-, -, rfl⟩ | ⟨hpend, p, _, ⟨hp, rfl⟩, row, _, ⟨⟨hrow, hactive⟩, rfl⟩,
    ⟨hfail, -⟩ | ⟨-, _, s₁, ⟨⟨hstatus, href⟩, rfl⟩, _, s₂, hrec, _, s₃, rfl, _, s₄,
      ⟨⟨row', hrow', hroom⟩, rfl⟩, _, s₅, rfl, hhooks, rfl⟩⟩⟩ := h
  · exact Or.inl rfl
  · rw [hsuccess] at hfail
    cases hfail
  · obtain ⟨pay', -, rfl⟩ := commits_recordPaymentEvent hrec
    have hsame : row = row' := Option.some.inj (hrow.symm.trans hrow')
    refine Or.inr ⟨(pay.participation, p), confirmed_eq_some_iff.mpr ?_⟩
    exact ⟨pay, p, row, hpay, hp, hrow,
      ⟨not_not.mp hpend, hactive, hsuccess, hstatus, href, hsame ▸ hroom, hhooks⟩, rfl⟩

/-- The participation an action marks PAID, with its key. -/
def paidNext (s : Sys) : PayAct → Option (ℕ × Participation)
  | .finalize i now hooksOk =>
      match s.threads[i]? with
      | some (.verified k amount result) =>
          if result.mismatches amount = true then none else confirmed s.db k result now hooksOk
      | _ => none
  | _ => none

theorem attempts_succeed {s : Sys} {a : PayAct} {k : ℕ}
    (h : attempts s (.pay a) = some (.succeed k)) :
    ∃ i now hooksOk amount result, a = .finalize i now hooksOk ∧
      s.threads[i]? = some (.verified k amount result) ∧ result.mismatches amount = false ∧
      result.success = true := by
  cases a with
  | finalize i now hooksOk =>
      simp only [attempts] at h
      split at h
      · next k' amount result hthread =>
          simp only [Option.some.injEq, verdictEffect] at h
          split_ifs at h with hmismatch hsuccess
          obtain rfl : k' = k := Effect.succeed.inj h
          exact ⟨i, now, hooksOk, amount, result, rfl, hthread, by simpa using hmismatch, hsuccess⟩
      · cases h
  | initiate c user shareCount now => cases h
  | persist i =>
      simp only [attempts] at h
      split at h <;> cases h
  | release i =>
      simp only [attempts] at h
      split at h <;> cases h
  | cancelLocked i now =>
      simp only [attempts] at h
      split at h <;> cases h
  | expire i now =>
      simp only [attempts] at h
      split at h <;> cases h
  | gateway i answer => cases h
  | callback authority => cases h
  | provider i answer => cases h
  | cancel authority => cases h
  | loadStale pid cutoff => cases h

/-- An action that confirms a payment marks the participation PAID. -/
theorem payStep_of_paidNext {s : Sys} {a : PayAct} {r : ℕ × Participation}
    (h : paidNext s a = some r) :
    s.db.participations[r.1]? = some r.2 ∧ ∃ now, (payStep s a).db.participations =
      s.db.participations.modify r.1 (·.withStatus .paid (some now)) := by
  unfold paidNext at h
  split at h
  · next i now hooksOk =>
      split at h
      · next k amount result hthread =>
          split_ifs at h with hmismatch
          obtain ⟨t, hcommits, ht⟩ := commits_of_confirmed h
          obtain ⟨pay, p, row, -, hp, -, -, rfl⟩ := confirmed_eq_some_iff.mp h
          refine ⟨hp, now, ?_⟩
          have hdb : (payStep s (.finalize i now hooksOk)).db =
              after (finalizeVerifiedPayment k result now hooksOk) s.db := by
            simp [payStep, step, transaction, payTransaction, hthread, hmismatch]
          rw [hdb, hcommits.after_eq, ht]
      · cases h
  · cases h

/-- Where no payment is confirmed, the success branch leaves no trace. -/
theorem payStep_of_unconfirmed {s : Sys} {a : PayAct} {k : ℕ} (h : paidNext s a = none)
    (he : attempts s (.pay a) = some (.succeed k)) : (payStep s a).db = s.db := by
  obtain ⟨i, now, hooksOk, amount, result, rfl, hthread, hmismatch, hsuccess⟩ :=
    attempts_succeed he
  have hnone : confirmed s.db k result now hooksOk = none := by
    simpa [paidNext, hthread, hmismatch] using h
  have hdb : (payStep s (.finalize i now hooksOk)).db =
      after (finalizeVerifiedPayment k result now hooksOk) s.db := by
    simp [payStep, step, transaction, payTransaction, hthread, hmismatch]
  rw [hdb]
  rcases allOrNothing_atomic _ s.db with hsame | ⟨u, hcommits⟩
  · exact hsame
  · rcases confirmed_of_commits hsuccess hcommits with hsame | ⟨r, hr⟩
    · exact hsame
    · rw [hnone] at hr
      cases hr

/-! ## Bookings -/

/-- What a participation was booked for. -/
def SameBooking (p q : Participation) : Prop :=
  q.campaign = p.campaign ∧ q.shareCount = p.shareCount ∧
    q.sharePriceSnapshot = p.sharePriceSnapshot ∧ q.totalAmount = p.totalAmount

theorem sameBooking_refl (p : Participation) : SameBooking p p := ⟨rfl, rfl, rfl, rfl⟩

theorem booking_saved {ps : List Participation} {pid j : ℕ} {status : ParticipationStatus}
    {paidAt : Option ℕ} {q : Participation}
    (hq : (ps.modify pid (·.withStatus status paidAt))[j]? = some q) :
    ∃ p, ps[j]? = some p ∧ SameBooking p q ∧
      (q.status = .paid → p.status = .paid ∨ status = .paid) := by
  rcases getElem?_modify_cases hq with ⟨rfl, p, hp, rfl⟩ | ⟨-, hold⟩
  · exact ⟨p, hp, ⟨rfl, rfl, rfl, rfl⟩, Or.inr⟩
  · exact ⟨q, hold, sameBooking_refl q, Or.inl⟩

/-- **What a commit does to a booking.** It keeps its columns, and only a success
marks it PAID; a new one is pending and has the price of its campaign. -/
theorem booking_commit {s t : Store} {e : Effect} (h : Commit s e t) {j : ℕ} {q : Participation}
    (hq : t.participations[j]? = some q) :
    (∃ p, s.participations[j]? = some p ∧ SameBooking p q ∧
      (q.status = .paid → p.status = .paid ∨ ∃ k, e = .succeed k)) ∨
    (j = s.participations.length ∧ q.status = .pendingPayment ∧
      s.sharePrice? q.campaign = some q.sharePriceSnapshot ∧
      q.totalAmount = q.shareCount * q.sharePriceSnapshot) := by
  have hsame : s.participations[j]? = some q → ∃ p, s.participations[j]? = some p ∧
      SameBooking p q ∧ (q.status = .paid → p.status = .paid ∨ ∃ k, e = .succeed k) :=
    fun hold => ⟨q, hold, sameBooking_refl q, Or.inl⟩
  have hsaved : ∀ {pid : ℕ} {status : ParticipationStatus} {paidAt : Option ℕ},
      (s.participations.modify pid (·.withStatus status paidAt))[j]? = some q →
      (status = .paid → ∃ k, e = .succeed k) → ∃ p, s.participations[j]? = some p ∧
        SameBooking p q ∧ (q.status = .paid → p.status = .paid ∨ ∃ k, e = .succeed k) := by
    intro pid status paidAt hmodified hstatus
    obtain ⟨p, hp, hbooking, hpaid⟩ := booking_saved hmodified
    exact ⟨p, hp, hbooking, fun hq => (hpaid hq).imp_right hstatus⟩
  cases h with
  | reserve hrow hroom hpos =>
      rcases getElem?_concat_cases hq with hold | ⟨rfl, rfl⟩
      · exact Or.inl (hsame hold)
      · refine Or.inr ⟨rfl, rfl, ?_, rfl⟩
        simp [Store.sharePrice?, hrow]
  | release hp hpend => exact Or.inl (hsaved hq nofun)
  | mismatch hpay hp => exact Or.inl (hsaved hq nofun)
  | reject hpay hp hpend => exact Or.inl (hsaved hq nofun)
  | @succeed k now pay p gatewayStatus refId hpay hp hpend =>
      exact Or.inl (hsaved hq fun _ => ⟨k, rfl⟩)
  | expire hnone => exact Or.inl (hsaved hq nofun)
  | expireWith hpay hpid hpend => exact Or.inl (hsaved hq nofun)
  | completeFullRefund hr happ hpay hp hfull => exact Or.inl (hsaved hq nofun)
  | persist hpid hnew hpend => exact Or.inl (hsame hq)
  | fund hrow hroom => exact Or.inl (hsame hq)
  | voidFund hf => exact Or.inl (hsame hq)
  | requestRefund hpay hr hpend => exact Or.inl (hsame hq)
  | reviewRefund hr hpend hpay hstatus => exact Or.inl (hsame hq)
  | completeRefund hr happ hpay hp hpart => exact Or.inl (hsame hq)
  | createAdjustment hpend => exact Or.inl (hsame hq)
  | reviewAdjustment ha hpend hstatus => exact Or.inl (hsame hq)
  | applyAdjustment ha happ hnone => exact Or.inl (hsame hq)
  | applyPaymentAdjustment ha happ hk hpay => exact Or.inl (hsame hq)

/-- **Step lemma for bookings.** The row that is PAID after a step was PAID before,
or is the one the step confirms. -/
theorem booking_payStep {s : Sys} (a : PayAct) {j : ℕ} {q : Participation}
    (hq : (payStep s a).db.participations[j]? = some q) :
    (∃ p, s.db.participations[j]? = some p ∧ SameBooking p q ∧
      (q.status = .paid → p.status = .paid ∨ paidNext s a = some (j, p))) ∨
    (j = s.db.participations.length ∧ q.status = .pendingPayment ∧
      s.db.sharePrice? q.campaign = some q.sharePriceSnapshot ∧
      q.totalAmount = q.shareCount * q.sharePriceSnapshot) := by
  cases hnext : paidNext s a with
  | some r =>
      obtain ⟨hr, now, hps⟩ := payStep_of_paidNext hnext
      rw [hps] at hq
      rcases getElem?_modify_cases hq with ⟨rfl, p, hp, rfl⟩ | ⟨-, hold⟩
      · obtain rfl : r.2 = p := Option.some.inj (hr.symm.trans hp)
        exact Or.inl ⟨r.2, hp, ⟨rfl, rfl, rfl, rfl⟩, fun _ => Or.inr rfl⟩
      · exact Or.inl ⟨q, hold, sameBooking_refl q, Or.inl⟩
  | none =>
      rcases step_db s (.pay a) with hsame | ⟨e, he, hcommit⟩
      · rw [payStep, hsame] at hq
        exact Or.inl ⟨q, hq, sameBooking_refl q, Or.inl⟩
      · by_cases hsucceed : ∃ k, e = .succeed k
        · obtain ⟨k, rfl⟩ := hsucceed
          rw [payStep_of_unconfirmed hnext he] at hq
          exact Or.inl ⟨q, hq, sameBooking_refl q, Or.inl⟩
        · refine (booking_commit hcommit hq).imp_left ?_
          rintro ⟨p, hp, hbooking, hpaid⟩
          exact ⟨p, hp, hbooking, fun hq => Or.inl ((hpaid hq).resolve_right hsucceed)⟩

/-! ## Prices under a step -/

/-- The columns of a campaign that its price is about. -/
def Campaign.terms (row : Campaign) : ℕ × ℕ := (row.totalShares, row.sharePrice)

theorem terms_payStep (s : Sys) (a : PayAct) :
    (payStep s a).db.campaigns.map Campaign.terms = s.db.campaigns.map Campaign.terms := by
  rcases step_db s (.pay a) with hsame | ⟨e, -, hcommit⟩
  · rw [payStep, hsame]
  · exact column_commit (fun _ _ => rfl) (fun _ => rfl) hcommit

theorem sharePrice?_eq (db : Store) (c : ℕ) :
    db.sharePrice? c = (db.campaigns.map Campaign.terms)[c]?.map Prod.snd := by
  rw [List.getElem?_map, Option.map_map]
  rfl

theorem sharePrice?_payStep (s : Sys) (a : PayAct) (c : ℕ) :
    (payStep s a).db.sharePrice? c = s.db.sharePrice? c := by
  rw [sharePrice?_eq, terms_payStep, ← sharePrice?_eq]

theorem PriceSys.campaign?_eq_some {s : PriceSys} {c : ℕ} {campaign : CampaignRecord}
    (h : s.campaign? c = some campaign) :
    s.sys.db.campaigns[c]? = some campaign.row ∧
      s.totalAmounts[c]? = some campaign.totalAmount := by
  unfold campaign? at h
  split at h
  · next row totalAmount hrow hamount =>
      split_ifs at h
      obtain rfl : ⟨row, totalAmount⟩ = campaign := Option.some.inj h
      exact ⟨hrow, hamount⟩
  · cases h

/-- An edit is refused and changes nothing, or saves one campaign. -/
theorem priceStep_update_cases (s : PriceSys) (c : ℕ) (fs : CampaignFields) (now : ℕ)
    (columnsOk : Bool) :
    priceStep s (.updateCampaign c fs now columnsOk) = s ∨
      ∃ campaign saved, s.campaign? c = some campaign ∧
        updateCampaign s.sys.db.participations c campaign fs now columnsOk = .ok saved ∧
        priceStep s (.updateCampaign c fs now columnsOk) = s.save c saved := by
  cases hc : s.campaign? c with
  | none => exact Or.inl (by simp only [priceStep, hc])
  | some campaign =>
      cases hupdate : updateCampaign s.sys.db.participations c campaign fs now columnsOk with
      | error e => exact Or.inl (by simp only [priceStep, hc, hupdate])
      | ok saved =>
          exact Or.inr ⟨campaign, saved, rfl, hupdate, by simp only [priceStep, hc, hupdate]⟩

/-- What holds in every state: stored campaigns have the price of their totals, and
participations the amount of their shares. -/
structure PriceBooks (s : PriceSys) : Prop where
  priced : ∀ (c : ℕ) (row : Campaign) (totalAmount : ℕ), s.sys.db.campaigns[c]? = some row →
    s.totalAmounts[c]? = some totalAmount → CampaignRecord.Priced ⟨row, totalAmount⟩
  booked : ∀ (j : ℕ) (p : Participation), s.sys.db.participations[j]? = some p →
    p.totalAmount = p.shareCount * p.sharePriceSnapshot

theorem priced_of_terms {row old : Campaign} {totalAmount : ℕ} (hterms : row.terms = old.terms)
    (h : CampaignRecord.Priced ⟨old, totalAmount⟩) : CampaignRecord.Priced ⟨row, totalAmount⟩ := by
  obtain ⟨hshares, hprice⟩ := Prod.mk.inj hterms
  refine ⟨h.amount_min, ?_, ?_⟩
  · show 1 ≤ row.totalShares
    rw [hshares]
    exact h.shares_min
  · show row.sharePrice = totalAmount / row.totalShares
    rw [hprice, hshares]
    exact h.price_eq

theorem priceBooks_step {s : PriceSys} (hs : PriceBooks s) (a : PriceAct) :
    PriceBooks (priceStep s a) := by
  cases a with
  | pay a =>
      refine ⟨?_, ?_⟩
      · intro c row totalAmount hrow hamount
        have hterms : (s.sys.db.campaigns.map Campaign.terms)[c]? = some row.terms := by
          rw [← terms_payStep s.sys a, List.getElem?_map]
          exact congrArg (Option.map Campaign.terms) hrow
        rw [List.getElem?_map] at hterms
        obtain ⟨old, hold, heq⟩ := Option.map_eq_some_iff.mp hterms
        exact priced_of_terms heq.symm (hs.priced c old totalAmount hold hamount)
      · intro j q hq
        rcases booking_payStep a hq with ⟨p, hp, ⟨-, hcount, hsnapshot, htotal⟩, -⟩ | ⟨-, -, -, hnew⟩
        · rw [htotal, hcount, hsnapshot]
          exact hs.booked j p hp
        · exact hnew
  | updateCampaign c fs now columnsOk =>
      rcases priceStep_update_cases s c fs now columnsOk with
        hsame | ⟨campaign, saved, hc, hupdate, hsave⟩
      · rw [hsame]
        exact hs
      · rw [hsave]
        obtain ⟨hrow, hamount⟩ := PriceSys.campaign?_eq_some hc
        refine ⟨?_, hs.booked⟩
        intro c' row totalAmount hrow' hamount'
        simp only [PriceSys.save, List.getElem?_set] at hrow' hamount'
        by_cases heq : c = c'
        · subst heq
          have hsaved := updateCampaign_priced (hs.priced c _ _ hrow hamount) hupdate
          simp only [if_true] at hrow' hamount'
          split_ifs at hrow' hamount'
          rw [← Option.some.inj hrow', ← Option.some.inj hamount']
          exact hsaved
        · rw [if_neg heq] at hrow' hamount'
          exact hs.priced c' row totalAmount hrow' hamount'

theorem priceBooks_start (campaigns : List StoredCampaign) : PriceBooks (priceStart campaigns) := by
  refine ⟨?_, nofun⟩
  intro c row totalAmount hrow hamount
  simp only [priceStart, start, List.map_map, List.getElem?_map, Option.map_eq_some_iff] at hrow hamount
  obtain ⟨campaign, hc, rfl⟩ := hrow
  obtain ⟨campaign', hc', rfl⟩ := hamount
  obtain rfl : campaign = campaign' := Option.some.inj (hc.symm.trans hc')
  have hterms : campaign.record.row.fresh.terms = campaign.record.row.terms := rfl
  exact priced_of_terms hterms campaign.priced

/-! ## Uniform prices -/

/-- The payment a step confirms was reserved at the price the campaign has now. -/
def PaidAtCurrentPrice (s : PriceSys) : PriceAct → Prop
  | .pay a => ∀ r ∈ paidNext s.sys a,
      s.sys.db.sharePrice? r.2.campaign = some r.2.sharePriceSnapshot
  | .updateCampaign .. => True

/-- An edit never breaks uniformity: the lock sees the PAID participation. -/
theorem priceUniform_update {s : PriceSys} (hs : PriceBooks s) (hu : PriceUniform s.sys.db)
    (c : ℕ) (fs : CampaignFields) (now : ℕ) (columnsOk : Bool) :
    PriceUniform (priceStep s (.updateCampaign c fs now columnsOk)).sys.db := by
  rcases priceStep_update_cases s c fs now columnsOk with
    hsame | ⟨campaign, saved, hc, hupdate, hsave⟩
  · rw [hsame]
    exact hu
  · rw [hsave]
    obtain ⟨hrow, hamount⟩ := PriceSys.campaign?_eq_some hc
    intro p hp hpaid
    obtain ⟨hprice, htotal⟩ := hu p hp hpaid
    refine ⟨?_, htotal⟩
    by_cases heq : c = p.campaign
    · have hlocked : hasPaidParticipations s.sys.db.participations c = true := by
        refine List.any_eq_true.mpr ⟨p, hp, ?_⟩
        simp [Participation.paidIn, heq, hpaid]
      have hsaved := updateCampaign_locked (hs.priced c _ _ hrow hamount) hlocked hupdate
      obtain ⟨hlt, -⟩ := List.getElem?_eq_some_iff.mp hrow
      have hafter : (s.save c saved).sys.db.sharePrice? c = some saved.row.sharePrice := by
        simp [PriceSys.save, Store.sharePrice?, hlt]
      have hbefore : s.sys.db.sharePrice? c = some campaign.row.sharePrice := by
        simp [Store.sharePrice?, hrow]
      rw [← heq] at hprice ⊢
      rw [hafter, hsaved, ← hbefore, hprice]
    · have hother : (s.save c saved).sys.db.sharePrice? p.campaign =
          s.sys.db.sharePrice? p.campaign := by
        simp [PriceSys.save, Store.sharePrice?, heq]
      rw [hother, hprice]

/-- **Step lemma.** A step keeps the prices uniform exactly when the payment it
confirms, if any, is at the current price. -/
theorem priceUniform_step_iff {s : PriceSys} (hs : PriceBooks s) (hu : PriceUniform s.sys.db)
    (a : PriceAct) : PriceUniform (priceStep s a).sys.db ↔ PaidAtCurrentPrice s a := by
  cases a with
  | updateCampaign c fs now columnsOk =>
      exact iff_of_true (priceUniform_update hs hu c fs now columnsOk) trivial
  | pay a =>
      constructor
      · intro hafter r hr
        obtain ⟨hp, now, hps⟩ := payStep_of_paidNext hr
        have hpaid : r.2.withStatus .paid (some now) ∈ (payStep s.sys a).db.participations := by
          apply List.mem_of_getElem? (i := r.1)
          rw [hps]
          simp [hp]
        have hprice := (hafter _ hpaid rfl).1
        exact (sharePrice?_payStep s.sys a _).symm.trans hprice
      · intro hok q hq hpaid
        obtain ⟨j, hj⟩ := List.mem_iff_getElem?.mp hq
        rcases booking_payStep a hj with
          ⟨p, hp, ⟨hcampaign, hcount, hsnapshot, htotal⟩, hbefore⟩ | ⟨-, hpend, -⟩
        · have hprice : s.sys.db.sharePrice? p.campaign = some p.sharePriceSnapshot := by
            rcases hbefore hpaid with hold | hnext
            · exact (hu p (List.mem_of_getElem? hp) hold).1
            · exact hok (j, p) hnext
          refine ⟨?_, ?_⟩
          · show (payStep s.sys a).db.sharePrice? q.campaign = _
            rw [sharePrice?_payStep, hcampaign, hsnapshot, hprice]
          · rw [htotal, hcount, hsnapshot]
            exact hs.booked j p hp
        · rw [hpend] at hpaid
          cases hpaid

/-! ## Runs -/

/-- Participation `j` was added by a step of the run, and holds the share price
its campaign had then. -/
def ReservedAtPrice (s : PriceSys) (acts : List PriceAct) (j : ℕ) (p : Participation) : Prop :=
  ∃ pre a, pre ++ [a] <+: acts ∧
    (run priceStep s pre).sys.db.participations.length = j ∧
    j < (run priceStep s (pre ++ [a])).sys.db.participations.length ∧
    (run priceStep s pre).sys.db.sharePrice? p.campaign = some p.sharePriceSnapshot

theorem reservedAtPrice_run (campaigns : List StoredCampaign) (acts : List PriceAct) :
    ∀ (j : ℕ) (p : Participation),
      (run priceStep (priceStart campaigns) acts).sys.db.participations[j]? = some p →
      ReservedAtPrice (priceStart campaigns) acts j p := by
  induction acts using List.reverseRecOn with
  | nil => nofun
  | append_singleton acts a ih =>
      have hrun : run priceStep (priceStart campaigns) (acts ++ [a]) =
          priceStep (run priceStep (priceStart campaigns) acts) a := run_append _ _ _
      have hearlier : ∀ j p, ReservedAtPrice (priceStart campaigns) acts j p →
          ReservedAtPrice (priceStart campaigns) (acts ++ [a]) j p := by
        rintro j p ⟨pre, b, hpre, hlength, hlt, hprice⟩
        exact ⟨pre, b, hpre.trans (List.prefix_append acts [a]), hlength, hlt, hprice⟩
      intro j q hq
      cases a with
      | updateCampaign c fs now columnsOk =>
          refine hearlier j q (ih j q ?_)
          rw [hrun] at hq
          rcases priceStep_update_cases (run priceStep (priceStart campaigns) acts) c fs now columnsOk
            with hsame | ⟨campaign, saved, -, -, hsave⟩
          · rwa [hsame] at hq
          · rwa [hsave] at hq
      | pay a =>
          obtain ⟨hlt, -⟩ := List.getElem?_eq_some_iff.mp hq
          rw [hrun] at hq
          rcases booking_payStep a hq with ⟨p, hp, ⟨hcampaign, -, hsnapshot, -⟩, -⟩ | ⟨rfl, -, hprice, -⟩
          · obtain ⟨pre, b, hpre, hlength, hlt, hprice⟩ := hearlier j p (ih j p hp)
            refine ⟨pre, b, hpre, hlength, hlt, ?_⟩
            rw [hcampaign, hsnapshot, hprice]
          · exact ⟨acts, .pay a, List.prefix_rfl, rfl, hlt, hprice⟩

/-- **Prices of PAID participations.** In every state of every run a PAID
participation has the amount of its shares at the price its campaign had when they
were reserved.  That is the current price of the campaign in every state of a run
exactly when each payment the run confirms was reserved at the price its campaign
has at that moment. -/
theorem paid_at_reserved_price (campaigns : List StoredCampaign) (acts : List PriceAct) :
    (∀ (j : ℕ) (p : Participation),
      (run priceStep (priceStart campaigns) acts).sys.db.participations[j]? = some p →
      p.status = .paid → p.totalAmount = p.shareCount * p.sharePriceSnapshot ∧
        ReservedAtPrice (priceStart campaigns) acts j p) ∧
    ((∀ pre, pre <+: acts → PriceUniform (run priceStep (priceStart campaigns) pre).sys.db) ↔
      Along priceStep PaidAtCurrentPrice (priceStart campaigns) acts) := by
  have hstart : PriceUniform (priceStart campaigns).sys.db := nofun
  refine ⟨?_, ?_⟩
  · intro j p hp _
    have hbooks := invariant_run (fun s a hs => priceBooks_step (s := s) hs a)
      (priceBooks_start campaigns) acts
    exact ⟨hbooks.booked j p hp, reservedAtPrice_run campaigns acts j p hp⟩
  · refine (along_states (P := fun s : PriceSys => PriceUniform s.sys.db) hstart acts).symm.trans ?_
    apply along_congr (I := fun s => PriceBooks s ∧ PriceUniform s.sys.db)
    · rintro s a ⟨hs, hu⟩
      exact priceUniform_step_iff hs hu a
    · rintro s a ⟨hs, hu⟩ hafter
      exact ⟨priceBooks_step hs a, hafter⟩
    · exact ⟨priceBooks_start campaigns, hstart⟩

/-- Ten shares at 1000, for concrete runs. -/
def tenSharesStored : StoredCampaign where
  record := ⟨tenShares, 10000⟩
  priced := ⟨by decide, by decide, by decide⟩

/-- The admin doubles the total amount. -/
def doubleAmount : CampaignFields where
  fields := [.totalAmount 20000]
  distinct := by decide

/-- Two shares are reserved, the amount is edited, and the payment is confirmed. -/
def editBeforePayment : List PriceAct :=
  [.pay (.initiate 0 1 2 5), .pay (.gateway 0 (some (gatewayYes "A1"))), .pay (.persist 0),
    .updateCampaign 0 doubleAmount 6 true,
    .pay (.callback "A1"), .pay (.provider 1 (some (confirms 2000))), .pay (.finalize 1 9 true)]

/-- The edit is accepted because nothing is PAID yet; the shares are then paid at
1000 each, and the campaign asks 2000. -/
theorem paid_below_current_price :
    ¬ PriceUniform (run priceStep (priceStart [tenSharesStored]) editBeforePayment).sys.db := by
  decide

end SetadJang.Madadkar
