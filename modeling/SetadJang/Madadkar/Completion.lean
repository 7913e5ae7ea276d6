import SetadJang.Madadkar.Overselling

/-!
# Automatic completion

`auto_complete_campaign_if_fully_funded` asks `is_fully_funded`, which counts
reserved shares like paid ones.  So the verification of one participation can
complete a campaign while another one is still waiting for its payment; if that
one fails later, the campaign stays COMPLETED with shares nobody bought.
-/

namespace SetadJang.Madadkar

open SetadJang.Framework SetadJang.Framework.Txn

def Participation.pendingIn (c : ℕ) (p : Participation) : Bool :=
  p.campaign == c && p.status == .pendingPayment

/-- Shares of the PAID participations of a campaign. -/
def paidShares (ps : List Participation) (c : ℕ) : ℕ :=
  sumWhere (Participation.paidIn c) Participation.shareCount ps

/-- Shares of the participations that still await their payment. -/
def pendingShares (ps : List Participation) (c : ℕ) : ℕ :=
  sumWhere (Participation.pendingIn c) Participation.shareCount ps

/-- What `purchased_shares` mixes. -/
theorem reservedShares_eq (ps : List Participation) (c : ℕ) :
    reservedShares ps c = paidShares ps c + pendingShares ps c := by
  apply sumWhere_disjoint
  · intro p
    cases hst : p.status <;>
      simp [Participation.reservedIn, Participation.paidIn, Participation.pendingIn, hst,
        ParticipationStatus.isReserved]
  · intro p hp
    cases hst : p.status <;> simp_all [Participation.paidIn, Participation.pendingIn]

/-! ## The switch to COMPLETED -/

/-- The step takes the campaign to COMPLETED. -/
def completes (s : Sys) (a : Act) (c : ℕ) : Prop :=
  s.db.campaigns[c]?.map Campaign.status ≠ some .completed ∧
    (step s a).db.campaigns[c]?.map Campaign.status = some .completed

instance (s : Sys) (a : Act) (c : ℕ) : Decidable (completes s a c) :=
  inferInstanceAs (Decidable (_ ∧ _))

/-- Every share of the campaign is paid or funded from outside. -/
def Sold (s : Store) (c : ℕ) : Prop :=
  ∀ row ∈ s.campaigns[c]?,
    row.totalShares ≤ paidShares s.participations c + externalShares s.fundings c

instance (s : Store) (c : ℕ) : Decidable (Sold s c) :=
  inferInstanceAs (Decidable (∀ row ∈ s.campaigns[c]?, _))

theorem status_sync (s : Store) (c : ℕ) :
    (s.sync c).campaigns.map Campaign.status = s.campaigns.map Campaign.status :=
  column_sync (fun _ _ => rfl) s c

/-- Only a published campaign whose counters are full is switched. -/
theorem completed_autoComplete {s : Store} {c c' : ℕ}
    (hbefore : s.campaigns[c']?.map Campaign.status ≠ some .completed)
    (hafter : (s.autoComplete c).campaigns[c']?.map Campaign.status = some .completed) :
    c = c' ∧ ∃ row, s.campaigns[c]? = some row ∧ row.isFullyFunded = true ∧
      ∀ row' ∈ (s.autoComplete c).campaigns[c]?, row'.totalShares = row.totalShares := by
  by_cases hc : c = c'
  · subst hc
    refine ⟨rfl, ?_⟩
    cases hrow : s.campaigns[c]? with
    | none => simp [Store.autoComplete, hrow] at hafter
    | some row =>
        have hstored : (s.autoComplete c).campaigns[c]? =
            some (if row.status = .published ∧ row.isFullyFunded = true then
              { row with status := .completed } else row) := by
          simp [Store.autoComplete, hrow]
        rw [hstored, Option.map_some, Option.some.injEq] at hafter
        rw [hrow, Option.map_some, ne_eq, Option.some.injEq] at hbefore
        refine ⟨row, rfl, ?_, ?_⟩
        · split_ifs at hafter with hfull
          · exact hfull.2
          · exact absurd hafter hbefore
        · intro row' hrow'
          rw [hstored, Option.mem_some_iff] at hrow'
          rw [← hrow']
          split_ifs <;> rfl
  · rw [Store.autoComplete_campaigns, List.getElem?_modify_ne _ _ hc] at hafter
    exact absurd hafter hbefore

/-- **Completion rule.** A sync and the completion test, with nobody waiting for
a payment: if the campaign is switched, it is sold. -/
theorem sold_of_completed {u : Store} {c c' : ℕ}
    (hbefore : u.campaigns[c']?.map Campaign.status ≠ some .completed)
    (hafter : ((u.sync c).autoComplete c).campaigns[c']?.map Campaign.status = some .completed)
    (hnone : (∀ row ∈ u.campaigns[c]?, row.totalShares ≤ takenShares u c) →
      pendingShares u.participations c = 0) :
    Sold ((u.sync c).autoComplete c) c' := by
  have hstatus : (u.sync c).campaigns[c']?.map Campaign.status =
      u.campaigns[c']?.map Campaign.status := by
    rw [← List.getElem?_map, ← List.getElem?_map, status_sync]
  rw [← hstatus] at hbefore
  obtain ⟨rfl, row, hrow, hfull, htotal⟩ := completed_autoComplete hbefore hafter
  obtain ⟨old, hold, rfl⟩ : ∃ old, u.campaigns[c]? = some old ∧
      old.withCounters (ledger u c) = row := by
    simpa [Store.sync] using hrow
  have htaken : old.totalShares ≤ takenShares u c := of_decide_eq_true hfull
  have hwait : pendingShares u.participations c = 0 := by
    apply hnone
    intro row' hrow'
    rw [hold, Option.mem_some_iff] at hrow'
    rwa [← hrow']
  have hmix := reservedShares_eq u.participations c
  intro row' hrow'
  rw [htotal row' hrow']
  have hexpand : takenShares u c =
      reservedShares u.participations c + externalShares u.fundings c := rfl
  have hgoal : old.totalShares ≤ paidShares u.participations c + externalShares u.fundings c := by
    omega
  exact hgoal

/-! ## Steps that may fill a campaign -/

/-- A payment or a funding under way: the campaign it belongs to, the
participation it pays, and the shares that are not counted yet. -/
structure Filling where
  campaign : ℕ
  paid : Option ℕ
  added : ℕ
deriving DecidableEq, Repr

def filling (s : Sys) : Act → Option Filling
  | .fin (.recordExternalFunding c _ shares _ _) => some ⟨c, none, shares.toNat⟩
  | a =>
      match attempts s a with
      | some (.succeed k) =>
          s.db.payments[k]?.bind fun pay =>
            if pay.status = .pending then
              s.db.participations[pay.participation]?.map fun p =>
                ⟨p.campaign, some pay.participation,
                  if p.status.isReserved = true then 0 else p.shareCount⟩
            else none
      | _ => none

/-- With these shares the campaign is full. -/
def FillsUp (s : Store) (f : Filling) : Prop :=
  ∀ row ∈ s.campaigns[f.campaign]?, row.totalShares ≤ row.fundedShares + f.added

/-- No other participation of the campaign awaits its payment. -/
def NobodyWaits (s : Store) (f : Filling) : Prop :=
  ∀ j < s.participations.length, f.paid ≠ some j →
    ∀ q ∈ s.participations[j]?, q.pendingIn f.campaign = false

/-- A step that fills a campaign finds no other reservation waiting in it. -/
def FilledBySales (s : Sys) (a : Act) : Prop :=
  ∀ f ∈ filling s a, FillsUp s.db f → NobodyWaits s.db f

instance (s : Sys) (a : Act) : Decidable (FilledBySales s a) :=
  inferInstanceAs (Decidable (∀ f ∈ filling s a,
    (∀ row ∈ s.db.campaigns[f.campaign]?, _ ≤ _) →
      ∀ j < s.db.participations.length, f.paid ≠ some j →
        ∀ q ∈ s.db.participations[j]?, q.pendingIn f.campaign = false))

/-- Nobody waits, and nobody new starts to wait. -/
theorem pendingShares_eq_zero {s t : Store} {f : Filling} (hwait : NobodyWaits s f)
    (hrows : ∀ (j : ℕ) (q : Participation), t.participations[j]? = some q →
      q.pendingIn f.campaign = true → s.participations[j]? = some q ∧ f.paid ≠ some j) :
    pendingShares t.participations f.campaign = 0 := by
  apply sumWhere_eq_zero
  intro q hq
  obtain ⟨j, hj⟩ := List.getElem?_of_mem hq
  cases hpend : q.pendingIn f.campaign with
  | false => rfl
  | true =>
      obtain ⟨hold, hne⟩ := hrows j q hj hpend
      rw [← hpend]
      exact hwait j (lt_length_of_getElem? hold) hne q hold

theorem fundedShares_eq {s : Store} (hsync : Synced s) {c : ℕ} {row : Campaign}
    (hrow : s.campaigns[c]? = some row) : row.fundedShares = takenShares s c := by
  have hcounters := hsync c row hrow
  have hp : row.purchasedShares = reservedShares s.participations c :=
    congrArg Counters.purchasedShares hcounters
  have he : row.externalFundedShares = externalShares s.fundings c :=
    congrArg Counters.externalFundedShares hcounters
  rw [Campaign.fundedShares, hp, he, takenShares]

/-- A successful verification. -/
theorem sold_of_succeed {s : Store} {k now : ℕ} {pay : Payment} {p : Participation}
    {gatewayStatus refId : String} {c : ℕ} (hsync : Synced s)
    (hp : s.participations[pay.participation]? = some p)
    (hok : ∀ f : Filling, f = ⟨p.campaign, some pay.participation,
      if p.status.isReserved = true then 0 else p.shareCount⟩ → FillsUp s f → NobodyWaits s f)
    (hbefore : s.campaigns[c]?.map Campaign.status ≠ some .completed)
    (hafter : (((s.succeeded k pay gatewayStatus refId now).sync p.campaign).autoComplete
      p.campaign).campaigns[c]?.map Campaign.status = some .completed) :
    Sold (((s.succeeded k pay gatewayStatus refId now).sync p.campaign).autoComplete
      p.campaign) c := by
  refine sold_of_completed hbefore hafter fun hfull => ?_
  have hwait := hok _ rfl ?_
  · apply pendingShares_eq_zero hwait
    intro j q hq hpend
    have hq' : (s.participations.modify pay.participation (·.withStatus .paid (some now)))[j]? =
        some q := hq
    by_cases hj : pay.participation = j
    · subst hj
      obtain rfl : p.withStatus .paid (some now) = q := by simpa [hp] using hq'
      simp [Participation.pendingIn, Participation.withStatus] at hpend
    · rw [List.getElem?_modify_ne _ _ hj] at hq'
      exact ⟨hq', by simpa using hj⟩
  · intro row hrow
    have htotal := hfull row hrow
    have hpay := reservedShares_pay_le (some now) hp p.campaign
    rw [fundedShares_eq hsync hrow]
    have hafter : takenShares (s.succeeded k pay gatewayStatus refId now) p.campaign =
        reservedShares (s.participations.modify pay.participation
          (·.withStatus .paid (some now))) p.campaign + externalShares s.fundings p.campaign := rfl
    rw [hafter] at htotal
    unfold takenShares
    cases hres : p.status.isReserved with
    | true =>
        simp only [hres, and_false, Bool.true_eq_false, if_false, if_true] at hpay ⊢
        omega
    | false =>
        simp only [hres, and_self, Bool.false_eq_true, if_true, if_false] at hpay ⊢
        omega

/-- An external funding. -/
theorem sold_of_funding {s : Store} {c c' : ℕ} {f : ExternalFunding} (hsync : Synced s)
    (hf : f.campaign = c)
    (hok : FillsUp s ⟨c, none, f.shares⟩ → NobodyWaits s ⟨c, none, f.shares⟩)
    (hbefore : s.campaigns[c']?.map Campaign.status ≠ some .completed)
    (hafter : (((s.addFunding f).sync c).autoComplete c).campaigns[c']?.map Campaign.status =
      some .completed) : Sold (((s.addFunding f).sync c).autoComplete c) c' := by
  refine sold_of_completed hbefore hafter fun hfull => ?_
  have hwait := hok ?_
  · apply pendingShares_eq_zero hwait
    intro j q hq hpend
    exact ⟨hq, by simp⟩
  · intro row hrow
    have htotal := hfull row hrow
    have hext := externalShares_append s.fundings f c
    rw [fundedShares_eq hsync hrow]
    have hafter : takenShares (s.addFunding f) c =
        reservedShares s.participations c + externalShares (s.fundings ++ [f]) c := rfl
    rw [hafter] at htotal
    rw [if_pos hf] at hext
    show row.totalShares ≤ takenShares s c + f.shares
    unfold takenShares
    omega

/-! ## Runs -/

/-- No other commit touches the status of a campaign. -/
theorem status_commit {s t : Store} {e : Effect} (h : Commit s e t)
    (hsucceed : ∀ k, e ≠ .succeed k) (hfund : e ≠ .fund) :
    t.campaigns.map Campaign.status = s.campaigns.map Campaign.status :=
  column_commit_of_ne (fun _ _ => rfl) h hsucceed hfund

theorem verdictEffect_ne_fund (k : ℕ) (result : PaymentVerifyResult) :
    verdictEffect k result ≠ .fund := by
  unfold verdictEffect
  split <;> nofun

/-- Only the funding service attempts a funding. -/
theorem attempts_fund {s : Sys} {a : Act} (h : attempts s a = some .fund) :
    ∃ c passedStatus shares amount cleanOk,
      a = .fin (.recordExternalFunding c passedStatus shares amount cleanOk) := by
  cases a with
  | fin a =>
      cases a with
      | recordExternalFunding c passedStatus shares amount cleanOk => exact ⟨_, _, _, _, _, rfl⟩
      | _ => cases h
  | pay a =>
      exfalso
      unfold attempts at h
      cases a with
      | persist i =>
          dsimp only at h
          split at h <;> cases h
      | release i =>
          dsimp only at h
          split at h <;> cases h
      | finalize i now hooksOk =>
          dsimp only at h
          split at h
          · split at h
            · cases h
            · exact verdictEffect_ne_fund _ _ (Option.some.inj h)
          · cases h
      | cancelLocked i now =>
          dsimp only at h
          split at h <;> cases h
      | expire i now =>
          dsimp only at h
          split at h <;> cases h
      | _ => cases h

/-- The funding service, when it does not leave the database alone. -/
theorem step_recordExternalFunding (s : Sys) (c : ℕ) (passedStatus : CampaignStatus) (shares : ℤ)
    (amount : Option ℤ) (cleanOk : Bool)
    (hmoved : (step s (.fin (.recordExternalFunding c passedStatus shares amount cleanOk))).db ≠
      s.db) :
    ∃ f : ExternalFunding, f.campaign = c ∧ f.shares = shares.toNat ∧
      (step s (.fin (.recordExternalFunding c passedStatus shares amount cleanOk))).db =
        ((s.db.addFunding f).sync c).autoComplete c := by
  rcases allOrNothing_transaction s
    (.fin (.recordExternalFunding c passedStatus shares amount cleanOk)) s.db with hsame | ⟨u, h⟩
  · exact absurd hsame hmoved
  · obtain ⟨k, hk⟩ := commits_of_drop h
    obtain ⟨f, row, hf, hshares, -, -, hdb⟩ := commits_recordExternalFunding hk
    exact ⟨f, hf, hshares, hdb⟩

theorem filling_of_succeed {s : Sys} {a : Act} {k : ℕ} {pay : Payment} {p : Participation}
    (hnot : ∀ c passedStatus shares amount cleanOk,
      a ≠ .fin (.recordExternalFunding c passedStatus shares amount cleanOk))
    (he : attempts s a = some (.succeed k)) (hpay : s.db.payments[k]? = some pay)
    (hpend : pay.status = .pending) (hp : s.db.participations[pay.participation]? = some p) :
    filling s a = some ⟨p.campaign, some pay.participation,
      if p.status.isReserved = true then 0 else p.shareCount⟩ := by
  unfold filling
  split
  · next c _ shares _ _ => exact absurd rfl (hnot _ _ _ _ _)
  · rw [he]
    simp [hpay, hpend, hp]

theorem sold_step {s : Sys} {a : Act} {c : ℕ} (hsound : Sound s) (hok : FilledBySales s a)
    (hswitch : completes s a c) : Sold (step s a).db c := by
  obtain ⟨hbefore, hafter⟩ := hswitch
  rcases step_db s a with hsame | ⟨e, he, hcommit⟩
  · rw [hsame] at hafter
    exact absurd hafter hbefore
  by_cases hfund : e = .fund
  · -- only the funding service attempts a funding; it names the campaign
    subst hfund
    obtain ⟨c₀, passedStatus, shares, amount, cleanOk, rfl⟩ := attempts_fund he
    obtain ⟨f, hf, hshares, hdb⟩ := step_recordExternalFunding s c₀ passedStatus shares amount
      cleanOk fun hsame => hbefore (hsame ▸ hafter)
    rw [hdb] at hafter ⊢
    refine sold_of_funding hsound.synced hf ?_ hbefore hafter
    rw [hshares]
    exact hok _ rfl
  by_cases hsucceed : ∃ k, e = .succeed k
  · obtain ⟨k, rfl⟩ := hsucceed
    have hnot : ∀ c₀ passedStatus shares amount cleanOk,
        a ≠ .fin (.recordExternalFunding c₀ passedStatus shares amount cleanOk) := by
      rintro c₀ passedStatus shares amount cleanOk rfl
      simp [attempts] at he
    generalize ht : (step s a).db = t at hcommit hafter ⊢
    cases hcommit with
    | @succeed k now pay p gatewayStatus refId hpay hp hpend =>
        refine sold_of_succeed hsound.synced hp ?_ hbefore hafter
        rintro f rfl
        apply hok
        rw [filling_of_succeed hnot he hpay hpend hp]
        rfl
  · -- no other commit moves the status of a campaign
    push Not at hsucceed
    have hstatus := status_commit hcommit hsucceed hfund
    rw [← List.getElem?_map, hstatus, List.getElem?_map] at hafter
    exact absurd hafter hbefore

/-- Whenever a step of the run switches a campaign to COMPLETED, it is sold. -/
def CompletedWhenSold (s : Sys) (acts : List Act) : Prop :=
  ∀ pre a, pre ++ [a] <+: acts →
    ∀ c, completes (run step s pre) a c → Sold (run step s (pre ++ [a])).db c

/-- **Completion means sold** in every run in which the payment or the funding
that fills a campaign finds no other reservation waiting in it. -/
theorem completed_when_sold (campaigns : List Campaign) (acts : List Act)
    (hok : Along step FilledBySales (start campaigns) acts) :
    CompletedWhenSold (start campaigns) acts := by
  intro pre a hpre c hswitch
  have halong := (along_append _ pre [a]).mp (along_earlier hok hpre)
  rw [run_append]
  exact sold_step (sound_run campaigns pre) halong.2.1 hswitch

/-- Two users reserve `n` and five of the ten shares; the first one pays. -/
def twoReservations (n : ℤ) (amount : ℤ) (between : List Act) : List Act :=
  [.pay (.initiate 0 1 n 5), .pay (.gateway 0 (some (gatewayYes "A1"))), .pay (.persist 0),
    .pay (.initiate 0 2 5 6)] ++ between ++
    [.pay (.callback "A1"), .pay (.provider 2 (some (confirms amount))),
      .pay (.finalize 2 9 true)]

/-- The second reservation has been given back when the first one is paid. -/
theorem completed_when_sold_released :
    CompletedWhenSold (start [tenShares]) (twoReservations 5 5000
      [.pay (.gateway 1 none), .pay (.release 1)]) :=
  completed_when_sold [tenShares] _ (by decide)

/-- The first payment completes the campaign while the other five shares are only
reserved. -/
theorem completed_while_reserved :
    ¬ CompletedWhenSold (start [tenShares]) (twoReservations 5 5000 []) := by
  intro h
  have hsold := h ((twoReservations 5 5000 []).take 6) (.pay (.finalize 2 9 true))
    (by decide) 0 (by decide)
  exact absurd hsold (by decide)

end SetadJang.Madadkar
