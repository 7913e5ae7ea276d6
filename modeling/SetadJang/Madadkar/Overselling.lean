import SetadJang.Madadkar.Counters

/-!
# Overselling

The shares of a campaign that are taken, online or offline, must not exceed its
total.  The cap is checked where shares are reserved and where an external
funding is recorded.  A successful verification does not check it: it may pay a
participation whose shares were released in the meantime, and the table
constraint only looks at the purchased shares.
-/

namespace SetadJang.Madadkar

open SetadJang.Framework SetadJang.Framework.Txn

/-- Shares taken by PENDING_PAYMENT and PAID participations and by RECORDED
external fundings. -/
def takenShares (s : Store) (c : ℕ) : ℕ :=
  reservedShares s.participations c + externalShares s.fundings c

/-- No campaign has more shares taken than it has. -/
def NoOversell (s : Store) : Prop :=
  ∀ (c : ℕ) (row : Campaign), s.campaigns[c]? = some row → takenShares s c ≤ row.totalShares

instance (s : Store) : Decidable (NoOversell s) :=
  decidable_of_iff
    (∀ c : Fin s.campaigns.length, takenShares s c ≤ s.campaigns[c].totalShares) <| by
  constructor
  · intro h c row hrow
    obtain ⟨hc, rfl⟩ := List.getElem?_eq_some_iff.mp hrow
    exact h ⟨c, hc⟩
  · intro h c
    exact h c _ (List.getElem?_eq_getElem c.isLt)

/-! ## How the taken shares move -/

/-- No commit edits the total of a campaign. -/
theorem totalShares_commit {s t : Store} {e : Effect} (h : Commit s e t) :
    t.campaigns.map Campaign.totalShares = s.campaigns.map Campaign.totalShares :=
  column_commit (fun _ _ => rfl) (fun _ => rfl) h

/-- It is enough to compare the taken shares with the totals of before. -/
theorem NoOversell.of_taken {s t : Store} (hs : NoOversell s)
    (htotal : t.campaigns.map Campaign.totalShares = s.campaigns.map Campaign.totalShares)
    (htaken : ∀ (c : ℕ) (row : Campaign), s.campaigns[c]? = some row →
      takenShares s c ≤ row.totalShares → takenShares t c ≤ row.totalShares) :
    NoOversell t := by
  intro c row hrow
  have hsame : (s.campaigns.map Campaign.totalShares)[c]? = some row.totalShares := by
    rw [← htotal, List.getElem?_map, hrow]
    rfl
  rw [List.getElem?_map] at hsame
  obtain ⟨old, hold, heq⟩ := Option.map_eq_some_iff.mp hsame
  rw [← heq]
  exact htaken c old hold (hs c old hold)

/-- A new status exchanges the participation's part of the reserved shares. -/
theorem reservedShares_save {ps : List Participation} {pid : ℕ} {p : Participation}
    (status : ParticipationStatus) (paidAt : Option ℕ) (hp : ps[pid]? = some p) (c : ℕ) :
    reservedShares (ps.modify pid (·.withStatus status paidAt)) c +
        (if p.campaign = c ∧ p.status.isReserved = true then p.shareCount else 0) =
      reservedShares ps c +
        (if p.campaign = c ∧ status.isReserved = true then p.shareCount else 0) := by
  have hbal := sumWhere_modify (Participation.reservedIn c) Participation.shareCount
    (·.withStatus status paidAt) hp
  have hold : p.reservedIn c = true ↔ p.campaign = c ∧ p.status.isReserved = true := by
    simp [Participation.reservedIn]
  have hnew : (p.withStatus status paidAt).reservedIn c = true ↔
      p.campaign = c ∧ status.isReserved = true := by
    simp [Participation.reservedIn, Participation.withStatus]
  simp only [hold, hnew] at hbal
  exact hbal

/-- Releasing a participation never adds to the reserved shares. -/
theorem reservedShares_release_le (ps : List Participation) (pid : ℕ)
    {status : ParticipationStatus} (paidAt : Option ℕ) (hout : status.isReserved = false)
    (c : ℕ) :
    reservedShares (ps.modify pid (·.withStatus status paidAt)) c ≤ reservedShares ps c := by
  cases hp : ps[pid]? with
  | none => rw [List.modify_eq_self (by simpa using hp)]
  | some p =>
      have hbal := reservedShares_save status paidAt hp c
      simp only [hout, Bool.false_eq_true, and_false, if_false] at hbal
      omega

/-- Paying a participation that is not counted yet adds its shares to its
campaign; otherwise nothing moves. -/
theorem reservedShares_pay_le {ps : List Participation} {pid : ℕ} {p : Participation}
    (paidAt : Option ℕ) (hp : ps[pid]? = some p) (c : ℕ) :
    reservedShares (ps.modify pid (·.withStatus .paid paidAt)) c ≤
      reservedShares ps c +
        if p.campaign = c ∧ p.status.isReserved = false then p.shareCount else 0 := by
  have hbal := reservedShares_save .paid paidAt hp c
  have hpaid : ParticipationStatus.paid.isReserved = true := rfl
  by_cases hc : p.campaign = c
  · cases hst : p.status.isReserved with
    | true =>
        simp only [hc, hst, hpaid, and_self, if_true] at hbal
        omega
    | false =>
        simp only [hc, hst, hpaid, and_self, if_true, Bool.false_eq_true, and_false,
          if_false] at hbal
        simp only [hc, and_self, if_true]
        omega
  · simp only [hc, false_and, if_false] at hbal ⊢
    omega

theorem externalShares_append (fs : List ExternalFunding) (f : ExternalFunding) (c : ℕ) :
    externalShares (fs ++ [f]) c ≤
      externalShares fs c + if f.campaign = c then f.shares else 0 := by
  unfold externalShares
  rw [sumWhere_append]
  by_cases hc : f.campaign = c
  · simp only [hc, if_true]
    split_ifs <;> omega
  · simp [ExternalFunding.recordedIn, hc]

theorem externalShares_void_le (fs : List ExternalFunding) (k c : ℕ) :
    externalShares (fs.modify k fun f => { f with status := .voided }) c ≤
      externalShares fs c := by
  unfold externalShares
  cases hf : fs[k]? with
  | none => rw [List.modify_eq_self (by simpa using hf)]
  | some f =>
      have hbal := sumWhere_modify (ExternalFunding.recordedIn c) ExternalFunding.shares
        (fun f => { f with status := .voided }) hf
      have hout : ExternalFunding.recordedIn c { f with status := .voided } = false := by
        simp [ExternalFunding.recordedIn]
      rw [hout] at hbal
      simp only [Bool.false_eq_true, if_false] at hbal
      omega

/-- A locked row with stored counters knows how many shares are free. -/
theorem free_of_remaining {s : Store} (hsync : Synced s) {c n : ℕ} {row : Campaign}
    (hrow : s.campaigns[c]? = some row) (hroom : n ≤ row.remainingShares)
    (hcap : takenShares s c ≤ row.totalShares) : takenShares s c + n ≤ row.totalShares := by
  have hcounters := hsync c row hrow
  have hp : row.purchasedShares = reservedShares s.participations c :=
    congrArg Counters.purchasedShares hcounters
  have he : row.externalFundedShares = externalShares s.fundings c :=
    congrArg Counters.externalFundedShares hcounters
  simp only [Campaign.remainingShares, Campaign.fundedShares, hp, he] at hroom
  unfold takenShares at hcap ⊢
  omega

/-! ## Commits -/

section

variable {s t : Store} (hs : NoOversell s)
  (htotal : t.campaigns.map Campaign.totalShares = s.campaigns.map Campaign.totalShares)

include hs htotal

theorem NoOversell.unmoved (hps : t.participations = s.participations)
    (hfs : t.fundings = s.fundings) : NoOversell t := by
  refine hs.of_taken htotal fun c row _ hcap => ?_
  unfold takenShares at hcap ⊢
  rw [hps, hfs]
  exact hcap

theorem NoOversell.released {pid : ℕ} {status : ParticipationStatus} {paidAt : Option ℕ}
    (hout : status.isReserved = false)
    (hps : t.participations = s.participations.modify pid (·.withStatus status paidAt))
    (hfs : t.fundings = s.fundings) : NoOversell t := by
  refine hs.of_taken htotal fun c row _ hcap => ?_
  have hle := reservedShares_release_le s.participations pid paidAt hout c
  unfold takenShares at hcap ⊢
  rw [hps, hfs]
  exact (Nat.add_le_add_right hle _).trans hcap

theorem NoOversell.reserved (hsync : Synced s) {p : Participation} {row : Campaign}
    (hrow : s.campaigns[p.campaign]? = some row) (hroom : p.shareCount ≤ row.remainingShares)
    (hps : t.participations = s.participations ++ [p]) (hfs : t.fundings = s.fundings) :
    NoOversell t := by
  refine hs.of_taken htotal fun c row' hrow' hcap => ?_
  unfold takenShares
  rw [hps, hfs, reservedShares, sumWhere_append]
  by_cases hc : p.campaign = c
  · subst hc
    rw [hrow] at hrow'
    cases hrow'
    have hfree := free_of_remaining hsync hrow hroom hcap
    simp only [takenShares, reservedShares] at hfree
    split_ifs <;> omega
  · simp only [takenShares, reservedShares] at hcap
    simp only [Participation.reservedIn, hc, beq_iff_eq, Bool.and_eq_true,
      false_and, if_false]
    omega

theorem NoOversell.paid {pid : ℕ} {p : Participation} {paidAt : Option ℕ}
    (hp : s.participations[pid]? = some p)
    (hroom : p.status.isReserved = true ∨ ∀ row, s.campaigns[p.campaign]? = some row →
      takenShares s p.campaign + p.shareCount ≤ row.totalShares)
    (hps : t.participations = s.participations.modify pid (·.withStatus .paid paidAt))
    (hfs : t.fundings = s.fundings) : NoOversell t := by
  refine hs.of_taken htotal fun c row hrow hcap => ?_
  have hle := reservedShares_pay_le paidAt hp c
  unfold takenShares at hcap ⊢
  rw [hps, hfs]
  split_ifs at hle with hc
  · obtain ⟨rfl, hnot⟩ := hc
    rcases hroom with hcounted | hroom
    · simp [hnot] at hcounted
    · have hfits := hroom row hrow
      unfold takenShares at hfits
      omega
  · omega

theorem NoOversell.funded (hsync : Synced s) {f : ExternalFunding} {row : Campaign}
    (hrow : s.campaigns[f.campaign]? = some row) (hroom : f.shares ≤ row.remainingShares)
    (hps : t.participations = s.participations) (hfs : t.fundings = s.fundings ++ [f]) :
    NoOversell t := by
  refine hs.of_taken htotal fun c row' hrow' hcap => ?_
  have hle := externalShares_append s.fundings f c
  unfold takenShares
  rw [hps, hfs]
  split_ifs at hle with hc
  · subst hc
    rw [hrow] at hrow'
    cases hrow'
    have hfree := free_of_remaining hsync hrow hroom hcap
    unfold takenShares at hfree
    omega
  · unfold takenShares at hcap
    omega

theorem NoOversell.voided {k : ℕ} (hps : t.participations = s.participations)
    (hfs : t.fundings = s.fundings.modify k fun f => { f with status := .voided }) :
    NoOversell t := by
  refine hs.of_taken htotal fun c row _ hcap => ?_
  have hle := externalShares_void_le s.fundings k c
  unfold takenShares at hcap ⊢
  rw [hps, hfs]
  omega

end

/-- **Step lemma.** Every commit keeps the cap, if a success finds its
participation counted or enough free shares. -/
theorem noOversell_commit {s t : Store} {e : Effect} (hsync : Synced s) (hs : NoOversell s)
    (hok : ∀ k pay p, e = .succeed k → s.payments[k]? = some pay → pay.status = .pending →
      s.participations[pay.participation]? = some p → p.status.isReserved = true ∨
        ∀ row, s.campaigns[p.campaign]? = some row →
          takenShares s p.campaign + p.shareCount ≤ row.totalShares)
    (h : Commit s e t) : NoOversell t := by
  have htotal := totalShares_commit h
  cases h with
  | reserve hrow hroom hpos => exact hs.reserved htotal hsync hrow hroom rfl rfl
  | release hp hpend => exact hs.released htotal rfl rfl rfl
  | persist hpid hnew hpend => exact hs.unmoved htotal rfl rfl
  | mismatch hpay hp => exact hs.released htotal rfl rfl rfl
  | reject hpay hp hpend => exact hs.released htotal rfl rfl rfl
  | succeed hpay hp hpend =>
      exact hs.paid htotal hp (hok _ _ _ rfl hpay hpend hp) rfl rfl
  | expire hnone => exact hs.released htotal rfl rfl rfl
  | expireWith hpay hpid hpend => exact hs.released htotal rfl rfl rfl
  | fund hrow hroom => exact hs.funded htotal hsync hrow hroom rfl rfl
  | voidFund hf => exact hs.voided htotal rfl rfl
  | requestRefund hpay hr hpend => exact hs.unmoved htotal rfl rfl
  | reviewRefund hr hpend hpay hstatus => exact hs.unmoved htotal rfl rfl
  | completeRefund hr happ hpay hp hpart => exact hs.unmoved htotal rfl rfl
  | completeFullRefund hr happ hpay hp hfull => exact hs.released htotal rfl rfl rfl
  | createAdjustment hpend => exact hs.unmoved htotal rfl rfl
  | reviewAdjustment ha hpend hstatus => exact hs.unmoved htotal rfl rfl
  | applyAdjustment ha happ hnone => exact hs.unmoved htotal rfl rfl
  | applyPaymentAdjustment ha happ hk hpay => exact hs.unmoved htotal rfl rfl

/-! ## Runs -/

/-- The participation that a successful finalisation is about to pay. -/
def aboutToPay (s : Sys) (a : Act) : Option Participation :=
  match attempts s a with
  | some (.succeed k) =>
      s.db.payments[k]?.bind fun pay =>
        if pay.status = .pending then s.db.participations[pay.participation]? else none
  | _ => none

/-- A successful finalisation finds its shares still counted, or free. -/
def FindsRoom (s : Sys) (a : Act) : Prop :=
  ∀ p ∈ aboutToPay s a, p.status.isReserved = true ∨
    ∀ row ∈ s.db.campaigns[p.campaign]?, takenShares s.db p.campaign + p.shareCount ≤ row.totalShares

instance (s : Sys) (a : Act) : Decidable (FindsRoom s a) :=
  inferInstanceAs (Decidable (∀ p ∈ aboutToPay s a, _))

theorem noOversell_step {s : Sys} {a : Act} (hsound : Sound s) (hs : NoOversell s.db)
    (hok : FindsRoom s a) : NoOversell (step s a).db := by
  rcases step_db s a with hsame | ⟨e, he, hcommit⟩
  · rw [hsame]
    exact hs
  · refine noOversell_commit hsound.synced hs ?_ hcommit
    rintro k pay p rfl hpay hpend hp
    exact hok p (by simp [aboutToPay, he, hpay, hpend, hp])

/-- **No overselling** in every state of a run whose successful finalisations
find their participation still counted or enough free shares. -/
theorem no_overselling (campaigns : List Campaign) (acts : List Act)
    (hok : Along step FindsRoom (start campaigns) acts) :
    ∀ pre, pre <+: acts → NoOversell (run step (start campaigns) pre).db := by
  intro pre hpre
  have hboth : Sound (run step (start campaigns) pre) ∧
      NoOversell (run step (start campaigns) pre).db := by
    refine invariant_along (I := fun s => Sound s ∧ NoOversell s.db) ?_ ?_ (along_earlier hok hpre)
    · rintro s a ⟨hsound, hs⟩ hroom
      exact ⟨sound_step hsound a, noOversell_step hsound hs hroom⟩
    · refine ⟨sound_start campaigns, ?_⟩
      intro c row hrow
      simp [takenShares, start, reservedShares, externalShares]
  exact hboth.2

/-- All ten shares are reserved; `between` happens while the gateway answers;
then the payment is stored and verified. -/
def slowGateway (between : List Act) (verifier : ℕ) : List Act :=
  [.pay (.initiate 0 1 10 5), .pay (.gateway 0 (some (gatewayYes "A1")))] ++ between ++
    [.pay (.persist 0), .fin (.recordExternalFunding 0 .published 10 none true),
      .pay (.callback "A1"), .pay (.provider verifier (some (confirms 10000))),
      .pay (.finalize verifier 40 true)]

/-- Without an expiry in between, the funding is refused and the shares are paid. -/
theorem no_overselling_plain :
    NoOversell (run step (start [tenShares]) (slowGateway [] 1)).db :=
  no_overselling [tenShares] (slowGateway [] 1) (by decide) _ (List.prefix_refl _)

/-- The reservation expires while the gateway answers, the freed shares are
funded from outside, and the late verification pays them a second time. -/
theorem late_success_oversells :
    ¬ NoOversell (run step (start [tenShares])
      (slowGateway [.pay (.loadStale 0 30), .pay (.expire 1 31)] 2)).db := by
  decide

end SetadJang.Madadkar
