import SetadJang.Framework.Runs
import SetadJang.Madadkar.CampaignEdits
import SetadJang.Madadkar.Effects

/-!
# Campaign lifecycle

DRAFT, PUBLISHED, then COMPLETED or CLOSED for good.  The services that move the status
look at the instance their caller loaded some time ago and save one column, so the status
they overwrite need not be the one they looked at; `record_external_funding` locks the row,
but it too takes the status from the instance.  The lifecycle holds exactly in the runs
in which no service comes too late for what it looked at.
-/

namespace SetadJang.Madadkar

open SetadJang.Framework SetadJang.Framework.Txn

/-- A `Campaign` object in the memory of a caller. -/
structure LoadedCampaign where
  pk : ℕ
  row : Campaign
deriving DecidableEq, Repr

/-- `CampaignInvalidStateError`. -/
inductive CampaignStateError where
  | invalidState (message : String)
deriving DecidableEq, Repr

/-- The UPDATE of a save whose `update_fields` name the status. -/
@[simps]
def Store.saveStatus (s : Store) (c : ℕ) (status : CampaignStatus) : Store :=
  { s with campaigns := s.campaigns.modify c fun row => { row with status := status } }

/-! ## The services -/

/-- `campaign.status = …; campaign.save(update_fields=["status", …])`. -/
def LoadedCampaign.saveStatus (campaign : LoadedCampaign) (status : CampaignStatus) :
    Txn Store CampaignStateError LoadedCampaign := do
  modify fun s => s.saveStatus campaign.pk status
  return { campaign with row := { campaign.row with status := status } }

/-- `publish_campaign`. -/
def publishCampaign (campaign : LoadedCampaign) : Txn Store CampaignStateError LoadedCampaign :=
  atomic do
    require (campaign.row.status = .draft)
      (.invalidState ("فقط حرکت‌های پیش‌نویس قابل انتشار هستند. وضعیت فعلی: " ++
        campaign.row.status.display))
    campaign.saveStatus .published

/-- `close_campaign`. -/
def closeCampaign (campaign : LoadedCampaign) : Txn Store CampaignStateError LoadedCampaign :=
  atomic do
    require (campaign.row.status = .published)
      (.invalidState ("فقط حرکت‌های منتشرشده قابل بستن هستند. وضعیت فعلی: " ++
        campaign.row.status.display))
    campaign.saveStatus .closed

/-- `auto_complete_campaign_if_fully_funded`. -/
def autoCompleteCampaignIfFullyFunded (campaign : LoadedCampaign) :
    Txn Store CampaignStateError LoadedCampaign :=
  atomic do
    if campaign.row.status = .published ∧ campaign.row.isFullyFunded = true then
      campaign.saveStatus .completed
    else return campaign

/-- `close_campaign_due_to_deadline`. -/
def closeCampaignDueToDeadline (campaign : LoadedCampaign) (now : ℕ) :
    Txn Store CampaignStateError LoadedCampaign :=
  atomic do
    if campaign.row.status ≠ .published then return campaign
    else if campaign.row.hasDeadline = false ∨ campaign.row.deadline = none then return campaign
    else if campaign.row.deadline.any (fun d => decide (now < d)) = true then return campaign
    else campaign.saveStatus .closed

/-- The services that save a status. -/
inductive StatusService where
  | publish
  | close
  | autoComplete
  | closeDueToDeadline (now : ℕ)
deriving DecidableEq, Repr

def StatusService.call : StatusService → LoadedCampaign → Txn Store CampaignStateError LoadedCampaign
  | publish, campaign => publishCampaign campaign
  | close, campaign => closeCampaign campaign
  | autoComplete, campaign => autoCompleteCampaignIfFullyFunded campaign
  | closeDueToDeadline now, campaign => closeCampaignDueToDeadline campaign now

/-- The status a service saves when it is given this instance, if it saves one. -/
def StatusService.saves : StatusService → Campaign → Option CampaignStatus
  | publish, row => if row.status = .draft then some .published else none
  | close, row => if row.status = .published then some .closed else none
  | autoComplete, row =>
      if row.status = .published ∧ row.isFullyFunded = true then some .completed else none
  | closeDueToDeadline now, row =>
      if row.status = .published ∧ row.hasDeadline = true ∧ ∃ d ∈ row.deadline, d ≤ now then
        some .closed
      else none

theorem closeCampaignDueToDeadline_eq (campaign : LoadedCampaign) (now : ℕ) :
    closeCampaignDueToDeadline campaign now =
      if campaign.row.status = .published ∧ campaign.row.hasDeadline = true ∧
          ∃ d ∈ campaign.row.deadline, d ≤ now then
        atomic (campaign.saveStatus .closed)
      else atomic (return campaign) := by
  unfold closeCampaignDueToDeadline
  cases hflag : campaign.row.hasDeadline with
  | false => simp
  | true =>
      cases hdeadline : campaign.row.deadline with
      | none => simp
      | some d =>
          by_cases hlate : now < d
          · simp [hlate]
          · by_cases hstatus : campaign.row.status = .published <;>
              simp [hlate, hstatus, not_lt.mp hlate]

/-- What a service does to the store depends on its instance alone. -/
theorem after_call (service : StatusService) (campaign : LoadedCampaign) (s : Store) :
    after (service.call campaign) s =
      match service.saves campaign.row with
      | some status => s.saveStatus campaign.pk status
      | none => s := by
  cases service with
  | publish =>
      simp only [StatusService.call, StatusService.saves, publishCampaign, require]
      split_ifs <;> rfl
  | close =>
      simp only [StatusService.call, StatusService.saves, closeCampaign, require]
      split_ifs <;> rfl
  | autoComplete =>
      simp only [StatusService.call, StatusService.saves, autoCompleteCampaignIfFullyFunded]
      split_ifs <;> rfl
  | closeDueToDeadline now =>
      simp only [StatusService.call, StatusService.saves, closeCampaignDueToDeadline_eq]
      split_ifs <;> rfl

/-- The checks of `record_external_funding`: on the instance the status, on the locked row
the rest. -/
def FundingPasses (s : Store) (campaign : LoadedCampaign) (shares : ℤ) (amount : Option ℤ)
    (cleanOk : Bool) : Prop :=
  (campaign.row.status = .draft ∨ campaign.row.status = .published) ∧ 1 ≤ shares ∧
    (∀ a ∈ amount, 1 ≤ a) ∧ cleanOk = true ∧
    ∃ row ∈ s.campaigns[campaign.pk]?, row.isActive = true ∧ shares ≤ row.remainingShares ∧
      reservedShares s.participations campaign.pk ≤ row.totalShares

theorem commits_recordExternalFunding_passes {s t : Store} {campaign : LoadedCampaign} {shares : ℤ}
    {amount : Option ℤ} {cleanOk : Bool} {k : ℕ}
    (h : Commits (recordExternalFunding campaign.pk campaign.row.status shares amount cleanOk) s k t) :
    FundingPasses s campaign shares amount cleanOk := by
  simp only [recordExternalFunding, commits_atomic, commits_bind, commits_require,
    commits_getCampaign, commits_get, commits_modify, commits_pure,
    commits_syncCampaignCounters_iff] at h
  obtain ⟨_, _, ⟨hstatus, rfl⟩, _, _, ⟨hpos, rfl⟩, _, _, ⟨hamount, rfl⟩, row, _, ⟨⟨hrow, hact⟩, rfl⟩, _, _,
    ⟨hroom, rfl⟩, _, _, ⟨hclean, rfl⟩, _, _, ⟨rfl, rfl⟩, _, s₁, rfl, _, s₂, ⟨⟨row', hrow', hsold⟩, rfl⟩, -⟩ := h
  obtain rfl : row = row' := by simpa [hrow] using hrow'
  exact ⟨hstatus, hpos, hamount, hclean, row, hrow, hact, hroom, hsold⟩

theorem recordExternalFunding_commits {s : Store} {campaign : LoadedCampaign} {shares : ℤ}
    {amount : Option ℤ} {cleanOk : Bool} (h : FundingPasses s campaign shares amount cleanOk) :
    ∃ k t, Commits (recordExternalFunding campaign.pk campaign.row.status shares amount cleanOk) s k t := by
  obtain ⟨hstatus, hpos, hamount, hclean, row, hrow, hact, hroom, hsold⟩ := h
  simp only [recordExternalFunding, commits_atomic, commits_bind, commits_require,
    commits_getCampaign, commits_get, commits_modify, commits_pure,
    commits_syncCampaignCounters_iff]
  exact ⟨_, _, (), s, ⟨hstatus, rfl⟩, (), s, ⟨hpos, rfl⟩, (), s, ⟨hamount, rfl⟩, row, s, ⟨⟨hrow, hact⟩, rfl⟩,
    (), s, ⟨hroom, rfl⟩, (), s, ⟨hclean, rfl⟩, s, s, ⟨rfl, rfl⟩, (), _, rfl, (), _,
    ⟨⟨row, hrow, hsold⟩, rfl⟩, (), _, rfl, rfl, rfl⟩

/-! ## Interleaved callers -/

structure LifecycleSys where
  db : Store
  loaded : List LoadedCampaign
deriving DecidableEq, Repr

inductive LifecycleAct where
  /-- A caller reads the campaign `c`. -/
  | load (c : ℕ)
  | save (i : ℕ) (service : StatusService)
  | recordExternalFunding (i : ℕ) (shares : ℤ) (amount : Option ℤ) (cleanOk : Bool)
deriving DecidableEq, Repr

/-- One step; `i` says whose instance a service is called with. -/
def lifecycleStep (s : LifecycleSys) : LifecycleAct → LifecycleSys
  | .load c =>
      match s.db.campaigns[c]? with
      | some row => { s with loaded := s.loaded ++ [⟨c, row⟩] }
      | none => s
  | .save i service =>
      match s.loaded[i]? with
      | some campaign =>
          { db := after (service.call campaign) s.db
            loaded :=
              match (exec (service.call campaign) s.db).1 with
              | .ok campaign' => s.loaded.set i campaign'
              | .error _ => s.loaded }
      | none => s
  | .recordExternalFunding i shares amount cleanOk =>
      match s.loaded[i]? with
      | some campaign =>
          { s with
            db := after (recordExternalFunding campaign.pk campaign.row.status shares amount
              cleanOk) s.db }
      | none => s

/-! ## The law -/

/-- The moves of the status that the lifecycle has. -/
inductive CampaignMove : CampaignStatus → CampaignStatus → Prop
  | stay (status : CampaignStatus) : CampaignMove status status
  | publish : CampaignMove .draft .published
  | complete : CampaignMove .published .completed
  | close : CampaignMove .published .closed

def StatusesMove (s s' : Store) : Prop :=
  Evolves (fun row row' : Campaign => CampaignMove row.status row'.status) s.campaigns s'.campaigns

def fundingsOf (s : Store) (c : ℕ) : List ExternalFunding := s.fundings.filter fun f => f.campaign == c

/-- A campaign that is COMPLETED or CLOSED keeps its status and its fundings. -/
def KeepsEnded (s s' : Store) : Prop :=
  ∀ (c : ℕ) (row : Campaign), s.campaigns[c]? = some row → row.isTerminal = true →
    (∃ row', s'.campaigns[c]? = some row' ∧ row'.status = row.status) ∧
      fundingsOf s' c = fundingsOf s c

/-- The lifecycle along a run: the moves of every step, and what an ended campaign keeps
between any two moments. -/
structure CampaignLifecycle (s : LifecycleSys) (acts : List LifecycleAct) : Prop where
  moves : ∀ pre a, pre ++ [a] <+: acts →
    StatusesMove (run lifecycleStep s pre).db (run lifecycleStep s (pre ++ [a])).db
  final : ∀ pre post, pre <+: post → post <+: acts →
    KeepsEnded (run lifecycleStep s pre).db (run lifecycleStep s post).db

/-! ## Coming in time -/

/-- A service that is about to save a status, or to record a funding, finds the campaign in a
state that allows it: for a save the status it looked at or the one it saves, for a funding
DRAFT or PUBLISHED. -/
def InTime (s : LifecycleSys) : LifecycleAct → Prop
  | .load _ => True
  | .save i service =>
      ∀ campaign ∈ s.loaded[i]?, ∀ status ∈ service.saves campaign.row,
        ∀ row ∈ s.db.campaigns[campaign.pk]?,
          row.status = campaign.row.status ∨ row.status = status
  | .recordExternalFunding i shares amount cleanOk =>
      ∀ campaign ∈ s.loaded[i]?, FundingPasses s.db campaign shares amount cleanOk →
        ∀ row ∈ s.db.campaigns[campaign.pk]?, row.status = .draft ∨ row.status = .published

/-- A service saves what follows the status it looked at. -/
theorem move_of_saves {service : StatusService} {copy : Campaign} {status : CampaignStatus}
    (h : service.saves copy = some status) :
    CampaignMove copy.status status ∧ copy.status ≠ status := by
  cases service <;>
    simp only [StatusService.saves, Option.ite_none_right_eq_some, Option.some.injEq] at h
  case publish =>
    obtain ⟨hcopy, rfl⟩ := h
    exact hcopy ▸ ⟨.publish, nofun⟩
  case close =>
    obtain ⟨hcopy, rfl⟩ := h
    exact hcopy ▸ ⟨.close, nofun⟩
  case autoComplete =>
    obtain ⟨⟨hcopy, -⟩, rfl⟩ := h
    exact hcopy ▸ ⟨.complete, nofun⟩
  case closeDueToDeadline =>
    obtain ⟨⟨hcopy, -⟩, rfl⟩ := h
    exact hcopy ▸ ⟨.close, nofun⟩

/-- A status has one predecessor. -/
theorem move_iff_of_saves {service : StatusService} {copy : Campaign} {status : CampaignStatus}
    (h : service.saves copy = some status) (stored : CampaignStatus) :
    CampaignMove stored status ↔ stored = copy.status ∨ stored = status := by
  obtain ⟨hmove, hne⟩ := move_of_saves h
  generalize copy.status = seen at hmove hne
  constructor
  · intro hstored
    cases hstored <;> cases hmove <;> first | exact Or.inl rfl | exact Or.inr rfl | exact absurd rfl hne
  · rintro (rfl | rfl)
    · exact hmove
    · exact .stay stored

/-! ## One step -/

theorem statusesMove_refl (s : Store) : StatusesMove s s :=
  evolves_refl (fun row => .stay row.status) s.campaigns

/-- A save moves the statuses along the lifecycle exactly when it comes in time. -/
theorem statusesMove_saveStatus {s : Store} {c : ℕ} {status : CampaignStatus} :
    StatusesMove s (s.saveStatus c status) ↔
      ∀ row ∈ s.campaigns[c]?, CampaignMove row.status status := by
  constructor
  · intro h row hrow
    obtain ⟨row', hrow', hmove⟩ := h c row hrow
    obtain rfl : { row with status := status } = row' := by
      simpa [Option.mem_def.mp hrow] using hrow'
    exact hmove
  · intro h
    exact evolves_modify (fun row => .stay row.status) fun row hrow => h row hrow

/-- A funding moves a status at most to its completion. -/
theorem statusesMove_fund (s : Store) (f : ExternalFunding) (c : ℕ) :
    StatusesMove s (((s.addFunding f).sync c).autoComplete c) := by
  simp only [StatusesMove, Store.autoComplete_campaigns, Store.sync_campaigns,
    Store.addFunding_campaigns, List.modify_modify_eq]
  refine evolves_modify (fun row => .stay row.status) fun row _ => ?_
  simp only [Function.comp_apply]
  split_ifs with hfull
  · exact hfull.1 ▸ .complete
  · exact .stay row.status

theorem move_of_isTerminal {row row' : Campaign} (hmove : CampaignMove row.status row'.status)
    (hended : row.isTerminal = true) : row'.status = row.status := by
  generalize hstatus : row.status = status at hmove
  generalize row'.status = status' at hmove
  cases hmove with
  | stay => rfl
  | publish | complete | close => simp [Campaign.isTerminal, hstatus] at hended

theorem isTerminal_eq_false_iff {row : Campaign} :
    row.isTerminal = false ↔ row.status = .draft ∨ row.status = .published := by
  cases hstatus : row.status <;> simp [Campaign.isTerminal, hstatus]

/-- Moves along the lifecycle that keep the fundings of ended campaigns keep what has ended. -/
theorem keepsEnded_of_moves {s s' : Store} (hmoves : StatusesMove s s')
    (hfundings : ∀ (c : ℕ) (row : Campaign), s.campaigns[c]? = some row → row.isTerminal = true →
      fundingsOf s' c = fundingsOf s c) : KeepsEnded s s' := by
  intro c row hrow hended
  obtain ⟨row', hrow', hmove⟩ := hmoves c row hrow
  exact ⟨⟨row', hrow', move_of_isTerminal hmove hended⟩, hfundings c row hrow hended⟩

theorem keepsEnded_refl (s : Store) : KeepsEnded s s :=
  fun _ row hrow _ => ⟨⟨row, hrow, rfl⟩, rfl⟩

theorem keepsEnded_trans (s t u : Store) (hst : KeepsEnded s t) (htu : KeepsEnded t u) :
    KeepsEnded s u := by
  intro c row hrow hended
  obtain ⟨⟨row', hrow', hstatus⟩, hfundings⟩ := hst c row hrow hended
  have hended' : row'.isTerminal = true := by rw [← hended]; simp [Campaign.isTerminal, hstatus]
  obtain ⟨⟨row'', hrow'', hstatus'⟩, hfundings'⟩ := htu c row' hrow' hended'
  exact ⟨⟨row'', hrow'', hstatus'.trans hstatus⟩, hfundings'.trans hfundings⟩

/-- A funding that is recorded leaves the ended campaigns alone exactly when its own has not
ended. -/
theorem keepsEnded_fund {s : Store} {f : ExternalFunding} :
    KeepsEnded s (((s.addFunding f).sync f.campaign).autoComplete f.campaign) ↔
      ∀ row ∈ s.campaigns[f.campaign]?, row.status = .draft ∨ row.status = .published := by
  constructor
  · intro h row hrow
    by_contra hnot
    rw [← isTerminal_eq_false_iff, Bool.not_eq_false] at hnot
    obtain ⟨-, hsame⟩ := h f.campaign row hrow hnot
    simp [fundingsOf] at hsame
  · intro h
    refine keepsEnded_of_moves (statusesMove_fund s f f.campaign) fun c row hrow hended => ?_
    have hne : f.campaign ≠ c := by
      rintro rfl
      have hopen := isTerminal_eq_false_iff.mpr (h row hrow)
      rw [hended] at hopen
      cases hopen
    simp [fundingsOf, hne]

/-- **Step lemma.** A step comes in time exactly when it moves the statuses along the
lifecycle and leaves what has ended alone. -/
theorem inTime_iff (s : LifecycleSys) (a : LifecycleAct) :
    InTime s a ↔
      StatusesMove s.db (lifecycleStep s a).db ∧ KeepsEnded s.db (lifecycleStep s a).db := by
  have hidle : ∀ {p : Prop}, p → (p ↔ StatusesMove s.db s.db ∧ KeepsEnded s.db s.db) := fun hp =>
    iff_of_true hp ⟨statusesMove_refl s.db, keepsEnded_refl s.db⟩
  cases a with
  | load c =>
      cases hrow : s.db.campaigns[c]? <;> simpa [InTime, lifecycleStep, hrow] using hidle trivial
  | save i service =>
      cases hcampaign : s.loaded[i]? with
      | none => simpa [InTime, lifecycleStep, hcampaign] using hidle trivial
      | some campaign =>
          cases hsaves : service.saves campaign.row with
          | none =>
              simpa [InTime, lifecycleStep, hcampaign, after_call, hsaves] using hidle trivial
          | some status =>
              have hmoves : StatusesMove s.db (s.db.saveStatus campaign.pk status) ↔
                  ∀ row ∈ s.db.campaigns[campaign.pk]?,
                    row.status = campaign.row.status ∨ row.status = status := by
                simp only [statusesMove_saveStatus, move_iff_of_saves hsaves]
              simp only [InTime, lifecycleStep, hcampaign, after_call, hsaves, Option.mem_def,
                Option.some.injEq, forall_eq']
              constructor
              · intro h
                have hmove := hmoves.mpr h
                exact ⟨hmove, keepsEnded_of_moves hmove fun _ _ _ _ => rfl⟩
              · rintro ⟨hmove, -⟩
                exact hmoves.mp hmove
  | recordExternalFunding i shares amount cleanOk =>
      cases hcampaign : s.loaded[i]? with
      | none => simpa [InTime, lifecycleStep, hcampaign] using hidle trivial
      | some campaign =>
          simp only [InTime, lifecycleStep, hcampaign, Option.mem_def, Option.some.injEq, forall_eq']
          by_cases hpass : FundingPasses s.db campaign shares amount cleanOk
          · obtain ⟨k, t, hcommit⟩ := recordExternalFunding_commits hpass
            obtain ⟨f, row, hf, -, -, -, rfl⟩ := commits_recordExternalFunding hcommit
            rw [hcommit.after_eq, ← hf, keepsEnded_fund]
            simp only [hpass, true_imp_iff, Option.mem_def]
            exact (and_iff_right (statusesMove_fund s.db f f.campaign)).symm
          · have hsame : after (recordExternalFunding campaign.pk campaign.row.status shares amount
                cleanOk) s.db = s.db :=
              (allOrNothing_atomic _).after_eq_self fun k t hcommit =>
                hpass (commits_recordExternalFunding_passes hcommit)
            rw [hsame]
            exact hidle fun h => absurd h hpass

/-! ## Runs -/

/-- **The lifecycle holds exactly in the runs that come in time.** -/
theorem campaign_lifecycle_iff (db : Store) (acts : List LifecycleAct) :
    CampaignLifecycle ⟨db, []⟩ acts ↔ Along lifecycleStep InTime ⟨db, []⟩ acts := by
  generalize (⟨db, []⟩ : LifecycleSys) = s
  have hsteps : Along lifecycleStep InTime s acts ↔
      Along lifecycleStep (fun s a => StatusesMove s.db (lifecycleStep s a).db ∧
        KeepsEnded s.db (lifecycleStep s a).db) s acts :=
    along_congr (I := fun _ => True) (fun s a _ => inTime_iff s a) (fun _ _ _ _ => trivial)
      trivial acts
  rw [hsteps]
  constructor
  · intro h
    refine (along_steps acts).mpr fun pre a hpre => ?_
    have hmoves := h.moves pre a hpre
    have hfinal := h.final pre (pre ++ [a]) (List.prefix_append pre [a]) hpre
    rw [run_append] at hmoves hfinal
    exact ⟨hmoves, hfinal⟩
  · intro h
    obtain ⟨hmoves, hkeeps⟩ := along_and.mp h
    constructor
    · intro pre a hpre
      rw [run_append]
      exact (along_steps acts).mp hmoves pre a hpre
    · exact (along_related (R := fun s s' : LifecycleSys => KeepsEnded s.db s'.db)
        (fun s => keepsEnded_refl s.db) (fun s t u => keepsEnded_trans s.db t.db u.db) acts).mp hkeeps

/-- A campaign of ten shares as `create_campaign` makes it. -/
def draftCampaign : Campaign := { tenShares with status := .draft }

/-- Two admins load a draft; the first publishes and closes it, the second records a funding
and publishes it. -/
def twoAdmins : List LifecycleAct :=
  [.load 0, .load 0, .save 0 .publish, .save 0 .close,
    .recordExternalFunding 1 4 none true, .save 1 .publish]

/-- The closed campaign gets a funding and is published again. -/
theorem closed_campaign_reopened :
    ¬ CampaignLifecycle ⟨(start [draftCampaign]).db, []⟩ twoAdmins := by
  intro h
  obtain ⟨-, hfundings⟩ := h.final (twoAdmins.take 4) twoAdmins
    (List.take_prefix 4 twoAdmins) List.prefix_rfl 0 { draftCampaign with status := .closed }
    (by decide) rfl
  exact absurd hfundings (by decide)

end SetadJang.Madadkar
