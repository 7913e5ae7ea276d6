import SetadJang.Framework.Runs
import SetadJang.KindnessWall.Model

/-!
# The expiry task beside the services

`expire_due_listings` selects the keys of the due listings and later updates them by key alone.
Between the two statements a service may save a row that was selected.  The update touches due
listings only, in every run, exactly when no service call succeeds on a listing that a running
task has selected; a call that leaves the listing published and due is harmless.
-/

namespace SetadJang.KindnessWall

open SetadJang.Framework

/-! ## Runs -/

/-- A request that has loaded its listing, or a task between its select and its update. -/
inductive Process where
  | loaded (pk : ℕ) (listing : KindnessListing)
  | selected (now : ℤ) (ids : List ℕ)
  | done
deriving DecidableEq, Repr

structure WallSys where
  wall : Wall
  processes : List Process
deriving DecidableEq, Repr

inductive WallAct where
  | load (pk : ℕ)
  | call (i : ℕ) (now : ℤ) (service : ListingService)
  | select (now : ℤ) (order : List ℕ)
  | update (i : ℕ)
deriving DecidableEq, Repr

/-- One statement.  A view loads through the default manager; a task that finds nothing due
returns at once. -/
def wallSysStep (ttlDays : ℤ) (s : WallSys) : WallAct → WallSys
  | .load pk =>
      match s.wall.listings[pk]? with
      | some row => if row.isActive then ⟨s.wall, s.processes ++ [.loaded pk row]⟩ else s
      | none => s
  | .call i now service =>
      match s.processes[i]? with
      | some (.loaded pk listing) =>
          match service.call ttlDays now listing with
          | .ok save => ⟨s.wall.saveListing pk save, s.processes.set i .done⟩
          | .error _ => ⟨s.wall, s.processes.set i .done⟩
      | _ => s
  | .select now order =>
      if s.wall.staleIds now order = [] then s
      else ⟨s.wall, s.processes ++ [.selected now (s.wall.staleIds now order)]⟩
  | .update i =>
      match s.processes[i]? with
      | some (.selected _ ids) => ⟨s.wall.expireIds ids, s.processes.set i .done⟩
      | _ => s

def WallSys.start (wall : Wall) : WallSys := ⟨wall, []⟩

/-- The update of process `i` changes the status of due listings only. -/
def ExpiresOnlyDue (ttlDays : ℤ) (s : WallSys) (i : ℕ) : Prop :=
  ∀ now ids, s.processes[i]? = some (.selected now ids) →
    ∀ (pk : ℕ) (row row' : KindnessListing), s.wall.listings[pk]? = some row →
      (wallSysStep ttlDays s (.update i)).wall.listings[pk]? = some row' →
      row.status ≠ .expired → row'.status = .expired → row.due now = true

/-- The call leaves the listing published with an expiry not later than `clock`. -/
def ListingService.LeavesDue (ttlDays now : ℤ) (listing : KindnessListing) (clock : ℤ) :
    ListingService → Prop
  | .publish => publishedExpiry ttlDays now listing ≤ clock
  | .renew => freshExpiry ttlDays now ≤ clock
  | _ => False

/-- No call succeeds on a listing that a running task has selected. -/
def Undisturbed (ttlDays : ℤ) (s : WallSys) : WallAct → Prop
  | .call i now service =>
      ∀ pk listing, s.processes[i]? = some (.loaded pk listing) →
        (∃ save, service.call ttlDays now listing = .ok save) →
        ∀ clock ids, .selected clock ids ∈ s.processes → pk ∈ ids →
          service.LeavesDue ttlDays now listing clock
  | _ => True

/-! ## What a call leaves -/

/-- With a positive lifetime and a clock that does not go back no call leaves a listing due. -/
theorem not_leavesDue {ttlDays now clock : ℤ} (httl : 0 < ttlDays) (hclock : clock ≤ now)
    (listing : KindnessListing) (service : ListingService) :
    ¬ service.LeavesDue ttlDays now listing clock := by
  have hfresh : clock < freshExpiry ttlDays now := by
    unfold freshExpiry
    omega
  cases service with
  | publish =>
      show ¬ publishedExpiry ttlDays now listing ≤ clock
      unfold publishedExpiry
      split
      · omega
      · split_ifs <;> omega
  | renew => exact not_le.mpr hfresh
  | fulfill note => exact not_false
  | archive => exact not_false
  | draft => exact not_false

/-- Whether the update may change the row. -/
def KindnessListing.mayExpire (clock : ℤ) (row : KindnessListing) : Prop :=
  row.status = .expired ∨ row.due clock = true

theorem mayExpire_published {clock expiry : ℤ} {row : KindnessListing}
    (hstatus : row.status = .published) (hexpiry : row.expiresAt = some expiry) :
    row.mayExpire clock ↔ expiry ≤ clock := by
  simp [KindnessListing.mayExpire, KindnessListing.due, hstatus, hexpiry]

theorem not_mayExpire {clock : ℤ} {row : KindnessListing} (hpublished : row.status ≠ .published)
    (hexpired : row.status ≠ .expired) : ¬ row.mayExpire clock := by
  simp [KindnessListing.mayExpire, KindnessListing.due, hpublished, hexpired]

theorem call_mayExpire_iff {ttlDays now clock : ℤ} {listing : KindnessListing}
    {service : ListingService} {save : Save}
    (hcall : service.call ttlDays now listing = .ok save) (row : KindnessListing) :
    (save.listing.write save.updateFields row).mayExpire clock ↔
      service.LeavesDue ttlDays now listing clock := by
  obtain ⟨hstatus, hexpiry⟩ := call_written hcall row
  cases service with
  | publish => exact mayExpire_published hstatus (hexpiry _ rfl)
  | renew => exact mayExpire_published hstatus (hexpiry _ rfl)
  | _ =>
      refine iff_of_false ?_ not_false
      apply not_mayExpire <;> simp [hstatus, ListingService.target]

/-! ## Running tasks -/

/-- Every listing that a running task has selected is still due, or expired by another task. -/
def Selected (s : WallSys) : Prop :=
  ∀ clock ids, .selected clock ids ∈ s.processes → ∀ pk ∈ ids, ∀ row,
    s.wall.listings[pk]? = some row → row.mayExpire clock

/-- A loaded listing has its row. -/
def Loaded (s : WallSys) : Prop :=
  ∀ pk listing, .loaded pk listing ∈ s.processes → pk < s.wall.listings.length

theorem expiresOnlyDue_iff {ttlDays : ℤ} {s : WallSys} :
    (∀ i, ExpiresOnlyDue ttlDays s i) ↔ Selected s := by
  constructor
  · intro h clock ids hmem pk hpk row hrow
    obtain ⟨i, hi⟩ := List.getElem?_of_mem hmem
    by_cases hexpired : row.status = .expired
    · exact Or.inl hexpired
    · right
      refine h i clock ids hi pk row { row with status := .expired } hrow ?_ hexpired rfl
      simp only [wallSysStep, hi, getElem?_expireIds, hrow, Option.map_some, if_pos hpk]
  · intro h i now ids hi pk row row' hrow hrow' hold hnew
    simp only [wallSysStep, hi, getElem?_expireIds, hrow, Option.map_some,
      Option.some.injEq] at hrow'
    subst hrow'
    split at hnew
    · rename_i hpk
      exact (h now ids (List.mem_of_getElem? hi) pk hpk row hrow).resolve_left hold
    · exact absurd hnew hold

/-- A process that ends leaves the others. -/
theorem mem_of_mem_set_done {ps : List Process} {i : ℕ} {p : Process}
    (h : p ∈ ps.set i .done) (hp : p ≠ .done) : p ∈ ps := by
  rcases List.mem_or_eq_of_mem_set h with hold | hnew
  · exact hold
  · exact absurd hnew hp

theorem getElem?_saveListing {s : Wall} {save : Save} {k pk : ℕ} {row : KindnessListing}
    (hrow : (s.saveListing k save).listings[pk]? = some row) :
    (k = pk ∧ ∃ old, s.listings[k]? = some old ∧
      save.listing.write save.updateFields old = row) ∨ (k ≠ pk ∧ s.listings[pk]? = some row) :=
  getElem?_modify_cases hrow

theorem selected_concat {s : WallSys} {p : Process} (hs : Selected s)
    (hp : ∀ clock ids, p = .selected clock ids → ∀ pk ∈ ids, ∀ row,
      s.wall.listings[pk]? = some row → row.mayExpire clock) :
    Selected ⟨s.wall, s.processes ++ [p]⟩ := by
  intro clock ids hmem pk hpk row hrow
  rcases List.mem_append.mp hmem with hold | hnew
  · exact hs clock ids hold pk hpk row hrow
  · exact hp clock ids (List.mem_singleton.mp hnew).symm pk hpk row hrow

/-- Among the selected listings a successful call may only touch those that it leaves due. -/
theorem selected_call_iff {ttlDays now : ℤ} {s : WallSys} {i pk : ℕ} {listing : KindnessListing}
    {service : ListingService} {save : Save} (hs : Selected s) (hloaded : Loaded s)
    (hi : s.processes[i]? = some (.loaded pk listing))
    (hcall : service.call ttlDays now listing = .ok save) :
    Selected ⟨s.wall.saveListing pk save, s.processes.set i .done⟩ ↔
      ∀ clock ids, .selected clock ids ∈ s.processes → pk ∈ ids →
        service.LeavesDue ttlDays now listing clock := by
  constructor
  · intro h clock ids hmem hpk
    have hstays : Process.selected clock ids ∈ s.processes.set i .done := by
      obtain ⟨j, hj⟩ := List.getElem?_of_mem hmem
      have hne : i ≠ j := by
        rintro rfl
        rw [hi] at hj
        cases hj
      exact List.mem_of_getElem? ((List.getElem?_set_ne hne).trans hj)
    have hpresent := hloaded pk listing (List.mem_of_getElem? hi)
    rw [← call_mayExpire_iff hcall s.wall.listings[pk]]
    apply h clock ids hstays pk hpk
    show (s.wall.listings.modify pk _)[pk]? = _
    rw [List.getElem?_modify_eq, List.getElem?_eq_getElem hpresent]
    rfl
  · intro h clock ids hmem k hk row hrow
    have hselected := mem_of_mem_set_done hmem (by simp)
    rcases getElem?_saveListing hrow with ⟨rfl, old, -, rfl⟩ | ⟨-, hrow⟩
    · exact (call_mayExpire_iff hcall old).mpr (h clock ids hselected hk)
    · exact hs clock ids hselected k hk row hrow

theorem selected_step_iff {ttlDays : ℤ} {s : WallSys} (hs : Selected s) (hloaded : Loaded s)
    (act : WallAct) :
    Selected (wallSysStep ttlDays s act) ↔ Undisturbed ttlDays s act := by
  cases act with
  | load pk =>
      refine iff_of_true ?_ trivial
      simp only [wallSysStep]
      split
      · split
        · exact selected_concat hs fun clock ids h => by cases h
        · exact hs
      · exact hs
  | call i now service =>
      simp only [wallSysStep, Undisturbed]
      split
      · rename_i pk listing hi
        split
        · rename_i save hcall
          rw [selected_call_iff hs hloaded hi hcall]
          constructor
          · rintro h pk' listing' hi' -
            obtain ⟨rfl, rfl⟩ : pk = pk' ∧ listing = listing' := by
              rw [hi] at hi'
              simpa using hi'
            exact h
          · intro h
            exact h pk listing hi ⟨save, hcall⟩
        · rename_i e hcall
          refine iff_of_true ?_ ?_
          · intro clock ids hmem
            exact hs clock ids (mem_of_mem_set_done hmem (by simp))
          · rintro pk' listing' hi' ⟨save, hsave⟩
            obtain ⟨rfl, rfl⟩ : pk = pk' ∧ listing = listing' := by
              rw [hi] at hi'
              simpa using hi'
            rw [hcall] at hsave
            cases hsave
      · rename_i hnone
        exact iff_of_true hs fun pk listing hi => absurd hi (hnone pk listing)
  | select now order =>
      refine iff_of_true ?_ trivial
      simp only [wallSysStep]
      split
      · exact hs
      · -- what has just been selected is due
        refine selected_concat hs ?_
        rintro clock ids ⟨⟩ pk hpk row hrow
        have hdue := (List.mem_filter.mp (List.mem_of_mem_take hpk)).2
        rw [hrow, Option.any_some, Bool.and_eq_true] at hdue
        exact Or.inr hdue.2
  | update i =>
      refine iff_of_true ?_ trivial
      simp only [wallSysStep]
      split
      · rename_i now ids hi
        intro clock ids' hmem pk hpk row hrow
        rw [getElem?_expireIds, Option.map_eq_some_iff] at hrow
        obtain ⟨old, hold, rfl⟩ := hrow
        split
        · exact Or.inl rfl
        · exact hs clock ids' (mem_of_mem_set_done hmem (by simp)) pk hpk old hold
      · exact hs

theorem loaded_step {ttlDays : ℤ} {s : WallSys} (h : Loaded s) (act : WallAct) :
    Loaded (wallSysStep ttlDays s act) := by
  cases act with
  | load pk =>
      simp only [wallSysStep]
      split
      · rename_i row hrow
        split
        · intro k listing hmem
          rcases List.mem_append.mp hmem with hold | hnew
          · exact h k listing hold
          · obtain ⟨rfl, rfl⟩ := Process.loaded.inj (List.mem_singleton.mp hnew)
            exact (List.getElem?_eq_some_iff.mp hrow).1
        · exact h
      · exact h
  | call i now service =>
      simp only [wallSysStep]
      split
      · split
        · intro k listing hmem
          show k < (s.wall.listings.modify _ _).length
          rw [List.length_modify]
          exact h k listing (mem_of_mem_set_done hmem (by simp))
        · intro k listing hmem
          exact h k listing (mem_of_mem_set_done hmem (by simp))
      · exact h
  | select now order =>
      simp only [wallSysStep]
      split
      · exact h
      · intro k listing hmem
        rcases List.mem_append.mp hmem with hold | hnew
        · exact h k listing hold
        · cases List.mem_singleton.mp hnew
  | update i =>
      simp only [wallSysStep]
      split
      · intro k listing hmem
        show k < (s.wall.listings.mapIdx _).length
        rw [List.length_mapIdx]
        exact h k listing (mem_of_mem_set_done hmem (by simp))
      · exact h

/-! ## Runs of the task -/

/-- **The task expires due listings only**, at every point of a run, exactly when in that run no
service call succeeds on a listing between the select that picked it and the update. -/
theorem expiry_touches_only_due_iff (ttlDays : ℤ) (wall : Wall) (acts : List WallAct) :
    (∀ pre, pre <+: acts → ∀ i,
      ExpiresOnlyDue ttlDays (run (wallSysStep ttlDays) (.start wall) pre) i) ↔
    Along (wallSysStep ttlDays) (Undisturbed ttlDays) (.start wall) acts := by
  have hselected : Selected (.start wall) := by
    intro clock ids hmem
    cases hmem
  have hloaded : Loaded (.start wall) := by
    intro pk listing hmem
    cases hmem
  simp only [expiresOnlyDue_iff]
  rw [← along_states hselected]
  refine along_congr (I := fun s => Selected s ∧ Loaded s) ?_ ?_ ⟨hselected, hloaded⟩ acts
  · intro s act hs
    exact selected_step_iff hs.1 hs.2 act
  · intro s act hs hok
    exact ⟨hok, loaded_step hs.2 act⟩

/-- A listing on the wall whose expiry has come at 10. -/
def dueListing : KindnessListing :=
  ⟨some 0, "یک پتو", "برای زمستان", { phone := "09121234567" }, .published, some 0, some 5, none,
    "", 0, true⟩

/-- A task selects the listing and a renewal is committed; the update is still to come. -/
def renewalRace : List WallAct := [.select 10 [0], .load 0, .call 1 10 .renew]

theorem renewed_listing_is_expired :
    ¬ ∀ pre, pre <+: renewalRace ++ [.update 0] → ∀ i,
      ExpiresOnlyDue 45 (run (wallSysStep 45) (.start ⟨[⟨true⟩], [dueListing]⟩) pre) i := by
  intro h
  have hrace := h renewalRace (List.prefix_append _ _) 0 10 [0] (by decide +kernel) 0
    { dueListing with expiresAt := some 3888000000010, renewCount := 1 }
    { dueListing with status := .expired, expiresAt := some 3888000000010, renewCount := 1 }
    (by decide +kernel) (by decide +kernel) (by decide) rfl
  revert hrace
  decide

end SetadJang.KindnessWall
