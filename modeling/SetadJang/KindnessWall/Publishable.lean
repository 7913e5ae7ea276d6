import SetadJang.Framework.Runs
import SetadJang.KindnessWall.Edits

/-!
# What is published is publishable

`_assert_publishable` looks at the texts, the contacts and that there is a category, not at
whether the category is active; a renewal looks at nothing.  The deactivation of a category has a
guard, which soft-deleted listings escape.  A run keeps every published listing publishable and in
an active category exactly when none of its steps uses one of these three gaps.
-/

namespace SetadJang.KindnessWall

open SetadJang.Framework

/-! ## Sequential runs -/

inductive WallCall where
  | service (pk : ℕ) (now : ℤ) (service : ListingService)
  | expireDueListings (now : ℤ) (order : List ℕ)
  | setCategoryActive (c : ℕ) (active : Bool)
  | patch (pk : ℕ) (patch : ListingPatch)
  | form (pk : ℕ) (form : ListingForm)

/-- An edit of a draft or an expired listing. -/
def Wall.edit (s : Wall) (pk : ℕ) (edited : KindnessListing → Except InputErrors KindnessListing) :
    Wall :=
  match s.listings[pk]? with
  | none => s
  | some row =>
      if row.status = .draft ∨ row.status = .expired then
        match edited row with
        | .ok row' => { s with listings := s.listings.set pk row' }
        | .error _ => s
      else s

/-- A call on the instance that was just loaded; a raise leaves the wall as it was. -/
def wallStep (ttlDays : ℤ) (s : Wall) : WallCall → Wall
  | .service pk now service =>
      match s.listings[pk]? with
      | none => s
      | some row =>
          match service.call ttlDays now row with
          | .ok save => s.saveListing pk save
          | .error _ => s
  | .expireDueListings now order => s.expireDueListings now order
  | .setCategoryActive c active =>
      match s.setCategoryActive c active with
      | .ok s' => s'
      | .error _ => s
  | .patch pk patch => s.edit pk patch.apply
  | .form pk form => s.edit pk form.apply

/-- The category of the listing is there and active. -/
def Wall.inActiveCategory (s : Wall) (listing : KindnessListing) : Bool :=
  listing.categoryId.any fun c => s.categories[c]?.any KindnessCategory.isActive

/-- Fit for the wall: publishable and in an active category. -/
def Wall.fit (s : Wall) (listing : KindnessListing) : Bool :=
  listing.publishable && s.inActiveCategory listing

def PublishedIsFit (s : Wall) : Prop :=
  ∀ listing ∈ s.listings, listing.status = .published → s.fit listing = true

instance (s : Wall) : Decidable (PublishedIsFit s) :=
  inferInstanceAs (Decidable (∀ listing ∈ s.listings, listing.status = .published → _))

/-- A published listing of the category that the guard sees. -/
def Wall.guarded (s : Wall) (c : ℕ) : Bool :=
  s.listings.any fun row =>
    row.isActive && row.categoryId == some c && row.status == .published

/-- The steps that leave no gap: a publication into an active category, a renewal of a listing
that is fit, a deactivation while no published listing is hidden from the guard. -/
def LeavesNoGap (s : Wall) : WallCall → Prop
  | .service pk _ .publish =>
      ∀ row ∈ s.listings[pk]?, row.publishable = true → s.inActiveCategory row = true
  | .service pk _ .renew =>
      ∀ row ∈ s.listings[pk]?, (row.status = .published ∨ row.status = .expired) →
        row.renewCount < 32767 → s.fit row = true
  | .setCategoryActive c false =>
      s.guarded c = false → ∀ row ∈ s.listings, row.status = .published → row.categoryId ≠ some c
  | _ => True

/-! ## What a step leaves -/

/-- The services that publish. -/
def ListingService.publishes : ListingService → Bool
  | .publish | .renew => true
  | _ => false

theorem call_status {ttlDays now : ℤ} {listing row : KindnessListing} {service : ListingService}
    {save : Save} (hcall : service.call ttlDays now listing = .ok save) :
    (save.listing.write save.updateFields row).status = .published ↔ service.publishes = true := by
  rw [(call_written hcall row).1]
  cases service <;> simp [ListingService.target, ListingService.publishes]

theorem publish_ok_iff {ttlDays now : ℤ} {row : KindnessListing} :
    (∃ save, ListingService.call ttlDays now row .publish = .ok save) ↔
      row.publishable = true := by
  rw [← assertPublishable_ok_iff]
  simp only [ListingService.call, publishListing, except_bind_ok_iff, Save.fits_ok_iff]
  constructor
  · rintro ⟨save, u, hassert, -⟩
    exact hassert
  · intro hassert
    exact ⟨_, (), hassert, by simp, by simp, rfl⟩

theorem renew_ok_iff {ttlDays now : ℤ} {row : KindnessListing} :
    (∃ save, ListingService.call ttlDays now row .renew = .ok save) ↔
      (row.status = .published ∨ row.status = .expired) ∧ row.renewCount < 32767 := by
  simp only [ListingService.call, renewListing, checkThat_bind_ok_iff, Save.fits_ok_iff]
  constructor
  · rintro ⟨save, hstatus, hcount, -⟩
    exact ⟨hstatus, hcount (by simp)⟩
  · rintro ⟨hstatus, hcount⟩
    exact ⟨_, hstatus, fun _ => hcount, by simp, rfl⟩

/-- After a service call the wall is fit exactly when the row it published, if any, is. -/
theorem fit_saveListing_iff {s : Wall} {pk : ℕ} {row : KindnessListing} {save : Save}
    (hs : PublishedIsFit s) (hrow : s.listings[pk]? = some row) :
    PublishedIsFit (s.saveListing pk save) ↔
      ((save.listing.write save.updateFields row).status = .published → s.fit row = true) := by
  constructor
  · intro h hstatus
    refine h (save.listing.write save.updateFields row) ?_ hstatus
    apply List.mem_of_getElem? (i := pk)
    show (s.listings.modify pk _)[pk]? = _
    rw [List.getElem?_modify_eq, hrow]
    rfl
  · intro h listing hmem hstatus
    obtain ⟨k, hk⟩ := List.getElem?_of_mem hmem
    rcases getElem?_modify_cases hk with ⟨rfl, old, hold, rfl⟩ | ⟨-, hsame⟩
    · obtain rfl := Option.some.inj (hrow.symm.trans hold)
      exact h hstatus
    · exact hs listing (List.mem_of_getElem? hsame) hstatus

theorem fit_service_iff {ttlDays now : ℤ} {s : Wall} (hs : PublishedIsFit s) (pk : ℕ)
    (service : ListingService) :
    PublishedIsFit (wallStep ttlDays s (.service pk now service)) ↔
      ∀ row ∈ s.listings[pk]?, service.publishes = true →
        (∃ save, service.call ttlDays now row = .ok save) → s.fit row = true := by
  simp only [wallStep]
  cases hrow : s.listings[pk]? with
  | none => exact iff_of_true hs fun row h => by cases h
  | some row =>
      simp only [Option.mem_some_iff, forall_eq']
      cases hcall : service.call ttlDays now row with
      | ok save =>
          show PublishedIsFit (s.saveListing pk save) ↔ _
          rw [fit_saveListing_iff hs hrow, call_status hcall]
          exact ⟨fun h hp _ => h hp, fun h hp => h hp ⟨save, rfl⟩⟩
      | error e => exact iff_of_true hs fun _ h => by obtain ⟨save, h⟩ := h; cases h

/-- Under a category that was switched a listing lies in an active one when the switch says so. -/
theorem inActiveCategory_set {s : Wall} {c : ℕ} {category category' : KindnessCategory}
    (hc : s.categories[c]? = some category) (row : KindnessListing) :
    Wall.inActiveCategory { s with categories := s.categories.set c category' } row =
      if row.categoryId = some c then category'.isActive else s.inActiveCategory row := by
  have hlt := (List.getElem?_eq_some_iff.mp hc).1
  unfold Wall.inActiveCategory
  cases hrow : row.categoryId with
  | none => simp
  | some k =>
      by_cases hk : k = c
      · subst hk
        simp [hlt]
      · simp [hk, List.getElem?_set_ne (Ne.symm hk)]

/-- A fit listing has its category. -/
theorem category_of_fit {s : Wall} {row : KindnessListing} {c : ℕ} (h : s.fit row = true)
    (hc : row.categoryId = some c) : s.categories[c]? ≠ none := by
  intro hnone
  rw [Wall.fit, Wall.inActiveCategory, hc, Option.any_some, hnone, Bool.and_eq_true] at h
  cases h.2

theorem fit_setCategoryActive_iff {s : Wall} (hs : PublishedIsFit s) (ttlDays : ℤ) (c : ℕ)
    (active : Bool) : PublishedIsFit (wallStep ttlDays s (.setCategoryActive c active)) ↔
      LeavesNoGap s (.setCategoryActive c active) := by
  simp only [wallStep, Wall.setCategoryActive]
  cases hc : s.categories[c]? with
  | none =>
      refine iff_of_true hs ?_
      cases active with
      | true => trivial
      | false =>
          intro _ row hrow hstatus hcategory
          exact category_of_fit (hs row hrow hstatus) hcategory hc
  | some category =>
      cases active with
      | true =>
          refine iff_of_true ?_ trivial
          intro row hrow hstatus
          have hfit := hs row hrow hstatus
          rw [Wall.fit, Bool.and_eq_true] at hfit ⊢
          refine ⟨hfit.1, ?_⟩
          show Wall.inActiveCategory { s with categories := s.categories.set c _ } row = true
          rw [inActiveCategory_set hc]
          split
          · rfl
          · exact hfit.2
      | false =>
          show PublishedIsFit (match (if !false = true ∧ s.guarded c = true then _ else _ :
            Except KindnessError Wall) with | .ok s' => s' | .error _ => s) ↔ _
          cases hguard : s.guarded c with
          | true => exact iff_of_true hs fun h => by rw [hguard] at h; cases h
          | false =>
              rw [if_neg (by simp)]
              constructor
              · intro h _ row hrow hstatus hcategory
                have hfit := h row hrow hstatus
                rw [Wall.fit, Bool.and_eq_true, inActiveCategory_set hc, if_pos hcategory] at hfit
                cases hfit.2
              · intro h row hrow hstatus
                have hfit := hs row hrow hstatus
                rw [Wall.fit, Bool.and_eq_true] at hfit ⊢
                rw [inActiveCategory_set hc, if_neg (h hguard row hrow hstatus)]
                exact hfit

/-- Expiry publishes nothing. -/
theorem fit_expireDueListings {s : Wall} (hs : PublishedIsFit s) (now : ℤ) (order : List ℕ) :
    PublishedIsFit (s.expireDueListings now order) := by
  intro row hrow hstatus
  obtain ⟨pk, hpk⟩ := List.getElem?_of_mem hrow
  rw [Wall.expireDueListings, getElem?_expireIds, Option.map_eq_some_iff] at hpk
  obtain ⟨old, hold, rfl⟩ := hpk
  by_cases hids : pk ∈ s.staleIds now order
  · rw [if_pos hids] at hstatus
    cases hstatus
  · rw [if_neg hids] at hstatus ⊢
    exact hs old (List.mem_of_getElem? hold) hstatus

/-- An edit of a draft or an expired listing publishes nothing. -/
theorem fit_edit {s : Wall} (hs : PublishedIsFit s) (pk : ℕ)
    {edited : KindnessListing → Except InputErrors KindnessListing}
    (hsame : ∀ row row', edited row = .ok row' → SameButTexts row row') :
    PublishedIsFit (s.edit pk edited) := by
  unfold Wall.edit
  split
  · exact hs
  · split
    · rename_i row _ hopen
      split
      · rename_i row' hedited
        intro listing hmem hstatus
        rcases List.mem_or_eq_of_mem_set hmem with hold | rfl
        · exact hs listing hold hstatus
        · rw [hsame row listing hedited] at hstatus
          rcases hopen with hdraft | hexpired
          · exact absurd (hdraft.symm.trans hstatus) (by decide)
          · exact absurd (hexpired.symm.trans hstatus) (by decide)
      · exact hs
    · exact hs

theorem fit_step_iff {ttlDays : ℤ} {s : Wall} (hs : PublishedIsFit s) (call : WallCall) :
    PublishedIsFit (wallStep ttlDays s call) ↔ LeavesNoGap s call := by
  cases call with
  | service pk now service =>
      rw [fit_service_iff hs]
      cases service with
      | publish =>
          refine forall₂_congr fun row _ => ?_
          rw [publish_ok_iff, Wall.fit, Bool.and_eq_true]
          exact ⟨fun h hp => (h rfl hp).2, fun h _ hp => ⟨hp, h hp⟩⟩
      | renew =>
          refine forall₂_congr fun row _ => ?_
          rw [renew_ok_iff, and_imp]
          exact ⟨fun h => h rfl, fun h _ => h⟩
      | fulfill note => exact iff_of_true (fun row _ h => by cases h) trivial
      | archive => exact iff_of_true (fun row _ h => by cases h) trivial
      | draft => exact iff_of_true (fun row _ h => by cases h) trivial
  | expireDueListings now order => exact iff_of_true (fit_expireDueListings hs now order) trivial
  | setCategoryActive c active => exact fit_setCategoryActive_iff hs ttlDays c active
  | patch pk patch =>
      exact iff_of_true (fit_edit hs pk fun row row' h => ListingPatch.apply_same h) trivial
  | form pk form =>
      exact iff_of_true (fit_edit hs pk fun row row' h => ListingForm.apply_same h) trivial

/-! ## Runs -/

/-- **Published means publishable**, in every state of a run, exactly when no step of the run
publishes into an inactive category, renews a listing that is not fit, or deactivates a category
whose published listings the guard does not see. -/
theorem published_is_fit_iff (ttlDays : ℤ) {s : Wall} (hs : PublishedIsFit s)
    (calls : List WallCall) :
    (∀ pre, pre <+: calls → PublishedIsFit (run (wallStep ttlDays) s pre)) ↔
      Along (wallStep ttlDays) LeavesNoGap s calls := by
  rw [← along_states hs]
  apply along_congr (I := PublishedIsFit) _ _ hs
  · intro s call hs
    exact fit_step_iff hs call
  · intro s call _ hok
    exact hok

instance decidableLeavesNoGap (s : Wall) : (call : WallCall) → Decidable (LeavesNoGap s call)
  | .service _ _ .publish => inferInstanceAs (Decidable (∀ row ∈ _, _ → _))
  | .service _ _ .renew => inferInstanceAs (Decidable (∀ row ∈ _, _ → _ → _))
  | .service _ _ (.fulfill _) => isTrue trivial
  | .service _ _ .archive => isTrue trivial
  | .service _ _ .draft => isTrue trivial
  | .setCategoryActive _ true => isTrue trivial
  | .setCategoryActive _ false => inferInstanceAs (Decidable (_ → ∀ row ∈ _, _ → _))
  | .expireDueListings _ _ => isTrue trivial
  | .patch _ _ => isTrue trivial
  | .form _ _ => isTrue trivial

/-- A draft in an active category. -/
def draftWall : Wall where
  categories := [⟨true⟩]
  listings := [⟨some 0, "یک پتو", "برای زمستان", { phone := "09121234567" }, .draft, none, none,
    none, "", 0, true⟩]

theorem published_is_fit_draft :
    PublishedIsFit (run (wallStep 45) draftWall
      [.service 0 10 .publish, .setCategoryActive 0 false, .service 0 20 .renew]) :=
  (published_is_fit_iff 45 (by decide) _).mpr (by decide +kernel) _ List.prefix_rfl

/-- A draft published into a category that was deactivated, and an expired listing renewed after
its contact was blanked. -/
theorem published_is_unfit :
    (PublishedIsFit draftWall ∧ ¬ PublishedIsFit (run (wallStep 45) draftWall
      [.setCategoryActive 0 false, .service 0 10 .publish])) ∧
    ¬ PublishedIsFit (run (wallStep 45) draftWall
      [.service 0 10 .publish, .expireDueListings 3888000000010 [0],
        .patch 0 { contacts := fun field => if field = .phone then some "" else none },
        .service 0 3888000000020 .renew]) := by
  decide +kernel

end SetadJang.KindnessWall
