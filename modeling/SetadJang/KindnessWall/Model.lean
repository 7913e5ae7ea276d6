import SetadJang.Framework.Rows
import SetadJang.Framework.Txn
import SetadJang.KindnessWall.Contacts

/-!
# The wall of kindness

Categories, listings and the services of `apps/kindness_wall/services.py` that move a listing.
A service works on an instance that was loaded earlier; `save(update_fields=…)` writes the named
columns of that instance and no other.  Instants are in microseconds.
-/

namespace SetadJang.KindnessWall

open SetadJang.Framework

/-! ## Rows -/

inductive ListingStatus where
  | draft
  | published
  | fulfilled
  | expired
  | archived
deriving DecidableEq, Repr

structure KindnessCategory where
  isActive : Bool
deriving DecidableEq, Repr

/-- The listing.  The column of the category is not null; an instance may lack one. -/
structure KindnessListing where
  categoryId : Option ℕ
  title : String
  description : String
  contacts : Contacts
  status : ListingStatus
  publishedAt : Option ℤ
  expiresAt : Option ℤ
  fulfilledAt : Option ℤ
  fulfillmentNote : String
  renewCount : ℕ
  isActive : Bool
deriving DecidableEq, Repr

structure Wall where
  categories : List KindnessCategory
  listings : List KindnessListing
deriving DecidableEq, Repr

/-- The errors of the services, and what the database refuses. -/
inductive KindnessError where
  | service (message : String)
  | listingState (message : String)
  | categoryGuard (message : String)
  | dataError
  | doesNotExist
deriving DecidableEq, Repr

/-! ## Saving columns -/

inductive ListingColumn where
  | status
  | publishedAt
  | expiresAt
  | fulfilledAt
  | fulfillmentNote
  | renewCount
deriving DecidableEq, Repr

/-- `save(update_fields=…)`: the row takes these columns from the instance. -/
def KindnessListing.write (fields : List ListingColumn) (listing row : KindnessListing) :
    KindnessListing :=
  { row with
    status := if .status ∈ fields then listing.status else row.status
    publishedAt := if .publishedAt ∈ fields then listing.publishedAt else row.publishedAt
    expiresAt := if .expiresAt ∈ fields then listing.expiresAt else row.expiresAt
    fulfilledAt := if .fulfilledAt ∈ fields then listing.fulfilledAt else row.fulfilledAt
    fulfillmentNote :=
      if .fulfillmentNote ∈ fields then listing.fulfillmentNote else row.fulfillmentNote
    renewCount := if .renewCount ∈ fields then listing.renewCount else row.renewCount }

/-- An instance with the columns that its service saves. -/
structure Save where
  listing : KindnessListing
  updateFields : List ListingColumn
deriving DecidableEq, Repr

/-- The columns of the table that are saved: a small integer and a text of 240 characters. -/
def Save.fits (save : Save) : Except KindnessError Save := do
  checkThat (.renewCount ∈ save.updateFields → save.listing.renewCount ≤ 32767) .dataError
  checkThat (.fulfillmentNote ∈ save.updateFields → save.listing.fulfillmentNote.length ≤ 240)
    .dataError
  pure save

/-! ## Services of a listing -/

/-- The parts that `_assert_publishable` finds missing. -/
def KindnessListing.missing (listing : KindnessListing) : List String :=
  (if pyIsBlank listing.title then ["عنوان"] else []) ++
    (if pyIsBlank listing.description then ["شرح نیاز"] else []) ++
    (if listing.categoryId = none then ["دسته"] else [])

/-- `_assert_publishable`. -/
def assertPublishable (listing : KindnessListing) : Except KindnessError Unit :=
  if listing.missing ≠ [] then
    .error (.service ("این موارد برای انتشار کامل نیستند: " ++
      String.intercalate "، " listing.missing ++ "."))
  else
    match validateAtLeastOneContact listing.contacts.channelValues with
    | .ok () => .ok ()
    | .error message => .error (.service message)

section services

variable (ttlDays : ℤ) (now : ℤ)

/-- `now + timedelta(days=listing_ttl_days())`. -/
def freshExpiry : ℤ := now + ttlDays * 86400000000

/-- The expiry that a publication leaves: one that is missing or past is replaced. -/
def publishedExpiry (listing : KindnessListing) : ℤ :=
  match listing.expiresAt with
  | none => freshExpiry ttlDays now
  | some expiry => if expiry ≤ now then freshExpiry ttlDays now else expiry

/-- `publish_listing`. -/
def publishListing (listing : KindnessListing) : Except KindnessError Save := do
  assertPublishable listing
  Save.fits
    ⟨{ listing with
        status := .published
        publishedAt := some (listing.publishedAt.getD now)
        expiresAt := some (publishedExpiry ttlDays now listing) },
      [.status, .publishedAt, .expiresAt]⟩

/-- `renew_listing`. -/
def renewListing (listing : KindnessListing) : Except KindnessError Save := do
  checkThat (listing.status = .published ∨ listing.status = .expired)
    (.listingState "فقط آگهی جاری یا منقضی قابل تمدید است.")
  Save.fits
    ⟨{ listing with
        status := .published
        expiresAt := some (freshExpiry ttlDays now)
        renewCount := listing.renewCount + 1
        publishedAt := some (listing.publishedAt.getD now) },
      [.status, .expiresAt, .renewCount, .publishedAt]⟩

/-- `fulfill_listing`. -/
def fulfillListing (note : String) (listing : KindnessListing) : Except KindnessError Save := do
  checkThat (listing.status = .published ∨ listing.status = .expired)
    (.listingState "فقط آگهی جاری یا منقضی قابل ثبت برطرف‌شدن است.")
  Save.fits
    ⟨{ listing with
        status := .fulfilled
        fulfilledAt := some now
        fulfillmentNote := if pyIsBlank note then listing.fulfillmentNote else pyStrip note },
      [.status, .fulfilledAt, .fulfillmentNote]⟩

/-- `archive_listing`. -/
def archiveListing (listing : KindnessListing) : Except KindnessError Save :=
  Save.fits ⟨{ listing with status := .archived }, [.status]⟩

/-- `revert_to_draft`. -/
def revertToDraft (listing : KindnessListing) : Except KindnessError Save :=
  Save.fits ⟨{ listing with status := .draft }, [.status]⟩

/-- The services that move a listing. -/
inductive ListingService where
  | publish
  | renew
  | fulfill (note : String)
  | archive
  | draft
deriving DecidableEq, Repr

def ListingService.call (listing : KindnessListing) :
    ListingService → Except KindnessError Save
  | .publish => publishListing ttlDays now listing
  | .renew => renewListing ttlDays now listing
  | .fulfill note => fulfillListing now note listing
  | .archive => archiveListing listing
  | .draft => revertToDraft listing

end services

/-! ## Expiry -/

/-- `status=PUBLISHED, expires_at__lte=now`. -/
def KindnessListing.due (now : ℤ) (listing : KindnessListing) : Bool :=
  listing.status == .published && listing.expiresAt.any (· ≤ now)

namespace Wall

variable (s : Wall)

/-- The select of `expire_due_listings`, in the order in which the database returns the rows.
The default manager sees active listings only. -/
def staleIds (now : ℤ) (order : List ℕ) : List ℕ :=
  (order.filter fun pk => s.listings[pk]?.any fun row => row.isActive && row.due now).take 1000

/-- The update of `expire_due_listings`, by primary key alone. -/
def expireIds (ids : List ℕ) : Wall :=
  { s with
    listings := s.listings.mapIdx fun pk row =>
      if pk ∈ ids then { row with status := .expired } else row }

/-- `expire_due_listings`. -/
def expireDueListings (now : ℤ) (order : List ℕ) : Wall := s.expireIds (s.staleIds now order)

/-- The write of a service to the row of its instance. -/
def saveListing (pk : ℕ) (save : Save) : Wall :=
  { s with listings := s.listings.modify pk (save.listing.write save.updateFields) }

/-- `set_category_active`.  The guard asks the default manager of the listings. -/
def setCategoryActive (c : ℕ) (active : Bool) : Except KindnessError Wall :=
  match s.categories[c]? with
  | none => .error .doesNotExist
  | some category =>
      if !active ∧ s.listings.any (fun row =>
          row.isActive && row.categoryId == some c && row.status == .published) then
        .error (.categoryGuard
          "این دسته آگهی جاری دارد؛ ابتدا آگهی‌هایش را برطرف/بایگانی کنید.")
      else .ok { s with categories := s.categories.set c { category with isActive := active } }

end Wall

theorem getElem?_expireIds {s : Wall} {ids : List ℕ} {pk : ℕ} :
    (s.expireIds ids).listings[pk]? =
      s.listings[pk]?.map fun row => if pk ∈ ids then { row with status := .expired } else row := by
  rw [Wall.expireIds, List.getElem?_mapIdx]

/-! ## What the services write -/

/-- Fit to be on the wall: what `_assert_publishable` asks for. -/
def KindnessListing.publishable (listing : KindnessListing) : Bool :=
  !pyIsBlank listing.title && !pyIsBlank listing.description && listing.categoryId.isSome &&
    listing.contacts.reachable

theorem assertPublishable_ok_iff {listing : KindnessListing} :
    assertPublishable listing = .ok () ↔ listing.publishable = true := by
  have hmissing : listing.missing = [] ↔
      (!pyIsBlank listing.title && !pyIsBlank listing.description &&
        listing.categoryId.isSome) = true := by
    rw [KindnessListing.missing]
    cases pyIsBlank listing.title <;> cases pyIsBlank listing.description <;>
      cases listing.categoryId <;> simp
  rw [assertPublishable, KindnessListing.publishable, Bool.and_eq_true, ← hmissing,
    ← Contacts.validateAtLeastOneContact_eq]
  by_cases h : listing.missing = []
  · rw [if_neg (not_not.mpr h)]
    cases hvalid : validateAtLeastOneContact listing.contacts.channelValues with
    | ok u => simp [h]
    | error message => simp
  · rw [if_pos h]
    simp [h]

theorem Save.fits_ok_iff {save save' : Save} : save.fits = .ok save' ↔
    (.renewCount ∈ save.updateFields → save.listing.renewCount ≤ 32767) ∧
      (.fulfillmentNote ∈ save.updateFields → save.listing.fulfillmentNote.length ≤ 240) ∧
      save = save' := by
  rw [Save.fits, checkThat_bind_ok_iff, checkThat_bind_ok_iff]
  exact and_congr_right fun _ => and_congr_right fun _ => ⟨Except.ok.inj, congrArg Except.ok⟩

theorem Save.fits_ok {save save' : Save} (h : save.fits = .ok save') : save' = save :=
  (Save.fits_ok_iff.mp h).2.2.symm

/-- The status a service moves a listing to. -/
def ListingService.target : ListingService → ListingStatus
  | .publish | .renew => .published
  | .fulfill _ => .fulfilled
  | .archive => .archived
  | .draft => .draft

/-- The expiry a service sets, if it sets one. -/
def ListingService.newExpiry (ttlDays now : ℤ) (listing : KindnessListing) :
    ListingService → Option ℤ
  | .publish => some (publishedExpiry ttlDays now listing)
  | .renew => some (freshExpiry ttlDays now)
  | _ => none

/-- **What a successful call writes**, whatever the row was. -/
theorem call_written {ttlDays now : ℤ} {listing : KindnessListing} {service : ListingService}
    {save : Save} (hcall : service.call ttlDays now listing = .ok save) (row : KindnessListing) :
    (save.listing.write save.updateFields row).status = service.target ∧
      ∀ expiry ∈ service.newExpiry ttlDays now listing,
        (save.listing.write save.updateFields row).expiresAt = some expiry := by
  cases service with
  | publish =>
      obtain ⟨-, -, hfits⟩ := except_bind_ok_iff.mp hcall
      rw [Save.fits_ok hfits]
      exact ⟨rfl, fun expiry h => h⟩
  | renew =>
      obtain ⟨-, hfits⟩ := checkThat_bind_ok_iff.mp hcall
      rw [Save.fits_ok hfits]
      exact ⟨rfl, fun expiry h => h⟩
  | fulfill note =>
      obtain ⟨-, hfits⟩ := checkThat_bind_ok_iff.mp hcall
      rw [Save.fits_ok hfits]
      exact ⟨rfl, nofun⟩
  | archive =>
      rw [Save.fits_ok hcall]
      exact ⟨rfl, nofun⟩
  | draft =>
      rw [Save.fits_ok hcall]
      exact ⟨rfl, nofun⟩

end SetadJang.KindnessWall
