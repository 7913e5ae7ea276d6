import SetadJang.KindnessWall.Model

/-!
# Editing the texts and contacts of a listing

Two paths lead to the columns: the admin API, whose serializer checks the shape of a contact and
leaves "at least one" to the publication, and the Django form, which runs `KindnessListing.clean`
and asks for a contact in every status but draft.  Both save the whole instance, and `save` brings
the channels to their canonical form.
-/

namespace SetadJang.KindnessWall

open SetadJang.Framework

/-- An error of an input field: of the framework, by its code, or with a text of the source. -/
inductive InputError where
  | blank
  | required
  | nullCharacter
  | maxLength
  | invalid (message : String)
deriving DecidableEq, Repr

abbrev InputErrors := List (String × InputError)

/-- A text field of either framework: stripped, then put to its validators. -/
def checkText (name : String) (empty : InputErrors) (maxLength : Option ℕ) (value : String) :
    InputErrors :=
  if pyIsBlank value then empty
  else
    (if maxLength.any (· < (pyStrip value).length) then [(name, .maxLength)] else []) ++
      if '\x00' ∈ (pyStrip value).toList then [(name, .nullCharacter)] else []

def ContactField.maxLength : ContactField → Option ℕ
  | .phone => some 30
  | _ => some 64

/-- The check of a filled channel, its text under the label of the channel. -/
def checkChannel (field : ContactField) (value : String) : InputErrors :=
  match validateChannelValue field.kind value with
  | .ok () => []
  | .error message => [(field.name, .invalid (field.label ++ ": " ++ message))]

/-! ## The admin API -/

/-- The fields of a partial update. -/
structure ListingPatch where
  title : Option String := none
  description : Option String := none
  contacts : ContactField → Option String := fun _ => none

/-- `validate_title` and `validate_description`: a least length for the stripped text. -/
def checkLength (name : String) (least : ℕ) (message value : String) : InputErrors :=
  if (pyStrip value).length < least then [(name, .invalid message)] else []

/-- The later checks of a field run where the earlier ones found nothing. -/
def InputErrors.orElse (errors later : InputErrors) : InputErrors :=
  if errors = [] then later else errors

namespace ListingPatch

variable (patch : ListingPatch)

/-- The checks of the single fields. -/
def fieldErrors : InputErrors :=
  (patch.title.toList.flatMap fun value =>
    InputErrors.orElse (checkText "title" [("title", .blank)] (some 240) value)
      (checkLength "title" 5 "عنوان آگهی باید حداقل ۵ نویسه باشد." value)) ++
  (patch.description.toList.flatMap fun value =>
    InputErrors.orElse (checkText "description" [("description", .blank)] none value)
      (checkLength "description" 20 "شرح نیاز باید حداقل ۲۰ نویسه باشد." value)) ++
  contactChannelRegistry.flatMap fun field =>
    (patch.contacts field).toList.flatMap (checkText field.name [] field.maxLength)

/-- The value that `validate` finds for a channel, or what the instance has. -/
def raw (listing : KindnessListing) (field : ContactField) : String :=
  ((patch.contacts field).map pyStrip).getD (listing.contacts.get field)

/-- `merged`: the canonical form of a filled channel. -/
def merged (listing : KindnessListing) (field : ContactField) : Option String :=
  if pyIsBlank (patch.raw listing field) then none
  else some (normalizeChannelValue field.kind (pyStrip (patch.raw listing field)))

/-- The loop of `validate`; an empty value is not checked. -/
def channelErrors (listing : KindnessListing) : InputErrors :=
  contactChannelRegistry.flatMap fun field =>
    match patch.merged listing field with
    | none => []
    | some value => if value = "" then [] else checkChannel field value

/-- `KindnessListingInputSerializer(instance, data, partial=True)` and its `save`. -/
def apply (listing : KindnessListing) : Except InputErrors KindnessListing :=
  if patch.fieldErrors ≠ [] then .error patch.fieldErrors
  else if patch.channelErrors listing ≠ [] then .error (patch.channelErrors listing)
  else .ok
    { listing with
      title := (patch.title.map pyStrip).getD listing.title
      description := (patch.description.map pyStrip).getD listing.description
      contacts := (Contacts.ofFn fun field =>
        (patch.merged listing field).getD (patch.raw listing field)).normalize }

end ListingPatch

/-! ## The Django form -/

/-- The texts and contacts that the form submits; its other fields pass as they stand. -/
structure ListingForm where
  title : String
  description : String
  contacts : Contacts
deriving DecidableEq, Repr

namespace ListingForm

variable (form : ListingForm) (listing : KindnessListing)

def contactErrors (field : ContactField) : InputErrors :=
  checkText field.name [] field.maxLength (form.contacts.get field)

def fieldErrors : InputErrors :=
  checkText "title" [("title", .required)] (some 240) form.title ++
    checkText "description" [("description", .required)] none form.description ++
    contactChannelRegistry.flatMap form.contactErrors

/-- The contacts of the instance that is validated: a field that failed is not set on it. -/
def cleaned : Contacts :=
  Contacts.ofFn fun field =>
    if form.contactErrors field = [] then pyStrip (form.contacts.get field)
    else listing.contacts.get field

/-- The contact part of `KindnessListing.clean`. -/
def clean : InputErrors :=
  InputErrors.orElse
    (contactChannelRegistry.flatMap fun field =>
      if pyIsBlank ((form.cleaned listing).get field) then []
      else checkChannel field ((form.cleaned listing).get field))
    (if listing.status ≠ .draft ∧ (form.cleaned listing).reachable = false then
      [("status", .invalid "برای هر وضعیت غیرپیش‌نویس، حداقل یک راه تماس الزامی است.")]
    else [])

/-- The form saved over a listing whose other fields are left alone. -/
def apply : Except InputErrors KindnessListing :=
  if form.fieldErrors ++ form.clean listing ≠ [] then
    .error (form.fieldErrors ++ form.clean listing)
  else .ok
    { listing with
      title := pyStrip form.title
      description := pyStrip form.description
      contacts := (form.cleaned listing).normalize }

end ListingForm

/-! ## What an edit leaves -/

/-- An edit changes texts and contacts alone. -/
def SameButTexts (listing listing' : KindnessListing) : Prop :=
  listing' = { listing with
    title := listing'.title, description := listing'.description, contacts := listing'.contacts }

theorem ListingPatch.apply_same {patch : ListingPatch} {listing listing' : KindnessListing}
    (h : patch.apply listing = .ok listing') : SameButTexts listing listing' := by
  unfold ListingPatch.apply at h
  split_ifs at h
  rw [← Except.ok.inj h]
  rfl

theorem ListingForm.apply_same {form : ListingForm} {listing listing' : KindnessListing}
    (h : form.apply listing = .ok listing') : SameButTexts listing listing' := by
  unfold ListingForm.apply at h
  split_ifs at h
  rw [← Except.ok.inj h]
  rfl

theorem InputErrors.orElse_eq_nil {errors later : InputErrors} :
    InputErrors.orElse errors later = [] ↔ errors = [] ∧ later = [] := by
  unfold InputErrors.orElse
  split_ifs with h
  · simp [h]
  · simp [h]

theorem checkChannel_eq_nil {field : ContactField} {value : String} :
    checkChannel field value = [] ↔ validateChannelValue field.kind value = .ok () := by
  unfold checkChannel
  split <;> rename_i h <;> simp [h]

/-- **The form keeps a contact** on every listing that is no draft; the API does not ask. -/
theorem ListingForm.apply_reachable {form : ListingForm} {listing listing' : KindnessListing}
    (h : form.apply listing = .ok listing') (hstatus : listing.status ≠ .draft) :
    listing'.contacts.reachable = true := by
  unfold ListingForm.apply at h
  split_ifs at h with herrors
  rw [not_not, List.append_eq_nil_iff] at herrors
  obtain ⟨hshapes, hcontact⟩ := InputErrors.orElse_eq_nil.mp herrors.2
  rw [← Except.ok.inj h]
  have hreach : (form.cleaned listing).reachable = true := by
    by_contra hnone
    rw [if_pos ⟨hstatus, Bool.eq_false_of_not_eq_true hnone⟩] at hcontact
    cases hcontact
  obtain ⟨field, hfield⟩ := Contacts.reachable_iff.mp hreach
  have hshape := List.flatMap_eq_nil_iff.mp hshapes field (mem_contactChannelRegistry field)
  rw [hfield, if_neg Bool.false_ne_true, checkChannel_eq_nil] at hshape
  refine Contacts.reachable_iff.mpr ⟨field, ?_⟩
  show pyIsBlank ((form.cleaned listing).normalize.get field) = false
  rw [Contacts.normalize, Contacts.get_ofFn, hfield, if_neg Bool.false_ne_true]
  exact normalizeChannelValue_filled hshape

end SetadJang.KindnessWall
