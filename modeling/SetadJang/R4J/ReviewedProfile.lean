import SetadJang.R4J.ReviewReturns

/-!
# What a review approved, and what the profile shows

The field changes of a report are applied one after the other.  Two approved changes of one
field with different values are both stored as approved, and the profile shows the last one; it
shows every approved change exactly when there are no such two.  The final status of the report
always agrees with its items.
-/

namespace SetadJang.R4J

open SetadJang.Framework

/-! ## The final status -/

/-- The statuses of the items of a report. -/
def itemStatuses (children : ReportChildren) : List DecisionStatus :=
  children.fieldChanges.map FieldChange.status ++ children.aliases.map Suggestion.status ++
    children.phones.map Suggestion.status ++ children.socials.map Suggestion.status ++
      children.attachments.map Suggestion.status

/-- All approved, or none there; some approved; none approved. -/
theorem finalStatus_eq (statuses : List DecisionStatus) :
    finalStatus statuses =
      if ∀ status ∈ statuses, status = .approved then .approved
      else if DecisionStatus.approved ∈ statuses then .partiallyApproved
      else .rejected := by
  unfold finalStatus
  by_cases hall : ∀ status ∈ statuses, status = .approved
  · rw [if_pos (Or.inr hall), if_pos hall]
  · have hne : ¬ (statuses = [] ∨ ∀ status ∈ statuses, status = .approved) := by
      rintro (rfl | h)
      · exact hall fun _ hmem => absurd hmem List.not_mem_nil
      · exact hall h
    rw [if_neg hne, if_neg hall]
    by_cases hnone : ∀ status ∈ statuses, status = .rejected
    · have hnot : DecisionStatus.approved ∉ statuses := by
        intro hmem
        cases hnone _ hmem
      rw [if_pos hnone, if_neg hnot]
    · rw [if_neg hnone]

theorem finalStatus_congr {statuses statuses' : List DecisionStatus}
    (h : ∀ status, status ∈ statuses ↔ status ∈ statuses') :
    finalStatus statuses = finalStatus statuses' := by
  rw [finalStatus_eq, finalStatus_eq]
  simp only [h]

section status

variable {collation : String → String → Bool} {review : Review} {now : ℕ}
  {db db' : ReportStore FieldValue}

/-- The status is that of the items after the review. -/
theorem status_committed (h : reviewReport collation review now db = .ok db') :
    db'.report.status = finalStatus (itemStatuses db'.children) := by
  obtain ⟨-, rfl⟩ := reviewReport_ok_iff.mp h
  show finalStatus ((reviewWork collation review db).fieldStatuses ++ _ ++ _ ++ _ ++ _) = _
  refine finalStatus_congr fun status => ?_
  have hfields : (reviewWork collation review db).fieldStatuses =
      (saveRows db.children.fieldChanges
        (reviewWork collation review db).fieldChanges).map FieldChange.status := by
    show (withFields collation review db).fieldStatuses =
      (saveRows _ (withFields collation review db).fieldChanges).map _
    rw [withFields, reviewFields_eq]
  simp only [itemStatuses, List.mem_append]
  refine or_congr (or_congr (or_congr (or_congr ?_ ?_) ?_) ?_) ?_
  · rw [hfields]
    rfl
  · exact mem_statuses_iff (List.Perm.refl _)
  · exact mem_statuses_iff (List.Perm.refl _)
  · exact mem_statuses_iff (List.Perm.refl _)
  · exact mem_statuses_iff (List.reverse_perm _)

end status

/-! ## What the profile shows -/

/-- What a review is to leave: the approved changes are the values of their fields, the other
fields are as they were, and the status is that of the items. -/
structure ShowsReview (before after : ReportStore FieldValue) : Prop where
  shown : ∀ change ∈ after.children.fieldChanges, change.status = .approved →
    applyFieldToCriminal change.fieldName change.suggestedValue =
      .ok (after.profile.fields change.fieldName)
  unchanged : ∀ fieldName, (∀ change ∈ after.children.fieldChanges,
    change.fieldName = fieldName → change.status ≠ .approved) →
      after.profile.fields fieldName = before.profile.fields fieldName
  status : after.report.status =
    if ∀ status ∈ itemStatuses after.children, status = .approved then .approved
    else if DecisionStatus.approved ∈ itemStatuses after.children then .partiallyApproved
    else .rejected

/-- The approved changes of one field that parse have one value. -/
def SingleValued (review : Review) (children : ReportChildren) : Prop :=
  ∀ (j k : ℕ) (change other : FieldChange) (value value' : FieldValue),
    children.fieldChanges[j]? = some change → children.fieldChanges[k]? = some other →
    approves review.fieldDecisions j = true → approves review.fieldDecisions k = true →
    change.fieldName = other.fieldName →
    applyFieldToCriminal change.fieldName change.suggestedValue = .ok value →
    applyFieldToCriminal other.fieldName other.suggestedValue = .ok value' → value = value'

section profile

variable {collation : String → String → Bool} {review : Review} {now : ℕ}
  {db db' : ReportStore FieldValue}

/-- Where a stored change comes from. -/
theorem exists_reviewedChange (h : reviewReport collation review now db = .ok db')
    {row : FieldChange} (hrow : row ∈ db'.children.fieldChanges) :
    ∃ k change, db.children.fieldChanges[k]? = some change ∧
      row = reviewedChange review.fieldDecisions change k := by
  obtain ⟨k, hk⟩ := List.getElem?_of_mem hrow
  rw [fieldChanges_committed h, Option.map_eq_some_iff] at hk
  obtain ⟨change, hchange, rfl⟩ := hk
  exact ⟨k, change, hchange, rfl⟩

theorem reviewedChange_mem (h : reviewReport collation review now db = .ok db') {k : ℕ}
    {change : FieldChange} (hchange : db.children.fieldChanges[k]? = some change) :
    reviewedChange review.fieldDecisions change k ∈ db'.children.fieldChanges := by
  refine @List.mem_of_getElem? _ _ k _ ?_
  rw [fieldChanges_committed h, hchange]
  rfl

/-- A field without an approved change is as it was. -/
theorem unchanged_committed (hsubmitted : Submitted db.children)
    (h : reviewReport collation review now db = .ok db') {fieldName : String}
    (hnone : ∀ change ∈ db'.children.fieldChanges,
      change.fieldName = fieldName → change.status ≠ .approved) :
    db'.profile.fields fieldName = db.profile.fields fieldName := by
  rw [fields_committed h]
  refine writeAll_of_not_mem fun value hmem => ?_
  obtain ⟨k, change, hchange, happroves, rfl, hfield, hvalue⟩ := mem_appliedFields_iff.mp hmem
  have hpending := (hsubmitted.fields change (List.mem_of_getElem? hchange)).2
  exact hnone _ (reviewedChange_mem h hchange) (reviewedChange_suggests _ change k).1
    ((reviewedChange_approved_iff hpending hfield).mpr ⟨happroves, value, hvalue⟩)

/-- An approved change that parses is to be the value of its field. -/
theorem ShowsReview.value (hshows : ShowsReview db db') (hsubmitted : Submitted db.children)
    (h : reviewReport collation review now db = .ok db') {k : ℕ} {change : FieldChange}
    {value : FieldValue} (hchange : db.children.fieldChanges[k]? = some change)
    (hk : approves review.fieldDecisions k = true)
    (hvalue : applyFieldToCriminal change.fieldName change.suggestedValue = .ok value) :
    db'.profile.fields change.fieldName = value := by
  obtain ⟨hreportable, hpending⟩ := hsubmitted.fields change (List.mem_of_getElem? hchange)
  have happroved := (reviewedChange_approved_iff hpending hreportable).mpr ⟨hk, value, hvalue⟩
  have hshown := hshows.shown _ (reviewedChange_mem h hchange) happroved
  obtain ⟨hname, htext⟩ := reviewedChange_suggests review.fieldDecisions change k
  rw [hname, htext, hvalue] at hshown
  exact (Except.ok.inj hshown).symm

/-- **What a review shows.** The profile agrees with the decisions exactly when no two approved
changes of a field have different values. -/
theorem review_shows_iff {input : ReportInput} (hsubmit : submitReport input = .ok db.children)
    (h : reviewReport collation review now db = .ok db') :
    ShowsReview db db' ↔ SingleValued review db.children := by
  have hsubmitted := submitted_of_ok hsubmit
  constructor
  · intro hshows j k change other value value' hchange hother hj hk hfield hvalue hvalue'
    -- both are stored as approved, so both are the value of the field
    have hfirst := hshows.value hsubmitted h hchange hj hvalue
    rw [hfield] at hfirst
    exact hfirst.symm.trans (hshows.value hsubmitted h hother hk hvalue')
  · intro hsingle
    refine ⟨?_, fun fieldName hnone => unchanged_committed hsubmitted h hnone, ?_⟩
    · intro row hrow happroved
      obtain ⟨k, change, hchange, rfl⟩ := exists_reviewedChange h hrow
      obtain ⟨hreportable, hpending⟩ := hsubmitted.fields change (List.mem_of_getElem? hchange)
      obtain ⟨hname, htext⟩ := reviewedChange_suggests review.fieldDecisions change k
      obtain ⟨hk, value, hvalue⟩ := (reviewedChange_approved_iff hpending hreportable).mp happroved
      rw [hname, htext, hvalue, fields_committed h]
      congr 1
      refine (writeAll_of_agree
        (mem_appliedFields_iff.mpr ⟨k, change, hchange, hk, rfl, hreportable, hvalue⟩) ?_).symm
      intro value' hmem
      obtain ⟨j, other, hother, hj, hsame, -, hvalue'⟩ := mem_appliedFields_iff.mp hmem
      rw [← hsame] at hvalue'
      exact hsingle j k other change value' value hother hchange hj hk hsame hvalue' hvalue
    · rw [status_committed h, finalStatus_eq]

end profile

/-- What cities a user suggests. -/
def cityInput (cities : List String) : ReportInput :=
  ⟨cities.map fun city => ("city", city), [], [], [], []⟩

/-- The report of it. -/
def cityReport (cities : List String) : ReportStore FieldValue where
  reportId := 1
  report := ⟨.pending, "", none, none, none, none⟩
  children := ⟨cities.map fun city => ⟨"city", city, .pending, ""⟩, [], [], [], []⟩
  profile := ⟨fun _ => .text "", [], [], [], []⟩

/-- The first two changes are approved. -/
def approveTwo : Review :=
  ⟨7, [⟨some 0, some .approved, none⟩, ⟨some 1, some .approved, none⟩], [], [], [], [], ""⟩

theorem approveTwo_fits (children : ReportChildren) : DecisionsFit approveTwo children :=
  decisionsFit_of_forall (by decide) (by decide) children

theorem cities_noneSlips {cities : List String} (h : ∀ city ∈ cities, city.toList.length ≤ 100)
    (review : Review) : NoneSlips review (cityReport cities).children := by
  intro k change hchange _
  obtain ⟨city, hcity, rfl⟩ := List.mem_map.mp (List.mem_of_getElem? hchange)
  rw [city_isTextField.slips_iff rfl, not_lt, ← String.length_toList]
  exact (length_pyStrip_le city).trans (h city hcity)

/-- A review of a report with one city. -/
theorem review_shows_iff_city :
    ∃ db', reviewReport (fun _ _ => true) approveTwo 0 (cityReport ["Tehran"]) = .ok db' ∧
      (ShowsReview (cityReport ["Tehran"]) db' ↔
        SingleValued approveTwo (cityReport ["Tehran"]).children) := by
  have hsubmit : submitReport (cityInput ["Tehran"]) = .ok (cityReport ["Tehran"]).children := rfl
  obtain ⟨db', h⟩ := exists_reviewReport (submitted_of_ok hsubmit) rfl (approveTwo_fits _)
    (cities_noneSlips (by decide) approveTwo) 0
  exact ⟨db', h, review_shows_iff hsubmit h⟩

/-- Two cities are suggested and both are approved: both changes are stored as approved, and the
profile has one of them. -/
theorem two_approved_cities :
    ∃ (input : ReportInput) (review : Review) (db db' : ReportStore FieldValue),
      submitReport input = .ok db.children ∧
        reviewReport (fun _ _ => true) review 0 db = .ok db' ∧ ¬ ShowsReview db db' := by
  have hsubmit : submitReport (cityInput ["Tehran", "Shiraz"]) =
      .ok (cityReport ["Tehran", "Shiraz"]).children := rfl
  have hsubmitted := submitted_of_ok hsubmit
  obtain ⟨db', h⟩ := exists_reviewReport hsubmitted rfl (approveTwo_fits _)
    (cities_noneSlips (by decide) approveTwo) 0
  refine ⟨_, approveTwo, _, db', hsubmit, h, fun hshows => ?_⟩
  have happly : ∀ city, applyFieldToCriminal "city" city = .ok (.text (pyStrip city)) :=
    city_isTextField.apply
  have hfirst := hshows.value hsubmitted h (k := 0) rfl rfl (happly "Tehran")
  have hsecond := hshows.value hsubmitted h (k := 1) rfl rfl (happly "Shiraz")
  have hsame : pyStrip "Tehran" = pyStrip "Shiraz" :=
    FieldValue.text.inj (hfirst.symm.trans hsecond)
  exact absurd hsame (by decide +kernel)

end SetadJang.R4J
