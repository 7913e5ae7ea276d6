import SetadJang.R4J.ReviewReturns

/-!
# Suggestions that do not satisfy their field

A value that its applicator refuses is rejected, and the rest of the review goes on.  A value
that gets past its applicator and does not satisfy its field is not: a text that is too long for
its column brings the whole review down, and ten digits that are no decimal digits are stored.
-/

namespace SetadJang.R4J

open SetadJang.Framework

instance (fieldName raw : String) : Decidable (Satisfies fieldName raw) := by
  unfold Satisfies
  split <;> infer_instance

/-- The approved changes that satisfy their fields, in the order in which they are applied. -/
def satisfyingWrites (collation : String → String → Bool) (decisions : List Decision)
    (rows : ReportChildren) : List (String × FieldValue) :=
  (approvedChanges collation decisions rows).filterMap fun row =>
    if Satisfies row.1.fieldName row.1.suggestedValue then appliedField row else none

/-- No suggested value is in the way of the review: it fails for its decisions only, rejects the
approved changes that do not satisfy their fields, and applies the others, and nothing else. -/
structure NotBlocked (collation : String → String → Bool) (review : Review) (now : ℕ)
    (db : ReportStore FieldValue) : Prop where
  fails : ∀ error, reviewReport collation review now db = .error error →
    ¬ DecisionsFit review db.children
  rejects : ∀ db', reviewReport collation review now db = .ok db' →
    ∀ k change, db.children.fieldChanges[k]? = some change →
      approves review.fieldDecisions k = true →
      ¬ Satisfies change.fieldName change.suggestedValue →
      ∃ row, db'.children.fieldChanges[k]? = some row ∧ row.status = .rejected
  keeps : ∀ db', reviewReport collation review now db = .ok db' →
    ∀ k change, db.children.fieldChanges[k]? = some change →
      approves review.fieldDecisions k = true →
      Satisfies change.fieldName change.suggestedValue →
      ∃ row, db'.children.fieldChanges[k]? = some row ∧ row.status = .approved
  applies : ∀ db', reviewReport collation review now db = .ok db' →
    db'.profile.fields = writeAll db.profile.fields
      (satisfyingWrites collation review.fieldDecisions db.children)

section

variable {collation : String → String → Bool} {review : Review} {now : ℕ}
  {db db' : ReportStore FieldValue}

/-- A review that returns had decisions that could be stored. -/
theorem decisionsFit_of_ok (hsubmitted : Submitted db.children)
    (h : reviewReport collation review now db = .ok db') : DecisionsFit review db.children :=
  ((reviewPasses_iff hsubmitted).mp (reviewReport_ok_iff.mp h).1).2.1

/-- Where nothing slips, what is not satisfied does not parse. -/
theorem not_ok_of_not_satisfies (hslips : NoneSlips review db.children) {k : ℕ}
    {change : FieldChange} (hchange : db.children.fieldChanges[k]? = some change)
    (hfield : change.fieldName ∈ reportableCriminalFields)
    (hk : approves review.fieldDecisions k = true)
    (hnot : ¬ Satisfies change.fieldName change.suggestedValue) (value : FieldValue) :
    applyFieldToCriminal change.fieldName change.suggestedValue ≠ .ok value := fun hvalue =>
  hslips k change hchange hk ((slips_iff hfield _).mpr ⟨⟨value, hvalue⟩, hnot⟩)

theorem satisfyingWrites_eq (hsubmitted : Submitted db.children)
    (hslips : NoneSlips review db.children) :
    satisfyingWrites collation review.fieldDecisions db.children =
      (approvedChanges collation review.fieldDecisions db.children).filterMap appliedField := by
  unfold satisfyingWrites
  refine List.filterMap_congr fun row hrow => ?_
  obtain ⟨change, decision, hchange, hdecision, hstatus, heq⟩ := mem_approvedChanges_iff.mp hrow
  by_cases hsatisfies : Satisfies row.1.fieldName row.1.suggestedValue
  · rw [if_pos hsatisfies]
  · rw [if_neg hsatisfies]
    have hfield := (hsubmitted.fields change (List.mem_of_getElem? hchange)).1
    rw [heq] at hsatisfies
    have hnot := not_ok_of_not_satisfies hslips hchange hfield
      (approves_iff.mpr ⟨decision, hdecision, hstatus⟩) hsatisfies
    cases happlied : appliedField row with
    | none => rfl
    | some write =>
        obtain ⟨fieldName, value⟩ := write
        obtain ⟨hname, -, hvalue⟩ := appliedField_eq_some_iff.mp happlied
        rw [heq] at hname hvalue
        subst hname
        exact absurd hvalue (hnot value)

/-- A value that slips past its applicator is stored as approved, if the review returns. -/
theorem noneSlips_of_notBlocked (hsubmitted : Submitted db.children)
    (hclaim : NotBlocked collation review now db) (hfit : DecisionsFit review db.children) :
    NoneSlips review db.children := by
  intro k change hchange hk hslips
  obtain ⟨hreportable, hpending⟩ := hsubmitted.fields change (List.mem_of_getElem? hchange)
  obtain ⟨⟨value, hvalue⟩, hnot⟩ := (slips_iff hreportable _).mp hslips
  cases hresult : reviewReport collation review now db with
  | error error => exact hclaim.fails error hresult hfit
  | ok db' =>
      obtain ⟨row, hrow, hrejected⟩ := hclaim.rejects db' hresult k change hchange hk hnot
      rw [fieldChanges_committed hresult, hchange] at hrow
      obtain rfl := Option.some.inj hrow
      have happroved :=
        (reviewedChange_approved_iff hpending hreportable).mpr ⟨hk, value, hvalue⟩
      rw [happroved] at hrejected
      cases hrejected

end

/-- What a user submits with one suggestion. -/
def loneInput (fieldName value : String) : ReportInput := ⟨[(fieldName, value)], [], [], [], []⟩

/-- The report of it. -/
def loneReport (fieldName value : String) : ReportStore FieldValue where
  reportId := 1
  report := ⟨.pending, "", none, none, none, none⟩
  children := ⟨[⟨fieldName, value, .pending, ""⟩], [], [], [], []⟩
  profile := ⟨fun _ => .null, [], [], [], []⟩

/-- It is approved. -/
def approveIt : Review := ⟨7, [⟨some 0, some .approved, none⟩], [], [], [], [], ""⟩

theorem approveIt_fits (children : ReportChildren) : DecisionsFit approveIt children :=
  decisionsFit_of_forall (by decide) (by decide) children

/-- The name of a city with 101 letters. -/
def longCity : String := String.ofList (List.replicate 101 'a')

/-- Ten superscript ones. -/
def superscripts : String := String.ofList (List.replicate 10 '¹')

theorem pyStrip_replicate (n : ℕ) {c : Char} (h : pyIsSpace c = false) :
    pyStrip (String.ofList (List.replicate n c)) = String.ofList (List.replicate n c) := by
  have hall : ∀ d ∈ List.replicate n c, pyIsSpace d = false := fun d hd => by
    rwa [List.eq_of_mem_replicate hd]
  refine pyStrip_eq_self ?_ ?_ <;> rw [String.toList_ofList]
  · exact fun d hd => hall d (List.mem_of_mem_head? hd)
  · exact fun d hd => hall d (List.mem_of_mem_getLast? hd)

end SetadJang.R4J
