import SetadJang.R4J.ReportReview

/-!
# When a review returns

On a pending report as `submit_report` stores it, a review returns exactly when its decisions
can be stored and the columns of the profile take the values that are left; the suggestions of
the other kinds always fit.
-/

namespace SetadJang.R4J

open SetadJang.Framework

/-! ## Submitted reports -/

/-- What `submit_report` stores: reportable fields, nothing decided, and values that their
columns take. -/
structure Submitted (children : ReportChildren) : Prop where
  fields : ∀ change ∈ children.fieldChanges,
    change.fieldName ∈ reportableCriminalFields ∧ change.status = .pending
  aliases : ∀ suggestion ∈ children.aliases, aliasFits suggestion.content = true
  phones : ∀ suggestion ∈ children.phones, suggestion.content.fits = true
  socials : ∀ suggestion ∈ children.socials, suggestion.content.fits = true
  attachments : ∀ suggestion ∈ children.attachments, suggestion.content.fits = true

theorem submitted_of_ok {input : ReportInput} {children : ReportChildren}
    (h : submitReport input = .ok children) : Submitted children := by
  unfold submitReport at h
  split at h
  · cases h
  · next hfields =>
    split_ifs at h with hcolumns
    obtain rfl := Except.ok.inj h
    simp only [Bool.and_eq_true, List.all_eq_true] at hcolumns
    obtain ⟨⟨⟨haliases, hphones⟩, hsocials⟩, hattachments⟩ := hcolumns
    have hcreated : ∀ {α : Type} {contents : List α} {fits : α → Bool},
        (∀ content ∈ contents, fits content = true) →
        ∀ suggestion ∈ contents.map Suggestion.create, fits suggestion.content = true := by
      intro α contents fits hfits suggestion hmem
      obtain ⟨content, hcontent, rfl⟩ := List.mem_map.mp hmem
      exact hfits content hcontent
    refine ⟨?_, hcreated haliases, hcreated hphones, hcreated hsocials, hcreated hattachments⟩
    intro change hmem
    obtain ⟨field, hfield, rfl⟩ := List.mem_map.mp hmem
    have hreportable := List.find?_eq_none.mp hfields field hfield
    exact ⟨by simpa using hreportable, rfl⟩

/-! ## Decisions that can be stored -/

/-- The statuses of the decisions on rows fit their column. -/
def StatusesFit (decisions : List Decision) (count : ℕ) : Prop :=
  ∀ k < count, ∀ decision, decisionMap decisions k = some decision →
    (decision.status.getD .pending).fits = true

theorem statusesFit_of_forall {decisions : List Decision}
    (h : ∀ decision ∈ decisions, (decision.status.getD .pending).fits = true) (count : ℕ) :
    StatusesFit decisions count := by
  intro k _ decision hdecision
  exact h decision (List.mem_reverse.mp (List.mem_of_find?_eq_some hdecision))

/-- Each field decision names its change, and each status fits. -/
structure DecisionsFit (review : Review) (children : ReportChildren) : Prop where
  keys : ∀ decision ∈ review.fieldDecisions, decision.id ≠ none
  fields : StatusesFit review.fieldDecisions children.fieldChanges.length
  aliases : StatusesFit review.aliasDecisions children.aliases.length
  phones : StatusesFit review.phoneDecisions children.phones.length
  socials : StatusesFit review.socialDecisions children.socials.length
  attachments : StatusesFit review.attachmentDecisions children.attachments.length

/-- Decisions whose statuses all fit can be stored on any rows. -/
theorem decisionsFit_of_forall {review : Review}
    (hkeys : ∀ decision ∈ review.fieldDecisions, decision.id ≠ none)
    (h : ∀ decision ∈ review.fieldDecisions ++ (review.aliasDecisions ++ (review.phoneDecisions ++
      (review.socialDecisions ++ review.attachmentDecisions))),
        (decision.status.getD .pending).fits = true) (children : ReportChildren) :
    DecisionsFit review children := by
  simp only [List.forall_mem_append] at h
  obtain ⟨hfields, haliases, hphones, hsocials, hattachments⟩ := h
  exact ⟨hkeys, statusesFit_of_forall hfields _, statusesFit_of_forall haliases _,
    statusesFit_of_forall hphones _, statusesFit_of_forall hsocials _,
    statusesFit_of_forall hattachments _⟩

theorem guardReport_review_iff {report : Report} {review : Review} :
    guardReport report (.review review) = .ok () ↔
      report.status = .pending ∧ ∀ decision ∈ review.fieldDecisions, decision.id ≠ none := by
  unfold guardReport
  dsimp only
  by_cases hpending : report.status = .pending
  · rw [if_neg (not_not_intro hpending)]
    by_cases hkeys : (review.fieldDecisions.any fun decision => decision.id.isNone) = true
    · rw [if_pos hkeys]
      refine iff_of_false (fun h => by cases h) ?_
      rintro ⟨-, hall⟩
      obtain ⟨decision, hmem, hnone⟩ := List.any_eq_true.mp hkeys
      exact hall decision hmem (Option.isNone_iff_eq_none.mp hnone)
    · rw [if_neg hkeys]
      refine iff_of_true rfl ⟨hpending, fun decision hmem hnone => hkeys ?_⟩
      exact List.any_eq_true.mpr ⟨decision, hmem, Option.isNone_iff_eq_none.mpr hnone⟩
  · rw [if_pos hpending]
    exact iff_of_false (fun h => by cases h) fun h => hpending h.1

/-- A loop over suggestions that fit their columns goes through when the statuses do. -/
theorem accepted_iff {α β : Type} {decisions : List Decision}
    {applyCallback : ℕ → Suggestion α → β} {rows : List (Suggestion α)}
    {queryset : List (Suggestion α × ℕ)} (hqueryset : queryset.Perm rows.zipIdx)
    {fits : α → Bool} (hfits : ∀ suggestion ∈ rows, fits suggestion.content = true) :
    (applySuggestionDecisions decisions applyCallback queryset).accepted fits = true ↔
      StatusesFit decisions rows.length := by
  have hmem : ∀ row k, (row, k) ∈ (applySuggestionDecisions decisions applyCallback queryset).saved ↔
      ∃ suggestion decision, rows[k]? = some suggestion ∧ decisionMap decisions k = some decision ∧
        row = decideSuggestion decision suggestion := by
    intro row k
    rw [saved_eq, List.mem_filterMap]
    constructor
    · rintro ⟨⟨suggestion, j⟩, hrow, hnew⟩
      obtain ⟨decision, hdecision, heq⟩ := Option.map_eq_some_iff.mp hnew
      obtain ⟨rfl, rfl⟩ := Prod.mk.inj heq
      exact ⟨suggestion, decision,
        List.mk_mem_zipIdx_iff_getElem?.mp (hqueryset.mem_iff.mp hrow), hdecision, rfl⟩
    · rintro ⟨suggestion, decision, hrow, hdecision, rfl⟩
      refine ⟨(suggestion, k),
        hqueryset.mem_iff.mpr (List.mk_mem_zipIdx_iff_getElem?.mpr hrow), ?_⟩
      rw [hdecision]
      rfl
  unfold Outcome.accepted Outcome.fits StatusesFit
  rw [Bool.and_eq_true, List.all_eq_true, List.all_eq_true]
  constructor
  · rintro ⟨hstatuses, -⟩ k hk decision hdecision
    exact hstatuses (decideSuggestion decision rows[k], k)
      ((hmem _ k).mpr ⟨rows[k], decision, List.getElem?_eq_getElem hk, hdecision, rfl⟩)
  · intro hstatuses
    constructor
    · rintro ⟨row, k⟩ hrow
      obtain ⟨suggestion, decision, hsuggestion, hdecision, rfl⟩ := (hmem row k).mp hrow
      exact hstatuses k (List.getElem?_eq_some_iff.mp hsuggestion).1 decision hdecision
    · rintro ⟨row, k⟩ hrow
      obtain ⟨suggestion, decision, hsuggestion, hdecision, rfl⟩ := (hmem row k).mp hrow
      have hcontent : fits (decideSuggestion decision suggestion).content = true :=
        hfits suggestion (List.mem_of_getElem? hsuggestion)
      rw [hcontent, Bool.or_true]

section fields

variable {collation : String → String → Bool} {review : Review} {db : ReportStore FieldValue}

theorem fields_reviewWork :
    (reviewWork collation review db).fieldChanges =
        decideFieldChanges review.fieldDecisions (orderedChanges collation db.children) ++
          (approvedChanges collation review.fieldDecisions db.children).filterMap failedChange ∧
      (reviewWork collation review db).fields =
        (approvedChanges collation review.fieldDecisions db.children).filterMap appliedField := by
  have hwork : withFields collation review db = _ := reviewFields_eq db.children .empty
  constructor
  · show (withFields collation review db).fieldChanges = _
    rw [hwork]
  · show (withFields collation review db).fields = _
    rw [hwork]

/-- The changes that are rejected after all are no obstacle. -/
theorem statuses_fit_iff :
    ((reviewWork collation review db).fieldChanges.all fun row => row.1.status.fits) = true ↔
      StatusesFit review.fieldDecisions db.children.fieldChanges.length := by
  rw [fields_reviewWork.1, List.all_append, Bool.and_eq_true, List.all_eq_true]
  constructor
  · rintro ⟨hsaved, -⟩ k hk decision hdecision
    refine hsaved (decideChange decision db.children.fieldChanges[k], k) ?_
    exact mem_decideFieldChanges.mpr ⟨_, decision,
      mem_orderedChanges.mpr (List.getElem?_eq_getElem hk), hdecision, rfl⟩
  · intro hstatuses
    constructor
    · rintro ⟨row, k⟩ hrow
      obtain ⟨change, decision, hchange, hdecision, rfl⟩ := mem_decideFieldChanges.mp hrow
      have hk := (List.getElem?_eq_some_iff.mp (mem_orderedChanges.mp hchange)).1
      exact hstatuses k hk decision hdecision
    · rw [List.all_eq_true]
      intro row hrow
      obtain ⟨source, -, hfails⟩ := List.mem_filterMap.mp hrow
      unfold failedChange at hfails
      split_ifs at hfails
      split at hfails
      · cases hfails
      · obtain rfl := Option.some.inj hfails
        rfl

theorem suggestions_reviewWork :
    (reviewWork collation review db).aliases =
        applySuggestionDecisions review.aliasDecisions applyAliasSuggestion
          db.children.aliases.zipIdx ∧
      (reviewWork collation review db).phones =
        applySuggestionDecisions review.phoneDecisions applyPhoneSuggestion
          db.children.phones.zipIdx ∧
      (reviewWork collation review db).socials =
        applySuggestionDecisions review.socialDecisions applySocialSuggestion
          db.children.socials.zipIdx ∧
      (reviewWork collation review db).attachments =
        applySuggestionDecisions review.attachmentDecisions
          (promoteReportAttachment db.reportId review.reviewedBy)
          db.children.attachments.zipIdx.reverse :=
  ⟨rfl, rfl, rfl, rfl⟩

/-- The suggestions that are not field changes are refused for their decisions only. -/
theorem suggestions_fit_iff (hsubmitted : Submitted db.children) :
    ((reviewWork collation review db).aliases.accepted (fun name => aliasFits (pyStrip name)) = true ↔
        StatusesFit review.aliasDecisions db.children.aliases.length) ∧
      ((reviewWork collation review db).phones.accepted PhoneContent.fits = true ↔
        StatusesFit review.phoneDecisions db.children.phones.length) ∧
      ((reviewWork collation review db).socials.accepted SocialContent.fits = true ↔
        StatusesFit review.socialDecisions db.children.socials.length) ∧
      ((reviewWork collation review db).attachments.accepted AttachmentContent.fits = true ↔
        StatusesFit review.attachmentDecisions db.children.attachments.length) := by
  obtain ⟨haliases, hphones, hsocials, hattachments⟩ :=
    @suggestions_reviewWork collation review db
  have hstripped : ∀ suggestion ∈ db.children.aliases,
      aliasFits (pyStrip suggestion.content) = true := by
    intro suggestion hmem
    have hfits := hsubmitted.aliases suggestion hmem
    unfold aliasFits at hfits ⊢
    rw [decide_eq_true_eq] at hfits ⊢
    have hle := length_pyStrip_le suggestion.content
    rw [String.length_toList, String.length_toList] at hle
    exact hle.trans hfits
  rw [haliases, hphones, hsocials, hattachments]
  exact ⟨accepted_iff (List.Perm.refl _) hstripped,
    accepted_iff (List.Perm.refl _) hsubmitted.phones,
    accepted_iff (List.Perm.refl _) hsubmitted.socials,
    accepted_iff (List.reverse_perm _) hsubmitted.attachments⟩

/-- **When a review returns.** -/
theorem reviewPasses_iff (hsubmitted : Submitted db.children) :
    ReviewPasses review db (reviewWork collation review db) ↔
      db.report.status = .pending ∧ DecisionsFit review db.children ∧
        saveCriminal db.profile.fields (reviewWork collation review db).fields = true := by
  obtain ⟨haliases, hphones, hsocials, hattachments⟩ :=
    @suggestions_fit_iff collation review db hsubmitted
  constructor
  · intro hpasses
    obtain ⟨hpending, hkeys⟩ := guardReport_review_iff.mp hpasses.guard
    exact ⟨hpending, ⟨hkeys, statuses_fit_iff.mp hpasses.statuses, haliases.mp hpasses.aliases,
      hphones.mp hpasses.phones, hsocials.mp hpasses.socials,
      hattachments.mp hpasses.attachments⟩, hpasses.criminal⟩
  · rintro ⟨hpending, hfit, hcriminal⟩
    exact ⟨guardReport_review_iff.mpr ⟨hpending, hfit.keys⟩, statuses_fit_iff.mpr hfit.fields,
      hcriminal, haliases.mpr hfit.aliases, hphones.mpr hfit.phones, hsocials.mpr hfit.socials,
      hattachments.mpr hfit.attachments⟩

/-- The approved changes whose value gets past its applicator satisfy their field. -/
def NoneSlips (review : Review) (children : ReportChildren) : Prop :=
  ∀ k change, children.fieldChanges[k]? = some change → approves review.fieldDecisions k = true →
    ¬ Slips change.fieldName change.suggestedValue

/-- Then the columns take what is left. -/
theorem saveCriminal_of_noneSlips (h : NoneSlips review db.children) :
    saveCriminal db.profile.fields (reviewWork collation review db).fields = true := by
  rw [fields_reviewWork.2, saveCriminal, List.all_eq_true]
  rintro ⟨fieldName, value⟩ hmem
  obtain ⟨last, hlast, hfinal⟩ := @exists_writeAll _ _ _ db.profile.fields _ _ _ hmem
  obtain ⟨k, change, hchange, happroves, rfl, hfield, hvalue⟩ := mem_appliedFields_iff.mp hlast
  have hsatisfies : Satisfies change.fieldName change.suggestedValue := by
    by_contra hnot
    exact h k change hchange happroves ((slips_iff hfield _).mpr ⟨⟨last, hvalue⟩, hnot⟩)
  obtain ⟨value', hvalue', haccepts⟩ := exists_of_satisfies hfield hsatisfies
  obtain rfl := Except.ok.inj (hvalue.symm.trans hvalue')
  show columnAccepts change.fieldName (writeAll _ _ _) = true
  rw [hfinal]
  exact haccepts

/-- A review of values that satisfy their fields returns. -/
theorem exists_reviewReport (hsubmitted : Submitted db.children)
    (hpending : db.report.status = .pending) (hfit : DecisionsFit review db.children)
    (hslips : NoneSlips review db.children) (now : ℕ) :
    ∃ db', reviewReport collation review now db = .ok db' :=
  ⟨_, reviewReport_ok_iff.mpr
    ⟨(reviewPasses_iff hsubmitted).mpr ⟨hpending, hfit, saveCriminal_of_noneSlips hslips⟩, rfl⟩⟩

end fields

end SetadJang.R4J
