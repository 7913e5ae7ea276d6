import Mathlib.Data.List.Perm.Basic
import SetadJang.Framework.Txn
import SetadJang.Framework.Writes
import SetadJang.R4J.FieldApplicators

/-!
# A review from beginning to end

`submit_report`, and `review_report` on a report that nobody else works on, with the values of
the applicators and the columns of the tables.  It is the run of one call of the reviews in
flight.  What it leaves is said row by row: each suggestion is decided by the last decision on
it, and a field change that does not parse is rejected after all.
-/

namespace SetadJang.R4J

open SetadJang.Framework

/-! ## Submitting -/

/-- The suggestions that `submit_report` is given. -/
structure ReportInput where
  fieldChanges : List (String × String)
  aliases : List String
  phones : List PhoneContent
  socials : List SocialContent
  attachments : List AttachmentContent

inductive SubmitError where
  | invalidReportableField (message : String)
  | dataError
deriving DecidableEq, Repr

/-- The columns of an alias, as a suggestion and on the profile. -/
def aliasFits (name : String) : Bool := decide (name.length ≤ 200)

/-- Those of a phone. -/
def PhoneContent.fits (phone : PhoneContent) : Bool :=
  decide (phone.label.length ≤ 50) && decide (phone.number.length ≤ 30)

/-- Those of a social account. -/
def SocialContent.fits (social : SocialContent) : Bool :=
  decide (social.platform.length ≤ 20) && decide (social.handleOrUrl.length ≤ 255)

/-- Those of an attachment. -/
def AttachmentContent.fits (attachment : AttachmentContent) : Bool :=
  decide (attachment.file.length ≤ 100) && decide (attachment.kind.length ≤ 20) &&
    decide (attachment.title.length ≤ 255) && decide (attachment.fileSha256.length ≤ 64)

/-- A suggestion as it is created. -/
def Suggestion.create {α : Type} (content : α) : Suggestion α := ⟨content, .pending, ""⟩

/-- `submit_report`. -/
def submitReport (input : ReportInput) : Except SubmitError ReportChildren :=
  match input.fieldChanges.find? fun change => change.1 ∉ reportableCriminalFields with
  | some change =>
      .error (.invalidReportableField ("فیلد '" ++ change.1 ++ "' از طریق گزارش قابل تغییر نیست."))
  | none =>
      if input.aliases.all aliasFits && input.phones.all PhoneContent.fits &&
          input.socials.all SocialContent.fits && input.attachments.all AttachmentContent.fits then
        .ok
          { fieldChanges := input.fieldChanges.map fun change => ⟨change.1, change.2, .pending, ""⟩
            aliases := input.aliases.map Suggestion.create
            phones := input.phones.map Suggestion.create
            socials := input.socials.map Suggestion.create
            attachments := input.attachments.map Suggestion.create }
      else .error .dataError

/-! ## Reviewing -/

/-- The columns take what the loop saves and creates. -/
def Outcome.accepted {α β : Type} (fits : α → Bool) (outcome : Outcome α β) : Bool :=
  outcome.fits && outcome.saved.all fun row => row.1.status != .approved || fits row.1.content

/-- A loop over the suggestions of one kind. -/
def reviewSuggestions {α β : Type} (decisions : List Decision)
    (applyCallback : ℕ → Suggestion α → β) (fits : α → Bool)
    (queryset : List (Suggestion α × ℕ)) : Except ReportError (Outcome α β) :=
  let outcome := applySuggestionDecisions decisions applyCallback queryset
  if outcome.accepted fits then .ok outcome else .error .dataError

/-- `criminal.save(update_fields=...)`: the database looks at the values that are left. -/
def saveCriminal (before : String → FieldValue) (fields : List (String × FieldValue)) : Bool :=
  fields.all fun field => columnAccepts field.1 (writeAll before fields field.1)

/-- `review_report`.  The title that a promoted attachment gets from its key is short. -/
def reviewReport (collation : String → String → Bool) (review : Review) (now : ℕ)
    (db : ReportStore FieldValue) : Except ReportError (ReportStore FieldValue) := do
  guardReport db.report (.review review)
  let rows := db.children
  let work := reviewFields collation applyFieldToCriminal review rows rows .empty
  if (work.fieldChanges.all fun row => row.1.status.fits) && saveCriminal db.profile.fields work.fields
  then
    let aliases ← reviewSuggestions review.aliasDecisions applyAliasSuggestion
      (fun name => aliasFits (pyStrip name)) rows.aliases.zipIdx
    let phones ← reviewSuggestions review.phoneDecisions applyPhoneSuggestion PhoneContent.fits
      rows.phones.zipIdx
    let socials ← reviewSuggestions review.socialDecisions applySocialSuggestion SocialContent.fits
      rows.socials.zipIdx
    let attachments ← reviewSuggestions review.attachmentDecisions
      (promoteReportAttachment db.reportId review.reviewedBy) AttachmentContent.fits
      rows.attachments.zipIdx.reverse
    let work : ReportWork FieldValue :=
      { work with aliases := aliases, phones := phones, socials := socials, attachments := attachments }
    return work.apply ((ReportTask.review review).change work now) db
  else throw .dataError

/-! ## What passes -/

section passes

variable {collation : String → String → Bool} {review : Review} {now : ℕ}
  {db db' : ReportStore FieldValue}

theorem reviewSuggestions_ok_iff {α β : Type} {decisions : List Decision}
    {applyCallback : ℕ → Suggestion α → β} {fits : α → Bool}
    {queryset : List (Suggestion α × ℕ)} {outcome : Outcome α β} :
    reviewSuggestions decisions applyCallback fits queryset = .ok outcome ↔
      (applySuggestionDecisions decisions applyCallback queryset).accepted fits = true ∧
        outcome = applySuggestionDecisions decisions applyCallback queryset := by
  unfold reviewSuggestions
  dsimp only
  constructor
  · intro h
    split_ifs at h with haccepted
    exact ⟨haccepted, (Except.ok.inj h).symm⟩
  · rintro ⟨haccepted, rfl⟩
    rw [if_pos haccepted]

section works

variable (collation : String → String → Bool) (review : Review) (db : ReportStore FieldValue)

/-- The writes of a review after its first loop, and after each later one. -/
def withFields : ReportWork FieldValue :=
  reviewFields collation applyFieldToCriminal review db.children db.children .empty

def withAliases : ReportWork FieldValue :=
  { withFields collation review db with
    aliases := applySuggestionDecisions review.aliasDecisions applyAliasSuggestion
      db.children.aliases.zipIdx }

def withPhones : ReportWork FieldValue :=
  { withAliases collation review db with
    phones := applySuggestionDecisions review.phoneDecisions applyPhoneSuggestion
      db.children.phones.zipIdx }

def withSocials : ReportWork FieldValue :=
  { withPhones collation review db with
    socials := applySuggestionDecisions review.socialDecisions applySocialSuggestion
      db.children.socials.zipIdx }

/-- The writes of a review. -/
def reviewWork : ReportWork FieldValue :=
  { withSocials collation review db with
    attachments := applySuggestionDecisions review.attachmentDecisions
      (promoteReportAttachment db.reportId review.reviewedBy) db.children.attachments.zipIdx.reverse }

end works

/-- The checks that a review has to pass. -/
structure ReviewPasses (review : Review) (db : ReportStore FieldValue)
    (work : ReportWork FieldValue) : Prop where
  guard : guardReport db.report (.review review) = .ok ()
  statuses : (work.fieldChanges.all fun row => row.1.status.fits) = true
  criminal : saveCriminal db.profile.fields work.fields = true
  aliases : work.aliases.accepted (fun name => aliasFits (pyStrip name)) = true
  phones : work.phones.accepted PhoneContent.fits = true
  socials : work.socials.accepted SocialContent.fits = true
  attachments : work.attachments.accepted AttachmentContent.fits = true

/-- **When a review returns**, and what it commits. -/
theorem reviewReport_ok_iff :
    reviewReport collation review now db = .ok db' ↔
      ReviewPasses review db (reviewWork collation review db) ∧
        db' = (reviewWork collation review db).apply
          ((ReportTask.review review).change (reviewWork collation review db) now) db := by
  unfold reviewReport
  dsimp only
  constructor
  · intro h
    obtain ⟨⟨⟩, hguard, h⟩ := except_bind_ok_iff.mp h
    split_ifs at h with hfields
    obtain ⟨hstatuses, hcriminal⟩ := Bool.and_eq_true_iff.mp hfields
    obtain ⟨_, haliases, h⟩ := except_bind_ok_iff.mp h
    obtain ⟨aliases, rfl⟩ := reviewSuggestions_ok_iff.mp haliases
    obtain ⟨_, hphones, h⟩ := except_bind_ok_iff.mp h
    obtain ⟨phones, rfl⟩ := reviewSuggestions_ok_iff.mp hphones
    obtain ⟨_, hsocials, h⟩ := except_bind_ok_iff.mp h
    obtain ⟨socials, rfl⟩ := reviewSuggestions_ok_iff.mp hsocials
    obtain ⟨_, hattachments, h⟩ := except_bind_ok_iff.mp h
    obtain ⟨attachments, rfl⟩ := reviewSuggestions_ok_iff.mp hattachments
    exact ⟨⟨hguard, hstatuses, hcriminal, aliases, phones, socials, attachments⟩,
      (Except.ok.inj h).symm⟩
  · rintro ⟨hpasses, rfl⟩
    refine except_bind_ok_iff.mpr ⟨(), hpasses.guard, ?_⟩
    refine (if_pos (Bool.and_eq_true_iff.mpr ⟨hpasses.statuses, hpasses.criminal⟩)).trans ?_
    exact except_bind_ok_iff.mpr ⟨_, reviewSuggestions_ok_iff.mpr ⟨hpasses.aliases, rfl⟩,
      except_bind_ok_iff.mpr ⟨_, reviewSuggestions_ok_iff.mpr ⟨hpasses.phones, rfl⟩,
        except_bind_ok_iff.mpr ⟨_, reviewSuggestions_ok_iff.mpr ⟨hpasses.socials, rfl⟩,
          except_bind_ok_iff.mpr
            ⟨_, reviewSuggestions_ok_iff.mpr ⟨hpasses.attachments, rfl⟩, rfl⟩⟩⟩⟩

/-- The acts of a review that nobody interrupts: load, call, five loops, save and commit. -/
def reviewActs (review : Review) (now : ℕ) : List ReportAct :=
  [.load false, .call (.review review) 0] ++ List.replicate 7 (.advance 0 now)

theorem fits_of_accepted {α β : Type} {fits : α → Bool} {outcome : Outcome α β}
    (h : outcome.accepted fits = true) : outcome.fits = true := (Bool.and_eq_true_iff.mp h).1

/-- One loop of the only call in flight. -/
theorem advance_reviewing {loaded : Report} {part : ReviewSection} {work : ReportWork FieldValue}
    {phase : ReportPhase FieldValue}
    (h : reviewSection collation applyFieldToCriminal db.reportId review (work.children db.children)
      (work.children db.children) work part = .ok phase) :
    ReportSys.step collation applyFieldToCriminal
        ⟨db, [⟨loaded, none⟩], [⟨.review review, ⟨loaded, none⟩, .reviewing part work⟩]⟩
        (.advance 0 now) =
      ⟨db, [⟨loaded, none⟩], [⟨.review review, ⟨loaded, none⟩, phase⟩]⟩ := by
  simp only [ReportSys.step, ReportSys.advance, List.getElem?_cons_zero, Option.getD_none, h]
  rfl

/-- **Refinement.** The review is the run of one call in the system of reviews in flight. -/
theorem reviewReport_run (h : reviewReport collation review now db = .ok db') :
    ((reviewActs review now).foldl (ReportSys.step collation applyFieldToCriminal)
      ⟨db, [], []⟩).db = db' := by
  obtain ⟨hpasses, rfl⟩ := reviewReport_ok_iff.mp h
  have hcall : ReportSys.step collation applyFieldToCriminal
      (ReportSys.step collation applyFieldToCriminal ⟨db, [], []⟩ (.load false))
        (.call (.review review) 0) =
      ⟨db, [⟨db.report, none⟩],
        [⟨.review review, ⟨db.report, none⟩, .reviewing .fields .empty⟩]⟩ := by
    simp only [ReportSys.step, List.nil_append, List.getElem?_cons_zero, hpasses.guard]
    rfl
  simp only [reviewActs, List.cons_append, List.nil_append, List.replicate, List.foldl_cons,
    List.foldl_nil, hcall]
  -- the writes of a loop leave the rows of the later ones as they are
  have hfields : reviewSection collation applyFieldToCriminal db.reportId review
      ((.empty : ReportWork FieldValue).children db.children)
      ((.empty : ReportWork FieldValue).children db.children) .empty .fields = .ok (.reviewing .aliases (withFields collation review db)) :=
    if_pos hpasses.statuses
  have haliases : reviewSection collation applyFieldToCriminal db.reportId review
      ((withFields collation review db).children db.children)
      ((withFields collation review db).children db.children) (withFields collation review db)
      .aliases = .ok (.reviewing .phones (withAliases collation review db)) :=
    if_pos (fits_of_accepted hpasses.aliases)
  have hphones : reviewSection collation applyFieldToCriminal db.reportId review
      ((withAliases collation review db).children db.children)
      ((withAliases collation review db).children db.children) (withAliases collation review db)
      .phones = .ok (.reviewing .socials (withPhones collation review db)) :=
    if_pos (fits_of_accepted hpasses.phones)
  have hsocials : reviewSection collation applyFieldToCriminal db.reportId review
      ((withPhones collation review db).children db.children)
      ((withPhones collation review db).children db.children) (withPhones collation review db)
      .socials = .ok (.reviewing .attachments (withSocials collation review db)) :=
    if_pos (fits_of_accepted hpasses.socials)
  have hattachments : reviewSection collation applyFieldToCriminal db.reportId review
      ((withSocials collation review db).children db.children)
      ((withSocials collation review db).children db.children) (withSocials collation review db)
      .attachments = .ok (.saving (reviewWork collation review db)) :=
    if_pos (fits_of_accepted hpasses.attachments)
  rw [advance_reviewing hfields, advance_reviewing haliases, advance_reviewing hphones,
    advance_reviewing hsocials, advance_reviewing hattachments]
  rfl

end passes

/-! ## What it leaves, row by row -/

/-- The last decision on the row approves it. -/
def approves (decisions : List Decision) (k : ℕ) : Bool :=
  (decisionMap decisions k).any fun decision => decision.status == some .approved

/-- A field change with a decision on it. -/
def decideChange (decision : Decision) (change : FieldChange) : FieldChange :=
  { change with
    status := decision.status.getD .pending
    adminNote := decision.adminNote.getD "" }

/-- A field change that does not parse. -/
def failChange (reason : String) (change : FieldChange) : FieldChange :=
  { change with
    status := .rejected
    adminNote := "اعمال خودکار ناموفق: " ++ reason }

/-- A suggestion with a decision on it. -/
def decideSuggestion {α : Type} (decision : Decision) (suggestion : Suggestion α) : Suggestion α :=
  { suggestion with
    status := decision.status.getD .pending
    adminNote := decision.adminNote.getD "" }

theorem approves_iff {decisions : List Decision} {k : ℕ} :
    approves decisions k = true ↔
      ∃ decision, decisionMap decisions k = some decision ∧ decision.status = some .approved := by
  unfold approves
  cases decisionMap decisions k with
  | none => simp
  | some decision => simp

theorem decideChange_approved_iff {decision : Decision} {change : FieldChange} :
    (decideChange decision change).status = .approved ↔ decision.status = some .approved := by
  show decision.status.getD .pending = .approved ↔ decision.status = some .approved
  cases decision.status with
  | none => simp
  | some status => simp

section fields

variable {collation : String → String → Bool} {review : Review} {rows : ReportChildren}

theorem mem_decideFieldChanges {decisions : List Decision} {queryset : List (FieldChange × ℕ)}
    {row : FieldChange} {k : ℕ} :
    (row, k) ∈ decideFieldChanges decisions queryset ↔
      ∃ change decision, (change, k) ∈ queryset ∧ decisionMap decisions k = some decision ∧
        row = decideChange decision change := by
  induction queryset with
  | nil => simp [decideFieldChanges]
  | cons first queryset ih =>
      obtain ⟨change, j⟩ := first
      rw [decideFieldChanges]
      cases hdecision : decisionMap decisions j with
      | none =>
          rw [ih]
          constructor
          · rintro ⟨change', decision, hmem, h⟩
            exact ⟨change', decision, List.mem_cons_of_mem _ hmem, h⟩
          · rintro ⟨change', decision, hmem, hsome, h⟩
            rcases List.mem_cons.mp hmem with heq | hmem
            · obtain ⟨rfl, rfl⟩ := Prod.mk.inj heq
              rw [hdecision] at hsome
              cases hsome
            · exact ⟨change', decision, hmem, hsome, h⟩
      | some decision =>
          rw [List.mem_cons, ih]
          constructor
          · rintro (heq | ⟨change', decision', hmem, h⟩)
            · obtain ⟨rfl, rfl⟩ := Prod.mk.inj heq
              exact ⟨change, decision, List.mem_cons_self, hdecision, rfl⟩
            · exact ⟨change', decision', List.mem_cons_of_mem _ hmem, h⟩
          · rintro ⟨change', decision', hmem, hsome, rfl⟩
            rcases List.mem_cons.mp hmem with heq | hmem
            · obtain ⟨rfl, rfl⟩ := Prod.mk.inj heq
              obtain rfl := Option.some.inj (hdecision.symm.trans hsome)
              exact Or.inl rfl
            · exact Or.inr ⟨change', decision', hmem, hsome, rfl⟩

theorem positions_decideFieldChanges (decisions : List Decision)
    (queryset : List (FieldChange × ℕ)) :
    ((decideFieldChanges decisions queryset).map Prod.snd).Sublist (queryset.map Prod.snd) := by
  induction queryset with
  | nil => exact List.Sublist.slnil
  | cons first queryset ih =>
      obtain ⟨change, j⟩ := first
      rw [decideFieldChanges]
      cases decisionMap decisions j with
      | none => exact ih.cons j
      | some decision => exact ih.cons_cons j

/-- What an approved change sets. -/
def appliedField (row : FieldChange × ℕ) : Option (String × FieldValue) :=
  if row.1.fieldName ∉ reportableCriminalFields then none
  else (applyFieldToCriminal row.1.fieldName row.1.suggestedValue).toOption.map
    fun value => (row.1.fieldName, value)

/-- The change itself when it does not parse. -/
def failedChange (row : FieldChange × ℕ) : Option (FieldChange × ℕ) :=
  if row.1.fieldName ∉ reportableCriminalFields then none
  else
    match applyFieldToCriminal row.1.fieldName row.1.suggestedValue with
    | .ok _ => none
    | .error reason => some (failChange reason row.1, row.2)

theorem failedChange_of_ok {row : FieldChange × ℕ} {value : FieldValue}
    (h : applyFieldToCriminal row.1.fieldName row.1.suggestedValue = .ok value) :
    failedChange row = none := by
  unfold failedChange
  rw [h, ite_self]

theorem failedChange_of_error {row : FieldChange × ℕ} {reason : String}
    (hfield : row.1.fieldName ∈ reportableCriminalFields)
    (h : applyFieldToCriminal row.1.fieldName row.1.suggestedValue = .error reason) :
    failedChange row = some (failChange reason row.1, row.2) := by
  unfold failedChange
  rw [h, if_neg (not_not_intro hfield)]

theorem applyFieldChanges_eq (approved : List (FieldChange × ℕ)) :
    applyFieldChangesToCriminal applyFieldToCriminal approved =
      (approved.filterMap appliedField, approved.filterMap failedChange) := by
  induction approved with
  | nil => rfl
  | cons row approved ih =>
      obtain ⟨change, k⟩ := row
      rw [applyFieldChangesToCriminal, ih]
      simp only [List.filterMap_cons, appliedField, failedChange]
      split_ifs
      · cases applyFieldToCriminal change.fieldName change.suggestedValue with
        | ok value => rfl
        | error reason => rfl
      · rfl

/-- The loop over the field changes goes through all of them. -/
def orderedChanges (collation : String → String → Bool) (rows : ReportChildren) :
    List (FieldChange × ℕ) :=
  rows.fieldChanges.zipIdx.mergeSort fun x y => collation x.1.fieldName y.1.fieldName

theorem mem_orderedChanges {change : FieldChange} {k : ℕ} :
    (change, k) ∈ orderedChanges collation rows ↔ rows.fieldChanges[k]? = some change := by
  rw [orderedChanges, List.mem_mergeSort, List.mk_mem_zipIdx_iff_getElem?]

theorem nodup_orderedChanges : ((orderedChanges collation rows).map Prod.snd).Nodup :=
  ((List.mergeSort_perm _ _).map Prod.snd).nodup_iff.mpr
    (by rw [List.zipIdx_map_snd]; exact List.nodup_range')

end fields

section reviewed

variable {collation : String → String → Bool} {review : Review} {rows : ReportChildren}

/-- A field change after the review. -/
def reviewedChange (decisions : List Decision) (change : FieldChange) (k : ℕ) : FieldChange :=
  match decisionMap decisions k with
  | none => change
  | some decision =>
      let row := decideChange decision change
      if row.status = .approved then ((failedChange (row, k)).map Prod.fst).getD row else row

theorem position_failedChange {row new : FieldChange × ℕ} (h : failedChange row = some new) :
    new.2 = row.2 := by
  unfold failedChange at h
  split_ifs at h
  split at h
  · cases h
  · obtain rfl := Option.some.inj h
    rfl

/-- The row that the first pass saves for a field change. -/
def savedChange (decisions : List Decision) (rows : ReportChildren) (k : ℕ) : Option FieldChange :=
  rows.fieldChanges[k]?.bind fun change =>
    (decisionMap decisions k).map fun decision => decideChange decision change

theorem mem_saved_iff {decisions : List Decision} {row : FieldChange} {k : ℕ} :
    (row, k) ∈ decideFieldChanges decisions (orderedChanges collation rows) ↔
      savedChange decisions rows k = some row := by
  rw [mem_decideFieldChanges, savedChange]
  simp only [mem_orderedChanges, Option.bind_eq_some_iff, Option.map_eq_some_iff]
  constructor
  · rintro ⟨change, decision, hchange, hdecision, rfl⟩
    exact ⟨change, hchange, decision, hdecision, rfl⟩
  · rintro ⟨change, hchange, decision, hdecision, rfl⟩
    exact ⟨change, decision, hchange, hdecision, rfl⟩

theorem nodup_saved (decisions : List Decision) :
    ((decideFieldChanges decisions (orderedChanges collation rows)).map Prod.snd).Nodup :=
  (positions_decideFieldChanges decisions _).nodup nodup_orderedChanges

/-- The changes that the review applies. -/
def approvedChanges (collation : String → String → Bool) (decisions : List Decision)
    (rows : ReportChildren) : List (FieldChange × ℕ) :=
  (decideFieldChanges decisions (orderedChanges collation rows)).filter fun row =>
    row.1.status == .approved

theorem mem_approvedChanges {decisions : List Decision} {row : FieldChange} {k : ℕ} :
    (row, k) ∈ approvedChanges collation decisions rows ↔
      savedChange decisions rows k = some row ∧ row.status = .approved := by
  rw [approvedChanges, List.mem_filter, mem_saved_iff, beq_iff_eq]

/-- What the review sets and saves for the field changes. -/
theorem reviewFields_eq (db : ReportChildren) (work : ReportWork FieldValue) :
    reviewFields collation applyFieldToCriminal review rows db work =
      { work with
        fieldChanges := decideFieldChanges review.fieldDecisions (orderedChanges collation rows) ++
          (approvedChanges collation review.fieldDecisions rows).filterMap failedChange
        fields := (approvedChanges collation review.fieldDecisions rows).filterMap appliedField
        fieldStatuses := (saveRows db.fieldChanges
          (decideFieldChanges review.fieldDecisions (orderedChanges collation rows) ++
            (approvedChanges collation review.fieldDecisions rows).filterMap failedChange)).map
              FieldChange.status } := by
  show reviewFields collation applyFieldToCriminal review rows db work = _
  unfold reviewFields
  dsimp only
  rw [applyFieldChanges_eq]
  rfl

/-- **Field changes after a review**, row by row. -/
theorem fieldChanges_reviewed (k : ℕ) :
    (saveRows rows.fieldChanges
        (decideFieldChanges review.fieldDecisions (orderedChanges collation rows) ++
          (approvedChanges collation review.fieldDecisions rows).filterMap failedChange))[k]? =
      rows.fieldChanges[k]?.map fun change => reviewedChange review.fieldDecisions change k := by
  have hfailed : ∀ row k, (row, k) ∈
      (approvedChanges collation review.fieldDecisions rows).filterMap failedChange ↔
        ((savedChange review.fieldDecisions rows k).bind fun saved =>
          if saved.status = .approved then (failedChange (saved, k)).map Prod.fst else none) =
            some row := by
    intro row k
    rw [List.mem_filterMap, Option.bind_eq_some_iff]
    constructor
    · rintro ⟨⟨saved, j⟩, hmem, hfails⟩
      obtain rfl : k = j := position_failedChange hfails
      obtain ⟨hsaved, happroved⟩ := mem_approvedChanges.mp hmem
      exact ⟨saved, hsaved, by rw [if_pos happroved, hfails]; rfl⟩
    · rintro ⟨saved, hsaved, hrow⟩
      split_ifs at hrow with happroved
      obtain ⟨⟨new, j⟩, hfails, rfl⟩ := Option.map_eq_some_iff.mp hrow
      obtain rfl : j = k := position_failedChange hfails
      exact ⟨(saved, j), mem_approvedChanges.mpr ⟨hsaved, happroved⟩, hfails⟩
  have hnodup : (((approvedChanges collation review.fieldDecisions rows).filterMap
      failedChange).map Prod.snd).Nodup :=
    nodup_positions_filterMap (fun _ _ => position_failedChange)
      ((List.filter_sublist.map Prod.snd).nodup (nodup_saved review.fieldDecisions))
  have hstored : ∀ saved : List (FieldChange × ℕ),
      saveRows rows.fieldChanges saved = setAll rows.fieldChanges saved := fun _ => rfl
  rw [hstored, setAll_append, getElem?_setAll hnodup hfailed,
    getElem?_setAll (nodup_saved _) fun _ _ => mem_saved_iff]
  cases hrow : rows.fieldChanges[k]? with
  | none => rfl
  | some change =>
      simp only [Option.map_some, savedChange, hrow, Option.bind_some, reviewedChange]
      cases decisionMap review.fieldDecisions k with
      | none => rfl
      | some decision =>
          simp only [Option.map_some, Option.bind_some, Option.getD_some]
          split_ifs <;> rfl

end reviewed

section suggestions

variable {α β : Type} {decisions : List Decision} {applyCallback : ℕ → Suggestion α → β}
  {rows : List (Suggestion α)} {queryset : List (Suggestion α × ℕ)}

/-- A suggestion after the review. -/
def reviewedSuggestion (decisions : List Decision) (suggestion : Suggestion α) (k : ℕ) :
    Suggestion α :=
  (decisionMap decisions k).elim suggestion fun decision => decideSuggestion decision suggestion

theorem saved_eq (queryset : List (Suggestion α × ℕ)) :
    (applySuggestionDecisions decisions applyCallback queryset).saved =
      queryset.filterMap fun row => (decisionMap decisions row.2).map fun decision =>
        (decideSuggestion decision row.1, row.2) := by
  induction queryset with
  | nil => rfl
  | cons row queryset ih =>
      obtain ⟨suggestion, k⟩ := row
      rw [applySuggestionDecisions, List.filterMap_cons, ← ih]
      cases decisionMap decisions k with
      | none => rfl
      | some decision => rfl

theorem statuses_eq (queryset : List (Suggestion α × ℕ)) :
    (applySuggestionDecisions decisions applyCallback queryset).statuses =
      queryset.map fun row => (reviewedSuggestion decisions row.1 row.2).status := by
  induction queryset with
  | nil => rfl
  | cons row queryset ih =>
      obtain ⟨suggestion, k⟩ := row
      rw [applySuggestionDecisions, List.map_cons, ← ih, reviewedSuggestion]
      cases decisionMap decisions k with
      | none => rfl
      | some decision => rfl

/-- **Suggestions after a review**, row by row. -/
theorem suggestions_reviewed (hqueryset : queryset.Perm rows.zipIdx) (k : ℕ) :
    (saveRows rows (applySuggestionDecisions decisions applyCallback queryset).saved)[k]? =
      rows[k]?.map fun suggestion => reviewedSuggestion decisions suggestion k := by
  have hnodup : ((applySuggestionDecisions decisions applyCallback queryset).saved.map
      Prod.snd).Nodup := by
    rw [saved_eq]
    refine nodup_positions_filterMap ?_ ((hqueryset.map Prod.snd).nodup_iff.mpr ?_)
    · intro row new hnew
      obtain ⟨decision, -, rfl⟩ := Option.map_eq_some_iff.mp hnew
      rfl
    · rw [List.zipIdx_map_snd]
      exact List.nodup_range'
  have hmem : ∀ row k,
      (row, k) ∈ (applySuggestionDecisions decisions applyCallback queryset).saved ↔
        (rows[k]?.bind fun suggestion => (decisionMap decisions k).map fun decision =>
          decideSuggestion decision suggestion) = some row := by
    intro row k
    rw [saved_eq, List.mem_filterMap, Option.bind_eq_some_iff]
    constructor
    · rintro ⟨⟨suggestion, j⟩, hrow, hnew⟩
      obtain ⟨decision, hdecision, heq⟩ := Option.map_eq_some_iff.mp hnew
      obtain ⟨rfl, rfl⟩ := Prod.mk.inj heq
      refine ⟨suggestion, List.mk_mem_zipIdx_iff_getElem?.mp (hqueryset.mem_iff.mp hrow), ?_⟩
      rw [hdecision]
      rfl
    · rintro ⟨suggestion, hrow, hnew⟩
      obtain ⟨decision, hdecision, rfl⟩ := Option.map_eq_some_iff.mp hnew
      refine ⟨(suggestion, k),
        hqueryset.mem_iff.mpr (List.mk_mem_zipIdx_iff_getElem?.mpr hrow), ?_⟩
      rw [hdecision]
      rfl
  show (setAll rows _)[k]? = _
  rw [getElem?_setAll hnodup hmem]
  cases hrow : rows[k]? with
  | none => rfl
  | some suggestion =>
      simp only [Option.bind_some, Option.map_some, reviewedSuggestion]
      cases decisionMap decisions k with
      | none => rfl
      | some decision => rfl

/-- The statuses that the loop collects are those of its rows after it. -/
theorem mem_statuses_iff (hqueryset : queryset.Perm rows.zipIdx) {status : DecisionStatus} :
    status ∈ (applySuggestionDecisions decisions applyCallback queryset).statuses ↔
      status ∈ (saveRows rows
        (applySuggestionDecisions decisions applyCallback queryset).saved).map Suggestion.status := by
  rw [statuses_eq, List.mem_map, List.mem_map]
  constructor
  · rintro ⟨⟨suggestion, k⟩, hrow, rfl⟩
    have hk := List.mk_mem_zipIdx_iff_getElem?.mp (hqueryset.mem_iff.mp hrow)
    have hrow : (saveRows rows (applySuggestionDecisions decisions applyCallback queryset).saved)[k]? =
        some (reviewedSuggestion decisions suggestion k) := by
      rw [suggestions_reviewed hqueryset, hk]
      rfl
    exact ⟨_, List.mem_of_getElem? hrow, rfl⟩
  · rintro ⟨row, hrow, rfl⟩
    obtain ⟨k, hk⟩ := List.getElem?_of_mem hrow
    rw [suggestions_reviewed hqueryset, Option.map_eq_some_iff] at hk
    obtain ⟨suggestion, hsuggestion, rfl⟩ := hk
    exact ⟨(suggestion, k),
      hqueryset.mem_iff.mpr (List.mk_mem_zipIdx_iff_getElem?.mpr hsuggestion), rfl⟩

end suggestions

/-! ## What it commits -/

section commits

variable {collation : String → String → Bool} {review : Review} {now : ℕ}
  {db db' : ReportStore FieldValue}

theorem fieldChanges_committed (h : reviewReport collation review now db = .ok db') (k : ℕ) :
    db'.children.fieldChanges[k]? =
      db.children.fieldChanges[k]?.map fun change => reviewedChange review.fieldDecisions change k := by
  obtain ⟨-, rfl⟩ := reviewReport_ok_iff.mp h
  rw [← @fieldChanges_reviewed collation review]
  show (saveRows db.children.fieldChanges (withFields collation review db).fieldChanges)[k]? = _
  rw [withFields, reviewFields_eq]

theorem fields_committed (h : reviewReport collation review now db = .ok db') :
    db'.profile.fields = writeAll db.profile.fields
      ((approvedChanges collation review.fieldDecisions db.children).filterMap appliedField) := by
  obtain ⟨-, rfl⟩ := reviewReport_ok_iff.mp h
  show writeAll db.profile.fields (withFields collation review db).fields = _
  rw [withFields, reviewFields_eq]

theorem appliedField_eq_some_iff {row : FieldChange × ℕ} {fieldName : String}
    {value : FieldValue} :
    appliedField row = some (fieldName, value) ↔
      row.1.fieldName = fieldName ∧ fieldName ∈ reportableCriminalFields ∧
        applyFieldToCriminal fieldName row.1.suggestedValue = .ok value := by
  unfold appliedField
  constructor
  · intro h
    split_ifs at h with hfield
    obtain ⟨applied, hvalue, heq⟩ := Option.map_eq_some_iff.mp h
    obtain ⟨rfl, rfl⟩ := Prod.mk.inj heq
    refine ⟨rfl, hfield, ?_⟩
    cases happly : applyFieldToCriminal row.1.fieldName row.1.suggestedValue with
    | error reason =>
        rw [happly] at hvalue
        cases hvalue
    | ok parsed =>
        rw [happly] at hvalue
        obtain rfl := Option.some.inj hvalue
        rfl
  · rintro ⟨rfl, hfield, hvalue⟩
    rw [if_neg (not_not_intro hfield), hvalue]
    rfl

/-- An approved change is a change that the last decision on it approves. -/
theorem mem_approvedChanges_iff {decisions : List Decision} {rows : ReportChildren}
    {row : FieldChange} {k : ℕ} :
    (row, k) ∈ approvedChanges collation decisions rows ↔
      ∃ change decision, rows.fieldChanges[k]? = some change ∧
        decisionMap decisions k = some decision ∧ decision.status = some .approved ∧
        row = decideChange decision change := by
  rw [mem_approvedChanges, savedChange]
  simp only [Option.bind_eq_some_iff, Option.map_eq_some_iff]
  constructor
  · rintro ⟨⟨change, hchange, decision, hdecision, rfl⟩, hstatus⟩
    exact ⟨change, decision, hchange, hdecision, decideChange_approved_iff.mp hstatus, rfl⟩
  · rintro ⟨change, decision, hchange, hdecision, hstatus, rfl⟩
    exact ⟨⟨change, hchange, decision, hdecision, rfl⟩, decideChange_approved_iff.mpr hstatus⟩

/-- The writes of the fields are the approved changes that parse. -/
theorem mem_appliedFields_iff {decisions : List Decision} {rows : ReportChildren}
    {fieldName : String} {value : FieldValue} :
    (fieldName, value) ∈ (approvedChanges collation decisions rows).filterMap appliedField ↔
      ∃ k change, rows.fieldChanges[k]? = some change ∧ approves decisions k = true ∧
        change.fieldName = fieldName ∧ fieldName ∈ reportableCriminalFields ∧
        applyFieldToCriminal fieldName change.suggestedValue = .ok value := by
  rw [List.mem_filterMap]
  constructor
  · rintro ⟨⟨row, k⟩, hrow, happlied⟩
    obtain ⟨change, decision, hchange, hdecision, hstatus, rfl⟩ := mem_approvedChanges_iff.mp hrow
    exact ⟨k, change, hchange, approves_iff.mpr ⟨decision, hdecision, hstatus⟩,
      appliedField_eq_some_iff.mp happlied⟩
  · rintro ⟨k, change, hchange, happroves, happlied⟩
    obtain ⟨decision, hdecision, hstatus⟩ := approves_iff.mp happroves
    exact ⟨(decideChange decision change, k),
      mem_approvedChanges_iff.mpr ⟨change, decision, hchange, hdecision, hstatus, rfl⟩,
      appliedField_eq_some_iff.mpr happlied⟩

/-- The review keeps the field and the text of a change. -/
theorem reviewedChange_suggests (decisions : List Decision) (change : FieldChange) (k : ℕ) :
    (reviewedChange decisions change k).fieldName = change.fieldName ∧
      (reviewedChange decisions change k).suggestedValue = change.suggestedValue := by
  unfold reviewedChange failedChange
  cases decisionMap decisions k with
  | none => exact ⟨rfl, rfl⟩
  | some decision =>
      dsimp only
      split_ifs
      · cases applyFieldToCriminal (decideChange decision change).fieldName
          (decideChange decision change).suggestedValue with
        | ok value => exact ⟨rfl, rfl⟩
        | error reason => exact ⟨rfl, rfl⟩
      · exact ⟨rfl, rfl⟩
      · exact ⟨rfl, rfl⟩

/-- **The status of a change**: a pending change ends approved when the last decision on it
approves it and its value parses. -/
theorem reviewedChange_approved_iff {decisions : List Decision} {change : FieldChange} {k : ℕ}
    (hpending : change.status = .pending) (hfield : change.fieldName ∈ reportableCriminalFields) :
    (reviewedChange decisions change k).status = .approved ↔
      approves decisions k = true ∧
        ∃ value, applyFieldToCriminal change.fieldName change.suggestedValue = .ok value := by
  rw [approves_iff]
  unfold reviewedChange
  cases hdecision : decisionMap decisions k with
  | none =>
      dsimp only
      rw [hpending]
      simp
  | some decision =>
      dsimp only
      by_cases hstatus : decision.status = some .approved
      · rw [if_pos (decideChange_approved_iff.mpr hstatus)]
        cases happly : applyFieldToCriminal change.fieldName change.suggestedValue with
        | ok value =>
            have hfails : failedChange (decideChange decision change, k) = none :=
              failedChange_of_ok happly
            rw [hfails]
            exact iff_of_true (decideChange_approved_iff.mpr hstatus)
              ⟨⟨decision, rfl, hstatus⟩, value, rfl⟩
        | error reason =>
            have hfails : failedChange (decideChange decision change, k) =
                some (failChange reason (decideChange decision change), k) :=
              failedChange_of_error hfield happly
            rw [hfails]
            refine iff_of_false (fun h => by cases h) ?_
            rintro ⟨-, value, hvalue⟩
            cases hvalue
      · rw [if_neg fun h => hstatus (decideChange_approved_iff.mp h)]
        refine iff_of_false (fun h => hstatus (decideChange_approved_iff.mp h)) ?_
        rintro ⟨⟨other, hother, happroved⟩, -⟩
        obtain rfl := Option.some.inj hother
        exact hstatus happroved

/-- An approved change whose value does not parse ends rejected. -/
theorem reviewedChange_rejected {decisions : List Decision} {change : FieldChange} {k : ℕ}
    (hfield : change.fieldName ∈ reportableCriminalFields) (hk : approves decisions k = true)
    (hfails : ∀ value, applyFieldToCriminal change.fieldName change.suggestedValue ≠ .ok value) :
    (reviewedChange decisions change k).status = .rejected := by
  obtain ⟨decision, hdecision, hstatus⟩ := approves_iff.mp hk
  unfold reviewedChange
  rw [hdecision]
  dsimp only
  rw [if_pos (decideChange_approved_iff.mpr hstatus)]
  cases happly : applyFieldToCriminal change.fieldName change.suggestedValue with
  | ok value => exact absurd happly (hfails value)
  | error reason =>
      have hfailed : failedChange (decideChange decision change, k) =
          some (failChange reason (decideChange decision change), k) :=
        failedChange_of_error hfield happly
      rw [hfailed]
      rfl

end commits

end SetadJang.R4J
