import SetadJang.Framework.PyText
import SetadJang.Framework.Rows
import SetadJang.Framework.Runs

/-!
# R4J: community reports

The report part of `apps/r4j/services.py`.  A user suggests changes to the profile of a
criminal; an admin reviews the report, suggestion by suggestion, and what is approved is
applied to the profile.  The user can ask for the cancellation of a report, which an admin
approves or rejects.

Every service gets an instance that its caller loaded earlier, looks at the status of that
instance, and writes in a transaction of several statements without a lock.  A call takes
one step at a time and can be rolled back between any two.  Its writes are its own until it
commits.  The locks of the written rows only forbid some of the orders that are allowed here.
-/

namespace SetadJang.R4J

open SetadJang.Framework

inductive ReportStatus where
  | pending
  | approved
  | partiallyApproved
  | rejected
  | cancelRequested
  | canceled
deriving DecidableEq, Repr

/-- `REPORT_TERMINAL_STATUSES`. -/
def ReportStatus.isTerminal : ReportStatus → Bool
  | .approved | .partiallyApproved | .rejected | .canceled => true
  | .pending | .cancelRequested => false

/-- `ReportFieldChangeStatus`; the service stores any text that it is given. -/
inductive DecisionStatus where
  | pending
  | approved
  | rejected
  | other (text : String)
deriving DecidableEq, Repr

/-- The column has 20 characters. -/
def DecisionStatus.fits : DecisionStatus → Bool
  | .other text => decide (text.length ≤ 20)
  | _ => true

structure Report where
  status : ReportStatus
  adminNote : String
  reviewedBy : Option ℕ
  reviewedAt : Option ℕ
  cancelRequestedAt : Option ℕ
  canceledAt : Option ℕ
deriving DecidableEq, Repr

structure FieldChange where
  fieldName : String
  suggestedValue : String
  status : DecisionStatus
  adminNote : String
deriving DecidableEq, Repr

structure Suggestion (α : Type) where
  content : α
  status : DecisionStatus
  adminNote : String
deriving DecidableEq, Repr

structure PhoneContent where
  label : String
  number : String
  isPublic : Bool
  notes : String
deriving DecidableEq, Repr

structure SocialContent where
  platform : String
  handleOrUrl : String
  isPublic : Bool
deriving DecidableEq, Repr

structure AttachmentContent where
  file : String
  kind : String
  title : String
  fileSha256 : String
  fileSize : ℕ
deriving DecidableEq, Repr

/-- What a report suggests. -/
structure ReportChildren where
  fieldChanges : List FieldChange
  aliases : List (Suggestion String)
  phones : List (Suggestion PhoneContent)
  socials : List (Suggestion SocialContent)
  attachments : List (Suggestion AttachmentContent)
deriving DecidableEq, Repr

/-- A phone of the criminal, and the suggestion it came from. -/
structure CriminalPhone where
  content : PhoneContent
  source : Option ℕ
deriving DecidableEq, Repr

/-- An attachment of the criminal, and the report attachment it came from. -/
structure CriminalAttachment where
  content : AttachmentContent
  description : String
  isPublic : Bool
  uploadedBy : Option ℕ
  source : Option ℕ
deriving DecidableEq, Repr

/-- The profile of the criminal; `V` are the values of its fields. -/
structure Profile (V : Type) where
  fields : String → V
  aliases : List String
  phones : List CriminalPhone
  socials : List SocialContent
  attachments : List CriminalAttachment

structure ReportStore (V : Type) where
  reportId : ℕ
  report : Report
  children : ReportChildren
  profile : Profile V

inductive ReportError where
  | reportNotReviewable (message : String)
  | reportNotCancelable (message : String)
  | reportNotInCancelRequested (message : String)
  | doesNotExist
  | keyError
  | dataError
  | rolledBack
deriving DecidableEq, Repr

/-! ## Decisions -/

structure Decision where
  id : Option ℤ
  status : Option DecisionStatus
  adminNote : Option String
deriving DecidableEq, Repr

/-- `_decision_map`: the last decision for a row counts. -/
def decisionMap (decisions : List Decision) (k : ℕ) : Option Decision :=
  decisions.reverse.find? fun decision => decision.id == some (k : ℤ)

/-- What the loop over the suggestions of one kind saves, creates and collects. -/
structure Outcome (α β : Type) where
  saved : List (Suggestion α × ℕ)
  created : List β
  statuses : List DecisionStatus

def Outcome.none {α β : Type} : Outcome α β := ⟨[], [], []⟩

/-- `_apply_suggestion_decisions`. -/
def applySuggestionDecisions {α β : Type} (decisions : List Decision)
    (applyCallback : ℕ → Suggestion α → β) : List (Suggestion α × ℕ) → Outcome α β
  | [] => .none
  | (suggestion, k) :: rest =>
      let later := applySuggestionDecisions decisions applyCallback rest
      match decisionMap decisions k with
      | none => { later with statuses := suggestion.status :: later.statuses }
      | some decision =>
          let row : Suggestion α :=
            { suggestion with
              status := decision.status.getD .pending
              adminNote := decision.adminNote.getD "" }
          { saved := (row, k) :: later.saved
            created :=
              if row.status = .approved then applyCallback k row :: later.created
              else later.created
            statuses := row.status :: later.statuses }

/-- `_apply_alias_suggestion`, up to `get_or_create`. -/
def applyAliasSuggestion (_ : ℕ) (suggestion : Suggestion String) : String :=
  pyStrip suggestion.content

/-- `_apply_phone_suggestion`. -/
def applyPhoneSuggestion (k : ℕ) (suggestion : Suggestion PhoneContent) : CriminalPhone :=
  ⟨suggestion.content, some k⟩

/-- `_apply_social_suggestion`, up to `get_or_create`. -/
def applySocialSuggestion (_ : ℕ) (suggestion : Suggestion SocialContent) : SocialContent :=
  suggestion.content

/-- `_promote_report_attachment`. -/
def promoteReportAttachment (reportId actor k : ℕ) (attachment : Suggestion AttachmentContent) :
    CriminalAttachment where
  content :=
    { attachment.content with
      title :=
        if attachment.content.title = "" then "report-attachment-" ++ toString k
        else attachment.content.title }
  description := "Promoted from R4J report #" ++ toString reportId
  isPublic := false
  uploadedBy := some actor
  source := some k

/-- The rows that the first loop of `review_report` saves. -/
def decideFieldChanges (decisions : List Decision) :
    List (FieldChange × ℕ) → List (FieldChange × ℕ)
  | [] => []
  | (change, k) :: rest =>
      match decisionMap decisions k with
      | none => decideFieldChanges decisions rest
      | some decision =>
          ({ change with
              status := decision.status.getD .pending
              adminNote := decision.adminNote.getD "" }, k) :: decideFieldChanges decisions rest

/-- `REPORTABLE_CRIMINAL_FIELDS`. -/
def reportableCriminalFields : List String :=
  ["first_name", "last_name", "national_code", "birth_date", "gender", "country", "province",
    "city", "description", "crimes_summary", "other_info"]

/-- `_apply_field_changes_to_criminal`: the fields it sets, and the changes it rejects
because their value does not parse. -/
def applyFieldChangesToCriminal {V : Type} (applyField : String → String → Except String V) :
    List (FieldChange × ℕ) → List (String × V) × List (FieldChange × ℕ)
  | [] => ([], [])
  | (change, k) :: rest =>
      let (fields, failed) := applyFieldChangesToCriminal applyField rest
      if change.fieldName ∉ reportableCriminalFields then (fields, failed)
      else
        match applyField change.fieldName change.suggestedValue with
        | .ok value => ((change.fieldName, value) :: fields, failed)
        | .error reason =>
            (fields, ({ change with
              status := .rejected
              adminNote := "اعمال خودکار ناموفق: " ++ reason }, k) :: failed)

/-- The status of a reviewed report. -/
def finalStatus (statuses : List DecisionStatus) : ReportStatus :=
  if statuses = [] ∨ ∀ status ∈ statuses, status = .approved then .approved
  else if ∀ status ∈ statuses, status = .rejected then .rejected
  else if DecisionStatus.approved ∈ statuses then .partiallyApproved
  else .rejected

/-! ## Writes -/

/-- What a service saves on the report itself. -/
inductive ReportChange where
  | requestCancel (now : ℕ)
  | review (status : ReportStatus) (adminNote : String) (reviewedBy now : ℕ)
  | approveCancel (adminNote : String) (admin now : ℕ)
  | rejectCancel (adminNote : String)
deriving DecidableEq, Repr

def ReportChange.apply (report : Report) : ReportChange → Report
  | .requestCancel now =>
      { report with status := .cancelRequested, cancelRequestedAt := some now }
  | .review status adminNote reviewedBy now =>
      { report with
        status := status
        adminNote := adminNote
        reviewedBy := some reviewedBy
        reviewedAt := some now }
  | .approveCancel adminNote admin now =>
      { report with
        status := .canceled
        canceledAt := some now
        adminNote := adminNote
        reviewedBy := some admin
        reviewedAt := some now }
  | .rejectCancel adminNote =>
      { report with status := .pending, cancelRequestedAt := none, adminNote := adminNote }

/-- The writes of a transaction so far. -/
structure ReportWork (V : Type) where
  fieldChanges : List (FieldChange × ℕ)
  fields : List (String × V)
  fieldStatuses : List DecisionStatus
  aliases : Outcome String String
  phones : Outcome PhoneContent CriminalPhone
  socials : Outcome SocialContent SocialContent
  attachments : Outcome AttachmentContent CriminalAttachment

def ReportWork.empty {V : Type} : ReportWork V := ⟨[], [], [], .none, .none, .none, .none⟩

def saveRows {α : Type} (rows : List α) (saved : List (α × ℕ)) : List α :=
  saved.foldl (fun rows row => rows.set row.2 row.1) rows

/-- `get_or_create` with the alias as the key. -/
def addAlias (aliases : List String) (name : String) : List String :=
  if name ∈ aliases then aliases else aliases ++ [name]

/-- `get_or_create` with the platform and the handle as the key. -/
def addSocial (socials : List SocialContent) (new : SocialContent) : List SocialContent :=
  if socials.any fun social =>
      social.platform == new.platform && social.handleOrUrl == new.handleOrUrl then socials
  else socials ++ [new]

section Work

variable {V : Type} (work : ReportWork V)

def ReportWork.children (rows : ReportChildren) : ReportChildren where
  fieldChanges := saveRows rows.fieldChanges work.fieldChanges
  aliases := saveRows rows.aliases work.aliases.saved
  phones := saveRows rows.phones work.phones.saved
  socials := saveRows rows.socials work.socials.saved
  attachments := saveRows rows.attachments work.attachments.saved

def ReportWork.profile (profile : Profile V) : Profile V where
  fields := work.fields.foldl (fun fields field => Function.update fields field.1 field.2) profile.fields
  aliases := work.aliases.created.foldl addAlias profile.aliases
  phones := profile.phones ++ work.phones.created
  socials := work.socials.created.foldl addSocial profile.socials
  attachments := profile.attachments ++ work.attachments.created

/-- The commit: all writes become visible together. -/
def ReportWork.apply (change : ReportChange) (db : ReportStore V) : ReportStore V :=
  { db with
    report := change.apply db.report
    children := work.children db.children
    profile := work.profile db.profile }

end Work

/-! ## Calls in flight -/

/-- The decisions of an admin on one report. -/
structure Review where
  reviewedBy : ℕ
  fieldDecisions : List Decision
  aliasDecisions : List Decision
  phoneDecisions : List Decision
  socialDecisions : List Decision
  attachmentDecisions : List Decision
  adminNote : String
deriving DecidableEq, Repr

inductive ReportTask where
  | requestCancel
  | review (review : Review)
  | approveCancel (admin : ℕ) (adminNote : String)
  | rejectCancel (adminNote : String)
deriving DecidableEq, Repr

/-- The loops of `review_report`, one kind of suggestion each. -/
inductive ReviewSection where
  | fields
  | aliases
  | phones
  | socials
  | attachments
deriving DecidableEq, Repr

inductive ReportPhase (V : Type) where
  | reviewing (part : ReviewSection) (work : ReportWork V)
  | saving (work : ReportWork V)
  | saved (work : ReportWork V) (change : ReportChange)
  | ended (result : Except ReportError Unit)

/-- What a caller loaded: the report, and its suggestions if they were prefetched. -/
structure ReportInstance where
  report : Report
  children : Option ReportChildren
deriving DecidableEq, Repr

structure ReportCall (V : Type) where
  task : ReportTask
  loaded : ReportInstance
  phase : ReportPhase V

structure ReportSys (V : Type) where
  db : ReportStore V
  instances : List ReportInstance
  calls : List (ReportCall V)

inductive ReportAct where
  | load (prefetch : Bool)
  | call (task : ReportTask) (j : ℕ)
  | advance (i now : ℕ)
  | rollback (i : ℕ)
deriving DecidableEq, Repr

/-- What a service checks on the instance before it writes. -/
def guardReport (report : Report) : ReportTask → Except ReportError Unit
  | .requestCancel =>
      if report.status ≠ .pending then
        .error (.reportNotCancelable
          "فقط گزارش‌هایی که در انتظار بررسی هستند قابل درخواست لغو می‌باشند.")
      else .ok ()
  | .review review =>
      if report.status ≠ .pending then
        .error (.reportNotReviewable ("فقط گزارش‌هایی که در انتظار بررسی هستند قابل review هستند. " ++
          "برای گزارش‌های در وضعیت درخواست لغو از endpoint مربوطه استفاده کنید."))
      else if review.fieldDecisions.any fun decision => decision.id.isNone then .error .keyError
      else .ok ()
  | .approveCancel _ _ | .rejectCancel _ =>
      if report.status ≠ .cancelRequested then
        .error (.reportNotInCancelRequested "این گزارش در وضعیت درخواست لغو نیست.")
      else .ok ()

/-- What the service saves on the report at its end. -/
def ReportTask.change {V : Type} (work : ReportWork V) (now : ℕ) : ReportTask → ReportChange
  | .requestCancel => .requestCancel now
  | .review given =>
      .review (finalStatus (work.fieldStatuses ++ work.aliases.statuses ++ work.phones.statuses ++
        work.socials.statuses ++ work.attachments.statuses)) given.adminNote given.reviewedBy now
  | .approveCancel admin adminNote => .approveCancel adminNote admin now
  | .rejectCancel adminNote => .rejectCancel adminNote

/-- The first phase of a call. -/
def ReportTask.begin {V : Type} : ReportTask → ReportPhase V
  | .review _ => .reviewing .fields .empty
  | _ => .saving .empty

/-- Every status that is saved fits its column. -/
def Outcome.fits {α β : Type} (outcome : Outcome α β) : Bool :=
  outcome.saved.all fun row => row.1.status.fits

section Sections

variable {V : Type} (collation : String → String → Bool)
  (applyField : String → String → Except String V)

/-- The loop over the field changes, in the order of their names, and the query of their
statuses after it. -/
def reviewFields (review : Review) (rows db : ReportChildren) (work : ReportWork V) :
    ReportWork V :=
  let queryset := rows.fieldChanges.zipIdx.mergeSort fun x y =>
    collation x.1.fieldName y.1.fieldName
  let saved := decideFieldChanges review.fieldDecisions queryset
  let approved := saved.filter fun row => row.1.status == .approved
  let (fields, failed) := applyFieldChangesToCriminal applyField approved
  { work with
    fieldChanges := saved ++ failed
    fields := fields
    fieldStatuses := (saveRows db.fieldChanges (saved ++ failed)).map FieldChange.status }

/-- One loop of the review.  `rows` are the suggestions it goes through. -/
def reviewSection (reportId : ℕ) (review : Review) (rows db : ReportChildren)
    (work : ReportWork V) : ReviewSection → Except ReportError (ReportPhase V)
  | .fields =>
      let work := reviewFields collation applyField review rows db work
      if work.fieldChanges.all fun row => row.1.status.fits then .ok (.reviewing .aliases work)
      else .error .dataError
  | .aliases =>
      let outcome :=
        applySuggestionDecisions review.aliasDecisions applyAliasSuggestion rows.aliases.zipIdx
      if outcome.fits then .ok (.reviewing .phones { work with aliases := outcome })
      else .error .dataError
  | .phones =>
      let outcome :=
        applySuggestionDecisions review.phoneDecisions applyPhoneSuggestion rows.phones.zipIdx
      if outcome.fits then .ok (.reviewing .socials { work with phones := outcome })
      else .error .dataError
  | .socials =>
      let outcome :=
        applySuggestionDecisions review.socialDecisions applySocialSuggestion rows.socials.zipIdx
      if outcome.fits then .ok (.reviewing .attachments { work with socials := outcome })
      else .error .dataError
  | .attachments =>
      let outcome :=
        applySuggestionDecisions review.attachmentDecisions
          (promoteReportAttachment reportId review.reviewedBy) rows.attachments.zipIdx.reverse
      if outcome.fits then .ok (.saving { work with attachments := outcome })
      else .error .dataError

end Sections

namespace ReportSys

variable {V : Type} (collation : String → String → Bool)
  (applyField : String → String → Except String V)

def setPhase (s : ReportSys V) (i : ℕ) (call : ReportCall V) (phase : ReportPhase V) :
    ReportSys V :=
  { s with calls := s.calls.set i { call with phase := phase } }

/-- The next step of a call.  It sees what is committed and its own writes. -/
def advance (s : ReportSys V) (i : ℕ) (call : ReportCall V) (now : ℕ) : ReportSys V :=
  match call.phase with
  | .reviewing part work =>
      match call.task with
      | .review review =>
          let seen := work.children s.db.children
          match reviewSection collation applyField s.db.reportId review
            (call.loaded.children.getD seen) seen work part with
          | .error error => s.setPhase i call (.ended (.error error))
          | .ok phase => s.setPhase i call phase
      | _ => s
  | .saving work => s.setPhase i call (.saved work (call.task.change work now))
  | .saved work change => { s with db := work.apply change s.db }.setPhase i call (.ended (.ok ()))
  | .ended _ => s

def step (s : ReportSys V) : ReportAct → ReportSys V
  | .load prefetch =>
      { s with
        instances := s.instances ++
          [⟨s.db.report, if prefetch then some s.db.children else none⟩] }
  | .call task j =>
      match s.instances[j]? with
      | none => s
      | some loaded =>
          match guardReport loaded.report task with
          | .error _ => s
          | .ok () => { s with calls := s.calls ++ [⟨task, loaded, task.begin⟩] }
  | .advance i now =>
      match s.calls[i]? with
      | none => s
      | some call => s.advance collation applyField i call now
  | .rollback i =>
      match s.calls[i]? with
      | none => s
      | some call =>
          match call.phase with
          | .ended _ => s
          | _ => s.setPhase i call (.ended (.error .rolledBack))

/-- A report that was just submitted.  What the profile has already came from no suggestion
of it. -/
def start (reportId : ℕ) (children : ReportChildren) (profile : Profile V) : ReportSys V where
  db :=
    { reportId := reportId
      report := ⟨.pending, "", none, none, none, none⟩
      children := children
      profile :=
        { profile with
          phones := profile.phones.map fun phone => { phone with source := none }
          attachments := profile.attachments.map fun attachment =>
            { attachment with source := none } } }
  instances := []
  calls := []

end ReportSys

end SetadJang.R4J
