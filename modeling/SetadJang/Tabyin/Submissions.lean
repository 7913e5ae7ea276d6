import SetadJang.Framework.Runs
import SetadJang.Framework.PyText
import SetadJang.Framework.Txn
import SetadJang.Tabyin.Model

/-!
# User submissions and their review

A user edits a submission, an admin approves or rejects it.  Each request loads
the content in one step; the service decides on that copy and later writes only
its `update_fields`, in one transaction that does not look at the row again.  So
an edit decided on a copy that is still in review does not send an approved row
back to review, and an approval may be written over an edit it has not seen.
-/

namespace SetadJang.Tabyin

open SetadJang.Framework SetadJang.Framework.Txn

/-! ## The services -/

/-- A submission in the database: its row, its attachments, the key sequence. -/
structure Submission where
  row : TabyinContent
  attachments : List TabyinAttachment
  nextAttachment : ℕ
deriving DecidableEq, Repr

inductive SubmissionError where
  | submissionNotReviewable (message : String)
  | database (e : SyncError)
  | hook
deriving DecidableEq, Repr

abbrev Submissions := Txn Submission SubmissionError

/-- A column check of the database. -/
def column {α : Type} (r : Except SyncError α) : Except SubmissionError α :=
  r.mapError .database

structure AttachmentMeta where
  size : String
  duration : ℕ
  fileSize : ℕ
deriving DecidableEq, Repr

/-- What the services ask of `apps.tabyin.uploading`: the name of a file of our
own storage, its meta data, its MIME type. -/
structure Uploading where
  localMediaNameFromUrl : String → Option String
  localAttachmentMeta : String → MediaType → Option AttachmentMeta
  guessType : String → Option String

/-- One dictionary of the validated `attachments`. -/
structure AttachmentInput where
  url : String
  mediaType : Option MediaType
  title : Option String
  order : Option ℕ
deriving DecidableEq, Repr

/-- The row of one attachment.  A file of our own is mirrored already; a foreign
address keeps it in `origin_url` and waits for the mirror. -/
def attachmentRow (up : Uploading) (s : Submission) (index : ℕ) (a : AttachmentInput) :
    Except SubmissionError TabyinAttachment := do
  let url := pyStrip a.url
  let mediaType := a.mediaType.getD .other
  let name := up.localMediaNameFromUrl url
  let stored := (name.bind fun n => up.localAttachmentMeta n mediaType).getD ⟨"", 0, 0⟩
  let address ← column (charColumn 1024 url)
  let title ← column (charColumn 512 (a.title.getD ""))
  let order ← column (positiveColumn smallIntegerMax (a.order.getD index))
  let mimeType ← column (charColumn 127 ((name.bind up.guessType).getD ""))
  let size ← column (charColumn 32 stored.size)
  let duration ← column (positiveColumn integerMax stored.duration)
  let fileSize ← column (positiveColumn integerMax stored.fileSize)
  return {
    pk := s.nextAttachment
    content := s.row.pk
    url := address
    relativeUrl := address
    mediaType, size, duration, fileSize, title, order
    originUrl := if name.isSome then "" else address
    mirrorStatus := if name.isSome then .mirrored else .pending
    mimeType }

def createAttachmentRow (up : Uploading) (index : ℕ) (a : AttachmentInput) :
    Submissions PUnit := do
  let s ← get
  let row ← fromExcept (attachmentRow up s index a)
  modify fun s =>
    { s with attachments := s.attachments ++ [row], nextAttachment := s.nextAttachment + 1 }

/-- `_create_attachment_rows`: `for index, attachment in enumerate(attachments)`. -/
def createAttachmentRows (up : Uploading) : ℕ → List AttachmentInput → Submissions PUnit
  | _, [] => pure ⟨⟩
  | index, a :: rest => do
      createAttachmentRow up index a
      createAttachmentRows up (index + 1) rest

/-- The values a new row gets from elsewhere: its keys, the clock, the author's
name. -/
structure NewRow where
  pk : ℕ
  uuid : String
  author : String
  nextAttachment : ℕ
  now : ℕ
deriving DecidableEq, Repr

/-- `submit_user_content`: pending, inactive. -/
def submitUserContent (up : Uploading) (new : NewRow) (user : ℕ) (title description : String)
    (attachments : List AttachmentInput) : Except SubmissionError Submission := do
  let title ← column (charColumn 512 title)
  let description ← column (textColumn description)
  let author ← column (charColumn 255 new.author)
  let row : TabyinContent :=
    { pk := new.pk
      externalId := "local-" ++ new.uuid
      origin := .userSubmitted
      submittedBy := some user
      submissionStatus := .pendingReview
      reviewedBy := none
      reviewedAt := none
      adminNote := ""
      source :=
        { title, description
          authorUsername := author
          sourceEntityId := 0
          sourceStatus := 0
          sourceType := 0
          sourceCreatedAt := some new.now
          sourceUpdatedAt := some new.now
          sourceUrl := ""
          rawPayload := .userSubmission
          contentHash := "" }
      lastSyncedAt := none
      isDeletedInSource := false
      isActive := false
      createdAt := new.now
      updatedAt := new.now }
  match exec (createAttachmentRows up 0 attachments) ⟨row, [], new.nextAttachment⟩ with
  | (.ok _, s) => .ok s
  | (.error e, _) => .error e

/-- The columns of a review. -/
structure ReviewColumns where
  submissionStatus : SubmissionStatus
  reviewedBy : Option ℕ
  reviewedAt : Option ℕ
  adminNote : String
  isActive : Bool
deriving DecidableEq, Repr

/-- The columns named in `update_fields`, with the values of the instance. -/
structure UpdateFields where
  title : Option String
  description : Option String
  review : Option ReviewColumns
  isDeletedInSource : Option Bool
deriving DecidableEq, Repr

/-- `if update_fields:`. -/
def UpdateFields.isEmpty (u : UpdateFields) : Bool :=
  u.title.isNone && u.description.isNone && u.review.isNone && u.isDeletedInSource.isNone

/-- `save(update_fields=…)` on the stored row; `updated_at` is always among them. -/
def TabyinContent.saveFields (row : TabyinContent) (u : UpdateFields) (now : ℕ) : TabyinContent :=
  { row with
    submissionStatus := (u.review.map (·.submissionStatus)).getD row.submissionStatus
    reviewedBy := (u.review.map (·.reviewedBy)).getD row.reviewedBy
    reviewedAt := (u.review.map (·.reviewedAt)).getD row.reviewedAt
    adminNote := (u.review.map (·.adminNote)).getD row.adminNote
    isActive := (u.review.map (·.isActive)).getD row.isActive
    source :=
      { row.source with
        title := u.title.getD row.source.title
        description := u.description.getD row.source.description }
    isDeletedInSource := u.isDeletedInSource.getD row.isDeletedInSource
    updatedAt := now }

def checkOptional (check : String → Except SyncError String) :
    Option String → Except SubmissionError (Option String)
  | none => .ok none
  | some text => (column (check text)).map some

/-- `content.save(update_fields=sorted(update_fields))`. -/
def saveContent (u : UpdateFields) (now : ℕ) : Submissions PUnit := do
  let title ← fromExcept (checkOptional (charColumn 512) u.title)
  let description ← fromExcept (checkOptional textColumn u.description)
  let _ ← fromExcept (checkOptional textColumn (u.review.map (·.adminNote)))
  modify fun s =>
    { s with row := s.row.saveFields { u with title := title, description := description } now }

/-- The edit a user sends. -/
structure Edit where
  title : Option String
  description : Option String
  attachments : Option (List AttachmentInput)
deriving DecidableEq, Repr

/-- The fields `update_user_submission` collects from the loaded instance: a
content that was reviewed goes back to review and out of sight. -/
def editFields (loaded : TabyinContent) (edit : Edit) : UpdateFields where
  title := edit.title
  description := edit.description
  review :=
    if loaded.submissionStatus ≠ .pendingReview then
      some ⟨.pendingReview, none, none, "", false⟩
    else none
  isDeletedInSource := none

/-- `if update_fields: content.save(…)`. -/
def saveEdit (u : UpdateFields) (now : ℕ) : Submissions PUnit :=
  if u.isEmpty then pure ⟨⟩ else saveContent u now

/-- `content.attachments.all().delete()` and the new rows. -/
def replaceAttachments (up : Uploading) : Option (List AttachmentInput) → Submissions PUnit
  | none => pure ⟨⟩
  | some attachments => do
      modify fun s => { s with attachments := [] }
      createAttachmentRows up 0 attachments

/-- `update_user_submission`. -/
def updateUserSubmission (up : Uploading) (loaded : TabyinContent) (edit : Edit) (now : ℕ) :
    Submissions PUnit :=
  atomic do
    saveEdit (editFields loaded edit) now
    replaceAttachments up edit.attachments

def submissionReviewableStatuses : List SubmissionStatus := [.pendingReview]

def notReviewableMessage : String := "این محتوا قبلاً بررسی شده و قابل بررسی مجدد نیست."

/-- The common body of the two reviews.  The hooks after the write are the cache
invalidation and the notification. -/
def reviewUserSubmission (u : UpdateFields) (loaded : TabyinContent) (now : ℕ) (hooksOk : Bool) :
    Submissions PUnit :=
  atomic do
    require (loaded.submissionStatus ∈ submissionReviewableStatuses)
      (.submissionNotReviewable notReviewableMessage)
    saveContent u now
    require (hooksOk = true) .hook

/-- `approve_user_submission`. -/
def approveUserSubmission (loaded : TabyinContent) (admin : ℕ) (adminNote : String) (now : ℕ)
    (hooksOk : Bool) : Submissions PUnit :=
  reviewUserSubmission
    ⟨none, none, some ⟨.approved, some admin, some now, adminNote, true⟩, some false⟩
    loaded now hooksOk

/-- `reject_user_submission`. -/
def rejectUserSubmission (loaded : TabyinContent) (admin : ℕ) (adminNote : String) (now : ℕ)
    (hooksOk : Bool) : Submissions PUnit :=
  reviewUserSubmission
    ⟨none, none, some ⟨.rejected, some admin, some now, adminNote, false⟩, none⟩
    loaded now hooksOk

/-! ## What is public -/

/-- What a reader gets to see of a submission. -/
structure PublicContent where
  title : String
  description : String
  attachments : List TabyinAttachment
deriving DecidableEq, Repr

def Submission.content (s : Submission) : PublicContent :=
  ⟨s.row.source.title, s.row.source.description, s.attachments⟩

/-- `TabyinContentQuerySet.active`. -/
def TabyinContent.active (row : TabyinContent) : Bool :=
  row.isActive && !row.isDeletedInSource && row.submissionStatus == .approved

/-! ## Interleaved requests -/

/-- A request between its load and its write.  An admin's request remembers, for
the statements only, what was stored when it loaded. -/
inductive Request where
  | editing (loaded : TabyinContent)
  | reviewing (loaded : TabyinContent) (seen : PublicContent)
deriving DecidableEq, Repr

/-- The submission, the requests that have loaded it, and what the admin of the
last approval had loaded. -/
structure ReviewSys where
  db : Submission
  requests : List Request
  approved : Option PublicContent
deriving DecidableEq, Repr

inductive ReviewAct where
  | loadOwner
  | loadAdmin
  | update (i : ℕ) (edit : Edit) (now : ℕ)
  | approve (i admin : ℕ) (adminNote : String) (now : ℕ) (hooksOk : Bool)
  | reject (i admin : ℕ) (adminNote : String) (now : ℕ) (hooksOk : Bool)
deriving DecidableEq, Repr

/-- A call that raised leaves the system alone. -/
def ReviewSys.write (s : ReviewSys) (m : Submissions PUnit) (approved : Option PublicContent) :
    ReviewSys :=
  match exec m s.db with
  | (.ok _, db) => { s with db := db, approved := approved }
  | (.error _, _) => s

/-- One load or one write.  Only the service that the request is for writes. -/
def ReviewSys.step (up : Uploading) (s : ReviewSys) : ReviewAct → ReviewSys
  | .loadOwner => { s with requests := s.requests ++ [.editing s.db.row] }
  | .loadAdmin => { s with requests := s.requests ++ [.reviewing s.db.row s.db.content] }
  | .update i edit now =>
      match s.requests[i]? with
      | some (.editing loaded) => s.write (updateUserSubmission up loaded edit now) s.approved
      | _ => s
  | .approve i admin adminNote now hooksOk =>
      match s.requests[i]? with
      | some (.reviewing loaded seen) =>
          s.write (approveUserSubmission loaded admin adminNote now hooksOk) (some seen)
      | _ => s
  | .reject i admin adminNote now hooksOk =>
      match s.requests[i]? with
      | some (.reviewing loaded _) =>
          s.write (rejectUserSubmission loaded admin adminNote now hooksOk) s.approved
      | _ => s

def ReviewSys.start (db : Submission) : ReviewSys := ⟨db, [], none⟩

/-- **Nothing unreviewed is public.** -/
def PublicIsReviewed (s : ReviewSys) : Prop :=
  s.db.row.active = true → s.approved = some s.db.content

instance (s : ReviewSys) : Decidable (PublicIsReviewed s) :=
  inferInstanceAs (Decidable (_ → _))

/-- An approval finds the content its admin has loaded, and an edit that was
loaded in review does not find the row public. -/
def FindsWhatItLoaded (s : ReviewSys) : ReviewAct → Prop
  | .approve i _ _ _ _ => ∀ loaded seen, s.requests[i]? = some (.reviewing loaded seen) →
      loaded.submissionStatus = .pendingReview → s.db.content = seen
  | .update i _ _ => ∀ loaded, s.requests[i]? = some (.editing loaded) →
      loaded.submissionStatus = .pendingReview → s.db.row.active = false
  | _ => True

/-! ## Spec lemmas -/

/-- The write was rolled back, or it committed. -/
theorem write_cases (s : ReviewSys) (m : Submissions PUnit) (approved : Option PublicContent) :
    s.write m approved = s ∨
      ∃ db, Commits m s.db ⟨⟩ db ∧ s.write m approved = { s with db := db, approved := approved } := by
  unfold ReviewSys.write Commits
  rcases exec m s.db with ⟨r, db⟩
  cases r with
  | error e => exact Or.inl rfl
  | ok u => exact Or.inr ⟨db, rfl, rfl⟩

theorem checkOptional_none {check : String → Except SyncError String} {given kept : Option String}
    (h : checkOptional check given = .ok kept) (hnone : given = none) : kept = none := by
  subst hnone
  cases h
  rfl

theorem commits_saveContent {u : UpdateFields} {now : ℕ} {s t : Submission} {r : PUnit}
    (h : Commits (saveContent u now) s r t) :
    ∃ title description,
      t = { s with row := s.row.saveFields { u with title, description } now } ∧
        (u.title = none → title = none) ∧ (u.description = none → description = none) := by
  simp only [saveContent, commits_bind, commits_fromExcept, commits_modify] at h
  obtain ⟨title, _, ⟨htitle, rfl⟩, description, _, ⟨hdescription, rfl⟩, _, _, ⟨-, rfl⟩, rfl⟩ := h
  exact ⟨title, description, rfl, checkOptional_none htitle, checkOptional_none hdescription⟩

/-- Attachments do not touch the row. -/
theorem commits_createAttachmentRows {up : Uploading} {index : ℕ} {as : List AttachmentInput}
    {s t : Submission} {r : PUnit} (h : Commits (createAttachmentRows up index as) s r t) :
    t.row = s.row := by
  induction as generalizing index s with
  | nil =>
      simp only [createAttachmentRows, commits_pure] at h
      rw [h.2]
  | cons a rest ih =>
      simp only [createAttachmentRows, createAttachmentRow, commits_bind, commits_get,
        commits_fromExcept, commits_modify] at h
      obtain ⟨_, u, ⟨_, _, ⟨rfl, rfl⟩, _, _, ⟨-, rfl⟩, rfl⟩, hrest⟩ := h
      rw [ih hrest]

theorem commits_replaceAttachments {up : Uploading} {as : Option (List AttachmentInput)}
    {s t : Submission} {r : PUnit} (h : Commits (replaceAttachments up as) s r t) :
    t.row = s.row := by
  cases as with
  | none =>
      simp only [replaceAttachments, commits_pure] at h
      rw [h.2]
  | some as =>
      simp only [replaceAttachments, commits_bind, commits_modify] at h
      obtain ⟨_, _, rfl, hrows⟩ := h
      rw [commits_createAttachmentRows hrows]

/-- **What an edit does to the row's visibility**: a copy that was reviewed hides
it, a copy in review leaves it as it is. -/
theorem commits_updateUserSubmission {up : Uploading} {loaded : TabyinContent} {edit : Edit}
    {now : ℕ} {s t : Submission} {r : PUnit}
    (h : Commits (updateUserSubmission up loaded edit now) s r t) :
    t.row.active = if loaded.submissionStatus = .pendingReview then s.row.active else false := by
  simp only [updateUserSubmission, saveEdit, commits_atomic, commits_bind, commits_ite,
    commits_pure] at h
  obtain ⟨_, u, hsave, hrows⟩ := h
  rw [commits_replaceAttachments hrows]
  rcases hsave with ⟨hempty, -, rfl⟩ | ⟨-, hsave⟩
  · have hpend : loaded.submissionStatus = .pendingReview := by
      by_contra hne
      simp [UpdateFields.isEmpty, editFields, hne] at hempty
    rw [if_pos hpend]
  · obtain ⟨title, description, rfl, -, -⟩ := commits_saveContent hsave
    by_cases hpend : loaded.submissionStatus = .pendingReview
    · rw [if_pos hpend]
      simp [TabyinContent.active, TabyinContent.saveFields, editFields, hpend]
    · rw [if_neg hpend]
      simp [TabyinContent.active, TabyinContent.saveFields, editFields, hpend]

/-- A review is decided on a copy in review and leaves the content alone. -/
theorem commits_reviewUserSubmission {u : UpdateFields} {loaded : TabyinContent} {now : ℕ}
    {hooksOk : Bool} {s t : Submission} {r : PUnit}
    (htitle : u.title = none) (hdescription : u.description = none)
    (h : Commits (reviewUserSubmission u loaded now hooksOk) s r t) :
    loaded.submissionStatus = .pendingReview ∧ t.content = s.content ∧
      t.row = s.row.saveFields u now := by
  simp only [reviewUserSubmission, commits_atomic, commits_bind, commits_require] at h
  obtain ⟨_, _, ⟨hstatus, rfl⟩, _, _, hsave, -, rfl⟩ := h
  obtain ⟨title, description, rfl, ht, hd⟩ := commits_saveContent hsave
  obtain rfl := ht htitle
  obtain rfl := hd hdescription
  refine ⟨?_, ?_, ?_⟩
  · simpa [submissionReviewableStatuses] using hstatus
  · simp [Submission.content, TabyinContent.saveFields]
  · obtain ⟨title, description, review, isDeleted⟩ := u
    obtain rfl : title = none := htitle
    obtain rfl : description = none := hdescription
    rfl

/-- A submission is not public when it is made. -/
theorem submitted_hidden {up : Uploading} {new : NewRow} {user : ℕ} {title description : String}
    {as : List AttachmentInput} {db : Submission}
    (h : submitUserContent up new user title description as = .ok db) : db.row.active = false := by
  unfold submitUserContent at h
  cases htitle : column (charColumn 512 title) with
  | error e => simp [htitle, bind, Except.bind] at h
  | ok title' =>
  cases hdescription : column (textColumn description) with
  | error e => simp [htitle, hdescription, bind, Except.bind] at h
  | ok description' =>
  cases hauthor : column (charColumn 255 new.author) with
  | error e => simp [htitle, hdescription, hauthor, bind, Except.bind] at h
  | ok author =>
  simp only [htitle, hdescription, hauthor, bind, Except.bind] at h
  split at h
  · next r s hexec =>
      cases h
      rw [commits_createAttachmentRows hexec]
      rfl
  · cases h

/-! ## Every run -/

section

variable {up : Uploading} {s : ReviewSys}

/-- **Step lemma.** -/
theorem publicIsReviewed_step (hs : PublicIsReviewed s) {a : ReviewAct}
    (hok : FindsWhatItLoaded s a) : PublicIsReviewed (s.step up a) := by
  cases a with
  | loadOwner => exact hs
  | loadAdmin => exact hs
  | update i edit now =>
      simp only [ReviewSys.step]
      split
      · next loaded hreq =>
          rcases write_cases s (updateUserSubmission up loaded edit now) s.approved with
            hsame | ⟨db, hcommit, hdb⟩
          · rw [hsame]
            exact hs
          · have hactive := commits_updateUserSubmission hcommit
            rw [hdb]
            intro hpublic
            rw [hactive] at hpublic
            split at hpublic
            · -- decided on a copy in review: the columns of the status are left as they are
              next hpend =>
                rw [hok loaded hreq hpend] at hpublic
                cases hpublic
            · -- decided on a reviewed copy: the row goes back to review
              cases hpublic
      · exact hs
  | approve i admin adminNote now hooksOk =>
      simp only [ReviewSys.step]
      split
      · next loaded seen hreq =>
          rcases write_cases s (approveUserSubmission loaded admin adminNote now hooksOk)
              (some seen) with hsame | ⟨db, hcommit, hdb⟩
          · rw [hsame]
            exact hs
          · obtain ⟨hpend, hcontent, -⟩ := commits_reviewUserSubmission rfl rfl hcommit
            rw [hdb]
            intro _
            show some seen = some db.content
            rw [hcontent, hok loaded seen hreq hpend]
      · exact hs
  | reject i admin adminNote now hooksOk =>
      simp only [ReviewSys.step]
      split
      · next loaded seen hreq =>
          rcases write_cases s (rejectUserSubmission loaded admin adminNote now hooksOk)
              s.approved with hsame | ⟨db, hcommit, hdb⟩
          · rw [hsame]
            exact hs
          · obtain ⟨-, -, hrow⟩ := commits_reviewUserSubmission rfl rfl hcommit
            rw [hdb]
            intro hpublic
            rw [hrow] at hpublic
            simp [TabyinContent.active, TabyinContent.saveFields] at hpublic
      · exact hs

end

/-- **Nothing unreviewed becomes public** in every run in which approvals find
the content they were loaded with, and edits loaded in review find the row
hidden. -/
theorem public_is_reviewed (up : Uploading) (new : NewRow) (user : ℕ)
    (title description : String) (as : List AttachmentInput) (db : Submission)
    (hdb : submitUserContent up new user title description as = .ok db) (acts : List ReviewAct)
    (hok : Along (ReviewSys.step up) FindsWhatItLoaded (ReviewSys.start db) acts) :
    ∀ pre, pre <+: acts → PublicIsReviewed (run (ReviewSys.step up) (ReviewSys.start db) pre) := by
  intro pre hpre
  have hstart : PublicIsReviewed (ReviewSys.start db) := by
    intro hpublic
    rw [show (ReviewSys.start db).db.row = db.row from rfl, submitted_hidden hdb] at hpublic
    cases hpublic
  exact invariant_along (I := PublicIsReviewed)
    (fun s a hs hfinds => publicIsReviewed_step hs hfinds) hstart (along_earlier hok hpre)

/-- A storage without files. -/
def noMedia : Uploading := ⟨fun _ => none, fun _ _ => none, fun _ => none⟩

def firstRow : NewRow := ⟨1, "5f0c", "ali@example.com", 1, 10⟩

/-- A submission with the title `seen` and no attachment. -/
def submitted : Submission where
  row :=
    { pk := 1
      externalId := "local-5f0c"
      origin := .userSubmitted
      submittedBy := some 7
      submissionStatus := .pendingReview
      reviewedBy := none
      reviewedAt := none
      adminNote := ""
      source := ⟨"seen", "text", "ali@example.com", 0, 0, 0, some 10, some 10, "", .userSubmission, ""⟩
      lastSyncedAt := none
      isDeletedInSource := false
      isActive := false
      createdAt := 10
      updatedAt := 10 }
  attachments := []
  nextAttachment := 1

def newTitle : Edit := ⟨some "unseen", none, none⟩

/-- Both requests load, then the edit comes first and the admin approves what
was loaded anew: the edit is reviewed. -/
theorem public_is_reviewed_reloaded :
    PublicIsReviewed (run (ReviewSys.step noMedia) (ReviewSys.start submitted)
      [.loadOwner, .loadAdmin, .update 0 newTitle 11, .loadAdmin, .approve 2 3 "" 12 true]) := by
  refine public_is_reviewed noMedia firstRow 7 "seen" "text" [] submitted (by decide) _ ?_ _
    (List.prefix_refl _)
  refine ⟨trivial, trivial, ?_, trivial, ?_, trivial⟩
  · intro loaded _ _
    decide
  · intro loaded seen hreq _
    cases hreq
    decide

/-- Both requests load; the approval is written first and the edit, decided on a
copy in review, leaves the row public with a title no admin has seen. -/
theorem unreviewed_title_public :
    submitUserContent noMedia firstRow 7 "seen" "text" [] = .ok submitted ∧
      ¬ PublicIsReviewed (run (ReviewSys.step noMedia) (ReviewSys.start submitted)
        [.loadOwner, .loadAdmin, .approve 1 3 "" 11 true, .update 0 newTitle 12]) := by
  decide

end SetadJang.Tabyin
