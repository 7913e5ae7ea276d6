import SetadJang.R4J.Reports

/-!
# The custody trail of evidence

Every evidence file has custody events: two when it is uploaded, one when it is promoted from
a report to the profile of the criminal, and one for each review by an admin.  A custody event
refuses to be changed or deleted.  It points to its attachment, though, with a foreign key that
cascades, and the deletion of an attachment does not ask its events one by one.

Each service call is one transaction, which a raise rolls back.  A caller may have loaded the
report long before.
-/

namespace SetadJang.R4J

open SetadJang.Framework

/-! ## Rows -/

inductive EvidenceCustodyEventType where
  | uploaded
  | hashed
  | reviewed
  | transferred
  | rejected
  | deleted
deriving DecidableEq, Repr

/-- The foreign keys of an event, one of which is set. -/
inductive CustodyTarget where
  | criminalAttachment (id : ℕ)
  | reportAttachment (id : ℕ)
deriving DecidableEq, Repr

inductive CustodyMetadata where
  | fileSize (size : ℕ)
  | sha256 (digest : String)
  | source (reportAttachment report : ℕ)
  | sourceEvent (event : ℕ)
deriving DecidableEq, Repr

structure R4JEvidenceCustodyEvent where
  id : ℕ
  target : CustodyTarget
  eventType : EvidenceCustodyEventType
  actor : Option ℕ
  fileSha256 : String
  note : String
  metadata : CustodyMetadata
deriving DecidableEq, Repr

structure R4JCriminalAttachment where
  id : ℕ
  criminal : ℕ
  attachment : CriminalAttachment
deriving DecidableEq, Repr

/-- Its key is its place in the table; no service removes one. -/
structure R4JReportAttachment where
  report : ℕ
  suggestion : Suggestion AttachmentContent
  promoted : Option ℕ
deriving DecidableEq, Repr

structure R4JReport where
  criminal : ℕ
  submittedBy : ℕ
  report : Report
deriving DecidableEq, Repr

structure CustodyStore where
  attachments : List R4JCriminalAttachment
  nextAttachment : ℕ
  reports : List R4JReport
  reportAttachments : List R4JReportAttachment
  events : List R4JEvidenceCustodyEvent
  nextEvent : ℕ
deriving DecidableEq, Repr

def CustodyStore.empty : CustodyStore := ⟨[], 0, [], [], [], 0⟩

/-! ## Services -/

/-- An uploaded file; `none` cannot be read. -/
structure UploadedFile where
  name : String
  content : Option (List UInt8)
deriving DecidableEq, Repr

/-- An entry of `attachments` in `submit_report`. -/
structure ReportUpload where
  file : UploadedFile
  title : Option String
  kind : Option String
deriving DecidableEq, Repr

inductive CustodyAct where
  | addAttachment (criminal : ℕ) (file : UploadedFile) (title kind description : String)
      (isPublic : Bool) (uploadedBy : Option ℕ)
  | removeAttachment (k : ℕ)
  | submitReport (criminal submittedBy : ℕ) (fieldNames : List String)
      (attachments : List ReportUpload)
  /-- A service on report `r`, of which the caller has the copy `loaded`.  `others` is what the
  rest of a review comes to: a raise, or the statuses of the other suggestions. -/
  | reportService (r : ℕ) (loaded : Report) (task : ReportTask)
      (others : Except ReportError (List DecisionStatus)) (now : ℕ)
  | recordCustodyReview (event actor : ℕ) (eventType : EvidenceCustodyEventType) (note : String)

namespace CustodyStore

/-- `_create_custody_event`. -/
def createCustodyEvent (s : CustodyStore) (target : CustodyTarget)
    (eventType : EvidenceCustodyEventType) (actor : Option ℕ) (sha note : String)
    (metadata : CustodyMetadata) : CustodyStore :=
  { s with
    events := s.events ++ [⟨s.nextEvent, target, eventType, actor, sha, note, metadata⟩]
    nextEvent := s.nextEvent + 1 }

/-- The two events of `_finalize_evidence_hash`. -/
def uploadEvents (s : CustodyStore) (target : CustodyTarget) (actor : Option ℕ) (sha : String)
    (size : ℕ) : CustodyStore :=
  (s.createCustodyEvent target .uploaded actor sha "" (.fileSize size)).createCustodyEvent
    target .hashed actor sha "" (.sha256 sha)

def createAttachment (s : CustodyStore) (criminal : ℕ) (attachment : CriminalAttachment) :
    CustodyStore :=
  { s with
    attachments := s.attachments ++ [⟨s.nextAttachment, criminal, attachment⟩]
    nextAttachment := s.nextAttachment + 1 }

/-- The columns of a title and a kind. -/
def fitsColumns (title kind : String) : Bool :=
  decide (title.length ≤ 255) && decide (kind.length ≤ 20)

/-- `add_attachment`. -/
def addAttachment (sha256 : List UInt8 → String) (s : CustodyStore) (criminal : ℕ)
    (file : UploadedFile) (title kind description : String) (isPublic : Bool)
    (uploadedBy : Option ℕ) : Option CustodyStore :=
  if fitsColumns title kind = true then
    file.content.map fun bytes =>
      let content : AttachmentContent := ⟨file.name, kind, title, sha256 bytes, bytes.length⟩
      (s.createAttachment criminal ⟨content, description, isPublic, uploadedBy, none⟩).uploadEvents
        (.criminalAttachment s.nextAttachment) uploadedBy (sha256 bytes) bytes.length
  else none

/-- `attachment.delete()`: the collector takes the events that point to the attachment along,
and clears the references of the report attachments. -/
def removeAttachment (s : CustodyStore) (k : ℕ) : CustodyStore :=
  { s with
    attachments := s.attachments.filter fun row => row.id != k
    events := s.events.filter fun event => event.target != .criminalAttachment k
    reportAttachments := s.reportAttachments.map fun row =>
      if row.promoted = some k then { row with promoted := none } else row }

/-- One attachment in `submit_report`. -/
def addReportAttachment (sha256 : List UInt8 → String) (s : CustodyStore) (r submittedBy : ℕ)
    (upload : ReportUpload) : Option CustodyStore :=
  let title := upload.title.getD ""
  let kind := upload.kind.getD "document"
  if fitsColumns title kind = true then
    upload.file.content.map fun bytes =>
      let content : AttachmentContent :=
        ⟨upload.file.name, kind, title, sha256 bytes, bytes.length⟩
      let row : R4JReportAttachment := ⟨r, ⟨content, .pending, ""⟩, none⟩
      { s with reportAttachments := s.reportAttachments ++ [row] }.uploadEvents
        (.reportAttachment s.reportAttachments.length) (some submittedBy) (sha256 bytes)
        bytes.length
  else none

def addReportAttachments (sha256 : List UInt8 → String) (r submittedBy : ℕ) :
    List ReportUpload → CustodyStore → Option CustodyStore
  | [], s => some s
  | upload :: uploads, s =>
      (s.addReportAttachment sha256 r submittedBy upload).bind
        (addReportAttachments sha256 r submittedBy uploads)

/-- `submit_report`, its attachments. -/
def submitReport (sha256 : List UInt8 → String) (s : CustodyStore) (criminal submittedBy : ℕ)
    (fieldNames : List String) (attachments : List ReportUpload) : Option CustodyStore :=
  if fieldNames.all fun name => reportableCriminalFields.contains name then
    let row : R4JReport := ⟨criminal, submittedBy, ⟨.pending, "", none, none, none, none⟩⟩
    addReportAttachments sha256 s.reports.length submittedBy attachments
      { s with reports := s.reports ++ [row] }
  else none

/-- `_promote_report_attachment` for one approved attachment. -/
def promote (r criminal actor : ℕ) (s : CustodyStore) (created : CriminalAttachment) :
    CustodyStore :=
  let k := created.source.getD 0
  { s.createAttachment criminal created with
    reportAttachments := s.reportAttachments.modify k fun row =>
      { row with promoted := some s.nextAttachment } }.createCustodyEvent
    (.criminalAttachment s.nextAttachment) .transferred (some actor) created.content.fileSha256 ""
    (.source k r)

/-- The attachments of a report, the newest first. -/
def attachmentsOf (s : CustodyStore) (r : ℕ) : List (Suggestion AttachmentContent × ℕ) :=
  ((s.reportAttachments.zipIdx.filter fun row => row.1.report == r).map fun row =>
    (row.1.suggestion, row.2)).reverse

def saveReportAttachment (s : CustodyStore) (row : Suggestion AttachmentContent × ℕ) :
    CustodyStore :=
  { s with
    reportAttachments := s.reportAttachments.modify row.2 fun old =>
      { old with suggestion := row.1 } }

def saveReport (s : CustodyStore) (r : ℕ) (change : ReportChange) : CustodyStore :=
  { s with
    reports := s.reports.modify r fun row => { row with report := change.apply row.report } }

/-- `review_report`, its attachments and its end. -/
def reviewReport (s : CustodyStore) (r criminal : ℕ) (review : Review)
    (others : Except ReportError (List DecisionStatus)) (now : ℕ) : Option CustodyStore :=
  match others with
  | .error _ => none
  | .ok statuses =>
      let outcome := applySuggestionDecisions review.attachmentDecisions
        (promoteReportAttachment r review.reviewedBy) (s.attachmentsOf r)
      if outcome.fits = true then
        let s := outcome.created.foldl (promote r criminal review.reviewedBy) s
        let s := outcome.saved.foldl saveReportAttachment s
        some (s.saveReport r (.review (finalStatus (statuses ++ outcome.statuses)) review.adminNote
          review.reviewedBy now))
      else none

/-- A service on a report; it checks the copy that its caller loaded. -/
def reportService (s : CustodyStore) (r : ℕ) (loaded : Report) (task : ReportTask)
    (others : Except ReportError (List DecisionStatus)) (now : ℕ) : Option CustodyStore :=
  match s.reports[r]?, guardReport loaded task with
  | some row, .ok () =>
      match task with
      | .requestCancel => some (s.saveReport r (.requestCancel now))
      | .approveCancel admin adminNote => some (s.saveReport r (.approveCancel adminNote admin now))
      | .rejectCancel adminNote => some (s.saveReport r (.rejectCancel adminNote))
      | .review review => s.reviewReport r row.criminal review others now
  | _, _ => none

/-- The digest of the file that an event is about; `none` where the row is gone. -/
def targetSha (s : CustodyStore) : CustodyTarget → Option String
  | .criminalAttachment k =>
      (s.attachments.find? fun row => row.id == k).map fun row => row.attachment.content.fileSha256
  | .reportAttachment k => s.reportAttachments[k]?.map fun row => row.suggestion.content.fileSha256

/-- `record_evidence_custody_review`. -/
def recordCustodyReview (s : CustodyStore) (event actor : ℕ)
    (eventType : EvidenceCustodyEventType) (note : String) : Option CustodyStore :=
  if eventType = .uploaded ∨ eventType = .hashed then none
  else
    (s.events.find? fun row => row.id == event).bind fun row =>
      (s.targetSha row.target).map fun sha =>
        s.createCustodyEvent row.target eventType (some actor) sha note (.sourceEvent event)

end CustodyStore

open CustodyStore in
/-- A service call; what raises leaves the store as it was. -/
def custodyStep (sha256 : List UInt8 → String) (s : CustodyStore) : CustodyAct → CustodyStore
  | .addAttachment criminal file title kind description isPublic uploadedBy =>
      (s.addAttachment sha256 criminal file title kind description isPublic uploadedBy).getD s
  | .removeAttachment k => s.removeAttachment k
  | .submitReport criminal submittedBy fieldNames attachments =>
      (s.submitReport sha256 criminal submittedBy fieldNames attachments).getD s
  | .reportService r loaded task others now => (s.reportService r loaded task others now).getD s
  | .recordCustodyReview event actor eventType note =>
      (s.recordCustodyReview event actor eventType note).getD s

/-! ## What a service adds -/

/-- Every attachment of a profile has an event, and no event points to one that is gone. -/
structure Tracked (s : CustodyStore) : Prop where
  covered : ∀ row ∈ s.attachments, ∃ event ∈ s.events, event.target = .criminalAttachment row.id
  present : ∀ event ∈ s.events, ∀ k, event.target = .criminalAttachment k →
    ∃ row ∈ s.attachments, row.id = k

/-- Attachments are added with an event each, and nothing goes. -/
def Grows (s s' : CustodyStore) : Prop :=
  ∃ rows events, s'.attachments = s.attachments ++ rows ∧ s'.events = s.events ++ events ∧
    (∀ row ∈ rows, ∃ event ∈ events, event.target = .criminalAttachment row.id) ∧
    ∀ event ∈ events, ∀ k, event.target = .criminalAttachment k →
      ∃ row ∈ s'.attachments, row.id = k

theorem grows_of_same {s s' : CustodyStore} (hattachments : s'.attachments = s.attachments)
    (hevents : s'.events = s.events) : Grows s s' :=
  ⟨[], [], by simp [hattachments], by simp [hevents], nofun, nofun⟩

theorem Grows.trans {s t u : CustodyStore} (hst : Grows s t) (htu : Grows t u) : Grows s u := by
  obtain ⟨rows, events, hrows, hevents, hcovered, hpresent⟩ := hst
  obtain ⟨rows', events', hrows', hevents', hcovered', hpresent'⟩ := htu
  refine ⟨rows ++ rows', events ++ events', by rw [hrows', hrows, List.append_assoc],
    by rw [hevents', hevents, List.append_assoc], ?_, ?_⟩
  · intro row hrow
    rcases List.mem_append.mp hrow with hold | hnew
    · obtain ⟨event, hevent, htarget⟩ := hcovered row hold
      exact ⟨event, List.mem_append_left _ hevent, htarget⟩
    · obtain ⟨event, hevent, htarget⟩ := hcovered' row hnew
      exact ⟨event, List.mem_append_right _ hevent, htarget⟩
  · intro event hevent k htarget
    rcases List.mem_append.mp hevent with hold | hnew
    · obtain ⟨row, hrow, hid⟩ := hpresent event hold k htarget
      exact ⟨row, hrows' ▸ List.mem_append_left _ hrow, hid⟩
    · exact hpresent' event hnew k htarget

theorem Grows.kept {s s' : CustodyStore} (h : Grows s s') : s.events <+: s'.events := by
  obtain ⟨_, events, -, hevents, -⟩ := h
  exact ⟨events, hevents.symm⟩

theorem Grows.tracked {s s' : CustodyStore} (h : Grows s s') (hs : Tracked s) : Tracked s' := by
  obtain ⟨rows, events, hrows, hevents, hcovered, hpresent⟩ := h
  constructor
  · intro row hrow
    rw [hevents]
    rw [hrows] at hrow
    rcases List.mem_append.mp hrow with hold | hnew
    · obtain ⟨event, hevent, htarget⟩ := hs.covered row hold
      exact ⟨event, List.mem_append_left _ hevent, htarget⟩
    · obtain ⟨event, hevent, htarget⟩ := hcovered row hnew
      exact ⟨event, List.mem_append_right _ hevent, htarget⟩
  · intro event hevent k htarget
    rw [hevents] at hevent
    rcases List.mem_append.mp hevent with hold | hnew
    · obtain ⟨row, hrow, hid⟩ := hs.present event hold k htarget
      exact ⟨row, hrows ▸ List.mem_append_left _ hrow, hid⟩
    · exact hpresent event hnew k htarget

/-- A new attachment with events about it. -/
theorem grows_create {s s' : CustodyStore} {row : R4JCriminalAttachment}
    {event : R4JEvidenceCustodyEvent} {events : List R4JEvidenceCustodyEvent}
    (hrow : s'.attachments = s.attachments ++ [row])
    (hevents : s'.events = s.events ++ event :: events)
    (htargets : ∀ e ∈ event :: events, e.target = .criminalAttachment row.id) : Grows s s' := by
  refine ⟨[row], event :: events, hrow, hevents, ?_, ?_⟩
  · intro row' hrow'
    rw [List.mem_singleton.mp hrow']
    exact ⟨event, List.mem_cons_self, htargets event List.mem_cons_self⟩
  · intro e he k htarget
    obtain rfl := CustodyTarget.criminalAttachment.inj ((htargets e he).symm.trans htarget)
    exact ⟨row, by rw [hrow]; simp, rfl⟩

/-- Events about rows that are there. -/
theorem grows_events {s s' : CustodyStore} {events : List R4JEvidenceCustodyEvent}
    (hrows : s'.attachments = s.attachments) (hevents : s'.events = s.events ++ events)
    (htargets : ∀ e ∈ events, ∀ k, e.target = .criminalAttachment k →
      ∃ row ∈ s.attachments, row.id = k) : Grows s s' :=
  ⟨[], events, by simp [hrows], hevents, nofun, fun e he k htarget => hrows ▸ htargets e he k htarget⟩

theorem uploadEvents_events (s : CustodyStore) (target : CustodyTarget) (actor : Option ℕ)
    (sha : String) (size : ℕ) :
    ∃ first second, (s.uploadEvents target actor sha size).events = s.events ++ [first, second] ∧
      ∀ e ∈ [first, second], e.target = target := by
  refine ⟨_, _, List.append_assoc _ _ _, ?_⟩
  intro e he
  rcases List.mem_pair.mp he with rfl | rfl
  · rfl
  · rfl

theorem grows_addAttachment {sha256 : List UInt8 → String} {s s' : CustodyStore} {criminal : ℕ}
    {file : UploadedFile} {title kind description : String} {isPublic : Bool}
    {uploadedBy : Option ℕ}
    (h : s.addAttachment sha256 criminal file title kind description isPublic uploadedBy = some s') :
    Grows s s' := by
  unfold CustodyStore.addAttachment at h
  split_ifs at h
  obtain ⟨bytes, -, rfl⟩ := Option.map_eq_some_iff.mp h
  obtain ⟨first, second, hevents, htargets⟩ := uploadEvents_events _ _ _ _ _
  exact grows_create rfl hevents htargets

theorem grows_addReportAttachment {sha256 : List UInt8 → String} {s s' : CustodyStore}
    {r submittedBy : ℕ} {upload : ReportUpload}
    (h : s.addReportAttachment sha256 r submittedBy upload = some s') : Grows s s' := by
  unfold CustodyStore.addReportAttachment at h
  simp only at h
  split_ifs at h
  obtain ⟨bytes, -, rfl⟩ := Option.map_eq_some_iff.mp h
  obtain ⟨first, second, hevents, htargets⟩ := uploadEvents_events _ _ _ _ _
  refine grows_events rfl hevents fun e he k htarget => ?_
  rw [htargets e he] at htarget
  cases htarget

theorem grows_submitReport {sha256 : List UInt8 → String} {s s' : CustodyStore}
    {criminal submittedBy : ℕ} {fieldNames : List String} {attachments : List ReportUpload}
    (h : s.submitReport sha256 criminal submittedBy fieldNames attachments = some s') :
    Grows s s' := by
  have hloop : ∀ (uploads : List ReportUpload) (t t' : CustodyStore) (r : ℕ),
      CustodyStore.addReportAttachments sha256 r submittedBy uploads t = some t' → Grows t t' := by
    intro uploads
    induction uploads with
    | nil =>
        intro t t' r ht
        obtain rfl := Option.some.inj ht
        exact grows_of_same rfl rfl
    | cons upload uploads ih =>
        intro t t' r ht
        obtain ⟨u, hu, hrest⟩ := Option.bind_eq_some_iff.mp ht
        exact (grows_addReportAttachment hu).trans (ih u t' r hrest)
  unfold CustodyStore.submitReport at h
  split_ifs at h
  have hattached := hloop attachments _ s' s.reports.length h
  exact Grows.trans (grows_of_same rfl rfl) hattached

theorem grows_promote (r criminal actor : ℕ) (s : CustodyStore) (created : CriminalAttachment) :
    Grows s (s.promote r criminal actor created) := by
  refine grows_create rfl rfl fun e he => ?_
  rw [List.mem_singleton.mp he]

theorem grows_foldl {α : Type} {f : CustodyStore → α → CustodyStore}
    (hf : ∀ s a, Grows s (f s a)) (xs : List α) (s : CustodyStore) : Grows s (xs.foldl f s) := by
  induction xs generalizing s with
  | nil => exact grows_of_same rfl rfl
  | cons a xs ih => exact (hf s a).trans (ih (f s a))

theorem grows_reviewReport {s s' : CustodyStore} {r criminal : ℕ} {review : Review}
    {others : Except ReportError (List DecisionStatus)} {now : ℕ}
    (h : s.reviewReport r criminal review others now = some s') : Grows s s' := by
  have hsave : ∀ (t : CustodyStore) row, Grows t (t.saveReportAttachment row) :=
    fun t row => grows_of_same rfl rfl
  unfold CustodyStore.reviewReport at h
  split at h
  · cases h
  · simp only at h
    split_ifs at h
    obtain rfl := Option.some.inj h
    have hpromoted := grows_foldl (grows_promote r criminal review.reviewedBy)
      (applySuggestionDecisions review.attachmentDecisions
        (promoteReportAttachment r review.reviewedBy) (s.attachmentsOf r)).created s
    exact (hpromoted.trans (grows_foldl hsave _ _)).trans (grows_of_same rfl rfl)

theorem grows_reportService {s s' : CustodyStore} {r : ℕ} {loaded : Report} {task : ReportTask}
    {others : Except ReportError (List DecisionStatus)} {now : ℕ}
    (h : s.reportService r loaded task others now = some s') : Grows s s' := by
  unfold CustodyStore.reportService at h
  split at h
  · split at h
    · obtain rfl := Option.some.inj h
      exact grows_of_same rfl rfl
    · obtain rfl := Option.some.inj h
      exact grows_of_same rfl rfl
    · obtain rfl := Option.some.inj h
      exact grows_of_same rfl rfl
    · exact grows_reviewReport h
  · cases h

theorem grows_recordCustodyReview {s s' : CustodyStore} {event actor : ℕ}
    {eventType : EvidenceCustodyEventType} {note : String}
    (h : s.recordCustodyReview event actor eventType note = some s') : Grows s s' := by
  unfold CustodyStore.recordCustodyReview at h
  split_ifs at h
  obtain ⟨source, -, hsource⟩ := Option.bind_eq_some_iff.mp h
  obtain ⟨sha, hsha, rfl⟩ := Option.map_eq_some_iff.mp hsource
  refine grows_events rfl rfl ?_
  intro e he k htarget
  rw [List.mem_singleton.mp he] at htarget
  -- the digest was read from the row of the attachment
  rw [show source.target = .criminalAttachment k from htarget] at hsha
  obtain ⟨row, hrow, -⟩ := Option.map_eq_some_iff.mp hsha
  exact ⟨row, List.mem_of_find?_eq_some hrow, by simpa using List.find?_some hrow⟩

/-! ## Exactly the removals -/

/-- What a service other than a removal leaves, also where it raises. -/
theorem grows_step (sha256 : List UInt8 → String) (s : CustodyStore) {act : CustodyAct}
    (hact : ∀ k, act ≠ .removeAttachment k) : Grows s (custodyStep sha256 s act) := by
  have hgetD : ∀ {o : Option CustodyStore}, (∀ s', o = some s' → Grows s s') →
      Grows s (o.getD s) := by
    intro o ho
    cases o with
    | none => exact grows_of_same rfl rfl
    | some s' => exact ho s' rfl
  cases act with
  | addAttachment => exact hgetD fun s' => grows_addAttachment
  | removeAttachment k => exact absurd rfl (hact k)
  | submitReport => exact hgetD fun s' => grows_submitReport
  | reportService => exact hgetD fun s' => grows_reportService
  | recordCustodyReview => exact hgetD fun s' => grows_recordCustodyReview

/-- No attachment of a profile is removed. -/
def RemovesNone (s : CustodyStore) : CustodyAct → Prop
  | .removeAttachment k => ∀ row ∈ s.attachments, row.id ≠ k
  | _ => True

/-- Every event is still there, as it was. -/
def CustodyKept (s s' : CustodyStore) : Prop := ∀ event ∈ s.events, event ∈ s'.events

theorem tracked_step (sha256 : List UInt8 → String) {s : CustodyStore} (hs : Tracked s)
    (act : CustodyAct) : Tracked (custodyStep sha256 s act) := by
  by_cases hact : ∃ k, act = .removeAttachment k
  · obtain ⟨k, rfl⟩ := hact
    constructor
    · intro row hrow
      obtain ⟨hmem, hne⟩ := List.mem_filter.mp hrow
      obtain ⟨event, hevent, htarget⟩ := hs.covered row hmem
      refine ⟨event, List.mem_filter.mpr ⟨hevent, ?_⟩, htarget⟩
      simpa [htarget] using hne
    · intro event hevent j htarget
      obtain ⟨hmem, hne⟩ := List.mem_filter.mp hevent
      obtain ⟨row, hrow, hid⟩ := hs.present event hmem j htarget
      refine ⟨row, List.mem_filter.mpr ⟨hrow, ?_⟩, hid⟩
      simpa [htarget, hid] using hne
  · exact (grows_step sha256 s fun k hk => hact ⟨k, hk⟩).tracked hs

/-- **Step lemma.** The trail is kept exactly where no attachment is removed. -/
theorem custodyKept_step_iff (sha256 : List UInt8 → String) {s : CustodyStore} (hs : Tracked s)
    (act : CustodyAct) : CustodyKept s (custodyStep sha256 s act) ↔ RemovesNone s act := by
  by_cases hact : ∃ k, act = .removeAttachment k
  · obtain ⟨k, rfl⟩ := hact
    constructor
    · intro hkept row hrow
      obtain ⟨event, hevent, htarget⟩ := hs.covered row hrow
      have hstill := (List.mem_filter.mp (hkept event hevent)).2
      simpa [htarget] using hstill
    · intro hnone event hevent
      refine List.mem_filter.mpr ⟨hevent, ?_⟩
      rw [bne_iff_ne]
      intro htarget
      obtain ⟨row, hrow, hid⟩ := hs.present event hevent k htarget
      exact hnone row hrow hid
  · have hother : ∀ k, act ≠ .removeAttachment k := fun k hk => hact ⟨k, hk⟩
    refine iff_of_true (fun event hevent => (grows_step sha256 s hother).kept.subset hevent) ?_
    cases act with
    | removeAttachment k => exact absurd rfl (hother k)
    | _ => trivial

theorem tracked_empty : Tracked .empty := ⟨nofun, nofun⟩

theorem custodyKept_refl (s : CustodyStore) : CustodyKept s s := fun _ h => h

theorem custodyKept_trans (s t u : CustodyStore) (hst : CustodyKept s t) (htu : CustodyKept t u) :
    CustodyKept s u :=
  fun event h => htu event (hst event h)

/-- Between any two moments of a run no custody event is lost. -/
def TrailAppendOnly (sha256 : List UInt8 → String) (acts : List CustodyAct) : Prop :=
  ∀ pre post, pre <+: post → post <+: acts →
    CustodyKept (run (custodyStep sha256) .empty pre) (run (custodyStep sha256) .empty post)

/-- **Custody trail.** It is append-only in exactly the runs that remove no attachment. -/
theorem trail_append_only_iff (sha256 : List UInt8 → String) (acts : List CustodyAct) :
    TrailAppendOnly sha256 acts ↔ Along (custodyStep sha256) RemovesNone .empty acts := by
  unfold TrailAppendOnly
  rw [← along_related custodyKept_refl custodyKept_trans]
  exact along_congr (I := Tracked) (fun s act hs => custodyKept_step_iff sha256 hs act)
    (fun s act hs _ => tracked_step sha256 hs act) tracked_empty acts

/-- A file is added to a profile and removed again. -/
def addedAndRemoved : List CustodyAct :=
  [.addAttachment 1 ⟨"a.pdf", some [37]⟩ "title" "document" "" false (some 2), .removeAttachment 0]

theorem removal_drops_events : ¬ TrailAppendOnly (fun _ => "") addedAndRemoved := by
  intro h
  have hlost : (run (custodyStep fun _ => "") .empty addedAndRemoved).events = [] := by decide
  have hthere : (⟨0, .criminalAttachment 0, .uploaded, some 2, "", "", .fileSize 1⟩ :
      R4JEvidenceCustodyEvent) ∈
      (run (custodyStep fun _ => "") .empty (addedAndRemoved.take 1)).events := by decide
  have hkept := h (addedAndRemoved.take 1) addedAndRemoved (List.take_prefix _ _) List.prefix_rfl
    _ hthere
  rw [hlost] at hkept
  cases hkept

end SetadJang.R4J
