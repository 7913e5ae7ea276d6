import SetadJang.Framework.PyClock
import SetadJang.Framework.PyJsonReader
import SetadJang.Framework.PyText
import SetadJang.AuditLogs.HashStability

/-!
# The forensic export

`build_audit_export_package` verifies the hash chain, records the export in it, verifies it
again and writes the records that the filters keep as lines of JSON.  Who has nothing but the
package reads the records back from the lines, recomputes the hash of each, and from an export
without filters the whole chain up to the head hash of the manifest.
-/

namespace SetadJang.AuditLogs

open SetadJang.Framework SetadJang.Framework.Chaining

/-! ## Filters -/

/-- The columns of `User` that an export reads. -/
structure ExportUser where
  email : Option String
  firstName : String
  lastName : String

def ExportUser.fullName (user : ExportUser) : String :=
  pyStrip (user.firstName ++ " " ++ user.lastName)

structure AuditExportFilters where
  action : Option String := none
  userId : Option ℕ := none
  resourceType : Option String := none
  resourceId : Option String := none
  requestId : Option String := none
  ipAddress : Option String := none
  method : Option String := none
  path : Option String := none
  createdAfter : Option PyDateTime := none
  createdBefore : Option PyDateTime := none
  search : Option String := none
deriving DecidableEq

def timeText (time : Option PyDateTime) : PyJson :=
  optionText (time.map fun t => String.ofList t.isoformat)

def AuditExportFilters.asDict (filters : AuditExportFilters) : PyJson :=
  jsonObject
    [("action", optionText filters.action),
      ("user_id", filters.userId.elim .null fun user => .int user),
      ("resource_type", optionText filters.resourceType),
      ("resource_id", optionText filters.resourceId),
      ("request_id", optionText filters.requestId),
      ("ip_address", optionText filters.ipAddress),
      ("method", optionText filters.method),
      ("path", optionText filters.path),
      ("created_after", timeText filters.createdAfter),
      ("created_before", timeText filters.createdBefore),
      ("search", optionText filters.search)]

/-- What an export is built with: the hexadecimal digest of a text, the address column, the case
folding of the database, the accounts and `AUDIT_LOG_EXPORT_MAX_RECORDS`. -/
structure ExportConfig where
  sha256 : String → String
  storeIp : String → Option (Option String)
  upper : String → String
  users : ℕ → ExportUser
  maxRecords : ℕ

variable (cfg : ExportConfig)

/-- `icontains`. -/
def icontains (text part : String) : Bool :=
  decide ((cfg.upper part).toList <:+: (cfg.upper text).toList)

/-- A filter that is missing or empty keeps every row. -/
def given (filter : Option String) (test : String → Bool) : Bool :=
  filter.all fun text => text == "" || test text

/-- The row is in the queryset of `build_audit_export_queryset`. -/
def AuditExportFilters.keeps (filters : AuditExportFilters) (row : AuditLog PyJson) : Bool :=
  given filters.action (row.event.action == ·) &&
    filters.userId.all (fun user => row.event.userId == some user) &&
    given filters.resourceType (row.event.resourceType == ·) &&
    given filters.resourceId (fun id => row.event.resourceId == some id) &&
    given filters.requestId (fun id => row.event.requestId == some id) &&
    given filters.ipAddress (fun ip =>
      row.event.ipAddress.isSome && cfg.storeIp ip == some row.event.ipAddress) &&
    given filters.method (fun method => cfg.upper row.event.method == cfg.upper method) &&
    given filters.path (icontains cfg row.event.path) &&
    filters.createdAfter.all (fun time => decide (time.instant ≤ (row.createdAt : ℤ))) &&
    filters.createdBefore.all (fun time => decide ((row.createdAt : ℤ) ≤ time.instant)) &&
    given filters.search fun part =>
      icontains cfg row.event.action part || icontains cfg row.event.resourceType part ||
        row.event.resourceId.any (fun id => icontains cfg id part) ||
        icontains cfg row.event.path part

/-- `order_by("created_at", "id")`. -/
def creationOrder (a b : AuditLog PyJson) : Bool :=
  decide (a.createdAt < b.createdAt) || (a.createdAt == b.createdAt && decide (a.pk ≤ b.pk))

def buildAuditExportQueryset (filters : AuditExportFilters) (table : List (AuditLog PyJson)) :
    List (AuditLog PyJson) :=
  (table.filter (filters.keeps cfg)).mergeSort creationOrder

/-! ## Records -/

def userEntries (users : ℕ → ExportUser) (user : ℕ) : List (String × PyJson) :=
  [("id", .int user), ("email", optionText (users user).email),
    ("full_name", .str (users user).fullName)]

def userRecord (users : ℕ → ExportUser) (user : ℕ) : PyJson := jsonObject (userEntries users user)

def recordEntries (users : ℕ → ExportUser) (audit : AuditLog PyJson) : List (String × PyJson) :=
  [("id", .int audit.pk),
    ("created_at", .str (String.ofList (utcDateTime audit.createdAt).isoformat)),
    ("user", audit.event.userId.elim .null (userRecord users)),
    ("action", .str audit.event.action),
    ("resource_type", .str audit.event.resourceType),
    ("resource_id", optionText audit.event.resourceId),
    ("ip_address", optionText audit.event.ipAddress),
    ("request_id", optionText audit.event.requestId),
    ("user_agent", .str audit.event.userAgent),
    ("path", .str audit.event.path),
    ("method", .str audit.event.method),
    ("changes", audit.event.changes.getD .null),
    ("extra_data", audit.event.extraData.getD .null),
    ("previous_hash", .str audit.stamp.previousHash),
    ("event_hash", .str audit.stamp.eventHash),
    ("hash_version", .int audit.event.hashVersion)]

def serializeAuditLog (users : ℕ → ExportUser) (audit : AuditLog PyJson) : PyJson :=
  jsonObject (recordEntries users audit)

def renderJsonl (records : List PyJson) : String :=
  "\n".intercalate (records.map PyJson.dumps) ++ if records.isEmpty then "" else "\n"

/-! ## The package -/

structure AuditExportManifest where
  generatedAt : String
  recordCount : ℕ
  filters : PyJson
  chainVerification : AuditChainVerificationResult
  /-- The digest and the size of each file. -/
  files : List (String × String × ℕ)

structure AuditExportPackage where
  jsonl : String
  manifest : AuditExportManifest

inductive ExportError where
  | chain (error : AuditChainVerificationError)
  /-- The export event cannot be stored. -/
  | refused
  | tooManyRecords (totalRecords maxRecords : ℕ)
deriving DecidableEq, Repr

/-- Who asks for the export. -/
structure ExportActor where
  userId : Option ℕ := none
  ipAddress : Option String := none
  requestId : Option String := none
  userAgent : String := ""
  path : String := ""
  method : String := ""

def exportTrigger (actor : ExportActor) : String :=
  if actor.requestId.any (· != "") || actor.path != "" then "admin_api" else "management_command"

def exportData (filters : AuditExportFilters) (actor : ExportActor) : List (String × PyJson) :=
  [("filters", filters.asDict), ("formats", .list [.str "jsonl", .str "csv", .str "xlsx"]),
    ("trigger", .str (exportTrigger actor))]

def exportEvent (filters : AuditExportFilters) (actor : ExportActor) : AuditEvent PyJson where
  hashVersion := 1
  userId := actor.userId
  action := "AUDIT_PACKAGE_EXPORTED"
  ipAddress := actor.ipAddress
  requestId := actor.requestId
  userAgent := actor.userAgent
  path := actor.path
  method := actor.method
  resourceType := "audit_log"
  resourceId := none
  changes := none
  extraData := some (jsonObject (exportData filters actor))

/-- The table after the export event is recorded, if it is. -/
def recordExport (filters : AuditExportFilters) (actor : ExportActor) (recordExportEvent : Bool)
    (now : ℕ) (table : List (AuditLog PyJson)) : Option (List (AuditLog PyJson)) :=
  if recordExportEvent then
    (accepted cfg.storeIp (exportEvent filters actor)).map fun _ =>
      auditStep cfg.storeIp cfg.sha256 table (.createAuditLog (exportEvent filters actor) now)
  else some table

/-- The files of a verified table. -/
def packageOf (filters : AuditExportFilters) (generatedAt : ℕ)
    (chainResult : AuditChainVerificationResult) (table : List (AuditLog PyJson)) :
    Except ExportError AuditExportPackage :=
  let records := (buildAuditExportQueryset cfg filters table).map (serializeAuditLog cfg.users)
  if records.length > cfg.maxRecords then .error (.tooManyRecords records.length cfg.maxRecords)
  else
    .ok
      { jsonl := renderJsonl records
        manifest :=
          { generatedAt := String.ofList (utcDateTime generatedAt).isoformat
            recordCount := records.length
            filters := filters.asDict
            chainVerification := chainResult
            files := [("audit_logs.jsonl", cfg.sha256 (renderJsonl records),
              (renderJsonl records).utf8ByteSize)] } }

/-- The package, or why there is none, and the table that the export leaves; `clock` gives the
readings of the clock. -/
def buildAuditExportPackage (filters : AuditExportFilters) (actor : ExportActor)
    (recordExportEvent : Bool) (clock : ℕ → ℕ) (table : List (AuditLog PyJson)) :
    Except ExportError AuditExportPackage × List (AuditLog PyJson) :=
  match verifyAuditChainIntegrity (jsonDigest cfg.sha256) (clock 0) table with
  | .error error => (.error (.chain error), table)
  | .ok _ =>
      match recordExport cfg filters actor recordExportEvent (clock 1) table with
      | none => (.error .refused, table)
      | some table =>
          match verifyAuditChainIntegrity (jsonDigest cfg.sha256) (clock 2) table with
          | .error error => (.error (.chain error), table)
          | .ok chainResult => (packageOf cfg filters (clock 3) chainResult table, table)

/-! ## Reading a package -/

/-- The account of a record; `null` where it has none. -/
def recordUserId (record : PyJson) : Option PyJson :=
  (record.item "user").bind fun user =>
    match user with
    | .null => some .null
    | user => user.item "id"

/-- The payload that a record of an export was hashed with. -/
def recordPayload (record : PyJson) : Option PyJson := do
  some (jsonObject
    [("hash_version", ← record.item "hash_version"),
      ("previous_hash", ← record.item "previous_hash"),
      ("user_id", ← recordUserId record),
      ("action", ← record.item "action"),
      ("ip_address", ← record.item "ip_address"),
      ("request_id", ← record.item "request_id"),
      ("user_agent", ← record.item "user_agent"),
      ("path", ← record.item "path"),
      ("method", ← record.item "method"),
      ("resource_type", ← record.item "resource_type"),
      ("resource_id", ← record.item "resource_id"),
      ("changes", ← record.item "changes"),
      ("extra_data", ← record.item "extra_data")])

/-- The hash that a record carries, if it is the hash of what the record says. -/
def recordHash (sha256 : String → String) (record : PyJson) : Option String := do
  let payload ← recordPayload record
  let eventHash ← (← record.item "event_hash").asText
  if eventHash = sha256 payload.dumps then some eventHash else none

/-- The head hash of records that follow each other. -/
def verifyRecords (sha256 : String → String) : String → List PyJson → Option String
  | previousHash, [] => some previousHash
  | previousHash, record :: records => do
      let eventHash ← recordHash sha256 record
      let previous ← (← record.item "previous_hash").asText
      if previous = previousHash then verifyRecords sha256 eventHash records else none

/-! ## What is written is read -/

section

variable {users : ℕ → ExportUser} {row : AuditLog PyJson} {sha256 : String → String}

/-- The JSON columns hold what a JSON text is read as: dictionaries with different strings as
keys, and numbers. -/
def AuditEvent.ColumnsRead (event : AuditEvent PyJson) : Prop :=
  (∀ value ∈ event.changes, value.orderStable = true ∧ value.readable = true) ∧
    ∀ value ∈ event.extraData, value.orderStable = true ∧ value.readable = true

theorem stable_optionText (text : Option String) :
    (optionText text).orderStable = true ∧ (optionText text).readable = true ∧
      (optionText text).canonical = optionText text := by
  cases text with
  | none => exact ⟨rfl, rfl, rfl⟩
  | some text => exact ⟨rfl, rfl, rfl⟩

theorem stable_column {column : Option PyJson}
    (h : ∀ value ∈ column, value.orderStable = true ∧ value.readable = true) :
    (column.getD .null).orderStable = true ∧ (column.getD .null).readable = true ∧
      (column.getD .null).canonical.dumps = (column.getD .null).dumps := by
  cases column with
  | none => exact ⟨rfl, rfl, rfl⟩
  | some value =>
      obtain ⟨horder, hread⟩ := h value rfl
      exact ⟨horder, hread, dumps_canonical horder⟩

theorem stable_userRecord (user : ℕ) :
    (userRecord users user).orderStable = true ∧ (userRecord users user).readable = true := by
  have hkeys : ascending ((sortKeys (["id", "email", "full_name"].map PyKey.str)).map
      PyKey.text) = true := by decide +kernel
  obtain ⟨horder, hread, -⟩ := stable_optionText (users user).email
  refine stable_object hkeys ?_
  simp only [userEntries, List.forall_mem_cons]
  exact ⟨⟨rfl, rfl⟩, ⟨horder, hread⟩, ⟨rfl, rfl⟩, fun _ h => absurd h List.not_mem_nil⟩

def recordKeys : List String :=
  ["id", "created_at", "user", "action", "resource_type", "resource_id", "ip_address", "request_id",
    "user_agent", "path", "method", "changes", "extra_data", "previous_hash", "event_hash",
    "hash_version"]

theorem ascending_recordKeys :
    ascending ((sortKeys (recordKeys.map PyKey.str)).map PyKey.text) = true := by decide +kernel

/-- A record is written so that it is read back. -/
theorem stable_record (h : row.event.ColumnsRead) :
    (serializeAuditLog users row).orderStable = true ∧
      (serializeAuditLog users row).readable = true := by
  have huser : (row.event.userId.elim .null (userRecord users)).orderStable = true ∧
      (row.event.userId.elim .null (userRecord users)).readable = true := by
    cases row.event.userId with
    | none => exact ⟨rfl, rfl⟩
    | some user => exact stable_userRecord user
  obtain ⟨hchanges, hchanges', -⟩ := stable_column h.1
  obtain ⟨hextra, hextra', -⟩ := stable_column h.2
  have htext : ∀ text : Option String,
      (optionText text).orderStable = true ∧ (optionText text).readable = true :=
    fun text => ⟨(stable_optionText text).1, (stable_optionText text).2.1⟩
  refine stable_object ascending_recordKeys ?_
  simp only [recordEntries, List.forall_mem_cons]
  exact ⟨⟨rfl, rfl⟩, ⟨rfl, rfl⟩, huser, ⟨rfl, rfl⟩, ⟨rfl, rfl⟩, htext _, htext _, htext _, ⟨rfl, rfl⟩,
    ⟨rfl, rfl⟩, ⟨rfl, rfl⟩, ⟨hchanges, hchanges'⟩, ⟨hextra, hextra'⟩, ⟨rfl, rfl⟩, ⟨rfl, rfl⟩,
    ⟨rfl, rfl⟩, fun _ h => absurd h List.not_mem_nil⟩

/-- A field of a record that was read back. -/
theorem item_record {key : String} {value : PyJson}
    (h : (serializeAuditLog users row).item key = some value) :
    (serializeAuditLog users row).canonical.item key = some value.canonical := by
  have hnodup : ((recordEntries users row).map Prod.fst).Nodup := by
    show recordKeys.Nodup
    decide
  rw [serializeAuditLog] at h ⊢
  rw [item_canonical hnodup, h, Option.map_some]

theorem canonical_optionText (text : Option String) : (optionText text).canonical = optionText text :=
  (stable_optionText text).2.2

theorem item_user (user : ℕ) : (userRecord users user).canonical.item "id" = some (.int user) := by
  have hnodup : ((userEntries users user).map Prod.fst).Nodup := by
    show ["id", "email", "full_name"].Nodup
    decide
  rw [userRecord, item_canonical hnodup]
  rfl

/-- The account of a record that was read back. -/
theorem recordUserId_canonical :
    recordUserId (serializeAuditLog users row).canonical =
      some (row.event.userId.elim .null fun user => .int user) := by
  have hitem : (serializeAuditLog users row).canonical.item "user" =
      some (row.event.userId.elim .null (userRecord users)).canonical := item_record rfl
  rw [recordUserId, hitem, Option.bind_some]
  cases row.event.userId with
  | none => rfl
  | some user => exact item_user user

theorem hashPayload_toJson (payload : HashPayload PyJson) :
    payload.toJson = jsonObject
      [("hash_version", .int payload.event.hashVersion),
        ("previous_hash", .str payload.previousHash),
        ("user_id", payload.event.userId.elim .null fun user => .int user),
        ("action", .str payload.event.action),
        ("ip_address", optionText payload.event.ipAddress),
        ("request_id", optionText payload.event.requestId),
        ("user_agent", .str payload.event.userAgent),
        ("path", .str payload.event.path),
        ("method", .str payload.event.method),
        ("resource_type", .str payload.event.resourceType),
        ("resource_id", optionText payload.event.resourceId),
        ("changes", payload.event.changes.getD .null),
        ("extra_data", payload.event.extraData.getD .null)] := rfl

/-- The payload of a record that was read back has the text that the row was hashed with. -/
theorem recordPayload_canonical (users : ℕ → ExportUser) (h : row.event.ColumnsRead) :
    ∃ payload, recordPayload (serializeAuditLog users row).canonical = some payload ∧
      payload.dumps = (HashPayload.mk row.stamp.previousHash row.event).toJson.dumps := by
  obtain ⟨-, -, hchanges⟩ := stable_column h.1
  obtain ⟨-, -, hextra⟩ := stable_column h.2
  have huser : recordUserId (serializeAuditLog users row).canonical =
      some (row.event.userId.elim .null fun user => .int user) := recordUserId_canonical
  generalize hrecord : (serializeAuditLog users row).canonical = record at huser ⊢
  have hitem : ∀ key value, (serializeAuditLog users row).item key = some value →
      record.item key = some value.canonical := fun _ _ hkey => hrecord ▸ item_record hkey
  have hversion := hitem "hash_version" (.int row.event.hashVersion) rfl
  have hprevious := hitem "previous_hash" (.str row.stamp.previousHash) rfl
  have haction := hitem "action" (.str row.event.action) rfl
  have hip := hitem "ip_address" (optionText row.event.ipAddress) rfl
  have hrequest := hitem "request_id" (optionText row.event.requestId) rfl
  have hagent := hitem "user_agent" (.str row.event.userAgent) rfl
  have hpath := hitem "path" (.str row.event.path) rfl
  have hmethod := hitem "method" (.str row.event.method) rfl
  have htype := hitem "resource_type" (.str row.event.resourceType) rfl
  have hid := hitem "resource_id" (optionText row.event.resourceId) rfl
  have hbefore := hitem "changes" (row.event.changes.getD .null) rfl
  have hdata := hitem "extra_data" (row.event.extraData.getD .null) rfl
  simp only [recordPayload, huser, hversion, hprevious, haction, hip, hrequest, hagent, hpath, hmethod,
    htype, hid, hbefore, hdata, canonical_optionText]
  refine ⟨_, rfl, ?_⟩
  rw [hashPayload_toJson]
  apply dumps_object_congr
  simp only [List.map_cons, List.map_nil, hchanges, hextra]
  rfl

/-- A record that was read back carries the hash of its row, if that is the hash of the row. -/
theorem recordHash_canonical (h : row.event.ColumnsRead)
    (hhash : row.stamp.eventHash = jsonDigest sha256 ⟨row.stamp.previousHash, row.event⟩) :
    recordHash sha256 (serializeAuditLog users row).canonical = some row.stamp.eventHash := by
  obtain ⟨payload, hpayload, hdumps⟩ := recordPayload_canonical users h
  have hitem : (serializeAuditLog users row).canonical.item "event_hash" =
      some (PyJson.str row.stamp.eventHash).canonical := item_record rfl
  have htext : (PyJson.str row.stamp.eventHash).canonical.asText = some row.stamp.eventHash := rfl
  simp only [recordHash, hpayload, hitem, htext, hdumps, Option.bind_eq_bind, Option.bind_some]
  exact if_pos hhash

/-- Rows that continue a chain are records that continue it. -/
theorem verifyRecords_rows {rows : List (AuditLog PyJson)} {previousHash : String}
    (hcolumns : ∀ row ∈ rows, row.event.ColumnsRead)
    (hrows : (entryChaining (jsonDigest sha256)).Continues previousHash (rows.map AuditLog.entry)) :
    verifyRecords sha256 previousHash (rows.map fun row => (serializeAuditLog users row).canonical) =
      some ((entryChaining (jsonDigest sha256)).head previousHash (rows.map AuditLog.entry)) := by
  induction rows generalizing previousHash with
  | nil => rfl
  | cons row rows ih =>
      obtain ⟨hcolumn, hrest⟩ := List.forall_mem_cons.mp hcolumns
      obtain ⟨hprevious, hhash, hcontinues⟩ := hrows
      have hown : row.stamp.eventHash =
          jsonDigest sha256 ⟨row.stamp.previousHash, row.event⟩ := by
        rw [show row.stamp.previousHash = previousHash from hprevious]
        exact hhash
      have hitem : (serializeAuditLog users row).canonical.item "previous_hash" =
          some (PyJson.str row.stamp.previousHash).canonical := item_record rfl
      have htext : (PyJson.str row.stamp.previousHash).canonical.asText =
          some row.stamp.previousHash := rfl
      rw [List.map_cons, verifyRecords, recordHash_canonical hcolumn hown]
      simp only [hitem, htext, Option.bind_eq_bind, Option.bind_some]
      rw [if_pos (show row.stamp.previousHash = previousHash from hprevious)]
      exact ih hrest hcontinues

/-- Each row of a chain that continues has the hash of what it says. -/
theorem hash_of_continues {rows : List (AuditLog PyJson)} {previousHash : String}
    (hrows : (entryChaining (jsonDigest sha256)).Continues previousHash (rows.map AuditLog.entry)) :
    ∀ row ∈ rows, row.stamp.eventHash =
      jsonDigest sha256 ⟨row.stamp.previousHash, row.event⟩ := by
  induction rows generalizing previousHash with
  | nil => exact fun _ h => absurd h List.not_mem_nil
  | cons row rows ih =>
      obtain ⟨hprevious, hhash, hcontinues⟩ := hrows
      intro row' hrow'
      rcases List.mem_cons.mp hrow' with rfl | hrow'
      · rw [show row'.stamp.previousHash = previousHash from hprevious]
        exact hhash
      · exact ih hcontinues row' hrow'

/-! ## The event of the export -/

theorem readBack_object (entries : List (String × PyJson)) :
    (jsonObject entries).readBack =
      jsonObject (entries.map fun entry => (entry.1, entry.2.readBack)) := by
  have hentries : readBackEntries (entries.map fun entry => (PyKey.str entry.1, entry.2)) =
      (entries.map fun entry => (entry.1, entry.2.readBack)).map fun entry =>
        (PyKey.str entry.1, entry.2) := by
    induction entries with
    | nil => rfl
    | cons entry entries ih =>
        rw [List.map_cons, List.map_cons, List.map_cons, readBackEntries, ih]
        rfl
  rw [jsonObject, PyJson.readBack, hentries]
  rfl

theorem readBack_optionText (text : Option String) : (optionText text).readBack = optionText text := by
  cases text <;> rfl

theorem readBack_userId (user : Option ℕ) :
    (user.elim PyJson.null fun user => .int user).readBack =
      user.elim PyJson.null fun user => .int user := by
  cases user <;> rfl

theorem readBack_asDict (filters : AuditExportFilters) : filters.asDict.readBack = filters.asDict := by
  rw [AuditExportFilters.asDict, readBack_object]
  simp only [List.map_cons, List.map_nil, timeText, readBack_optionText, readBack_userId]

def filterKeys : List String :=
  ["action", "user_id", "resource_type", "resource_id", "request_id", "ip_address", "method", "path",
    "created_after", "created_before", "search"]

theorem ascending_filterKeys :
    ascending ((sortKeys (filterKeys.map PyKey.str)).map PyKey.text) = true := by decide +kernel

theorem stable_asDict (filters : AuditExportFilters) :
    filters.asDict.orderStable = true ∧ filters.asDict.readable = true := by
  have htext : ∀ text : Option String,
      (optionText text).orderStable = true ∧ (optionText text).readable = true :=
    fun text => ⟨(stable_optionText text).1, (stable_optionText text).2.1⟩
  have huser : (filters.userId.elim PyJson.null fun user => .int user).orderStable = true ∧
      (filters.userId.elim PyJson.null fun user => .int user).readable = true := by
    cases filters.userId <;> exact ⟨rfl, rfl⟩
  refine stable_object ascending_filterKeys ?_
  simp only [List.forall_mem_cons]
  exact ⟨htext _, huser, htext _, htext _, htext _, htext _, htext _, htext _, htext _, htext _,
    htext _, fun _ h => absurd h List.not_mem_nil⟩

theorem stable_exportData (filters : AuditExportFilters) (actor : ExportActor) :
    ∀ value ∈ (exportEvent filters actor).extraData,
      value.orderStable = true ∧ value.readable = true ∧ value.readBack = value := by
  intro value hvalue
  obtain rfl := Option.some.inj hvalue
  have hkeys : ascending ((sortKeys (["filters", "formats", "trigger"].map PyKey.str)).map
      PyKey.text) = true := by decide +kernel
  have hstable : (jsonObject (exportData filters actor)).orderStable = true ∧
      (jsonObject (exportData filters actor)).readable = true := by
    refine stable_object hkeys ?_
    simp only [exportData, List.forall_mem_cons]
    exact ⟨stable_asDict filters, ⟨rfl, rfl⟩, ⟨rfl, rfl⟩, fun _ h => absurd h List.not_mem_nil⟩
  refine ⟨hstable.1, hstable.2, ?_⟩
  rw [readBack_object]
  simp only [exportData, List.map_cons, List.map_nil, readBack_asDict]
  rfl

/-- The export event is stored as it is hashed, and read back. -/
theorem columnsRead_exportEvent {filters : AuditExportFilters} {actor : ExportActor}
    {storeIp : String → Option (Option String)} {stored : AuditEvent PyJson}
    (h : storedEvent storeIp (exportEvent filters actor) = some stored) : stored.ColumnsRead := by
  obtain ⟨ipAddress, -, rfl⟩ := Option.map_eq_some_iff.mp h
  refine ⟨fun value hvalue => absurd hvalue (Option.not_mem_none _), fun value hvalue => ?_⟩
  have hstored : (exportEvent filters actor).extraData.map PyJson.readBack = some value := hvalue
  obtain ⟨data, hdata, rfl⟩ := Option.map_eq_some_iff.mp hstored
  obtain ⟨horder, hread, hback⟩ := stable_exportData filters actor data hdata
  rw [hback]
  exact ⟨horder, hread⟩

/-- The table after the export event: the rows it had, and the event at most. -/
theorem recordExport_columns {cfg : ExportConfig} {filters : AuditExportFilters} {actor : ExportActor}
    {recordExportEvent : Bool} {now : ℕ} {table table' : List (AuditLog PyJson)}
    (hcolumns : ∀ row ∈ table, row.event.ColumnsRead)
    (h : recordExport cfg filters actor recordExportEvent now table = some table') :
    ∀ row ∈ table', row.event.ColumnsRead := by
  unfold recordExport at h
  split_ifs at h
  · obtain ⟨stored, haccepted, rfl⟩ := Option.map_eq_some_iff.mp h
    have hstored : storedEvent cfg.storeIp (exportEvent filters actor) = some stored := by
      have haccepted' := haccepted
      unfold accepted at haccepted'
      split_ifs at haccepted'
      exact haccepted'
    have hstep : ∀ row ∈ auditStep cfg.storeIp cfg.sha256 table
        (.createAuditLog (exportEvent filters actor) now), row ∈ table ∨ row.event = stored := by
      have hversion : { exportEvent filters actor with hashVersion := 1 } = exportEvent filters actor :=
        rfl
      simp only [auditStep, hversion, haccepted]
      intro row hrow
      rcases List.mem_append.mp hrow with hrow | hrow
      · exact .inl hrow
      · rw [List.mem_singleton.mp hrow]
        exact .inr rfl
    intro row hrow
    rcases hstep row hrow with hrow | hevent
    · exact hcolumns row hrow
    · rw [hevent]
      exact columnsRead_exportEvent hstored
  · obtain rfl := Option.some.inj h
    exact hcolumns

end

/-! ## The package -/

/-- What a package was made of: a table that verifies, and its rows that the filters keep. -/
theorem package_cases {cfg : ExportConfig} {filters : AuditExportFilters} {actor : ExportActor}
    {recordExportEvent : Bool} {clock : ℕ → ℕ} {table table' : List (AuditLog PyJson)}
    {package : AuditExportPackage}
    (h : buildAuditExportPackage cfg filters actor recordExportEvent clock table =
      (.ok package, table')) :
    recordExport cfg filters actor recordExportEvent (clock 1) table = some table' ∧
      verifyAuditChainIntegrity (jsonDigest cfg.sha256) (clock 2) table' =
        .ok package.manifest.chainVerification ∧
      package.jsonl = renderJsonl
        ((buildAuditExportQueryset cfg filters table').map (serializeAuditLog cfg.users)) ∧
      package.manifest.recordCount = (buildAuditExportQueryset cfg filters table').length := by
  unfold buildAuditExportPackage at h
  split at h
  · cases h
  · split at h
    · cases h
    · next recorded hrecorded =>
        split at h
        · cases h
        · next chainResult hverified =>
            obtain ⟨hpackage, rfl⟩ := Prod.mk.inj h
            simp only [packageOf] at hpackage
            split_ifs at hpackage
            obtain rfl := Except.ok.inj hpackage
            exact ⟨hrecorded, hverified, rfl, List.length_map _⟩

/-- An intact chain is exported, if the export event can be stored and the rows are not too many. -/
theorem build_of_intact {cfg : ExportConfig} {filters : AuditExportFilters} {actor : ExportActor}
    {recordExportEvent : Bool} (clock : ℕ → ℕ) {table table' : List (AuditLog PyJson)}
    (hintact : ChainIntact (jsonDigest cfg.sha256) table)
    (hrecorded : recordExport cfg filters actor recordExportEvent (clock 1) table = some table')
    (hintact' : ChainIntact (jsonDigest cfg.sha256) table')
    (hcount : (table'.filter (filters.keeps cfg)).length ≤ cfg.maxRecords) :
    ∃ package, buildAuditExportPackage cfg filters actor recordExportEvent clock table =
      (.ok package, table') := by
  obtain ⟨result, hverified, -⟩ := verify_intact hintact (clock 0)
  obtain ⟨result', hverified', -⟩ := verify_intact hintact' (clock 2)
  have hfew : ¬ cfg.maxRecords < ((buildAuditExportQueryset cfg filters table').map
      (serializeAuditLog cfg.users)).length := by
    rw [List.length_map, buildAuditExportQueryset, List.length_mergeSort]
    exact Nat.not_lt.mpr hcount
  simp only [buildAuditExportPackage, hverified, hrecorded, hverified', packageOf, gt_iff_lt,
    if_neg hfew]
  exact ⟨_, rfl⟩

/-- Without filters every row is exported. -/
theorem keeps_everything (cfg : ExportConfig) (row : AuditLog PyJson) :
    (({} : AuditExportFilters).keeps cfg row) = true := rfl

/-- **An export verifies on its own.**  The lines of a package are the records of the rows that its
filters keep, as many as the manifest says, and each record carries the hash of what it says.
Without filters the records, in some order, are the whole chain up to the head hash of the
manifest. -/
theorem export_verifies_offline (cfg : ExportConfig) {filters : AuditExportFilters}
    {actor : ExportActor} {recordExportEvent : Bool} {clock : ℕ → ℕ}
    {table table' : List (AuditLog PyJson)} {package : AuditExportPackage}
    (hcolumns : ∀ row ∈ table, row.event.ColumnsRead)
    (h : buildAuditExportPackage cfg filters actor recordExportEvent clock table =
      (.ok package, table')) :
    ∃ records, jsonLines package.jsonl = some records ∧
      records.length = package.manifest.recordCount ∧
      records.Perm ((table'.filter (filters.keeps cfg)).map fun row =>
        (serializeAuditLog cfg.users row).canonical) ∧
      (∀ record ∈ records, (recordHash cfg.sha256 record).isSome = true) ∧
      (filters = {} → ∃ order, order.Perm records ∧
        verifyRecords cfg.sha256 genesisHash order =
          some package.manifest.chainVerification.headHash) := by
  obtain ⟨hrecorded, hverified, hjsonl, hcount⟩ := package_cases h
  have hcolumns' := recordExport_columns hcolumns hrecorded
  -- the verifier walks over the same rows in the order of the chain
  let chain := table'.mergeSort chainOrder
  have hchain : chain.Perm table' := List.mergeSort_perm _ _
  have hcontinues : (entryChaining (jsonDigest cfg.sha256)).Continues genesisHash
      (chain.map AuditLog.entry) := (verifyRows_ok_iff (clock 2)).mp ⟨_, hverified⟩
  let rows := buildAuditExportQueryset cfg filters table'
  have hrows : rows.Perm (table'.filter (filters.keeps cfg)) := List.mergeSort_perm _ _
  have hmem : ∀ row ∈ rows, row ∈ table' :=
    fun row hrow => (List.mem_filter.mp (hrows.mem_iff.mp hrow)).1
  refine ⟨rows.map fun row => (serializeAuditLog cfg.users row).canonical, ?_, ?_, hrows.map _, ?_, ?_⟩
  · rw [hjsonl, renderJsonl, jsonLines_dumps, List.map_map]
    · rfl
    · intro value hvalue
      obtain ⟨row, hrow, rfl⟩ := List.mem_map.mp hvalue
      exact stable_record (hcolumns' row (hmem row hrow))
  · rw [List.length_map, hcount]
  · intro record hrecord
    obtain ⟨row, hrow, rfl⟩ := List.mem_map.mp hrecord
    have hhash := hash_of_continues hcontinues row (hchain.mem_iff.mpr (hmem row hrow))
    rw [recordHash_canonical (hcolumns' row (hmem row hrow)) hhash]
    rfl
  · rintro rfl
    have hall : table'.filter (({} : AuditExportFilters).keeps cfg) = table' :=
      List.filter_eq_self.mpr fun row _ => keeps_everything cfg row
    rw [hall] at hrows
    refine ⟨chain.map fun row => (serializeAuditLog cfg.users row).canonical,
      (hchain.trans hrows.symm).map _, ?_⟩
    rw [verifyRows_headHash hverified]
    exact verifyRecords_rows (fun row hrow => hcolumns' row (hchain.mem_iff.mp hrow)) hcontinues

/-- One account, and the text itself in place of its digest. -/
def plainExports : ExportConfig :=
  ⟨id, lowercaseInet, id, fun _ => ⟨some "a@b.ir", "Sara", ""⟩, 100000⟩

theorem recordExport_intact {cfg : ExportConfig} {filters : AuditExportFilters} {actor : ExportActor}
    {recordExportEvent : Bool} {now : ℕ} {table table' : List (AuditLog PyJson)}
    (hintact : ChainIntact (jsonDigest cfg.sha256) table)
    (hip : ∀ ip ∈ actor.ipAddress, cfg.storeIp ip = some (some ip))
    (h : recordExport cfg filters actor recordExportEvent now table = some table') :
    ChainIntact (jsonDigest cfg.sha256) table' := by
  unfold recordExport at h
  split_ifs at h
  · obtain ⟨stored, -, rfl⟩ := Option.map_eq_some_iff.mp h
    refine chainIntact_step hintact fun _ => ⟨hip, fun changes hchanges => ?_, fun data hdata => ?_⟩
    · exact absurd hchanges (Option.not_mem_none _)
    · exact (stable_exportData filters actor data hdata).1
  · obtain rfl := Option.some.inj h
    exact hintact

/-- The export of an empty table has one record, its own. -/
theorem export_verifies_offline_first :
    ∃ package table', buildAuditExportPackage plainExports {} {} true (fun _ => 0) [] =
        (.ok package, table') ∧ table'.length = 1 ∧
      ∃ records, jsonLines package.jsonl = some records ∧
        records.length = package.manifest.recordCount ∧
        records.Perm ((table'.filter (({} : AuditExportFilters).keeps plainExports)).map fun row =>
          (serializeAuditLog plainExports.users row).canonical) ∧
        (∀ record ∈ records, (recordHash plainExports.sha256 record).isSome = true) ∧
        (({} : AuditExportFilters) = {} → ∃ order, order.Perm records ∧
          verifyRecords plainExports.sha256 genesisHash order =
            some package.manifest.chainVerification.headHash) := by
  have hstart : ChainIntact (jsonDigest plainExports.sha256) [] := trivial
  have hlength : (recordExport plainExports {} {} true 0 []).map List.length = some 1 := by
    decide +kernel
  obtain ⟨table', hrecorded, hone⟩ := Option.map_eq_some_iff.mp hlength
  have hintact := recordExport_intact hstart (fun _ hip => absurd hip (Option.not_mem_none _)) hrecorded
  have hcount : (table'.filter (({} : AuditExportFilters).keeps plainExports)).length ≤
      plainExports.maxRecords :=
    (List.length_filter_le _ _).trans (by rw [hone]; decide)
  obtain ⟨package, hpackage⟩ := build_of_intact (fun _ => 0) hstart hrecorded hintact hcount
  exact ⟨package, table', hpackage, hone,
    export_verifies_offline plainExports (fun _ h => absurd h List.not_mem_nil) hpackage⟩

/-! ## Runs with exports -/

inductive ArchiveOp where
  | audit (op : AuditOp)
  | exportPackage (filters : AuditExportFilters) (actor : ExportActor) (recordExportEvent : Bool)
      (clock : ℕ → ℕ)

def archiveStep (cfg : ExportConfig) (table : List (AuditLog PyJson)) :
    ArchiveOp → List (AuditLog PyJson)
  | .audit op => auditStep cfg.storeIp cfg.sha256 table op
  | .exportPackage filters actor recordExportEvent clock =>
      (buildAuditExportPackage cfg filters actor recordExportEvent clock table).2

/-- An export is asked for from an address in canonical form. -/
def ArchiveSafe (cfg : ExportConfig) (table : List (AuditLog PyJson)) : ArchiveOp → Prop
  | .audit op => HashSafe cfg.storeIp table op
  | .exportPackage _ actor _ _ => ∀ ip ∈ actor.ipAddress, cfg.storeIp ip = some (some ip)

/-- An export of an intact chain reports no break and leaves the chain intact. -/
theorem build_intact {cfg : ExportConfig} (filters : AuditExportFilters) {actor : ExportActor}
    (recordExportEvent : Bool) (clock : ℕ → ℕ) {table : List (AuditLog PyJson)}
    (hintact : ChainIntact (jsonDigest cfg.sha256) table)
    (hip : ∀ ip ∈ actor.ipAddress, cfg.storeIp ip = some (some ip)) :
    ChainIntact (jsonDigest cfg.sha256)
        (buildAuditExportPackage cfg filters actor recordExportEvent clock table).2 ∧
      ∀ error, (buildAuditExportPackage cfg filters actor recordExportEvent clock table).1 ≠
        .error (.chain error) := by
  obtain ⟨result, hverified, -⟩ := verify_intact hintact (clock 0)
  cases hrecorded : recordExport cfg filters actor recordExportEvent (clock 1) table with
  | none =>
      simp only [buildAuditExportPackage, hverified, hrecorded]
      exact ⟨hintact, fun error h => by cases h⟩
  | some table' =>
      have hintact' := recordExport_intact hintact hip hrecorded
      obtain ⟨result', hverified', -⟩ := verify_intact hintact' (clock 2)
      simp only [buildAuditExportPackage, hverified, hrecorded, hverified', packageOf]
      refine ⟨hintact', fun error h => ?_⟩
      split_ifs at h
      cases h

/-- **Exports raise no false alarm.**  In every run that creates records as they are read back,
deletes users without records and exports packages, a further export reports no break, and its
manifest counts every record of the table. -/
theorem exports_raise_no_alarm (cfg : ExportConfig) {table : List (AuditLog PyJson)}
    (hstart : ChainIntact (jsonDigest cfg.sha256) table) {ops : List ArchiveOp}
    (hsafe : Along (archiveStep cfg) (ArchiveSafe cfg) table ops) (filters : AuditExportFilters)
    {actor : ExportActor} (recordExportEvent : Bool) (clock : ℕ → ℕ)
    (hip : ∀ ip ∈ actor.ipAddress, cfg.storeIp ip = some (some ip)) :
    let built := buildAuditExportPackage cfg filters actor recordExportEvent clock
      (run (archiveStep cfg) table ops)
    (∀ error, built.1 ≠ .error (.chain error)) ∧
      ∀ package, built.1 = .ok package →
        package.manifest.chainVerification.checked = built.2.length := by
  have hintact : ChainIntact (jsonDigest cfg.sha256) (run (archiveStep cfg) table ops) := by
    refine invariant_along (I := ChainIntact (jsonDigest cfg.sha256)) (fun s op hs hop => ?_)
      hstart hsafe
    cases op with
    | audit op => exact chainIntact_step hs hop
    | exportPackage filters actor recordExportEvent clock =>
        exact (build_intact filters recordExportEvent clock hs hop).1
  obtain ⟨hintact', hnone⟩ := build_intact filters recordExportEvent clock hintact hip
  refine ⟨hnone, fun package hpackage => ?_⟩
  obtain ⟨-, hverified, -, -⟩ := package_cases (Prod.ext hpackage rfl)
  obtain ⟨result, hresult, hchecked, -⟩ := verify_intact hintact' (clock 2)
  rw [← hchecked, Except.ok.inj (hverified.symm.trans hresult)]

/-- Two exports, the second from a canonical address. -/
theorem exports_raise_no_alarm_twice :
    let built := buildAuditExportPackage plainExports {} { ipAddress := some "2001:db8::1" } true
      (fun _ => 5)
      (run (archiveStep plainExports) [] [.exportPackage {} {} true fun _ => 0])
    (∀ error, built.1 ≠ .error (.chain error)) ∧
      ∀ package, built.1 = .ok package →
        package.manifest.chainVerification.checked = built.2.length := by
  have hstart : ChainIntact (jsonDigest plainExports.sha256) [] := trivial
  have hsafe : Along (archiveStep plainExports) (ArchiveSafe plainExports) []
      [.exportPackage {} {} true fun _ => 0] :=
    ⟨fun _ hip => absurd hip (Option.not_mem_none _), trivial⟩
  refine exports_raise_no_alarm plainExports hstart hsafe {} true (fun _ => 5) fun ip hip => ?_
  obtain rfl := Option.some.inj hip
  decide +kernel

end SetadJang.AuditLogs
