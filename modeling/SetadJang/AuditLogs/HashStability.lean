import SetadJang.Framework.PyJson
import SetadJang.Framework.Runs
import SetadJang.AuditLogs.Model

/-!
# Hashes of records that were stored and read back

`compute_event_hash` runs on the Python values of a record before it is stored.  The verifier
runs it on the row as the database gives it back: the address in its canonical form, the
keys of the JSON columns as strings, and the user as the deletion of a user has left it.
The two agree, and the chain verifies, as long as no record is created with values that the
round trip changes and no user with records is deleted.
-/

namespace SetadJang.AuditLogs

open SetadJang.Framework

/-! ## The hashed text -/

def optionText (text : Option String) : PyJson := text.elim .null .str

/-- The dictionary of `compute_event_hash`. -/
def HashPayload.toJson (payload : HashPayload PyJson) : PyJson :=
  .dict
    [(.str "hash_version", .int payload.event.hashVersion),
      (.str "previous_hash", .str payload.previousHash),
      (.str "user_id", payload.event.userId.elim .null fun user => .int user),
      (.str "action", .str payload.event.action),
      (.str "ip_address", optionText payload.event.ipAddress),
      (.str "request_id", optionText payload.event.requestId),
      (.str "user_agent", .str payload.event.userAgent),
      (.str "path", .str payload.event.path),
      (.str "method", .str payload.event.method),
      (.str "resource_type", .str payload.event.resourceType),
      (.str "resource_id", optionText payload.event.resourceId),
      (.str "changes", payload.event.changes.getD .null),
      (.str "extra_data", payload.event.extraData.getD .null)]

/-- The digest of the canonical text; `sha256` gives the hexadecimal digest of a text. -/
def jsonDigest (sha256 : String → String) (payload : HashPayload PyJson) : String :=
  sha256 payload.toJson.dumps

/-! ## Storing a record -/

/-- The lengths of the text columns. -/
def fitsColumns (event : AuditEvent PyJson) : Bool :=
  decide (event.action.length ≤ 100) && event.requestId.all (fun id => decide (id.length ≤ 80)) &&
    decide (event.userAgent.length ≤ 512) && decide (event.path.length ≤ 512) &&
    decide (event.method.length ≤ 10) && decide (event.resourceType.length ≤ 100) &&
    event.resourceId.all fun id => decide (id.length ≤ 100)

section

variable (storeIp : String → Option (Option String))

/-- The row as it is read back.  `storeIp` is the address column: it refuses a text that is
no address, and gives an address back in its canonical form. -/
def storedEvent (event : AuditEvent PyJson) : Option (AuditEvent PyJson) :=
  (event.ipAddress.elim (some none) storeIp).map fun ipAddress =>
    { event with
      ipAddress := ipAddress
      changes := event.changes.map PyJson.readBack
      extraData := event.extraData.map PyJson.readBack }

/-- The row that `create_audit_log` leaves; `json.dumps` refuses keys that cannot be sorted
and the database what does not fit its columns. -/
def accepted (event : AuditEvent PyJson) : Option (AuditEvent PyJson) :=
  if event.changes.all PyJson.sortable && event.extraData.all PyJson.sortable && fitsColumns event
  then storedEvent storeIp event else none

inductive AuditOp where
  | createAuditLog (event : AuditEvent PyJson) (now : ℕ)
  | deleteUser (user : ℕ)

/-- `on_delete=SET_NULL`. -/
def setUserNull (user : ℕ) (row : AuditLog PyJson) : AuditLog PyJson :=
  if row.event.userId = some user then { row with event := { row.event with userId := none } }
  else row

/-- The table after one operation.  `create_audit_log` leaves `hash_version` at its default. -/
def auditStep (sha256 : String → String) (rows : List (AuditLog PyJson)) :
    AuditOp → List (AuditLog PyJson)
  | .createAuditLog event now =>
      let event := { event with hashVersion := 1 }
      match accepted storeIp event with
      | some stored =>
          rows ++ [⟨rows.length + 1, stored, linkToChainHead (jsonDigest sha256) rows event, now⟩]
      | none => rows
  | .deleteUser user => rows.map (setUserNull user)

/-- The operation leaves the hashed values alone: a created record has no address or one in
canonical form, and dictionaries whose keys keep their order as strings; a deleted user has no
record. -/
def HashSafe (rows : List (AuditLog PyJson)) : AuditOp → Prop
  | .createAuditLog event _ =>
      accepted storeIp { event with hashVersion := 1 } ≠ none →
        (∀ ip ∈ event.ipAddress, storeIp ip = some (some ip)) ∧
        (∀ changes ∈ event.changes, changes.orderStable = true) ∧
        ∀ extraData ∈ event.extraData, extraData.orderStable = true
  | .deleteUser user => ∀ row ∈ rows, row.event.userId ≠ some user

end

/-! ## One step -/

section

variable {sha256 : String → String} {storeIp : String → Option (Option String)}
  {rows : List (AuditLog PyJson)}

theorem dumps_getD_readBack {value : Option PyJson}
    (h : ∀ x ∈ value, x.orderStable = true) :
    ((value.map PyJson.readBack).getD .null).dumps = (value.getD .null).dumps := by
  cases value with
  | none => rfl
  | some x => exact dumps_readBack (h x rfl)

/-- The hash of the row that is read back is the hash that was stored. -/
theorem jsonDigest_stored {event stored : AuditEvent PyJson} {previousHash : String}
    (hstored : storedEvent storeIp event = some stored)
    (hip : ∀ ip ∈ event.ipAddress, storeIp ip = some (some ip))
    (hchanges : ∀ x ∈ event.changes, x.orderStable = true)
    (hextra : ∀ x ∈ event.extraData, x.orderStable = true) :
    jsonDigest sha256 ⟨previousHash, stored⟩ = jsonDigest sha256 ⟨previousHash, event⟩ := by
  have haddress : event.ipAddress.elim (some none) storeIp = some event.ipAddress := by
    cases hcase : event.ipAddress with
    | none => rfl
    | some ip => exact hip ip hcase
  rw [storedEvent, haddress, Option.map_some] at hstored
  obtain rfl := Option.some.inj hstored
  simp only [jsonDigest, HashPayload.toJson, PyJson.dumps, dumpsEntries,
    dumps_getD_readBack hchanges, dumps_getD_readBack hextra]

/-- A record stamped before it is stored carries the stamp of the stored row. -/
theorem linkToChainHead_stored {event stored : AuditEvent PyJson}
    (h : ∀ previousHash, jsonDigest sha256 ⟨previousHash, stored⟩ =
      jsonDigest sha256 ⟨previousHash, event⟩) :
    linkToChainHead (jsonDigest sha256) rows stored =
      linkToChainHead (jsonDigest sha256) rows event := by
  unfold linkToChainHead computeEventHash
  split <;> simp only [h]

/-- **One step.** An operation that leaves the hashed values alone keeps the chain intact. -/
theorem chainIntact_step (hintact : ChainIntact (jsonDigest sha256) rows) {op : AuditOp}
    (hsafe : HashSafe storeIp rows op) :
    ChainIntact (jsonDigest sha256) (auditStep storeIp sha256 rows op) := by
  cases op with
  | createAuditLog event now =>
      simp only [auditStep]
      split
      · rename_i stored haccepted
        obtain ⟨hip, hchanges, hextra⟩ := hsafe (by rw [haccepted]; exact Option.some_ne_none _)
        have hstored : storedEvent storeIp { event with hashVersion := 1 } = some stored := by
          unfold accepted at haccepted
          split_ifs at haccepted
          exact haccepted
        rw [← linkToChainHead_stored fun previousHash =>
          jsonDigest_stored hstored hip hchanges hextra]
        exact linkToChainHead_intact hintact stored _ now
      · exact hintact
  | deleteUser user =>
      have hsame : rows.map (setUserNull user) = rows := by
        conv_rhs => rw [← List.map_id rows]
        exact List.map_congr_left fun row hrow => if_neg (hsafe row hrow)
      simp only [auditStep, hsame]
      exact hintact

end

/-! ## Whole runs -/

/-- **Hash stability.** In every state of a run that starts from an intact chain, creates only
records whose values the database gives back as they were hashed, and deletes only users
without records, each stored hash is the one recomputed from the row, and the verifier
accepts the chain. -/
theorem audit_hash_stable (sha256 : String → String) (storeIp : String → Option (Option String))
    {rows : List (AuditLog PyJson)} (hstart : ChainIntact (jsonDigest sha256) rows)
    {ops : List AuditOp} (hsafe : Along (auditStep storeIp sha256) (HashSafe storeIp) rows ops)
    (now : ℕ) :
    ∀ pre, pre <+: ops →
      (∀ row ∈ run (auditStep storeIp sha256) rows pre,
        row.stamp.eventHash =
          computeEventHash (jsonDigest sha256) row.event row.stamp.previousHash) ∧
      ∃ result, verifyAuditChainIntegrity (jsonDigest sha256) now
        (run (auditStep storeIp sha256) rows pre) = .ok result := by
  intro pre hpre
  have hintact : ChainIntact (jsonDigest sha256) (run (auditStep storeIp sha256) rows pre) :=
    invariant_along (I := ChainIntact (jsonDigest sha256)) (fun _ _ h hop => chainIntact_step h hop)
      hstart (along_earlier hsafe hpre)
  obtain ⟨result, hresult, -⟩ := verify_intact hintact now
  exact ⟨hintact.digest_eq, result, hresult⟩

/-! ## False alarms -/

/-- An address column that writes the hexadecimal digits of an address in lowercase. -/
def lowercaseInet (ip : String) : Option (Option String) :=
  some (some (String.ofList (ip.toList.map Char.toLower)))

def loginEvent : AuditEvent PyJson :=
  ⟨1, some 7, "login", none, none, "", "", "", "user", none, none, none⟩

/-- The verifier on the rows that a run leaves, with the text itself in place of its digest. -/
def verifyRun (ops : List AuditOp) :
    Except AuditChainVerificationError AuditChainVerificationResult :=
  verifyAuditChainIntegrity (jsonDigest id) 0 (run (auditStep lowercaseInet id) [] ops)

theorem verifyAuditChainIntegrity_single {digest : HashPayload PyJson → String} {now : ℕ}
    {rows : List (AuditLog PyJson)} (h : rows.length = 1) :
    verifyAuditChainIntegrity digest now rows = verifyRows digest now genesisHash 0 1 rows := by
  obtain ⟨row, rfl⟩ := List.length_eq_one_iff.mp h
  rw [verifyAuditChainIntegrity, List.mergeSort_singleton]

/-- One record is enough for a false alarm: an address in capital letters, keys that are
numbers of different lengths, or a user that is deleted later. -/
theorem untouched_chain_reported :
    verifyRun [.createAuditLog { loginEvent with ipAddress := some "2001:DB8::1" } 0] =
        .error ⟨1, "event_hash mismatch", 0⟩ ∧
      verifyRun [.createAuditLog
          { loginEvent with changes := some (.dict [(.int 9, .null), (.int 10, .null)]) } 0] =
        .error ⟨1, "event_hash mismatch", 0⟩ ∧
      verifyRun [.createAuditLog loginEvent 0, .deleteUser 7] =
        .error ⟨1, "event_hash mismatch", 0⟩ := by
  refine ⟨?_, ?_, ?_⟩ <;>
    · rw [verifyRun, verifyAuditChainIntegrity_single (by decide +kernel)]
      decide +kernel

/-- A record with a canonical address and text keys, and the deletion of another user. -/
def canonicalOps : List AuditOp :=
  [.createAuditLog
    { loginEvent with
      ipAddress := some "2001:db8::1"
      changes := some (.dict [(.str "status", .str "b"), (.str "id", .int 3)]) } 0, .deleteUser 8]

theorem audit_hash_stable_canonical : ∃ result, verifyRun canonicalOps = .ok result := by
  have hsafe : Along (auditStep lowercaseInet id) (HashSafe lowercaseInet) [] canonicalOps := by
    refine ⟨fun _ => ⟨fun ip hip => ?_, fun changes hchanges => ?_, nofun⟩, ?_, trivial⟩
    · obtain rfl := Option.some.inj hip
      decide +kernel
    · obtain rfl := Option.some.inj hchanges
      decide +kernel
    · unfold HashSafe
      decide +kernel
  have hstart : ChainIntact (jsonDigest id) [] := trivial
  exact (audit_hash_stable id lowercaseInet hstart hsafe 0 _ (List.prefix_refl _)).2

end SetadJang.AuditLogs
