import SetadJang.Framework.Txn
import SetadJang.Tabyin.Parser

/-!
# The sync engine

`sync_full` walks over all pages of the source, creates and updates contents page
by page, and then soft-deletes the contents whose id it has not seen.  Every page
commits on its own: a raise in a later page keeps the earlier ones and skips the
deletion pass.  A page that cannot be fetched is counted and skipped.
-/

namespace SetadJang.Tabyin

open SetadJang.Framework SetadJang.Framework.Txn

/-- A source: what its pages hold, and for which of them `fetch_page` returns
`None`. -/
structure Provider where
  totalPages : ℕ
  page : ℕ → Response
  failed : ℕ → Bool

def Provider.fetchPage (provider : Provider) (page : ℕ) : Option Response :=
  if provider.failed page then none else some (provider.page page)

structure SyncStats where
  pagesFetched : ℕ
  itemsProcessed : ℕ
  created : ℕ
  updated : ℕ
  unchanged : ℕ
  softDeleted : ℕ
  errors : ℕ
  skipped : ℕ
deriving DecidableEq, Repr

/-- The engine's `_stats` and `_now`, with the tables it works on. -/
structure Engine where
  store : Store
  stats : SyncStats
  now : ℕ
deriving DecidableEq, Repr

/-- A new engine. -/
def Engine.start (store : Store) (now : ℕ) : Engine where
  store := store
  stats := ⟨0, 0, 0, 0, 0, 0, 0, 0⟩
  now := now

abbrev Sync := Txn Engine SyncError

def setStore (f : Store → Store) : Sync PUnit :=
  modify fun e => { e with store := f e.store }

def count (f : SyncStats → SyncStats) : Sync PUnit :=
  modify fun e => { e with stats := f e.stats }

/-! ## Rows from items -/

/-- The columns of an item, as the database accepts them. -/
def sourceColumns (env : Env) (item : ParsedItem) : Except SyncError SourceColumns := do
  let title ← charColumn 512 item.title
  let description ← textColumn item.description
  let authorUsername ← charColumn 255 item.authorUsername
  let sourceEntityId ← notNull item.sourceEntityId >>= positiveColumn integerMax
  let sourceStatus ← notNull item.sourceStatus >>= positiveColumn smallIntegerMax
  let sourceType ← notNull item.sourceType >>= positiveColumn smallIntegerMax
  let sourceUrl ← charColumn 512 item.sourceUrl
  let rawPayload ← jsonColumn item.rawPayload
  let contentHash ← charColumn 64 (computeContentHash env item.rawPayload)
  return {
    title, description, authorUsername, sourceEntityId, sourceStatus, sourceType,
    sourceCreatedAt := item.sourceCreatedAt, sourceUpdatedAt := item.sourceUpdatedAt,
    sourceUrl, rawPayload, contentHash }

/-- The row that one content of a bulk insert becomes; `external_id` is unique. -/
def newContent (env : Env) (e : Engine) (item : ParsedItem) : Except SyncError TabyinContent := do
  let externalId ← charColumn 64 item.externalId
  let source ← sourceColumns env item
  if e.store.contents.any fun row => row.externalId == externalId then
    throw .databaseError
  else
    let pk := e.store.nextContent
    return {
      pk := pk
      externalId := externalId
      origin := .external
      submittedBy := none
      submissionStatus := .approved
      reviewedBy := none
      reviewedAt := none
      adminNote := ""
      source := source
      lastSyncedAt := some e.now
      isDeletedInSource := false
      isActive := true
      createdAt := env.insertedAt pk
      updatedAt := env.insertedAt pk }

def insertContent (env : Env) (item : ParsedItem) : Sync TabyinContent := do
  let e ← get
  let row ← fromExcept (newContent env e item)
  setStore fun store =>
    { store with contents := store.contents ++ [row], nextContent := store.nextContent + 1 }
  return row

def newAttachment (e : Engine) (content : ℕ) (att : ParsedAttachment) :
    Except SyncError TabyinAttachment := do
  let url ← charColumn 1024 att.url
  let relativeUrl ← charColumn 1024 att.relativeUrl
  let size ← notNull att.size >>= charColumn 32
  let duration ← notNull att.duration >>= positiveColumn integerMax
  let fileSize ← notNull att.fileSize >>= positiveColumn integerMax
  let title ← notNull att.title >>= charColumn 512
  let order ← positiveColumn smallIntegerMax att.order
  return {
    pk := e.store.nextAttachment
    content, url, relativeUrl
    mediaType := att.mediaType
    size, duration, fileSize, title, order
    originUrl := ""
    mirrorStatus := .none
    mimeType := "" }

def insertAttachment (content : ℕ) (att : ParsedAttachment) : Sync PUnit := do
  let e ← get
  let row ← fromExcept (newAttachment e content att)
  setStore fun store =>
    { store with
      attachments := store.attachments ++ [row]
      nextAttachment := store.nextAttachment + 1 }

/-- `for a in rows: body(a)`. -/
def forEach {α : Type} (body : α → Sync PUnit) : List α → Sync PUnit
  | [] => pure ⟨⟩
  | a :: rest => do
      body a
      forEach body rest

theorem forEach_keeps {R : Engine → Engine → Prop} (hrefl : ∀ e, R e e)
    (htrans : ∀ e t u, R e t → R t u → R e u) {α : Type} {body : α → Sync PUnit} {rows : List α}
    (h : ∀ a ∈ rows, Keeps R (body a)) : Keeps R (forEach body rows) := by
  induction rows with
  | nil => exact keeps_pure hrefl _
  | cons a rest ih =>
      have hrest := ih fun b hb => h b (List.mem_cons_of_mem _ hb)
      exact keeps_bind htrans (h a List.mem_cons_self) fun _ => hrest

/-! ## Batches -/

def insertContents (env : Env) : List ParsedItem → Sync (List TabyinContent)
  | [] => pure []
  | item :: rest => do
      let row ← insertContent env item
      let rows ← insertContents env rest
      return row :: rows

/-- `attachments_map.get(external_id, [])`: of items with one id the last. -/
def attachmentsOf (items : List ParsedItem) (externalId : String) : List ParsedAttachment :=
  match items.reverse.find? fun item => item.externalId == externalId with
  | some item => item.attachments
  | none => []

/-- `_bulk_create`. -/
def bulkCreate (env : Env) (items : List ParsedItem) : Sync PUnit := do
  let created ← atomic do
    let created ← insertContents env items
    forEach (fun row => forEach (insertAttachment row.pk) (attachmentsOf items row.externalId))
      created
    return created.length
  count fun stats => { stats with created := stats.created + created }

/-- What the loop of `_bulk_update` leaves on the object of a row: rows that occur
twice share one object, so the last item stays. -/
def lastItem (items : List (TabyinContent × ParsedItem)) (pk : ℕ) : Option ParsedItem :=
  (items.reverse.find? fun entry => entry.1.pk == pk).map Prod.snd

/-- The fields that `_bulk_update` assigns. -/
def overwrite (now : ℕ) (source : SourceColumns) (row : TabyinContent) : TabyinContent :=
  { row with
    source := source
    lastSyncedAt := some now
    isDeletedInSource := false
    isActive := true
    updatedAt := now }

/-- The `UPDATE` of one object. -/
def updateContent (env : Env) (pk : ℕ) (item : ParsedItem) : Sync PUnit := do
  let e ← get
  let source ← fromExcept (sourceColumns env item)
  setStore fun store =>
    { store with
      contents := store.contents.map fun row =>
        if row.pk = pk then overwrite e.now source row else row }

/-- `_bulk_update`. -/
def bulkUpdate (env : Env) (items : List (TabyinContent × ParsedItem)) : Sync PUnit := do
  atomic do
    forEach
      (fun entry => updateContent env entry.1.pk ((lastItem items entry.1.pk).getD entry.2)) items
    setStore fun store =>
      { store with
        attachments := store.attachments.filter fun att =>
          !(items.any fun entry => entry.1.pk == att.content) }
    forEach (fun entry => forEach (insertAttachment entry.1.pk) entry.2.attachments) items
  count fun stats => { stats with updated := stats.updated + items.length }

/-- What the loop of `_upsert_batch` collects. -/
structure Batch where
  toCreate : List ParsedItem
  toUpdate : List (TabyinContent × ParsedItem)
  unchanged : ℕ

def sortItem (env : Env) (existing : String → Option TabyinContent) (batch : Batch)
    (item : ParsedItem) : Batch :=
  match existing item.externalId with
  | none => { batch with toCreate := batch.toCreate ++ [item] }
  | some row =>
      if row.source.contentHash = computeContentHash env item.rawPayload then
        { batch with unchanged := batch.unchanged + 1 }
      else { batch with toUpdate := batch.toUpdate ++ [(row, item)] }

def Store.byExternalId (store : Store) (externalId : String) : Option TabyinContent :=
  store.contents.find? fun row => row.externalId == externalId

/-- `_upsert_batch`. -/
def upsertBatch (env : Env) (items : List ParsedItem) : Sync PUnit := do
  let e ← get
  let batch := items.foldl (sortItem env e.store.byExternalId) ⟨[], [], 0⟩
  count fun stats =>
    { stats with
      itemsProcessed := stats.itemsProcessed + items.length
      unchanged := stats.unchanged + batch.unchanged }
  if batch.toCreate ≠ [] then bulkCreate env batch.toCreate
  if batch.toUpdate ≠ [] then bulkUpdate env batch.toUpdate

/-! ## Pages -/

/-- The loop of `_process_page`: the parsed items, and how many were skipped. -/
def parseItems (env : Env) : List RawItem → Except SyncError (List ParsedItem × ℕ)
  | [] => .ok ([], 0)
  | raw :: rest => do
      let parsed ← parseContentItem env raw
      let (items, skipped) ← parseItems env rest
      match parsed with
      | none => return (items, skipped + 1)
      | some item => return (item :: items, skipped)

/-- `_process_page`: the ids of the page, or `none` where it could not be fetched. -/
def processPage (env : Env) (provider : Provider) (page : ℕ) : Sync (Option (List String)) :=
  match provider.fetchPage page with
  | none => do
      count fun stats => { stats with errors := stats.errors + 1 }
      return none
  | some response => do
      count fun stats => { stats with pagesFetched := stats.pagesFetched + 1 }
      let rawItems ← fromExcept (extractItems response)
      if rawItems = [] then
        return some []
      else
        let (items, skipped) ← fromExcept (parseItems env rawItems)
        count fun stats => { stats with skipped := stats.skipped + skipped }
        if items ≠ [] then upsertBatch env items
        return some (items.map ParsedItem.externalId)

/-- The page loop of `sync_full`, with `source_ids` so far. -/
def processPages (env : Env) (provider : Provider) : List ℕ → List String → Sync (List String)
  | [], sourceIds => pure sourceIds
  | page :: pages, sourceIds => do
      let pageIds ← processPage env provider page
      processPages env provider pages (sourceIds ++ pageIds.getD [])

def Provider.pages (provider : Provider) : List ℕ := List.range' 1 provider.totalPages

/-- The rows `_soft_delete_missing` selects. -/
def missing (sourceIds : List String) (row : TabyinContent) : Bool :=
  !row.isDeletedInSource && !sourceIds.contains row.externalId

def softDelete (now : ℕ) (row : TabyinContent) : TabyinContent :=
  { row with isDeletedInSource := true, isActive := false, updatedAt := now }

/-- `_soft_delete_missing`. -/
def softDeleteMissing (sourceIds : List String) : Sync PUnit := do
  let e ← get
  let deleted := e.store.contents.countP (missing sourceIds)
  setStore fun store =>
    { store with
      contents := store.contents.map fun row =>
        if missing sourceIds row then softDelete e.now row else row }
  if 0 < deleted then count fun stats => { stats with softDeleted := deleted }

def syncFull (env : Env) (provider : Provider) : Sync SyncStats := do
  if provider.totalPages = 0 then
    return (← get).stats
  else
    let sourceIds ← processPages env provider provider.pages []
    if sourceIds ≠ [] then softDeleteMissing sourceIds
    return (← get).stats

def maxUnchangedPages : ℕ := 3

/-- Nothing was created or updated between the two states. -/
def sameCounters (before after : SyncStats) : Bool :=
  before.created == after.created && before.updated == after.updated

/-- The page loop of `sync_incremental`, with `consecutive_unchanged` so far. -/
def processUntilUnchanged (env : Env) (provider : Provider) : List ℕ → ℕ → Sync PUnit
  | [], _ => pure ⟨⟩
  | page :: pages, streak => do
      let before ← get
      let _ ← processPage env provider page
      let after ← get
      if sameCounters before.stats after.stats then
        if maxUnchangedPages ≤ streak + 1 then
          return ⟨⟩
        else processUntilUnchanged env provider pages (streak + 1)
      else processUntilUnchanged env provider pages 0

def syncIncremental (env : Env) (provider : Provider) : Sync SyncStats := do
  if provider.totalPages = 0 then
    return (← get).stats
  else
    processUntilUnchanged env provider provider.pages 0
    return (← get).stats

end SetadJang.Tabyin
