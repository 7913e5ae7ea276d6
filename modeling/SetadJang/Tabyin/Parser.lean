import SetadJang.Framework.PyText
import SetadJang.Tabyin.Model

/-!
# Parser and hash of source items

`parse_content_item` turns a JSON item into the fields of a content;
`compute_content_hash` is what the engine compares to see whether an item has
changed.  Items without an id are skipped; an attachment list that is `null`
raises.
-/

namespace SetadJang.Tabyin

open SetadJang.Framework

def fileOriginalBaseUrl : String := "https://app-media.armansky.ir/org/"

def mediaUrlSchemaVersion : String := "armansky-media-org-v1"

def galleryBaseUrl : String := "https://app.armansky.ir/panel/gallery/"

def imageExtensions : List String := [".jpg", ".jpeg", ".png", ".webp", ".gif", ".bmp", ".svg"]

def videoExtensions : List String := [".mp4", ".mkv", ".avi", ".mov", ".wmv", ".flv", ".webm"]

def audioExtensions : List String := [".mp3", ".wav", ".ogg", ".aac", ".flac", ".m4a"]

/-- The fields of an attachment that enter the hash. -/
structure NormalizedAttachment where
  url : Option String
  duration : Option ℤ
  fileSize : Option ℤ
  size : Option String
deriving DecidableEq, Repr

/-- The fields of an item that enter the hash; `none` is JSON `null`. -/
structure SignificantFields where
  mediaUrlSchemaVersion : String
  title : Option String
  description : Option String
  username : Option String
  status : Option ℤ
  type : Option ℤ
  updatedAt : Option String
  attachments : List NormalizedAttachment
deriving DecidableEq, Repr

/-- The library functions the sync relies on.  `digest` is SHA-256 in hexadecimal
over the canonical JSON text, `strptime` reads a Tehran time, `lower` is
`str.lower`; `insertedAt` is the clock when a content gets its key. -/
structure Env where
  digest : SignificantFields → String
  strptime : String → Option ℕ
  lower : String → String
  insertedAt : ℕ → ℕ

/-! ## Parser -/

structure ParsedAttachment where
  url : String
  relativeUrl : String
  mediaType : MediaType
  size : Option String
  duration : Option ℤ
  fileSize : Option ℤ
  title : Option String
  order : ℕ
deriving DecidableEq, Repr

structure ParsedItem where
  externalId : String
  title : String
  description : String
  authorUsername : String
  sourceEntityId : Option ℤ
  sourceStatus : Option ℤ
  sourceType : Option ℤ
  sourceCreatedAt : Option ℕ
  sourceUpdatedAt : Option ℕ
  sourceUrl : String
  rawPayload : RawItem
  attachments : List ParsedAttachment
deriving DecidableEq, Repr

/-- `a or b` on texts: `None` and the empty text are false. -/
def pyOr (a b : Option String) : Option String :=
  match a with
  | some s => if s = "" then b else some s
  | none => b

def buildOriginalMediaUrl (relativeUrl : String) : String :=
  let cleaned := pyStrip relativeUrl
  if cleaned = "" then cleaned
  else
    let servicePrefixes :=
      ["https://app-service.armansky.ir/", "http://app-service.armansky.ir/"]
    let cleaned :=
      match servicePrefixes.find? (pyStartsWith cleaned) with
      | some start => String.ofList (cleaned.toList.drop start.length)
      | none => cleaned
    if pyStartsWith cleaned "https://" || pyStartsWith cleaned "http://" then cleaned
    else fileOriginalBaseUrl ++ pyLStrip (· == '/') cleaned

def detectMediaType (env : Env) (url : String) : MediaType :=
  -- the query string is cut off
  let urlLower := String.ofList ((env.lower url).toList.takeWhile (· != '?'))
  if imageExtensions.any (pyEndsWith urlLower) then .image
  else if videoExtensions.any (pyEndsWith urlLower) then .video
  else if audioExtensions.any (pyEndsWith urlLower) then .audio
  else .other

/-- `_parse_attachments` from position `idx` on. -/
def parseAttachments (env : Env) : ℕ → List RawAttachment → List ParsedAttachment
  | _, [] => []
  | idx, att :: rest =>
      match pyOr (att.url.getOr "") none with
      | none => parseAttachments env (idx + 1) rest
      | some relativeUrl =>
          { url := buildOriginalMediaUrl relativeUrl
            relativeUrl := relativeUrl
            mediaType := detectMediaType env relativeUrl
            size := att.size.getOr ""
            duration := att.duration.getOr 0
            fileSize := att.fileSize.getOr 0
            title := att.title.getOr ""
            order := idx } :: parseAttachments env (idx + 1) rest

def parseDatetime (env : Env) (value : Option String) : Option ℕ :=
  (pyOr value none).bind env.strptime

/-- The id of an item, unless it is false. -/
def RawItem.externalId (raw : RawItem) : Option String := pyOr raw.id.get none

def parseContentItem (env : Env) (raw : RawItem) : Except SyncError (Option ParsedItem) :=
  match raw.externalId with
  | none => .ok none
  | some externalId =>
      match raw.e22Attachment.getOr [] with
      -- `enumerate(None)`
      | none => .error .typeError
      | some attachments =>
          .ok <| some
            { externalId := externalId
              title := pyStrip ((pyOr raw.e19Title.get (pyOr raw.name.get none)).getD "")
              description := pyStrip ((pyOr raw.e20Description.get none).getD "")
              authorUsername := pyStrip ((pyOr raw.username.get none).getD "")
              sourceEntityId := raw.entityId.getOr 0
              sourceStatus := raw.status.getOr 0
              sourceType := raw.type.getOr 0
              sourceCreatedAt := parseDatetime env raw.createdAt.get
              sourceUpdatedAt := parseDatetime env raw.updatedAt.get
              sourceUrl := galleryBaseUrl ++ externalId
              rawPayload := raw
              attachments := parseAttachments env 0 attachments }

/-- `extract_items`: a missing `data` or `fields` is an empty page; `null` in
their place raises, the second one in `len(raw_items)`. -/
def extractItems (response : Response) : Except SyncError (List RawItem) :=
  match response.data with
  | .absent => .ok []
  | .null => .error .attributeError
  | .value data =>
      match data with
      | .absent => .ok []
      | .null => .error .typeError
      | .value fields => .ok fields

/-! ## Hash -/

def normalizeAttachment (att : RawAttachment) : NormalizedAttachment where
  url := att.url.getOr ""
  duration := att.duration.getOr 0
  fileSize := att.fileSize.getOr 0
  size := att.size.getOr ""

/-- `compute_content_hash`, for an item whose attachment list is not `null`. -/
def computeContentHash (env : Env) (data : RawItem) : String :=
  env.digest
    { mediaUrlSchemaVersion := mediaUrlSchemaVersion
      title := pyOr (data.e19Title.getOr "") (data.name.getOr "")
      description := data.e20Description.getOr ""
      username := data.username.getOr ""
      status := data.status.get
      type := data.type.get
      updatedAt := data.updatedAt.getOr ""
      attachments := ((data.e22Attachment.getOr []).getD []).map normalizeAttachment }

/-! ## What the parser keeps of an item -/

/-- A parsed item has the id of the item it comes from. -/
theorem parseContentItem_externalId {env : Env} {raw : RawItem} {parsed : Option ParsedItem}
    (h : parseContentItem env raw = .ok parsed) :
    parsed.map ParsedItem.externalId = raw.externalId := by
  unfold parseContentItem at h
  split at h
  case h_1 hid =>
    cases h
    rw [hid]
    rfl
  case h_2 externalId hid =>
    split at h
    · cases h
    · cases h
      rw [hid]
      rfl

end SetadJang.Tabyin
