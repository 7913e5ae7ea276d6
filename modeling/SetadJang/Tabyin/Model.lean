import Mathlib.Data.List.Basic
import Mathlib.Data.Int.Basic

/-!
# Tabyin contents

The rows of `TabyinContent` and `TabyinAttachment`, and the JSON items they are
synced from.  Contents of users live in the table of the synced contents; only
`origin` tells them apart.

The database rejects a text that is too long or holds a NUL character, a number
out of range, and a missing value; each rejection raises in the service.
-/

namespace SetadJang.Tabyin

/-! ## Items of the source -/

/-- A key of a JSON object. -/
inductive JsonField (α : Type) where
  | absent
  | null
  | value (a : α)
deriving DecidableEq, Repr

/-- `d.get(key)`. -/
def JsonField.get {α : Type} : JsonField α → Option α
  | .value a => some a
  | _ => none

/-- `d.get(key, default)`: an explicit `null` is still `None`. -/
def JsonField.getOr {α : Type} (default : α) : JsonField α → Option α
  | .absent => some default
  | .null => none
  | .value a => some a

structure RawAttachment where
  url : JsonField String
  size : JsonField String
  duration : JsonField ℤ
  fileSize : JsonField ℤ
  title : JsonField String
deriving DecidableEq, Repr

structure RawItem where
  id : JsonField String
  e19Title : JsonField String
  name : JsonField String
  e20Description : JsonField String
  username : JsonField String
  entityId : JsonField ℤ
  status : JsonField ℤ
  type : JsonField ℤ
  createdAt : JsonField String
  updatedAt : JsonField String
  e22Attachment : JsonField (List RawAttachment)
deriving DecidableEq, Repr

/-- A page as the source answers it: `data`, and the list `fields` in it. -/
structure Response where
  data : JsonField (JsonField (List RawItem))
deriving DecidableEq, Repr

/-! ## Rows -/

inductive MediaType where
  | image
  | video
  | audio
  | other
deriving DecidableEq, Repr

inductive ContentOrigin where
  | external
  | userSubmitted
deriving DecidableEq, Repr

inductive SubmissionStatus where
  | approved
  | pendingReview
  | rejected
deriving DecidableEq, Repr

inductive MirrorStatus where
  | none
  | pending
  | mirrored
  | failed
deriving DecidableEq, Repr

/-- `raw_payload`: the item as received, or the note of a user submission. -/
inductive RawPayload where
  | empty
  | userSubmission
  | item (raw : RawItem)
deriving DecidableEq, Repr

/-- The columns that the sync takes from an item. -/
structure SourceColumns where
  title : String
  description : String
  authorUsername : String
  sourceEntityId : ℕ
  sourceStatus : ℕ
  sourceType : ℕ
  sourceCreatedAt : Option ℕ
  sourceUpdatedAt : Option ℕ
  sourceUrl : String
  rawPayload : RawPayload
  contentHash : String
deriving DecidableEq, Repr

structure TabyinContent where
  pk : ℕ
  externalId : String
  origin : ContentOrigin
  submittedBy : Option ℕ
  submissionStatus : SubmissionStatus
  reviewedBy : Option ℕ
  reviewedAt : Option ℕ
  adminNote : String
  source : SourceColumns
  lastSyncedAt : Option ℕ
  isDeletedInSource : Bool
  isActive : Bool
  createdAt : ℕ
  updatedAt : ℕ
deriving DecidableEq, Repr

structure TabyinAttachment where
  pk : ℕ
  content : ℕ
  url : String
  relativeUrl : String
  mediaType : MediaType
  size : String
  duration : ℕ
  fileSize : ℕ
  title : String
  order : ℕ
  originUrl : String
  mirrorStatus : MirrorStatus
  mimeType : String
deriving DecidableEq, Repr

/-- The two tables and their key sequences. -/
structure Store where
  contents : List TabyinContent
  attachments : List TabyinAttachment
  nextContent : ℕ
  nextAttachment : ℕ
deriving DecidableEq, Repr

/-! ## Column checks -/

/-- What a sync may raise.  `databaseError` is the common class of the
rejections by the database. -/
inductive SyncError where
  | typeError
  | attributeError
  | databaseError
deriving DecidableEq, Repr

def textColumn (s : String) : Except SyncError String :=
  if s.toList.contains '\x00' then .error .databaseError else .ok s

/-- `varchar(maxLength)`. -/
def charColumn (maxLength : ℕ) (s : String) : Except SyncError String :=
  if s.length ≤ maxLength then textColumn s else .error .databaseError

/-- A value that must not be `None`. -/
def notNull {α : Type} : Option α → Except SyncError α
  | some a => .ok a
  | none => .error .databaseError

/-- `PositiveIntegerField` and `PositiveSmallIntegerField`. -/
def positiveColumn (max : ℕ) (n : ℤ) : Except SyncError ℕ :=
  if 0 ≤ n ∧ n ≤ max then .ok n.toNat else .error .databaseError

def integerMax : ℕ := 2147483647

def smallIntegerMax : ℕ := 32767

def RawAttachment.texts (raw : RawAttachment) : List (JsonField String) :=
  [raw.url, raw.size, raw.title]

def RawItem.texts (raw : RawItem) : List (JsonField String) :=
  [raw.id, raw.e19Title, raw.name, raw.e20Description, raw.username, raw.createdAt,
    raw.updatedAt] ++ ((raw.e22Attachment.get.getD []).map RawAttachment.texts).flatten

/-- A JSON column takes the item unless one of its texts holds a NUL. -/
def jsonColumn (raw : RawItem) : Except SyncError RawPayload :=
  if raw.texts.any fun text => (text.get.getD "").toList.contains '\x00' then
    .error .databaseError
  else .ok (.item raw)

end SetadJang.Tabyin
