import SetadJang.Core.FileSecurity
import SetadJang.Framework.PyUnicode
import SetadJang.Tabyin.MediaMeta
import SetadJang.Tabyin.MirrorGuard
import SetadJang.Tabyin.MovieFiles

/-!
# What the mirror stores

Once the stream is open, `mirror_attachment_to_local` checks the headers, downloads the body up
to a cap, reads its metadata, scans it, stores it and writes what it has found to the row of the
attachment.  The numbers come from the bytes of the body and the type from a header, and neither
is cut to the columns.
-/

namespace SetadJang.Tabyin

open SetadJang.Framework SetadJang.Framework.Txn SetadJang.FileSecurity

/-! ## Types and extensions -/

def mediaTypes : List MediaType := [.image, .video, .audio, .other]

/-- `ALLOWED_EXTENSIONS`. -/
def allowedExtensions : MediaType → List String
  | .image => ["jpg", "jpeg", "png", "webp", "gif", "avif", "bmp"]
  | .video => ["mp4", "webm", "mov", "m4v", "mkv"]
  | .audio => ["mp3", "ogg", "oga", "wav", "m4a", "aac", "flac"]
  | .other => ["pdf", "doc", "docx", "xls", "xlsx", "ppt", "pptx", "zip", "txt"]

/-- `_MIRROR_CONTENT_TYPES`. -/
def mirrorContentTypes : MediaType → List String
  | .image => ["image/jpeg", "image/png", "image/webp", "image/gif", "image/avif", "image/bmp"]
  | .video => ["video/mp4", "video/webm", "video/quicktime", "video/x-matroska", "video/x-m4v"]
  | .audio =>
      ["audio/mpeg", "audio/ogg", "audio/wav", "audio/x-wav", "audio/wave", "audio/mp4",
        "audio/x-m4a", "audio/aac", "audio/flac", "audio/x-flac", "application/ogg"]
  | .other =>
      ["application/pdf", "application/zip", "application/x-zip-compressed", "text/plain",
        "application/msword", "application/vnd.ms-excel", "application/vnd.ms-powerpoint",
        "application/vnd.openxmlformats-officedocument.wordprocessingml.document",
        "application/vnd.openxmlformats-officedocument.spreadsheetml.sheet",
        "application/vnd.openxmlformats-officedocument.presentationml.presentation"]

/-- `_ALWAYS_REJECTED_CONTENT_TYPES`. -/
def alwaysRejectedContentTypes : List String :=
  ["image/svg+xml", "text/html", "application/xhtml+xml", "text/javascript"]

/-- `_CONTENT_TYPE_TO_EXT`. -/
def contentTypeToExt : List (String × String) :=
  [("image/jpeg", "jpg"), ("image/png", "png"), ("image/webp", "webp"), ("image/gif", "gif"),
    ("image/avif", "avif"), ("image/bmp", "bmp"), ("video/mp4", "mp4"), ("video/webm", "webm"),
    ("video/quicktime", "mov"), ("video/x-matroska", "mkv"), ("video/x-m4v", "m4v"),
    ("audio/mpeg", "mp3"), ("audio/ogg", "ogg"), ("application/ogg", "ogg"), ("audio/wav", "wav"),
    ("audio/x-wav", "wav"), ("audio/wave", "wav"), ("audio/mp4", "m4a"), ("audio/x-m4a", "m4a"),
    ("audio/aac", "aac"), ("audio/flac", "flac"), ("audio/x-flac", "flac"),
    ("application/pdf", "pdf"), ("application/zip", "zip"),
    ("application/x-zip-compressed", "zip"), ("text/plain", "txt")]

/-! ## The world of a mirror -/

/-- `_DEFAULT_MAX_UPLOAD_MB`. -/
def defaultMaxUploadMb : MediaType → ℤ
  | .image => 10
  | .video => 100
  | .audio => 30
  | .other => 25

/-- The settings; an upload cap may be missing, or not a number. -/
structure MirrorSettings where
  uploadMaxMb : MediaType → Option (Option ℤ)
  mirrorMaxMb : ℤ
  scanProvider : ScanProvider

/-- `_max_upload_mb`. -/
def MirrorSettings.maxUploadMb (settings : MirrorSettings) (mediaType : MediaType) : ℤ :=
  match settings.uploadMaxMb mediaType with
  | none => defaultMaxUploadMb mediaType
  | some none => defaultMaxUploadMb mediaType
  | some (some value) => if 0 < value then value else defaultMaxUploadMb mediaType

/-- `_mirror_max_bytes`. -/
def MirrorSettings.mirrorMaxBytes (settings : MirrorSettings) (mediaType : MediaType) : ℤ :=
  let hardCapMb := if settings.mirrorMaxMb = 0 then 120 else settings.mirrorMaxMb
  min (settings.maxUploadMb mediaType) hardCapMb * 1024 * 1024

/-- What the mirror uses besides: Pillow, the types of file names, and the storage with its names
and URLs.  Registered types fit their column, and so do the URLs of what is stored. -/
structure MirrorWorld where
  settings : MirrorSettings
  pillow : Pillow
  guessType : String → Option String
  savedName : String → String
  publicUrl : String → String
  guess_fits : ∀ name mime, guessType name = some mime → charColumn 127 mime = .ok mime
  url_fits : ∀ mediaType, ∀ ext ∈ allowedExtensions mediaType,
    charColumn 1024 (publicUrl (savedName ext)) = .ok (publicUrl (savedName ext))

/-- What the remote side sends on an open stream: two headers, the decoded path of the last URL
(none if that cannot be parsed), the chunks of the body, and whether the transfer breaks off. -/
structure RemoteFile where
  contentType : Option String
  contentLength : Option String
  urlPath : Option String
  chunks : List (List UInt8)
  interrupted : Bool
deriving DecidableEq, Repr

/-- What gets past the mirror: the `ValueError` of `int`, a failure of the metadata, or the error of
the database. -/
inductive MirrorCrash where
  | valueError
  | metadata (failure : MetaFailure)
  | database (error : SyncError)
deriving DecidableEq, Repr

/-! ## The headers -/

/-- `content_type`. -/
def RemoteFile.mimeText (remote : RemoteFile) : String :=
  pyLower (pyStrip (String.ofList ((pySplit ';' (remote.contentType.getD "").toList).headD [])))

/-- A character that a content type keeps: a small letter, a digit or a slash. -/
def isPlainChar (c : Char) : Bool :=
  (decide (97 ≤ c.toNat) && decide (c.toNat ≤ 122)) || (decide (47 ≤ c.toNat) && decide (c.toNat ≤ 57))

theorem isPlainChar_kept {c : Char} (h : isPlainChar c = true) :
    c ≠ ';' ∧ pyIsSpace c = false ∧ IsLowered c := by
  simp only [isPlainChar, Bool.or_eq_true, Bool.and_eq_true, decide_eq_true_eq] at h
  refine ⟨?_, ?_, ?_⟩
  · rintro rfl
    exact absurd h (by decide)
  · simp only [pyIsSpace, Bool.or_eq_false_iff, Bool.and_eq_false_iff, decide_eq_false_iff_not,
      beq_eq_false_iff_ne]
    omega
  · exact ⟨by omega, by omega, mapCode_lower_fixed (Or.inl ⟨by omega, by omega⟩)⟩

/-- A content type of such characters is taken as it is. -/
theorem RemoteFile.mimeText_of_plain {remote : RemoteFile} {text : String}
    (h : remote.contentType = some text) (hplain : text.toList.all isPlainChar = true) :
    remote.mimeText = text := by
  have hkept : ∀ c ∈ text.toList, c ≠ ';' ∧ pyIsSpace c = false ∧ IsLowered c :=
    fun c hc => isPlainChar_kept (List.all_eq_true.mp hplain c hc)
  have hsplit : pySplit ';' text.toList = [text.toList] :=
    pySplit_of_not_mem fun hmem => (hkept _ hmem).1 rfl
  have hstrip : pyStrip text = text :=
    pyStrip_eq_self (fun c hc => (hkept c (List.mem_of_mem_head? hc)).2.1)
      (fun c hc => (hkept c (List.mem_of_mem_getLast? hc)).2.1)
  rw [mimeText, h, Option.getD_some, hsplit, List.headD_cons, String.ofList_toList, hstrip,
    pyLower_eq_self fun c hc => (hkept c hc).2.2]

/-- `text.rsplit(sep, maxsplit=1)[-1]`. -/
def lastPart (sep : Char) (text : List Char) : List Char :=
  (text.reverse.takeWhile fun c => c != sep).reverse

/-- `remote_path_ext`. -/
def RemoteFile.pathExt (remote : RemoteFile) : String :=
  match remote.urlPath with
  | none => ""
  | some path =>
      if (lastPart '/' path.toList).contains '.' then pyLower (String.ofList (lastPart '.' path.toList))
      else ""

/-- `_detect_remote_kind`. -/
def detectRemoteKind (contentType ext : String) : Option MediaType :=
  (if contentType ≠ "" then
    mediaTypes.find? fun mediaType => (mirrorContentTypes mediaType).contains contentType
  else none) <|>
  (if ext ≠ "" then mediaTypes.find? fun mediaType => (allowedExtensions mediaType).contains ext
  else none)

/-- The extension that the file is stored with, or none where the headers do not agree with the
declared type. -/
def RemoteFile.chosenExt (remote : RemoteFile) (declared : MediaType) : Option String :=
  let contentType := remote.mimeText
  let detected := detectRemoteKind contentType remote.pathExt
  if alwaysRejectedContentTypes.contains contentType then none
  else if detected.any fun kind => kind != declared then none
  else if (allowedExtensions declared).contains remote.pathExt then some remote.pathExt
  else (contentTypeToExt.lookup contentType).filter fun ext => (allowedExtensions declared).contains ext

/-- The check of `Content-Length`. -/
def RemoteFile.oversize (remote : RemoteFile) (cap : ℤ) : Except MirrorCrash Bool :=
  match remote.contentLength with
  | none => .ok false
  | some text =>
      if pyIsDigit text then
        match pyInt text with
        | none => .error .valueError
        | some n => .ok (decide (cap < n))
      else .ok false

/-! ## The body -/

/-- The loop over the chunks. -/
def readChunks (cap : ℤ) : List (List UInt8) → List UInt8 → Option (List UInt8)
  | [], buffer => some buffer
  | chunk :: chunks, buffer =>
      if chunk = [] then readChunks cap chunks buffer
      else if cap < (buffer ++ chunk).length then none
      else readChunks cap chunks (buffer ++ chunk)

/-- The body that is read on: none where the size is over the cap, the transfer breaks off, or
nothing comes. -/
def RemoteFile.receive (remote : RemoteFile) (cap : ℤ) : Except MirrorCrash (Option (List UInt8)) :=
  match remote.oversize cap with
  | .error crash => .error crash
  | .ok true => .ok none
  | .ok false =>
      if remote.interrupted then .ok none
      else .ok ((readChunks cap remote.chunks []).filter fun body => !body.isEmpty)

/-- The columns as they are written. -/
structure MirrorColumns where
  url : String
  mimeType : String
  size : String
  duration : ℤ
  fileSize : ℤ
deriving DecidableEq, Repr

/-- `content_type or mimetypes.guess_type(saved_name)[0] or ""`. -/
def mirrorMimeType (world : MirrorWorld) (remote : RemoteFile) (savedName : String) : String :=
  if remote.mimeText ≠ "" then remote.mimeText else (world.guessType savedName).getD ""

/-- Metadata, scan and storage. -/
def storeBody (world : MirrorWorld) (declared : MediaType) (remote : RemoteFile) (ext : String)
    (body : List UInt8) : Except MirrorCrash (Option MirrorColumns) :=
  match extractMediaMeta world.pillow body declared body.length with
  | .error .unhealthyImage => .ok none
  | .error failure => .error (.metadata failure)
  | .ok found =>
      match validateUploadedFileSecurity ("." ++ ext) (body.take 4096) world.settings.scanProvider with
      | .error _ => .ok none
      | .ok _ =>
          let name := world.savedName ext
          .ok (some ⟨world.publicUrl name, mirrorMimeType world remote name, found.size,
            found.duration, found.fileSize⟩)

/-- What is done with an open stream, up to the columns. -/
def mirrorStream (world : MirrorWorld) (declared : MediaType) (remote : RemoteFile) :
    Except MirrorCrash (Option MirrorColumns) :=
  match remote.chosenExt declared with
  | none => .ok none
  | some ext =>
      match remote.receive (world.settings.mirrorMaxBytes declared) with
      | .error crash => .error crash
      | .ok none => .ok none
      | .ok (some body) => storeBody world declared remote ext body

theorem mirrorStream_of_body {world : MirrorWorld} {declared : MediaType} {remote : RemoteFile}
    {ext : String} {body : List UInt8} (hext : remote.chosenExt declared = some ext)
    (hreceive : remote.receive (world.settings.mirrorMaxBytes declared) = .ok (some body)) :
    mirrorStream world declared remote = storeBody world declared remote ext body := by
  unfold mirrorStream
  simp only [hext, hreceive]

/-! ## The row -/

/-- A row whose remote URL fits the columns, as the one that it was read from does. -/
structure MirrorRow where
  attachment : TabyinAttachment
  remote_fits : charColumn 1024 (remoteUrl attachment) = .ok (remoteUrl attachment)

/-- The check of the columns by the database. -/
def MirrorColumns.save (columns : MirrorColumns) : Except SyncError StoredStream := do
  let url ← charColumn 1024 columns.url
  let mimeType ← charColumn 127 columns.mimeType
  let size ← charColumn 32 columns.size
  let duration ← positiveColumn integerMax columns.duration
  let fileSize ← positiveColumn integerMax columns.fileSize
  return ⟨url, mimeType, size, duration, fileSize⟩

/-- `mirror_attachment_to_local` from the open stream on: its result, and the row as saved. -/
def mirrorOpened (world : MirrorWorld) (row : MirrorRow) (remote : RemoteFile) :
    Except MirrorCrash (Bool × TabyinAttachment) :=
  match mirrorStream world row.attachment.mediaType remote with
  | .error crash => .error crash
  | .ok none => .ok (false, { row.attachment with mirrorStatus := .failed })
  | .ok (some columns) =>
      match charColumn 1024 (remoteUrl row.attachment), columns.save with
      | .error error, _ => .error (.database error)
      | _, .error error => .error (.database error)
      | .ok originUrl, .ok stored =>
          .ok (true, { row.attachment with
            originUrl := originUrl
            url := stored.url
            relativeUrl := stored.url
            mirrorStatus := .mirrored
            mimeType := stored.mimeType
            size := stored.size
            duration := stored.duration
            fileSize := stored.fileSize })

/-- The four columns that are filled from what the remote side sends. -/
structure MediaColumnsFit (attachment : TabyinAttachment) : Prop where
  duration : attachment.duration ≤ integerMax
  fileSize : attachment.fileSize ≤ integerMax
  mimeType : attachment.mimeType.length ≤ 127
  size : attachment.size.length ≤ 32

/-- The function returns, and a row that it reports as mirrored fits. -/
def ReturnsFitting (world : MirrorWorld) (row : MirrorRow) (remote : RemoteFile) : Prop :=
  ∃ done attachment, mirrorOpened world row remote = .ok (done, attachment) ∧
    (done = true → MediaColumnsFit attachment)

theorem charColumn_ok_iff {maxLength : ℕ} {s : String} :
    (∃ t, charColumn maxLength s = .ok t) ↔ s.length ≤ maxLength ∧ '\x00' ∉ s.toList := by
  unfold charColumn textColumn
  by_cases hlength : s.length ≤ maxLength
  · rw [if_pos hlength]
    by_cases hnul : '\x00' ∈ s.toList
    · simp [hnul]
    · simp [hnul, hlength]
  · simp [hlength]

theorem positiveColumn_ok_iff {max : ℕ} {n : ℤ} :
    (∃ k, positiveColumn max n = .ok k) ↔ 0 ≤ n ∧ n ≤ max := by
  unfold positiveColumn
  split <;> simp_all

theorem charColumn_fits {maxLength : ℕ} {s t : String} (h : charColumn maxLength s = .ok t) :
    t.length ≤ maxLength := by
  unfold charColumn textColumn at h
  split at h
  · next hlength =>
      split at h
      · cases h
      · obtain rfl := Except.ok.inj h
        exact hlength
  · cases h

theorem positiveColumn_fits {max k : ℕ} {n : ℤ} (h : positiveColumn max n = .ok k) : k ≤ max := by
  unfold positiveColumn at h
  split at h
  · obtain rfl := Except.ok.inj h
    omega
  · cases h

/-- The save goes through where each column fits. -/
theorem MirrorColumns.save_ok_iff {columns : MirrorColumns}
    (hurl : charColumn 1024 columns.url = .ok columns.url) :
    (∃ stored, columns.save = .ok stored) ↔
      (columns.mimeType.length ≤ 127 ∧ '\x00' ∉ columns.mimeType.toList) ∧
        (columns.size.length ≤ 32 ∧ '\x00' ∉ columns.size.toList) ∧
          (0 ≤ columns.duration ∧ columns.duration ≤ integerMax) ∧
            (0 ≤ columns.fileSize ∧ columns.fileSize ≤ integerMax) := by
  simp only [← charColumn_ok_iff, ← positiveColumn_ok_iff, MirrorColumns.save,
    except_bind_ok_iff, hurl]
  constructor
  · rintro ⟨stored, url, -, mimeType, hmime, size, hsize, duration, hduration, fileSize, hfile, -⟩
    exact ⟨⟨mimeType, hmime⟩, ⟨size, hsize⟩, ⟨duration, hduration⟩, ⟨fileSize, hfile⟩⟩
  · rintro ⟨⟨mimeType, hmime⟩, ⟨size, hsize⟩, ⟨duration, hduration⟩, ⟨fileSize, hfile⟩⟩
    exact ⟨_, _, rfl, mimeType, hmime, size, hsize, duration, hduration, fileSize, hfile, rfl⟩

/-- A saved row fits. -/
theorem MirrorColumns.save_fits {columns : MirrorColumns} {stored : StoredStream}
    (h : columns.save = .ok stored) :
    stored.duration ≤ integerMax ∧ stored.fileSize ≤ integerMax ∧ stored.mimeType.length ≤ 127 ∧
      stored.size.length ≤ 32 := by
  obtain ⟨url, -, h⟩ := except_bind_ok_iff.mp h
  obtain ⟨mimeType, hmime, h⟩ := except_bind_ok_iff.mp h
  obtain ⟨size, hsize, h⟩ := except_bind_ok_iff.mp h
  obtain ⟨duration, hduration, h⟩ := except_bind_ok_iff.mp h
  obtain ⟨fileSize, hfile, h⟩ := except_bind_ok_iff.mp h
  obtain rfl := Except.ok.inj h
  exact ⟨positiveColumn_fits hduration, positiveColumn_fits hfile, charColumn_fits hmime,
    charColumn_fits hsize⟩

/-! ## When the mirror returns -/

/-- `int` reads a `Content-Length` of digits. -/
def RemoteFile.LengthReadable (remote : RemoteFile) : Prop :=
  ∀ text, remote.contentLength = some text → pyIsDigit text = true → pyInt text ≠ none

/-- The content type, if there is one, fits its column. -/
def RemoteFile.MimeFits (remote : RemoteFile) : Prop :=
  remote.mimeText.length ≤ 127 ∧ '\x00' ∉ remote.mimeText.toList

section Condition

variable (pillow : Pillow)

/-- The reader of the declared type raises nothing that goes uncaught. -/
def ReadsMeta : MediaType → List UInt8 → Prop
  | .image, body => extractImageDimensions pillow body ≠ .error .other
  | .audio, body => waveOpen body ≠ .error .runtimeError
  | .video, _ => True
  | .other, _ => True

/-- An image is healthy. -/
def HealthyImage (declared : MediaType) (body : List UInt8) : Prop :=
  declared = .image → extractImageDimensions pillow body ≠ .error .caught

/-- What the reader of the declared type finds fits. -/
def MetaFits : MediaType → List UInt8 → Prop
  | .image, body => ∀ dimensions, pillow.openImage body = .ok dimensions →
      (dimensionsText dimensions).length ≤ 32
  | .audio, body => WavFits body
  | .video, body => Mp4Fits body
  | .other, _ => True

end Condition

/-- Every stage that the remote file gets to goes through: the length is a number, the metadata
can be read, and where the file is healthy and clean, its type and its metadata fit. -/
def MirrorFits (world : MirrorWorld) (declared : MediaType) (remote : RemoteFile) : Prop :=
  ∀ ext, remote.chosenExt declared = some ext →
    remote.LengthReadable ∧
      ∀ body, remote.receive (world.settings.mirrorMaxBytes declared) = .ok (some body) →
        ReadsMeta world.pillow declared body ∧
          (HealthyImage world.pillow declared body →
            (scan ("." ++ ext) (body.take 4096) world.settings.scanProvider).clean = true →
              remote.MimeFits ∧ MetaFits world.pillow declared body ∧
                body.length ≤ 2147483647 * 1024)

theorem RemoteFile.oversize_raises_iff {remote : RemoteFile} {cap : ℤ} :
    (∃ crash, remote.oversize cap = .error crash) ↔ ¬ remote.LengthReadable := by
  unfold oversize LengthReadable
  cases remote.contentLength with
  | none => simp
  | some text =>
      cases hdigits : pyIsDigit text with
      | false => simp [hdigits]
      | true => cases hint : pyInt text <;> simp [hdigits, hint]

/-- Only the length can make the download raise. -/
theorem RemoteFile.receive_raises_iff {remote : RemoteFile} {cap : ℤ} :
    (∃ crash, remote.receive cap = .error crash) ↔ ¬ remote.LengthReadable := by
  rw [← @oversize_raises_iff remote cap]
  unfold receive
  cases remote.oversize cap with
  | error crash => simp
  | ok oversized =>
      cases oversized with
      | true => simp
      | false => cases remote.interrupted <;> simp

/-! ## The metadata -/

section Metadata

variable {pillow : Pillow} {declared : MediaType} {body : List UInt8} {n : ℕ}

/-- The metadata is read, or the image refused, where the reader raises nothing else. -/
theorem extractMediaMeta_reads_iff :
    (∃ found, extractMediaMeta pillow body declared n = .ok found) ∨
        extractMediaMeta pillow body declared n = .error .unhealthyImage ↔
      ReadsMeta pillow declared body := by
  cases declared with
  | image =>
      rw [extractMediaMeta, ReadsMeta]
      cases extractImageDimensions pillow body with
      | ok size => simp
      | error error => cases error <;> simp
  | audio =>
      rw [extractMediaMeta, ReadsMeta]
      cases hopen : waveOpen body with
      | ok got => simp [extractWavDuration_of_ok hopen]
      | error failure =>
          rw [extractWavDuration_of_error hopen]
          by_cases hruntime : failure = .runtimeError
          · simp [hruntime]
          · simp [hruntime]
  | video =>
      obtain ⟨duration, -, hduration⟩ := @extractMp4Duration_returns doubleDiv body
      rw [extractMediaMeta, ReadsMeta, hduration]
      simp
  | other => simp [extractMediaMeta, ReadsMeta]

/-- Only an image that is not healthy is refused. -/
theorem not_healthyImage_of_refused
    (h : extractMediaMeta pillow body declared n = .error .unhealthyImage) :
    ¬ HealthyImage pillow declared body := by
  intro hhealthy
  cases declared with
  | image =>
      have hcaught := hhealthy rfl
      rw [extractMediaMeta] at h
      cases himage : extractImageDimensions pillow body with
      | ok size =>
          rw [himage] at h
          cases h
      | error error =>
          rw [himage] at h hcaught
          cases error with
          | caught => exact hcaught rfl
          | other => cases h
  | audio =>
      rw [extractMediaMeta] at h
      split at h <;> cases h
  | video =>
      rw [extractMediaMeta] at h
      split at h <;> cases h
  | other => cases h

theorem extractImageDimensions_ok {size : String}
    (h : extractImageDimensions pillow body = .ok size) :
    ∃ dimensions, pillow.openImage body = .ok dimensions ∧ size = dimensionsText dimensions := by
  obtain ⟨_, -, h⟩ := except_bind_ok_iff.mp h
  obtain ⟨_, -, h⟩ := except_bind_ok_iff.mp h
  obtain ⟨dimensions, hopen, h⟩ := except_bind_ok_iff.mp h
  exact ⟨dimensions, hopen, (Except.ok.inj h).symm⟩

theorem nul_not_mem_dimensionsText (dimensions : ℕ × ℕ) :
    '\x00' ∉ (dimensionsText dimensions).toList := by
  have hcross : '\x00' ∉ ("X" : String).toList := by decide
  simp only [dimensionsText, String.toList_append, List.mem_append, not_or]
  exact ⟨⟨not_mem_str rfl _, hcross⟩, not_mem_str rfl _⟩

/-- What is read is no negative number and no NUL, and fits where the file does. -/
theorem extractMediaMeta_fits_iff {found : MediaMeta}
    (h : extractMediaMeta pillow body declared body.length = .ok found) :
    HealthyImage pillow declared body ∧ '\x00' ∉ found.size.toList ∧ 0 ≤ found.duration ∧
      (found.size.length ≤ 32 ∧ found.duration ≤ integerMax ↔ MetaFits pillow declared body) ∧
        found.fileSize = kilobytes body.length := by
  have hmax : (0 : ℤ) ≤ (integerMax : ℤ) := by decide
  cases declared with
  | image =>
      rw [extractMediaMeta] at h
      cases himage : extractImageDimensions pillow body with
      | ok size =>
          rw [himage] at h
          obtain rfl := Except.ok.inj h
          obtain ⟨dimensions, hopen, rfl⟩ := extractImageDimensions_ok himage
          refine ⟨fun _ => by simp [himage], nul_not_mem_dimensionsText _, le_rfl, ?_, rfl⟩
          rw [MetaFits, hopen]
          simp [hmax]
      | error error =>
          rw [himage] at h
          cases error <;> cases h
  | audio =>
      rw [extractMediaMeta] at h
      cases hwav : extractWavDuration body with
      | ok duration =>
          rw [hwav] at h
          obtain rfl := Except.ok.inj h
          obtain ⟨hnonneg, hfits⟩ := extractWavDuration_fits_iff hwav
          refine ⟨fun hne => absurd hne (by decide), by simp, hnonneg, ?_, rfl⟩
          rw [MetaFits, ← hfits]
          simp
      | error failure =>
          rw [hwav] at h
          cases h
  | video =>
      obtain ⟨duration, hnonneg, hduration⟩ := @extractMp4Duration_returns doubleDiv body
      rw [extractMediaMeta, hduration] at h
      obtain rfl := Except.ok.inj h
      refine ⟨fun hne => absurd hne (by decide), by simp, hnonneg, ?_, rfl⟩
      rw [MetaFits, ← extractMp4Duration_fits_iff hduration]
      simp
  | other =>
      rw [extractMediaMeta] at h
      obtain rfl := Except.ok.inj h
      refine ⟨fun hne => absurd hne (by decide), by simp, le_rfl, ?_, rfl⟩
      simp [MetaFits, hmax]

end Metadata

/-! ## The whole mirror -/

section Whole

variable {world : MirrorWorld} {row : MirrorRow} {remote : RemoteFile}

theorem returnsFitting_none (h : mirrorStream world row.attachment.mediaType remote = .ok none) :
    ReturnsFitting world row remote := by
  unfold ReturnsFitting mirrorOpened
  rw [h]
  exact ⟨false, { row.attachment with mirrorStatus := .failed }, rfl, fun hdone => by cases hdone⟩

theorem not_returnsFitting_error {crash : MirrorCrash}
    (h : mirrorStream world row.attachment.mediaType remote = .error crash) :
    ¬ ReturnsFitting world row remote := by
  unfold ReturnsFitting mirrorOpened
  rw [h]
  rintro ⟨done, attachment, hopened, -⟩
  cases hopened

/-- With columns to write, the mirror returns where the save goes through. -/
theorem returnsFitting_some {columns : MirrorColumns}
    (h : mirrorStream world row.attachment.mediaType remote = .ok (some columns)) :
    ReturnsFitting world row remote ↔ ∃ stored, columns.save = .ok stored := by
  unfold ReturnsFitting mirrorOpened
  rw [h, row.remote_fits]
  dsimp only
  cases hsave : columns.save with
  | error error => simp
  | ok stored =>
      obtain ⟨hduration, hfile, hmime, hsize⟩ := columns.save_fits hsave
      exact iff_of_true ⟨true, _, rfl, fun _ => ⟨hduration, hfile, hmime, hsize⟩⟩ ⟨stored, rfl⟩

theorem mirrorMimeType_fits_iff (name : String) :
    ((mirrorMimeType world remote name).length ≤ 127 ∧
        '\x00' ∉ (mirrorMimeType world remote name).toList) ↔ remote.MimeFits := by
  unfold mirrorMimeType RemoteFile.MimeFits
  by_cases hempty : remote.mimeText = ""
  · rw [if_neg (not_not_intro hempty), hempty]
    refine iff_of_true ?_ (by simp)
    cases hguess : world.guessType name with
    | none => simp
    | some mime => exact charColumn_ok_iff.mp ⟨mime, world.guess_fits name mime hguess⟩
  · rw [if_pos hempty]

theorem chosenExt_allowed {declared : MediaType} {ext : String}
    (h : remote.chosenExt declared = some ext) : ext ∈ allowedExtensions declared := by
  unfold RemoteFile.chosenExt at h
  dsimp only at h
  split_ifs at h with hrejected hother hpath
  · obtain rfl := Option.some.inj h
    exact List.contains_iff_mem.mp hpath
  · exact List.contains_iff_mem.mp (Option.filter_eq_some_iff.mp h).2

/-- The suffix of the path goes first. -/
theorem chosenExt_of_pathExt {declared : MediaType} {mime ext : String}
    (hmime : remote.mimeText = mime) (hpath : remote.pathExt = ext)
    (hkept : alwaysRejectedContentTypes.contains mime = false)
    (hkind : (detectRemoteKind mime ext).any (fun kind => kind != declared) = false)
    (hallowed : (allowedExtensions declared).contains ext = true) :
    remote.chosenExt declared = some ext := by
  subst hmime hpath
  unfold RemoteFile.chosenExt
  dsimp only
  rw [if_neg (by rw [hkept]; decide), if_neg (by rw [hkind]; decide), if_pos hallowed]

/-- What the stages behind the download come to. -/
theorem returnsFitting_of_body {ext : String} {body : List UInt8}
    (hext : remote.chosenExt row.attachment.mediaType = some ext)
    (hreceive : remote.receive (world.settings.mirrorMaxBytes row.attachment.mediaType) =
      .ok (some body)) :
    ReturnsFitting world row remote ↔
      ReadsMeta world.pillow row.attachment.mediaType body ∧
        (HealthyImage world.pillow row.attachment.mediaType body →
          (scan ("." ++ ext) (body.take 4096) world.settings.scanProvider).clean = true →
            remote.MimeFits ∧ MetaFits world.pillow row.attachment.mediaType body ∧
              body.length ≤ 2147483647 * 1024) := by
  have h := mirrorStream_of_body hext hreceive
  have hreads := @extractMediaMeta_reads_iff world.pillow row.attachment.mediaType body body.length
  unfold storeBody at h
  cases hmeta : extractMediaMeta world.pillow body row.attachment.mediaType body.length with
  | error failure =>
      rw [hmeta] at h hreads
      by_cases hrefused : failure = .unhealthyImage
      · subst hrefused
        exact iff_of_true (returnsFitting_none h) ⟨hreads.mp (Or.inr rfl), fun hhealthy =>
          absurd hhealthy (not_healthyImage_of_refused hmeta)⟩
      · have hcrash : mirrorStream world row.attachment.mediaType remote =
            .error (.metadata failure) := by
          cases failure with
          | unhealthyImage => exact absurd rfl hrefused
          | pillow => exact h
          | wave failure => exact h
          | mp4 failure => exact h
        refine iff_of_false (not_returnsFitting_error hcrash) fun hall => ?_
        rcases hreads.mpr hall.1 with ⟨found, hfound⟩ | hsame
        · cases hfound
        · exact hrefused (Except.error.inj hsame)
  | ok found =>
      obtain ⟨hhealthy, hnul, hduration, hfits, hfile⟩ := extractMediaMeta_fits_iff hmeta
      rw [hmeta] at h hreads
      dsimp only at h
      rw [← hreads, and_iff_right (Or.inl ⟨found, rfl⟩), forall_prop_of_true hhealthy]
      unfold validateUploadedFileSecurity at h
      by_cases hclean : (scan ("." ++ ext) (body.take 4096) world.settings.scanProvider).clean = true
      · rw [if_pos hclean] at h
        dsimp only at h
        obtain ⟨hkilo, hsize⟩ := kilobytes_fits_iff body.length
        rw [returnsFitting_some h, MirrorColumns.save_ok_iff (by exact world.url_fits _ _ (chosenExt_allowed hext)),
          forall_prop_of_true hclean, ← hfits, ← hsize]
        simp only [mirrorMimeType_fits_iff, hfile, hkilo, hduration, hnul, not_false_eq_true,
          and_true, true_and, and_assoc]
      · rw [if_neg hclean] at h
        dsimp only at h
        exact iff_of_true (returnsFitting_none h) fun hyes => absurd hyes hclean

end Whole

/-- **The mirror on remote data.**  From an open stream on, the mirror returns, and a row that it
reports as mirrored fits, exactly when every stage that the remote file gets to goes through. -/
theorem mirrorOpened_returns_iff (world : MirrorWorld) (row : MirrorRow) (remote : RemoteFile) :
    ReturnsFitting world row remote ↔ MirrorFits world row.attachment.mediaType remote := by
  unfold MirrorFits
  cases hext : remote.chosenExt row.attachment.mediaType with
  | none =>
      have hnone : mirrorStream world row.attachment.mediaType remote = .ok none := by
        unfold mirrorStream
        simp only [hext]
      exact iff_of_true (returnsFitting_none hnone) fun ext h => by cases h
  | some ext =>
      simp only [Option.some.injEq, forall_eq']
      have hraises := @RemoteFile.receive_raises_iff remote
        (world.settings.mirrorMaxBytes row.attachment.mediaType)
      cases hreceive : remote.receive (world.settings.mirrorMaxBytes row.attachment.mediaType) with
      | error crash =>
          have hcrash : mirrorStream world row.attachment.mediaType remote = .error crash := by
            unfold mirrorStream
            simp only [hext, hreceive]
          exact iff_of_false (not_returnsFitting_error hcrash) fun h =>
            hraises.mp ⟨crash, hreceive⟩ h.1
      | ok received =>
          have hlength : remote.LengthReadable := by
            by_contra hnot
            obtain ⟨crash, hcrash⟩ := hraises.mpr hnot
            rw [hreceive] at hcrash
            cases hcrash
          rw [and_iff_right hlength]
          cases received with
          | none =>
              have hnone : mirrorStream world row.attachment.mediaType remote = .ok none := by
                unfold mirrorStream
                simp only [hext, hreceive]
              exact iff_of_true (returnsFitting_none hnone) fun body h => by cases h
          | some body =>
              simp only [Except.ok.injEq, Option.some.injEq, forall_eq']
              exact returnsFitting_of_body hext hreceive

/-- What becomes of the stream, for the guard: the columns as saved. -/
def storedStream (world : MirrorWorld) (row : MirrorRow) (remote : RemoteFile) :
    Option StoredStream :=
  match mirrorStream world row.attachment.mediaType remote with
  | .ok (some columns) => columns.save.toOption
  | .ok none => none
  | .error _ => none

/-- Where the mirror returns, its result and its row are those of the whole call behind the guard. -/
theorem mirrorAttachmentToLocal_opened {nfkc : List Char → List Char} {isLocal : String → Bool}
    {world : MirrorWorld} {row : MirrorRow} {remote : RemoteFile} {turns : ℕ → Turn} {picks : ℕ → ℕ}
    {response : MirrorResponse} {t : MirrorState} {done : Bool} {attachment : TabyinAttachment}
    (hurl : remoteUrl row.attachment ≠ "") (hlocal : isLocal (remoteUrl row.attachment) = false)
    (hopen : exec (openMirrorStream nfkc (mirrorMaxRedirects + 1) turns picks
      (remoteUrl row.attachment).toList) ⟨row.attachment, []⟩ = (.ok response, t))
    (hmirror : mirrorOpened world row remote = .ok (done, attachment)) :
    exec (mirrorAttachmentToLocal nfkc isLocal (fun _ => storedStream world row remote) turns picks)
        ⟨row.attachment, []⟩ = (.ok done, { t with attachment := attachment }) := by
  have hsame : t.attachment = row.attachment := by
    have hafter := @after_openMirrorStream nfkc (mirrorMaxRedirects + 1) turns picks
      (remoteUrl row.attachment).toList ⟨row.attachment, []⟩
    rw [after, hopen] at hafter
    exact congrArg MirrorState.attachment hafter
  have hskip : ¬ (remoteUrl row.attachment = "" ∨ isLocal (remoteUrl row.attachment) = true) := by
    simp [hurl, hlocal]
  rw [exec_apply, mirrorAttachmentToLocal]
  dsimp only
  rw [if_neg hskip, hopen]
  unfold mirrorOpened at hmirror
  unfold storedStream
  cases hstream : mirrorStream world row.attachment.mediaType remote with
  | error crash =>
      rw [hstream] at hmirror
      cases hmirror
  | ok columns =>
      rw [hstream] at hmirror
      cases columns with
      | none =>
          obtain ⟨rfl, rfl⟩ := Prod.mk.inj (Except.ok.inj hmirror)
          simp only [hsame]
      | some columns =>
          rw [row.remote_fits] at hmirror
          dsimp only at hmirror
          cases hsave : columns.save with
          | error error =>
              rw [hsave] at hmirror
              cases hmirror
          | ok stored =>
              rw [hsave] at hmirror
              obtain ⟨rfl, rfl⟩ := Prod.mk.inj (Except.ok.inj hmirror)
              simp only [hsave, Except.toOption, hsame]

/-! ## Headers and bodies that do not fit -/

/-- The default settings. -/
def defaultWorld : MirrorWorld where
  settings := ⟨fun _ => none, 120, .default⟩
  pillow := ⟨fun _ => .error .caught, fun _ => .error .caught⟩
  guessType := fun _ => none
  savedName := fun ext => "tabyin/shared/shared/0." ++ ext
  publicUrl := fun _ => "/media/public/tabyin/shared/shared/0.pdf"
  guess_fits := by
    intro name mime h
    cases h
  url_fits := fun _ _ _ => by decide

/-- An attachment of a type that waits for its mirror. -/
def pendingRow (mediaType : MediaType) : MirrorRow where
  attachment :=
    { pk := 1, content := 1, url := "http://a.ir/x", relativeUrl := "http://a.ir/x",
      mediaType := mediaType, size := "", duration := 0, fileSize := 0, title := "", order := 0,
      originUrl := "http://a.ir/x", mirrorStatus := .pending, mimeType := "" }
  remote_fits := (by decide +kernel : charColumn 1024 (pyStrip "http://a.ir/x") =
    .ok (pyStrip "http://a.ir/x"))

/-- A document of one byte, with a content type of 128 letters. -/
def longTypeFile : RemoteFile where
  contentType := some (String.ofList (List.replicate 128 'a'))
  contentLength := none
  urlPath := some "/x.pdf"
  chunks := [[0x25]]
  interrupted := false

theorem longTypeFile_mimeText :
    longTypeFile.mimeText = String.ofList (List.replicate 128 'a') := by
  refine RemoteFile.mimeText_of_plain rfl ?_
  rw [String.toList_ofList]
  decide +kernel

/-- The type does not fit its column. -/
theorem longTypeFile_raises : ¬ ReturnsFitting defaultWorld (pendingRow .other) longTypeFile := by
  have hmime := longTypeFile_mimeText
  have hpath : longTypeFile.pathExt = "pdf" := by decide +kernel
  have hext : longTypeFile.chosenExt (pendingRow .other).attachment.mediaType = some "pdf" :=
    chosenExt_of_pathExt hmime hpath (by decide +kernel) (by decide +kernel) (by decide +kernel)
  have hreceive : longTypeFile.receive
      (defaultWorld.settings.mirrorMaxBytes (pendingRow .other).attachment.mediaType) =
        .ok (some [0x25]) := by decide +kernel
  rw [returnsFitting_of_body hext hreceive]
  rintro ⟨-, hfits⟩
  have hlength := (hfits (fun himage => absurd himage (by decide)) (by decide +kernel)).1.1
  rw [hmime, String.length_ofList, List.length_replicate] at hlength
  exact absurd hlength (by decide)

/-- A movie of `2 ^ 32 - 1` seconds. -/
def longMvhd : Box where
  form := .small
  type := mvhdType
  payload := (0 :: [0, 0, 0] ++ List.replicate 8 0) ++ (beBytes 4 1 ++ (beBytes 4 4294967295 ++ []))
  type_length := length_mvhdType
  holds := by
    rw [SizeForm.Holds, List.length_append, List.length_append, List.length_append,
      List.length_append, length_beBytes, length_beBytes]
    decide

def longMoov : Box where
  form := .small
  type := moovType
  payload := [longMvhd].flatMap Box.bytes
  type_length := length_moovType
  holds := (by decide : 8 + 28 < 256 ^ 4)

def longMovie : MovieFile where
  boxes := [longMoov]
  moov := longMoov
  children := [longMvhd]
  mvhd := longMvhd
  header := ⟨.zero, 1, 4294967295, by decide, by decide, by decide⟩
  boxes_sized := by simp
  moov_found := rfl
  moov_payload := rfl
  children_sized := by simp [longMvhd]
  mvhd_found := rfl
  mvhd_body := ⟨[0, 0, 0], List.replicate 8 0, [], rfl, rfl, rfl⟩

/-- A video file of that movie. -/
def longMovieFile : RemoteFile where
  contentType := some "video/mp4"
  contentLength := none
  urlPath := some "/x.mp4"
  chunks := [longMovie.bytes]
  interrupted := false

/-- The duration does not fit its column. -/
theorem longMovieFile_raises : ¬ ReturnsFitting defaultWorld (pendingRow .video) longMovieFile := by
  have hmime : longMovieFile.mimeText = "video/mp4" :=
    RemoteFile.mimeText_of_plain rfl (by decide +kernel)
  have hpath : longMovieFile.pathExt = "mp4" := by decide +kernel
  have hext : longMovieFile.chosenExt (pendingRow .video).attachment.mediaType = some "mp4" :=
    chosenExt_of_pathExt hmime hpath (by decide +kernel) (by decide +kernel) (by decide +kernel)
  have hreceive : longMovieFile.receive
      (defaultWorld.settings.mirrorMaxBytes (pendingRow .video).attachment.mediaType) =
        .ok (some longMovie.bytes) := by decide +kernel
  rw [returnsFitting_of_body hext hreceive]
  rintro ⟨-, hfits⟩
  have hmovie : Mp4Fits longMovie.bytes :=
    (hfits (fun himage => absurd himage (by decide)) (by decide +kernel)).2.1
  obtain ⟨hlength, hversion, hfields⟩ := MovieHeader.mvhdFields_body longMovie.mvhd_body
  have hfound : foundMvhd longMovie.bytes = some (longMovie.mvhd.payload.take 32) := by
    rw [MovieFile.foundMvhd_bytes, if_pos (by decide)]
  rcases hmovie _ hfound hlength _ hversion with hzero | hseconds
  · rw [hfields] at hzero
    exact absurd hzero (by decide)
  · rw [hfields] at hseconds
    norm_num [SecondsFit, longMovie] at hseconds

/-- A WAV whose only chunk, `LIST`, is longer than the file says it is. -/
def brokenWav : List UInt8 :=
  [0x52, 0x49, 0x46, 0x46, 16, 0, 0, 0, 0x57, 0x41, 0x56, 0x45, 0x4c, 0x49, 0x53, 0x54, 100, 0, 0, 0]

def brokenWavFile : RemoteFile where
  contentType := some "audio/wav"
  contentLength := none
  urlPath := some "/x.wav"
  chunks := [brokenWav]
  interrupted := false

theorem waveOpen_brokenWav : waveOpen brokenWav = .error .runtimeError := by
  have hframes : Riff.frames ⟨brokenWav, 16⟩ none 4 = .error .runtimeError := by
    rw [Riff.frames]
    rfl
  exact hframes

/-- The seek over the chunk raises what nothing catches. -/
theorem brokenWavFile_raises : ¬ ReturnsFitting defaultWorld (pendingRow .audio) brokenWavFile := by
  have hmime : brokenWavFile.mimeText = "audio/wav" :=
    RemoteFile.mimeText_of_plain rfl (by decide +kernel)
  have hpath : brokenWavFile.pathExt = "wav" := by decide +kernel
  have hext : brokenWavFile.chosenExt (pendingRow .audio).attachment.mediaType = some "wav" :=
    chosenExt_of_pathExt hmime hpath (by decide +kernel) (by decide +kernel) (by decide +kernel)
  have hreceive : brokenWavFile.receive
      (defaultWorld.settings.mirrorMaxBytes (pendingRow .audio).attachment.mediaType) =
        .ok (some brokenWav) := by decide +kernel
  rw [returnsFitting_of_body hext hreceive]
  rintro ⟨hreads, -⟩
  exact hreads waveOpen_brokenWav

/-- The mirror raises on a content type, on a movie and on a WAV that a server can send. -/
theorem mirrorOpened_raises :
    ¬ ReturnsFitting defaultWorld (pendingRow .other) longTypeFile ∧
      ¬ ReturnsFitting defaultWorld (pendingRow .video) longMovieFile ∧
        ¬ ReturnsFitting defaultWorld (pendingRow .audio) brokenWavFile :=
  ⟨longTypeFile_raises, longMovieFile_raises, brokenWavFile_raises⟩

end SetadJang.Tabyin
