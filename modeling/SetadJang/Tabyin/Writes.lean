import Mathlib.Data.List.Forall2
import Mathlib.Data.List.Nodup
import SetadJang.Framework.Repeats
import SetadJang.Tabyin.SyncFrame

/-!
# The writes of the sync engine

What the inserts and updates of the engine leave in the two tables when they
return, and when they return: an insert of a content needs columns that the
database takes and an id that is free, an update and an attachment only columns.
-/

namespace SetadJang.Tabyin

open SetadJang.Framework SetadJang.Framework.Txn

/-! ## Columns -/

theorem positiveColumn_ok {max : ℕ} {n : ℤ} {k : ℕ} (h : positiveColumn max n = .ok k) :
    n = k := by
  unfold positiveColumn at h
  split at h
  case isTrue hn =>
    cases h
    omega
  case isFalse => cases h

theorem notNull_ok {α : Type} {o : Option α} {a : α} (h : notNull o = .ok a) : o = some a := by
  cases o with
  | none => cases h
  | some b =>
      cases h
      rfl

/-- The columns of a row, read off the item they were taken from. -/
structure Columns (env : Env) (item : ParsedItem) (source : SourceColumns) : Prop where
  title : source.title = item.title
  description : source.description = item.description
  author : source.authorUsername = item.authorUsername
  status : item.sourceStatus = some (source.sourceStatus : ℤ)
  type : item.sourceType = some (source.sourceType : ℤ)
  hash : source.contentHash = computeContentHash env item.rawPayload

theorem textColumn_ok {s t : String} (h : textColumn s = .ok t) : t = s := by
  unfold textColumn at h
  split at h
  · cases h
  · exact (Except.ok.inj h).symm

theorem sourceColumns_ok {env : Env} {item : ParsedItem} {source : SourceColumns}
    (h : sourceColumns env item = .ok source) : Columns env item source := by
  simp only [sourceColumns, except_bind_ok_iff] at h
  obtain ⟨title, htitle, description, hdescription, author, hauthor, entity, -, status,
    ⟨status', hstatus', hstatus⟩, type, ⟨type', htype', htype⟩, url, -, payload, -, hash, hhash,
    h⟩ := h
  cases h
  exact {
    title := charColumn_ok htitle
    description := textColumn_ok hdescription
    author := charColumn_ok hauthor
    status := by rw [notNull_ok hstatus', positiveColumn_ok hstatus]
    type := by rw [notNull_ok htype', positiveColumn_ok htype]
    hash := charColumn_ok hhash }

/-- Whether the database takes an attachment does not depend on where it goes. -/
theorem newAttachment_elsewhere {e : Engine} {content : ℕ} {att : ParsedAttachment}
    {row : TabyinAttachment} (h : newAttachment e content att = .ok row) (e' : Engine)
    (content' : ℕ) :
    newAttachment e' content' att =
      .ok { row with pk := e'.store.nextAttachment, content := content' } := by
  simp only [newAttachment, except_bind_ok_iff] at h ⊢
  obtain ⟨url, hurl, relativeUrl, hrelative, size, hsize, duration, hduration, fileSize,
    hfileSize, title, htitle, order, horder, h⟩ := h
  cases h
  exact ⟨url, hurl, relativeUrl, hrelative, size, hsize, duration, hduration, fileSize,
    hfileSize, title, htitle, order, horder, rfl⟩

/-- What readers see of an attachment: its address and its place. -/
def TabyinAttachment.link (row : TabyinAttachment) : String × ℕ := (row.url, row.order)

def ParsedAttachment.link (att : ParsedAttachment) : String × ℕ := (att.url, att.order)

/-- The row holds the attachment of an item. -/
structure ParsedAttachment.Stored (att : ParsedAttachment) (row : TabyinAttachment) : Prop where
  url : row.url = att.url
  relativeUrl : row.relativeUrl = att.relativeUrl
  mediaType : row.mediaType = att.mediaType
  size : att.size = some row.size
  duration : att.duration = some (row.duration : ℤ)
  fileSize : att.fileSize = some (row.fileSize : ℤ)
  title : att.title = some row.title
  order : row.order = att.order

theorem ParsedAttachment.Stored.link {att : ParsedAttachment} {row : TabyinAttachment}
    (h : att.Stored row) : row.link = att.link := by
  rw [TabyinAttachment.link, ParsedAttachment.link, h.url, h.order]

theorem links_eq {atts : List ParsedAttachment} {rows : List TabyinAttachment}
    (h : List.Forall₂ ParsedAttachment.Stored atts rows) :
    rows.map TabyinAttachment.link = atts.map ParsedAttachment.link := by
  induction h with
  | nil => rfl
  | cons hhead _ ih => rw [List.map_cons, List.map_cons, hhead.link, ih]

theorem newAttachment_ok {e : Engine} {content : ℕ} {att : ParsedAttachment}
    {row : TabyinAttachment} (h : newAttachment e content att = .ok row) :
    row.content = content ∧ att.Stored row := by
  simp only [newAttachment, except_bind_ok_iff] at h
  obtain ⟨url, hurl, relativeUrl, hrelative, size, ⟨size', hsize', hsize⟩, duration,
    ⟨duration', hduration', hduration⟩, fileSize, ⟨fileSize', hfileSize', hfileSize⟩, title,
    ⟨title', htitle', htitle⟩, order, horder, h⟩ := h
  cases h
  have hplace : (att.order : ℤ) = order := positiveColumn_ok horder
  refine ⟨rfl, ?_⟩
  exact {
    url := charColumn_ok hurl
    relativeUrl := charColumn_ok hrelative
    mediaType := rfl
    size := by rw [notNull_ok hsize', charColumn_ok hsize]
    duration := by rw [notNull_ok hduration', positiveColumn_ok hduration]
    fileSize := by rw [notNull_ok hfileSize', positiveColumn_ok hfileSize]
    title := by rw [notNull_ok htitle', charColumn_ok htitle]
    order := (Int.ofNat.inj hplace).symm }

/-- The database takes the attachment. -/
def ParsedAttachment.Accepted (att : ParsedAttachment) : Prop :=
  ∀ (e : Engine) (content : ℕ), ∃ row, newAttachment e content att = .ok row

/-- The database takes the columns of the item and its attachments. -/
structure ParsedItem.Accepted (env : Env) (item : ParsedItem) : Prop where
  columns : ∃ source, sourceColumns env item = .ok source
  attachments : ∀ att ∈ item.attachments, att.Accepted

/-! ## Loops -/

theorem forEach_returns {α : Type} {body : α → Sync PUnit} {ok : α → Prop}
    (hbody : ∀ a e, Returns (body a) e ↔ ok a) (rows : List α) (e : Engine) :
    Returns (forEach body rows) e ↔ ∀ a ∈ rows, ok a := by
  induction rows generalizing e with
  | nil => exact iff_of_true (returns_pure _ e) (by simp)
  | cons a rest ih =>
      rw [List.forall_mem_cons, ← hbody a e]
      constructor
      · intro h
        obtain ⟨u, t, ha, hrest⟩ := returns_bind.mp h
        exact ⟨⟨u, t, ha⟩, (ih t).mp hrest⟩
      · rintro ⟨⟨u, t, ha⟩, hrest⟩
        exact returns_bind.mpr ⟨u, t, ha, (ih t).mpr hrest⟩

/-! ## Attachments -/

/-- The attachments of a content. -/
def Store.attachmentsOf (store : Store) (content : ℕ) : List TabyinAttachment :=
  store.attachments.filter fun att => att.content == content

def Engine.withAttachments (e : Engine) (attachments : List TabyinAttachment) (next : ℕ) :
    Engine :=
  { e with
    store := { e.store with attachments := attachments, nextAttachment := next } }

theorem insertAttachment_commits {content : ℕ} {att : ParsedAttachment} {e t : Engine}
    {u : PUnit} : Commits (insertAttachment content att) e u t ↔
      ∃ row, newAttachment e content att = .ok row ∧
        t = e.withAttachments (e.store.attachments ++ [row]) (e.store.nextAttachment + 1) := by
  simp only [insertAttachment, setStore, commits_bind, commits_get, commits_fromExcept,
    commits_modify]
  constructor
  · rintro ⟨e₀, e₁, ⟨rfl, rfl⟩, row, e₂, ⟨hrow, rfl⟩, rfl⟩
    exact ⟨row, hrow, rfl⟩
  · rintro ⟨row, hrow, rfl⟩
    exact ⟨e, e, ⟨rfl, rfl⟩, row, e, ⟨hrow, rfl⟩, rfl⟩

theorem insertAttachment_returns (content : ℕ) (att : ParsedAttachment) (e : Engine) :
    Returns (insertAttachment content att) e ↔ att.Accepted := by
  constructor
  · rintro ⟨u, t, h⟩ e' content'
    obtain ⟨row, hrow, -⟩ := insertAttachment_commits.mp h
    exact ⟨_, newAttachment_elsewhere hrow e' content'⟩
  · intro h
    obtain ⟨row, hrow⟩ := h e content
    exact ⟨⟨⟩, _, insertAttachment_commits.mpr ⟨row, hrow, rfl⟩⟩

/-- The attachments of one content are appended in the order of the item. -/
theorem insertAttachments_commits {content : ℕ} {atts : List ParsedAttachment} {e t : Engine}
    {u : PUnit} (h : Commits (forEach (insertAttachment content) atts) e u t) :
    ∃ rows next, t = e.withAttachments (e.store.attachments ++ rows) next ∧
      (∀ row ∈ rows, row.content = content) ∧ List.Forall₂ ParsedAttachment.Stored atts rows := by
  induction atts generalizing e with
  | nil =>
      obtain ⟨-, rfl⟩ := commits_pure.mp h
      exact ⟨[], t.store.nextAttachment, by simp [Engine.withAttachments], by simp, .nil⟩
  | cons att rest ih =>
      obtain ⟨u, e₁, hatt, hrest⟩ := commits_bind.mp h
      obtain ⟨row, hrow, rfl⟩ := insertAttachment_commits.mp hatt
      obtain ⟨rows, next, rfl, hcontent, hstored⟩ := ih hrest
      obtain ⟨hown, hhead⟩ := newAttachment_ok hrow
      refine ⟨row :: rows, next, by simp [Engine.withAttachments], ?_, .cons hhead hstored⟩
      exact List.forall_mem_cons.mpr ⟨hown, hcontent⟩

/-- Inserts of attachments leave the contents alone. -/
theorem insertBlocks_frame {α : Type} {key : α → ℕ} {atts : α → List ParsedAttachment}
    {blocks : List α} {e t : Engine} {u : PUnit}
    (h : Commits (forEach (fun a => forEach (insertAttachment (key a)) (atts a)) blocks) e u t) :
    t.store.contents = e.store.contents ∧ t.store.nextContent = e.store.nextContent := by
  induction blocks generalizing e with
  | nil =>
      obtain ⟨-, rfl⟩ := commits_pure.mp h
      exact ⟨rfl, rfl⟩
  | cons a rest ih =>
      obtain ⟨u, e₁, ha, hrest⟩ := commits_bind.mp h
      obtain ⟨rows, next, he₁, -⟩ := insertAttachments_commits ha
      obtain ⟨hcontents, hnext⟩ := ih hrest
      rw [hcontents, hnext, he₁]
      exact ⟨rfl, rfl⟩

/-- The same for several contents, one after the other.  A content that occurs more than once
gets the attachments of each of its blocks. -/
theorem insertBlocks_commits {α : Type} {key : α → ℕ} {atts : α → List ParsedAttachment}
    {blocks : List α} {e t : Engine} {u : PUnit}
    (h : Commits (forEach (fun a => forEach (insertAttachment (key a)) (atts a)) blocks) e u t) :
    ∃ rows next, t = e.withAttachments (e.store.attachments ++ rows) next ∧
      (∀ row ∈ rows, row.content ∈ blocks.map key) ∧
      ∀ k, List.Forall₂ ParsedAttachment.Stored
        ((blocks.filter fun a => key a == k).flatMap atts)
        (rows.filter fun row => row.content == k) := by
  induction blocks generalizing e with
  | nil =>
      obtain ⟨-, rfl⟩ := commits_pure.mp h
      exact ⟨[], t.store.nextAttachment, by simp [Engine.withAttachments], by simp,
        fun _ => .nil⟩
  | cons a rest ih =>
      obtain ⟨u, e₁, ha, hrest⟩ := commits_bind.mp h
      obtain ⟨front, next₁, rfl, hfront, hstored⟩ := insertAttachments_commits ha
      obtain ⟨rows, next, rfl, hcontent, hblocks⟩ := ih hrest
      refine ⟨front ++ rows, next, by simp [Engine.withAttachments], ?_, fun k => ?_⟩
      · intro row hrow
        rcases List.mem_append.mp hrow with hrow | hrow
        · rw [hfront row hrow]
          exact List.mem_cons_self
        · exact List.mem_cons_of_mem _ (hcontent row hrow)
      · rw [List.filter_append, List.filter_cons]
        by_cases hkey : (key a == k) = true
        · have hall : front.filter (fun row => row.content == k) = front :=
            List.filter_eq_self.mpr fun row hrow => by rw [hfront row hrow, hkey]
          rw [if_pos hkey, hall, List.flatMap_cons]
          exact List.rel_append hstored (hblocks k)
        · have hnone : front.filter (fun row => row.content == k) = [] :=
            List.filter_eq_nil_iff.mpr fun row hrow => by rwa [hfront row hrow]
          rw [if_neg hkey, hnone, List.nil_append]
          exact hblocks k

/-! ## New contents -/

/-- The keys of the two tables, and what they point to. -/
structure Store.Sound (store : Store) : Prop where
  keys : (store.contents.map TabyinContent.pk).Nodup
  ids : (store.contents.map TabyinContent.externalId).Nodup
  below : ∀ row ∈ store.contents, row.pk < store.nextContent
  attached : ∀ att ∈ store.attachments, att.content < store.nextContent

/-- A row as the insert of an item writes it. -/
structure Inserted (env : Env) (item : ParsedItem) (row : TabyinContent) : Prop where
  id : row.externalId = item.externalId
  source : sourceColumns env item = .ok row.source
  present : row.isDeletedInSource = false
  active : row.isActive = true

/-- The database takes the item as a new content. -/
structure ParsedItem.AcceptedNew (env : Env) (item : ParsedItem) : Prop where
  id : ∃ externalId, charColumn 64 item.externalId = .ok externalId
  accepted : item.Accepted env

def Engine.withContents (e : Engine) (contents : List TabyinContent) (next : ℕ) : Engine :=
  { e with store := { e.store with contents := contents, nextContent := next } }

theorem newContent_inserted {env : Env} {e : Engine} {item : ParsedItem} {row : TabyinContent}
    (h : newContent env e item = .ok row) :
    Inserted env item row ∧ row.pk = e.store.nextContent ∧
      ∀ other ∈ e.store.contents, other.externalId ≠ item.externalId := by
  simp only [newContent, except_bind_ok_iff] at h
  obtain ⟨externalId, hid, source, hsource, h⟩ := h
  obtain rfl := charColumn_ok hid
  split at h
  case isTrue => cases h
  case isFalse hfree =>
    cases h
    refine ⟨⟨rfl, hsource, rfl, rfl⟩, rfl, ?_⟩
    simpa using hfree

theorem newContent_returns {env : Env} {e : Engine} {item : ParsedItem}
    (hid : ∃ externalId, charColumn 64 item.externalId = .ok externalId)
    (hsource : ∃ source, sourceColumns env item = .ok source)
    (hfree : ∀ other ∈ e.store.contents, other.externalId ≠ item.externalId) :
    ∃ row, newContent env e item = .ok row := by
  obtain ⟨externalId, hid⟩ := hid
  obtain ⟨source, hsource⟩ := hsource
  have hnone : ¬ (e.store.contents.any fun row => row.externalId == externalId) = true := by
    rw [charColumn_ok hid]
    simpa using hfree
  unfold newContent
  rw [hid, hsource]
  simp only [bind, Except.bind]
  rw [if_neg hnone]
  exact ⟨_, rfl⟩

theorem insertContent_commits {env : Env} {item : ParsedItem} {e t : Engine}
    {row : TabyinContent} : Commits (insertContent env item) e row t ↔
      newContent env e item = .ok row ∧
        t = e.withContents (e.store.contents ++ [row]) (e.store.nextContent + 1) := by
  simp only [insertContent, setStore, commits_bind, commits_get, commits_fromExcept,
    commits_modify, commits_pure]
  constructor
  · rintro ⟨e₀, e₁, ⟨rfl, rfl⟩, row', e₂, ⟨hrow, rfl⟩, u, e₃, rfl, rfl, rfl⟩
    exact ⟨hrow, rfl⟩
  · rintro ⟨hrow, rfl⟩
    exact ⟨e, e, ⟨rfl, rfl⟩, row, e, ⟨hrow, rfl⟩, ⟨⟩, _, rfl, rfl, rfl⟩

/-- The new rows are appended under the next keys, one for each item. -/
theorem insertContents_commits {env : Env} {items : List ParsedItem} {e t : Engine}
    {rows : List TabyinContent} (h : Commits (insertContents env items) e rows t) :
    t = e.withContents (e.store.contents ++ rows) (e.store.nextContent + rows.length) ∧
      (∀ item ∈ items, ∃ row ∈ rows, Inserted env item row) ∧
      (∀ row ∈ rows, ∃ item ∈ items, Inserted env item row) ∧
      rows.map TabyinContent.externalId = items.map ParsedItem.externalId ∧
      rows.map TabyinContent.pk = List.range' e.store.nextContent rows.length ∧
      ∀ item ∈ items, ∀ row ∈ e.store.contents, row.externalId ≠ item.externalId := by
  induction items generalizing e rows with
  | nil =>
      obtain ⟨rfl, rfl⟩ := commits_pure.mp h
      exact ⟨by simp [Engine.withContents], by simp, by simp, rfl, rfl, by simp⟩
  | cons item rest ih =>
      simp only [insertContents, commits_bind, commits_pure] at h
      obtain ⟨row, e₁, hrow, rows', e₂, hrest, rfl, rfl⟩ := h
      obtain ⟨hnew, rfl⟩ := insertContent_commits.mp hrow
      obtain ⟨hinserted, hpk, hfree⟩ := newContent_inserted hnew
      obtain ⟨rfl, hitems, hrows, hids, hpks, hfrees⟩ := ih hrest
      refine ⟨?_, ?_, ?_, ?_, ?_, ?_⟩
      · simp [Engine.withContents, Nat.add_assoc, Nat.add_comm 1]
      · refine List.forall_mem_cons.mpr ⟨⟨row, List.mem_cons_self, hinserted⟩, ?_⟩
        intro other hother
        obtain ⟨row', hrow', hinserted'⟩ := hitems other hother
        exact ⟨row', List.mem_cons_of_mem _ hrow', hinserted'⟩
      · refine List.forall_mem_cons.mpr ⟨⟨item, List.mem_cons_self, hinserted⟩, ?_⟩
        intro row' hrow'
        obtain ⟨other, hother, hinserted'⟩ := hrows row' hrow'
        exact ⟨other, List.mem_cons_of_mem _ hother, hinserted'⟩
      · rw [List.map_cons, List.map_cons, hinserted.id, hids]
      · rw [List.map_cons, hpk, hpks, List.length_cons, List.range'_succ]
        rfl
      · refine List.forall_mem_cons.mpr ⟨hfree, fun other hother old hold => ?_⟩
        exact hfrees other hother old (List.mem_append_left _ hold)

/-- Of items that are inserted together no two have one id. -/
theorem insertContents_nodup {env : Env} {items : List ParsedItem} {e t : Engine}
    {rows : List TabyinContent} (h : Commits (insertContents env items) e rows t) :
    (items.map ParsedItem.externalId).Nodup := by
  induction items generalizing e rows with
  | nil => exact List.nodup_nil
  | cons item rest ih =>
      simp only [insertContents, commits_bind, commits_pure] at h
      obtain ⟨row, e₁, hrow, rows', e₂, hrest, rfl, rfl⟩ := h
      obtain ⟨hnew, rfl⟩ := insertContent_commits.mp hrow
      obtain ⟨-, -, -, -, -, hfree⟩ := insertContents_commits hrest
      refine List.nodup_cons.mpr ⟨fun hmem => ?_, ih hrest⟩
      obtain ⟨other, hother, heq⟩ := List.mem_map.mp hmem
      refine hfree other hother row (List.mem_append_right _ List.mem_cons_self) ?_
      rw [(newContent_inserted hnew).1.id, heq]

theorem insertContents_returns (env : Env) {items : List ParsedItem}
    (hnodup : (items.map ParsedItem.externalId).Nodup) {e : Engine}
    (hfree : ∀ item ∈ items, ∀ row ∈ e.store.contents, row.externalId ≠ item.externalId) :
    Returns (insertContents env items) e ↔
      ∀ item ∈ items, (∃ externalId, charColumn 64 item.externalId = .ok externalId) ∧
        ∃ source, sourceColumns env item = .ok source := by
  induction items generalizing e with
  | nil => exact iff_of_true (returns_pure _ e) (by simp)
  | cons item rest ih =>
      rw [List.map_cons, List.nodup_cons] at hnodup
      rw [List.forall_mem_cons] at hfree ⊢
      -- the row of this item does not take the id of a later one
      have hlater : ∀ row, Inserted env item row → ∀ other ∈ rest,
          ∀ old ∈ e.store.contents ++ [row], old.externalId ≠ other.externalId := by
        intro row hrow other hother old hold
        rcases List.mem_append.mp hold with hold | hold
        · exact hfree.2 other hother old hold
        · rw [List.mem_singleton.mp hold, hrow.id]
          intro heq
          exact hnodup.1 (heq ▸ List.mem_map_of_mem hother)
      constructor
      · intro h
        obtain ⟨row, t, hrow, hrest⟩ := returns_bind.mp h
        obtain ⟨hnew, rfl⟩ := insertContent_commits.mp hrow
        obtain ⟨hinserted, -, -⟩ := newContent_inserted hnew
        obtain ⟨rows, u, hrows, -⟩ := returns_bind.mp hrest
        refine ⟨?_, (ih hnodup.2 (hlater row hinserted)).mp ⟨rows, u, hrows⟩⟩
        simp only [newContent, except_bind_ok_iff] at hnew
        obtain ⟨externalId, hid, -⟩ := hnew
        exact ⟨⟨externalId, hid⟩, ⟨row.source, hinserted.source⟩⟩
      · rintro ⟨⟨hid, hsource⟩, hrest⟩
        obtain ⟨row, hnew⟩ := newContent_returns hid hsource hfree.1
        have hinserted := (newContent_inserted hnew).1
        obtain ⟨rows, u, hrows⟩ :=
          (ih (e := e.withContents _ _) hnodup.2 (hlater row hinserted)).mpr hrest
        refine returns_bind.mpr ⟨row, _, insertContent_commits.mpr ⟨hnew, rfl⟩, ?_⟩
        exact returns_bind.mpr ⟨rows, u, hrows, returns_pure _ u⟩

/-! ## Overwritten contents -/

theorem updateContent_commits {env : Env} {pk : ℕ} {item : ParsedItem} {e t : Engine}
    {u : PUnit} : Commits (updateContent env pk item) e u t ↔
      ∃ source, sourceColumns env item = .ok source ∧
        t = e.withContents
          (e.store.contents.map fun row => if row.pk = pk then overwrite e.now source row else row)
          e.store.nextContent := by
  simp only [updateContent, setStore, commits_bind, commits_get, commits_fromExcept,
    commits_modify]
  constructor
  · rintro ⟨e₀, e₁, ⟨rfl, rfl⟩, source, e₂, ⟨hsource, rfl⟩, rfl⟩
    exact ⟨source, hsource, rfl⟩
  · rintro ⟨source, hsource, rfl⟩
    exact ⟨e, e, ⟨rfl, rfl⟩, source, e, ⟨hsource, rfl⟩, rfl⟩

theorem updateContent_returns {env : Env} (pk : ℕ) (item : ParsedItem) (e : Engine) :
    Returns (updateContent env pk item) e ↔ ∃ source, sourceColumns env item = .ok source := by
  constructor
  · rintro ⟨u, t, h⟩
    obtain ⟨source, hsource, -⟩ := updateContent_commits.mp h
    exact ⟨source, hsource⟩
  · rintro ⟨source, hsource⟩
    exact ⟨⟨⟩, _, updateContent_commits.mpr ⟨source, hsource, rfl⟩⟩

/-- One row under the updates of a batch: left alone by all of them, or overwritten
with the columns of one. -/
def Overwrites (env : Env) (now : ℕ) (pick : TabyinContent × ParsedItem → ParsedItem)
    (entries : List (TabyinContent × ParsedItem)) (row row' : TabyinContent) : Prop :=
  (row' = row ∧ ∀ entry ∈ entries, entry.1.pk ≠ row.pk) ∨
    ∃ entry ∈ entries, entry.1.pk = row.pk ∧
      ∃ source, sourceColumns env (pick entry) = .ok source ∧ row' = overwrite now source row

theorem updateContents_commits {env : Env} {pick : TabyinContent × ParsedItem → ParsedItem}
    {entries : List (TabyinContent × ParsedItem)} {e t : Engine} {u : PUnit}
    (h : Commits (forEach (fun entry => updateContent env entry.1.pk (pick entry)) entries) e u t) :
    ∃ f, t = e.withContents (e.store.contents.map f) e.store.nextContent ∧
      ∀ row, Overwrites env e.now pick entries row (f row) := by
  induction entries generalizing e with
  | nil =>
      obtain ⟨-, rfl⟩ := commits_pure.mp h
      exact ⟨id, by simp [Engine.withContents], fun row => .inl ⟨rfl, by simp⟩⟩
  | cons entry rest ih =>
      obtain ⟨u, e₁, hentry, hrest⟩ := commits_bind.mp h
      obtain ⟨source, hsource, rfl⟩ := updateContent_commits.mp hentry
      obtain ⟨f, rfl, hf⟩ := ih hrest
      refine ⟨fun row => f (if row.pk = entry.1.pk then overwrite e.now source row else row),
        by simp [Engine.withContents, Function.comp_def], fun row => ?_⟩
      dsimp only
      by_cases hpk : row.pk = entry.1.pk
      · rw [if_pos hpk]
        right
        rcases hf (overwrite e.now source row) with ⟨hsame, -⟩ | ⟨later, hlater, hpk', source',
          hsource', heq⟩
        · exact ⟨entry, List.mem_cons_self, hpk.symm, source, hsource, hsame⟩
        · exact ⟨later, List.mem_cons_of_mem _ hlater, hpk', source', hsource', heq⟩
      · rw [if_neg hpk]
        rcases hf row with ⟨hsame, hnone⟩ | ⟨later, hlater, hpk', source', hsource', heq⟩
        · exact .inl ⟨hsame, List.forall_mem_cons.mpr ⟨fun h => hpk h.symm, hnone⟩⟩
        · exact .inr ⟨later, List.mem_cons_of_mem _ hlater, hpk', source', hsource', heq⟩

theorem Overwrites.keys {env : Env} {now : ℕ} {pick : TabyinContent × ParsedItem → ParsedItem}
    {entries : List (TabyinContent × ParsedItem)} {row row' : TabyinContent}
    (h : Overwrites env now pick entries row row') :
    row'.pk = row.pk ∧ row'.externalId = row.externalId := by
  rcases h with ⟨rfl, -⟩ | ⟨entry, -, -, source, -, rfl⟩
  · exact ⟨rfl, rfl⟩
  · exact ⟨rfl, rfl⟩

/-- Without repetitions the item of an entry is its own. -/
theorem lastItem_self {entries : List (TabyinContent × ParsedItem)}
    (hkeys : (entries.map fun entry => entry.1.pk).Nodup) {entry : TabyinContent × ParsedItem}
    (hentry : entry ∈ entries) : (lastItem entries entry.1.pk).getD entry.2 = entry.2 := by
  have hunique : UniqueBy (fun entry : TabyinContent × ParsedItem => entry.1.pk)
      entries.reverse := uniqueBy_of_nodup (by simpa using List.nodup_reverse.mpr hkeys)
  have hfind := (hunique.find?_eq_some_iff (k := entry.1.pk) (a := entry)).mpr
    ⟨List.mem_reverse.mpr hentry, rfl⟩
  unfold lastItem
  rw [hfind]
  rfl

theorem attachmentsOf_self {items : List ParsedItem}
    (hids : (items.map ParsedItem.externalId).Nodup) {item : ParsedItem} (hitem : item ∈ items) :
    attachmentsOf items item.externalId = item.attachments := by
  have hunique : UniqueBy ParsedItem.externalId items.reverse :=
    uniqueBy_of_nodup (by simpa using List.nodup_reverse.mpr hids)
  have hfind := (hunique.find?_eq_some_iff (k := item.externalId) (a := item)).mpr
    ⟨List.mem_reverse.mpr hitem, rfl⟩
  unfold attachmentsOf
  rw [hfind]

end SetadJang.Tabyin
