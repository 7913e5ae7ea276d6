import Mathlib.Data.List.Induction
import SetadJang.Framework.Rows
import SetadJang.Tabyin.Engine

/-!
# What a full sync leaves alone

The page loop changes a row only where a fetched page lists its id, and then
leaves it live.  Everything that is hidden is hidden by the deletion pass, which
takes the complement of the ids seen: the contents of users, and the contents on
pages that could not be fetched, are in it.
-/

namespace SetadJang.Tabyin

open SetadJang.Framework SetadJang.Framework.Txn

/-! ## Ids of the source -/

/-- The ids on a page, as the parser takes them. -/
def Response.ids (response : Response) : List String :=
  match extractItems response with
  | .ok items => items.filterMap RawItem.externalId
  | .error _ => []

/-- The ids the source lists. -/
def Provider.sourceIds (provider : Provider) : List String :=
  provider.pages.flatMap fun page => (provider.page page).ids

/-- The ids of a page, if it can be fetched. -/
def Provider.fetchedOn (provider : Provider) (page : ℕ) : List String :=
  match provider.fetchPage page with
  | some response => response.ids
  | none => []

/-- The ids on the pages that can be fetched. -/
def Provider.fetchedIds (provider : Provider) : List String :=
  provider.pages.flatMap provider.fetchedOn

theorem parseItems_ids {env : Env} {raws : List RawItem} {items : List ParsedItem} {skipped : ℕ}
    (h : parseItems env raws = .ok (items, skipped)) :
    items.map ParsedItem.externalId = raws.filterMap RawItem.externalId := by
  induction raws generalizing items skipped with
  | nil =>
      cases h
      rfl
  | cons raw rest ih =>
      simp only [parseItems] at h
      cases hparsed : parseContentItem env raw with
      | error err =>
          rw [hparsed] at h
          cases h
      | ok parsed =>
          have hid := parseContentItem_externalId hparsed
          cases hrest : parseItems env rest with
          | error err =>
              rw [hparsed, hrest] at h
              cases h
          | ok found =>
              rw [hparsed, hrest] at h
              cases parsed with
              | none =>
                  cases h
                  rw [List.filterMap_cons, ← hid]
                  exact ih hrest
              | some item =>
                  cases h
                  rw [List.filterMap_cons, ← hid, List.map_cons, ih hrest]
                  rfl

/-- What a page returns when it returns: its ids, none if it was not fetched. -/
theorem processPage_ids {env : Env} {provider : Provider} {page : ℕ} {e t : Engine}
    {ids : Option (List String)} (h : Commits (processPage env provider page) e ids t) :
    ids.getD [] = provider.fetchedOn page := by
  unfold processPage at h
  unfold Provider.fetchedOn
  split at h
  case h_1 hfetch =>
    simp only [commits_bind, commits_pure] at h
    obtain ⟨-, -, -, rfl, -⟩ := h
    rw [hfetch]
    rfl
  case h_2 response hfetch =>
    rw [hfetch]
    simp only [commits_bind, commits_fromExcept, commits_ite, commits_pure] at h
    obtain ⟨_, _, -, rawItems, _, ⟨hitems, -⟩, ⟨hnil, rfl, -⟩ | ⟨-, hpage⟩⟩ := h
    · simp [Response.ids, hitems, hnil]
    · obtain ⟨⟨items, skipped⟩, _, ⟨hparse, -⟩, _, _, -, hids⟩ := hpage
      -- both branches of the upsert return the ids of the page
      obtain ⟨-, _, _, -, rfl, -⟩ | ⟨-, rfl, -⟩ := hids
      · simp [Response.ids, hitems, parseItems_ids hparse]
      · simp [Response.ids, hitems, parseItems_ids hparse]

theorem processPages_ids {env : Env} {provider : Provider} {pages : List ℕ}
    {sourceIds ids : List String} {e t : Engine}
    (h : Commits (processPages env provider pages sourceIds) e ids t) :
    ids = sourceIds ++ pages.flatMap provider.fetchedOn := by
  induction pages generalizing sourceIds e with
  | nil =>
      simp only [processPages, commits_pure] at h
      simp [h.1]
  | cons page pages ih =>
      simp only [processPages, commits_bind] at h
      obtain ⟨pageIds, u, hpage, hrest⟩ := h
      rw [ih hrest, processPage_ids hpage, List.flatMap_cons, List.append_assoc]

/-! ## Rows under the page loop -/

/-- The primary key is unique and its sequence is ahead of it. -/
structure Store.WellFormed (store : Store) : Prop where
  unique : UniqueBy TabyinContent.pk store.contents
  below : ∀ row ∈ store.contents, row.pk < store.nextContent

/-- A row as a page that lists its id leaves it. -/
structure Live (ids : List String) (row : TabyinContent) : Prop where
  listed : row.externalId ∈ ids
  present : row.isDeletedInSource = false
  active : row.isActive = true

/-- Rows keep their places, and a row that is new or changed is a live row of
`ids` under its old id. -/
structure Touched (ids : List String) (xs ys : List TabyinContent) : Prop where
  kept : xs.length ≤ ys.length
  rows : ∀ (k : ℕ) (b : TabyinContent), ys[k]? = some b →
    xs[k]? = some b ∨ (Live ids b ∧ ∀ a, xs[k]? = some a → a.externalId = b.externalId)

theorem Touched.refl (ids : List String) (xs : List TabyinContent) : Touched ids xs xs :=
  ⟨le_refl _, fun _ _ h => .inl h⟩

theorem Touched.trans {ids : List String} {xs ys zs : List TabyinContent}
    (hxy : Touched ids xs ys) (hyz : Touched ids ys zs) : Touched ids xs zs where
  kept := hxy.kept.trans hyz.kept
  rows := by
    intro k c hc
    rcases hyz.rows k c hc with hc | ⟨hlive, hsame⟩
    · exact hxy.rows k c hc
    · refine .inr ⟨hlive, ?_⟩
      intro a ha
      have hk : k < ys.length := lt_of_lt_of_le (List.getElem?_eq_some_iff.mp ha).1 hxy.kept
      have hb : ys[k]? = some ys[k] := List.getElem?_eq_getElem hk
      rcases hxy.rows k _ hb with hold | ⟨-, hold⟩
      · rw [ha] at hold
        rw [Option.some.inj hold]
        exact hsame _ hb
      · rw [hold a ha]
        exact hsame _ hb

theorem Touched.mono {ids ids' : List String} {xs ys : List TabyinContent}
    (h : Touched ids xs ys) (hsub : ids ⊆ ids') : Touched ids' xs ys where
  kept := h.kept
  rows := by
    intro k b hb
    rcases h.rows k b hb with hold | ⟨hlive, hsame⟩
    · exact .inl hold
    · exact .inr ⟨⟨hsub hlive.listed, hlive.present, hlive.active⟩, hsame⟩

theorem touched_append {ids : List String} {xs : List TabyinContent} {b : TabyinContent}
    (hb : Live ids b) : Touched ids xs (xs ++ [b]) where
  kept := by simp
  rows := by
    intro k c hc
    by_cases hk : k < xs.length
    · rw [List.getElem?_append_left hk] at hc
      exact .inl hc
    · rw [List.getElem?_append_right (not_lt.mp hk)] at hc
      have hcb : c = b := by
        simpa using List.mem_of_getElem? hc
      refine .inr ⟨hcb ▸ hb, ?_⟩
      intro a ha
      exact absurd (List.getElem?_eq_some_iff.mp ha).1 hk

theorem touched_map {ids : List String} {xs : List TabyinContent}
    {f : TabyinContent → TabyinContent}
    (hf : ∀ a ∈ xs, f a = a ∨ (Live ids (f a) ∧ a.externalId = (f a).externalId)) :
    Touched ids xs (xs.map f) where
  kept := by simp
  rows := by
    intro k b hb
    rw [List.getElem?_map, Option.map_eq_some_iff] at hb
    obtain ⟨a, ha, rfl⟩ := hb
    rcases hf a (List.mem_of_getElem? ha) with hsame | ⟨hlive, hid⟩
    · exact .inl (by rw [hsame, ha])
    · refine .inr ⟨hlive, ?_⟩
      intro a' ha'
      rw [ha] at ha'
      rw [← Option.some.inj ha', hid]

/-- What the batch has read holds on: the row under each of the primary keys has
the id it was found with. -/
structure Known (keys : List (ℕ × String)) (store : Store) : Prop where
  wellFormed : store.WellFormed
  named : ∀ key ∈ keys, key.1 < store.nextContent ∧
    ∀ row ∈ store.contents, row.pk = key.1 → row.externalId = key.2

/-- A call that only creates or updates contents with these ids. -/
def Frame (keys : List (ℕ × String)) (ids : List String) (e e' : Engine) : Prop :=
  Known keys e.store → Known keys e'.store ∧ Touched ids e.store.contents e'.store.contents

section Frame

variable {keys : List (ℕ × String)} {ids : List String}

theorem frame_refl (e : Engine) : Frame keys ids e e :=
  fun h => ⟨h, Touched.refl _ _⟩

theorem frame_trans (e t u : Engine) (het : Frame keys ids e t) (htu : Frame keys ids t u) :
    Frame keys ids e u := by
  intro h
  obtain ⟨ht, htouched⟩ := het h
  obtain ⟨hu, htouched'⟩ := htu ht
  exact ⟨hu, htouched.trans htouched'⟩

/-- An insert under the next primary key. -/
theorem Known.insert {store : Store} {row : TabyinContent} (h : Known keys store)
    (hpk : row.pk = store.nextContent) :
    Known keys
      { store with
        contents := store.contents ++ [row], nextContent := store.nextContent + 1 } where
  wellFormed := {
    unique := uniqueBy_append
      (fun x hx heq => absurd (h.wellFormed.below x hx) (by omega)) h.wellFormed.unique
    below := by
      intro x hx
      rcases List.mem_append.mp hx with hx | hx
      · exact Nat.lt_succ_of_lt (h.wellFormed.below x hx)
      · rw [List.mem_singleton.mp hx, hpk]
        exact Nat.lt_succ_self _ }
  named := by
    intro key hkey
    obtain ⟨hlt, hid⟩ := h.named key hkey
    refine ⟨Nat.lt_succ_of_lt hlt, ?_⟩
    intro x hx hxpk
    rcases List.mem_append.mp hx with hx | hx
    · exact hid x hx hxpk
    · rw [List.mem_singleton.mp hx, hpk] at hxpk
      omega

/-- An update that leaves primary keys and ids alone. -/
theorem Known.map {store : Store} {f : TabyinContent → TabyinContent} (h : Known keys store)
    (hpk : ∀ row, (f row).pk = row.pk) (hid : ∀ row, (f row).externalId = row.externalId) :
    Known keys { store with contents := store.contents.map f } where
  wellFormed := {
    unique := uniqueBy_map hpk h.wellFormed.unique
    below := by simpa [hpk] using h.wellFormed.below }
  named := by simpa [hpk, hid] using h.named

theorem keeps_count (f : SyncStats → SyncStats) : Keeps (Frame keys ids) (count f) :=
  keeps_modify fun _ h => ⟨h, Touched.refl _ _⟩

/-- A write that leaves the contents alone. -/
theorem keeps_setStore {f : Store → Store} (hcontents : ∀ s, (f s).contents = s.contents)
    (hnext : ∀ s, (f s).nextContent = s.nextContent) :
    Keeps (Frame keys ids) (setStore f) := by
  apply keeps_modify
  intro e h
  have hrows : (f e.store).contents = e.store.contents := hcontents e.store
  refine ⟨⟨⟨?_, ?_⟩, ?_⟩, ?_⟩
  · simpa [hrows] using h.wellFormed.unique
  · simpa [hrows, hnext] using h.wellFormed.below
  · simpa [hrows, hnext] using h.named
  · simpa [hrows] using Touched.refl ids e.store.contents

theorem charColumn_ok {maxLength : ℕ} {s t : String} (h : charColumn maxLength s = .ok t) :
    t = s := by
  unfold charColumn textColumn at h
  split at h
  · split at h
    · cases h
    · exact (Except.ok.inj h).symm
  · cases h

/-- A created row: the next primary key, the id of the item, and live. -/
theorem newContent_ok {env : Env} {e : Engine} {item : ParsedItem} {row : TabyinContent}
    (h : newContent env e item = .ok row) :
    row.pk = e.store.nextContent ∧ row.externalId = item.externalId ∧
      row.isDeletedInSource = false ∧ row.isActive = true := by
  unfold newContent at h
  cases hid : charColumn 64 item.externalId with
  | error err =>
      rw [hid] at h
      cases h
  | ok externalId =>
      cases hsource : sourceColumns env item with
      | error err =>
          rw [hid, hsource] at h
          cases h
      | ok source =>
          rw [hid, hsource] at h
          simp only [bind, Except.bind] at h
          split at h
          · cases h
          · cases h
            exact ⟨rfl, charColumn_ok hid, rfl, rfl⟩

theorem keeps_insertContent (env : Env) {item : ParsedItem} (hitem : item.externalId ∈ ids) :
    Keeps (Frame keys ids) (insertContent env item) := by
  apply keeps_get_bind
  intro e
  apply after_fromExcept_bind frame_refl
  intro row hrow h
  obtain ⟨hpk, hid, hpresent, hactive⟩ := newContent_ok hrow
  exact ⟨h.insert hpk, touched_append ⟨hid ▸ hitem, hpresent, hactive⟩⟩

theorem keeps_insertContents (env : Env) {items : List ParsedItem}
    (hitems : ∀ item ∈ items, item.externalId ∈ ids) :
    Keeps (Frame keys ids) (insertContents env items) := by
  induction items with
  | nil => exact keeps_pure frame_refl _
  | cons item rest ih =>
      have hrest : ∀ other ∈ rest, other.externalId ∈ ids := by
        intro other hother
        exact hitems other (List.mem_cons_of_mem _ hother)
      refine keeps_bind frame_trans (keeps_insertContent env (hitems item (by simp))) fun _ => ?_
      exact keeps_bind frame_trans (ih hrest) fun _ => keeps_pure frame_refl _

theorem keeps_insertAttachment (content : ℕ) (att : ParsedAttachment) :
    Keeps (Frame keys ids) (insertAttachment content att) := by
  refine keeps_bind frame_trans (keeps_get frame_refl) fun e => ?_
  refine keeps_bind frame_trans (keeps_fromExcept frame_refl _) fun row => ?_
  exact keeps_setStore (fun _ => rfl) fun _ => rfl

theorem keeps_bulkCreate (env : Env) {items : List ParsedItem}
    (hitems : ∀ item ∈ items, item.externalId ∈ ids) :
    Keeps (Frame keys ids) (bulkCreate env items) := by
  refine keeps_bind frame_trans (keeps_atomic frame_refl ?_) fun _ => keeps_count _
  refine keeps_bind frame_trans (keeps_insertContents env hitems) fun created => ?_
  refine keeps_bind frame_trans ?_ fun _ => keeps_pure frame_refl _
  refine forEach_keeps frame_refl frame_trans fun row _ => ?_
  exact forEach_keeps frame_refl frame_trans fun att _ => keeps_insertAttachment _ att

theorem keeps_updateContent (env : Env) {pk : ℕ} {externalId : String} (item : ParsedItem)
    (hkey : (pk, externalId) ∈ keys) (hid : externalId ∈ ids) :
    Keeps (Frame keys ids) (updateContent env pk item) := by
  apply keeps_get_bind
  intro e
  apply after_fromExcept_bind frame_refl
  intro source _ h
  refine ⟨h.map ?_ ?_, touched_map ?_⟩
  · intro row
    split <;> rfl
  · intro row
    split <;> rfl
  · intro row hrow
    split
    case isTrue hpk =>
      refine .inr ⟨⟨?_, rfl, rfl⟩, rfl⟩
      have hname := (h.named _ hkey).2 row hrow hpk
      exact hname.symm ▸ hid
    case isFalse => exact .inl rfl

theorem keeps_bulkUpdate (env : Env) {items : List (TabyinContent × ParsedItem)}
    (hitems : ∀ entry ∈ items,
      (entry.1.pk, entry.1.externalId) ∈ keys ∧ entry.1.externalId ∈ ids) :
    Keeps (Frame keys ids) (bulkUpdate env items) := by
  refine keeps_bind frame_trans (keeps_atomic frame_refl ?_) fun _ => keeps_count _
  refine keeps_bind frame_trans ?_ fun _ => ?_
  · refine forEach_keeps frame_refl frame_trans fun entry hentry => ?_
    obtain ⟨hkey, hid⟩ := hitems entry hentry
    exact keeps_updateContent env _ hkey hid
  · refine keeps_bind frame_trans (keeps_setStore (fun _ => rfl) fun _ => rfl) fun _ => ?_
    refine forEach_keeps frame_refl frame_trans fun entry _ => ?_
    exact forEach_keeps frame_refl frame_trans fun att _ => keeps_insertAttachment _ att

end Frame

/-! ## Pages -/

/-- The items that `_upsert_batch` creates. -/
def newItems (existing : String → Option TabyinContent) (items : List ParsedItem) :
    List ParsedItem :=
  items.filter fun item => (existing item.externalId).isNone

/-- An item whose stored hash is another one, with the row that was read. -/
def changedEntry (env : Env) (existing : String → Option TabyinContent) (item : ParsedItem) :
    Option (TabyinContent × ParsedItem) :=
  (existing item.externalId).bind fun row =>
    if row.source.contentHash = computeContentHash env item.rawPayload then none
    else some (row, item)

/-- What the loop of `_upsert_batch` collects. -/
theorem sortItems_eq (env : Env) (existing : String → Option TabyinContent)
    (items : List ParsedItem) :
    (items.foldl (sortItem env existing) ⟨[], [], 0⟩).toCreate = newItems existing items ∧
      (items.foldl (sortItem env existing) ⟨[], [], 0⟩).toUpdate =
        items.filterMap (changedEntry env existing) := by
  induction items using List.reverseRecOn with
  | nil => exact ⟨rfl, rfl⟩
  | append_singleton items item ih =>
      obtain ⟨hcreate, hupdate⟩ := ih
      rw [List.foldl_append, List.foldl_cons, List.foldl_nil, newItems, List.filter_append,
        List.filterMap_append]
      generalize items.foldl (sortItem env existing) ⟨[], [], 0⟩ = batch at hcreate hupdate ⊢
      unfold sortItem
      cases hrow : existing item.externalId with
      | none => simp [hcreate, hupdate, newItems, changedEntry, hrow]
      | some row =>
          by_cases hhash : row.source.contentHash = computeContentHash env item.rawPayload
          · simp [hcreate, hupdate, newItems, changedEntry, hrow, hhash]
          · simp [hcreate, hupdate, newItems, changedEntry, hrow, hhash]

theorem changedEntry_some {env : Env} {existing : String → Option TabyinContent}
    {item : ParsedItem} {entry : TabyinContent × ParsedItem}
    (h : changedEntry env existing item = some entry) :
    entry.2 = item ∧ existing item.externalId = some entry.1 ∧
      entry.1.source.contentHash ≠ computeContentHash env item.rawPayload := by
  unfold changedEntry at h
  cases hrow : existing item.externalId with
  | none =>
      rw [hrow] at h
      cases h
  | some row =>
      rw [hrow, Option.bind_some] at h
      split at h
      case isTrue => cases h
      case isFalse hhash =>
        cases h
        exact ⟨rfl, rfl, hhash⟩

theorem byExternalId_some {store : Store} {externalId : String} {row : TabyinContent}
    (h : store.byExternalId externalId = some row) :
    row ∈ store.contents ∧ row.externalId = externalId :=
  ⟨List.mem_of_find?_eq_some h, by simpa using List.find?_some h⟩

/-- Rows of the table are known by their primary key. -/
theorem known_of_mem {store : Store} {keys : List (ℕ × String)} (h : Known [] store)
    (hkeys : ∀ key ∈ keys, ∃ row ∈ store.contents, key = (row.pk, row.externalId)) :
    Known keys store where
  wellFormed := h.wellFormed
  named := by
    intro key hkey
    obtain ⟨row, hrow, rfl⟩ := hkeys key hkey
    refine ⟨h.wellFormed.below row hrow, ?_⟩
    intro other hother hpk
    rw [h.wellFormed.unique other hother row hrow hpk]

/-- A call may be framed with the keys that its start makes known. -/
theorem frame_of_known {keys : List (ℕ × String)} {ids : List String} {e e' : Engine}
    (hkeys : Known [] e.store → Known keys e.store) (h : Frame keys ids e e') :
    Frame [] ids e e' := by
  intro hknown
  obtain ⟨hknown', htouched⟩ := h (hkeys hknown)
  exact ⟨⟨hknown'.wellFormed, by simp⟩, htouched⟩

/-- A batch only creates and updates contents with the ids of its items. -/
theorem keeps_upsertBatch (env : Env) {items : List ParsedItem} {ids : List String}
    (hitems : ∀ item ∈ items, item.externalId ∈ ids) :
    Keeps (Frame [] ids) (upsertBatch env items) := by
  apply keeps_get_bind
  intro e
  obtain ⟨hcreate, hupdate⟩ := sortItems_eq env e.store.byExternalId items
  generalize items.foldl (sortItem env e.store.byExternalId) ⟨[], [], 0⟩ = batch
    at hcreate hupdate ⊢
  -- the rows to update were read from the table that the batch starts from
  have hrows : ∀ entry ∈ batch.toUpdate,
      entry.1 ∈ e.store.contents ∧ entry.1.externalId ∈ ids := by
    intro entry hentry
    rw [hupdate] at hentry
    obtain ⟨item, hitem, hchanged⟩ := List.mem_filterMap.mp hentry
    obtain ⟨-, hrow, -⟩ := changedEntry_some hchanged
    obtain ⟨hmem, hid⟩ := byExternalId_some hrow
    exact ⟨hmem, hid ▸ hitems item hitem⟩
  have hkeys : Known [] e.store →
      Known (batch.toUpdate.map fun entry => (entry.1.pk, entry.1.externalId)) e.store := by
    intro hknown
    apply known_of_mem hknown
    intro key hkey
    obtain ⟨entry, hentry, rfl⟩ := List.mem_map.mp hkey
    exact ⟨entry.1, (hrows entry hentry).1, rfl⟩
  refine frame_of_known hkeys ?_
  refine keeps_bind frame_trans (keeps_count _) (fun _ => ?_) e
  refine keeps_ite (keeps_bind frame_trans ?_ fun _ => ?update) ?update
  · refine keeps_bulkCreate env fun item hitem => hitems item ?_
    rw [hcreate] at hitem
    exact List.mem_of_mem_filter hitem
  · refine keeps_ite (keeps_bulkUpdate env fun entry hentry => ?_) (keeps_pure frame_refl _)
    exact ⟨List.mem_map.mpr ⟨entry, hentry, rfl⟩, (hrows entry hentry).2⟩

theorem keeps_processPage (env : Env) (provider : Provider) (page : ℕ) :
    Keeps (Frame [] (provider.fetchedOn page)) (processPage env provider page) := by
  unfold processPage
  split
  case h_1 => exact keeps_bind frame_trans (keeps_count _) fun _ => keeps_pure frame_refl _
  case h_2 response hfetch =>
    refine keeps_bind frame_trans (keeps_count _) fun _ => ?_
    refine fun e => after_fromExcept_bind frame_refl fun rawItems hitems => ?_
    refine keeps_ite (keeps_pure frame_refl _) ?_ e
    refine fun e => after_fromExcept_bind frame_refl fun parsed hparse => ?_
    obtain ⟨items, skipped⟩ := parsed
    have hids : provider.fetchedOn page = items.map ParsedItem.externalId := by
      simp [Provider.fetchedOn, hfetch, Response.ids, hitems, parseItems_ids hparse]
    refine keeps_bind frame_trans (keeps_count _) (fun _ => ?_) e
    refine keeps_ite ?_ (keeps_pure frame_refl _)
    refine keeps_bind frame_trans (keeps_upsertBatch env fun item hitem => ?_) fun _ =>
      keeps_pure frame_refl _
    rw [hids]
    exact List.mem_map_of_mem hitem

theorem keeps_processPages (env : Env) (provider : Provider) {ids : List String}
    {pages : List ℕ} (hpages : ∀ page ∈ pages, provider.fetchedOn page ⊆ ids)
    (sourceIds : List String) :
    Keeps (Frame [] ids) (processPages env provider pages sourceIds) := by
  induction pages generalizing sourceIds with
  | nil => exact keeps_pure frame_refl _
  | cons page pages ih =>
      refine keeps_bind frame_trans ?_ fun _ => ?_
      · intro e hknown
        obtain ⟨hknown', htouched⟩ := keeps_processPage env provider page e hknown
        exact ⟨hknown', htouched.mono (hpages page (by simp))⟩
      · exact ih (fun p hp => hpages p (List.mem_cons_of_mem _ hp)) _

/-- **The page loop.** It leaves the rows alone whose id no fetched page lists, and
the others live or as they were. -/
theorem pageLoop_touched (env : Env) (provider : Provider) {store : Store}
    (hwf : store.WellFormed) (now : ℕ) :
    Touched provider.fetchedIds store.contents
      (after (processPages env provider provider.pages []) (Engine.start store now)).store.contents := by
  refine (keeps_processPages env provider ?_ [] (Engine.start store now) ⟨hwf, by simp⟩).2
  intro page hpage id hid
  exact List.mem_flatMap.mpr ⟨page, hpage, hid⟩

/-! ## The deletion pass -/

/-- `sync_full` gets to its deletion pass: no page raises, and the fetched pages
list an id. -/
def ReachesDeletion (env : Env) (provider : Provider) (store : Store) (now : ℕ) : Prop :=
  (∃ ids t, Commits (processPages env provider provider.pages []) (Engine.start store now) ids t) ∧
    provider.fetchedIds ≠ []

/-- The table that `sync_full` leaves, whether it returns or raises. -/
def syncedStore (env : Env) (provider : Provider) (store : Store) (now : ℕ) : Store :=
  (after (syncFull env provider) (Engine.start store now)).store

/-- The deletion pass on one row. -/
def deletionPass (now : ℕ) (ids : List String) (row : TabyinContent) : TabyinContent :=
  if missing ids row then softDelete now row else row

theorem missing_iff {ids : List String} {row : TabyinContent} :
    missing ids row = true ↔ row.isDeletedInSource = false ∧ row.externalId ∉ ids := by
  simp [missing]

theorem deletionPass_missing {now : ℕ} {ids : List String} {row : TabyinContent}
    (h : missing ids row = true) : deletionPass now ids row = softDelete now row := by
  simp [deletionPass, h]

theorem deletionPass_kept {now : ℕ} {ids : List String} {row : TabyinContent}
    (h : ¬ missing ids row = true) : deletionPass now ids row = row := by
  simp [deletionPass, h]

theorem softDeleteMissing_commits (ids : List String) (e : Engine) :
    ∃ t, Commits (softDeleteMissing ids) e ⟨⟩ t ∧
      t.store.contents = e.store.contents.map (deletionPass e.now ids) := by
  simp only [softDeleteMissing, commits_bind, commits_get, setStore, count, commits_modify,
    commits_ite, commits_pure]
  by_cases hdeleted : 0 < e.store.contents.countP (missing ids)
  · exact ⟨_, ⟨e, e, ⟨rfl, rfl⟩, ⟨⟩, _, rfl, .inl ⟨hdeleted, rfl⟩⟩, rfl⟩
  · exact ⟨_, ⟨e, e, ⟨rfl, rfl⟩, ⟨⟩, _, rfl, .inr ⟨hdeleted, trivial, rfl⟩⟩, rfl⟩

theorem pageLoop_ids {env : Env} {provider : Provider} {ids : List String} {e t : Engine}
    (h : Commits (processPages env provider provider.pages []) e ids t) :
    ids = provider.fetchedIds := by
  rw [processPages_ids h, List.nil_append, Provider.fetchedIds]

/-- The rows after the page loop, whether it returns or raises. -/
def loopRows (env : Env) (provider : Provider) (store : Store) (now : ℕ) : List TabyinContent :=
  (after (processPages env provider provider.pages []) (Engine.start store now)).store.contents

theorem syncedStore_not_reached {env : Env} {provider : Provider} {store : Store} {now : ℕ}
    (h : ¬ ReachesDeletion env provider store now) :
    (syncedStore env provider store now).contents = loopRows env provider store now := by
  unfold syncedStore loopRows syncFull after
  by_cases hpages : provider.totalPages = 0
  · rw [if_pos hpages]
    have hempty : provider.pages = [] := by simp [Provider.pages, hpages]
    rw [hempty]
    rfl
  · rw [if_neg hpages]
    rcases hloop : exec (processPages env provider provider.pages []) (Engine.start store now)
      with ⟨r, t⟩
    cases r with
    | error err => rw [exec_bind_error hloop]
    | ok ids =>
        have hids : ids = [] := by
          by_contra hne
          exact h ⟨⟨ids, t, hloop⟩, pageLoop_ids hloop ▸ hne⟩
        rw [exec_bind_ok hloop, if_neg (by simpa using hids)]
        rfl

theorem syncedStore_reached {env : Env} {provider : Provider} {store : Store} {now : ℕ}
    (h : ReachesDeletion env provider store now) :
    ∃ stamp, (syncedStore env provider store now).contents =
      (loopRows env provider store now).map (deletionPass stamp provider.fetchedIds) := by
  obtain ⟨⟨ids, t, hloop⟩, hne⟩ := h
  have heq : ids = provider.fetchedIds := pageLoop_ids hloop
  have hpages : provider.totalPages ≠ 0 := by
    intro hzero
    simp [Provider.fetchedIds, Provider.pages, hzero] at hne
  obtain ⟨u, hdelete, hrows⟩ := softDeleteMissing_commits ids t
  refine ⟨t.now, ?_⟩
  have hloopRows : loopRows env provider store now = t.store.contents := by
    unfold loopRows after
    rw [hloop]
  rw [hloopRows, ← heq, ← hrows]
  unfold syncedStore syncFull after
  rw [if_neg hpages, exec_bind_ok hloop, if_pos (by rw [heq]; exact hne), exec_bind_ok hdelete]
  rfl

/-- A row that no fetched page lists comes out of the page loop as it was. -/
theorem loopRows_unlisted (env : Env) {provider : Provider} {store : Store}
    (hwf : store.WellFormed) (now : ℕ) {k : ℕ} {row : TabyinContent}
    (hrow : store.contents[k]? = some row) (hid : row.externalId ∉ provider.fetchedIds) :
    (loopRows env provider store now)[k]? = some row := by
  have htouched := pageLoop_touched env provider hwf now
  have hk : k < (loopRows env provider store now).length :=
    lt_of_lt_of_le (List.getElem?_eq_some_iff.mp hrow).1 htouched.kept
  have hnew := List.getElem?_eq_getElem hk
  rcases htouched.rows k _ hnew with hold | ⟨hlive, hsame⟩
  · exact hnew.trans (hold.symm.trans hrow)
  · exact absurd (hsame row hrow ▸ hlive.listed) hid

/-- The deletion pass takes a row that no fetched page lists. -/
theorem syncedStore_hidden {env : Env} {provider : Provider} {store : Store} {now : ℕ}
    (hwf : store.WellFormed) (hreach : ReachesDeletion env provider store now) {k : ℕ}
    {row : TabyinContent} (hrow : store.contents[k]? = some row)
    (hpresent : row.isDeletedInSource = false) (hid : row.externalId ∉ provider.fetchedIds) :
    ∃ stamp, (syncedStore env provider store now).contents[k]? = some (softDelete stamp row) := by
  obtain ⟨stamp, hrows⟩ := syncedStore_reached hreach
  have hloop := loopRows_unlisted env hwf now hrow hid
  refine ⟨stamp, ?_⟩
  rw [hrows, List.getElem?_map, hloop, Option.map_some,
    deletionPass_missing (missing_iff.mpr ⟨hpresent, hid⟩)]

/-- Such a row stays as it is without the pass, or if it is deleted already. -/
theorem syncedStore_unlisted {env : Env} {provider : Provider} {store : Store} {now : ℕ}
    (hwf : store.WellFormed) {k : ℕ} {row : TabyinContent}
    (hrow : store.contents[k]? = some row) (hid : row.externalId ∉ provider.fetchedIds)
    (hkeep : ¬ ReachesDeletion env provider store now ∨ row.isDeletedInSource = true) :
    (syncedStore env provider store now).contents[k]? = some row := by
  have hloop := loopRows_unlisted env hwf now hrow hid
  by_cases hreach : ReachesDeletion env provider store now
  · obtain ⟨stamp, hrows⟩ := syncedStore_reached hreach
    have hdeleted := hkeep.resolve_left fun h => h hreach
    have hmissing : ¬ missing provider.fetchedIds row = true := by
      simp [missing, hdeleted]
    rw [hrows, List.getElem?_map, hloop, Option.map_some, deletionPass_kept hmissing]
  · rw [syncedStore_not_reached hreach, hloop]

/-- **Rows after a full sync.** A row is the one that was there before, or a live row
of a fetched page, or it was hidden by the deletion pass. -/
theorem syncedStore_rows {env : Env} {provider : Provider} {store : Store} {now : ℕ}
    (hwf : store.WellFormed) {k : ℕ} {row : TabyinContent}
    (hrow : (syncedStore env provider store now).contents[k]? = some row) :
    store.contents[k]? = some row ∨ Live provider.fetchedIds row ∨
      (ReachesDeletion env provider store now ∧
        ∃ old stamp, store.contents[k]? = some old ∧ old.isDeletedInSource = false ∧
          old.externalId ∉ provider.fetchedIds ∧ row = softDelete stamp old) := by
  have htouched := pageLoop_touched env provider hwf now
  by_cases hreach : ReachesDeletion env provider store now
  · obtain ⟨stamp, hrows⟩ := syncedStore_reached hreach
    rw [hrows, List.getElem?_map, Option.map_eq_some_iff] at hrow
    obtain ⟨mid, hmid, hpass⟩ := hrow
    by_cases hmissing : missing provider.fetchedIds mid = true
    · obtain ⟨hpresent, hid⟩ := missing_iff.mp hmissing
      rw [deletionPass_missing hmissing] at hpass
      rcases htouched.rows k mid hmid with hold | ⟨hlive, -⟩
      · exact .inr (.inr ⟨hreach, mid, stamp, hold, hpresent, hid, hpass.symm⟩)
      · exact absurd hlive.listed hid
    · rw [deletionPass_kept hmissing] at hpass
      subst hpass
      rcases htouched.rows k mid hmid with hold | ⟨hlive, -⟩
      · exact .inl hold
      · exact .inr (.inl hlive)
  · rw [syncedStore_not_reached hreach] at hrow
    rcases htouched.rows k row hrow with hold | ⟨hlive, -⟩
    · exact .inl hold
    · exact .inr (.inl hlive)

/-! ## User submissions -/

/-- Every content of a user is still there, in its place and unchanged. -/
def UserContentsKept (before after : Store) : Prop :=
  ∀ (k : ℕ) (row : TabyinContent), before.contents[k]? = some row →
    row.origin = .userSubmitted → after.contents[k]? = some row

theorem fetchedIds_subset_sourceIds (provider : Provider) :
    provider.fetchedIds ⊆ provider.sourceIds := by
  intro id hid
  obtain ⟨page, hpage, hid⟩ := List.mem_flatMap.mp hid
  refine List.mem_flatMap.mpr ⟨page, hpage, ?_⟩
  unfold Provider.fetchedOn Provider.fetchPage at hid
  by_cases hfailed : provider.failed page = true
  · simp [hfailed] at hid
  · simpa [hfailed] using hid

/-- **User submissions under a full sync.** For contents of users that the source
does not list: they are left alone exactly when the deletion pass is not reached
or all of them were marked as deleted before. -/
theorem userContents_kept_iff (env : Env) (provider : Provider) (store : Store) (now : ℕ)
    (hwf : store.WellFormed)
    (hlocal : ∀ row ∈ store.contents, row.origin = .userSubmitted →
      row.externalId ∉ provider.sourceIds) :
    UserContentsKept store (syncedStore env provider store now) ↔
      ¬ ReachesDeletion env provider store now ∨
        ∀ row ∈ store.contents, row.origin = .userSubmitted → row.isDeletedInSource = true := by
  have hid : ∀ row ∈ store.contents, row.origin = .userSubmitted →
      row.externalId ∉ provider.fetchedIds := by
    intro row hmem huser hlisted
    exact hlocal row hmem huser (fetchedIds_subset_sourceIds provider hlisted)
  constructor
  · intro hkept
    by_contra hboth
    obtain ⟨hreach, hdeleted⟩ := not_or.mp hboth
    refine hdeleted fun row hmem huser => ?_
    by_contra hpresent
    obtain ⟨k, hk⟩ := List.getElem?_of_mem hmem
    obtain ⟨stamp, hhidden⟩ := syncedStore_hidden hwf (not_not.mp hreach) hk
      (Bool.eq_false_iff.mpr hpresent) (hid row hmem huser)
    rw [hkept k row hk huser, Option.some.injEq] at hhidden
    exact hpresent (hhidden ▸ rfl)
  · intro hcond k row hk huser
    have hmem := List.mem_of_getElem? hk
    refine syncedStore_unlisted hwf hk (hid row hmem huser) ?_
    exact hcond.imp_right fun hdeleted => hdeleted row hmem huser

/-- The hash of `sampleItem`, the only item that is hashed below. -/
def sampleEnv : Env where
  digest := fun _ => "8d03cc7fec78dbcf286381a700121f0fa0c1c7e5f79a8be8742ec753bd1afa2f"
  strptime := fun _ => none
  lower := fun url => url
  insertedAt := fun _ => 10

def sampleItem (externalId title : String) : RawItem where
  id := .value externalId
  e19Title := .value title
  name := .absent
  e20Description := .absent
  username := .absent
  entityId := .absent
  status := .absent
  type := .absent
  createdAt := .absent
  updatedAt := .absent
  e22Attachment := .absent

/-- Two pages with one item each, the second of which may fail. -/
def sampleProvider (failed : ℕ → Bool) : Provider where
  totalPages := 2
  page := fun page =>
    if page = 1 then ⟨.value (.value [sampleItem "ext-A" "Title for ext-A"])⟩
    else ⟨.value (.value [sampleItem "ext-B" "Title for ext-B"])⟩
  failed := failed

def sampleRow (pk : ℕ) (externalId : String) (origin : ContentOrigin) : TabyinContent where
  pk := pk
  externalId := externalId
  origin := origin
  submittedBy := none
  submissionStatus := .approved
  reviewedBy := none
  reviewedAt := none
  adminNote := ""
  source := ⟨"Title", "", "", 0, 0, 0, some 3, some 3, "", .empty, ""⟩
  lastSyncedAt := none
  isDeletedInSource := false
  isActive := true
  createdAt := 3
  updatedAt := 3

/-- A content of either origin beside a synced content. -/
def sampleStore (externalId : String) (origin : ContentOrigin) : Store where
  contents := [sampleRow 1 externalId origin, sampleRow 2 "ext-C" .external]
  attachments := []
  nextContent := 3
  nextAttachment := 1

theorem sampleStore_wellFormed (externalId : String) (origin : ContentOrigin) :
    (sampleStore externalId origin).WellFormed where
  unique := by simp [UniqueBy, sampleStore, sampleRow]
  below := by simp [sampleStore, sampleRow]

def localId : String := "local-0123456789abcdef0123456789abcdef"

/-- With no page fetched the submission stays as it is. -/
theorem userContents_kept_unreachable :
    UserContentsKept (sampleStore localId .userSubmitted)
      (syncedStore sampleEnv (sampleProvider fun _ => true)
        (sampleStore localId .userSubmitted) 10) :=
  (userContents_kept_iff sampleEnv (sampleProvider fun _ => true) _ 10
    (sampleStore_wellFormed _ _) (by decide)).mpr (.inl fun h => h.2 (by decide))

/-- An approved submission is hidden by a sync that lists other contents. -/
theorem userContent_hidden_by_sync :
    localId ∉ (sampleProvider fun page => page == 2).sourceIds ∧
      ¬ UserContentsKept (sampleStore localId .userSubmitted)
        (syncedStore sampleEnv (sampleProvider fun page => page == 2)
          (sampleStore localId .userSubmitted) 10) := by
  refine ⟨by decide, fun hkept => ?_⟩
  have hrow := hkept 0 (sampleRow 1 localId .userSubmitted) rfl rfl
  revert hrow
  decide

/-! ## Contents of the source -/

/-- A content that the source lists is hidden after the run only if it was hidden
before: no content was switched to deleted, and none to inactive. -/
def ListedContentsKept (provider : Provider) (before after : Store) : Prop :=
  ∀ (k : ℕ) (row : TabyinContent), after.contents[k]? = some row →
    row.externalId ∈ provider.sourceIds →
      (row.isDeletedInSource = true →
        ∃ old, before.contents[k]? = some old ∧ old.isDeletedInSource = true) ∧
      (row.isActive = false → ∃ old, before.contents[k]? = some old ∧ old.isActive = false)

/-- **Listed contents under a full sync.** None is hidden by the run exactly when
the deletion pass is not reached or every content that the source lists, and that
was not deleted before, is on a page that could be fetched. -/
theorem listedContents_kept_iff (env : Env) (provider : Provider) (store : Store) (now : ℕ)
    (hwf : store.WellFormed) :
    ListedContentsKept provider store (syncedStore env provider store now) ↔
      ¬ ReachesDeletion env provider store now ∨
        ∀ row ∈ store.contents, row.isDeletedInSource = false →
          row.externalId ∈ provider.sourceIds → row.externalId ∈ provider.fetchedIds := by
  constructor
  · intro hkept
    by_contra hboth
    obtain ⟨hreach, hfetched⟩ := not_or.mp hboth
    refine hfetched fun row hmem hpresent hlisted => ?_
    by_contra hid
    obtain ⟨k, hk⟩ := List.getElem?_of_mem hmem
    obtain ⟨stamp, hhidden⟩ := syncedStore_hidden hwf (not_not.mp hreach) hk hpresent hid
    -- the row is hidden now and was not before
    obtain ⟨old, hold, hdeleted⟩ := (hkept k _ hhidden hlisted).1 rfl
    rw [hk, Option.some.injEq] at hold
    rw [← hold, hpresent] at hdeleted
    cases hdeleted
  · intro hcond k row hrow hlisted
    rcases syncedStore_rows hwf hrow with hold | hlive | ⟨hreach, old, stamp, hold, hpresent,
      hid, rfl⟩
    · exact ⟨fun h => ⟨row, hold, h⟩, fun h => ⟨row, hold, h⟩⟩
    · simp [hlive.present, hlive.active]
    · have hfetched := hcond.resolve_left fun h => h hreach
      exact absurd (hfetched old (List.mem_of_getElem? hold) hpresent hlisted) hid

/-- The content of the fetched page survives the failure of the other page. -/
theorem listedContents_kept_fetched :
    ListedContentsKept (sampleProvider fun page => page == 2) (sampleStore "ext-A" .external)
      (syncedStore sampleEnv (sampleProvider fun page => page == 2)
        (sampleStore "ext-A" .external) 10) :=
  (listedContents_kept_iff sampleEnv (sampleProvider fun page => page == 2) _ 10
    (sampleStore_wellFormed _ _)).mpr (.inr (by decide))

/-- The content of the page that failed is hidden. -/
theorem listedContent_hidden_by_failed_page :
    ¬ ListedContentsKept (sampleProvider fun page => page == 2) (sampleStore "ext-B" .external)
      (syncedStore sampleEnv (sampleProvider fun page => page == 2)
        (sampleStore "ext-B" .external) 10) := by
  intro hkept
  obtain ⟨old, hold, hdeleted⟩ :=
    (hkept 0 (softDelete 10 (sampleRow 1 "ext-B" .external)) (by decide) (by decide)).1 rfl
  cases hold
  cases hdeleted

end SetadJang.Tabyin
