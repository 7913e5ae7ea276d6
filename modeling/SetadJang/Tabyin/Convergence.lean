import Mathlib.Data.List.Sort
import SetadJang.Tabyin.Batches

/-!
# Convergence of a full sync

A full sync over pages that can all be fetched leaves the tables as the source
shows them, and a second one finds nothing to do, provided the database takes what
is new or changed and the rows that are skipped already show their items.  A row
is skipped when its hash is the one of the item: one that was deleted, or hidden,
or that differs from its hash stays so.
-/

namespace SetadJang.Tabyin

open SetadJang.Framework SetadJang.Framework.Txn

/-! ## Items of a source -/

/-- The loop of `_process_page`, up to the upsert. -/
def Response.parse (env : Env) (response : Response) : Except SyncError (List ParsedItem) := do
  let rawItems ← extractItems response
  let (items, _) ← parseItems env rawItems
  return items

def Response.items (env : Env) (response : Response) : List ParsedItem :=
  match response.parse env with
  | .ok items => items
  | .error _ => []

/-- The items of the source, page by page. -/
def Provider.items (env : Env) (provider : Provider) : List ParsedItem :=
  provider.pages.flatMap fun page => (provider.page page).items env

/-- No page raises in the parser. -/
def Provider.Readable (env : Env) (provider : Provider) : Prop :=
  ∀ page ∈ provider.pages, ∃ items, (provider.page page).parse env = .ok items

theorem parse_ids {env : Env} {response : Response} {items : List ParsedItem}
    (h : response.parse env = .ok items) :
    response.items env = items ∧ items.map ParsedItem.externalId = response.ids := by
  refine ⟨by simp [Response.items, h], ?_⟩
  unfold Response.parse at h
  rw [except_bind_ok_iff] at h
  obtain ⟨rawItems, hitems, h⟩ := h
  rw [except_bind_ok_iff] at h
  obtain ⟨⟨found, skipped⟩, hparse, h⟩ := h
  cases h
  rw [parseItems_ids hparse, Response.ids, hitems]

/-- What an item says, as a reader finds it: the row is shown, and its texts, its
numbers and the addresses of its attachments in their order are those of the item. -/
structure Shows (store : Store) (item : ParsedItem) (row : TabyinContent) : Prop where
  present : row.isDeletedInSource = false
  active : row.isActive = true
  title : row.source.title = item.title
  description : row.source.description = item.description
  author : row.source.authorUsername = item.authorUsername
  status : item.sourceStatus = some (row.source.sourceStatus : ℤ)
  type : item.sourceType = some (row.source.sourceType : ℤ)
  urls : ((store.attachmentsOf row.pk).mergeSort fun a b => a.order ≤ b.order).map (·.url) =
    item.attachments.map (·.url)

/-! ## Pages -/

section Pages

variable {env : Env} {provider : Provider} {e : Engine}

theorem parseAttachments_ordered (env : Env) (idx : ℕ) (raws : List RawAttachment) :
    (parseAttachments env idx raws).Pairwise (fun a b => a.order ≤ b.order) ∧
      ∀ att ∈ parseAttachments env idx raws, idx ≤ att.order := by
  induction raws generalizing idx with
  | nil => exact ⟨.nil, by simp [parseAttachments]⟩
  | cons raw rest ih =>
      obtain ⟨hsorted, hlater⟩ := ih (idx + 1)
      unfold parseAttachments
      split
      · exact ⟨hsorted, fun att hatt => Nat.le_of_succ_le (hlater att hatt)⟩
      · refine ⟨List.pairwise_cons.mpr ⟨?_, hsorted⟩, List.forall_mem_cons.mpr ⟨le_refl _, ?_⟩⟩
        · exact fun att hatt => Nat.le_of_succ_le (hlater att hatt)
        · exact fun att hatt => Nat.le_of_succ_le (hlater att hatt)

theorem parseContentItem_ordered {raw : RawItem} {item : ParsedItem}
    (h : parseContentItem env raw = .ok (some item)) :
    item.attachments.Pairwise fun a b => a.order ≤ b.order := by
  unfold parseContentItem at h
  split at h
  case h_1 => cases h
  case h_2 =>
    split at h
    case h_1 => cases h
    case h_2 =>
      cases h
      exact (parseAttachments_ordered env 0 _).1

theorem parseItems_ordered {raws : List RawItem} {items : List ParsedItem} {skipped : ℕ}
    (h : parseItems env raws = .ok (items, skipped)) :
    ∀ item ∈ items, item.attachments.Pairwise fun a b => a.order ≤ b.order := by
  induction raws generalizing items skipped with
  | nil =>
      cases h
      simp
  | cons raw rest ih =>
      simp only [parseItems, except_bind_ok_iff] at h
      obtain ⟨parsed, hparsed, ⟨found, n⟩, hrest, h⟩ := h
      cases parsed with
      | none =>
          cases h
          exact ih hrest
      | some item =>
          cases h
          exact List.forall_mem_cons.mpr ⟨parseContentItem_ordered hparsed, ih hrest⟩

theorem items_ordered {item : ParsedItem} (h : item ∈ provider.items env) :
    item.attachments.Pairwise fun a b => a.order ≤ b.order := by
  obtain ⟨page, -, hitem⟩ := List.mem_flatMap.mp h
  unfold Response.items at hitem
  split at hitem
  case h_1 items hparse =>
    unfold Response.parse at hparse
    simp only [except_bind_ok_iff] at hparse
    obtain ⟨rawItems, -, ⟨found, skipped⟩, hfound, hparse⟩ := hparse
    cases hparse
    exact parseItems_ordered hfound item hitem
  case h_2 => cases hitem

/-- A row that was written shows its item. -/
theorem ShowsItem.shows {item : ParsedItem} {store : Store} {row : TabyinContent}
    (h : ShowsItem env item store row)
    (hordered : item.attachments.Pairwise fun a b => a.order ≤ b.order) :
    Shows store item row := by
  have hcolumns := sourceColumns_ok h.source
  have horders : (store.attachmentsOf row.pk).map (·.order) = item.attachments.map (·.order) := by
    have hlinks := congrArg (List.map Prod.snd) h.attachments
    rwa [List.map_map, List.map_map] at hlinks
  have hurls : (store.attachmentsOf row.pk).map (·.url) = item.attachments.map (·.url) := by
    have hlinks := congrArg (List.map Prod.fst) h.attachments
    rwa [List.map_map, List.map_map] at hlinks
  -- the attachments stand in their order already
  have hsorted : (store.attachmentsOf row.pk).Pairwise fun a b => a.order ≤ b.order := by
    rw [← List.pairwise_map (f := fun att : TabyinAttachment => att.order) (R := (· ≤ ·)), horders,
      List.pairwise_map]
    exact hordered
  exact {
    present := h.present
    active := h.active
    title := hcolumns.title
    description := hcolumns.description
    author := hcolumns.author
    status := hcolumns.status
    type := hcolumns.type
    urls := by
      rw [List.mergeSort_of_pairwise (hsorted.imp fun hle => by simpa using hle), hurls] }

/-- A page that is fetched and returns: parsed, and upserted if there is an item. -/
theorem processPage_commits {page : ℕ} {ids : Option (List String)} {t : Engine}
    (hfetch : provider.failed page = false)
    (h : Commits (processPage env provider page) e ids t) :
    ∃ items, (provider.page page).parse env = .ok items ∧ ∃ e₁, Quiet e e₁ ∧
      ((items = [] ∧ t = e₁) ∨ ∃ u, Commits (upsertBatch env items) e₁ u t) := by
  have hpage : provider.fetchPage page = some (provider.page page) := by
    simp [Provider.fetchPage, hfetch]
  unfold processPage at h
  simp only [hpage, count, commits_bind, commits_modify, commits_fromExcept, commits_ite,
    commits_pure] at h
  obtain ⟨v, e₁, he₁, rawItems, e₂, ⟨hraws, rfl⟩, h⟩ := h
  have hquiet : Quiet e e₂ := by
    rw [he₁]
    exact ⟨rfl, rfl, rfl, rfl⟩
  rcases h with ⟨hnil, -, rfl⟩ | ⟨-, ⟨items, skipped⟩, e₃, ⟨hparse, rfl⟩, w, e₄, he₄, h⟩
  · refine ⟨[], ?_, t, hquiet, .inl ⟨rfl, rfl⟩⟩
    rw [Response.parse, hraws, hnil]
    rfl
  · have hitems : (provider.page page).parse env = .ok items := by
      simp only [Response.parse, except_bind_ok_iff]
      exact ⟨rawItems, hraws, _, hparse, rfl⟩
    have hquiet' : Quiet e e₄ := by
      rw [he₄]
      exact ⟨hquiet.store, hquiet.created, hquiet.updated, hquiet.softDeleted⟩
    refine ⟨items, hitems, e₄, hquiet', ?_⟩
    rcases h with ⟨-, u, e₅, hupsert, -, rfl⟩ | ⟨hnil, -, rfl⟩
    · exact .inr ⟨u, hupsert⟩
    · exact .inl ⟨not_not.mp hnil, rfl⟩

theorem processPage_returns_of {page : ℕ} {items : List ParsedItem}
    (hfetch : provider.failed page = false) (hparse : (provider.page page).parse env = .ok items)
    (h : ∀ e₁ : Engine, e₁.store = e.store → Returns (upsertBatch env items) e₁) :
    Returns (processPage env provider page) e := by
  have hpage : provider.fetchPage page = some (provider.page page) := by
    simp [Provider.fetchPage, hfetch]
  simp only [Response.parse, except_bind_ok_iff] at hparse
  obtain ⟨rawItems, hraws, ⟨found, skipped⟩, hfound, hitems⟩ := hparse
  obtain rfl : found = items := Except.ok.inj hitems
  unfold processPage
  rw [hpage]
  refine returns_bind.mpr ⟨⟨⟩, _, count_commits _ e, ?_⟩
  refine returns_bind.mpr ⟨rawItems, _, commits_fromExcept.mpr ⟨hraws, rfl⟩, ?_⟩
  by_cases hnil : rawItems = []
  · rw [if_pos hnil]
    exact returns_pure _ _
  · rw [if_neg hnil]
    refine returns_bind.mpr ⟨(found, skipped), _, commits_fromExcept.mpr ⟨hfound, rfl⟩, ?_⟩
    refine returns_bind.mpr ⟨⟨⟩, _, count_commits _ _, ?_⟩
    by_cases hempty : found ≠ []
    · rw [if_pos hempty]
      exact returns_bind_of_forall (h _ rfl) fun u t => returns_pure _ t
    · rw [if_neg hempty]
      exact returns_pure _ _

theorem storable_congr {s t : Store} {item : ParsedItem}
    (h : t.byExternalId item.externalId = s.byExternalId item.externalId) :
    Storable env t item ↔ Storable env s item := by
  unfold Storable
  rw [h]

theorem unchanged_congr {s t : Store} {item : ParsedItem}
    (h : t.byExternalId item.externalId = s.byExternalId item.externalId) :
    t.unchanged env item = s.unchanged env item := by
  unfold Store.unchanged
  rw [h]

theorem written_subset {s : Store} {items : List ParsedItem} :
    (s.written env items).map ParsedItem.externalId ⊆ items.map ParsedItem.externalId :=
  List.map_subset _ (List.filter_subset_self _)

variable (env) in
/-- One page, as the loop needs it. -/
theorem processPage_spec {page : ℕ} (hfetch : provider.failed page = false)
    (hsound : e.store.Sound) (hids : (provider.page page).ids.Nodup) :
    (Returns (processPage env provider page) e ↔
      ∃ items, (provider.page page).parse env = .ok items ∧
        ∀ item ∈ items, Storable env e.store item) ∧
      ∀ ids t, Commits (processPage env provider page) e ids t →
        Wrote env (e.store.written env ((provider.page page).items env)) e.store t.store := by
  refine ⟨⟨?_, ?_⟩, ?_⟩
  · rintro ⟨ids, t, h⟩
    obtain ⟨items, hparse, e₁, ⟨hstore, -, -, -⟩, hcases⟩ := processPage_commits hfetch h
    refine ⟨items, hparse, ?_⟩
    rcases hcases with ⟨rfl, -⟩ | ⟨u, hupsert⟩
    · simp
    · rw [← (parse_ids hparse).2] at hids
      rw [← hstore]
      exact (upsertBatch_returns (hstore ▸ hsound) hids).mp ⟨u, t, hupsert⟩
  · rintro ⟨items, hparse, hstorable⟩
    rw [← (parse_ids hparse).2] at hids
    refine processPage_returns_of hfetch hparse fun e₁ hstore => ?_
    rw [upsertBatch_returns (hstore ▸ hsound) hids, hstore]
    exact hstorable
  · intro ids t h
    obtain ⟨items, hparse, e₁, ⟨hstore, -, -, -⟩, hcases⟩ := processPage_commits hfetch h
    rw [(parse_ids hparse).1]
    rw [← (parse_ids hparse).2] at hids
    rcases hcases with ⟨rfl, rfl⟩ | ⟨u, hupsert⟩
    · rw [hstore]
      exact wrote_nil hsound
    · have hwrote := upsertBatch_wrote (hstore ▸ hsound) hids hupsert
      rwa [hstore] at hwrote

/-- Items whose page is still to come are found as they were. -/
theorem Wrote.later {s t : Store} {xs ys : List ParsedItem} (h : Wrote env (s.written env xs) s t)
    (hdisjoint : ∀ item ∈ ys, item.externalId ∉ xs.map ParsedItem.externalId) :
    ∀ item ∈ ys, t.byExternalId item.externalId = s.byExternalId item.externalId :=
  fun item hitem => (h.others _ fun hin => hdisjoint item hitem (written_subset hin)).row

/-- The items of some of the pages. -/
def pageItems (env : Env) (provider : Provider) (pages : List ℕ) : List ParsedItem :=
  pages.flatMap fun page => (provider.page page).items env

theorem items_ids {response : Response} :
    (response.items env).map ParsedItem.externalId ⊆ response.ids := by
  unfold Response.items
  split
  case h_1 items hparse => rw [(parse_ids hparse).2]; exact List.Subset.refl _
  case h_2 => simp

/-- Whether the items of some pages can be stored depends on the rows under their ids. -/
theorem storablePages_congr {pages : List ℕ} {s t : Store}
    (hsame : ∀ item ∈ pageItems env provider pages,
      t.byExternalId item.externalId = s.byExternalId item.externalId) :
    (∀ page ∈ pages, ∃ items, (provider.page page).parse env = .ok items ∧
        ∀ item ∈ items, Storable env t item) ↔
      ∀ page ∈ pages, ∃ items, (provider.page page).parse env = .ok items ∧
        ∀ item ∈ items, Storable env s item := by
  refine forall₂_congr fun page hpage => exists_congr fun items => and_congr_right fun hparse => ?_
  refine forall₂_congr fun item hitem => storable_congr (hsame item ?_)
  exact List.mem_flatMap.mpr ⟨page, hpage, (parse_ids hparse).1 ▸ hitem⟩

variable (env) in
/-- What the page loop does: it returns exactly when every page can be read and every
item stored, and then it has written what was new or changed. -/
theorem processPages_spec {pages : List ℕ} (hfetch : ∀ page ∈ pages, provider.failed page = false)
    (hids : (pages.flatMap fun page => (provider.page page).ids).Nodup) (hsound : e.store.Sound)
    (sourceIds : List String) :
    (Returns (processPages env provider pages sourceIds) e ↔
      ∀ page ∈ pages, ∃ items, (provider.page page).parse env = .ok items ∧
        ∀ item ∈ items, Storable env e.store item) ∧
      ∀ ids t, Commits (processPages env provider pages sourceIds) e ids t →
        Wrote env (e.store.written env (pageItems env provider pages)) e.store t.store := by
  induction pages generalizing e sourceIds with
  | nil =>
      refine ⟨iff_of_true (returns_pure _ e) (by simp), fun ids t h => ?_⟩
      obtain ⟨-, rfl⟩ := commits_pure.mp h
      exact wrote_nil hsound
  | cons page rest ih =>
      rw [List.forall_mem_cons] at hfetch
      rw [List.flatMap_cons, List.nodup_append] at hids
      obtain ⟨hpageIds, hrestIds, hapart⟩ := hids
      obtain ⟨hreturns, hwrites⟩ := processPage_spec env hfetch.1 hsound hpageIds
      -- the ids of the later pages are not on this one
      have hdisjoint : ∀ item ∈ pageItems env provider rest,
          item.externalId ∉ ((provider.page page).items env).map ParsedItem.externalId := by
        intro item hitem hin
        obtain ⟨other, hother, hmem⟩ := List.mem_flatMap.mp hitem
        refine hapart _ (items_ids hin) item.externalId ?_ rfl
        exact List.mem_flatMap.mpr ⟨other, hother, items_ids (List.mem_map_of_mem hmem)⟩
      have hlater : ∀ {ids t}, Commits (processPage env provider page) e ids t →
          ∀ item ∈ pageItems env provider rest,
            t.store.byExternalId item.externalId = e.store.byExternalId item.externalId :=
        fun h => (hwrites _ _ h).later hdisjoint
      have hrest : ∀ {ids t}, Commits (processPage env provider page) e ids t →
          (Returns (processPages env provider rest (sourceIds ++ ids.getD [])) t ↔
            ∀ page ∈ rest, ∃ items, (provider.page page).parse env = .ok items ∧
              ∀ item ∈ items, Storable env e.store item) :=
        fun h => (ih hfetch.2 hrestIds (hwrites _ _ h).sound _).1.trans
          (storablePages_congr (hlater h))
      refine ⟨?_, ?_⟩
      · rw [List.forall_mem_cons, ← hreturns]
        unfold processPages
        constructor
        · intro h
          obtain ⟨ids, t, hpage, hpages⟩ := returns_bind.mp h
          exact ⟨⟨ids, t, hpage⟩, (hrest hpage).mp hpages⟩
        · rintro ⟨⟨ids, t, hpage⟩, hpages⟩
          exact returns_bind.mpr ⟨ids, t, hpage, (hrest hpage).mpr hpages⟩
      · intro ids t h
        unfold processPages at h
        obtain ⟨pageIds, t₁, hpage, hrest⟩ := commits_bind.mp h
        have hfirst := hwrites _ _ hpage
        have hsecond := (ih hfetch.2 hrestIds hfirst.sound _).2 _ _ hrest
        have hsame : t₁.store.written env (pageItems env provider rest) =
            e.store.written env (pageItems env provider rest) := by
          refine List.filter_congr fun item hitem => ?_
          rw [unchanged_congr (hlater hpage item hitem)]
        rw [hsame] at hsecond
        have happend : e.store.written env (pageItems env provider (page :: rest)) =
            e.store.written env ((provider.page page).items env) ++
              e.store.written env (pageItems env provider rest) := by
          rw [pageItems, List.flatMap_cons]
          exact List.filter_append _ _
        rw [happend]
        refine hfirst.append hsecond fun item hitem hin => ?_
        obtain ⟨other, hother, heq⟩ := List.mem_map.mp (written_subset hin)
        refine hdisjoint other hother ?_
        rw [heq]
        exact List.mem_map_of_mem (List.mem_filter.mp hitem).1

end Pages

/-! ## A full sync -/

section FullSync

variable {env : Env} {provider : Provider} {e t : Engine}

theorem fetchedIds_eq_sourceIds (hfetch : ∀ page ∈ provider.pages, provider.failed page = false) :
    provider.fetchedIds = provider.sourceIds := by
  unfold Provider.fetchedIds Provider.sourceIds
  rw [List.flatMap_def, List.flatMap_def]
  congr 1
  refine List.map_congr_left fun page hpage => ?_
  simp [Provider.fetchedOn, Provider.fetchPage, hfetch page hpage]

theorem deletionPass_id (now : ℕ) (ids : List String) (row : TabyinContent) :
    (deletionPass now ids row).externalId = row.externalId := by
  unfold deletionPass
  split <;> rfl

theorem deletionPass_pk (now : ℕ) (ids : List String) (row : TabyinContent) :
    (deletionPass now ids row).pk = row.pk := by
  unfold deletionPass
  split <;> rfl

/-- The tables after the deletion pass. -/
def Store.withDeleted (store : Store) (now : ℕ) (ids : List String) : Store :=
  { store with contents := store.contents.map (deletionPass now ids) }

theorem softDeleteMissing_spec (ids : List String) (e : Engine) :
    ∃ t, Commits (softDeleteMissing ids) e ⟨⟩ t ∧ t.store = e.store.withDeleted e.now ids ∧
      t.stats.created = e.stats.created ∧ t.stats.updated = e.stats.updated ∧
      (e.store.contents.countP (missing ids) = 0 → t.stats.softDeleted = e.stats.softDeleted) := by
  simp only [softDeleteMissing, commits_bind, commits_get, setStore, count, commits_modify,
    commits_ite, commits_pure]
  by_cases hdeleted : 0 < e.store.contents.countP (missing ids)
  · refine ⟨_, ⟨e, e, ⟨rfl, rfl⟩, ⟨⟩, _, rfl, .inl ⟨hdeleted, rfl⟩⟩, rfl, rfl, rfl, ?_⟩
    intro hzero
    omega
  · exact ⟨_, ⟨e, e, ⟨rfl, rfl⟩, ⟨⟩, _, rfl, .inr ⟨hdeleted, trivial, rfl⟩⟩, rfl, rfl, rfl,
      fun _ => rfl⟩

theorem withDeleted_sound {store : Store} (h : store.Sound) (now : ℕ) (ids : List String) :
    (store.withDeleted now ids).Sound where
  keys := by simpa [Store.withDeleted, Function.comp_def, deletionPass_pk] using h.keys
  ids := by simpa [Store.withDeleted, Function.comp_def, deletionPass_id] using h.ids
  below := by simpa [Store.withDeleted, deletionPass_pk] using h.below
  attached := h.attached

/-- The pass leaves the contents alone that the source lists. -/
theorem withDeleted_listed {store : Store} {now : ℕ} {ids : List String} {id : String}
    (hid : id ∈ ids) : Untouched id store (store.withDeleted now ids) where
  row := by
    unfold Store.withDeleted Store.byExternalId
    rw [find?_map_key (deletionPass_id now ids)]
    cases hrow : store.contents.find? fun row => row.externalId == id with
    | none => rfl
    | some row =>
        have hlisted : row.externalId = id := by simpa using List.find?_some hrow
        rw [Option.map_some, deletionPass_kept]
        rw [missing_iff, hlisted]
        exact fun h => h.2 hid
  attachments := fun _ _ => rfl

/-- A full sync that returns: the page loop, and the deletion pass if an id was seen. -/
theorem syncFull_commits {stats : SyncStats}
    (hfetch : ∀ page ∈ provider.pages, provider.failed page = false)
    (h : Commits (syncFull env provider) e stats t) :
    ∃ ids t₁, Commits (processPages env provider provider.pages []) e ids t₁ ∧ stats = t.stats ∧
      ((provider.sourceIds = [] ∧ t = t₁) ∨ (provider.sourceIds ≠ [] ∧
        ∃ u, Commits (softDeleteMissing provider.sourceIds) t₁ u t)) := by
  simp only [syncFull, commits_ite, commits_bind, commits_get, commits_pure] at h
  rcases h with ⟨hzero, e₀, e₀', ⟨rfl, rfl⟩, rfl, rfl⟩ | ⟨-, ids, t₁, hloop, hcases⟩
  · have hempty : provider.pages = [] := by simp [Provider.pages, hzero]
    have hids : provider.sourceIds = [] := by simp [Provider.sourceIds, hempty]
    refine ⟨[], t, ?_, rfl, .inl ⟨hids, rfl⟩⟩
    rw [hempty]
    rfl
  · have hids : ids = provider.sourceIds :=
      (pageLoop_ids hloop).trans (fetchedIds_eq_sourceIds hfetch)
    subst hids
    refine ⟨_, t₁, hloop, ?_⟩
    rcases hcases with ⟨hsome, u, t₂, hdelete, t₃, t₄, ⟨rfl, rfl⟩, rfl, rfl⟩ | ⟨hnone, t₂, t₃,
      ⟨rfl, rfl⟩, rfl, rfl⟩
    · exact ⟨rfl, .inr ⟨hsome, u, hdelete⟩⟩
    · exact ⟨rfl, .inl ⟨not_not.mp hnone, rfl⟩⟩

theorem syncFull_returns_of (h : Returns (processPages env provider provider.pages []) e) :
    Returns (syncFull env provider) e := by
  have hstats : ∀ e' : Engine, Returns (do return (← get).stats : Sync SyncStats) e' :=
    fun e' => ⟨e'.stats, e', rfl⟩
  unfold syncFull
  split
  · exact hstats e
  · refine returns_bind_of_forall h fun ids t => ?_
    split
    · obtain ⟨u, hdelete, -⟩ := softDeleteMissing_spec ids t
      exact returns_bind.mpr ⟨⟨⟩, u, hdelete, hstats u⟩
    · exact hstats t

/-- The items are those of the pages, and their ids those of the source. -/
theorem pageItems_pages : pageItems env provider provider.pages = provider.items env := rfl

theorem items_listed {item : ParsedItem} (h : item ∈ provider.items env) :
    item.externalId ∈ provider.sourceIds := by
  obtain ⟨page, hpage, hitem⟩ := List.mem_flatMap.mp h
  exact List.mem_flatMap.mpr ⟨page, hpage, items_ids (List.mem_map_of_mem hitem)⟩

theorem items_nodup (hids : provider.sourceIds.Nodup) :
    ((provider.items env).map ParsedItem.externalId).Nodup := by
  have hsub : ∀ pages : List ℕ,
      ((pages.flatMap fun page => (provider.page page).items env).map
        ParsedItem.externalId).Sublist (pages.flatMap fun page => (provider.page page).ids) := by
    intro pages
    induction pages with
    | nil => simp
    | cons page rest ih =>
        rw [List.flatMap_cons, List.flatMap_cons, List.map_append]
        refine List.Sublist.append ?_ ih
        unfold Response.items
        split
        case h_1 items hparse => rw [(parse_ids hparse).2]
        case h_2 => simp
  exact hids.sublist (hsub provider.pages)

/-- A content that the source lists, after a full sync that returns: as it was if its
hash is the one of the item, and written otherwise. -/
structure Synced (env : Env) (provider : Provider) (s t : Store) : Prop where
  sound : t.Sound
  skipped : ∀ item ∈ provider.items env, s.unchanged env item = true →
    Untouched item.externalId s t
  wrote : ∀ item ∈ provider.items env, s.unchanged env item = false →
    ∃ row, t.byExternalId item.externalId = some row ∧ ShowsItem env item t row
  deleted : provider.sourceIds ≠ [] → ∀ row ∈ t.contents,
    row.externalId ∉ provider.sourceIds → row.isDeletedInSource = true
  kept : provider.sourceIds = [] → ∀ id, Untouched id s t

/-- Every page can be read and every item stored, page by page. -/
theorem storablePages_iff {store : Store} :
    (∀ page ∈ provider.pages, ∃ items, (provider.page page).parse env = .ok items ∧
        ∀ item ∈ items, Storable env store item) ↔
      provider.Readable env ∧ ∀ item ∈ provider.items env, Storable env store item := by
  constructor
  · intro h
    refine ⟨fun page hpage => ?_, fun item hitem => ?_⟩
    · obtain ⟨items, hparse, -⟩ := h page hpage
      exact ⟨items, hparse⟩
    · obtain ⟨page, hpage, hmem⟩ := List.mem_flatMap.mp hitem
      obtain ⟨items, hparse, hstorable⟩ := h page hpage
      exact hstorable item ((parse_ids hparse).1 ▸ hmem)
  · rintro ⟨hread, hstorable⟩ page hpage
    obtain ⟨items, hparse⟩ := hread page hpage
    refine ⟨items, hparse, fun item hitem => hstorable item ?_⟩
    exact List.mem_flatMap.mpr ⟨page, hpage, (parse_ids hparse).1 ▸ hitem⟩

/-- What follows the page loop leaves what the source lists, and marks the rest. -/
structure Swept (provider : Provider) (s t : Store) : Prop where
  sound : t.Sound
  listed : ∀ id ∈ provider.sourceIds, Untouched id s t
  deleted : provider.sourceIds ≠ [] → ∀ row ∈ t.contents,
    row.externalId ∉ provider.sourceIds → row.isDeletedInSource = true
  idle : provider.sourceIds = [] → t = s

/-- The deletion pass marks every row whose id is not listed. -/
theorem withDeleted_deleted {store : Store} {now : ℕ} {ids : List String} {row : TabyinContent}
    (hrow : row ∈ (store.withDeleted now ids).contents) (hout : row.externalId ∉ ids) :
    row.isDeletedInSource = true := by
  obtain ⟨old, -, rfl⟩ := List.mem_map.mp hrow
  rw [deletionPass_id] at hout
  unfold deletionPass
  split
  case isTrue => rfl
  case isFalse hkept =>
    rw [missing_iff] at hkept
    by_contra hpresent
    exact hkept ⟨Bool.eq_false_iff.mpr hpresent, hout⟩

theorem swept_of_cases {t₁ : Engine} (hsound : t₁.store.Sound)
    (hcases : (provider.sourceIds = [] ∧ t = t₁) ∨ (provider.sourceIds ≠ [] ∧
      ∃ u, Commits (softDeleteMissing provider.sourceIds) t₁ u t)) :
    Swept provider t₁.store t.store := by
  rcases hcases with ⟨hnil, rfl⟩ | ⟨hsome, u, hdelete⟩
  · exact ⟨hsound, fun id _ => ⟨rfl, fun _ _ => rfl⟩, fun h => absurd hnil h, fun _ => rfl⟩
  · obtain ⟨t', hdelete', hstore, -⟩ := softDeleteMissing_spec provider.sourceIds t₁
    obtain ⟨-, rfl⟩ := hdelete'.unique hdelete
    rw [hstore]
    exact ⟨withDeleted_sound hsound _ _, fun id hid => withDeleted_listed hid,
      fun _ row hrow hout => withDeleted_deleted hrow hout, fun hnil => absurd hnil hsome⟩

/-- The two halves of a full sync, one after the other. -/
theorem Wrote.synced {s s₁ t : Store} (hids : provider.sourceIds.Nodup)
    (hwrote : Wrote env (s.written env (provider.items env)) s s₁)
    (hswept : Swept provider s₁ t) : Synced env provider s t where
  sound := hswept.sound
  skipped := by
    intro item hitem hsame
    refine (hwrote.others _ fun hin => ?_).trans (hswept.listed _ (items_listed hitem))
    obtain ⟨other, hother, heq⟩ := List.mem_map.mp hin
    obtain ⟨hmem, hchanged⟩ := List.mem_filter.mp hother
    have hitems := List.inj_on_of_nodup_map (items_nodup hids) hmem hitem heq
    rw [hitems, hsame] at hchanged
    cases hchanged
  wrote := by
    intro item hitem hchanged
    obtain ⟨row, hrow, hshows⟩ := hwrote.shown item
      (List.mem_filter.mpr ⟨hitem, by rw [hchanged]; rfl⟩)
    have hsame := hswept.listed _ (items_listed hitem)
    exact ⟨row, hsame.row.trans hrow, hshows.untouched hrow hsame⟩
  deleted := hswept.deleted
  kept := by
    intro hnil id
    have hnoItem : provider.items env = [] := by
      refine List.eq_nil_iff_forall_not_mem.mpr fun item hitem => ?_
      have hlisted := items_listed hitem
      rw [hnil] at hlisted
      cases hlisted
    rw [hswept.idle hnil]
    refine hwrote.others id ?_
    rw [hnoItem]
    simp [Store.written]

variable (env) in
/-- **A full sync.** It returns exactly when every page can be read and every item
stored. -/
theorem syncFull_spec (hsound : e.store.Sound)
    (hfetch : ∀ page ∈ provider.pages, provider.failed page = false)
    (hids : provider.sourceIds.Nodup) :
    (Returns (syncFull env provider) e ↔
      provider.Readable env ∧ ∀ item ∈ provider.items env, Storable env e.store item) ∧
      ∀ stats t, Commits (syncFull env provider) e stats t →
        Synced env provider e.store t.store := by
  obtain ⟨hreturns, hwrites⟩ := processPages_spec env hfetch hids hsound []
  refine ⟨?_, ?_⟩
  · rw [← storablePages_iff, ← hreturns]
    constructor
    · rintro ⟨stats, t, h⟩
      obtain ⟨ids, t₁, hloop, -⟩ := syncFull_commits hfetch h
      exact ⟨ids, t₁, hloop⟩
    · exact syncFull_returns_of
  · intro stats t h
    obtain ⟨ids, t₁, hloop, -, hcases⟩ := syncFull_commits hfetch h
    have hwrote := hwrites _ _ hloop
    rw [pageItems_pages] at hwrote
    exact hwrote.synced hids (swept_of_cases hwrote.sound hcases)

end FullSync

/-! ## Convergence -/

/-- The tables are as the source shows them: each item has one row that shows it, and
the other contents of the source are marked as deleted. -/
structure Mirrors (env : Env) (provider : Provider) (store : Store) : Prop where
  items : ∀ item ∈ provider.items env,
    (store.contents.map TabyinContent.externalId).count item.externalId = 1 ∧
      ∃ row ∈ store.contents, row.externalId = item.externalId ∧ Shows store item row
  others : ∀ row ∈ store.contents, row.origin = .external →
    row.externalId ∉ provider.sourceIds → row.isDeletedInSource = true

/-- A full sync returns, reports no change and changes no row. -/
def SyncIdle (env : Env) (provider : Provider) (store : Store) (now : ℕ) : Prop :=
  ∃ stats t, Commits (syncFull env provider) (Engine.start store now) stats t ∧
    stats.created = 0 ∧ stats.updated = 0 ∧ stats.softDeleted = 0 ∧ t.store = store

/-- A full sync returns and leaves the tables as the source shows them, and one right
after it is idle. -/
def Converges (env : Env) (provider : Provider) (store : Store) (now later : ℕ) : Prop :=
  ∃ stats t, Commits (syncFull env provider) (Engine.start store now) stats t ∧
    Mirrors env provider t.store ∧ SyncIdle env provider t.store later

/-- What the sync makes of an item shows it: the database takes an item that is new or
changed, and the row of an item that is skipped shows it already. -/
def Settled (env : Env) (store : Store) (item : ParsedItem) : Prop :=
  match store.byExternalId item.externalId with
  | none => item.AcceptedNew env
  | some row =>
      if row.source.contentHash = computeContentHash env item.rawPayload then
        Shows store item row
      else item.Accepted env

section Converges

variable {env : Env} {provider : Provider} {store : Store}

theorem Quiet.trans {e t u : Engine} (het : Quiet e t) (htu : Quiet t u) : Quiet e u where
  store := htu.store.trans het.store
  created := htu.created.trans het.created
  updated := htu.updated.trans het.updated
  softDeleted := htu.softDeleted.trans het.softDeleted

theorem processPages_quiet {pages : List ℕ} {sourceIds ids : List String} {e t : Engine}
    (hfetch : ∀ page ∈ pages, provider.failed page = false)
    (hsame : ∀ item ∈ pageItems env provider pages, e.store.unchanged env item = true)
    (h : Commits (processPages env provider pages sourceIds) e ids t) : Quiet e t := by
  induction pages generalizing e sourceIds with
  | nil =>
      obtain ⟨-, rfl⟩ := commits_pure.mp h
      exact ⟨rfl, rfl, rfl, rfl⟩
  | cons page rest ih =>
      rw [List.forall_mem_cons] at hfetch
      simp only [pageItems, List.flatMap_cons, List.forall_mem_append] at hsame
      unfold processPages at h
      obtain ⟨pageIds, t₁, hpage, hrest⟩ := commits_bind.mp h
      obtain ⟨items, hparse, e₁, hstart, hcases⟩ := processPage_commits hfetch.1 hpage
      rw [(parse_ids hparse).1] at hsame
      have hfirst : Quiet e t₁ := by
        rcases hcases with ⟨-, rfl⟩ | ⟨u, hupsert⟩
        · exact hstart
        · refine hstart.trans (upsertBatch_quiet hupsert ?_)
          rw [hstart.store]
          exact hsame.1
      refine hfirst.trans (ih hfetch.2 ?_ hrest)
      rw [hfirst.store]
      exact hsame.2

/-- A full sync over tables that it has nothing to change in. -/
theorem syncFull_idle (hsound : store.Sound)
    (hfetch : ∀ page ∈ provider.pages, provider.failed page = false)
    (hids : provider.sourceIds.Nodup) (hread : provider.Readable env)
    (hsame : ∀ item ∈ provider.items env, store.unchanged env item = true)
    (hdeleted : provider.sourceIds ≠ [] → ∀ row ∈ store.contents,
      row.externalId ∉ provider.sourceIds → row.isDeletedInSource = true) (now : ℕ) :
    SyncIdle env provider store now := by
  have hstorable : ∀ item ∈ provider.items env, Storable env store item := by
    intro item hitem
    have hunchanged := hsame item hitem
    unfold Store.unchanged at hunchanged
    unfold Storable
    cases hrow : store.byExternalId item.externalId with
    | none => simp [hrow] at hunchanged
    | some row => exact .inl (by simpa [hrow] using hunchanged)
  obtain ⟨stats, t, h⟩ := (syncFull_spec env (e := Engine.start store now) hsound hfetch hids).1.mpr
    ⟨hread, hstorable⟩
  obtain ⟨ids, t₁, hloop, rfl, hcases⟩ := syncFull_commits hfetch h
  have hquiet : Quiet (Engine.start store now) t₁ := processPages_quiet hfetch hsame hloop
  refine ⟨t.stats, t, h, ?_⟩
  rcases hcases with ⟨-, rfl⟩ | ⟨hsome, u, hdelete⟩
  · exact ⟨hquiet.created, hquiet.updated, hquiet.softDeleted, hquiet.store⟩
  · obtain ⟨t', hdelete', hstore, hcreated, hupdated, hcount⟩ :=
      softDeleteMissing_spec provider.sourceIds t₁
    obtain ⟨-, rfl⟩ := hdelete'.unique hdelete
    have hnone : ∀ row ∈ store.contents, ¬ missing provider.sourceIds row = true := by
      intro row hrow hmissing
      obtain ⟨hpresent, hout⟩ := missing_iff.mp hmissing
      rw [hdeleted hsome row hrow hout] at hpresent
      cases hpresent
    have hzero : t₁.store.contents.countP (missing provider.sourceIds) = 0 := by
      rw [hquiet.store]
      exact List.countP_eq_zero.mpr hnone
    refine ⟨hcreated.trans hquiet.created, hupdated.trans hquiet.updated,
      (hcount hzero).trans hquiet.softDeleted, ?_⟩
    rw [hstore, hquiet.store]
    have hrows : store.contents.map (deletionPass t₁.now provider.sourceIds) = store.contents :=
      (List.map_congr_left fun row hrow => deletionPass_kept (hnone row hrow)).trans (List.map_id _)
    simp only [Engine.start, Store.withDeleted, hrows]

theorem unchanged_iff {item : ParsedItem} :
    store.unchanged env item = true ↔ ∃ row, store.byExternalId item.externalId = some row ∧
      row.source.contentHash = computeContentHash env item.rawPayload := by
  unfold Store.unchanged
  cases store.byExternalId item.externalId with
  | none => simp
  | some row => simp

theorem Shows.untouched {item : ParsedItem} {s t : Store} {row : TabyinContent}
    (h : Shows s item row) (hrow : s.byExternalId item.externalId = some row)
    (hsame : Untouched item.externalId s t) : Shows t item row :=
  { h with urls := by rw [hsame.attachments row hrow, h.urls] }

/-- After a full sync every item is skipped by the next one. -/
theorem Synced.unchanged {t : Store} (h : Synced env provider store t) {item : ParsedItem}
    (hitem : item ∈ provider.items env) : t.unchanged env item = true := by
  cases hsame : store.unchanged env item with
  | true => rw [unchanged_congr (h.skipped item hitem hsame).row, hsame]
  | false =>
      obtain ⟨row, hrow, hshows⟩ := h.wrote item hitem hsame
      exact unchanged_iff.mpr ⟨row, hrow, (sourceColumns_ok hshows.source).hash⟩

/-- An item is settled when it can be stored and, if it is skipped, its row shows it. -/
theorem settled_iff {item : ParsedItem} :
    Settled env store item ↔ Storable env store item ∧
      ∀ row, store.byExternalId item.externalId = some row →
        row.source.contentHash = computeContentHash env item.rawPayload →
        Shows store item row := by
  unfold Settled Storable
  cases hrow : store.byExternalId item.externalId with
  | none => simp
  | some row =>
      by_cases hhash : row.source.contentHash = computeContentHash env item.rawPayload
      · simp [hhash]
      · simp [hhash]

/-- After a full sync a settled item is shown. -/
theorem Synced.shows {t : Store} (h : Synced env provider store t) {item : ParsedItem}
    (hitem : item ∈ provider.items env) (hsettled : Settled env store item) :
    ∃ row, t.byExternalId item.externalId = some row ∧ Shows t item row := by
  cases hsame : store.unchanged env item with
  | true =>
      have huntouched := h.skipped item hitem hsame
      obtain ⟨row, hrow, hhash⟩ := unchanged_iff.mp hsame
      have hshows := (settled_iff.mp hsettled).2 row hrow hhash
      exact ⟨row, huntouched.row.trans hrow, hshows.untouched hrow huntouched⟩
  | false =>
      obtain ⟨row, hrow, hshows⟩ := h.wrote item hitem hsame
      exact ⟨row, hrow, hshows.shows (items_ordered hitem)⟩

/-- An item that is shown after the full sync was settled before it. -/
theorem Synced.settled {t : Store} (h : Synced env provider store t) {item : ParsedItem}
    (hitem : item ∈ provider.items env) (hstorable : Storable env store item)
    (hshown : ∃ row ∈ t.contents, row.externalId = item.externalId ∧ Shows t item row) :
    Settled env store item := by
  refine settled_iff.mpr ⟨hstorable, fun row hrow hhash => ?_⟩
  have hsame := h.skipped item hitem (unchanged_iff.mpr ⟨row, hrow, hhash⟩)
  obtain ⟨row', hmem, hid, hshows⟩ := hshown
  have hlookup := h.sound.byExternalId_iff.mpr ⟨hmem, hid⟩
  rw [hsame.row, hrow, Option.some.injEq] at hlookup
  rw [← hlookup] at hshows
  exact { hshows with urls := by rw [← hsame.attachments row hrow, hshows.urls] }

/-- A full sync that finds every item settled leaves the tables as the source shows them. -/
theorem Synced.mirrors {t : Store} (h : Synced env provider store t)
    (hsettled : ∀ item ∈ provider.items env, Settled env store item)
    (hnothing : provider.sourceIds = [] → ∀ row ∈ store.contents, row.origin = .external →
      row.isDeletedInSource = true) : Mirrors env provider t where
  items := by
    intro item hitem
    obtain ⟨row, hrow, hshows⟩ := h.shows hitem (hsettled item hitem)
    obtain ⟨hmem, hid⟩ := byExternalId_some hrow
    refine ⟨List.count_eq_one_of_mem h.sound.ids ?_, row, hmem, hid, hshows⟩
    rw [← hid]
    exact List.mem_map_of_mem hmem
  others := by
    intro row hrow hexternal hout
    by_cases hnil : provider.sourceIds = []
    · have hlookup := h.sound.byExternalId_iff.mpr ⟨hrow, rfl⟩
      rw [(h.kept hnil _).row] at hlookup
      exact hnothing hnil row (byExternalId_some hlookup).1 hexternal
    · exact h.deleted hnil row hrow hout

/-- **Convergence.** For a source whose pages can all be fetched and whose ids are
distinct, a full sync converges exactly when every page can be read, every item is
settled, and, where the source lists no id at all, no content was left to delete. -/
theorem fullSync_converges_iff (env : Env) (provider : Provider) (store : Store) (now later : ℕ)
    (hsound : store.Sound) (hfetch : ∀ page ∈ provider.pages, provider.failed page = false)
    (hids : provider.sourceIds.Nodup) :
    Converges env provider store now later ↔
      provider.Readable env ∧
        (provider.sourceIds = [] → ∀ row ∈ store.contents, row.origin = .external →
          row.isDeletedInSource = true) ∧
        ∀ item ∈ provider.items env, Settled env store item := by
  obtain ⟨hreturns, hsynced⟩ :=
    syncFull_spec env (e := Engine.start store now) hsound hfetch hids
  constructor
  · rintro ⟨stats, t, h, hmirrors, -⟩
    obtain ⟨hread, hstorable⟩ := hreturns.mp ⟨stats, t, h⟩
    have hsync : Synced env provider store t.store := hsynced stats t h
    refine ⟨hread, fun hnil row hrow hexternal => ?_, fun item hitem => ?_⟩
    · -- nothing was listed, so the rows are those from before
      have hlookup : t.store.byExternalId row.externalId = some row :=
        (hsync.kept hnil _).row.trans (hsound.byExternalId_iff.mpr ⟨hrow, rfl⟩)
      exact hmirrors.others row (byExternalId_some hlookup).1 hexternal (by simp [hnil])
    · exact hsync.settled hitem (hstorable item hitem) (hmirrors.items item hitem).2
  · rintro ⟨hread, hnothing, hsettled⟩
    obtain ⟨stats, t, h⟩ := hreturns.mpr
      ⟨hread, fun item hitem => (settled_iff.mp (hsettled item hitem)).1⟩
    have hsync : Synced env provider store t.store := hsynced stats t h
    refine ⟨stats, t, h, hsync.mirrors hsettled hnothing, ?_⟩
    exact syncFull_idle hsync.sound hfetch hids hread (fun item hitem => hsync.unchanged hitem)
      hsync.deleted later

end Converges

/-- The hashes of the items below, which differ in their titles alone. -/
def titleEnv : Env :=
  { sampleEnv with
    digest := fun fields =>
      if fields.title = some "Title for ext-A" then
        "8d03cc7fec78dbcf286381a700121f0fa0c1c7e5f79a8be8742ec753bd1afa2f"
      else if fields.title = some "Title for ext-B" then
        "9245415ef9893098818901eaba65394cdaa8a6582f1b5246891bb1e1af698e23"
      else "ff120ff82d728d81dfb2efc4506ab01503d17dec4bc5cafc304602a45cfb1a2c" }

theorem titleEnv_digest (fields : SignificantFields) : "" ≠ titleEnv.digest fields := by
  unfold titleEnv
  dsimp only
  split
  · decide
  · split <;> decide

theorem sampleStore_sound (externalId : String) (origin : ContentOrigin)
    (hid : externalId ≠ "ext-C") : (sampleStore externalId origin).Sound where
  keys := by simp [sampleStore, sampleRow]
  ids := by simpa [sampleStore, sampleRow] using hid
  below := by simp [sampleStore, sampleRow]
  attached := by simp [sampleStore]

theorem sampleProvider_readable (failed : ℕ → Bool) :
    (sampleProvider failed).Readable titleEnv := by
  intro page hpage
  have hmem : page ∈ [1, 2] := hpage
  obtain rfl | rfl : page = 1 ∨ page = 2 := by simpa using hmem
  · exact ⟨_, rfl⟩
  · exact ⟨_, rfl⟩

theorem sampleProvider_accepted (failed : ℕ → Bool) :
    ∀ item ∈ (sampleProvider failed).items titleEnv, item.AcceptedNew titleEnv := by
  intro item hitem
  have hitems : ∃ a b, (sampleProvider failed).items titleEnv = [a, b] ∧
      a.AcceptedNew titleEnv ∧ b.AcceptedNew titleEnv :=
    ⟨_, _, rfl, ⟨⟨_, rfl⟩, ⟨_, rfl⟩, fun _ h => (List.not_mem_nil h).elim⟩,
      ⟨⟨_, rfl⟩, ⟨_, rfl⟩, fun _ h => (List.not_mem_nil h).elim⟩⟩
  obtain ⟨a, b, heq, ha, hb⟩ := hitems
  rw [heq] at hitem
  obtain rfl | rfl : item = a ∨ item = b := by simpa using hitem
  · exact ha
  · exact hb

/-- No stored hash is the one of an item: both items are written, one over a row. -/
theorem sampleStore_settled (item : ParsedItem) (h : item.AcceptedNew titleEnv) :
    Settled titleEnv (sampleStore "ext-A" .external) item := by
  unfold Settled
  cases hrow : (sampleStore "ext-A" .external).byExternalId item.externalId with
  | none => exact h
  | some row =>
      have hhash : row.source.contentHash = "" := by
        obtain rfl | rfl : row = sampleRow 1 "ext-A" .external ∨ row = sampleRow 2 "ext-C" .external :=
          by simpa [sampleStore] using (byExternalId_some hrow).1
        · rfl
        · rfl
      dsimp only
      rw [if_neg]
      · exact h.accepted
      · rw [hhash]
        exact titleEnv_digest _

/-- A changed content, a new one, and one that is gone from the source. -/
theorem fullSync_converges_changed :
    Converges titleEnv (sampleProvider fun _ => false) (sampleStore "ext-A" .external) 10 20 :=
  (fullSync_converges_iff titleEnv (sampleProvider fun _ => false) _ 10 20
    (sampleStore_sound _ _ (by decide)) (by simp [sampleProvider]) (by decide)).mpr
    ⟨sampleProvider_readable _, by decide, fun item hitem =>
      sampleStore_settled item (sampleProvider_accepted _ item hitem)⟩

/-- The source without the first of its contents. -/
def shrunkProvider : Provider where
  totalPages := 1
  page := fun _ => ⟨.value (.value [sampleItem "ext-B" "Title for ext-B"])⟩
  failed := fun _ => false

/-- Two contents were synced, and then one of them was gone from the source. -/
def shrunkStore : Store :=
  syncedStore titleEnv shrunkProvider
    (syncedStore titleEnv (sampleProvider fun _ => false) ⟨[], [], 1, 1⟩ 10) 20

/-- When it is listed again as it was, it stays deleted. -/
theorem relisted_content_stays_deleted :
    ¬ Converges titleEnv (sampleProvider fun _ => false) shrunkStore 30 40 := by
  rintro ⟨stats, t, h, hmirrors, -⟩
  have hstore : syncedStore titleEnv (sampleProvider fun _ => false) shrunkStore 30 = t.store :=
    congrArg Engine.store h.after_eq
  have hlisted : ∃ item ∈ (sampleProvider fun _ => false).items titleEnv,
      item.externalId = "ext-A" := ⟨_, List.mem_cons_self, rfl⟩
  obtain ⟨item, hitem, hid⟩ := hlisted
  obtain ⟨-, row, hrow, hrowId, hshows⟩ := hmirrors.items item hitem
  have hdeleted : ∀ row ∈ (syncedStore titleEnv (sampleProvider fun _ => false)
      shrunkStore 30).contents, row.externalId = "ext-A" → row.isDeletedInSource = true := by
    decide +kernel
  rw [hstore] at hdeleted
  have hgone := hdeleted row hrow (hrowId.trans hid)
  rw [hshows.present] at hgone
  cases hgone

end SetadJang.Tabyin
