import SetadJang.Tabyin.Convergence

/-!
# Where an incremental sync stops

`sync_incremental` stops after `MAX_UNCHANGED_PAGES` pages in a row that created and updated
nothing.  It compares two counters before and after each page.  A page without news leaves them
alone, and so does a page that could not be fetched.
-/

namespace SetadJang.Tabyin

open SetadJang.Framework SetadJang.Framework.Txn

/-! ## The pages of a run -/

/-- A page that the loop processed, and the engine as it found it. -/
structure Visit where
  page : ℕ
  found : Engine

/-- A page loop that returns: the pages it processed in turn, and the engine it leaves. -/
inductive Visited (env : Env) (provider : Provider) :
    List ℕ → ℕ → Engine → List Visit → Engine → Prop
  | done {streak : ℕ} {e : Engine} : Visited env provider [] streak e [] e
  | stop {page streak : ℕ} {pages : List ℕ} {e t : Engine} {ids : Option (List String)}
      (hpage : Commits (processPage env provider page) e ids t)
      (hsame : sameCounters e.stats t.stats = true) (hstop : maxUnchangedPages ≤ streak + 1) :
      Visited env provider (page :: pages) streak e [⟨page, e⟩] t
  | quiet {page streak : ℕ} {pages : List ℕ} {e t u : Engine} {ids : Option (List String)}
      {visits : List Visit} (hpage : Commits (processPage env provider page) e ids t)
      (hsame : sameCounters e.stats t.stats = true) (hgo : ¬ maxUnchangedPages ≤ streak + 1)
      (hrest : Visited env provider pages (streak + 1) t visits u) :
      Visited env provider (page :: pages) streak e (⟨page, e⟩ :: visits) u
  | news {page streak : ℕ} {pages : List ℕ} {e t u : Engine} {ids : Option (List String)}
      {visits : List Visit} (hpage : Commits (processPage env provider page) e ids t)
      (hnews : sameCounters e.stats t.stats = false)
      (hrest : Visited env provider pages 0 t visits u) :
      Visited env provider (page :: pages) streak e (⟨page, e⟩ :: visits) u

section Visited

variable {env : Env} {provider : Provider}

/-- The loop of `sync_incremental` returns along its visits, and in no other way. -/
theorem processUntilUnchanged_iff {pages : List ℕ} {streak : ℕ} {e t : Engine} {u : PUnit} :
    Commits (processUntilUnchanged env provider pages streak) e u t ↔
      ∃ visits, Visited env provider pages streak e visits t := by
  constructor
  · intro h
    induction pages generalizing streak e with
    | nil =>
        obtain ⟨-, rfl⟩ := commits_pure.mp h
        exact ⟨[], .done⟩
    | cons page pages ih =>
        simp only [processUntilUnchanged, commits_bind, commits_get, commits_ite, commits_pure] at h
        obtain ⟨e₀, e₁, ⟨rfl, rfl⟩, ids, e₂, hpage, e₃, e₄, ⟨rfl, rfl⟩, h⟩ := h
        rcases h with ⟨hsame, ⟨hstop, -, rfl⟩ | ⟨hgo, hrest⟩⟩ | ⟨hnews, hrest⟩
        · exact ⟨_, .stop hpage hsame hstop⟩
        · obtain ⟨visits, hvisits⟩ := ih hrest
          exact ⟨_, .quiet hpage hsame hgo hvisits⟩
        · obtain ⟨visits, hvisits⟩ := ih hrest
          exact ⟨_, .news hpage (Bool.eq_false_of_not_eq_true hnews) hvisits⟩
  · rintro ⟨visits, h⟩
    induction h with
    | done => exact commits_pure.mpr ⟨rfl, rfl⟩
    | @stop page streak pages e t ids hpage hsame hstop =>
        simp only [processUntilUnchanged, commits_bind, commits_get, commits_ite, commits_pure]
        exact ⟨e, e, ⟨rfl, rfl⟩, ids, t, hpage, t, t, ⟨rfl, rfl⟩,
          .inl ⟨hsame, .inl ⟨hstop, trivial, rfl⟩⟩⟩
    | @quiet page streak pages e t u' ids visits hpage hsame hgo hrest ih =>
        simp only [processUntilUnchanged, commits_bind, commits_get, commits_ite, commits_pure]
        exact ⟨e, e, ⟨rfl, rfl⟩, ids, t, hpage, t, t, ⟨rfl, rfl⟩, .inl ⟨hsame, .inr ⟨hgo, ih⟩⟩⟩
    | @news page streak pages e t u' ids visits hpage hnews hrest ih =>
        simp only [processUntilUnchanged, commits_bind, commits_get, commits_ite, commits_pure]
        refine ⟨e, e, ⟨rfl, rfl⟩, ids, t, hpage, t, t, ⟨rfl, rfl⟩, .inr ⟨?_, ih⟩⟩
        rw [hnews]
        exact Bool.false_ne_true

/-- A run of `sync_incremental` is its loop over all pages of the source. -/
theorem syncIncremental_iff {e t : Engine} {stats : SyncStats} :
    Commits (syncIncremental env provider) e stats t ↔
      stats = t.stats ∧ ∃ visits, Visited env provider provider.pages 0 e visits t := by
  have hnone : provider.totalPages = 0 → provider.pages = [] := fun hzero => by
    rw [Provider.pages, hzero]
    rfl
  by_cases hzero : provider.totalPages = 0
  · have hloop := @processUntilUnchanged_iff env provider [] 0 e t ⟨⟩
    rw [hnone hzero, ← hloop]
    unfold syncIncremental processUntilUnchanged
    rw [if_pos hzero]
    simp only [commits_bind, commits_get, commits_pure]
    constructor
    · rintro ⟨e₀, e₁, ⟨rfl, rfl⟩, rfl, rfl⟩
      exact ⟨rfl, trivial, rfl⟩
    · rintro ⟨rfl, -, rfl⟩
      exact ⟨_, _, ⟨rfl, rfl⟩, rfl, rfl⟩
  · rw [← @processUntilUnchanged_iff env provider provider.pages 0 e t ⟨⟩]
    unfold syncIncremental
    rw [if_neg hzero]
    simp only [commits_bind, commits_get, commits_pure]
    constructor
    · rintro ⟨u, e₁, hloop, e₂, e₃, ⟨rfl, rfl⟩, rfl, rfl⟩
      exact ⟨rfl, hloop⟩
    · rintro ⟨rfl, hloop⟩
      exact ⟨⟨⟩, t, hloop, t, t, ⟨rfl, rfl⟩, rfl, rfl⟩

/-- The pages come in the order of the source. -/
theorem Visited.pages_in_order {pages : List ℕ} {streak : ℕ} {e t : Engine} {visits : List Visit}
    (h : Visited env provider pages streak e visits t) : visits.map Visit.page <+: pages := by
  induction h with
  | done => exact List.nil_prefix
  | stop => exact List.cons_prefix_cons.mpr ⟨rfl, List.nil_prefix⟩
  | quiet hpage hsame hgo hrest ih => exact List.cons_prefix_cons.mpr ⟨rfl, ih⟩
  | news hpage hnews hrest ih => exact List.cons_prefix_cons.mpr ⟨rfl, ih⟩

/-- The page changed neither counter. -/
def Visit.Silent (env : Env) (provider : Provider) (visit : Visit) : Prop :=
  ∃ ids t, Commits (processPage env provider visit.page) visit.found ids t ∧
    sameCounters visit.found.stats t.stats = true

/-- The last pages of a run. -/
def lastVisits (visits : List Visit) : List Visit :=
  visits.drop (visits.length - maxUnchangedPages)

/-- A loop that ends early has just seen its streak of pages that changed no counter. -/
theorem Visited.silent {pages : List ℕ} {streak : ℕ} {e t : Engine} {visits : List Visit}
    (h : Visited env provider pages streak e visits t) (hearly : visits.length < pages.length) :
    maxUnchangedPages ≤ streak + visits.length ∧
      ∀ visit ∈ lastVisits visits, visit.Silent env provider := by
  unfold lastVisits
  induction h with
  | done => exact absurd hearly (Nat.lt_irrefl _)
  | @stop page streak pages e t ids hpage hsame hstop =>
      refine ⟨hstop, fun visit hvisit => ?_⟩
      obtain rfl := List.mem_singleton.mp (List.mem_of_mem_drop hvisit)
      exact ⟨ids, t, hpage, hsame⟩
  | @quiet page streak pages e t u ids visits hpage hsame hgo hrest ih =>
      obtain ⟨hstreak, hsilent⟩ := ih (Nat.lt_of_succ_lt_succ hearly)
      rw [List.length_cons]
      refine ⟨by omega, fun visit hvisit => ?_⟩
      by_cases hlong : maxUnchangedPages ≤ visits.length
      · rw [Nat.sub_add_comm hlong, List.drop_succ_cons] at hvisit
        exact hsilent visit hvisit
      · rw [Nat.sub_eq_zero_of_le (by omega), List.drop_zero] at hsilent
        rcases List.mem_cons.mp (List.mem_of_mem_drop hvisit) with rfl | hvisit
        · exact ⟨ids, t, hpage, hsame⟩
        · exact hsilent visit hvisit
  | @news page streak pages e t u ids visits hpage hnews hrest ih =>
      obtain ⟨hstreak, hsilent⟩ := ih (Nat.lt_of_succ_lt_succ hearly)
      rw [Nat.zero_add] at hstreak
      rw [List.length_cons]
      refine ⟨by omega, fun visit hvisit => ?_⟩
      rw [Nat.sub_add_comm hstreak, List.drop_succ_cons] at hvisit
      exact hsilent visit hvisit

end Visited

/-! ## What the counters tell -/

/-- The counters are as they were. -/
def SameStats (e t : Engine) : Prop := t.stats = e.stats

theorem sameStats_refl (e : Engine) : SameStats e e := rfl

theorem sameStats_trans (e t u : Engine) (het : SameStats e t) (htu : SameStats t u) :
    SameStats e u := htu.trans het

theorem sameStats_setStore (f : Store → Store) : Keeps SameStats (setStore f) :=
  keeps_modify fun _ => rfl

theorem sameStats_insertContents (env : Env) (items : List ParsedItem) :
    Keeps SameStats (insertContents env items) := by
  induction items with
  | nil => exact keeps_pure sameStats_refl _
  | cons item rest ih =>
      refine keeps_bind sameStats_trans ?_ fun row => ?_
      · refine keeps_bind sameStats_trans (keeps_get sameStats_refl) fun e => ?_
        refine keeps_bind sameStats_trans (keeps_fromExcept sameStats_refl _) fun row => ?_
        exact keeps_bind sameStats_trans (sameStats_setStore _) fun _ => keeps_pure sameStats_refl _
      · exact keeps_bind sameStats_trans ih fun rows => keeps_pure sameStats_refl _

theorem sameStats_insertAttachments {α : Type} (key : α → ℕ) (atts : α → List ParsedAttachment)
    (blocks : List α) :
    Keeps SameStats (forEach (fun a => forEach (insertAttachment (key a)) (atts a)) blocks) := by
  refine forEach_keeps sameStats_refl sameStats_trans fun a _ => ?_
  refine forEach_keeps sameStats_refl sameStats_trans fun att _ => ?_
  refine keeps_bind sameStats_trans (keeps_get sameStats_refl) fun e => ?_
  refine keeps_bind sameStats_trans (keeps_fromExcept sameStats_refl _) fun row => ?_
  exact sameStats_setStore _

theorem sameStats_updateContents (env : Env) (pick : TabyinContent × ParsedItem → ParsedItem)
    (entries : List (TabyinContent × ParsedItem)) :
    Keeps SameStats
      (forEach (fun entry => updateContent env entry.1.pk (pick entry)) entries) := by
  refine forEach_keeps sameStats_refl sameStats_trans fun entry _ => ?_
  refine keeps_bind sameStats_trans (keeps_get sameStats_refl) fun e => ?_
  refine keeps_bind sameStats_trans (keeps_fromExcept sameStats_refl _) fun source => ?_
  exact sameStats_setStore _

theorem stats_of_commits {α : Type} {m : Sync α} {e t : Engine} {a : α}
    (h : Commits m e a t) (hm : Keeps SameStats m) : t.stats = e.stats := by
  have hkeeps : (after m e).stats = e.stats := hm e
  rwa [h.after_eq] at hkeeps

section Counters

variable {env : Env} {e t : Engine} {u : PUnit}

theorem bulkCreate_counts {items : List ParsedItem} (h : Commits (bulkCreate env items) e u t) :
    t.stats = { e.stats with created := e.stats.created + items.length } := by
  simp only [bulkCreate, count, commits_bind, commits_atomic, commits_pure, commits_modify] at h
  obtain ⟨n, e₂, ⟨rows, e₁, hrows, v, e₃, hatts, rfl, rfl⟩, rfl⟩ := h
  have hstats := (stats_of_commits hatts (sameStats_insertAttachments _ _ _)).trans
    (stats_of_commits hrows (sameStats_insertContents env items))
  obtain ⟨-, -, -, hids, -⟩ := insertContents_commits hrows
  have hlength : rows.length = items.length := by
    simpa using congrArg List.length hids
  simp only [hstats, hlength]

theorem bulkUpdate_counts {entries : List (TabyinContent × ParsedItem)}
    (h : Commits (bulkUpdate env entries) e u t) :
    t.stats = { e.stats with updated := e.stats.updated + entries.length } := by
  simp only [bulkUpdate, count, setStore, commits_bind, commits_atomic, commits_modify] at h
  obtain ⟨v, e₂, ⟨w, e₁, hrows, x, e₃, rfl, hatts⟩, rfl⟩ := h
  have hupdates := stats_of_commits hrows (sameStats_updateContents env _ entries)
  have hstats := stats_of_commits hatts (sameStats_insertAttachments _ _ _)
  simp only [hstats, hupdates]

/-- A batch changes neither counter exactly when it finds every hash as it is stored. -/
theorem upsertBatch_sameCounters_iff {items : List ParsedItem}
    (h : Commits (upsertBatch env items) e u t) :
    sameCounters e.stats t.stats = true ↔ ∀ item ∈ items, e.store.unchanged env item = true := by
  refine ⟨fun hsame => ?_, fun hsame => ?_⟩
  · obtain ⟨e₁, e₂, hquiet, hnew, hchanged⟩ := upsertBatch_commits h
    have hcreated : t.stats.created =
        e.stats.created + (newItems e.store.byExternalId items).length ∧
        t.stats.updated =
          e.stats.updated + (items.filterMap (changedEntry env e.store.byExternalId)).length := by
      rw [← hquiet.created, ← hquiet.updated]
      rcases hnew with ⟨hnil, rfl⟩ | ⟨-, v, hnew⟩ <;>
        rcases hchanged with ⟨hnil', rfl⟩ | ⟨-, hchanged⟩
      · rw [hnil, hnil']
        exact ⟨rfl, rfl⟩
      · rw [hnil, bulkUpdate_counts hchanged]
        exact ⟨rfl, rfl⟩
      · rw [hnil', bulkCreate_counts hnew]
        exact ⟨rfl, rfl⟩
      · rw [bulkUpdate_counts hchanged, bulkCreate_counts hnew]
        exact ⟨rfl, rfl⟩
    simp only [sameCounters, Bool.and_eq_true, beq_iff_eq] at hsame
    have hnone : newItems e.store.byExternalId items = [] ∧
        items.filterMap (changedEntry env e.store.byExternalId) = [] := by
      rw [← List.length_eq_zero_iff, ← List.length_eq_zero_iff]
      omega
    intro item hitem
    by_contra hwritten
    have hmem : item ∈ e.store.written env items :=
      List.mem_filter.mpr ⟨hitem, by simpa using hwritten⟩
    rcases (mem_written.mp hmem).2 with hfree | ⟨row, hentry⟩
    · exact List.not_mem_nil (hnone.1 ▸ mem_newItems.mpr ⟨hitem, hfree⟩)
    · exact List.not_mem_nil (hnone.2 ▸ List.mem_filterMap.mpr ⟨item, hitem, hentry⟩)
  · have hquiet := upsertBatch_quiet h hsame
    simp only [sameCounters, hquiet.created, hquiet.updated, beq_self_eq_true, Bool.and_self]

end Counters

/-! ## Good reasons to stop -/

section Stops

variable {env : Env} {provider : Provider}

/-- The page was fetched, and each item on it that can be parsed is stored with the hash it
has now. -/
def Visit.WithoutNews (env : Env) (provider : Provider) (visit : Visit) : Prop :=
  provider.failed visit.page = false ∧
    ∀ item ∈ (provider.page visit.page).items env, visit.found.store.unchanged env item = true

/-- A run that ends before the last page has just seen `MAX_UNCHANGED_PAGES` pages without
news. -/
def StopsForGoodReason (env : Env) (provider : Provider) (e : Engine) : Prop :=
  ∀ visits t, Visited env provider provider.pages 0 e visits t →
    visits.length < provider.totalPages →
      maxUnchangedPages ≤ visits.length ∧
        ∀ visit ∈ lastVisits visits, visit.WithoutNews env provider

/-- No page among the last ones before an early end failed. -/
def LastFetched (env : Env) (provider : Provider) (e : Engine) : Prop :=
  ∀ visits t, Visited env provider provider.pages 0 e visits t →
    visits.length < provider.totalPages →
      ∀ visit ∈ lastVisits visits, provider.failed visit.page = false

/-- A page that could not be fetched changes no counter. -/
theorem processPage_failed {page : ℕ} {e : Engine} (hfail : provider.failed page = true) :
    ∃ t, Commits (processPage env provider page) e none t ∧ t.store = e.store ∧
      sameCounters e.stats t.stats = true := by
  have hpage : provider.fetchPage page = none := by simp [Provider.fetchPage, hfail]
  refine ⟨{ e with stats := { e.stats with errors := e.stats.errors + 1 } }, ?_, rfl, ?_⟩
  · unfold processPage
    rw [hpage]
    rfl
  · simp [sameCounters]

/-- A page that was fetched changes neither counter exactly when it is without news. -/
theorem processPage_sameCounters_iff {page : ℕ} {ids : Option (List String)} {e t : Engine}
    (hfetch : provider.failed page = false)
    (h : Commits (processPage env provider page) e ids t) :
    sameCounters e.stats t.stats = true ↔
      ∀ item ∈ (provider.page page).items env, e.store.unchanged env item = true := by
  obtain ⟨items, hparse, e₁, hquiet, hcases⟩ := processPage_commits hfetch h
  rw [(parse_ids hparse).1]
  rcases hcases with ⟨rfl, rfl⟩ | ⟨u, hupsert⟩
  · refine iff_of_true ?_ (by simp)
    simp [sameCounters, hquiet.created, hquiet.updated]
  · have hbatch := upsertBatch_sameCounters_iff hupsert
    rw [hquiet.store] at hbatch
    rw [← hbatch]
    simp only [sameCounters, hquiet.created, hquiet.updated]

theorem Visit.Silent.without_news {visit : Visit} (h : visit.Silent env provider)
    (hfetch : provider.failed visit.page = false) : visit.WithoutNews env provider := by
  obtain ⟨ids, t, hpage, hsame⟩ := h
  exact ⟨hfetch, (processPage_sameCounters_iff hfetch hpage).mp hsame⟩

theorem pages_length (provider : Provider) : provider.pages.length = provider.totalPages :=
  List.length_range'

/-- A run stops for a good reason exactly when none of its last pages failed. -/
theorem stopsForGoodReason_iff (env : Env) (provider : Provider) (e : Engine) :
    StopsForGoodReason env provider e ↔ LastFetched env provider e := by
  constructor
  · intro h visits t hvisits hearly visit hvisit
    exact ((h visits t hvisits hearly).2 visit hvisit).1
  · intro h visits t hvisits hearly
    obtain ⟨hstreak, hsilent⟩ := hvisits.silent (by rwa [pages_length])
    rw [Nat.zero_add] at hstreak
    refine ⟨hstreak, fun visit hvisit => ?_⟩
    exact (hsilent visit hvisit).without_news (h visits t hvisits hearly visit hvisit)

/-- The pages of a run that ends early come before the last page. -/
theorem Visited.page_lt {e t : Engine} {visits : List Visit}
    (h : Visited env provider provider.pages 0 e visits t)
    (hearly : visits.length < provider.totalPages) {visit : Visit} (hvisit : visit ∈ visits) :
    1 ≤ visit.page ∧ visit.page < provider.totalPages := by
  obtain ⟨k, hk, rfl⟩ := List.getElem_of_mem hvisit
  have hpage := h.pages_in_order.getElem (i := k) (by simpa using hk)
  rw [List.getElem_map] at hpage
  rw [hpage]
  simp only [Provider.pages, List.getElem_range']
  omega

end Stops

/-! ## A source that ends a run on a page that failed -/

/-- Items whose titles differ have hashes that differ. -/
def turningEnv : Env :=
  { sampleEnv with digest := fun fields => if fields.title = some "even" then "0" else "1" }

/-- The item of a page.  Its title turns from page to page. -/
def turningItem (page : ℕ) : RawItem :=
  sampleItem "ext" (if page % 2 = 0 then "even" else "odd")

/-- The pages up to `last` hold the item, the others hold nothing. -/
def turningProvider (totalPages last : ℕ) (failed : ℕ → Bool) : Provider where
  totalPages := totalPages
  page := fun page => if page ≤ last then ⟨.value (.value [turningItem page])⟩ else ⟨.absent⟩
  failed := failed

section Turning

variable {totalPages last : ℕ} {failed : ℕ → Bool}

theorem turningItem_parse (page : ℕ) :
    ∃ item, (⟨.value (.value [turningItem page])⟩ : Response).parse turningEnv = .ok [item] ∧
      item.externalId = "ext" ∧ item.AcceptedNew turningEnv ∧ item.rawPayload = turningItem page := by
  by_cases heven : page % 2 = 0
  · rw [turningItem, if_pos heven]
    exact ⟨_, rfl, rfl, ⟨⟨_, rfl⟩, ⟨_, rfl⟩, fun _ h => (List.not_mem_nil h).elim⟩, rfl⟩
  · rw [turningItem, if_neg heven]
    exact ⟨_, rfl, rfl, ⟨⟨_, rfl⟩, ⟨_, rfl⟩, fun _ h => (List.not_mem_nil h).elim⟩, rfl⟩

theorem turningItem_hash (page : ℕ) :
    computeContentHash turningEnv (turningItem page) ≠
      computeContentHash turningEnv (turningItem (page + 1)) := by
  by_cases heven : page % 2 = 0
  · rw [turningItem, turningItem, if_pos heven, if_neg (by omega)]
    decide
  · rw [turningItem, turningItem, if_neg heven, if_pos (by omega)]
    decide

/-- The stored hash, if any, is not the one that the page shows. -/
structure BeforeTurn (page : ℕ) (store : Store) : Prop where
  sound : store.Sound
  turned : ∀ row, store.byExternalId "ext" = some row →
    row.source.contentHash ≠ computeContentHash turningEnv (turningItem page)

/-- A page with the item brings news, and so does the next one. -/
theorem turningPage_news {page : ℕ} {e : Engine} (hlast : page ≤ last)
    (hfetch : failed page = false) (h : BeforeTurn page e.store) :
    ∃ ids t, Commits (processPage turningEnv (turningProvider totalPages last failed) page) e ids t ∧
      sameCounters e.stats t.stats = false ∧ BeforeTurn (page + 1) t.store := by
  obtain ⟨item, hparse, hid, haccepted, hraw⟩ := turningItem_parse page
  have hpage : (turningProvider totalPages last failed).page page =
      ⟨.value (.value [turningItem page])⟩ := if_pos hlast
  rw [← hpage] at hparse
  obtain ⟨hitems, hids⟩ := parse_ids hparse
  have hnews : e.store.unchanged turningEnv item = false := by
    unfold Store.unchanged
    rw [hid]
    cases hrow : e.store.byExternalId "ext" with
    | none => rfl
    | some row =>
        rw [hraw]
        exact beq_false_of_ne (h.turned row hrow)
  have hspec := @processPage_spec turningEnv (turningProvider totalPages last failed) e page
    hfetch h.sound (hids ▸ List.nodup_singleton _)
  obtain ⟨ids, t, hcommits⟩ := hspec.1.mpr ⟨[item], hparse, fun other hother => by
    obtain rfl := List.mem_singleton.mp hother
    unfold Storable
    cases hrow : e.store.byExternalId other.externalId with
    | none => exact haccepted
    | some row => exact .inr haccepted.accepted⟩
  have hwrote := hspec.2 ids t hcommits
  rw [hitems] at hwrote
  have hwritten : item ∈ e.store.written turningEnv [item] :=
    List.mem_filter.mpr ⟨List.mem_singleton_self _, by rw [hnews]; rfl⟩
  refine ⟨ids, t, hcommits, ?_, hwrote.sound, fun row hrow => ?_⟩
  · refine Bool.eq_false_of_not_eq_true fun hsame => ?_
    rw [processPage_sameCounters_iff hfetch hcommits, hitems] at hsame
    rw [hsame item (List.mem_singleton_self _)] at hnews
    cases hnews
  · obtain ⟨shown, hshown, hshows⟩ := hwrote.shown item hwritten
    rw [hid, hrow] at hshown
    obtain rfl := Option.some.inj hshown
    rw [(sourceColumns_ok hshows.source).hash, hraw]
    exact turningItem_hash page

/-- A page without items, or one that failed, changes no counter. -/
theorem turningPage_silent {page : ℕ} (hlast : last < page) (e : Engine) :
    ∃ ids t, Commits (processPage turningEnv (turningProvider totalPages last failed) page) e ids t ∧
      sameCounters e.stats t.stats = true := by
  cases hfail : failed page with
  | true =>
      obtain ⟨t, hcommits, -, hsame⟩ := @processPage_failed turningEnv
        (turningProvider totalPages last failed) page e hfail
      exact ⟨none, t, hcommits, hsame⟩
  | false =>
      have hpage : (turningProvider totalPages last failed).fetchPage page = some ⟨.absent⟩ := by
        simp [Provider.fetchPage, turningProvider, hfail, Nat.not_le.mpr hlast]
      refine ⟨some [],
        { e with stats := { e.stats with pagesFetched := e.stats.pagesFetched + 1 } }, ?_, ?_⟩
      · unfold processPage
        rw [hpage]
        rfl
      · simp [sameCounters]

/-- Pages with news, and then `MAX_UNCHANGED_PAGES` pages that change no counter. -/
theorem turning_visited {first news : ℕ} {pages : List ℕ} {e : Engine}
    (hnews : ∀ page ∈ List.range' first news, page ≤ last ∧ failed page = false)
    (hlast : last < first + news) (h : BeforeTurn first e.store) :
    ∃ visits u, Visited turningEnv (turningProvider totalPages last failed)
        (List.range' first (news + maxUnchangedPages) ++ pages) 0 e visits u ∧
      visits.map Visit.page = List.range' first (news + maxUnchangedPages) := by
  induction news generalizing first e with
  | zero =>
      rw [Nat.add_zero] at hlast
      obtain ⟨ids₁, t₁, hfirst, hsame₁⟩ :=
        @turningPage_silent totalPages last failed first hlast e
      obtain ⟨ids₂, t₂, hsecond, hsame₂⟩ :=
        @turningPage_silent totalPages last failed (first + 1) (by omega) t₁
      obtain ⟨ids₃, t₃, hthird, hsame₃⟩ :=
        @turningPage_silent totalPages last failed (first + 1 + 1) (by omega) t₂
      refine ⟨_, t₃, .quiet hfirst hsame₁ (by decide) (.quiet hsecond hsame₂ (by decide)
        (.stop hthird hsame₃ (by decide))), rfl⟩
  | succ news ih =>
      have hhead := hnews first (by simp)
      obtain ⟨ids, t, hpage, hchanged, hturned⟩ :=
        @turningPage_news totalPages last failed first e hhead.1 hhead.2 h
      have hrest : ∀ page ∈ List.range' (first + 1) news, page ≤ last ∧ failed page = false := by
        intro page hpage
        refine hnews page ?_
        rw [List.range'_succ]
        exact List.mem_cons_of_mem _ hpage
      obtain ⟨visits, u, hvisits, hpages⟩ := ih hrest (by omega) hturned
      rw [Nat.succ_add, List.range'_succ, List.cons_append]
      exact ⟨_, u, .news hpage hchanged hvisits, by rw [List.map_cons, hpages]⟩

/-- A page before the last one that fails lets some run end on it. -/
theorem not_lastFetched_of_failed {page : ℕ} (hfirst : 1 ≤ page) (hpage : page < totalPages)
    (htotal : maxUnchangedPages < totalPages) (hfail : failed page = true)
    (hleast : ∀ earlier < page, 1 ≤ earlier → failed earlier = false) :
    ∃ last, ¬ LastFetched turningEnv (turningProvider totalPages last failed)
      (Engine.start ⟨[], [], 1, 1⟩ 0) := by
  have hthree : maxUnchangedPages = 3 := rfl
  -- the pages with news are those that come three before the page that fails, or earlier
  obtain ⟨news, hnews⟩ : ∃ news, news = page - maxUnchangedPages := ⟨_, rfl⟩
  obtain ⟨rest, hrest⟩ : ∃ rest, totalPages = news + maxUnchangedPages + rest :=
    ⟨totalPages - (news + maxUnchangedPages), by omega⟩
  obtain ⟨visits, u, hvisits, hpages⟩ := @turning_visited totalPages news failed 1 news
    (List.range' (1 + (news + maxUnchangedPages)) rest) (Engine.start ⟨[], [], 1, 1⟩ 0)
    (fun p hp => by
      have hbounds := List.mem_range'_1.mp hp
      exact ⟨by omega, hleast p (by omega) hbounds.1⟩) (by omega)
    ⟨⟨List.nodup_nil, List.nodup_nil, by simp [Engine.start], by simp [Engine.start]⟩,
      fun row hrow => by cases hrow⟩
  have hlength : visits.length = news + maxUnchangedPages := by
    simpa using congrArg List.length hpages
  have hrange : List.range' 1 (news + maxUnchangedPages) ++
      List.range' (1 + (news + maxUnchangedPages)) rest = List.range' 1 totalPages := by
    rw [List.range'_append_1, hrest]
  rw [hrange] at hvisits
  refine ⟨news, fun h => ?_⟩
  have hearly : visits.length < totalPages := by omega
  have hlast : page ∈ (lastVisits visits).map Visit.page := by
    rw [lastVisits, List.map_drop, hpages, List.drop_range', List.mem_range'_1]
    omega
  obtain ⟨visit, hvisit, rfl⟩ := List.mem_map.mp hlast
  have hfetched := h visits u hvisits hearly visit hvisit
  exact Bool.false_ne_true (hfetched.symm.trans hfail)

end Turning

/-- **When an incremental sync stops for a good reason.**  For a number of pages and a set of
pages that fail, every run over them does, whatever the pages and the tables hold, exactly when
no run can end early or no page but the last fails.  A single run does exactly when none of its
last pages failed. -/
theorem syncIncremental_stops_iff (totalPages : ℕ) (failed : ℕ → Bool) :
    ((∀ env page e, StopsForGoodReason env ⟨totalPages, page, failed⟩ e) ↔
      totalPages ≤ maxUnchangedPages ∨ ∀ p, 1 ≤ p → p < totalPages → failed p = false) ∧
      ∀ env page e, StopsForGoodReason env ⟨totalPages, page, failed⟩ e ↔
        LastFetched env ⟨totalPages, page, failed⟩ e := by
  refine ⟨⟨fun h => ?_, ?_⟩, fun env page e => stopsForGoodReason_iff env _ e⟩
  · by_contra hcond
    push Not at hcond
    obtain ⟨htotal, hsome⟩ := hcond
    obtain ⟨hfirst, hpage, hfail⟩ := Nat.find_spec hsome
    have hleast : ∀ earlier < Nat.find hsome, 1 ≤ earlier → failed earlier = false := by
      intro earlier hearlier hone
      by_contra hfailed
      exact Nat.find_min hsome hearlier ⟨hone, by omega, hfailed⟩
    obtain ⟨last, hlast⟩ :=
      not_lastFetched_of_failed hfirst hpage htotal (by simpa using hfail) hleast
    exact hlast ((stopsForGoodReason_iff _ _ _).mp (h turningEnv _ _))
  · intro hcond env page e
    rw [stopsForGoodReason_iff]
    intro visits t hvisits hearly visit hvisit
    have hbounds := hvisits.page_lt hearly (List.mem_of_mem_drop hvisit)
    rcases hcond with hshort | hfetched
    · have hlong := (hvisits.silent (by rwa [pages_length])).1
      rw [Nat.zero_add] at hlong
      exact absurd (hlong.trans_lt hearly) (Nat.not_lt.mpr hshort)
    · exact hfetched _ hbounds.1 hbounds.2

/-- The first three pages of four cannot be fetched. -/
def brokenProvider : Provider where
  totalPages := 4
  page := fun _ => ⟨.value (.value [sampleItem "ext-A" "Title for ext-A"])⟩
  failed := fun page => decide (page ≤ 3)

/-- The run ends after them, and has looked at nothing. -/
theorem incremental_stops_on_failures :
    ¬ StopsForGoodReason sampleEnv brokenProvider (Engine.start ⟨[], [], 1, 1⟩ 10) := by
  intro hstops
  obtain ⟨t₁, hfirst, -, hsame₁⟩ := @processPage_failed sampleEnv brokenProvider 1
    (Engine.start ⟨[], [], 1, 1⟩ 10) rfl
  obtain ⟨t₂, hsecond, -, hsame₂⟩ := @processPage_failed sampleEnv brokenProvider 2 t₁ rfl
  obtain ⟨t₃, hthird, -, hsame₃⟩ := @processPage_failed sampleEnv brokenProvider 3 t₂ rfl
  have hvisits : Visited sampleEnv brokenProvider brokenProvider.pages 0
      (Engine.start ⟨[], [], 1, 1⟩ 10) [⟨1, _⟩, ⟨2, t₁⟩, ⟨3, t₂⟩] t₃ :=
    .quiet hfirst hsame₁ (by decide) (.quiet hsecond hsame₂ (by decide)
      (.stop hthird hsame₃ (by decide)))
  have hfetched := ((hstops _ t₃ hvisits (show 3 < 4 by decide)).2 _ List.mem_cons_self).1
  exact absurd hfetched (by decide)

end SetadJang.Tabyin
