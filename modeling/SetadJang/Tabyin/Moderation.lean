import SetadJang.Framework.Runs
import SetadJang.Tabyin.Convergence

/-!
# Moderation under later syncs

An admin hides a content by its `is_active` column.  A later sync overwrites that
column where it overwrites the row: on a page that lists the content under a hash
other than the stored one.  Pages that raise are undone, pages after the break of
an incremental sync are not looked at, and the deletion pass only hides.
-/

namespace SetadJang.Tabyin

open SetadJang.Framework SetadJang.Framework.Txn

/-! ## The services -/

/-- The save of `toggle_content_visibility`: two columns of the stored row. -/
def toggleContentVisibility (pk : ℕ) (isActive : Bool) (now : ℕ) (store : Store) : Store :=
  { store with
    contents := store.contents.map fun row =>
      if row.pk = pk then { row with isActive := isActive, updatedAt := now } else row }

inductive ContentAction where
  | toggle (pk : ℕ) (isActive : Bool) (now : ℕ)
  | syncFull (provider : Provider) (now : ℕ)
  | syncIncremental (provider : Provider) (now : ℕ)

def contentStep (env : Env) (store : Store) : ContentAction → Store
  | .toggle pk isActive now => toggleContentVisibility pk isActive now store
  | .syncFull provider now => syncedStore env provider store now
  | .syncIncremental provider now =>
      (after (syncIncremental env provider) (Engine.start store now)).store

/-- An admin activates the content. -/
def ContentAction.activates (pk : ℕ) : ContentAction → Bool
  | .toggle pk' isActive _ => pk' == pk && isActive
  | _ => false

/-- The content is there and not active. -/
def Hidden (pk : ℕ) (store : Store) : Prop :=
  ∃ row ∈ store.contents, row.pk = pk ∧ row.isActive = false

/-! ## Page loops -/

/-- A page loop that stops when the streak of pages without a change says so: the
pages it has processed to their end, and the state it leaves. -/
def walk (env : Env) (provider : Provider) (stop : ℕ → Bool) :
    List ℕ → ℕ → Engine → List ℕ × Engine
  | [], _, e => ([], e)
  | page :: pages, streak, e =>
      match exec (processPage env provider page) e with
      | (.error _, t) => ([], t)
      | (.ok _, t) =>
          let streak' := if sameCounters e.stats t.stats then streak + 1 else 0
          if stop streak' then ([page], t)
          else
            let rest := walk env provider stop pages streak' t
            (page :: rest.1, rest.2)

def neverStop (_ : ℕ) : Bool := false

def stopUnchanged (streak : ℕ) : Bool := maxUnchangedPages ≤ streak

/-- The source lists the content on this page, which can be fetched, under a hash
other than the stored one. -/
def ListsChanged (env : Env) (provider : Provider) (row : TabyinContent) (page : ℕ) : Prop :=
  provider.failed page = false ∧ ∃ item ∈ (provider.page page).items env,
    item.externalId = row.externalId ∧
      row.source.contentHash ≠ computeContentHash env item.rawPayload

/-- A step that leaves the moderation of the content alone: no page that a run processes
to its end lists it under another hash. -/
def Spares (env : Env) (pk : ℕ) (store : Store) : ContentAction → Prop
  | .toggle _ _ _ => True
  | .syncFull provider now => ∀ row ∈ store.contents, row.pk = pk →
      ∀ page ∈ (walk env provider neverStop provider.pages 0 (Engine.start store now)).1,
        ¬ ListsChanged env provider row page
  | .syncIncremental provider now => ∀ row ∈ store.contents, row.pk = pk →
      ∀ page ∈ (walk env provider stopUnchanged provider.pages 0 (Engine.start store now)).1,
        ¬ ListsChanged env provider row page

theorem processPages_walk (env : Env) (provider : Provider) (pages : List ℕ)
    (sourceIds : List String) (streak : ℕ) (e : Engine) :
    after (processPages env provider pages sourceIds) e =
      (walk env provider neverStop pages streak e).2 := by
  induction pages generalizing sourceIds streak e with
  | nil => rfl
  | cons page rest ih =>
      unfold processPages walk after
      rcases hpage : exec (processPage env provider page) e with ⟨outcome, t⟩
      cases outcome with
      | error err => rw [exec_bind_error hpage]
      | ok ids =>
          rw [exec_bind_ok hpage]
          exact ih _ _ t

theorem processUntilUnchanged_walk (env : Env) (provider : Provider) (pages : List ℕ)
    (streak : ℕ) (e : Engine) :
    after (processUntilUnchanged env provider pages streak) e =
      (walk env provider stopUnchanged pages streak e).2 := by
  induction pages generalizing streak e with
  | nil => rfl
  | cons page rest ih =>
      unfold processUntilUnchanged walk after
      rw [exec_bind_ok (exec_get e)]
      rcases hpage : exec (processPage env provider page) e with ⟨outcome, t⟩
      cases outcome with
      | error err => rw [exec_bind_error hpage]
      | ok ids =>
          rw [exec_bind_ok hpage, exec_bind_ok (exec_get t)]
          dsimp only
          by_cases hsame : sameCounters e.stats t.stats
          · rw [if_pos hsame, if_pos hsame]
            by_cases hstop : maxUnchangedPages ≤ streak + 1
            · rw [if_pos hstop, if_pos (by simpa [stopUnchanged] using hstop)]
              rfl
            · rw [if_neg hstop, if_neg (by simpa [stopUnchanged] using hstop)]
              exact ih _ t
          · rw [if_neg hsame, if_neg hsame, if_neg (by simp [stopUnchanged, maxUnchangedPages])]
            exact ih _ t

/-! ## One page -/

/-- Primary keys and ids are unique. -/
structure Store.Keyed (store : Store) : Prop where
  wellFormed : store.WellFormed
  ids : UniqueBy TabyinContent.externalId store.contents

/-- Contents were only appended. -/
structure Appended (e t : Engine) : Prop where
  rows : ∃ rows, t.store.contents = e.store.contents ++ rows
  keyed : e.store.Keyed → t.store.Keyed

theorem appended_refl (e : Engine) : Appended e e :=
  ⟨⟨[], by simp⟩, fun h => h⟩

theorem appended_trans (e t u : Engine) (het : Appended e t) (htu : Appended t u) :
    Appended e u where
  rows := by
    obtain ⟨xs, hxs⟩ := het.rows
    obtain ⟨ys, hys⟩ := htu.rows
    exact ⟨xs ++ ys, by rw [hys, hxs, List.append_assoc]⟩
  keyed := fun h => htu.keyed (het.keyed h)

theorem Quiet.appended {e t : Engine} (h : Quiet e t) : Appended e t where
  rows := ⟨[], by rw [h.store, List.append_nil]⟩
  keyed := fun hkeyed => h.store.symm ▸ hkeyed

theorem appended_insertContent (env : Env) (item : ParsedItem) :
    Keeps Appended (insertContent env item) := by
  apply keeps_get_bind
  intro e
  apply after_fromExcept_bind appended_refl
  intro row hrow
  obtain ⟨hinserted, hpk, hfree⟩ := newContent_inserted hrow
  refine ⟨⟨[row], rfl⟩, fun hkeyed => ⟨⟨?_, ?_⟩, ?_⟩⟩
  · refine uniqueBy_append (fun old hold heq => ?_) hkeyed.wellFormed.unique
    have hlt := hkeyed.wellFormed.below old hold
    omega
  · intro other hother
    rcases List.mem_append.mp hother with hother | hother
    · exact Nat.lt_succ_of_lt (hkeyed.wellFormed.below other hother)
    · rw [List.mem_singleton.mp hother, hpk]
      exact Nat.lt_succ_self _
  · refine uniqueBy_append (fun old hold heq => ?_) hkeyed.ids
    exact hfree old hold (heq.trans hinserted.id)

theorem appended_insertContents (env : Env) (items : List ParsedItem) :
    Keeps Appended (insertContents env items) := by
  induction items with
  | nil => exact keeps_pure appended_refl _
  | cons item rest ih =>
      refine keeps_bind appended_trans (appended_insertContent env item) fun row => ?_
      exact keeps_bind appended_trans ih fun rows => keeps_pure appended_refl _

theorem appended_setStore {f : Store → Store} (hcontents : ∀ s, (f s).contents = s.contents)
    (hnext : ∀ s, (f s).nextContent = s.nextContent) : Keeps Appended (setStore f) := by
  apply keeps_modify
  intro e
  refine ⟨⟨[], by rw [List.append_nil]; exact hcontents e.store⟩, fun h => ⟨⟨?_, ?_⟩, ?_⟩⟩
  · simpa [hcontents] using h.wellFormed.unique
  · simpa [hcontents, hnext] using h.wellFormed.below
  · simpa [hcontents] using h.ids

theorem appended_insertAttachment (content : ℕ) (att : ParsedAttachment) :
    Keeps Appended (insertAttachment content att) := by
  refine keeps_bind appended_trans (keeps_get appended_refl) fun e => ?_
  refine keeps_bind appended_trans (keeps_fromExcept appended_refl _) fun row => ?_
  exact appended_setStore (fun _ => rfl) fun _ => rfl

theorem appended_count (f : SyncStats → SyncStats) : Keeps Appended (count f) := by
  apply keeps_modify
  intro e
  exact ⟨⟨[], (List.append_nil _).symm⟩, fun h => h⟩

theorem appended_bulkCreate (env : Env) (items : List ParsedItem) :
    Keeps Appended (bulkCreate env items) := by
  refine keeps_bind appended_trans (keeps_atomic appended_refl ?_) fun _ => appended_count _
  refine keeps_bind appended_trans (appended_insertContents env items) fun rows => ?_
  refine keeps_bind appended_trans ?_ fun _ => keeps_pure appended_refl _
  refine forEach_keeps appended_refl appended_trans fun row _ => ?_
  refine forEach_keeps appended_refl appended_trans fun att _ => ?_
  exact appended_insertAttachment row.pk att

/-- A call that raises leaves the store along `R`. -/
def Undone (R : Engine → Engine → Prop) {α : Type} (m : Sync α) : Prop :=
  ∀ e, ¬ Returns m e → R e (after m e)

theorem undone_bind {R : Engine → Engine → Prop} (htrans : ∀ s t u, R s t → R t u → R s u)
    {α β : Type} {m : Sync α} {f : α → Sync β} (hm : Keeps R m) (hf : ∀ a, Undone R (f a)) :
    Undone R (m >>= f) := by
  intro e hraise
  have hme := hm e
  unfold after at hme ⊢
  rcases hexec : exec m e with ⟨outcome, t⟩
  rw [hexec] at hme
  cases outcome with
  | error err =>
      rw [exec_bind_error hexec]
      exact hme
  | ok a =>
      rw [exec_bind_ok hexec]
      refine htrans _ _ _ hme (hf a t fun h => hraise ?_)
      exact returns_bind.mpr ⟨a, t, hexec, h⟩

theorem undone_of_keeps {R : Engine → Engine → Prop} {α : Type} {m : Sync α} (h : Keeps R m) :
    Undone R m := fun e _ => h e

theorem undone_atomic {R : Engine → Engine → Prop} (hrefl : ∀ s, R s s) {α : Type}
    (m : Sync α) : Undone R (atomic m) := by
  intro e hraise
  unfold after
  rcases hexec : exec m e with ⟨outcome, t⟩
  cases outcome with
  | error err =>
      rw [exec_atomic_error hexec]
      exact hrefl e
  | ok a => exact absurd ⟨a, t, exec_atomic_ok hexec⟩ hraise

/-- What follows does not raise. -/
theorem undone_bind_returns {R : Engine → Engine → Prop} {α β : Type} {m : Sync α}
    {f : α → Sync β} (hm : Undone R m) (hf : ∀ a t, Returns (f a) t) : Undone R (m >>= f) := by
  intro e hraise
  have hme := hm e fun h => hraise (returns_bind_of_forall h hf)
  unfold after at hme ⊢
  rcases hexec : exec m e with ⟨outcome, t⟩
  rw [hexec] at hme
  cases outcome with
  | error err =>
      rw [exec_bind_error hexec]
      exact hme
  | ok a => exact absurd (returns_bind.mpr ⟨a, t, hexec, hf a t⟩) hraise

theorem undone_bulkUpdate (env : Env) (entries : List (TabyinContent × ParsedItem)) :
    Undone Appended (bulkUpdate env entries) :=
  undone_bind_returns (undone_atomic appended_refl _) fun _ t => returns_modify _ t

theorem undone_upsertBatch (env : Env) (items : List ParsedItem) :
    Undone Appended (upsertBatch env items) := by
  refine undone_bind appended_trans (keeps_get appended_refl) fun e => ?_
  refine undone_bind appended_trans (appended_count _) fun _ => ?_
  generalize items.foldl (sortItem env e.store.byExternalId) ⟨[], [], 0⟩ = batch
  have hrest : Undone Appended (if batch.toUpdate ≠ [] then bulkUpdate env batch.toUpdate
      else pure ⟨⟩) := by
    split
    · exact undone_bulkUpdate env _
    · exact undone_of_keeps (keeps_pure appended_refl _)
  by_cases hnone : batch.toCreate ≠ []
  · rw [if_pos hnone]
    exact undone_bind appended_trans (appended_bulkCreate env _) fun _ => hrest
  · rw [if_neg hnone]
    exact hrest

/-- A page that raises has only appended contents. -/
theorem undone_processPage (env : Env) (provider : Provider) (page : ℕ) :
    Undone Appended (processPage env provider page) := by
  unfold processPage
  split
  case h_1 =>
    refine undone_of_keeps ?_
    exact keeps_bind appended_trans (appended_count _) fun _ => keeps_pure appended_refl _
  case h_2 response _ =>
    refine undone_bind appended_trans (appended_count _) fun _ => ?_
    refine undone_bind appended_trans (keeps_fromExcept appended_refl _) fun rawItems => ?_
    split
    · exact undone_of_keeps (keeps_pure appended_refl _)
    · refine undone_bind appended_trans (keeps_fromExcept appended_refl _) fun parsed => ?_
      refine undone_bind appended_trans (appended_count _) fun _ => ?_
      split
      · exact undone_bind_returns (undone_upsertBatch env _) fun _ t => returns_pure _ t
      · exact undone_of_keeps (keeps_pure appended_refl _)

/-- What a page does to the rows there were, whether it returns or raises. -/
structure PageRun (env : Env) (provider : Provider) (page : ℕ) (e t : Engine) : Prop where
  keyed : t.store.Keyed
  keys : e.store.contents.map TabyinContent.pk <+: t.store.contents.map TabyinContent.pk
  kept : ∀ (k : ℕ) (row : TabyinContent), e.store.contents[k]? = some row →
    (Returns (processPage env provider page) e → ¬ ListsChanged env provider row page) →
      t.store.contents[k]? = some row
  rewritten : ∀ (k : ℕ) (row : TabyinContent), e.store.contents[k]? = some row →
    Returns (processPage env provider page) e → ListsChanged env provider row page →
      ∃ row', t.store.contents[k]? = some row' ∧ row'.isActive = true ∧
        row'.isDeletedInSource = false ∧ row'.externalId = row.externalId

theorem Appended.keys {e t : Engine} (h : Appended e t) :
    e.store.contents.map TabyinContent.pk <+: t.store.contents.map TabyinContent.pk := by
  obtain ⟨rows, hrows⟩ := h.rows
  exact ⟨rows.map TabyinContent.pk, by rw [hrows, List.map_append]⟩

theorem Appended.row {e t : Engine} (h : Appended e t) {k : ℕ} {row : TabyinContent}
    (hrow : e.store.contents[k]? = some row) : t.store.contents[k]? = some row := by
  obtain ⟨rows, hrows⟩ := h.rows
  have hk : k < e.store.contents.length := (List.getElem?_eq_some_iff.mp hrow).1
  rw [hrows, List.getElem?_append_left hk, hrow]

theorem byExternalId_of_keyed {store : Store} (h : store.Keyed) {row : TabyinContent}
    (hrow : row ∈ store.contents) : store.byExternalId row.externalId = some row :=
  h.ids.find?_eq_some_iff.mpr ⟨hrow, rfl⟩

/-- What a batch that returns does to the rows, for items with any ids. -/
theorem upsertBatch_rows {env : Env} {items : List ParsedItem} {e t : Engine} {u : PUnit}
    (hkeyed : e.store.Keyed) (h : Commits (upsertBatch env items) e u t) :
    ∃ e₂ f now, Appended e e₂ ∧ t.store.contents = e₂.store.contents.map f ∧ t.store.Keyed ∧
      ∀ row, Overwrites env now
        (fun entry => (lastItem (items.filterMap (changedEntry env e.store.byExternalId))
          entry.1.pk).getD entry.2)
        (items.filterMap (changedEntry env e.store.byExternalId)) row (f row) := by
  obtain ⟨e₁, e₂, hquiet, hnew, hchanged⟩ := upsertBatch_commits h
  have happended : Appended e e₂ := by
    rcases hnew with ⟨-, rfl⟩ | ⟨-, v, hnew⟩
    · exact hquiet.appended
    · have hcreate := appended_bulkCreate env (newItems e.store.byExternalId items) e₁
      rw [hnew.after_eq] at hcreate
      exact appended_trans _ _ _ hquiet.appended hcreate
  have hkeyed₂ := happended.keyed hkeyed
  rcases hchanged with ⟨hnone, rfl⟩ | ⟨-, hchanged⟩
  · refine ⟨t, id, 0, happended, by simp, hkeyed₂, fun row => .inl ⟨rfl, ?_⟩⟩
    simp [hnone]
  · obtain ⟨f, hf, e₃, e₄, v, hrows, hnext, -, hatts, hstore⟩ := bulkUpdate_commits hchanged
    obtain ⟨hcontents, hnextContent⟩ := insertBlocks_frame hatts
    rw [← hstore, hrows] at hcontents
    rw [← hstore, hnext] at hnextContent
    have hpk : ∀ row, (f row).pk = row.pk := fun row => (hf row).keys.1
    have hid : ∀ row, (f row).externalId = row.externalId := fun row => (hf row).keys.2
    refine ⟨e₂, f, e₂.now, happended, hcontents, ⟨⟨?_, ?_⟩, ?_⟩, hf⟩
    · rw [hcontents]
      exact uniqueBy_map hpk hkeyed₂.wellFormed.unique
    · rw [hcontents, hnextContent]
      simpa [hpk] using hkeyed₂.wellFormed.below
    · rw [hcontents]
      exact uniqueBy_map hid hkeyed₂.ids

theorem upsertBatch_run {env : Env} {items : List ParsedItem} {e t : Engine} {u : PUnit}
    (hkeyed : e.store.Keyed) (h : Commits (upsertBatch env items) e u t) :
    t.store.Keyed ∧
      e.store.contents.map TabyinContent.pk <+: t.store.contents.map TabyinContent.pk ∧
      ∀ (k : ℕ) (row : TabyinContent), e.store.contents[k]? = some row →
        (t.store.contents[k]? = some row ∧ ∀ item ∈ items, item.externalId = row.externalId →
          row.source.contentHash = computeContentHash env item.rawPayload) ∨
        ((∃ item ∈ items, item.externalId = row.externalId ∧
            row.source.contentHash ≠ computeContentHash env item.rawPayload) ∧
          ∃ row', t.store.contents[k]? = some row' ∧ row'.isActive = true ∧
            row'.isDeletedInSource = false ∧ row'.externalId = row.externalId) := by
  obtain ⟨e₂, f, now, happended, hrows, hkeyed', hf⟩ := upsertBatch_rows hkeyed h
  refine ⟨hkeyed', ?_, fun k row hrow => ?_⟩
  · rw [hrows, List.map_map]
    have hpk : TabyinContent.pk ∘ f = TabyinContent.pk := funext fun row => (hf row).keys.1
    rw [hpk]
    exact happended.keys
  · have hnew : t.store.contents[k]? = some (f row) := by
      rw [hrows, List.getElem?_map, happended.row hrow, Option.map_some]
    have hmem := List.mem_of_getElem? hrow
    rcases hf row with ⟨hsame, hnone⟩ | ⟨entry, hentry, hpk, source, -, hover⟩
    · refine .inl ⟨hsame ▸ hnew, fun item hitem hid => ?_⟩
      by_contra hhash
      -- the batch has read this row for the item
      have hfound : changedEntry env e.store.byExternalId item = some (row, item) := by
        simp [changedEntry, hid, byExternalId_of_keyed hkeyed hmem, hhash]
      exact hnone (row, item) (List.mem_filterMap.mpr ⟨item, hitem, hfound⟩) rfl
    · obtain ⟨item, hitem, hfound⟩ := List.mem_filterMap.mp hentry
      obtain ⟨rfl, hread, hhash⟩ := changedEntry_some hfound
      obtain ⟨hmem', hid⟩ := byExternalId_some hread
      have hsame : entry.1 = row := hkeyed.wellFormed.unique _ hmem' _ hmem hpk
      refine .inr ⟨⟨entry.2, hitem, ?_, hsame ▸ hhash⟩, f row, hnew, ?_, ?_, (hf row).keys.2⟩
      · rw [← hid, hsame]
      · rw [hover]
        rfl
      · rw [hover]
        rfl

/-- **One page.** It rewrites the content exactly when it returns and lists it under
another hash. -/
theorem processPage_run (env : Env) (provider : Provider) (page : ℕ) {e : Engine}
    (hkeyed : e.store.Keyed) :
    PageRun env provider page e (after (processPage env provider page) e) := by
  by_cases hreturns : Returns (processPage env provider page) e
  · obtain ⟨ids, t, h⟩ := hreturns
    rw [h.after_eq]
    cases hfetch : provider.failed page with
    | true =>
        have hquiet : Quiet e t := by
          unfold processPage Provider.fetchPage at h
          rw [if_pos hfetch] at h
          simp only [count, commits_bind, commits_modify, commits_pure] at h
          obtain ⟨v, e₁, rfl, -, rfl⟩ := h
          exact ⟨rfl, rfl, rfl, rfl⟩
        refine ⟨hquiet.appended.keyed hkeyed, hquiet.appended.keys,
          fun k row hrow _ => hquiet.appended.row hrow, fun k row _ _ hlists => ?_⟩
        rw [ListsChanged, hfetch] at hlists
        cases hlists.1
    | false =>
        obtain ⟨items, hparse, e₁, hquiet, hcases⟩ := processPage_commits hfetch h
        have hitems : (provider.page page).items env = items := (parse_ids hparse).1
        rcases hcases with ⟨rfl, rfl⟩ | ⟨u, hupsert⟩
        · refine ⟨hquiet.appended.keyed hkeyed, hquiet.appended.keys,
            fun k row hrow _ => hquiet.appended.row hrow, fun k row _ _ hlists => ?_⟩
          obtain ⟨-, item, hitem, -⟩ := hlists
          rw [hitems] at hitem
          cases hitem
        · obtain ⟨hkeyed', hkeys, hrows⟩ :=
            upsertBatch_run (hquiet.appended.keyed hkeyed) hupsert
          rw [hquiet.store] at hkeys hrows
          refine ⟨hkeyed', hkeys, fun k row hrow hspared => ?_, fun k row hrow _ hlists => ?_⟩
          · rcases hrows k row hrow with ⟨hsame, -⟩ | ⟨⟨item, hitem, hid, hhash⟩, -⟩
            · exact hsame
            · exact absurd ⟨hfetch, item, hitems ▸ hitem, hid, hhash⟩ (hspared ⟨ids, t, h⟩)
          · rcases hrows k row hrow with ⟨-, hall⟩ | ⟨-, hrewritten⟩
            · obtain ⟨-, item, hitem, hid, hhash⟩ := hlists
              exact absurd (hall item (hitems ▸ hitem) hid) hhash
            · exact hrewritten
  · have happended := undone_processPage env provider page e hreturns
    exact ⟨happended.keyed hkeyed, happended.keys, fun k row hrow _ => happended.row hrow,
      fun k row _ h => absurd h hreturns⟩

/-! ## A run -/

section Walk

variable {env : Env} {provider : Provider} {stop : ℕ → Bool}

/-- What a page loop has done to the rows there were. -/
structure LoopRun (env : Env) (provider : Provider) (visited : List ℕ) (e t : Engine) : Prop where
  keyed : t.store.Keyed
  keys : e.store.contents.map TabyinContent.pk <+: t.store.contents.map TabyinContent.pk
  kept : ∀ (k : ℕ) (row : TabyinContent), e.store.contents[k]? = some row →
    (∀ page ∈ visited, ¬ ListsChanged env provider row page) → t.store.contents[k]? = some row
  rewritten : ∀ (k : ℕ) (row : TabyinContent), e.store.contents[k]? = some row →
    ∀ page ∈ visited, ListsChanged env provider row page →
      ∃ row', t.store.contents[k]? = some row' ∧ row'.isActive = true ∧
        row'.isDeletedInSource = false ∧ row'.externalId = row.externalId

theorem loopRun_refl {e : Engine} (hkeyed : e.store.Keyed) : LoopRun env provider [] e e where
  keyed := hkeyed
  keys := List.prefix_refl _
  kept := fun _ _ h _ => h
  rewritten := by simp

/-- A page that raises ends the loop; the page is not one of those processed. -/
theorem PageRun.raised {page : ℕ} {e t : Engine} (h : PageRun env provider page e t)
    (hraise : ¬ Returns (processPage env provider page) e) : LoopRun env provider [] e t where
  keyed := h.keyed
  keys := h.keys
  kept := fun k row hrow _ => h.kept k row hrow fun hreturns => absurd hreturns hraise
  rewritten := by simp

/-- A page, and the rest of the loop. -/
theorem PageRun.cons {page : ℕ} {visited : List ℕ} {e t u : Engine}
    (h : PageRun env provider page e t) (hreturns : Returns (processPage env provider page) e)
    (hrest : LoopRun env provider visited t u) :
    LoopRun env provider (page :: visited) e u where
  keyed := hrest.keyed
  keys := h.keys.trans hrest.keys
  kept := by
    intro k row hrow hspared
    rw [List.forall_mem_cons] at hspared
    exact hrest.kept k row (h.kept k row hrow fun _ => hspared.1) hspared.2
  rewritten := by
    intro k row hrow p hp hlists
    by_cases hfirst : ListsChanged env provider row page
    · obtain ⟨row', hrow', hactive, hpresent, hid⟩ := h.rewritten k row hrow hreturns hfirst
      -- later pages leave the row alone or overwrite it again
      by_cases hlater : ∀ q ∈ visited, ¬ ListsChanged env provider row' q
      · exact ⟨row', hrest.kept k row' hrow' hlater, hactive, hpresent, hid⟩
      · push Not at hlater
        obtain ⟨q, hq, hlists'⟩ := hlater
        obtain ⟨row'', hrow'', hactive', hpresent', hid'⟩ := hrest.rewritten k row' hrow' q hq hlists'
        exact ⟨row'', hrow'', hactive', hpresent', hid'.trans hid⟩
    · rcases List.mem_cons.mp hp with rfl | hp
      · exact absurd hlists hfirst
      · exact hrest.rewritten k row (h.kept k row hrow fun _ => hfirst) p hp hlists

variable (env provider stop) in
theorem walk_run (pages : List ℕ) (streak : ℕ) {e : Engine} (hkeyed : e.store.Keyed) :
    LoopRun env provider (walk env provider stop pages streak e).1 e
      (walk env provider stop pages streak e).2 := by
  induction pages generalizing streak e with
  | nil => exact loopRun_refl hkeyed
  | cons page rest ih =>
      have hpage := processPage_run env provider page hkeyed
      unfold after at hpage
      unfold walk
      rcases hexec : exec (processPage env provider page) e with ⟨outcome, t⟩
      rw [hexec] at hpage
      cases outcome with
      | error err =>
          refine hpage.raised ?_
          rintro ⟨ids, t', h⟩
          rw [Commits, hexec] at h
          cases h
      | ok ids =>
          have hreturns : Returns (processPage env provider page) e := ⟨ids, t, hexec⟩
          dsimp only
          generalize (if sameCounters e.stats t.stats then streak + 1 else 0) = streak'
          split
          · exact hpage.cons hreturns (loopRun_refl hpage.keyed)
          · exact hpage.cons hreturns (ih _ hpage.keyed)

theorem walk_subset (pages : List ℕ) (streak : ℕ) (e : Engine) :
    (walk env provider stop pages streak e).1 ⊆ pages := by
  induction pages generalizing streak e with
  | nil => exact List.Subset.refl _
  | cons page rest ih =>
      unfold walk
      rcases exec (processPage env provider page) e with ⟨outcome, t⟩
      cases outcome with
      | error err => exact List.nil_subset _
      | ok ids =>
          dsimp only
          generalize (if sameCounters e.stats t.stats then streak + 1 else 0) = streak'
          split
          · exact List.cons_subset_cons _ (List.nil_subset _)
          · exact List.cons_subset_cons _ (ih _ t)

end Walk

/-- A full sync: the page loop, and then the deletion pass or not. -/
theorem syncFull_store (env : Env) (provider : Provider) (e : Engine) :
    (after (syncFull env provider) e).store =
        (after (processPages env provider provider.pages []) e).store ∨
      ∃ now, (after (syncFull env provider) e).store =
        (after (processPages env provider provider.pages []) e).store.withDeleted now
          provider.fetchedIds := by
  unfold syncFull
  by_cases hzero : provider.totalPages = 0
  · left
    have hempty : provider.pages = [] := by simp [Provider.pages, hzero]
    rw [if_pos hzero, hempty]
    rfl
  · rw [if_neg hzero]
    rcases hloop : exec (processPages env provider provider.pages []) e with ⟨outcome, t⟩
    have hafter : after (processPages env provider provider.pages []) e = t := by
      unfold after
      rw [hloop]
    cases outcome with
    | error err =>
        left
        rw [hafter]
        unfold after
        rw [exec_bind_error hloop]
    | ok ids =>
        obtain rfl : ids = provider.fetchedIds := pageLoop_ids hloop
        rw [hafter]
        unfold after
        rw [exec_bind_ok hloop]
        split
        · right
          obtain ⟨u, hdelete, hstore, -⟩ := softDeleteMissing_spec provider.fetchedIds t
          refine ⟨t.now, ?_⟩
          rw [exec_bind_ok hdelete, ← hstore]
          rfl
        · left
          rfl

theorem listsChanged_fetched {env : Env} {provider : Provider} {row : TabyinContent} {page : ℕ}
    (hpage : page ∈ provider.pages) (h : ListsChanged env provider row page) :
    row.externalId ∈ provider.fetchedIds := by
  obtain ⟨hfetch, item, hitem, hid, -⟩ := h
  refine List.mem_flatMap.mpr ⟨page, hpage, ?_⟩
  rw [← hid]
  simpa [Provider.fetchedOn, Provider.fetchPage, hfetch] using
    items_ids (List.mem_map_of_mem hitem)

theorem deletionPass_hidden {now : ℕ} {ids : List String} {row : TabyinContent}
    (h : row.isActive = false) : (deletionPass now ids row).isActive = false := by
  unfold deletionPass
  split
  · rfl
  · exact h

/-- A content that is hidden before a run is hidden after it exactly when no page that
the run has processed lists it under another hash. -/
theorem LoopRun.hidden_iff {env : Env} {provider : Provider} {visited : List ℕ} {e t : Engine}
    {s' : Store} {pk : ℕ} (hrun : LoopRun env provider visited e t)
    (hvisited : visited ⊆ provider.pages) (hkeyed : e.store.Keyed) (hhidden : Hidden pk e.store)
    (hstore : s' = t.store ∨ ∃ now, s' = t.store.withDeleted now provider.fetchedIds) :
    Hidden pk s' ↔ ∀ row ∈ e.store.contents, row.pk = pk →
      ∀ page ∈ visited, ¬ ListsChanged env provider row page := by
  obtain ⟨row, hmem, hpk, hinactive⟩ := hhidden
  obtain ⟨k, hrow⟩ := List.getElem?_of_mem hmem
  constructor
  · rintro ⟨found, hfound, hfoundPk, hfoundInactive⟩ other hother hotherPk page hpage hlists
    obtain rfl : other = row :=
      hkeyed.wellFormed.unique _ hother _ hmem (hotherPk.trans hpk.symm)
    obtain ⟨row', hrow', hactive, -, hid⟩ := hrun.rewritten k other hrow page hpage hlists
    have hrowPk : row'.pk = other.pk := by
      obtain ⟨rest, hrest⟩ := hrun.keys
      have hold : (e.store.contents.map TabyinContent.pk)[k]? = some other.pk := by
        rw [List.getElem?_map, hrow, Option.map_some]
      have hk := (List.getElem?_eq_some_iff.mp hold).1
      have hnew : (t.store.contents.map TabyinContent.pk)[k]? = some other.pk := by
        rw [← hrest, List.getElem?_append_left hk, hold]
      rw [List.getElem?_map, hrow', Option.map_some, Option.some.injEq] at hnew
      exact hnew
    have hmem' := List.mem_of_getElem? hrow'
    rcases hstore with rfl | ⟨now, rfl⟩
    · have hsame := hrun.keyed.wellFormed.unique _ hfound _ hmem'
        (hfoundPk.trans (hpk.symm.trans hrowPk.symm))
      rw [hsame, hactive] at hfoundInactive
      cases hfoundInactive
    · obtain ⟨old, hold, rfl⟩ := List.mem_map.mp hfound
      rw [deletionPass_pk] at hfoundPk
      have hsame := hrun.keyed.wellFormed.unique _ hold _ hmem'
        (hfoundPk.trans (hpk.symm.trans hrowPk.symm))
      -- the deletion pass leaves alone what a fetched page lists
      have hlisted := listsChanged_fetched (hvisited hpage) hlists
      rw [hsame, deletionPass_kept fun hmissing =>
        (missing_iff.mp hmissing).2 (hid ▸ hlisted), hactive] at hfoundInactive
      cases hfoundInactive
  · intro hspared
    have hkept := List.mem_of_getElem? (hrun.kept k row hrow (hspared row hmem hpk))
    rcases hstore with rfl | ⟨now, rfl⟩
    · exact ⟨row, hkept, hpk, hinactive⟩
    · refine ⟨deletionPass now provider.fetchedIds row, List.mem_map_of_mem hkept, ?_,
        deletionPass_hidden hinactive⟩
      rw [deletionPass_pk, hpk]

theorem withDeleted_keyed {store : Store} (h : store.Keyed) (now : ℕ) (ids : List String) :
    (store.withDeleted now ids).Keyed where
  wellFormed := {
    unique := uniqueBy_map (deletionPass_pk now ids) h.wellFormed.unique
    below := by simpa [Store.withDeleted, deletionPass_pk] using h.wellFormed.below }
  ids := uniqueBy_map (deletionPass_id now ids) h.ids

theorem syncIncremental_after (env : Env) (provider : Provider) (e : Engine) :
    (after (syncIncremental env provider) e).store =
      (after (processUntilUnchanged env provider provider.pages 0) e).store := by
  unfold syncIncremental
  by_cases hzero : provider.totalPages = 0
  · have hempty : provider.pages = [] := by simp [Provider.pages, hzero]
    rw [if_pos hzero, hempty]
    rfl
  · rw [if_neg hzero]
    unfold after
    rcases hloop : exec (processUntilUnchanged env provider provider.pages 0) e with ⟨outcome, t⟩
    cases outcome with
    | error err => rw [exec_bind_error hloop]
    | ok u =>
        rw [exec_bind_ok hloop]
        rfl

theorem toggle_keyed {store : Store} (h : store.Keyed) (pk : ℕ) (isActive : Bool) (now : ℕ) :
    (toggleContentVisibility pk isActive now store).Keyed := by
  have hpk : ∀ row : TabyinContent, (if row.pk = pk then
      { row with isActive := isActive, updatedAt := now } else row).pk = row.pk := by
    intro row
    split <;> rfl
  have hid : ∀ row : TabyinContent, (if row.pk = pk then
      { row with isActive := isActive, updatedAt := now } else row).externalId = row.externalId := by
    intro row
    split <;> rfl
  refine ⟨⟨uniqueBy_map hpk h.wellFormed.unique, ?_⟩, uniqueBy_map hid h.ids⟩
  intro row hrow
  obtain ⟨old, hold, rfl⟩ := List.mem_map.mp hrow
  rw [hpk]
  exact h.wellFormed.below old hold

theorem contentStep_keyed (env : Env) {store : Store} (h : store.Keyed) (act : ContentAction) :
    (contentStep env store act).Keyed := by
  cases act with
  | toggle pk isActive now => exact toggle_keyed h pk isActive now
  | syncFull provider now =>
      have hrun := walk_run env provider neverStop provider.pages 0 (e := Engine.start store now) h
      rw [← processPages_walk env provider provider.pages [] 0] at hrun
      unfold contentStep syncedStore
      dsimp only
      rcases syncFull_store env provider (Engine.start store now) with heq | ⟨stamp, heq⟩
      · rw [heq]
        exact hrun.keyed
      · rw [heq]
        exact withDeleted_keyed hrun.keyed _ _
  | syncIncremental provider now =>
      have hrun := walk_run env provider stopUnchanged provider.pages 0 (e := Engine.start store now) h
      rw [← processUntilUnchanged_walk] at hrun
      unfold contentStep
      dsimp only
      rw [syncIncremental_after]
      exact hrun.keyed

theorem toggle_hidden_iff {store : Store} {pk : ℕ} (hhidden : Hidden pk store) (pk' : ℕ)
    (isActive : Bool) (now : ℕ) :
    Hidden pk (toggleContentVisibility pk' isActive now store) ↔
      (ContentAction.toggle pk' isActive now).activates pk = false := by
  obtain ⟨row, hmem, hpk, hinactive⟩ := hhidden
  unfold ContentAction.activates
  by_cases hsame : pk' = pk
  · subst hsame
    simp only [beq_self_eq_true, Bool.true_and]
    constructor
    · rintro ⟨found, hfound, hfoundPk, hfoundInactive⟩
      obtain ⟨old, -, rfl⟩ := List.mem_map.mp hfound
      split at hfoundInactive
      case isTrue => exact hfoundInactive
      case isFalse hne =>
        rw [if_neg hne] at hfoundPk
        exact absurd hfoundPk hne
    · rintro rfl
      refine ⟨_, List.mem_map_of_mem hmem, ?_, ?_⟩
      · rw [if_pos hpk]
        exact hpk
      · rw [if_pos hpk]
  · have hne : row.pk ≠ pk' := fun h => hsame (h.symm.trans hpk)
    refine iff_of_true ⟨row, List.mem_map.mpr ⟨row, hmem, if_neg hne⟩, hpk, hinactive⟩ ?_
    simp [hsame]

/-- **One step.** A hidden content stays hidden unless an admin activates it or a run
processes a page that lists it under another hash. -/
theorem hidden_step_iff (env : Env) {store : Store} (hkeyed : store.Keyed) {pk : ℕ}
    (hhidden : Hidden pk store) (act : ContentAction) :
    Hidden pk (contentStep env store act) ↔
      act.activates pk = false ∧ Spares env pk store act := by
  cases act with
  | toggle pk' isActive now =>
      exact (toggle_hidden_iff hhidden pk' isActive now).trans (and_iff_left trivial).symm
  | syncFull provider now =>
      have hrun := walk_run env provider neverStop provider.pages 0
        (e := Engine.start store now) hkeyed
      have hstore := syncFull_store env provider (Engine.start store now)
      rw [processPages_walk env provider provider.pages [] 0] at hstore
      refine (hrun.hidden_iff (walk_subset _ _ _) hkeyed hhidden hstore).trans ?_
      exact (and_iff_right rfl).symm
  | syncIncremental provider now =>
      have hrun := walk_run env provider stopUnchanged provider.pages 0
        (e := Engine.start store now) hkeyed
      have hstore := syncIncremental_after env provider (Engine.start store now)
      rw [processUntilUnchanged_walk] at hstore
      refine (hrun.hidden_iff (walk_subset _ _ _) hkeyed hhidden (.inl hstore)).trans ?_
      exact (and_iff_right rfl).symm

/-- **Moderation.** After an admin has hidden a content and while no admin activates
it, it is hidden in every state that toggles and syncs reach exactly when no page that
a run processes to its end lists it under a hash other than the stored one. -/
theorem moderation_survives_iff (env : Env) (store : Store) (pk now : ℕ)
    (acts : List ContentAction) (hkeyed : store.Keyed)
    (hrow : ∃ row ∈ store.contents, row.pk = pk)
    (hadmin : ∀ act ∈ acts, act.activates pk = false) :
    (∀ pre, pre <+: acts →
      Hidden pk (run (contentStep env) (toggleContentVisibility pk false now store) pre)) ↔
      Along (contentStep env) (Spares env pk) (toggleContentVisibility pk false now store)
        acts := by
  have hhidden : Hidden pk (toggleContentVisibility pk false now store) := by
    obtain ⟨row, hmem, hpk⟩ := hrow
    refine ⟨_, List.mem_map_of_mem hmem, ?_, ?_⟩
    · rw [if_pos hpk]
      exact hpk
    · rw [if_pos hpk]
  have hstart : (toggleContentVisibility pk false now store).Keyed := toggle_keyed hkeyed _ _ _
  rw [← along_states hhidden acts]
  have hcongr := along_congr (I := fun s => s.Keyed ∧ Hidden pk s)
    (fun s act hs => hidden_step_iff env hs.1 hs.2 act)
    (fun s act hs hok => ⟨contentStep_keyed env hs.1 act, hok⟩) ⟨hstart, hhidden⟩ acts
  rw [hcongr, along_and]
  exact and_iff_right (along_of_forall hadmin)

instance decidableListsChanged (env : Env) (provider : Provider) (row : TabyinContent)
    (page : ℕ) : Decidable (ListsChanged env provider row page) :=
  inferInstanceAs (Decidable (_ ∧ _))

instance decidableSpares (env : Env) (pk : ℕ) (store : Store) :
    ∀ act, Decidable (Spares env pk store act)
  | .toggle _ _ _ => isTrue trivial
  | .syncFull provider now => inferInstanceAs (Decidable (∀ row ∈ store.contents, row.pk = pk →
      ∀ page ∈ (walk env provider neverStop provider.pages 0 (Engine.start store now)).1,
        ¬ ListsChanged env provider row page))
  | .syncIncremental provider now => inferInstanceAs (Decidable (∀ row ∈ store.contents,
      row.pk = pk →
      ∀ page ∈ (walk env provider stopUnchanged provider.pages 0 (Engine.start store now)).1,
        ¬ ListsChanged env provider row page))

instance decidableHidden (pk : ℕ) (store : Store) : Decidable (Hidden pk store) :=
  inferInstanceAs (Decidable (∃ row ∈ store.contents, row.pk = pk ∧ row.isActive = false))

/-- Two contents after their first sync. -/
def syncedOnce : Store := syncedStore titleEnv (sampleProvider fun _ => false) ⟨[], [], 1, 1⟩ 10

theorem syncedOnce_keyed : syncedOnce.Keyed :=
  contentStep_keyed titleEnv ⟨⟨by simp [UniqueBy], by simp⟩, by simp [UniqueBy]⟩
    (.syncFull (sampleProvider fun _ => false) 10)

/-- A hidden content after each of two runs that list it as it was. -/
theorem moderation_survives_unedited :
    Hidden 1 (run (contentStep titleEnv) (toggleContentVisibility 1 false 20 syncedOnce)
      [.syncFull (sampleProvider fun _ => false) 30]) ∧
    Hidden 1 (run (contentStep titleEnv) (toggleContentVisibility 1 false 20 syncedOnce)
      [.syncFull (sampleProvider fun _ => false) 30,
        .syncIncremental (sampleProvider fun _ => false) 40]) := by
  have hhidden := (moderation_survives_iff titleEnv syncedOnce 1 20
    [.syncFull (sampleProvider fun _ => false) 30,
      .syncIncremental (sampleProvider fun _ => false) 40] syncedOnce_keyed (by decide +kernel)
    (by simp [ContentAction.activates])).mpr (by decide +kernel)
  exact ⟨hhidden _ (List.prefix_append _ [_]), hhidden _ List.prefix_rfl⟩

/-- The source after an edit of the first title. -/
def editedProvider : Provider where
  totalPages := 1
  page := fun _ => ⟨.value (.value [sampleItem "ext-A" "Edited title for ext-A"])⟩
  failed := fun _ => false

/-- A sync after an edit at the source shows the hidden content again. -/
theorem hidden_content_reactivated :
    ¬ Hidden 1 (run (contentStep titleEnv) (toggleContentVisibility 1 false 20 syncedOnce)
      [.syncFull editedProvider 30]) := by
  decide +kernel

end SetadJang.Tabyin
