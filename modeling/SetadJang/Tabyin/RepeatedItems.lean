import SetadJang.Tabyin.Convergence

/-!
# Pages that list an id twice

`_upsert_batch` reads the stored rows once and decides on each item by what it read.  An id that
is new and occurs twice is inserted twice, which the unique column rejects.  A stored id that
occurs twice with other hashes is overwritten by the last of its items, and gets the attachments
of all of them.
-/

namespace SetadJang.Tabyin

open SetadJang.Framework SetadJang.Framework.Txn

/-! ## Items that are found changed -/

/-- The item is stored under another hash. -/
def Store.changed (env : Env) (store : Store) (item : ParsedItem) : Bool :=
  (changedEntry env store.byExternalId item).isSome

/-- The items with this id that a batch overwrites the row with, in turn. -/
def changedItems (env : Env) (store : Store) (items : List ParsedItem) (id : String) :
    List ParsedItem :=
  items.filter fun item => item.externalId == id && store.changed env item

/-- The columns and the attachments of a content are those of the item. -/
structure HoldsItem (env : Env) (item : ParsedItem) (store : Store) (row : TabyinContent) :
    Prop where
  source : sourceColumns env item = .ok row.source
  attachments : List.Forall₂ ParsedAttachment.Stored item.attachments (store.attachmentsOf row.pk)

/-- The batch returns, and leaves one row for each id, which holds one of the items with it. -/
def RepeatsHarmless (env : Env) (items : List ParsedItem) (e : Engine) : Prop :=
  ∃ t, Commits (upsertBatch env items) e ⟨⟩ t ∧ ∀ item ∈ items,
    ∃ row, (t.store.contents.filter fun row => row.externalId == item.externalId) = [row] ∧
      ∃ shown ∈ items, shown.externalId = item.externalId ∧ HoldsItem env shown t.store row

/-- The items of a batch that does no harm. -/
structure BatchFits (env : Env) (store : Store) (items : List ParsedItem) : Prop where
  /-- An id that is not stored occurs once. -/
  newOnce : items.Pairwise fun a b =>
    a.externalId = b.externalId → store.byExternalId a.externalId ≠ none
  newAccepted : ∀ item ∈ items, store.byExternalId item.externalId = none → item.AcceptedNew env
  /-- The database takes the columns of the last of the changed items with an id. -/
  lastAccepted : ∀ item ∈ items, ∀ last,
    (changedItems env store items item.externalId).getLast? = some last →
      ∃ source, sourceColumns env last = .ok source
  attachmentsAccepted : ∀ item ∈ items, store.changed env item = true →
    ∀ att ∈ item.attachments, att.Accepted
  /-- Of the changed items with an id only the last has attachments. -/
  attachmentsOnce : ∀ item ∈ items,
    ∀ earlier ∈ (changedItems env store items item.externalId).dropLast, earlier.attachments = []
  /-- A row that is skipped holds one of the items already. -/
  settled : ∀ item ∈ items, ∀ row, store.byExternalId item.externalId = some row →
    changedItems env store items item.externalId = [] →
      ∃ shown ∈ items, shown.externalId = item.externalId ∧ HoldsItem env shown store row

section Repeats

variable {env : Env} {items : List ParsedItem}

theorem newOnce_iff {store : Store} :
    ((newItems store.byExternalId items).map ParsedItem.externalId).Nodup ↔
      items.Pairwise fun a b =>
        a.externalId = b.externalId → store.byExternalId a.externalId ≠ none := by
  rw [List.Nodup, List.pairwise_map, newItems, List.pairwise_filter]
  refine List.Pairwise.iff fun a b => ?_
  simp only [Option.isNone_iff_eq_none]
  constructor
  · intro h heq hnone
    exact h hnone (heq ▸ hnone) heq
  · intro h hnone _ heq
    exact h heq hnone

/-- The entries about one row are the changed items with its id. -/
theorem changedItems_entries {store : Store} (hsound : store.Sound) {id : String}
    {row : TabyinContent} (hrow : store.byExternalId id = some row) :
    ((items.filterMap (changedEntry env store.byExternalId)).filter fun entry =>
      entry.1.pk == row.pk).map Prod.snd = changedItems env store items id := by
  induction items with
  | nil => rfl
  | cons item rest ih =>
      rw [changedItems, List.filter_cons, ← changedItems, Store.changed]
      cases hentry : changedEntry env store.byExternalId item with
      | none =>
          rw [List.filterMap_cons_none hentry, ih, Option.isSome_none, Bool.and_false,
            if_neg Bool.false_ne_true]
      | some entry =>
          obtain ⟨hitem, hfound, -⟩ := changedEntry_some hentry
          rw [List.filterMap_cons_some hentry, List.filter_cons, Option.isSome_some, Bool.and_true]
          -- keys and ids tell the rows apart
          have hsame : (entry.1.pk == row.pk) = (item.externalId == id) := by
            rw [Bool.eq_iff_iff, beq_iff_eq, beq_iff_eq]
            obtain ⟨hmem, hid⟩ := byExternalId_some hfound
            obtain ⟨hmem', hid'⟩ := byExternalId_some hrow
            constructor
            · intro hpk
              rw [← hid, ← hid', uniqueBy_of_nodup hsound.keys _ hmem _ hmem' hpk]
            · intro heq
              rw [heq, hrow] at hfound
              rw [Option.some.inj hfound]
          rw [hsame]
          by_cases heq : (item.externalId == id) = true
          · rw [if_pos heq, if_pos heq, List.map_cons, ih, hitem]
          · rw [if_neg heq, if_neg heq, ih]

/-- What a batch writes on a row is the last of its changed items. -/
theorem lastItem_entries {store : Store} (hsound : store.Sound) {id : String}
    {row : TabyinContent} (hrow : store.byExternalId id = some row) :
    lastItem (items.filterMap (changedEntry env store.byExternalId)) row.pk =
      (changedItems env store items id).getLast? := by
  rw [← changedItems_entries hsound hrow, List.getLast?_map, List.getLast?_filter, lastItem]

/-! ## What is stored afterwards -/

theorem bulkCreate_holds {e t : Engine} {u : PUnit} (hsound : e.store.Sound)
    (h : Commits (bulkCreate env items) e u t) : ∀ item ∈ items,
      ∃ row, t.store.byExternalId item.externalId = some row ∧ HoldsItem env item t.store row := by
  have hids := bulkCreate_nodup h
  have hwrote := bulkCreate_wrote hsound hids h
  obtain ⟨rows, atts, happends, hitems, -, -, hstored⟩ := bulkCreate_appends h
  intro item hitem
  obtain ⟨row, hrow, hinserted⟩ := hitems item hitem
  have hmem : row ∈ t.store.contents := happends.contents ▸ List.mem_append_right _ hrow
  refine ⟨row, hwrote.sound.byExternalId_iff.mpr ⟨hmem, hinserted.id⟩, hinserted.source, ?_⟩
  have hatts := hstored row hrow
  rwa [hinserted.id, attachmentsOf_self hids hitem,
    ← happends.attachmentsOf_new hsound hrow] at hatts

/-- An overwritten row: the columns of its last entry, the attachments of all of them. -/
theorem bulkUpdate_holds {entries : List (TabyinContent × ParsedItem)} {e t : Engine} {u : PUnit}
    (h : Commits (bulkUpdate env entries) e u t) {id : String} {row : TabyinContent}
    (hrow : e.store.byExternalId id = some row) {last : ParsedItem}
    (hlast : lastItem entries row.pk = some last) :
    ∃ row', t.store.byExternalId id = some row' ∧ sourceColumns env last = .ok row'.source ∧
      List.Forall₂ ParsedAttachment.Stored
        ((entries.filter fun entry => entry.1.pk == row.pk).flatMap fun entry => entry.2.attachments)
        (t.store.attachmentsOf row'.pk) := by
  obtain ⟨f, atts, hrewrites, hf, hstored⟩ := bulkUpdate_rewrites h
  obtain ⟨entry, hfound, -⟩ := Option.map_eq_some_iff.mp hlast
  have hentry : entry ∈ entries := List.mem_reverse.mp (List.mem_of_find?_eq_some hfound)
  have hpk : entry.1.pk = row.pk := by simpa using List.find?_some hfound
  refine ⟨f row, by rw [hrewrites.byExternalId, hrow, Option.map_some], ?_, ?_⟩
  · rcases hf row with ⟨-, hnone⟩ | ⟨other, -, hother, source, hsource, heq⟩
    · exact absurd hpk (hnone entry hentry)
    · dsimp only at hsource
      rw [hother, hlast] at hsource
      rw [heq]
      exact hsource
  · rw [hrewrites.pk, hrewrites.attachmentsOf_mem (List.mem_map.mpr ⟨entry, hentry, hpk⟩)]
    exact hstored row.pk

/-- What a batch that returns has done under each of its ids. -/
structure BatchLeaves (env : Env) (items : List ParsedItem) (s t : Store) : Prop where
  sound : t.Sound
  new : ∀ item ∈ items, s.byExternalId item.externalId = none →
    ∃ row, t.byExternalId item.externalId = some row ∧ HoldsItem env item t row
  skipped : ∀ id row, s.byExternalId id = some row → changedItems env s items id = [] →
    Untouched id s t
  changed : ∀ id row last, s.byExternalId id = some row →
    (changedItems env s items id).getLast? = some last →
      ∃ row', t.byExternalId id = some row' ∧ sourceColumns env last = .ok row'.source ∧
        List.Forall₂ ParsedAttachment.Stored
          ((changedItems env s items id).flatMap ParsedItem.attachments) (t.attachmentsOf row'.pk)

theorem HoldsItem.untouched {item : ParsedItem} {s t : Store} {row : TabyinContent} {id : String}
    (h : HoldsItem env item s row) (hrow : s.byExternalId id = some row)
    (hsame : Untouched id s t) : HoldsItem env item t row :=
  { h with attachments := by rw [hsame.attachments row hrow]; exact h.attachments }

theorem upsertBatch_leaves {e t : Engine} {u : PUnit} (hsound : e.store.Sound)
    (h : Commits (upsertBatch env items) e u t) : BatchLeaves env items e.store t.store := by
  obtain ⟨e₁, e₂, hstore, hcreated, hnew, hchanged⟩ := upsertBatch_created hsound h
  obtain ⟨entries, hentries⟩ : ∃ entries,
      entries = items.filterMap (changedEntry env e.store.byExternalId) := ⟨_, rfl⟩
  rw [← hentries] at hchanged
  have hfound : ∀ entry ∈ entries, e₂.store.byExternalId entry.2.externalId = some entry.1 :=
    fun entry hentry => (changedEntries_found hcreated (hentries ▸ hentry)).2
  have hframe : t.store.Sound ∧
      ∀ id ∉ entries.map fun entry => entry.2.externalId, Untouched id e₂.store t.store := by
    rcases hchanged with ⟨-, rfl⟩ | hchanged
    · exact ⟨hcreated.sound, fun _ _ => ⟨rfl, fun _ _ => rfl⟩⟩
    · exact bulkUpdate_frame hcreated.sound hfound hchanged
  -- a stored id is none of the new ones
  have hold : ∀ id row, e.store.byExternalId id = some row → Untouched id e.store e₂.store := by
    intro id row hrow
    refine hcreated.others id fun hin => ?_
    obtain ⟨item, hitem, rfl⟩ := List.mem_map.mp hin
    rw [(mem_newItems.mp hitem).2] at hrow
    cases hrow
  have hentry : ∀ id row, e.store.byExternalId id = some row →
      (entries.filter fun entry => entry.1.pk == row.pk).map Prod.snd =
        changedItems env e.store items id := fun id row hrow => by
    rw [hentries]
    exact changedItems_entries hsound hrow
  refine { sound := hframe.1, new := ?new, skipped := ?skipped, changed := ?changed }
  case new =>
    intro item hitem hnone
    have hmem : item ∈ newItems e.store.byExternalId items := mem_newItems.mpr ⟨hitem, hnone⟩
    have hother : item.externalId ∉ entries.map fun entry => entry.2.externalId := by
      intro hin
      obtain ⟨entry, hentry, heq⟩ := List.mem_map.mp hin
      exact (changedEntries_found hcreated (hentries ▸ hentry)).1
        (heq ▸ List.mem_map_of_mem hmem)
    rcases hnew with ⟨hnil, -⟩ | ⟨v, hnew⟩
    · rw [hnil] at hmem
      cases hmem
    · obtain ⟨row, hrow, hholds⟩ := bulkCreate_holds (hstore ▸ hsound) hnew item hmem
      have hsame := hframe.2 _ hother
      exact ⟨row, hsame.row.trans hrow, hholds.untouched hrow hsame⟩
  case skipped =>
    intro id row hrow hnil
    refine (hold id row hrow).trans (hframe.2 id fun hin => ?_)
    obtain ⟨entry, hmem, rfl⟩ := List.mem_map.mp hin
    have hsame : entry.1 = row := by
      have hfoundRow := (hold _ row hrow).row.trans hrow
      rw [hfound entry hmem] at hfoundRow
      exact Option.some.inj hfoundRow
    have hlisted := hentry _ row hrow
    rw [hnil, List.map_eq_nil_iff, List.filter_eq_nil_iff] at hlisted
    exact hlisted entry hmem (by rw [hsame]; exact beq_self_eq_true _)
  case changed =>
    intro id row last hrow hlast
    have hlastItem : lastItem entries row.pk = some last := by
      rw [hentries, lastItem_entries hsound hrow, hlast]
    rcases hchanged with ⟨hnil, -⟩ | hchanged
    · rw [hnil] at hlastItem
      cases hlastItem
    · obtain ⟨row', hrow', hsource, hatts⟩ :=
        bulkUpdate_holds hchanged ((hold id row hrow).row.trans hrow) hlastItem
      refine ⟨row', hrow', hsource, ?_⟩
      rwa [← hentry id row hrow, List.flatMap_map]

/-! ## When repeats do no harm -/

theorem sourceColumns_rawPayload {item : ParsedItem} {source : SourceColumns}
    (h : sourceColumns env item = .ok source) : source.rawPayload = .item item.rawPayload := by
  simp only [sourceColumns, except_bind_ok_iff] at h
  obtain ⟨_, -, _, -, _, -, _, -, _, -, _, -, _, -, payload, hpayload, _, -, h⟩ := h
  cases h
  unfold jsonColumn at hpayload
  split at hpayload
  · cases hpayload
  · exact (Except.ok.inj hpayload).symm

theorem parseContentItem_payload {raw : RawItem} {item : ParsedItem}
    (h : parseContentItem env raw = .ok (some item)) : item.rawPayload = raw := by
  unfold parseContentItem at h
  split at h
  · cases h
  · split at h
    · cases h
    · cases h
      rfl

/-- A parsed item is what its own payload reads as. -/
theorem parseItems_payload {raws : List RawItem} {skipped : ℕ}
    (h : parseItems env raws = .ok (items, skipped)) :
    ∀ item ∈ items, parseContentItem env item.rawPayload = .ok (some item) := by
  induction raws generalizing items skipped with
  | nil =>
      cases h
      exact fun _ hmem => absurd hmem List.not_mem_nil
  | cons raw rest ih =>
      simp only [parseItems, except_bind_ok_iff] at h
      obtain ⟨parsed, hparsed, ⟨found, count⟩, hfound, h⟩ := h
      cases parsed with
      | none =>
          cases h
          exact ih hfound
      | some item =>
          cases h
          refine List.forall_mem_cons.mpr ⟨?_, ih hfound⟩
          rw [parseContentItem_payload hparsed, hparsed]

/-- Items of one page with the same columns are the same item. -/
theorem item_of_columns {response : Response} (hparse : response.parse env = .ok items)
    {a b : ParsedItem} (ha : a ∈ items) (hb : b ∈ items) {source : SourceColumns}
    (hsource : sourceColumns env a = .ok source) (hsource' : sourceColumns env b = .ok source) :
    a = b := by
  simp only [Response.parse, except_bind_ok_iff] at hparse
  obtain ⟨raws, -, ⟨found, skipped⟩, hfound, hitems⟩ := hparse
  obtain rfl := Except.ok.inj hitems
  have hpayload : a.rawPayload = b.rawPayload := RawPayload.item.inj
    ((sourceColumns_rawPayload hsource).symm.trans (sourceColumns_rawPayload hsource'))
  have hread := parseItems_payload hfound a ha
  rw [hpayload, parseItems_payload hfound b hb] at hread
  exact (Option.some.inj (Except.ok.inj hread)).symm

theorem flatMap_last {α β : Type} {xs : List α} {last : α} (hlast : xs.getLast? = some last)
    (f : α → List β) : xs.flatMap f = xs.dropLast.flatMap f ++ f last := by
  conv_lhs => rw [← List.dropLast_append_getLast? last hlast]
  rw [List.flatMap_append, List.flatMap_singleton]

theorem changedItems_subset {store : Store} {id : String} {item : ParsedItem}
    (h : item ∈ changedItems env store items id) :
    item ∈ items ∧ item.externalId = id ∧ store.changed env item = true := by
  simpa [changedItems] using h

/-- With unique ids a content is the only one that its id selects. -/
theorem Store.Sound.filter_id {store : Store} (h : store.Sound) {id : String} {row : TabyinContent} :
    (store.contents.filter fun other => other.externalId == id) = [row] ↔
      store.byExternalId id = some row := by
  constructor
  · intro hfilter
    have hmem : row ∈ store.contents.filter fun other => other.externalId == id := by
      rw [hfilter]
      exact List.mem_singleton_self row
    exact h.byExternalId_iff.mpr (by simpa using hmem)
  · intro hrow
    obtain ⟨hmem, rfl⟩ := byExternalId_some hrow
    exact filter_key_of_nodup h.ids hmem

/-- The conditions under which the batch returns. -/
theorem upsertBatch_returns_repeats {e : Engine} (hsound : e.store.Sound) :
    Returns (upsertBatch env items) e ↔
      (items.Pairwise fun a b =>
        a.externalId = b.externalId → e.store.byExternalId a.externalId ≠ none) ∧
      (∀ item ∈ items, e.store.byExternalId item.externalId = none → item.AcceptedNew env) ∧
      (∀ item ∈ items, ∀ last,
        (changedItems env e.store items item.externalId).getLast? = some last →
          ∃ source, sourceColumns env last = .ok source) ∧
      ∀ item ∈ items, e.store.changed env item = true → ∀ att ∈ item.attachments, att.Accepted := by
  have hentry : ∀ entry, entry ∈ items.filterMap (changedEntry env e.store.byExternalId) →
      entry.2 ∈ items ∧ e.store.changed env entry.2 = true ∧
        e.store.byExternalId entry.2.externalId = some entry.1 := by
    intro entry hmem
    obtain ⟨item, hitem, hsome⟩ := List.mem_filterMap.mp hmem
    obtain ⟨rfl, hrow, -⟩ := changedEntry_some hsome
    exact ⟨hitem, by rw [Store.changed, hsome]; rfl, hrow⟩
  have hchanged : ∀ item ∈ items, e.store.changed env item = true → ∃ row,
      (row, item) ∈ items.filterMap (changedEntry env e.store.byExternalId) := by
    intro item hitem hchanged
    obtain ⟨⟨row, item'⟩, hsome⟩ := Option.isSome_iff_exists.mp hchanged
    obtain rfl := (changedEntry_some hsome).1
    exact ⟨row, List.mem_filterMap.mpr ⟨item', hitem, hsome⟩⟩
  rw [upsertBatch_returns_iff, newOnce_iff, and_assoc]
  refine and_congr_right fun _ => and_congr ?_ ⟨fun h => ?_, fun h => ?_⟩
  · exact ⟨fun h item hitem hnone => h item (mem_newItems.mpr ⟨hitem, hnone⟩),
      fun h item hitem => h item (mem_newItems.mp hitem).1 (mem_newItems.mp hitem).2⟩
  · obtain ⟨hcolumns, haccepted⟩ := h _ rfl
    refine ⟨fun item hitem last hlast => ?_, fun item hitem hitemChanged => ?_⟩
    · obtain ⟨hmem, hid, hlastChanged⟩ := changedItems_subset (List.mem_of_getLast? hlast)
      obtain ⟨row, hin⟩ := hchanged last hmem hlastChanged
      have hsource := hcolumns _ hin
      rwa [lastItem_entries hsound (hentry _ hin).2.2, hid, hlast, Option.getD_some] at hsource
    · obtain ⟨row, hin⟩ := hchanged item hitem hitemChanged
      exact haccepted _ hin
  · rintro entries rfl
    refine ⟨fun entry hin => ?_, fun entry hin => h.2 _ (hentry entry hin).1 (hentry entry hin).2.1⟩
    obtain ⟨hmem, hentryChanged, hrow⟩ := hentry entry hin
    have hlisted : entry.2 ∈ changedItems env e.store items entry.2.externalId :=
      List.mem_filter.mpr ⟨hmem, by rw [hentryChanged, beq_self_eq_true]; rfl⟩
    obtain ⟨last, hlast⟩ := Option.isSome_iff_exists.mp
      (List.getLast?_isSome.mpr (List.ne_nil_of_mem hlisted))
    rw [lastItem_entries hsound hrow, hlast, Option.getD_some]
    exact h.1 _ hmem last hlast

/-- **When repeated items do no harm.**  A batch returns and leaves under each of its ids one row
that holds one of the items, exactly when the items fit. -/
theorem upsertBatch_repeats_iff {response : Response} (hparse : response.parse env = .ok items)
    {e : Engine} (hsound : e.store.Sound) :
    RepeatsHarmless env items e ↔ BatchFits env e.store items := by
  constructor
  · rintro ⟨t, h, hrows⟩
    obtain ⟨hnewOnce, hnewAccepted, hlastAccepted, hattsAccepted⟩ :=
      (upsertBatch_returns_repeats hsound).mp ⟨⟨⟩, t, h⟩
    have hleaves := upsertBatch_leaves hsound h
    refine ⟨hnewOnce, hnewAccepted, hlastAccepted, hattsAccepted, fun item hitem => ?_,
      fun item hitem row hrow hnil => ?_⟩
    · cases hlast : (changedItems env e.store items item.externalId).getLast? with
      | none =>
          rw [List.getLast?_eq_none_iff.mp hlast]
          exact fun _ hmem => absurd hmem List.not_mem_nil
      | some last =>
          obtain ⟨hmem, hid, hlastChanged⟩ := changedItems_subset (List.mem_of_getLast? hlast)
          obtain ⟨⟨row, last'⟩, hsome⟩ := Option.isSome_iff_exists.mp hlastChanged
          have hstored := (changedEntry_some hsome).2.1
          rw [hid] at hstored
          obtain ⟨row', hrow', hsource, hatts⟩ := hleaves.changed _ _ _ hstored hlast
          obtain ⟨row'', hfilter, shown, hshown, -, hholds⟩ := hrows item hitem
          rw [hleaves.sound.filter_id, hrow'] at hfilter
          obtain rfl := Option.some.inj hfilter
          obtain rfl := item_of_columns hparse hshown hmem hholds.source hsource
          -- the attachments are those of the last item alone
          have hlength := hatts.length_eq.trans hholds.attachments.length_eq.symm
          rw [flatMap_last hlast, List.length_append, Nat.add_eq_right] at hlength
          exact List.flatMap_eq_nil_iff.mp (List.length_eq_zero_iff.mp hlength)
    · have hsame := hleaves.skipped _ _ hrow hnil
      obtain ⟨row', hfilter, shown, hshown, hid, hholds⟩ := hrows item hitem
      rw [hleaves.sound.filter_id, hsame.row, hrow] at hfilter
      obtain rfl := Option.some.inj hfilter
      refine ⟨shown, hshown, hid, hholds.source, ?_⟩
      rw [← hsame.attachments _ hrow]
      exact hholds.attachments
  · intro hfits
    obtain ⟨u, t, h⟩ := (upsertBatch_returns_repeats hsound).mpr
      ⟨hfits.newOnce, hfits.newAccepted, hfits.lastAccepted, hfits.attachmentsAccepted⟩
    have hleaves := upsertBatch_leaves hsound h
    refine ⟨t, h, fun item hitem => ?_⟩
    simp only [hleaves.sound.filter_id]
    cases hrow : e.store.byExternalId item.externalId with
    | none =>
        obtain ⟨row, hrow, hholds⟩ := hleaves.new item hitem hrow
        exact ⟨row, hrow, item, hitem, rfl, hholds⟩
    | some row =>
        cases hlast : (changedItems env e.store items item.externalId).getLast? with
        | none =>
            have hnil := List.getLast?_eq_none_iff.mp hlast
            have hsame := hleaves.skipped _ _ hrow hnil
            obtain ⟨shown, hshown, hid, hholds⟩ := hfits.settled item hitem row hrow hnil
            exact ⟨row, hsame.row.trans hrow, shown, hshown, hid, hholds.untouched hrow hsame⟩
        | some last =>
            obtain ⟨hmem, hid, -⟩ := changedItems_subset (List.mem_of_getLast? hlast)
            obtain ⟨row', hrow', hsource, hatts⟩ := hleaves.changed _ _ _ hrow hlast
            refine ⟨row', hrow', last, hmem, hid, hsource, ?_⟩
            have hearlier := List.flatMap_eq_nil_iff.mpr (hfits.attachmentsOnce item hitem)
            rwa [flatMap_last hlast, hearlier, List.nil_append] at hatts

end Repeats

/-- Every item has the same hash. -/
def constantEnv : Env := { sampleEnv with digest := fun _ => "0" }

/-- A page that lists one id twice. -/
def repeatedPage : Response :=
  ⟨.value (.value [sampleItem "ext-A" "first", sampleItem "ext-A" "second"])⟩

theorem repeatedPage_parse : ∃ a b, repeatedPage.parse constantEnv = .ok [a, b] ∧
    ∀ item ∈ [a, b], item.externalId = "ext-A" ∧ item.attachments = [] ∧
      ∃ source, sourceColumns constantEnv item = .ok source :=
  ⟨_, _, rfl, List.forall_mem_cons.mpr ⟨⟨rfl, rfl, _, rfl⟩, List.forall_mem_cons.mpr
    ⟨⟨rfl, rfl, _, rfl⟩, fun _ hmem => absurd hmem List.not_mem_nil⟩⟩⟩

/-- Over a stored row, and without attachments, the last item stays and nothing is lost. -/
theorem repeats_harmless_stored : ∃ items, repeatedPage.parse constantEnv = .ok items ∧
    RepeatsHarmless constantEnv items (Engine.start (sampleStore "ext-A" .external) 10) := by
  obtain ⟨a, b, hparse, hitems⟩ := repeatedPage_parse
  have hrow : (sampleStore "ext-A" .external).byExternalId "ext-A" =
      some (sampleRow 1 "ext-A" .external) := rfl
  have hchanged : ∀ item ∈ [a, b], (sampleStore "ext-A" .external).changed constantEnv item =
      true := by
    intro item hitem
    rw [Store.changed, changedEntry, (hitems item hitem).1, hrow]
    rfl
  refine ⟨[a, b], hparse, (upsertBatch_repeats_iff hparse
    (sampleStore_sound "ext-A" .external (by decide))).mpr ?_⟩
  refine ⟨?_, fun item hitem hnone => ?_, fun item hitem last hlast => ?_,
    fun item hitem _ att hatt => ?_, fun item hitem earlier hearlier => ?_,
    fun item hitem row _ hnil => ?_⟩
  · refine List.pairwise_pair.mpr fun _ hnone => ?_
    rw [(hitems a List.mem_cons_self).1] at hnone
    cases hrow.symm.trans hnone
  · rw [(hitems item hitem).1] at hnone
    cases hrow.symm.trans hnone
  · exact (hitems last (changedItems_subset (List.mem_of_getLast? hlast)).1).2.2
  · rw [(hitems item hitem).2.1] at hatt
    cases hatt
  · exact (hitems earlier (changedItems_subset (List.mem_of_mem_dropLast hearlier)).1).2.1
  · have hmem : item ∈ changedItems constantEnv (sampleStore "ext-A" .external) [a, b]
        item.externalId :=
      List.mem_filter.mpr ⟨hitem, by rw [hchanged item hitem, beq_self_eq_true]; rfl⟩
    exact absurd hnil (List.ne_nil_of_mem hmem)

/-- Into an empty table the batch inserts the id twice and raises. -/
theorem repeated_new_id_raises : ∃ items, repeatedPage.parse constantEnv = .ok items ∧
    ¬ RepeatsHarmless constantEnv items (Engine.start ⟨[], [], 1, 1⟩ 10) := by
  obtain ⟨a, b, hparse, hitems⟩ := repeatedPage_parse
  refine ⟨[a, b], hparse, ?_⟩
  rintro ⟨t, h, -⟩
  have hsound : (Engine.start ⟨[], [], 1, 1⟩ 10).store.Sound :=
    ⟨List.nodup_nil, List.nodup_nil, by simp [Engine.start], by simp [Engine.start]⟩
  have hpair := List.pairwise_pair.mp ((upsertBatch_returns_repeats hsound).mp ⟨⟨⟩, t, h⟩).1
  refine hpair ?_ rfl
  rw [(hitems a List.mem_cons_self).1, (hitems b (List.mem_cons_of_mem _ List.mem_cons_self)).1]

end SetadJang.Tabyin
