import SetadJang.Tabyin.Writes

/-!
# What a batch leaves in the tables

A batch that returns has inserted its new items, overwritten the rows of its
changed items and replaced their attachments; every other content is as it was,
with its attachments.  A batch of items with distinct ids returns exactly when the
database accepts each item that is new or changed.
-/

namespace SetadJang.Tabyin

open SetadJang.Framework SetadJang.Framework.Txn

/-! ## What is under one id -/

/-- The content with this id is as it was, with its attachments. -/
structure Untouched (id : String) (s t : Store) : Prop where
  row : t.byExternalId id = s.byExternalId id
  attachments : ∀ row, s.byExternalId id = some row → t.attachmentsOf row.pk = s.attachmentsOf row.pk

/-- A content as an item that was written leaves it. -/
structure ShowsItem (env : Env) (item : ParsedItem) (store : Store) (row : TabyinContent) :
    Prop where
  source : sourceColumns env item = .ok row.source
  present : row.isDeletedInSource = false
  active : row.isActive = true
  attachments : (store.attachmentsOf row.pk).map TabyinAttachment.link =
    item.attachments.map ParsedAttachment.link

/-- The items are written and nothing else is. -/
structure Wrote (env : Env) (items : List ParsedItem) (s t : Store) : Prop where
  sound : t.Sound
  others : ∀ id ∉ items.map ParsedItem.externalId, Untouched id s t
  shown : ∀ item ∈ items, ∃ row, t.byExternalId item.externalId = some row ∧
    ShowsItem env item t row

theorem Untouched.trans {id : String} {s t u : Store} (hst : Untouched id s t)
    (htu : Untouched id t u) : Untouched id s u where
  row := htu.row.trans hst.row
  attachments := by
    intro row hrow
    rw [htu.attachments row (hst.row.trans hrow), hst.attachments row hrow]

/-- A content that is written stays so while it is not touched. -/
theorem ShowsItem.untouched {env : Env} {item : ParsedItem} {s t : Store} {row : TabyinContent}
    (h : ShowsItem env item s row) (hrow : s.byExternalId item.externalId = some row)
    (hsame : Untouched item.externalId s t) : ShowsItem env item t row :=
  { h with attachments := by rw [hsame.attachments row hrow, h.attachments] }

theorem wrote_nil {env : Env} {s : Store} (h : s.Sound) : Wrote env [] s s where
  sound := h
  others := fun _ _ => ⟨rfl, fun _ _ => rfl⟩
  shown := by simp

theorem Wrote.append {env : Env} {xs ys : List ParsedItem} {s t u : Store}
    (hst : Wrote env xs s t) (htu : Wrote env ys t u)
    (hdisjoint : ∀ item ∈ xs, item.externalId ∉ ys.map ParsedItem.externalId) :
    Wrote env (xs ++ ys) s u where
  sound := htu.sound
  others := by
    intro id hid
    rw [List.map_append, List.mem_append, not_or] at hid
    exact (hst.others id hid.1).trans (htu.others id hid.2)
  shown := by
    intro item hitem
    rcases List.mem_append.mp hitem with hitem | hitem
    · obtain ⟨row, hrow, hshown⟩ := hst.shown item hitem
      have hsame := htu.others _ (hdisjoint item hitem)
      exact ⟨row, hsame.row.trans hrow, hshown.untouched hrow hsame⟩
    · exact htu.shown item hitem

/-- Only the set of the items matters. -/
theorem Wrote.congr {env : Env} {xs ys : List ParsedItem} {s t : Store} (h : Wrote env xs s t)
    (hmem : ∀ item, item ∈ ys ↔ item ∈ xs) : Wrote env ys s t where
  sound := h.sound
  others := by
    intro id hid
    refine h.others id fun hin => hid ?_
    obtain ⟨item, hitem, rfl⟩ := List.mem_map.mp hin
    exact List.mem_map_of_mem ((hmem item).mpr hitem)
  shown := fun item hitem => h.shown item ((hmem item).mp hitem)

theorem Store.Sound.byExternalId_iff {store : Store} (h : store.Sound) {id : String}
    {row : TabyinContent} :
    store.byExternalId id = some row ↔ row ∈ store.contents ∧ row.externalId = id :=
  (uniqueBy_of_nodup h.ids).find?_eq_some_iff

theorem byExternalId_eq_none {store : Store} {id : String} :
    store.byExternalId id = none ↔ ∀ row ∈ store.contents, row.externalId ≠ id := by
  simp [Store.byExternalId]

/-! ## The two writes of a batch -/

theorem bulkCreate_returns {env : Env} {items : List ParsedItem}
    (hids : (items.map ParsedItem.externalId).Nodup) {e : Engine}
    (hfree : ∀ item ∈ items, e.store.byExternalId item.externalId = none) :
    Returns (bulkCreate env items) e ↔ ∀ item ∈ items, item.AcceptedNew env := by
  have hfree' : ∀ item ∈ items, ∀ row ∈ e.store.contents, row.externalId ≠ item.externalId :=
    fun item hitem => byExternalId_eq_none.mp (hfree item hitem)
  have hcontents := insertContents_returns env hids hfree'
  -- once the rows are there, only an attachment can be rejected
  have hrest : ∀ {rows t}, Commits (insertContents env items) e rows t →
      (Returns (forEach (fun row : TabyinContent =>
          forEach (insertAttachment row.pk) (attachmentsOf items row.externalId)) rows) t ↔
        ∀ item ∈ items, ∀ att ∈ item.attachments, att.Accepted) := by
    intro rows t hrows
    obtain ⟨-, hitems, hall, -⟩ := insertContents_commits hrows
    have hbody : ∀ (row : TabyinContent) (e' : Engine),
        Returns (forEach (insertAttachment row.pk) (attachmentsOf items row.externalId)) e' ↔
          ∀ att ∈ attachmentsOf items row.externalId, att.Accepted :=
      fun row e' => forEach_returns (insertAttachment_returns row.pk) _ e'
    rw [forEach_returns hbody]
    constructor
    · intro h item hitem
      obtain ⟨row, hrow, hinserted⟩ := hitems item hitem
      have hatts := h row hrow
      rwa [hinserted.id, attachmentsOf_self hids hitem] at hatts
    · intro h row hrow
      obtain ⟨item, hitem, hinserted⟩ := hall row hrow
      rw [hinserted.id, attachmentsOf_self hids hitem]
      exact h item hitem
  constructor
  · intro h
    obtain ⟨n, t, hatomic, -⟩ := returns_bind.mp h
    obtain ⟨rows, t₁, hrows, hblocks⟩ := returns_bind.mp ⟨n, t, commits_atomic.mp hatomic⟩
    obtain ⟨u, t₂, hatts, -⟩ := returns_bind.mp hblocks
    have hcolumns := hcontents.mp ⟨rows, t₁, hrows⟩
    have haccepted := (hrest hrows).mp ⟨u, t₂, hatts⟩
    intro item hitem
    exact ⟨(hcolumns item hitem).1, (hcolumns item hitem).2, haccepted item hitem⟩
  · intro h
    obtain ⟨rows, t₁, hrows⟩ := hcontents.mpr fun item hitem =>
      ⟨(h item hitem).id, (h item hitem).accepted.columns⟩
    obtain ⟨u, t₂, hatts⟩ := (hrest hrows).mpr fun item hitem =>
      (h item hitem).accepted.attachments
    unfold bulkCreate
    refine returns_bind_of_forall (returns_atomic.mpr ?_) fun n t => returns_modify _ t
    exact returns_bind.mpr ⟨rows, t₁, hrows, returns_bind.mpr ⟨u, t₂, hatts, returns_pure _ t₂⟩⟩

theorem bulkCreate_nodup {env : Env} {items : List ParsedItem} {e t : Engine} {u : PUnit}
    (h : Commits (bulkCreate env items) e u t) : (items.map ParsedItem.externalId).Nodup := by
  simp only [bulkCreate, count, commits_bind, commits_atomic, commits_pure, commits_modify] at h
  obtain ⟨n, e₂, ⟨rows, e₁, hrows, -⟩, -⟩ := h
  exact insertContents_nodup hrows

/-- What the creating half of a batch leaves. -/
theorem bulkCreate_commits {env : Env} {items : List ParsedItem} {e t : Engine} {u : PUnit}
    (h : Commits (bulkCreate env items) e u t) :
    ∃ rows e₁ e₂ v, Commits (insertContents env items) e rows e₁ ∧
      Commits (forEach (fun row : TabyinContent =>
        forEach (insertAttachment row.pk) (attachmentsOf items row.externalId)) rows) e₁ v e₂ ∧
      t.store = e₂.store := by
  simp only [bulkCreate, count, commits_bind, commits_atomic, commits_pure, commits_modify] at h
  obtain ⟨n, e₃, ⟨rows, e₁, hrows, v, e₂, hatts, rfl, rfl⟩, rfl⟩ := h
  exact ⟨rows, e₁, e₃, v, hrows, hatts, rfl⟩

/-- The tables after an insert: rows with the next keys, and attachments of theirs. -/
structure Appends (rows : List TabyinContent) (atts : List TabyinAttachment) (s t : Store) :
    Prop where
  contents : t.contents = s.contents ++ rows
  attachments : t.attachments = s.attachments ++ atts
  next : t.nextContent = s.nextContent + rows.length
  keys : rows.map TabyinContent.pk = List.range' s.nextContent rows.length
  owned : ∀ att ∈ atts, att.content ∈ rows.map TabyinContent.pk

section Appends

variable {rows : List TabyinContent} {atts : List TabyinAttachment} {s t : Store}

theorem Appends.later (h : Appends rows atts s t) {pk : ℕ}
    (hpk : pk ∈ rows.map TabyinContent.pk) :
    s.nextContent ≤ pk ∧ pk < s.nextContent + rows.length := by
  rwa [h.keys, List.mem_range'_1] at hpk

theorem Appends.nodup (h : Appends rows atts s t) : (rows.map TabyinContent.pk).Nodup := by
  rw [h.keys]
  exact List.nodup_range'

theorem Appends.attachmentsOf (h : Appends rows atts s t) (pk : ℕ) :
    t.attachmentsOf pk = s.attachmentsOf pk ++ atts.filter fun att => att.content == pk := by
  unfold Store.attachmentsOf
  rw [h.attachments, List.filter_append]

/-- New ids keep the tables sound. -/
theorem Appends.sound (h : Appends rows atts s t) (hs : s.Sound)
    (hids : (rows.map TabyinContent.externalId).Nodup)
    (hfree : ∀ id ∈ rows.map TabyinContent.externalId, ∀ old ∈ s.contents, old.externalId ≠ id) :
    t.Sound where
  keys := by
    rw [h.contents, List.map_append, List.nodup_append]
    refine ⟨hs.keys, h.nodup, ?_⟩
    intro pk hold pk' hnew heq
    obtain ⟨old, hmem, rfl⟩ := List.mem_map.mp hold
    have hlt := hs.below old hmem
    have hle := (h.later hnew).1
    omega
  ids := by
    rw [h.contents, List.map_append, List.nodup_append]
    refine ⟨hs.ids, hids, ?_⟩
    intro id hold id' hnew heq
    obtain ⟨old, hmem, rfl⟩ := List.mem_map.mp hold
    exact hfree id' hnew old hmem heq
  below := by
    intro row hrow
    rw [h.contents] at hrow
    rw [h.next]
    rcases List.mem_append.mp hrow with hrow | hrow
    · exact Nat.lt_add_right _ (hs.below row hrow)
    · exact (h.later (List.mem_map_of_mem hrow)).2
  attached := by
    intro att hatt
    rw [h.attachments] at hatt
    rw [h.next]
    rcases List.mem_append.mp hatt with hatt | hatt
    · exact Nat.lt_add_right _ (hs.attached att hatt)
    · exact (h.later (h.owned att hatt)).2

/-- The new attachments belong to contents with later keys. -/
theorem Appends.others (h : Appends rows atts s t) (hs : s.Sound) {id : String}
    (hid : id ∉ rows.map TabyinContent.externalId) : Untouched id s t where
  row := by
    have hnew : rows.find? (fun row => row.externalId == id) = none := by
      refine List.find?_eq_none.mpr fun row hrow => ?_
      simp only [beq_iff_eq]
      rintro rfl
      exact hid (List.mem_map_of_mem hrow)
    unfold Store.byExternalId
    rw [h.contents, List.find?_append, hnew, Option.or_none]
  attachments := by
    intro row hrow
    have hlt := hs.below row (byExternalId_some hrow).1
    have hnone : atts.filter (fun att => att.content == row.pk) = [] := by
      refine List.filter_eq_nil_iff.mpr fun att hatt => ?_
      have hle := (h.later (h.owned att hatt)).1
      simp only [beq_iff_eq]
      omega
    rw [h.attachmentsOf, hnone, List.append_nil]

/-- A new content has the attachments that were inserted for it. -/
theorem Appends.attachmentsOf_new (h : Appends rows atts s t) (hs : s.Sound)
    {row : TabyinContent} (hrow : row ∈ rows) :
    t.attachmentsOf row.pk = atts.filter fun att => att.content == row.pk := by
  have hold : s.attachmentsOf row.pk = [] := by
    refine List.filter_eq_nil_iff.mpr fun att hatt => ?_
    have hlt := hs.attached att hatt
    have hle := (h.later (List.mem_map_of_mem hrow)).1
    simp only [beq_iff_eq]
    omega
  rw [h.attachmentsOf, hold, List.nil_append]

end Appends

/-- The creating half of a batch appends a row for each item, with the attachments that are
found under its id. -/
theorem bulkCreate_appends {env : Env} {items : List ParsedItem} {e t : Engine} {u : PUnit}
    (h : Commits (bulkCreate env items) e u t) :
    ∃ rows atts, Appends rows atts e.store t.store ∧
      (∀ item ∈ items, ∃ row ∈ rows, Inserted env item row) ∧
      rows.map TabyinContent.externalId = items.map ParsedItem.externalId ∧
      (∀ item ∈ items, ∀ row ∈ e.store.contents, row.externalId ≠ item.externalId) ∧
      ∀ row ∈ rows, List.Forall₂ ParsedAttachment.Stored (attachmentsOf items row.externalId)
        (atts.filter fun att => att.content == row.pk) := by
  obtain ⟨rows, e₁, e₂, v, hrows, hatts, hstore⟩ := bulkCreate_commits h
  obtain ⟨rfl, hitems, -, hrowIds, hpks, hfree⟩ := insertContents_commits hrows
  have hpkNodup : (rows.map TabyinContent.pk).Nodup := by
    rw [hpks]
    exact List.nodup_range'
  obtain ⟨atts, next, rfl, howned, hstored⟩ := insertBlocks_commits hatts
  refine ⟨rows, atts, ?_, hitems, hrowIds, hfree, fun row hrow => ?_⟩
  · rw [hstore]
    exact ⟨rfl, rfl, rfl, hpks, howned⟩
  · have hrowAtts := hstored row.pk
    rwa [filter_key_of_nodup hpkNodup hrow, List.flatMap_singleton] at hrowAtts

theorem bulkCreate_wrote {env : Env} {items : List ParsedItem} {e t : Engine} {u : PUnit}
    (hsound : e.store.Sound) (hids : (items.map ParsedItem.externalId).Nodup)
    (h : Commits (bulkCreate env items) e u t) : Wrote env items e.store t.store := by
  obtain ⟨rows, atts, happends, hitems, hrowIds, hfree, hstored⟩ := bulkCreate_appends h
  have hsound' : t.store.Sound := by
    refine happends.sound hsound (hrowIds ▸ hids) fun id hid => ?_
    rw [hrowIds] at hid
    obtain ⟨item, hitem, rfl⟩ := List.mem_map.mp hid
    exact hfree item hitem
  refine { sound := hsound', others := ?others, shown := ?shown }
  case others =>
    intro id hid
    exact happends.others hsound (hrowIds ▸ hid)
  case shown =>
    intro item hitem
    obtain ⟨row, hrow, hinserted⟩ := hitems item hitem
    have hmem : row ∈ t.store.contents := happends.contents ▸ List.mem_append_right _ hrow
    refine ⟨row, hsound'.byExternalId_iff.mpr ⟨hmem, hinserted.id⟩, ?_⟩
    exact {
      source := hinserted.source
      present := hinserted.present
      active := hinserted.active
      attachments := by
        have hlinks := links_eq (hstored row hrow)
        rw [hinserted.id, attachmentsOf_self hids hitem] at hlinks
        rw [happends.attachmentsOf_new hsound hrow, hlinks] }

/-- What the updating half of a batch leaves. -/
theorem bulkUpdate_commits {env : Env} {entries : List (TabyinContent × ParsedItem)}
    {e t : Engine} {u : PUnit} (h : Commits (bulkUpdate env entries) e u t) :
    ∃ f, (∀ row, Overwrites env e.now
          (fun entry => (lastItem entries entry.1.pk).getD entry.2) entries row (f row)) ∧
      ∃ e₁ e₂ v, e₁.store.contents = e.store.contents.map f ∧
        e₁.store.nextContent = e.store.nextContent ∧
        (e₁.store.attachments = e.store.attachments.filter fun att =>
          !(entries.any fun entry => entry.1.pk == att.content)) ∧
        Commits (forEach (fun entry : TabyinContent × ParsedItem =>
          forEach (insertAttachment entry.1.pk) entry.2.attachments) entries) e₁ v e₂ ∧
        t.store = e₂.store := by
  simp only [bulkUpdate, count, setStore, commits_bind, commits_atomic, commits_modify] at h
  obtain ⟨v, e₃, ⟨w, e₁, hupdates, x, e₂, rfl, hatts⟩, rfl⟩ := h
  obtain ⟨f, rfl, hf⟩ := updateContents_commits hupdates
  refine ⟨f, hf, _, e₃, v, ?_, ?_, ?_, hatts, rfl⟩ <;> rfl

/-- The updating half of a batch returns when the database takes the columns that are written and
all attachments. -/
theorem bulkUpdate_returns_iff (env : Env) (entries : List (TabyinContent × ParsedItem))
    (e : Engine) :
    Returns (bulkUpdate env entries) e ↔
      (∀ entry ∈ entries, ∃ source,
        sourceColumns env ((lastItem entries entry.1.pk).getD entry.2) = .ok source) ∧
      ∀ entry ∈ entries, ∀ att ∈ entry.2.attachments, att.Accepted := by
  have hupdates : ∀ e', Returns (forEach (fun entry : TabyinContent × ParsedItem =>
      updateContent env entry.1.pk ((lastItem entries entry.1.pk).getD entry.2)) entries) e' ↔
        ∀ entry ∈ entries, ∃ source,
          sourceColumns env ((lastItem entries entry.1.pk).getD entry.2) = .ok source :=
    forEach_returns (fun entry e' => updateContent_returns _ _ e') entries
  have hblocks : ∀ e', Returns (forEach (fun entry : TabyinContent × ParsedItem =>
      forEach (insertAttachment entry.1.pk) entry.2.attachments) entries) e' ↔
        ∀ entry ∈ entries, ∀ att ∈ entry.2.attachments, att.Accepted := by
    have hbody : ∀ (entry : TabyinContent × ParsedItem) (e'' : Engine),
        Returns (forEach (insertAttachment entry.1.pk) entry.2.attachments) e'' ↔
          ∀ att ∈ entry.2.attachments, att.Accepted :=
      fun entry e'' => forEach_returns (insertAttachment_returns entry.1.pk) _ e''
    exact forEach_returns hbody entries
  constructor
  · intro h
    unfold bulkUpdate at h
    obtain ⟨v, t, hatomic, -⟩ := returns_bind.mp h
    rw [commits_atomic, commits_bind] at hatomic
    obtain ⟨w, e₁, hrows, hrest⟩ := hatomic
    rw [commits_bind] at hrest
    obtain ⟨x, e₂, -, hatts⟩ := hrest
    exact ⟨(hupdates e).mp ⟨w, e₁, hrows⟩, (hblocks e₂).mp ⟨v, t, hatts⟩⟩
  · rintro ⟨hcolumns, haccepted⟩
    unfold bulkUpdate
    refine returns_bind_of_forall (returns_atomic.mpr ?_) fun v t => returns_modify _ t
    refine returns_bind_of_forall ((hupdates e).mpr hcolumns) fun w e₁ =>
      returns_bind_of_forall (returns_modify _ e₁) fun x e₂ => ?_
    exact (hblocks e₂).mpr haccepted

/-- The tables after an update: rows are mapped in place, and the attachments of the
contents under `keys` give way to new ones. -/
structure Rewrites (f : TabyinContent → TabyinContent) (keys : List ℕ)
    (atts : List TabyinAttachment) (s t : Store) : Prop where
  contents : t.contents = s.contents.map f
  next : t.nextContent = s.nextContent
  attachments : t.attachments =
    (s.attachments.filter fun att => !(keys.contains att.content)) ++ atts
  pk : ∀ row, (f row).pk = row.pk
  id : ∀ row, (f row).externalId = row.externalId
  owned : ∀ att ∈ atts, att.content ∈ keys

section Rewrites

variable {f : TabyinContent → TabyinContent} {keys : List ℕ} {atts : List TabyinAttachment}
  {s t : Store}

theorem Rewrites.byExternalId (h : Rewrites f keys atts s t) (id : String) :
    t.byExternalId id = (s.byExternalId id).map f := by
  unfold Store.byExternalId
  rw [h.contents, find?_map_key h.id]

/-- Attachments of the contents under the keys are replaced. -/
theorem Rewrites.attachmentsOf_mem (h : Rewrites f keys atts s t) {pk : ℕ} (hpk : pk ∈ keys) :
    t.attachmentsOf pk = atts.filter fun att => att.content == pk := by
  unfold Store.attachmentsOf
  rw [h.attachments, List.filter_append, List.filter_filter]
  have hcleared : s.attachments.filter (fun att =>
      att.content == pk && !(keys.contains att.content)) = [] := by
    refine List.filter_eq_nil_iff.mpr fun att _ => ?_
    simp only [Bool.and_eq_true, beq_iff_eq, Bool.not_eq_true', List.contains_eq_mem,
      decide_eq_false_iff_not, not_and, not_not]
    rintro rfl
    exact hpk
  rw [hcleared, List.nil_append]

/-- The others keep theirs. -/
theorem Rewrites.attachmentsOf_not_mem (h : Rewrites f keys atts s t) {pk : ℕ}
    (hpk : pk ∉ keys) : t.attachmentsOf pk = s.attachmentsOf pk := by
  unfold Store.attachmentsOf
  rw [h.attachments, List.filter_append, List.filter_filter]
  have hnone : atts.filter (fun att => att.content == pk) = [] := by
    refine List.filter_eq_nil_iff.mpr fun att hatt => ?_
    simp only [beq_iff_eq]
    rintro rfl
    exact hpk (h.owned att hatt)
  rw [hnone, List.append_nil]
  refine List.filter_congr fun att _ => ?_
  by_cases hcontent : att.content = pk
  · simp [hcontent, hpk]
  · simp [hcontent]

theorem Rewrites.sound (h : Rewrites f keys atts s t) (hs : s.Sound)
    (hbelow : ∀ pk ∈ keys, pk < s.nextContent) : t.Sound where
  keys := by
    rw [h.contents, List.map_map]
    simpa [Function.comp_def, h.pk] using hs.keys
  ids := by
    rw [h.contents, List.map_map]
    simpa [Function.comp_def, h.id] using hs.ids
  below := by
    rw [h.contents, h.next]
    simpa [h.pk] using hs.below
  attached := by
    intro att hatt
    rw [h.attachments] at hatt
    rw [h.next]
    rcases List.mem_append.mp hatt with hatt | hatt
    · exact hs.attached att (List.mem_filter.mp hatt).1
    · exact hbelow _ (h.owned att hatt)

/-- A content whose row is kept and whose key is not among the keys is untouched. -/
theorem Rewrites.others (h : Rewrites f keys atts s t) {id : String}
    (hsame : ∀ row, s.byExternalId id = some row → row.pk ∉ keys ∧ f row = row) :
    Untouched id s t where
  row := by
    rw [h.byExternalId]
    cases hrow : s.byExternalId id with
    | none => rfl
    | some row => rw [Option.map_some, (hsame row hrow).2]
  attachments := fun row hrow => h.attachmentsOf_not_mem (hsame row hrow).1

end Rewrites

/-- The updating half of a batch overwrites rows and replaces the attachments of their contents
by those of all its entries. -/
theorem bulkUpdate_rewrites {env : Env} {entries : List (TabyinContent × ParsedItem)}
    {e t : Engine} {u : PUnit} (h : Commits (bulkUpdate env entries) e u t) :
    ∃ f atts, Rewrites f (entries.map fun entry => entry.1.pk) atts e.store t.store ∧
      (∀ row, Overwrites env e.now
        (fun entry => (lastItem entries entry.1.pk).getD entry.2) entries row (f row)) ∧
      ∀ pk, List.Forall₂ ParsedAttachment.Stored
        ((entries.filter fun entry => entry.1.pk == pk).flatMap fun entry => entry.2.attachments)
        (atts.filter fun att => att.content == pk) := by
  obtain ⟨f, hf, e₁, e₂, v, hrows, hnext, hkept, hatts, hstore⟩ := bulkUpdate_commits h
  obtain ⟨atts, next, rfl, howned, hstored⟩ := insertBlocks_commits hatts
  refine ⟨f, atts, ?_, hf, hstored⟩
  rw [hstore]
  refine ⟨hrows, hnext, ?_, fun row => (hf row).keys.1, fun row => (hf row).keys.2, howned⟩
  show e₁.store.attachments ++ atts = _
  rw [hkept]
  congr 2
  ext att
  rw [List.contains_map]
  simp only [BEq.comm]

section Update

variable {env : Env} {entries : List (TabyinContent × ParsedItem)} {e t : Engine} {u : PUnit}

/-- Contents that no entry is about are untouched. -/
theorem bulkUpdate_frame (hsound : e.store.Sound)
    (hfound : ∀ entry ∈ entries, e.store.byExternalId entry.2.externalId = some entry.1)
    (h : Commits (bulkUpdate env entries) e u t) :
    t.store.Sound ∧
      ∀ id ∉ entries.map fun entry => entry.2.externalId, Untouched id e.store t.store := by
  obtain ⟨f, atts, hrewrites, hf, -⟩ := bulkUpdate_rewrites h
  refine ⟨hrewrites.sound hsound fun pk hpk => ?_, fun id hother => ?_⟩
  · obtain ⟨entry, hentry, rfl⟩ := List.mem_map.mp hpk
    exact hsound.below _ (byExternalId_some (hfound entry hentry)).1
  · refine hrewrites.others fun row hrow => ?_
    -- no entry has the key of another content
    have hkey : ∀ entry ∈ entries, entry.1.pk ≠ row.pk := by
      intro entry hentry heq
      obtain ⟨hmem, rfl⟩ := byExternalId_some hrow
      obtain ⟨hmem', hid⟩ := byExternalId_some (hfound entry hentry)
      have hsame := uniqueBy_of_nodup hsound.keys _ hmem' _ hmem heq
      exact hother (List.mem_map.mpr ⟨entry, hentry, by rw [← hsame, hid]⟩)
    refine ⟨fun hmem => ?_, ?_⟩
    · obtain ⟨entry, hentry, heq⟩ := List.mem_map.mp hmem
      exact hkey entry hentry heq
    · rcases hf row with ⟨hsame, -⟩ | ⟨entry, hentry, heq, -⟩
      · exact hsame
      · exact absurd heq (hkey entry hentry)

theorem bulkUpdate_wrote (hsound : e.store.Sound)
    (hfound : ∀ entry ∈ entries, e.store.byExternalId entry.2.externalId = some entry.1)
    (hkeys : (entries.map fun entry => entry.1.pk).Nodup)
    (h : Commits (bulkUpdate env entries) e u t) :
    Wrote env (entries.map Prod.snd) e.store t.store := by
  obtain ⟨hsound', hothers⟩ := bulkUpdate_frame hsound hfound h
  obtain ⟨f, atts, hrewrites, hf, hstored⟩ := bulkUpdate_rewrites h
  refine { sound := hsound', others := ?others, shown := ?shown }
  case others =>
    intro id hother
    rw [List.map_map] at hother
    exact hothers id hother
  case shown =>
    intro item hitem
    obtain ⟨entry, hentry, rfl⟩ := List.mem_map.mp hitem
    refine ⟨f entry.1, by rw [hrewrites.byExternalId, hfound entry hentry, Option.map_some], ?_⟩
    have hlink : ((t.store.attachmentsOf (f entry.1).pk)).map TabyinAttachment.link =
        entry.2.attachments.map ParsedAttachment.link := by
      have hlinks := links_eq (hstored entry.1.pk)
      rw [filter_key_of_nodup hkeys hentry, List.flatMap_singleton] at hlinks
      rw [hrewrites.pk, hrewrites.attachmentsOf_mem (List.mem_map_of_mem hentry), hlinks]
    rcases hf entry.1 with ⟨-, hnone⟩ | ⟨other, hother, heq, source, hsource, hrow⟩
    · exact absurd rfl (hnone entry hentry)
    · have hsame : other = entry := uniqueBy_of_nodup hkeys _ hother _ hentry heq
      dsimp only at hsource
      rw [lastItem_self hkeys hother, hsame] at hsource
      rw [hrow] at hlink ⊢
      exact ⟨hsource, rfl, rfl, hlink⟩

end Update

/-! ## Batches -/

/-- The stored hash of an item is the one it has now: the batch skips it. -/
def Store.unchanged (env : Env) (store : Store) (item : ParsedItem) : Bool :=
  match store.byExternalId item.externalId with
  | none => false
  | some row => row.source.contentHash == computeContentHash env item.rawPayload

/-- An item that a batch writes, whether it is new or changed. -/
def Store.written (env : Env) (store : Store) (items : List ParsedItem) : List ParsedItem :=
  items.filter fun item => !store.unchanged env item

/-- The batch can take the item: it is skipped, or the database accepts it. -/
def Storable (env : Env) (store : Store) (item : ParsedItem) : Prop :=
  match store.byExternalId item.externalId with
  | none => item.AcceptedNew env
  | some row =>
      row.source.contentHash = computeContentHash env item.rawPayload ∨ item.Accepted env

/-- The tables and the counters of changes are as they were. -/
structure Quiet (e t : Engine) : Prop where
  store : t.store = e.store
  created : t.stats.created = e.stats.created
  updated : t.stats.updated = e.stats.updated
  softDeleted : t.stats.softDeleted = e.stats.softDeleted

/-- A batch in steps: the new items if there are any, then the changed ones. -/
theorem upsertBatch_commits {env : Env} {items : List ParsedItem} {e t : Engine} {u : PUnit}
    (h : Commits (upsertBatch env items) e u t) :
    ∃ e₁ e₂, Quiet e e₁ ∧
      ((newItems e.store.byExternalId items = [] ∧ e₂ = e₁) ∨
        (newItems e.store.byExternalId items ≠ [] ∧
          ∃ v, Commits (bulkCreate env (newItems e.store.byExternalId items)) e₁ v e₂)) ∧
      ((items.filterMap (changedEntry env e.store.byExternalId) = [] ∧ t = e₂) ∨
        (items.filterMap (changedEntry env e.store.byExternalId) ≠ [] ∧
          Commits (bulkUpdate env (items.filterMap (changedEntry env e.store.byExternalId)))
            e₂ u t)) := by
  obtain ⟨hcreate, hupdate⟩ := sortItems_eq env e.store.byExternalId items
  simp only [upsertBatch, count, commits_bind, commits_get, commits_modify, commits_ite,
    commits_pure] at h
  obtain ⟨e₀, e₀', ⟨rfl, rfl⟩, v, e₁, he₁, hbatch⟩ := h
  have hquiet : Quiet e₀' e₁ := by
    rw [he₁]
    exact ⟨rfl, rfl, rfl, rfl⟩
  rw [hcreate, hupdate] at hbatch
  rcases hbatch with ⟨hsome, w, e₂, hnew, hchanged⟩ | ⟨hnone, hchanged⟩
  · refine ⟨e₁, e₂, hquiet, .inr ⟨hsome, w, hnew⟩, ?_⟩
    rcases hchanged with hchanged | ⟨hnone, -, rfl⟩
    · exact .inr hchanged
    · exact .inl ⟨not_not.mp hnone, rfl⟩
  · refine ⟨e₁, e₁, hquiet, .inl ⟨not_not.mp hnone, rfl⟩, ?_⟩
    rcases hchanged with hchanged | ⟨hnone, -, rfl⟩
    · exact .inr hchanged
    · exact .inl ⟨not_not.mp hnone, rfl⟩

theorem count_commits (f : SyncStats → SyncStats) (e : Engine) :
    Commits (count f) e ⟨⟩ { e with stats := f e.stats } := rfl

theorem upsertBatch_returns_of {env : Env} {items : List ParsedItem} {e : Engine}
    (hcreate : ∀ e₁ : Engine, e₁.store = e.store →
      Returns (bulkCreate env (newItems e.store.byExternalId items)) e₁)
    (hupdate : ∀ e₂,
      Returns (bulkUpdate env (items.filterMap (changedEntry env e.store.byExternalId))) e₂) :
    Returns (upsertBatch env items) e := by
  obtain ⟨hnew, hchanged⟩ := sortItems_eq env e.store.byExternalId items
  unfold upsertBatch
  refine returns_bind.mpr ⟨e, e, commits_get.mpr ⟨rfl, rfl⟩, ?_⟩
  refine returns_bind.mpr ⟨⟨⟩, _, count_commits _ e, ?_⟩
  rw [← hnew] at hcreate
  rw [← hchanged] at hupdate
  generalize items.foldl (sortItem env e.store.byExternalId) ⟨[], [], 0⟩ = batch
    at hcreate hupdate ⊢
  have hrest : ∀ e₂, Returns (if batch.toUpdate ≠ [] then bulkUpdate env batch.toUpdate
      else pure ⟨⟩) e₂ := by
    intro e₂
    split
    · exact hupdate e₂
    · exact returns_pure _ e₂
  by_cases hnone : batch.toCreate ≠ []
  · rw [if_pos hnone]
    exact returns_bind_of_forall (hcreate _ rfl) fun v e₂ => hrest e₂
  · rw [if_neg hnone]
    exact hrest _

section Batch

variable {env : Env} {items : List ParsedItem} {e : Engine}

theorem changedItems_sublist (env : Env) (existing : String → Option TabyinContent)
    (items : List ParsedItem) :
    ((items.filterMap (changedEntry env existing)).map Prod.snd).Sublist items := by
  induction items with
  | nil => exact List.Sublist.refl _
  | cons item rest ih =>
      cases hentry : changedEntry env existing item with
      | none =>
          rw [List.filterMap_cons_none hentry]
          exact ih.cons item
      | some entry =>
          rw [List.filterMap_cons_some hentry, List.map_cons, (changedEntry_some hentry).1]
          exact ih.cons_cons item

variable (env) in
/-- Items with distinct ids are about distinct rows. -/
theorem changedEntries_keys (hsound : e.store.Sound)
    (hids : (items.map ParsedItem.externalId).Nodup) :
    ((items.filterMap (changedEntry env e.store.byExternalId)).map fun entry =>
      entry.1.pk).Nodup := by
  have hnodup : ((items.filterMap (changedEntry env e.store.byExternalId)).map
      fun entry => entry.2.externalId).Nodup := by
    have hsub := (changedItems_sublist env e.store.byExternalId items).map ParsedItem.externalId
    rw [List.map_map] at hsub
    exact hids.sublist hsub
  refine List.Nodup.map_on ?_ (List.Nodup.of_map _ hnodup)
  intro x hx y hy hpk
  obtain ⟨itemX, -, hentryX⟩ := List.mem_filterMap.mp hx
  obtain ⟨itemY, -, hentryY⟩ := List.mem_filterMap.mp hy
  obtain ⟨rfl, hfoundX, -⟩ := changedEntry_some hentryX
  obtain ⟨rfl, hfoundY, -⟩ := changedEntry_some hentryY
  obtain ⟨hmemX, hidX⟩ := byExternalId_some hfoundX
  obtain ⟨hmemY, hidY⟩ := byExternalId_some hfoundY
  have hrow : x.1 = y.1 := uniqueBy_of_nodup hsound.keys _ hmemX _ hmemY hpk
  refine List.inj_on_of_nodup_map hnodup hx hy ?_
  rw [← hidX, ← hidY, hrow]

theorem mem_newItems {existing : String → Option TabyinContent} {item : ParsedItem} :
    item ∈ newItems existing items ↔ item ∈ items ∧ existing item.externalId = none := by
  simp [newItems, List.mem_filter]

theorem newItems_nodup {existing : String → Option TabyinContent}
    (hids : (items.map ParsedItem.externalId).Nodup) :
    ((newItems existing items).map ParsedItem.externalId).Nodup :=
  hids.sublist (List.filter_sublist.map _)

/-- When a batch returns, ids repeated or not. -/
theorem upsertBatch_returns_iff :
    Returns (upsertBatch env items) e ↔
      (((newItems e.store.byExternalId items).map ParsedItem.externalId).Nodup ∧
        ∀ item ∈ newItems e.store.byExternalId items, item.AcceptedNew env) ∧
      ∀ entries, entries = items.filterMap (changedEntry env e.store.byExternalId) →
        (∀ entry ∈ entries, ∃ source,
          sourceColumns env ((lastItem entries entry.1.pk).getD entry.2) = .ok source) ∧
        ∀ entry ∈ entries, ∀ att ∈ entry.2.attachments, att.Accepted := by
  have hfree : ∀ e₁ : Engine, e₁.store = e.store →
      ∀ item ∈ newItems e.store.byExternalId items, e₁.store.byExternalId item.externalId = none := by
    intro e₁ hstore item hitem
    rw [hstore]
    exact (mem_newItems.mp hitem).2
  constructor
  · rintro ⟨u, t, h⟩
    obtain ⟨e₁, e₂, ⟨hstore, -, -, -⟩, hnew, hchanged⟩ := upsertBatch_commits h
    refine ⟨?_, fun entries hentries => ?_⟩
    · rcases hnew with ⟨hnil, -⟩ | ⟨-, v, hnew⟩
      · rw [hnil]
        exact ⟨List.nodup_nil, fun _ hmem => absurd hmem List.not_mem_nil⟩
      · have hnodup := bulkCreate_nodup hnew
        exact ⟨hnodup, (bulkCreate_returns hnodup (hfree e₁ hstore)).mp ⟨v, e₂, hnew⟩⟩
    · rw [← hentries] at hchanged
      rcases hchanged with ⟨hnil, -⟩ | ⟨-, hchanged⟩
      · rw [hnil]
        exact ⟨fun _ hmem => absurd hmem List.not_mem_nil, fun _ hmem => absurd hmem List.not_mem_nil⟩
      · exact (bulkUpdate_returns_iff env entries e₂).mp ⟨u, t, hchanged⟩
  · rintro ⟨⟨hnodup, haccepted⟩, hentries⟩
    exact upsertBatch_returns_of
      (fun e₁ hstore => (bulkCreate_returns hnodup (hfree e₁ hstore)).mpr haccepted)
      fun e₂ => (bulkUpdate_returns_iff env _ e₂).mpr (hentries _ rfl)

/-- **When a batch returns.** Of items with distinct ids each is skipped or accepted. -/
theorem upsertBatch_returns (hsound : e.store.Sound)
    (hids : (items.map ParsedItem.externalId).Nodup) :
    Returns (upsertBatch env items) e ↔ ∀ item ∈ items, Storable env e.store item := by
  have hkeys := changedEntries_keys env hsound hids
  rw [upsertBatch_returns_iff]
  constructor
  · rintro ⟨⟨-, hnew⟩, hchanged⟩ item hitem
    obtain ⟨hcolumns, haccepted⟩ := hchanged _ rfl
    unfold Storable
    cases hrow : e.store.byExternalId item.externalId with
    | none => exact hnew item (mem_newItems.mpr ⟨hitem, hrow⟩)
    | some row =>
        by_cases hhash : row.source.contentHash = computeContentHash env item.rawPayload
        · exact .inl hhash
        · have hentry : changedEntry env e.store.byExternalId item = some (row, item) := by
            simp [changedEntry, hrow, hhash]
          have hmem := List.mem_filterMap.mpr ⟨item, hitem, hentry⟩
          have hsource := hcolumns _ hmem
          rw [lastItem_self hkeys hmem] at hsource
          exact .inr ⟨hsource, haccepted _ hmem⟩
  · intro h
    refine ⟨⟨newItems_nodup hids, fun item hitem => ?_⟩, fun entries hentries => ?_⟩
    · obtain ⟨hmem, hnone⟩ := mem_newItems.mp hitem
      have hstorable := h item hmem
      unfold Storable at hstorable
      rwa [hnone] at hstorable
    · subst hentries
      have haccepted : ∀ entry ∈ items.filterMap (changedEntry env e.store.byExternalId),
          entry.2.Accepted env := by
        intro entry hentry
        obtain ⟨item, hmem, hentry⟩ := List.mem_filterMap.mp hentry
        obtain ⟨rfl, hrow, hhash⟩ := changedEntry_some hentry
        have hstorable := h _ hmem
        unfold Storable at hstorable
        rw [hrow] at hstorable
        exact hstorable.resolve_left hhash
      refine ⟨fun entry hentry => ?_, fun entry hentry => (haccepted entry hentry).attachments⟩
      rw [lastItem_self hkeys hentry]
      exact (haccepted entry hentry).columns

theorem mem_written {store : Store} {item : ParsedItem} :
    item ∈ store.written env items ↔ item ∈ items ∧ (store.byExternalId item.externalId = none ∨
      ∃ row, changedEntry env store.byExternalId item = some (row, item)) := by
  unfold Store.written Store.unchanged changedEntry
  rw [List.mem_filter]
  refine and_congr_right fun hitem => ?_
  cases hrow : store.byExternalId item.externalId with
  | none => simp
  | some row => simp

/-- The first half of a batch has written the new items, repeated or not. -/
theorem upsertBatch_created {t : Engine} {u : PUnit} (hsound : e.store.Sound)
    (h : Commits (upsertBatch env items) e u t) :
    ∃ e₁ e₂, e₁.store = e.store ∧
      Wrote env (newItems e.store.byExternalId items) e.store e₂.store ∧
      ((newItems e.store.byExternalId items = [] ∧ e₂ = e₁) ∨
        ∃ v, Commits (bulkCreate env (newItems e.store.byExternalId items)) e₁ v e₂) ∧
      ((items.filterMap (changedEntry env e.store.byExternalId) = [] ∧ t = e₂) ∨
        Commits (bulkUpdate env (items.filterMap (changedEntry env e.store.byExternalId)))
          e₂ u t) := by
  obtain ⟨e₁, e₂, ⟨hstore, -, -, -⟩, hnew, hchanged⟩ := upsertBatch_commits h
  refine ⟨e₁, e₂, hstore, ?_, hnew.imp_right And.right, hchanged.imp_right And.right⟩
  rcases hnew with ⟨hnil, rfl⟩ | ⟨-, v, hnew⟩
  · rw [hnil, hstore]
    exact wrote_nil hsound
  · have hwrote := bulkCreate_wrote (hstore.symm ▸ hsound) (bulkCreate_nodup hnew) hnew
    rwa [hstore] at hwrote

/-- The rows of the changed items are still there when the new ones are. -/
theorem changedEntries_found {s t : Store}
    (hcreated : Wrote env (newItems s.byExternalId items) s t)
    {entry : TabyinContent × ParsedItem}
    (hentry : entry ∈ items.filterMap (changedEntry env s.byExternalId)) :
    entry.2.externalId ∉ (newItems s.byExternalId items).map ParsedItem.externalId ∧
      t.byExternalId entry.2.externalId = some entry.1 := by
  obtain ⟨item, -, hsome⟩ := List.mem_filterMap.mp hentry
  obtain ⟨rfl, hrow, -⟩ := changedEntry_some hsome
  have hold : entry.2.externalId ∉
      (newItems s.byExternalId items).map ParsedItem.externalId := by
    intro hin
    obtain ⟨other, hother, heq⟩ := List.mem_map.mp hin
    rw [← heq, (mem_newItems.mp hother).2] at hrow
    cases hrow
  exact ⟨hold, (hcreated.others _ hold).row.trans hrow⟩

/-- **What a batch writes.** The items that are new or changed, and nothing else. -/
theorem upsertBatch_wrote {t : Engine} {u : PUnit} (hsound : e.store.Sound)
    (hids : (items.map ParsedItem.externalId).Nodup)
    (h : Commits (upsertBatch env items) e u t) :
    Wrote env (e.store.written env items) e.store t.store := by
  obtain ⟨e₁, e₂, -, hcreated, -, hchanged⟩ := upsertBatch_created hsound h
  have hupdated : Wrote env ((items.filterMap (changedEntry env e.store.byExternalId)).map Prod.snd)
      e₂.store t.store := by
    rcases hchanged with ⟨hnil, rfl⟩ | hchanged
    · rw [hnil]
      exact wrote_nil hcreated.sound
    · exact bulkUpdate_wrote hcreated.sound
        (fun entry hentry => (changedEntries_found hcreated hentry).2)
        (changedEntries_keys env hsound hids) hchanged
  refine (hcreated.append hupdated ?_).congr fun item => ?_
  · intro item hitem hin
    rw [List.map_map] at hin
    obtain ⟨entry, hentry, heq⟩ := List.mem_map.mp hin
    refine (changedEntries_found hcreated hentry).1 ?_
    rw [Function.comp_apply] at heq
    rw [heq]
    exact List.mem_map_of_mem hitem
  · rw [mem_written, List.mem_append, mem_newItems]
    constructor
    · rintro ⟨hitem, hnone | ⟨row, hentry⟩⟩
      · exact .inl ⟨hitem, hnone⟩
      · exact .inr (List.mem_map.mpr ⟨_, List.mem_filterMap.mpr ⟨item, hitem, hentry⟩, rfl⟩)
    · rintro (⟨hitem, hnone⟩ | hin)
      · exact ⟨hitem, .inl hnone⟩
      · obtain ⟨entry, hentry, rfl⟩ := List.mem_map.mp hin
        obtain ⟨item, hitem, hsome⟩ := List.mem_filterMap.mp hentry
        obtain ⟨rfl, -, -⟩ := changedEntry_some hsome
        exact ⟨hitem, .inr ⟨entry.1, hsome⟩⟩

/-- A batch that finds every hash as it is stored only counts. -/
theorem upsertBatch_quiet {t : Engine} {u : PUnit} (h : Commits (upsertBatch env items) e u t)
    (hsame : ∀ item ∈ items, e.store.unchanged env item = true) : Quiet e t := by
  obtain ⟨e₁, e₂, hquiet, hnew, hchanged⟩ := upsertBatch_commits h
  have hnone : e.store.written env items = [] :=
    List.filter_eq_nil_iff.mpr fun item hitem => by simp [hsame item hitem]
  have hnothing : ∀ item, item ∉ e.store.written env items := by simp [hnone]
  rcases hnew with ⟨-, rfl⟩ | ⟨hsome, -⟩
  · rcases hchanged with ⟨-, rfl⟩ | ⟨hsome, -⟩
    · exact hquiet
    · obtain ⟨entry, hentry⟩ := List.exists_mem_of_ne_nil _ hsome
      obtain ⟨item, hitem, hfound⟩ := List.mem_filterMap.mp hentry
      obtain ⟨rfl, -, -⟩ := changedEntry_some hfound
      exact absurd (mem_written.mpr ⟨hitem, .inr ⟨entry.1, hfound⟩⟩) (hnothing _)
  · obtain ⟨item, hitem⟩ := List.exists_mem_of_ne_nil _ hsome
    obtain ⟨hmem, hfree⟩ := mem_newItems.mp hitem
    exact absurd (mem_written.mpr ⟨hmem, .inl hfree⟩) (hnothing item)

end Batch

end SetadJang.Tabyin
