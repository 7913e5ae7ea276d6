import SetadJang.Core.UniqueSlugs
import SetadJang.SupportDesk.CategoryMoves

/-!
# The category services keep the tree

Slugs are never shared and never hold the separator; a new category is a leaf, and a moved one
goes under a parent outside its own subtree.  So every table the services reach is well placed.
-/

namespace SetadJang.SupportDesk

open SetadJang.Framework

/-! ## Slugs -/

section Slugs

variable {rules : TextRules} {value base : String} {maxLength : ℕ} {uuid : UuidHex}

theorem slash_not_hex {c : Char} (hc : (c.isDigit || ('a' ≤ c && c ≤ 'f')) = true) : c ≠ '/' := by
  rintro rfl
  revert hc
  decide

theorem slugBase_spec (rules : TextRules) (value : String) (maxLength : ℕ) (uuid : UuidHex) :
    (slugBase rules value maxLength uuid).toList ≠ [] ∧
    '/' ∉ (slugBase rules value maxLength uuid).toList := by
  unfold slugBase
  dsimp only
  split
  · -- nothing is left of the text: twelve hexadecimal digits
    rw [String.toList_ofList]
    constructor
    · intro hnil
      have hlength := congrArg List.length hnil
      have hhex := uuid.length
      rw [← String.length_toList] at hhex
      simp [List.length_take, hhex] at hlength
    · intro hmem
      exact slash_not_hex (List.all_eq_true.mp uuid.digits _ (List.mem_of_mem_take hmem)) rfl
  · rename_i hempty
    constructor
    · intro hnil
      exact hempty (by simpa using hnil)
    · rw [String.toList_ofList]
      exact fun hmem => rules.slugify_no_slash value (List.mem_of_mem_take hmem)

theorem slugCandidate_spec (hne : base.toList ≠ []) (hslash : '/' ∉ base.toList)
    (maxLength n : ℕ) :
    (slugCandidate base maxLength n).toList ≠ [] ∧
      '/' ∉ (slugCandidate base maxLength n).toList := by
  cases n with
  | zero => exact ⟨hne, hslash⟩
  | succ n =>
      have hdigits := not_mem_str (c := '/') rfl (n + 2)
      simp only [slugCandidate, String.toList_append, String.toList_ofList]
      constructor
      · simp
      · intro hmem
        rcases List.mem_append.mp hmem with hmem | hmem
        · exact hslash (List.mem_of_mem_take hmem)
        · rcases List.mem_append.mp hmem with hmem | hmem
          · revert hmem
            decide
          · exact hdigits hmem

/-- The text that a numbered candidate starts with. -/
def slugStem (base : String) (maxLength n : ℕ) : String :=
  String.ofList (base.toList.take (maxLength - ("-" ++ toString n).length))

theorem slugCandidate_eq (base : String) (maxLength k : ℕ) :
    slugCandidate base maxLength k = candidate (slugStem base maxLength) base k := by
  cases k with
  | zero => rfl
  | succ k => exact String.append_assoc.symm

variable {rows : Categories}

/-- One of the candidates is free: there are more numbered ones than rows. -/
theorem uniqueSlug_isSome (rules : TextRules) (rows : Categories) (value : String) (maxLength : ℕ)
    (uuid : UuidHex) : (uniqueSlug rules rows value maxLength uuid).isSome := by
  rw [uniqueSlug, List.find?_isSome]
  obtain ⟨n, hn, hfree⟩ := exists_numbered_free
    (slugStem (slugBase rules value maxLength uuid) maxLength) (rows.map (·.slug))
  rw [List.length_map] at hn
  refine ⟨_, List.mem_map.mpr ⟨n + 1, List.mem_range.mpr (by omega), rfl⟩, ?_⟩
  rw [slugCandidate_eq, List.all_eq_true]
  intro row hrow
  refine bne_iff_ne.mpr fun hslug => hfree (List.mem_map.mpr ⟨row, hrow, hslug⟩)

/-- The keys and the slugs of the rows. -/
def Categories.slugs (rows : Categories) : List (ℕ × String) :=
  rows.zipIdx.map fun entry => (entry.2, entry.1.slug)

theorem storedSlugs_slugs (rows : Categories) :
    UniqueSlugs.storedSlugs rows.slugs none = rows.map (·.slug) := by
  have hall : rows.slugs.filter (fun row => (none : Option ℕ) != some row.1) = rows.slugs :=
    List.filter_eq_self.mpr fun _ _ => rfl
  rw [UniqueSlugs.storedSlugs, hall, Categories.slugs, List.map_map]
  show rows.zipIdx.map ((·.slug) ∘ Prod.fst) = _
  rw [← List.map_map, List.zipIdx_map_fst]

/-- While the numbers fit, the first free candidate is what the loop of the source ends with. -/
theorem uniqueSlug_eq_loop (rules : TextRules) (value : String) (uuid : UuidHex)
    {hex : UniqueSlugs.HexBase} (hhex : hex.text = String.ofList (uuid.hex.toList.take 12))
    (hmax : 20 ≤ maxLength) (hrows : rows.length < 10 ^ 15) :
    uniqueSlug rules rows value maxLength uuid =
      UniqueSlugs.supportDeskUniqueSlug rules.slugify rows.slugs value maxLength none hex
        (rows.length + 1) := by
  have hbase : UniqueSlugs.slugBase rules.slugify value maxLength hex.text =
      slugBase rules value maxLength uuid := by
    simp only [UniqueSlugs.slugBase, slugBase, String.isEmpty_iff, hhex]
  rw [uniqueSlug, UniqueSlugs.supportDeskUniqueSlug, UniqueSlugs.freeSlug, hbase, storedSlugs_slugs]
  generalize slugBase rules value maxLength uuid = base
  have hsame : ∀ j ≤ rows.length + 1, slugCandidate base maxLength j =
      candidate (UniqueSlugs.cutStem base maxLength) base j := by
    intro j hj
    cases j with
    | zero => rfl
    | succ j =>
        have hdigits := UniqueSlugs.length_str_le (by decide : 0 < 16) (by omega : j + 2 < 10 ^ 16)
        have hsuffix : ("-" ++ toString (j + 2)).length ≤ maxLength := by
          rw [String.length_append]
          exact le_trans (Nat.add_le_add_left hdigits _) (le_trans (by decide) hmax)
        rw [slugCandidate_eq, candidate, candidate, numbered, numbered, slugStem,
          UniqueSlugs.cutStem, UniqueSlugs.pySliceTo, if_pos (by omega)]
        congr 5
        omega
  have hpred : ∀ name, (rows.all fun row => row.slug != name) =
      !(rows.map (·.slug)).contains name := by
    intro name
    rw [Bool.eq_iff_iff, List.all_eq_true, Bool.not_eq_true', ← Bool.not_eq_true,
      List.contains_iff_mem, List.mem_map]
    simp
  obtain ⟨k, hk, hfree, hbusy, hruns⟩ := @freeName_ends (rows.map (·.slug)).contains
    (UniqueSlugs.cutStem base maxLength) base _ fun name h => List.contains_iff_mem.mp h
  rw [List.length_map] at hk hruns
  rw [hruns _ le_rfl, List.find?_map, Option.map_eq_some_iff]
  refine ⟨k, List.find?_range_eq_some.mpr ⟨?_, List.mem_range.mpr (by omega), fun j hj => ?_⟩,
    hsame k hk⟩
  · rw [Function.comp_apply, hpred, hsame k hk, hfree]
    rfl
  · rw [Function.comp_apply, hpred, hsame j (by omega), hbusy j hj]
    rfl

theorem uniqueSlug_spec {slug : String} (h : uniqueSlug rules rows value maxLength uuid = some slug) :
    slug.toList ≠ [] ∧ '/' ∉ slug.toList ∧ ∀ row ∈ rows, row.slug ≠ slug := by
  have hfree := List.find?_some h
  obtain ⟨n, -, rfl⟩ := List.mem_map.mp (List.mem_of_find?_eq_some h)
  have hbase := slugBase_spec rules value maxLength uuid
  obtain ⟨hne, hslash⟩ := slugCandidate_spec hbase.1 hbase.2 maxLength n
  exact ⟨hne, hslash, by simpa using hfree⟩

end Slugs

/-! ## The check of the parent -/

theorem loadParent_ok_iff {rows : Categories} {parent : Option ℕ}
    {loaded : Option (ℕ × SupportCategory)} :
    loadParent rows parent = .ok loaded ↔ (parent = none ∧ loaded = none) ∨
      ∃ p row, parent = some p ∧ rows[p]? = some row ∧ loaded = some (p, row) := by
  cases parent with
  | none => simp [loadParent, eq_comm]
  | some p =>
      cases hp : rows[p]? with
      | none => simp [loadParent, hp]
      | some row => simp [loadParent, hp, eq_comm]

theorem loadParent_error {rows : Categories} {parent : Option ℕ} {e : CategoryError}
    (h : loadParent rows parent = .error e) : e = .doesNotExist := by
  unfold loadParent at h
  split at h
  · cases h
  · split at h
    · exact (Except.error.inj h).symm
    · cases h

/-- The row that is loaded is the row of the key. -/
theorem exists_loaded {rows : Categories} {parent : Option ℕ}
    {loaded : Option (ℕ × SupportCategory)} {p : ℕ} (h : loadParent rows parent = .ok loaded)
    (hp : parent = some p) : ∃ row, rows[p]? = some row ∧ loaded = some (p, row) := by
  rcases loadParent_ok_iff.mp h with ⟨hnone, -⟩ | ⟨q, row, hq, hrow, rfl⟩
  · rw [hp] at hnone
    cases hnone
  · obtain rfl := Option.some.inj (hp.symm.trans hq)
    exact ⟨row, hrow, rfl⟩

/-- The test that the parent and its department pass. -/
def GoodParent (category : Option (ℕ × SupportCategory)) (department p : ℕ)
    (parent : SupportCategory) : Prop :=
  parent.department = department ∧
    ∀ k row, category = some (k, row) → p ≠ k ∧ pyStartsWith parent.path row.path = false

theorem assertValidCategoryParent_ok_iff {category parent : Option (ℕ × SupportCategory)}
    {department : ℕ} :
    assertValidCategoryParent category parent department = .ok () ↔
      ∀ p row, parent = some (p, row) → GoodParent category department p row := by
  unfold assertValidCategoryParent GoodParent
  cases parent with
  | none => simp
  | some loaded =>
      obtain ⟨p, row⟩ := loaded
      cases category with
      | none => by_cases hd : row.department = department <;> simp [hd]
      | some given =>
          obtain ⟨k, category⟩ := given
          by_cases hd : row.department = department <;> by_cases hpk : p = k <;> simp [hd, hpk]

/-- Whatever it raises is the error of the taxonomy. -/
theorem assertValidCategoryParent_error {category parent : Option (ℕ × SupportCategory)}
    {department : ℕ} {e : CategoryError}
    (h : assertValidCategoryParent category parent department = .error e) :
    ∃ message, e = .taxonomyTree message := by
  unfold assertValidCategoryParent at h
  repeat' split at h
  all_goals first
    | exact ⟨_, (Except.error.inj h).symm⟩
    | cases h

/-! ## `create_category` -/

theorem createCategory_ok {rules : TextRules} {rows rows' : Categories} {input : CategoryInput}
    {uuid : UuidHex} (h : createCategory rules rows input uuid = .ok rows') :
    ∃ slug row, uniqueSlug rules rows (pyStrip input.title) slugMaxLength uuid = some slug ∧
      place rows (newCategory input slug) = .ok row ∧ row.path.length ≤ pathMaxLength ∧
      (∀ p, input.parent = some p →
        ∃ parent, rows[p]? = some parent ∧ parent.department = input.department) ∧
      rows' = rows ++ [row] := by
  obtain ⟨loaded, hloaded, h⟩ := except_bind_ok_iff.mp h
  obtain ⟨_, hassert, h⟩ := except_bind_ok_iff.mp h
  rw [assertValidCategoryParent_ok_iff] at hassert
  split at h
  · cases h
  · rename_i slug hslug
    obtain ⟨row, hrow, h⟩ := except_bind_ok_iff.mp h
    obtain ⟨hplace, hfits, -⟩ := savedRow_ok_iff.mp hrow
    refine ⟨slug, row, hslug, hplace, hfits.2.1, ?_, (Except.ok.inj h).symm⟩
    intro p hp
    obtain ⟨parent, hparent, hsome⟩ := exists_loaded hloaded hp
    exact ⟨parent, hparent, (hassert p parent hsome).1⟩

/-- A title always gets a slug. -/
theorem createCategory_ne_noFreeSlug {rules : TextRules} {rows : Categories}
    {input : CategoryInput} {uuid : UuidHex} :
    createCategory rules rows input uuid ≠ .error .noFreeSlug := by
  intro h
  rcases except_bind_error_iff.mp h with h | ⟨loaded, -, h⟩
  · cases loadParent_error h
  rcases except_bind_error_iff.mp h with h | ⟨_, -, h⟩
  · obtain ⟨message, hmessage⟩ := assertValidCategoryParent_error h
    cases hmessage
  obtain ⟨slug, hslug⟩ := Option.isSome_iff_exists.mp
    (uniqueSlug_isSome rules rows (pyStrip input.title) slugMaxLength uuid)
  rw [hslug] at h
  rcases except_bind_error_iff.mp h with h | ⟨row, -, h⟩
  · rcases savedRow_error h with h | h | h <;> cases h
  · cases h

/-- A new category is a leaf of the tree. -/
theorem wellPlaced_create {rules : TextRules} {rows rows' : Categories} {input : CategoryInput}
    {uuid : UuidHex} (h : WellPlaced rows) (hcreate : createCategory rules rows input uuid = .ok rows') :
    WellPlaced rows' := by
  obtain ⟨slug, row, hslug, hplace, hshort, -, rfl⟩ := createCategory_ok hcreate
  obtain ⟨hne, hslash, hfree⟩ := uniqueSlug_spec hslug
  have hrowslug : row.slug = slug := slug_of_unplaced (unplaced_of_place hplace)
  have hkept : ∀ (p : ℕ) parent, rows[p]? = some parent →
      (rows ++ [row])[p]? = rows[p]? := by
    intro p parent hp
    exact List.getElem?_append_left (List.getElem?_eq_some_iff.mp hp).1
  refine ⟨?_, ?_, ?_, ?_, ?_⟩
  · intro k row' hrow'
    rcases getElem?_concat_cases hrow' with hold | ⟨rfl, rfl⟩
    · rw [← h.located k row' hold]
      refine place_congr fun p hp => ?_
      obtain ⟨parent, hparent⟩ := h.exists_parent hold hp
      exact hkept p parent hparent
    · have hunplaced := unplaced_of_place hplace
      rw [← place_again hplace (parent_of_unplaced hunplaced) (slug_of_unplaced hunplaced)]
      refine place_congr fun p hp => ?_
      rcases place_ok_iff.mp hplace with ⟨hroot, rfl⟩ | ⟨q, parent, hq, hparent, rfl⟩
      · rw [hroot] at hp
        cases hp
      · obtain rfl := Option.some.inj (hq.symm.trans hp)
        exact hkept q parent hparent
  · intro row' hmem
    rcases List.mem_append.mp hmem with hmem | hmem
    · exact h.slug_ne_nil row' hmem
    · rwa [List.mem_singleton.mp hmem, hrowslug]
  · intro row' hmem
    rcases List.mem_append.mp hmem with hmem | hmem
    · exact h.slug_no_slash row' hmem
    · rwa [List.mem_singleton.mp hmem, hrowslug]
  · intro j k a b ha hb hab
    rcases getElem?_concat_cases ha with hja | ⟨rfl, rfl⟩ <;>
      rcases getElem?_concat_cases hb with hkb | ⟨rfl, rfl⟩
    · exact h.slug_unique j k a b hja hkb hab
    · exact absurd (hab.trans hrowslug) (hfree a (List.mem_of_getElem? hja))
    · exact absurd (hab.symm.trans hrowslug) (hfree b (List.mem_of_getElem? hkb))
    · rfl
  · intro row' hmem
    rcases List.mem_append.mp hmem with hmem | hmem
    · exact h.path_short row' hmem
    · rwa [List.mem_singleton.mp hmem]

/-! ## `update_category` -/

theorem slug_set (fields : CategoryFields) (row : SupportCategory) :
    (fields.set row).slug = row.slug := rfl

/-- A call that goes through: the parent is good, and either nothing changes or the row is
saved and its descendants after it. -/
theorem updateCategory_ok {rules : TextRules} {rows rows' : Categories} {k : ℕ}
    {fields : CategoryFields} (h : updateCategory rules rows k fields = .ok rows') :
    ∃ category, rows[k]? = some category ∧
      (∀ p, (fields.set category).parent = some p → ∃ parent, rows[p]? = some parent ∧
        GoodParent (some (k, category)) (fields.set category).department p parent) ∧
      ((fields.set category = category ∧ rows' = rows) ∨
        ∃ row, place rows (fields.set category) = .ok row ∧ row.path.length ≤ pathMaxLength ∧
          refreshDescendantPaths rules recursionLimit (rows.set k row) k = .ok rows') := by
  unfold updateCategory at h
  split at h
  · cases h
  · rename_i category hcategory
    obtain ⟨loaded, hloaded, h⟩ := except_bind_ok_iff.mp h
    obtain ⟨_, hassert, h⟩ := except_bind_ok_iff.mp h
    rw [assertValidCategoryParent_ok_iff] at hassert
    refine ⟨category, hcategory, ?_, ?_⟩
    · intro p hp
      obtain ⟨parent, hparent, hsome⟩ := exists_loaded hloaded hp
      exact ⟨parent, hparent, hassert p parent hsome⟩
    · split at h
      · rename_i hsame
        exact Or.inl ⟨hsame, (Except.ok.inj h).symm⟩
      · obtain ⟨row, hrow, hrefresh⟩ := except_bind_ok_iff.mp h
        obtain ⟨hplace, hfits, -⟩ := savedRow_ok_iff.mp hrow
        exact Or.inr ⟨row, hplace, hfits.2.1, hrefresh⟩

section Moved

variable {rows : Categories} {k : ℕ} {fields : CategoryFields} {category row : SupportCategory}

/-- The pointers of the table with a category saved, before its descendants are. -/
theorem parentOf_set_self (hcategory : rows[k]? = some category)
    (hplace : place rows (fields.set category) = .ok row) :
    parentOf (rows.set k row) k = (fields.set category).parent := by
  have hlt := (List.getElem?_eq_some_iff.mp hcategory).1
  rw [parentOf, List.getElem?_set_self hlt]
  exact parent_of_unplaced (unplaced_of_place hplace)

theorem parentOf_set_ne {j : ℕ} (hjk : j ≠ k) : parentOf (rows.set k row) j = parentOf rows j := by
  rw [parentOf, List.getElem?_set_ne (Ne.symm hjk)]
  rfl

/-- A move the check lets through makes no cycle, and 700 levels are enough below it. -/
theorem exists_rank_of_update (h : WellPlaced rows) (hcategory : rows[k]? = some category)
    (hplace : place rows (fields.set category) = .ok row)
    (hgood : ∀ p, (fields.set category).parent = some p → ∃ parent, rows[p]? = some parent ∧
      GoodParent (some (k, category)) (fields.set category).department p parent) :
    ∃ rank : ℕ → ℕ, (∀ j p, parentOf (rows.set k row) j = some p → rank p < rank j) ∧
      ∀ j, rank j ≤ 699 := by
  refine exists_rank_of_move h.depth_lt h.depth_bound (k := k)
    (fun j hj => parentOf_set_ne hj) fun p hp => ?_
  rw [parentOf_set_self hcategory hplace] at hp
  obtain ⟨parent, hparent, -, hcheck⟩ := hgood p hp
  obtain ⟨hne, hstarts⟩ := hcheck k category rfl
  refine ⟨hne, fun hbelow => ?_⟩
  rw [(h.startsWith_iff hcategory hparent).mpr (Or.inr hbelow)] at hstarts
  cases hstarts

end Moved

/-- The descendants of a moved category are saved again, and the table is well placed. -/
theorem wellPlaced_update {rules : TextRules} {rows rows' : Categories} {k : ℕ}
    {fields : CategoryFields} (h : WellPlaced rows)
    (hupdate : updateCategory rules rows k fields = .ok rows') : WellPlaced rows' := by
  obtain ⟨category, hcategory, hgood, ⟨-, rfl⟩ | ⟨row, hplace, hshort, hrefresh⟩⟩ :=
    updateCategory_ok hupdate
  · exact h
  have hlt := (List.getElem?_eq_some_iff.mp hcategory).1
  have hrowslug : row.slug = category.slug :=
    (slug_of_unplaced (unplaced_of_place hplace)).trans (slug_set fields category)
  obtain ⟨rank, hrank, -⟩ := exists_rank_of_update h hcategory hplace hgood
  have hself : ∀ j, parentOf (rows.set k row) j ≠ some j := fun j hj => (hrank j j hj).ne rfl
  have hother : ∀ i, i ≠ k → (rows.set k row)[i]? = rows[i]? :=
    fun i hi => List.getElem?_set_ne (Ne.symm hi)
  -- neither the save nor the refresh writes a slug
  have hslugs : ∀ (j : ℕ) row', rows'[j]? = some row' →
      ∃ old, rows[j]? = some old ∧ row'.slug = old.slug := by
    intro j row' hrow'
    obtain ⟨mid, hmid, hsame⟩ := exists_row_of_map_eq (unplaced_refresh hrefresh) hrow'
    by_cases hjk : j = k
    · subst hjk
      rw [List.getElem?_set_self hlt] at hmid
      obtain rfl := Option.some.inj hmid
      exact ⟨category, hcategory, (slug_of_unplaced hsame).trans hrowslug⟩
    · rw [hother j hjk] at hmid
      exact ⟨mid, hmid, slug_of_unplaced hsame⟩
  obtain ⟨hne, hslash, hunique⟩ := h.slugs_of_same hslugs
  refine ⟨?_, hne, hslash, hunique, ?_⟩
  · refine fun j => located_refresh (fun _ => False) hself ?_ hrefresh j id
    intro j _ hnot
    by_cases hjk : j = k
    · subst hjk
      intro saved hsaved
      rw [List.getElem?_set_self hlt] at hsaved
      obtain rfl := Option.some.inj hsaved
      have hunplaced := unplaced_of_place hplace
      rw [← place_again hplace (parent_of_unplaced hunplaced) (slug_of_unplaced hunplaced)]
      refine place_congr fun p hp => hother p ?_
      rintro rfl
      exact hnot ((parentOf_eq (List.getElem?_set_self hlt)).trans hp)
    · rw [parentOf_set_ne hjk] at hnot
      exact located_of_same hother hjk hnot (h.located j)
  · refine path_short_refresh hrefresh fun row' hmem => ?_
    obtain ⟨j, hj⟩ := List.mem_iff_getElem?.mp hmem
    by_cases hjk : j = k
    · subst hjk
      rw [List.getElem?_set_self hlt] at hj
      obtain rfl := Option.some.inj hj
      exact hshort
    · rw [hother j hjk] at hj
      exact h.path_short row' (List.mem_of_getElem? hj)

/-- The refresh never exhausts the stack of Python. -/
theorem updateCategory_ne_recursionError {rules : TextRules} {rows : Categories} {k : ℕ}
    {fields : CategoryFields} (h : WellPlaced rows) :
    updateCategory rules rows k fields ≠ .error .recursionError := by
  intro herror
  unfold updateCategory at herror
  split at herror
  · cases herror
  rename_i category hcategory
  rcases except_bind_error_iff.mp herror with hload | ⟨loaded, hloaded, herror⟩
  · cases loadParent_error hload
  rcases except_bind_error_iff.mp herror with hassert | ⟨_, hassert, herror⟩
  · obtain ⟨message, hmessage⟩ := assertValidCategoryParent_error hassert
    cases hmessage
  rw [assertValidCategoryParent_ok_iff] at hassert
  split at herror
  · cases herror
  rcases except_bind_error_iff.mp herror with hsaved | ⟨row, hrow, hrefresh⟩
  · rcases savedRow_error hsaved with h | h | h <;> cases h
  obtain ⟨hplace, -, -⟩ := savedRow_ok_iff.mp hrow
  have hgood : ∀ p, (fields.set category).parent = some p → ∃ parent, rows[p]? = some parent ∧
      GoodParent (some (k, category)) (fields.set category).department p parent := by
    intro p hp
    obtain ⟨parent, hparent, hsome⟩ := exists_loaded hloaded hp
    exact ⟨parent, hparent, hassert p parent hsome⟩
  obtain ⟨rank, hrank, hbound⟩ := exists_rank_of_update h hcategory hplace hgood
  exact refresh_ne_recursionError hrank hbound (by simp only [recursionLimit]; omega) hrefresh

/-- A parent fails the test when it is of another department, the category itself or a
descendant of it. -/
theorem not_goodParent_iff {rows : Categories} (h : WellPlaced rows) {k p department : ℕ}
    {category parent : SupportCategory} (hcategory : rows[k]? = some category)
    (hparent : rows[p]? = some parent) :
    ¬ GoodParent (some (k, category)) department p parent ↔
      parent.department ≠ department ∨ p = k ∨ Ancestor (parentOf rows) k p := by
  have hbelow_iff := h.startsWith_iff hcategory hparent
  constructor
  · intro hbad
    by_contra hnone
    push Not at hnone
    obtain ⟨hdepartment, hne, hnot⟩ := hnone
    refine hbad ⟨hdepartment, ?_⟩
    intro j other hj
    obtain ⟨rfl, rfl⟩ := Prod.mk.inj (Option.some.inj hj)
    refine ⟨hne, Bool.eq_false_iff.mpr fun hstarts => ?_⟩
    exact (hbelow_iff.mp hstarts).elim hne hnot
  · rintro hbad ⟨hdepartment, hcheck⟩
    obtain ⟨hne, hstarts⟩ := hcheck k category rfl
    rcases hbad with hbad | rfl | hbelow
    · exact hbad hdepartment
    · exact hne rfl
    · rw [hbelow_iff.mpr (Or.inr hbelow)] at hstarts
      cases hstarts

theorem updateCategory_taxonomyTree_iff {rules : TextRules} {rows : Categories} {k : ℕ}
    {fields : CategoryFields} {category : SupportCategory} (h : WellPlaced rows)
    (hcategory : rows[k]? = some category) :
    (∃ message, updateCategory rules rows k fields = .error (.taxonomyTree message)) ↔
      ∃ p parent, fields.parent.getD category.parent = some p ∧ rows[p]? = some parent ∧
        (parent.department ≠ fields.department.getD category.department ∨ p = k ∨
          Ancestor (parentOf rows) k p) := by
  unfold updateCategory
  rw [hcategory]
  constructor
  · rintro ⟨message, herror⟩
    rcases except_bind_error_iff.mp herror with hload | ⟨loaded, hloaded, herror⟩
    · cases loadParent_error hload
    rcases except_bind_error_iff.mp herror with hassert | ⟨_, -, herror⟩
    · -- the check raised, so the parent that was loaded fails it
      by_contra hnone
      have hok : assertValidCategoryParent (some (k, category)) loaded
          (fields.department.getD category.department) = .ok () := by
        rw [assertValidCategoryParent_ok_iff]
        intro p parent hp
        by_contra hbad
        rcases loadParent_ok_iff.mp hloaded with ⟨-, hnil⟩ | ⟨q, other, hq, hother, hsome⟩
        · rw [hp] at hnil
          cases hnil
        · obtain ⟨rfl, rfl⟩ := Prod.mk.inj (Option.some.inj (hp.symm.trans hsome))
          exact hnone ⟨p, parent, hq, hother, (not_goodParent_iff h hcategory hother).mp hbad⟩
      rw [hok] at hassert
      cases hassert
    · split at herror
      · cases herror
      rcases except_bind_error_iff.mp herror with hsaved | ⟨row, -, hrefresh⟩
      · rcases savedRow_error hsaved with h | h | h <;> cases h
      · rcases refresh_error hrefresh with h | h | h | h <;> cases h
  · rintro ⟨p, parent, hp, hparent, hbad⟩
    have hloaded : loadParent rows (fields.parent.getD category.parent) = .ok (some (p, parent)) :=
      loadParent_ok_iff.mpr (Or.inr ⟨p, parent, hp, hparent, rfl⟩)
    cases hassert : assertValidCategoryParent (some (k, category)) (some (p, parent))
        (fields.department.getD category.department) with
    | ok u =>
        have hgood := assertValidCategoryParent_ok_iff.mp hassert p parent rfl
        exact absurd hgood ((not_goodParent_iff h hcategory hparent).mpr hbad)
    | error e =>
        obtain ⟨message, rfl⟩ := assertValidCategoryParent_error hassert
        exact ⟨message, except_bind_error_iff.mpr (Or.inr ⟨_, hloaded,
          except_bind_error_iff.mpr (Or.inl hassert)⟩)⟩

/-! ## `deactivate_category` -/

theorem deactivateCategory_ok {rows rows' : Categories} {k : ℕ} {openTickets : Bool}
    (h : deactivateCategory rows k openTickets = .ok rows') :
    rows' = rows.modify k fun row => { row with isActive := false } := by
  unfold deactivateCategory at h
  repeat' split at h
  all_goals first
    | exact (Except.ok.inj h).symm
    | cases h

/-- The columns the tree is made of. -/
def spot (row : SupportCategory) : Option ℕ × String × ℕ × String :=
  (row.parent, row.slug, row.depth, row.path)

/-- The other columns do not matter to the tree. -/
theorem wellPlaced_of_spots {rows rows' : Categories} (h : WellPlaced rows)
    (hsame : rows'.map spot = rows.map spot) : WellPlaced rows' := by
  have hold : ∀ (k : ℕ) row', rows'[k]? = some row' →
      ∃ row, rows[k]? = some row ∧ row'.parent = row.parent ∧ row'.slug = row.slug ∧
        row'.depth = row.depth ∧ row'.path = row.path := by
    intro k row' hrow'
    obtain ⟨row, hrow, hspot⟩ := exists_row_of_map_eq hsame hrow'
    simp only [spot, Prod.mk.injEq] at hspot
    exact ⟨row, hrow, hspot⟩
  obtain ⟨hne, hslash, hunique⟩ := h.slugs_of_same fun k row' hrow' => by
    obtain ⟨row, hrow, -, hslug, -⟩ := hold k row' hrow'
    exact ⟨row, hrow, hslug⟩
  refine ⟨?_, hne, hslash, hunique, ?_⟩
  · intro k row' hrow'
    obtain ⟨row, hrow, hparent, hslug, hdepth, hpath⟩ := hold k row' hrow'
    rw [place_self_iff, hparent, hslug, hdepth, hpath]
    rcases place_self_iff.mp (h.located k row hrow) with hroot | ⟨p, parent, hp, hup, hspots⟩
    · exact Or.inl hroot
    · obtain ⟨parent', hup', hspot⟩ := exists_row_of_map_eq hsame.symm hup
      simp only [spot, Prod.mk.injEq] at hspot
      rw [hspot.2.2.1, hspot.2.2.2] at hspots
      exact Or.inr ⟨p, parent', hp, hup', hspots⟩
  · intro row' hmem
    obtain ⟨k, hk⟩ := List.mem_iff_getElem?.mp hmem
    obtain ⟨row, hrow, -, -, -, hpath⟩ := hold k row' hk
    rw [hpath]
    exact h.path_short row (List.mem_of_getElem? hrow)

theorem wellPlaced_deactivate {rows rows' : Categories} {k : ℕ} {openTickets : Bool}
    (h : WellPlaced rows) (hdeactivate : deactivateCategory rows k openTickets = .ok rows') :
    WellPlaced rows' := by
  rw [deactivateCategory_ok hdeactivate]
  refine wellPlaced_of_spots h (map_modify_same ?_ rows k)
  intro row
  rfl

/-! ## Every reachable table -/

theorem wellPlaced_nil : WellPlaced [] := by
  refine ⟨?_, ?_, ?_, ?_, ?_⟩
  · intro k row hrow
    cases hrow
  · exact List.forall_mem_nil _
  · exact List.forall_mem_nil _
  · intro j k a b ha
    cases ha
  · exact List.forall_mem_nil _

theorem wellPlaced_step {rules : TextRules} {rows : Categories} (act : CategoryAct)
    (h : WellPlaced rows) : WellPlaced (categoryStep rules rows act) := by
  unfold categoryStep
  cases hcall : categoryCall rules rows act with
  | error e => exact h
  | ok rows' =>
      cases act with
      | create input uuid => exact wellPlaced_create h hcall
      | update category fields => exact wellPlaced_update h hcall
      | deactivate category openTickets => exact wellPlaced_deactivate h hcall

theorem wellPlaced_run (rules : TextRules) (acts : List CategoryAct) :
    WellPlaced (run (categoryStep rules) [] acts) :=
  invariant_run (fun _ act h => wellPlaced_step act h) wellPlaced_nil acts

/-- What the tree of a table is to be. -/
structure CategoryTree (rules : TextRules) (rows : Categories) : Prop where
  acyclic : Acyclic (parentOf rows)
  placed : ∀ (k : ℕ) row, rows[k]? = some row →
    ∃ above, Lineage (parentOf rows) above k ∧ above.Nodup ∧
      (∀ a, a ∈ above ↔ Ancestor (parentOf rows) a k) ∧
      row.depth = above.length ∧ row.path.toList = '/' :: slugText rows (above ++ [k])
  refused_iff : ∀ (k : ℕ) row fields, rows[k]? = some row →
    ((∃ message, updateCategory rules rows k fields = .error (.taxonomyTree message)) ↔
      ∃ p parent, fields.parent.getD row.parent = some p ∧ rows[p]? = some parent ∧
        (parent.department ≠ fields.department.getD row.department ∨ p = k ∨
          Ancestor (parentOf rows) k p))

/-- Whatever calls are made, the categories form a forest, every path and depth tells the way
down to its category, and an update is refused for a parent of another department or of its
own subtree and for no other. -/
theorem category_tree (rules : TextRules) (acts : List CategoryAct) :
    CategoryTree rules (run (categoryStep rules) [] acts) := by
  have h := wellPlaced_run rules acts
  refine ⟨h.acyclic, ?_, ?_⟩
  · intro k row hrow
    obtain ⟨above, hline⟩ := exists_lineage h.depth_lt k
    obtain ⟨hdepth, hpath⟩ := h.depth_path hline hrow
    exact ⟨above, hline, hline.nodup h.acyclic, fun a => hline.mem_iff, hdepth, hpath⟩
  · intro k row fields hrow
    exact updateCategory_taxonomyTree_iff h hrow

end SetadJang.SupportDesk
