import SetadJang.Framework.Forest
import SetadJang.Framework.Rows
import SetadJang.SupportDesk.Categories

/-!
# Paths in a table of categories

A table is well placed when saving any row again would change nothing.  Its parents then form
a forest, every path spells the way down from a root, and the path of one category begins with
the path of another exactly when it lies below it.
-/

namespace SetadJang.SupportDesk

open SetadJang.Framework

/-- The parent pointers of the table. -/
def parentOf (rows : Categories) (k : ℕ) : Option ℕ := rows[k]?.bind (·.parent)

/-- Saving the row again would leave it where it is. -/
def Located (rows : Categories) (k : ℕ) : Prop :=
  ∀ row, rows[k]? = some row → place rows row = .ok row

structure WellPlaced (rows : Categories) : Prop where
  located : ∀ k, Located rows k
  slug_ne_nil : ∀ row ∈ rows, row.slug.toList ≠ []
  slug_no_slash : ∀ row ∈ rows, '/' ∉ row.slug.toList
  slug_unique : ∀ (j k : ℕ) (a b : SupportCategory),
    rows[j]? = some a → rows[k]? = some b → a.slug = b.slug → j = k
  path_short : ∀ row ∈ rows, row.path.length ≤ pathMaxLength

def depthOf (rows : Categories) (k : ℕ) : ℕ := (rows[k]?.map (·.depth)).getD 0

def slugOf (rows : Categories) (k : ℕ) : List Char := (rows[k]?.map (·.slug.toList)).getD []

/-- The slugs of these categories, each followed by `/`. -/
def slugText (rows : Categories) (ks : List ℕ) : List Char :=
  (ks.map (slugOf rows)).flatMap (· ++ ['/'])

/-- Slugs that are not empty take two characters each, or more. -/
theorem two_mul_length_le_slugText {rows : Categories} {ks : List ℕ}
    (hks : ∀ j ∈ ks, slugOf rows j ≠ []) : 2 * ks.length ≤ (slugText rows ks).length := by
  induction ks with
  | nil => simp
  | cons j ks ih =>
      have hj := List.length_pos_iff.mpr (hks j List.mem_cons_self)
      have hrest := ih fun i hi => hks i (List.mem_cons_of_mem _ hi)
      simp only [slugText, List.map_cons, List.flatMap_cons, List.length_append,
        List.length_cons, List.length_nil] at hrest ⊢
      omega

/-! ## Where `save` puts a row -/

theorem parentOf_eq {rows : Categories} {k : ℕ} {row : SupportCategory}
    (h : rows[k]? = some row) : parentOf rows k = row.parent := by
  rw [parentOf, h]
  rfl

theorem exists_row_of_parentOf {rows : Categories} {k p : ℕ} (h : parentOf rows k = some p) :
    ∃ row, rows[k]? = some row ∧ row.parent = some p :=
  Option.bind_eq_some_iff.mp h

theorem place_ok_iff {rows : Categories} {row saved : SupportCategory} :
    place rows row = .ok saved ↔
      (row.parent = none ∧ saved = { row with depth := 0, path := "/" ++ row.slug ++ "/" }) ∨
      ∃ p parent, row.parent = some p ∧ rows[p]? = some parent ∧
        saved = { row with
          depth := parent.depth + 1
          path := pyRStrip (· == '/') parent.path ++ "/" ++ row.slug ++ "/" } := by
  unfold place
  cases row.parent with
  | none => simp [eq_comm]
  | some p =>
      cases hp : rows[p]? with
      | none => simp [hp]
      | some parent => simp [hp, eq_comm]

/-- A row that lies where it belongs, column by column. -/
theorem place_self_iff {rows : Categories} {row : SupportCategory} :
    place rows row = .ok row ↔
      (row.parent = none ∧ row.depth = 0 ∧ row.path = "/" ++ row.slug ++ "/") ∨
      ∃ p parent, row.parent = some p ∧ rows[p]? = some parent ∧ row.depth = parent.depth + 1 ∧
        row.path = pyRStrip (· == '/') parent.path ++ "/" ++ row.slug ++ "/" := by
  rw [place_ok_iff]
  constructor
  · rintro (⟨hroot, hsaved⟩ | ⟨p, parent, hp, hparent, hsaved⟩)
    · exact Or.inl ⟨hroot, congrArg SupportCategory.depth hsaved,
        congrArg SupportCategory.path hsaved⟩
    · exact Or.inr ⟨p, parent, hp, hparent, congrArg SupportCategory.depth hsaved,
        congrArg SupportCategory.path hsaved⟩
  · rintro (⟨hroot, hdepth, hpath⟩ | ⟨p, parent, hp, hparent, hdepth, hpath⟩)
    · exact Or.inl ⟨hroot, by rw [← hdepth, ← hpath]⟩
    · exact Or.inr ⟨p, parent, hp, hparent, by rw [← hdepth, ← hpath]⟩

/-- Only the row of the parent matters. -/
theorem place_congr {rows rows' : Categories} {row : SupportCategory}
    (h : ∀ p, row.parent = some p → rows'[p]? = rows[p]?) : place rows' row = place rows row := by
  unfold place
  cases hparent : row.parent with
  | none => rfl
  | some p => simp only [h p hparent]

/-- The computed columns do not count when a row is placed again. -/
theorem place_again {rows : Categories} {row saved stored : SupportCategory}
    (h : place rows row = .ok saved) (hparent : stored.parent = row.parent)
    (hslug : stored.slug = row.slug) :
    place rows { stored with depth := saved.depth, path := saved.path } =
      .ok { stored with depth := saved.depth, path := saved.path } := by
  rw [place_ok_iff] at h ⊢
  rcases h with ⟨hroot, rfl⟩ | ⟨p, parent, hp, hrow, rfl⟩
  · exact Or.inl ⟨hparent.trans hroot, by simp [hslug]⟩
  · exact Or.inr ⟨p, parent, hparent.trans hp, hrow, by simp [hslug]⟩

/-- A row that is neither rewritten nor a child of the rewritten one stays located. -/
theorem located_of_same {rows rows' : Categories} {j k : ℕ}
    (hsame : ∀ i, i ≠ k → rows'[i]? = rows[i]?) (hjk : j ≠ k) (hparent : parentOf rows j ≠ some k)
    (h : Located rows j) : Located rows' j := by
  intro row hrow
  rw [hsame j hjk] at hrow
  rw [← h row hrow]
  refine place_congr fun p hp => hsame p ?_
  rintro rfl
  exact hparent ((parentOf_eq hrow).trans hp)

namespace WellPlaced

variable {rows : Categories} (h : WellPlaced rows)

include h

theorem exists_parent {k p : ℕ} {row : SupportCategory} (hrow : rows[k]? = some row)
    (hp : row.parent = some p) : ∃ parent, rows[p]? = some parent := by
  rcases place_self_iff.mp (h.located k row hrow) with ⟨hroot, -⟩ | ⟨q, parent, hq, hparent, -⟩
  · rw [hp] at hroot
    cases hroot
  · obtain rfl := Option.some.inj (hp.symm.trans hq)
    exact ⟨parent, hparent⟩

/-! ## The forest -/

theorem depth_lt (k p : ℕ) (hp : parentOf rows k = some p) : depthOf rows p < depthOf rows k := by
  obtain ⟨row, hrow, hrowp⟩ := exists_row_of_parentOf hp
  rcases place_self_iff.mp (h.located k row hrow) with ⟨hroot, -⟩ | ⟨q, parent, hq, hparent, hdepth, -⟩
  · rw [hrowp] at hroot
    cases hroot
  · obtain rfl := Option.some.inj (hrowp.symm.trans hq)
    simp [depthOf, hrow, hparent, hdepth]

theorem acyclic : Acyclic (parentOf rows) := acyclic_of_rank h.depth_lt

/-- Depth and path of a category, read off the way down to it. -/
theorem depth_path {above : List ℕ} {k : ℕ} (hline : Lineage (parentOf rows) above k)
    {row : SupportCategory} (hrow : rows[k]? = some row) :
    row.depth = above.length ∧ row.path.toList = '/' :: slugText rows (above ++ [k]) := by
  induction hline generalizing row with
  | root hroot =>
      rw [parentOf_eq hrow] at hroot
      rcases place_self_iff.mp (h.located _ row hrow) with ⟨-, hdepth, hpath⟩ | ⟨p, -, hp, -⟩
      · rw [hdepth, hpath]
        simp [slugText, slugOf, hrow]
      · rw [hroot] at hp
        cases hp
  | @child above p k hp hup ih =>
      rw [parentOf_eq hrow] at hp
      rcases place_self_iff.mp (h.located k row hrow) with
        ⟨hroot, -⟩ | ⟨q, parent, hq, hparent, hdepth, hpath⟩
      · rw [hp] at hroot
        cases hroot
      obtain rfl := Option.some.inj (hp.symm.trans hq)
      obtain ⟨hupdepth, huppath⟩ := ih hparent
      have hmem := List.mem_of_getElem? hparent
      -- the path of the parent ends with its slug and one separator, which `rstrip` takes
      have hsplit : parent.path.toList =
          ('/' :: slugText rows above) ++ parent.slug.toList ++ ['/'] := by
        rw [huppath]
        simp [slugText, slugOf, hparent]
      have hstrip := pyRStrip_append_singleton hsplit (h.slug_ne_nil parent hmem)
        (h.slug_no_slash parent hmem)
      constructor
      · rw [hdepth, hupdepth]
        simp
      · rw [hpath]
        simp [slugText, slugOf, hrow, hparent, hstrip]

theorem slugOf_no_slash (j : ℕ) : '/' ∉ slugOf rows j := by
  unfold slugOf
  cases hj : rows[j]? with
  | none => simp
  | some row => exact h.slug_no_slash row (List.mem_of_getElem? hj)

/-- Only one category has the slug of a stored one. -/
theorem eq_of_slugOf_eq {j k : ℕ} {row : SupportCategory} (hrow : rows[k]? = some row)
    (hjk : slugOf rows j = slugOf rows k) : j = k := by
  have hk : slugOf rows k = row.slug.toList := by rw [slugOf, hrow]; rfl
  rw [hk] at hjk
  unfold slugOf at hjk
  cases hj : rows[j]? with
  | none =>
      rw [hj] at hjk
      exact absurd hjk.symm (h.slug_ne_nil row (List.mem_of_getElem? hrow))
  | some other =>
      rw [hj] at hjk
      exact h.slug_unique j k other row hj hrow (String.toList_injective hjk)

section Lines

variable {above above' : List ℕ} {k p : ℕ} {row parent : SupportCategory}
  (hline : Lineage (parentOf rows) above k) (hline' : Lineage (parentOf rows) above' p)
  (hrow : rows[k]? = some row)

include hline hline' hrow

/-- A path begins with another when its slugs do. -/
theorem startsWith_iff_slugs (hparent : rows[p]? = some parent) :
    pyStartsWith parent.path row.path = true ↔
      (above ++ [k]).map (slugOf rows) <+: (above' ++ [p]).map (slugOf rows) := by
  have hslash : ∀ ks : List ℕ, ∀ x ∈ ks.map (slugOf rows), '/' ∉ x := by
    intro ks x hx
    obtain ⟨j, -, rfl⟩ := List.mem_map.mp hx
    exact h.slugOf_no_slash j
  rw [pyStartsWith, List.isPrefixOf_iff_prefix, (h.depth_path hline hrow).2,
    (h.depth_path hline' hparent).2, List.cons_prefix_cons, ← terminated_prefix_iff
      (hslash _) (hslash _)]
  simp [slugText]

/-- The slugs on the way to `p` begin with those on the way to `k` when `k` is on the way. -/
theorem slugs_prefix_iff :
    (above ++ [k]).map (slugOf rows) <+: (above' ++ [p]).map (slugOf rows) ↔
      k ∈ above' ++ [p] := by
  constructor
  · intro hslugs
    have hslug : slugOf rows k ∈ (above' ++ [p]).map (slugOf rows) := hslugs.subset (by simp)
    obtain ⟨j, hj, hjk⟩ := List.mem_map.mp hslug
    rwa [← h.eq_of_slugOf_eq hrow hjk]
  · intro hk
    obtain ⟨up, hup, hbegin⟩ := hline'.prefix_of_mem hk
    rw [hline.unique hup]
    exact hbegin.map _

end Lines

/-- The test of `_assert_valid_category_parent`: the path of `p` begins with the path of `k`
when `p` is `k` or lies below it. -/
theorem startsWith_iff {k p : ℕ} {row parent : SupportCategory} (hrow : rows[k]? = some row)
    (hparent : rows[p]? = some parent) :
    pyStartsWith parent.path row.path = true ↔ p = k ∨ Ancestor (parentOf rows) k p := by
  obtain ⟨above, hline⟩ := exists_lineage h.depth_lt k
  obtain ⟨above', hline'⟩ := exists_lineage h.depth_lt p
  rw [h.startsWith_iff_slugs hline hline' hrow hparent, h.slugs_prefix_iff hline hline' hrow,
    List.mem_append, hline'.mem_iff, List.mem_singleton, or_comm, eq_comm]

/-- The slugs on the way down to a category are those of stored rows. -/
theorem slugOf_ne_nil {above : List ℕ} {k j : ℕ} (hline : Lineage (parentOf rows) above k)
    {row : SupportCategory} (hrow : rows[k]? = some row) (hj : j ∈ above ++ [k]) :
    slugOf rows j ≠ [] := by
  have hstored : ∃ other, rows[j]? = some other := by
    rcases List.mem_append.mp hj with hj | hj
    · obtain ⟨c, hc, -⟩ := Relation.TransGen.head'_iff.mp (hline.mem_iff.mp hj)
      obtain ⟨child, hchild, hp⟩ := exists_row_of_parentOf hc
      exact h.exists_parent hchild hp
    · exact ⟨row, List.mem_singleton.mp hj ▸ hrow⟩
  obtain ⟨other, hother⟩ := hstored
  rw [slugOf, hother]
  exact h.slug_ne_nil other (List.mem_of_getElem? hother)

/-- A path has two characters or more for each level. -/
theorem depth_bound (k : ℕ) : depthOf rows k ≤ 349 := by
  cases hrow : rows[k]? with
  | none => simp [depthOf, hrow]
  | some row =>
      obtain ⟨above, hline⟩ := exists_lineage h.depth_lt k
      obtain ⟨hdepth, hpath⟩ := h.depth_path hline hrow
      have hshort := h.path_short row (List.mem_of_getElem? hrow)
      have hlevels := two_mul_length_le_slugText fun j => h.slugOf_ne_nil hline hrow (j := j)
      have hlength := congrArg List.length hpath
      rw [String.length_toList, List.length_cons] at hlength
      rw [List.length_append, List.length_singleton] at hlevels
      simp only [pathMaxLength] at hshort
      simp only [depthOf, hrow, Option.map_some, Option.getD_some]
      omega

/-- Slugs that stay where they are stay good. -/
theorem slugs_of_same {rows' : Categories} (hslugs : ∀ (j : ℕ) row', rows'[j]? = some row' →
    ∃ row, rows[j]? = some row ∧ row'.slug = row.slug) :
    (∀ row ∈ rows', row.slug.toList ≠ []) ∧ (∀ row ∈ rows', '/' ∉ row.slug.toList) ∧
      ∀ (j k : ℕ) (a b : SupportCategory),
        rows'[j]? = some a → rows'[k]? = some b → a.slug = b.slug → j = k := by
  refine ⟨fun row' hmem => ?_, fun row' hmem => ?_, fun j k a b ha hb hab => ?_⟩
  · obtain ⟨j, hj⟩ := List.mem_iff_getElem?.mp hmem
    obtain ⟨row, hrow, hslug⟩ := hslugs j row' hj
    rw [hslug]
    exact h.slug_ne_nil row (List.mem_of_getElem? hrow)
  · obtain ⟨j, hj⟩ := List.mem_iff_getElem?.mp hmem
    obtain ⟨row, hrow, hslug⟩ := hslugs j row' hj
    rw [hslug]
    exact h.slug_no_slash row (List.mem_of_getElem? hrow)
  · obtain ⟨olda, holda, hslugA⟩ := hslugs j a ha
    obtain ⟨oldb, holdb, hslugB⟩ := hslugs k b hb
    exact h.slug_unique j k olda oldb holda holdb (by rw [← hslugA, ← hslugB, hab])

end WellPlaced

end SetadJang.SupportDesk
