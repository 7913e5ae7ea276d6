import SetadJang.Framework.Runs
import SetadJang.SupportDesk.CategoryTree

/-!
# The category tree stays a tree

A category that moves is saved first, and its descendants lie wrong until they are saved again
from the top down.  The refresh is followed with a set of rows that may still lie wrong: what a
call leaves of it does not grow, and the calls for all children leave nothing.
-/

namespace SetadJang.SupportDesk

open SetadJang.Framework

/-! ## Saving -/

/-- A row without the columns that `save` computes. -/
def unplaced (row : SupportCategory) : SupportCategory := { row with depth := 0, path := "" }

theorem savedRow_ok_iff {rows others : Categories} {row saved : SupportCategory} :
    savedRow rows others row = .ok saved ↔
      place rows row = .ok saved ∧ FitsColumns saved ∧ ∀ other ∈ others, ¬ Clash saved other := by
  rw [savedRow, except_bind_ok_iff]
  simp_rw [checkThat_bind_ok_iff]
  constructor
  · rintro ⟨row', hplace, hfits, hclash, hsaved⟩
    obtain rfl := Except.ok.inj hsaved
    exact ⟨hplace, hfits, hclash⟩
  · rintro ⟨hplace, hfits, hclash⟩
    exact ⟨saved, hplace, hfits, hclash, rfl⟩

/-- What a save may raise. -/
theorem savedRow_error {rows others : Categories} {row : SupportCategory} {e : CategoryError}
    (h : savedRow rows others row = .error e) :
    e = .doesNotExist ∨ e = .dataError ∨ e = .integrityError := by
  rw [savedRow, except_bind_error_iff] at h
  rcases h with hplace | ⟨saved, -, hchecks⟩
  · left
    unfold place at hplace
    split at hplace
    · cases hplace
    · split at hplace
      · exact (Except.error.inj hplace).symm
      · cases hplace
  · rw [except_bind_error_iff, checkThat_error_iff] at hchecks
    rcases hchecks with ⟨-, rfl⟩ | ⟨-, -, hclash⟩
    · exact Or.inr (Or.inl rfl)
    · rw [except_bind_error_iff, checkThat_error_iff] at hclash
      rcases hclash with ⟨-, rfl⟩ | ⟨-, -, hpure⟩
      · exact Or.inr (Or.inr rfl)
      · cases hpure

theorem parent_of_unplaced {a b : SupportCategory} (h : unplaced a = unplaced b) :
    a.parent = b.parent := by
  have hparent := congrArg SupportCategory.parent h
  exact hparent

theorem slug_of_unplaced {a b : SupportCategory} (h : unplaced a = unplaced b) :
    a.slug = b.slug := by
  have hslug := congrArg SupportCategory.slug h
  exact hslug

theorem unplaced_of_place {rows : Categories} {row saved : SupportCategory}
    (h : place rows row = .ok saved) : unplaced saved = unplaced row := by
  rcases place_ok_iff.mp h with ⟨-, rfl⟩ | ⟨p, parent, -, -, rfl⟩ <;> rfl

theorem savePlace_ok {rows rows' : Categories} {k : ℕ} {row : SupportCategory}
    (h : savePlace rows k row = .ok rows') :
    ∃ saved, place rows row = .ok saved ∧ saved.path.length ≤ pathMaxLength ∧
      rows' = rows.modify k fun stored => { stored with depth := saved.depth, path := saved.path } := by
  rw [savePlace, except_bind_ok_iff] at h
  obtain ⟨saved, hsaved, hrows⟩ := h
  obtain ⟨hplace, hfits, -⟩ := savedRow_ok_iff.mp hsaved
  exact ⟨saved, hplace, hfits.2.1, (Except.ok.inj hrows).symm⟩

theorem parentOf_congr {rows rows' : Categories} (h : rows'.map unplaced = rows.map unplaced) :
    parentOf rows' = parentOf rows := by
  have hrows : ∀ table : Categories, parentOf table = fun k =>
      (table.map unplaced)[k]?.bind (·.parent) := by
    intro table
    funext k
    rw [List.getElem?_map, Option.bind_map]
    rfl
  rw [hrows, hrows, h]

/-! ## The refresh -/

theorem mem_childrenOf {rules : TextRules} {rows : Categories} {pk k : ℕ} {row : SupportCategory} :
    (k, row) ∈ childrenOf rules rows pk ↔ rows[k]? = some row ∧ row.parent = some pk := by
  rw [childrenOf, List.mem_insertionSort, List.mem_filterMap]
  constructor
  · rintro ⟨⟨other, j⟩, hmem, hsome⟩
    dsimp only at hsome
    split at hsome
    · rename_i hparent
      cases hsome
      exact ⟨List.mem_zipIdx_iff_getElem?.mp hmem, hparent⟩
    · cases hsome
  · rintro ⟨hrow, hparent⟩
    exact ⟨(row, k), List.mem_zipIdx_iff_getElem?.mpr hrow, if_pos hparent⟩

/-- What every save keeps, the refresh keeps. -/
theorem refresh_keeps {rules : TextRules} {R : Categories → Categories → Prop}
    (hrefl : ∀ rows, R rows rows) (htrans : ∀ rows mid rows', R rows mid → R mid rows' → R rows rows')
    (hsave : ∀ rows k row rows', savePlace rows k row = .ok rows' → R rows rows') {levels : ℕ}
    {rows rows' : Categories} {pk : ℕ}
    (h : refreshDescendantPaths rules levels rows pk = .ok rows') : R rows rows' := by
  induction levels generalizing rows rows' pk with
  | zero => cases h
  | succ levels ih =>
      refine loop_invariant (I := fun _ => R rows) ?_ (hrefl rows) h
      intro child rest mid after _ hmid hturn
      obtain ⟨saved, hsaved, hrefresh⟩ := except_bind_ok_iff.mp hturn
      exact htrans _ _ _ hmid (htrans _ _ _ (hsave _ _ _ _ hsaved) (ih hrefresh))

theorem unplaced_savePlace {rows rows' : Categories} {k : ℕ} {row : SupportCategory}
    (h : savePlace rows k row = .ok rows') : rows'.map unplaced = rows.map unplaced := by
  obtain ⟨saved, -, -, rfl⟩ := savePlace_ok h
  refine map_modify_same ?_ rows k
  intro row
  rfl

theorem unplaced_refresh {rules : TextRules} {levels : ℕ} {rows rows' : Categories} {pk : ℕ}
    (h : refreshDescendantPaths rules levels rows pk = .ok rows') :
    rows'.map unplaced = rows.map unplaced :=
  refresh_keeps (R := fun rows rows' => rows'.map unplaced = rows.map unplaced) (fun _ => rfl)
    (fun _ _ _ h h' => h'.trans h) (fun _ _ _ _ => unplaced_savePlace) h

/-- The refresh writes no path that is too long. -/
theorem path_short_refresh {rules : TextRules} {levels : ℕ} {rows rows' : Categories} {pk : ℕ}
    (h : refreshDescendantPaths rules levels rows pk = .ok rows')
    (hshort : ∀ row ∈ rows, row.path.length ≤ pathMaxLength) :
    ∀ row ∈ rows', row.path.length ≤ pathMaxLength := by
  refine refresh_keeps (R := fun rows rows' =>
    (∀ row ∈ rows, row.path.length ≤ pathMaxLength) →
      ∀ row ∈ rows', row.path.length ≤ pathMaxLength)
    (fun _ h => h) (fun _ _ _ h h' hs => h' (h hs)) ?_ h hshort
  intro rows k row rows' hsave hshort row' hmem
  obtain ⟨saved, -, hlength, rfl⟩ := savePlace_ok hsave
  obtain ⟨j, hj⟩ := List.mem_iff_getElem?.mp hmem
  rcases getElem?_modify_cases hj with ⟨-, stored, -, rfl⟩ | ⟨-, hj⟩
  · exact hlength
  · exact hshort row' (List.mem_of_getElem? hj)

/-- Saving a child whose parent is another row puts it where it belongs, and no row but its
own children is put wrong by it. -/
theorem located_savePlace {rows rows' : Categories} {k j : ℕ} {row stored : SupportCategory}
    (h : savePlace rows k row = .ok rows') (hstored : rows[k]? = some stored)
    (hsame : unplaced stored = unplaced row) (hself : parentOf rows k ≠ some k)
    (hj : parentOf rows j ≠ some k) (hlocated : j ≠ k → Located rows j) : Located rows' j := by
  obtain ⟨saved, hplace, -, rfl⟩ := savePlace_ok h
  have hother : ∀ i, i ≠ k → (rows.modify k fun stored =>
      { stored with depth := saved.depth, path := saved.path })[i]? = rows[i]? :=
    fun i hi => List.getElem?_modify_ne _ _ (Ne.symm hi)
  by_cases hjk : j = k
  · subst hjk
    intro row' hrow'
    rw [List.getElem?_modify_eq, hstored] at hrow'
    obtain rfl := Option.some.inj hrow'
    rw [← place_again hplace (parent_of_unplaced hsame) (slug_of_unplaced hsame)]
    refine place_congr fun p hp => hother p ?_
    rintro rfl
    exact hself ((parentOf_eq hstored).trans hp)
  · exact located_of_same hother hjk hj (hlocated hjk)

/-- The refresh of `pk`: if all rows but the stale ones and the children of `pk` lie where they
belong, all but the stale ones do afterwards. -/
theorem located_refresh {rules : TextRules} {levels : ℕ} {rows rows' : Categories} {pk : ℕ}
    (stale : ℕ → Prop) (hself : ∀ k, parentOf rows k ≠ some k)
    (hpre : ∀ k, ¬ stale k → parentOf rows k ≠ some pk → Located rows k)
    (h : refreshDescendantPaths rules levels rows pk = .ok rows') :
    ∀ k, ¬ stale k → Located rows' k := by
  induction levels generalizing rows rows' pk stale with
  | zero => cases h
  | succ levels ih =>
      have hloop := loop_invariant (s := rows) (I := fun todo mid =>
          mid.map unplaced = rows.map unplaced ∧
            ∀ k, ¬ stale k → k ∉ todo.map Prod.fst → Located mid k) ?_ ⟨rfl, ?_⟩ h
      · exact fun k hk => hloop.2 k hk (by simp)
      · rintro ⟨c, child⟩ rest mid after hchild ⟨hmid, hlocated⟩ hturn
        obtain ⟨saved, hsaved, hrefresh⟩ := except_bind_ok_iff.mp hturn
        obtain ⟨hrow, hparent⟩ := mem_childrenOf.mp hchild
        have hparents := parentOf_congr hmid
        have hsavedRows := unplaced_savePlace hsaved
        refine ⟨(unplaced_refresh hrefresh).trans (hsavedRows.trans hmid), ?_⟩
        -- the children still to come count as stale in the call for this one
        refine fun k hk hrest => ih (fun k => stale k ∨ k ∈ rest.map Prod.fst) ?_ ?_
          hrefresh k (not_or.mpr ⟨hk, hrest⟩)
        · intro k
          rw [parentOf_congr hsavedRows, hparents]
          exact hself k
        · intro k hk hnot
          rw [parentOf_congr hsavedRows] at hnot
          obtain ⟨hk, hrest⟩ := not_or.mp hk
          obtain ⟨stored, hstored, hsame⟩ := exists_row_of_map_eq hmid.symm hrow
          refine located_savePlace hsaved hstored hsame.symm ?_ hnot fun hkc => ?_
          · rw [hparents]
            exact hself c
          · refine hlocated k hk ?_
            rw [List.map_cons, List.mem_cons, not_or]
            exact ⟨hkc, hrest⟩
      · intro k hk hchildren
        refine hpre k hk fun hparent => hchildren ?_
        obtain ⟨row, hrow, hp⟩ := exists_row_of_parentOf hparent
        exact List.mem_map.mpr ⟨(k, row), mem_childrenOf.mpr ⟨hrow, hp⟩, rfl⟩

theorem savePlace_error {rows : Categories} {k : ℕ} {row : SupportCategory} {e : CategoryError}
    (h : savePlace rows k row = .error e) :
    e = .doesNotExist ∨ e = .dataError ∨ e = .integrityError := by
  rw [savePlace, except_bind_error_iff] at h
  rcases h with hsaved | ⟨saved, -, hpure⟩
  · exact savedRow_error hsaved
  · cases hpure

/-- What the refresh may raise. -/
theorem refresh_error {rules : TextRules} {levels : ℕ} {rows : Categories} {pk : ℕ}
    {e : CategoryError} (h : refreshDescendantPaths rules levels rows pk = .error e) :
    e = .recursionError ∨ e = .doesNotExist ∨ e = .dataError ∨ e = .integrityError := by
  by_contra hother
  induction levels generalizing rows pk with
  | zero =>
      obtain rfl := Except.error.inj h
      exact hother (Or.inl rfl)
  | succ levels ih =>
      refine loop_ne_error (I := fun _ => True) (fun _ _ _ _ _ _ => trivial) ?_ trivial h
      rintro ⟨c, child⟩ mid - - herror
      rcases except_bind_error_iff.mp herror with hsaved | ⟨saved, -, hrefresh⟩
      · exact hother (Or.inr (savePlace_error hsaved))
      · exact ih hrefresh

/-- The calls never go deeper than the parents do: with a rank below `bound` on them, as many
levels as the ranks above that of `pk` are enough. -/
theorem refresh_ne_recursionError {rules : TextRules} {levels : ℕ} {rows : Categories} {pk bound : ℕ}
    {rank : ℕ → ℕ} (hrank : ∀ k p, parentOf rows k = some p → rank p < rank k)
    (hbound : ∀ k, rank k ≤ bound) (hlevels : bound < levels + rank pk) :
    refreshDescendantPaths rules levels rows pk ≠ .error .recursionError := by
  induction levels generalizing rows pk with
  | zero =>
      have := hbound pk
      omega
  | succ levels ih =>
      have hturn : ∀ (c : ℕ × SupportCategory) mid after,
          c ∈ childrenOf rules rows pk → mid.map unplaced = rows.map unplaced →
          (do let mid ← savePlace mid c.1 c.2; refreshDescendantPaths rules levels mid c.1) = .ok after →
          after.map unplaced = rows.map unplaced := by
        intro c mid after _ hmid h
        obtain ⟨saved, hsaved, hrefresh⟩ := except_bind_ok_iff.mp h
        exact (unplaced_refresh hrefresh).trans ((unplaced_savePlace hsaved).trans hmid)
      refine loop_ne_error (I := fun mid => mid.map unplaced = rows.map unplaced) hturn ?_ rfl
      rintro ⟨c, child⟩ mid hchild hmid
      obtain ⟨hrow, hparent⟩ := mem_childrenOf.mp hchild
      intro herror
      rcases except_bind_error_iff.mp herror with hsaved | ⟨saved, hsaved, hrefresh⟩
      · rcases savePlace_error hsaved with h | h | h <;> cases h
      · have hparents := parentOf_congr ((unplaced_savePlace hsaved).trans hmid)
        refine ih (by rwa [hparents]) ?_ hrefresh
        have := hrank c pk ((parentOf_eq hrow).trans hparent)
        omega

end SetadJang.SupportDesk
