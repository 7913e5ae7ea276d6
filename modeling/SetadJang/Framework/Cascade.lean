import SetadJang.Framework.Rows

/-!
# Writes by condition

The writes of SQL on a table whose rows carry their key: an update of the rows that meet a
condition, and a delete that takes along the rows below by a cascading parent key, which are
collected level by level.  `cascade_closed` says that enough levels leave no child behind;
`cascade_induction` that nothing else is taken.
-/

namespace SetadJang.Framework

variable {α : Type}

/-! ## Updates -/

/-- `UPDATE … WHERE p`. -/
def updateWhere (p : α → Bool) (f : α → α) (rows : List α) : List α :=
  rows.map fun row => if p row then f row else row

section update

variable {p : α → Bool} {f : α → α} {rows : List α}

theorem mem_updateWhere {row : α} :
    row ∈ updateWhere p f rows ↔ ∃ old ∈ rows, (if p old then f old else old) = row := List.mem_map

theorem updateWhere_column {β : Type} {g : α → β} (h : ∀ row, g (f row) = g row) (row : α) :
    g (if p row then f row else row) = g row := by
  split
  · exact h row
  · rfl

/-- An update that changes for no row whether it counts. -/
theorem countP_updateWhere {q : α → Bool}
    (h : ∀ row ∈ rows, p row = true → q (f row) = q row) :
    (updateWhere p f rows).countP q = rows.countP q := by
  rw [updateWhere, List.countP_map]
  apply List.countP_congr
  intro row hrow
  show q (if p row then f row else row) = true ↔ _
  split
  · rename_i hp
    rw [h row hrow hp]
  · exact Iff.rfl

theorem countP_lt_of_imp {q r : α → Bool} (himp : ∀ row ∈ rows, q row = true → r row = true)
    {a : α} (ha : a ∈ rows) (hr : r a = true) (hq : q a = false) :
    rows.countP q < rows.countP r := by
  induction rows with
  | nil => cases ha
  | cons b rows ih =>
      have hrest : ∀ row ∈ rows, q row = true → r row = true := fun row hrow =>
        himp row (List.mem_cons_of_mem b hrow)
      have hle := List.countP_mono_left hrest
      rw [List.countP_cons, List.countP_cons]
      rcases List.mem_cons.mp ha with rfl | hmem
      · rw [hr, hq]
        simp only [if_true, Bool.false_eq_true, if_false]
        omega
      · have hlt := ih hrest hmem
        cases hb : q b with
        | false =>
            simp only [Bool.false_eq_true, if_false]
            omega
        | true =>
            rw [himp b List.mem_cons_self hb]
            simp only [if_true]
            omega

/-- **Update by key.** It changes a count exactly when it changes whether that row counts. -/
theorem countP_updateKey_eq_iff {κ : Type} [DecidableEq κ] (key : α → κ) {q : α → Bool} {a : α}
    (hunique : UniqueBy key rows) (ha : a ∈ rows) :
    (updateWhere (fun row => key row == key a) f rows).countP q = rows.countP q ↔ q (f a) = q a := by
  have hkey : ∀ row ∈ rows, (key row == key a) = true → row = a := fun row hrow hrowkey =>
    hunique row hrow a ha (beq_iff_eq.mp hrowkey)
  constructor
  · intro hcount
    by_contra hne
    rw [updateWhere, List.countP_map] at hcount
    have hother : ∀ row ∈ rows, row ≠ a →
        (q ∘ fun row => if key row == key a then f row else row) row = q row := by
      intro row hrow hrowa
      show q (if key row == key a then f row else row) = _
      rw [if_neg fun hsame => hrowa (hkey row hrow hsame)]
    have hself : (q ∘ fun row => if key row == key a then f row else row) a = q (f a) := by
      show q (if key a == key a then f a else a) = _
      rw [beq_self_eq_true, if_pos rfl]
    have hbelow : ∀ {q r : α → Bool}, (∀ row ∈ rows, row ≠ a → q row = r row) → r a = true →
        ∀ row ∈ rows, q row = true → r row = true := by
      intro q r hsame hr row hrow hq
      by_cases hrowa : row = a
      · rw [hrowa, hr]
      · rw [← hsame row hrow hrowa, hq]
    cases hqa : q a with
    | true =>
        have hfalse : q (f a) = false := by
          rw [hqa] at hne
          exact Bool.eq_false_iff.mpr hne
        exact (countP_lt_of_imp (hbelow hother hqa) ha hqa (hself.trans hfalse)).ne hcount
    | false =>
        have htrue : q (f a) = true := by
          rw [hqa] at hne
          exact Bool.eq_true_of_not_eq_false hne
        refine (countP_lt_of_imp (hbelow (fun row hrow hrowa => (hother row hrow hrowa).symm) ?_) ha
          (hself.trans htrue) hqa).ne' hcount
        exact hself.trans htrue
  · intro hsame
    apply countP_updateWhere
    intro row hrow hrowkey
    rw [hkey row hrow hrowkey, hsame]

end update

/-! ## Cascading deletes -/

section cascade

variable {key : α → ℕ} {parent : α → Option ℕ} {rows : List α}

/-- The rows right below the keys. -/
def childrenOf (key : α → ℕ) (parent : α → Option ℕ) (rows : List α) (front : List ℕ) : List ℕ :=
  (rows.filter fun row => (parent row).any front.contains).map key

/-- The keys a delete collects, so many levels down. -/
def cascade (key : α → ℕ) (parent : α → Option ℕ) (rows : List α) : ℕ → List ℕ → List ℕ
  | 0, front => front
  | levels + 1, front => front ++ cascade key parent rows levels (childrenOf key parent rows front)

theorem mem_childrenOf {front : List ℕ} {k : ℕ} :
    k ∈ childrenOf key parent rows front ↔
      ∃ row ∈ rows, (∃ p ∈ front, parent row = some p) ∧ key row = k := by
  rw [childrenOf, List.mem_map]
  constructor
  · rintro ⟨row, hrow, rfl⟩
    obtain ⟨hmem, hparent⟩ := List.mem_filter.mp hrow
    obtain ⟨p, hp, hfront⟩ := (Option.any_eq_true _ _).mp hparent
    exact ⟨row, hmem, ⟨p, List.contains_iff_mem.mp hfront, hp⟩, rfl⟩
  · rintro ⟨row, hmem, ⟨p, hfront, hp⟩, rfl⟩
    refine ⟨row, List.mem_filter.mpr ⟨hmem, ?_⟩, rfl⟩
    exact (Option.any_eq_true _ _).mpr ⟨p, hp, List.contains_iff_mem.mpr hfront⟩

theorem front_subset_cascade (levels : ℕ) (front : List ℕ) :
    ∀ k ∈ front, k ∈ cascade key parent rows levels front := by
  intro k hk
  cases levels with
  | zero => exact hk
  | succ levels => exact List.mem_append_left _ hk

/-- **Cascade rule.** A property of the front that goes from parents to children holds of
everything that is collected. -/
theorem cascade_induction {P : ℕ → Prop}
    (hchild : ∀ row ∈ rows, ∀ p, parent row = some p → P p → P (key row)) {levels : ℕ}
    {front : List ℕ} (hfront : ∀ k ∈ front, P k) :
    ∀ k ∈ cascade key parent rows levels front, P k := by
  induction levels generalizing front with
  | zero => exact hfront
  | succ levels ih =>
      intro k hk
      rcases List.mem_append.mp hk with hk | hk
      · exact hfront k hk
      · refine ih ?_ k hk
        intro j hj
        obtain ⟨row, hrow, ⟨p, hp, hparent⟩, rfl⟩ := mem_childrenOf.mp hj
        exact hchild row hrow p hparent (hfront p hp)

/-- Where no chain below the front is longer than the levels, no child is left behind. -/
theorem cascade_closed (height : ℕ → ℕ)
    (hheight : ∀ row ∈ rows, ∀ p, parent row = some p → height (key row) < height p) {levels : ℕ}
    {front : List ℕ} (hfront : ∀ k ∈ front, height k ≤ levels) :
    ∀ row ∈ rows, ∀ p ∈ cascade key parent rows levels front, parent row = some p →
      key row ∈ cascade key parent rows levels front := by
  induction levels generalizing front with
  | zero =>
      intro row hrow p hp hparent
      have hlow := hfront p hp
      have hlt := hheight row hrow p hparent
      omega
  | succ levels ih =>
      intro row hrow p hp hparent
      apply List.mem_append_right
      rcases List.mem_append.mp hp with hp | hp
      · apply front_subset_cascade
        exact mem_childrenOf.mpr ⟨row, hrow, ⟨p, hp, hparent⟩, rfl⟩
      · refine ih ?_ row hrow p hp hparent
        intro k hk
        obtain ⟨child, hchild, ⟨q, hq, hqparent⟩, rfl⟩ := mem_childrenOf.mp hk
        have hlt := hheight child hchild q hqparent
        have hle := hfront q hq
        omega

end cascade

end SetadJang.Framework
