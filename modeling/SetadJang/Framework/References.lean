import Mathlib.Logic.Function.Basic
import Mathlib.Order.Basic

/-!
# References between tables

A column of a table is a function from keys to values, `none` where there is no row, so that
writing a row updates a function.  `Sheltered` says that the live rows of one table refer to no
retired row of another: deleting by a flag needs such a guard where a foreign key would need
none.  The write rules say which writes keep it, exactly.
-/

namespace SetadJang.Framework

/-! ## Columns -/

section columns

variable {α β : Type}

/-- One column of a table. -/
def columnOf (f : α → β) (rows : List α) (k : ℕ) : Option β := rows[k]?.map f

variable {f : α → β} {rows : List α} {k : ℕ}

theorem columnOf_eq {row : α} (h : rows[k]? = some row) : columnOf f rows k = some (f row) := by
  rw [columnOf, h]
  rfl

theorem columnOf_eq_some_iff {b : β} :
    columnOf f rows k = some b ↔ ∃ row, rows[k]? = some row ∧ f row = b := Option.map_eq_some_iff

/-- Writing a row writes its columns. -/
theorem columnOf_set (h : k < rows.length) (row : α) :
    columnOf f (rows.set k row) = Function.update (columnOf f rows) k (some (f row)) := by
  funext j
  by_cases hj : j = k
  · subst hj
    rw [Function.update_self, columnOf_eq (List.getElem?_set_self h)]
  · rw [Function.update_of_ne hj, columnOf, List.getElem?_set_ne (Ne.symm hj)]
    rfl

theorem columnOf_modify {g : α → α} {row : α} (h : rows[k]? = some row) :
    columnOf f (rows.modify k g) = Function.update (columnOf f rows) k (some (f (g row))) := by
  funext j
  by_cases hj : j = k
  · subst hj
    rw [Function.update_self, columnOf, List.getElem?_modify, h]
    simp
  · rw [Function.update_of_ne hj, columnOf, columnOf, List.getElem?_modify]
    simp [Ne.symm hj]

/-- An insert writes at the next key. -/
theorem columnOf_concat (rows : List α) (row : α) :
    columnOf f (rows ++ [row]) = Function.update (columnOf f rows) rows.length (some (f row)) := by
  funext j
  by_cases hj : j = rows.length
  · subst hj
    rw [Function.update_self, columnOf_eq List.getElem?_concat_length]
  · rw [Function.update_of_ne hj, columnOf, columnOf]
    rcases Nat.lt_or_gt_of_ne hj with hlt | hgt
    · rw [List.getElem?_append_left hlt]
    · rw [List.getElem?_eq_none (Nat.le_of_lt hgt), List.getElem?_eq_none (by simp; omega)]

/-- A column that a rewriting of the rows leaves alone. -/
theorem columnOf_congr {g : α → α} {rows' : List α} (hg : ∀ row, f (g row) = f row)
    (h : rows'.map g = rows.map g) : columnOf f rows' = columnOf f rows := by
  have hcolumn : ∀ table : List α, columnOf f table = fun j => (table.map g)[j]?.map f := by
    intro table
    funext j
    rw [List.getElem?_map, Option.map_map, columnOf]
    congr 1
    funext row
    exact (hg row).symm
  rw [hcolumn, hcolumn, h]

end columns

/-! ## Sheltered references -/

variable {ι κ : Type}

/-- No live row refers to a retired one. -/
def Sheltered (live : ι → Option Bool) (target : ι → Option κ) (active : κ → Option Bool) : Prop :=
  ∀ i p, live i = some true → target i = some p → active p ≠ some false

section sheltered

variable {live : ι → Option Bool} {target : ι → Option κ} {active : κ → Option Bool}

/-- **Reference rule.** Writing the row of a reference keeps the guard exactly when the row,
if it is live now, refers to no retired row. -/
theorem sheltered_update_source [DecidableEq ι] (h : Sheltered live target active) (i : ι) (l : Bool)
    (t : Option κ) :
    Sheltered (Function.update live i (some l)) (Function.update target i t) active ↔
      (l = true → ∀ p, t = some p → active p ≠ some false) := by
  constructor
  · rintro hafter rfl p rfl
    exact hafter i p (Function.update_self ..) (Function.update_self ..)
  · intro hi j p hj hp
    by_cases hji : j = i
    · subst hji
      rw [Function.update_self] at hj hp
      exact hi (Option.some.inj hj) p hp
    · rw [Function.update_of_ne hji] at hj hp
      exact h j p hj hp

/-- **Target rule.** Writing the flag of a row keeps the guard exactly when no live row refers
to it, if it is retired now. -/
theorem sheltered_update_target [DecidableEq κ] (h : Sheltered live target active) (k : κ) (a : Bool) :
    Sheltered live target (Function.update active k (some a)) ↔
      (a = false → ∀ i, live i = some true → target i ≠ some k) := by
  constructor
  · rintro hafter rfl i hi hk
    exact hafter i k hi hk (Function.update_self ..)
  · intro hk i p hi hp
    by_cases hpk : p = k
    · subst hpk
      rw [Function.update_self]
      rintro ⟨⟩
      exact hk rfl i hi hp
    · rw [Function.update_of_ne hpk]
      exact h i p hi hp

/-- **Tree rule.** The rows of a table that refer to each other: both rules at once, for a row
that does not refer to itself while it is live. -/
theorem sheltered_update_self [DecidableEq κ] {parent : κ → Option κ}
    (h : Sheltered active parent active) (k : κ) (a : Bool) {q : Option κ}
    (hq : a = true → q ≠ some k) :
    Sheltered (Function.update active k (some a)) (Function.update parent k q)
        (Function.update active k (some a)) ↔
      (a = true → ∀ p, q = some p → active p ≠ some false) ∧
        (a = false → ∀ i, i ≠ k → active i = some true → parent i ≠ some k) := by
  constructor
  · intro hafter
    constructor
    · rintro rfl p rfl
      have hpk : p ≠ k := fun hpk => hq rfl (by rw [hpk])
      have hp := hafter k p (Function.update_self ..) (Function.update_self ..)
      rwa [Function.update_of_ne hpk] at hp
    · rintro rfl i hik hi hk
      refine hafter i k ?_ ?_ (Function.update_self ..)
      · rw [Function.update_of_ne hik, hi]
      · rw [Function.update_of_ne hik, hk]
  · rintro ⟨hup, hdown⟩ i p hi hp
    by_cases hik : i = k
    · subst hik
      rw [Function.update_self] at hi hp
      have ha := Option.some.inj hi
      have hpi : p ≠ i := fun hpi => hq ha (by rw [hp, hpi])
      rw [Function.update_of_ne hpi]
      exact hup ha p hp
    · rw [Function.update_of_ne hik] at hi hp
      by_cases hpk : p = k
      · subst hpk
        rw [Function.update_self]
        rintro ⟨⟩
        exact hdown rfl i hik hi hp
      · rw [Function.update_of_ne hpk]
        exact h i p hi hp

section rows

variable {α : Type} {liveRow : α → Bool} {r : α → Option κ} {rows : List α}
  {target : ℕ → Option κ}

/-- The rows that refer to a key; `r` is what a row refers to. -/
theorem not_referred_iff (htarget : ∀ (i : ℕ) row, rows[i]? = some row → target i = r row) {k : κ} :
    (∀ i, columnOf liveRow rows i = some true → target i ≠ some k) ↔
      ∀ row ∈ rows, liveRow row = true → r row ≠ some k := by
  constructor
  · intro h row hrow hlive
    obtain ⟨i, hi⟩ := List.mem_iff_getElem?.mp hrow
    rw [← htarget i row hi]
    exact h i (by rw [columnOf_eq hi, hlive])
  · intro h i hi
    obtain ⟨row, hrow, hlive⟩ := columnOf_eq_some_iff.mp hi
    rw [htarget i row hrow]
    exact h row (List.mem_of_getElem? hrow) hlive

theorem sheltered_rows_iff (htarget : ∀ (i : ℕ) row, rows[i]? = some row → target i = r row) :
    Sheltered (columnOf liveRow rows) target active ↔
      ∀ k, active k = some false → ∀ row ∈ rows, liveRow row = true → r row ≠ some k := by
  constructor
  · intro h k hk
    exact (not_referred_iff htarget).mp fun i hi href => h i k hi href hk
  · intro h i p hi hp hretired
    exact (not_referred_iff htarget).mpr (h p hretired) i hi hp

end rows

end sheltered

end SetadJang.Framework
