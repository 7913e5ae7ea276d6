import Mathlib.Data.List.Nodup
import Mathlib.Logic.Basic
import Mathlib.Algebra.BigOperators.Group.List.Basic
import Mathlib.Algebra.BigOperators.Intervals
import Mathlib.Algebra.GroupWithZero.Nat
import Mathlib.Data.List.Basic

/-!
# Tables without deletions

A table whose rows are never deleted is a list: the primary key of a row is its
position, an insert appends, an update rewrites one position.  `sumWhere` is the
conditional aggregate `SUM(f) FILTER (WHERE p)`; the lemmas say what an insert
and an update do to it.
-/

namespace SetadJang.Framework

variable {α : Type}

/-- `SUM(f) FILTER (WHERE p)` over a table. -/
def sumWhere (p : α → Bool) (f : α → ℕ) (rows : List α) : ℕ :=
  ((rows.filter p).map f).sum

@[simp] theorem sumWhere_nil (p : α → Bool) (f : α → ℕ) : sumWhere p f [] = 0 := rfl

theorem sumWhere_cons (p : α → Bool) (f : α → ℕ) (a : α) (rows : List α) :
    sumWhere p f (a :: rows) = (if p a then f a else 0) + sumWhere p f rows := by
  by_cases h : p a <;> simp [sumWhere, h]

theorem sum_map_ite (p : α → Bool) (f : α → ℕ) (rows : List α) :
    (rows.map fun a => if p a then f a else 0).sum = sumWhere p f rows := by
  induction rows with
  | nil => rfl
  | cons a rows ih => rw [List.map_cons, List.sum_cons, sumWhere_cons, ih]

/-- An insert adds the new row's share. -/
theorem sumWhere_append (p : α → Bool) (f : α → ℕ) (rows : List α) (a : α) :
    sumWhere p f (rows ++ [a]) = sumWhere p f rows + (if p a then f a else 0) := by
  by_cases h : p a <;> simp [sumWhere, List.filter_append, h]

/-- **Update balance.** Rewriting row `k` exchanges that row's share of the sum
and nothing else. -/
theorem sumWhere_modify (p : α → Bool) (f : α → ℕ) (g : α → α) :
    ∀ {rows : List α} {k : ℕ} {a : α}, rows[k]? = some a →
      sumWhere p f (rows.modify k g) + (if p a then f a else 0) =
        sumWhere p f rows + (if p (g a) then f (g a) else 0)
  | [], k, a, h => by simp at h
  | b :: rows, 0, a, h => by
      simp only [List.getElem?_cons_zero, Option.some.injEq] at h
      subst h
      simp only [List.modify_zero_cons, sumWhere_cons]
      omega
  | b :: rows, k + 1, a, h => by
      simp only [List.getElem?_cons_succ] at h
      have ih := sumWhere_modify p f g h
      simp only [List.modify_succ_cons, sumWhere_cons]
      omega

/-- An update that brings no row into the sum and leaves what is summed. -/
theorem sumWhere_modify_le {p : α → Bool} {f : α → ℕ} {g : α → α} {rows : List α} {k : ℕ}
    (hsame : ∀ a, f (g a) = f a) (hout : ∀ a ∈ rows[k]?, p (g a) = true → p a = true) :
    sumWhere p f (rows.modify k g) ≤ sumWhere p f rows := by
  cases ha : rows[k]? with
  | none => rw [List.modify_eq_self (List.getElem?_eq_none_iff.mp ha)]
  | some a =>
      have hbalance := sumWhere_modify p f g ha
      rw [hsame] at hbalance
      by_cases hafter : p (g a) = true
      · rw [if_pos hafter, if_pos (hout a ha hafter)] at hbalance
        omega
      · rw [if_neg hafter] at hbalance
        omega

/-- Rewriting one row changes a count exactly when it changes whether that row counts. -/
theorem countP_set_eq_iff {p : α → Bool} {rows : List α} {k : ℕ} {a b : α}
    (h : rows[k]? = some a) : (rows.set k b).countP p = rows.countP p ↔ p b = p a := by
  obtain ⟨hlt, rfl⟩ := List.getElem?_eq_some_iff.mp h
  rw [List.countP_set hlt]
  cases ha : p rows[k] with
  | false => cases hb : p b <;> simp
  | true =>
      have hpos : 0 < rows.countP p := List.countP_pos_iff.mpr ⟨_, List.getElem_mem hlt, ha⟩
      cases hb : p b
      · simp only [if_true, Bool.false_eq_true, if_false, iff_false]
        omega
      · simp only [if_true, iff_true]
        omega

/-- Rewriting one row changes a count exactly when it changes whether that row counts. -/
theorem countP_modify_eq_iff {p : α → Bool} {g : α → α} {rows : List α} {k : ℕ} {a : α}
    (h : rows[k]? = some a) : (rows.modify k g).countP p = rows.countP p ↔ p (g a) = p a := by
  have hset : rows.modify k g = rows.set k (g a) := by
    apply List.ext_getElem?
    intro j
    rw [List.getElem?_modify, List.getElem?_set]
    by_cases hj : k = j
    · subst hj
      rw [h, if_pos rfl, if_pos (List.getElem?_eq_some_iff.mp h).1]
      exact congrArg some (if_pos rfl)
    · simp [hj]
  rw [hset]
  exact countP_set_eq_iff h

/-- Rows that are combined with notes, counted by their notes. -/
theorem countP_zipWith_right {β γ : Type} {f : α → β → γ} {p : γ → Bool} {q : β → Bool}
    (h : ∀ a b, p (f a b) = q b) {rows : List α} {notes : List β}
    (hlength : rows.length = notes.length) :
    (List.zipWith f rows notes).countP p = notes.countP q := by
  induction rows generalizing notes with
  | nil =>
      obtain rfl := List.length_eq_zero_iff.mp hlength.symm
      rfl
  | cons a rows ih =>
      cases notes with
      | nil => simp at hlength
      | cons b notes =>
          rw [List.zipWith_cons_cons, List.countP_cons, List.countP_cons, h, ih (by simpa using hlength)]

/-- A filter that splits into two disjoint ones. -/
theorem sumWhere_disjoint {p q r : α → Bool} (hsplit : ∀ a, p a = (q a || r a))
    (hdisj : ∀ a, q a = true → r a = false) (f : α → ℕ) (rows : List α) :
    sumWhere p f rows = sumWhere q f rows + sumWhere r f rows := by
  induction rows with
  | nil => rfl
  | cons a rows ih =>
      rw [sumWhere_cons, sumWhere_cons, sumWhere_cons, ih, hsplit a]
      cases hq : q a with
      | true =>
          simp only [hdisj a hq, Bool.true_or, Bool.false_eq_true, if_true, if_false]
          omega
      | false =>
          simp only [Bool.false_or, Bool.false_eq_true, if_false]
          omega

/-- A filter no row passes. -/
theorem sumWhere_le_of_imp {p q : α → Bool} {rows : List α}
    (h : ∀ a ∈ rows, p a = true → q a = true) (f : α → ℕ) :
    sumWhere p f rows ≤ sumWhere q f rows := by
  induction rows with
  | nil => exact Nat.le_refl 0
  | cons a rows ih =>
      obtain ⟨ha, hrest⟩ := List.forall_mem_cons.mp h
      have hle := ih hrest
      rw [sumWhere_cons, sumWhere_cons]
      by_cases hp : p a = true
      · rw [if_pos hp, if_pos (ha hp)]
        omega
      · rw [if_neg hp]
        omega

theorem sumWhere_eq_zero {p : α → Bool} {rows : List α} (h : ∀ a ∈ rows, p a = false)
    (f : α → ℕ) : sumWhere p f rows = 0 := by
  have hnone : rows.filter p = [] := by
    rw [List.filter_eq_nil_iff]
    intro a ha
    simp [h a ha]
  rw [sumWhere, hnone, List.map_nil, List.sum_nil]

/-- The sum by position. -/
theorem sumWhere_range (p : α → Bool) (f : α → ℕ) (rows : List α) :
    sumWhere p f rows =
      ∑ k ∈ Finset.range rows.length, rows[k]?.elim 0 fun a => if p a then f a else 0 := by
  induction rows with
  | nil => rfl
  | cons a rows ih =>
      rw [sumWhere_cons, ih, List.length_cons, Finset.sum_range_succ', Nat.add_comm]
      rfl

/-- `GROUP BY`: a filter on a foreign key is the sum over the keys that pass. -/
theorem sumWhere_fiber {p : α → Bool} {key : α → ℕ} {n : ℕ} {rows : List α}
    (hkey : ∀ a ∈ rows, key a < n) (q : ℕ → Bool) (f : α → ℕ) :
    sumWhere (fun a => p a && q (key a)) f rows =
      ∑ k ∈ Finset.range n, if q k then sumWhere (fun a => p a && key a == k) f rows else 0 := by
  induction rows with
  | nil => simp
  | cons a rows ih =>
      have hrest := ih fun b hb => hkey b (List.mem_cons_of_mem _ hb)
      have hown : ∑ k ∈ Finset.range n, (if q k then if p a && key a == k then f a else 0 else 0) =
          if p a && q (key a) then f a else 0 := by
        rw [Finset.sum_eq_single (key a)]
        · cases p a <;> cases q (key a) <;> simp
        · intro k _ hk
          have hne : (key a == k) = false := by simpa using fun h => hk h.symm
          simp [hne]
        · intro hout
          exact absurd (Finset.mem_range.mpr (hkey a List.mem_cons_self)) hout
      rw [sumWhere_cons, hrest, ← hown, ← Finset.sum_add_distrib]
      apply Finset.sum_congr rfl
      intro k _
      rw [sumWhere_cons]
      split_ifs <;> rfl

/-- A unique key selects one row. -/
theorem sumWhere_unique {p : α → Bool} {key : α → ℕ} {rows : List α}
    (hnodup : (rows.map key).Nodup) {a : α} (ha : a ∈ rows) (hp : p a = true) (f : α → ℕ) :
    sumWhere (fun b => p b && key b == key a) f rows = f a := by
  induction rows with
  | nil => simp at ha
  | cons b rows ih =>
      rw [List.map_cons, List.nodup_cons] at hnodup
      rw [sumWhere_cons]
      rcases List.mem_cons.mp ha with rfl | hmem
      · rw [sumWhere_eq_zero]
        · simp [hp]
        · intro c hc
          have hne : key c ≠ key a := by
            intro heq
            exact hnodup.1 (heq ▸ List.mem_map_of_mem hc)
          simp [hne]
      · have hne : key b ≠ key a := by
          intro heq
          exact hnodup.1 (heq ▸ List.mem_map_of_mem hmem)
        rw [ih hnodup.2 hmem]
        simp [hne]

/-- An insert the filter does not see. -/
theorem filter_append_out {p : α → Bool} {rows : List α} {a : α} (h : p a = false) :
    (rows ++ [a]).filter p = rows.filter p := by
  simp [List.filter_append, h]

/-- An update of a row the filter sees neither before nor after. -/
theorem filter_modify_out {p : α → Bool} {f : α → α} :
    ∀ {rows : List α} {k : ℕ}, (∀ a, rows[k]? = some a → p a = false ∧ p (f a) = false) →
      (rows.modify k f).filter p = rows.filter p
  | [], k, _ => by simp
  | b :: rows, 0, h => by
      obtain ⟨hb, hfb⟩ := h b (by simp)
      simp [hb, hfb]
  | b :: rows, k + 1, h => by
      simp only [List.modify_succ_cons, List.filter_cons,
        filter_modify_out fun a ha => h a (by simpa using ha)]

/-! ## Unique keys -/

/-- Two rows with one key are one row. -/
def UniqueBy {κ : Type} (key : α → κ) (rows : List α) : Prop :=
  ∀ x ∈ rows, ∀ y ∈ rows, key x = key y → x = y

/-- An update that leaves the keys alone keeps them unique. -/
theorem uniqueBy_map {κ : Type} {key : α → κ} {rows : List α} {f : α → α}
    (hkey : ∀ x, key (f x) = key x) (h : UniqueBy key rows) : UniqueBy key (rows.map f) := by
  unfold UniqueBy
  simp only [List.mem_map]
  rintro - ⟨x, hx, rfl⟩ - ⟨y, hy, rfl⟩ heq
  rw [hkey, hkey] at heq
  rw [h x hx y hy heq]

/-- An insert under a new key. -/
theorem uniqueBy_append {κ : Type} {key : α → κ} {rows : List α} {a : α}
    (hnew : ∀ x ∈ rows, key x ≠ key a) (h : UniqueBy key rows) :
    UniqueBy key (rows ++ [a]) := by
  intro x hx y hy heq
  rcases List.mem_append.mp hx with hx | hx <;> rcases List.mem_append.mp hy with hy | hy
  · exact h x hx y hy heq
  · rw [List.mem_singleton.mp hy] at heq
    exact absurd heq (hnew x hx)
  · rw [List.mem_singleton.mp hx] at heq
    exact absurd heq.symm (hnew y hy)
  · rw [List.mem_singleton.mp hx, List.mem_singleton.mp hy]

theorem uniqueBy_of_nodup {κ : Type} {key : α → κ} {rows : List α}
    (h : (rows.map key).Nodup) : UniqueBy key rows :=
  fun _ hx _ hy heq => List.inj_on_of_nodup_map h hx hy heq

/-- A lookup by a unique key finds the row with that key. -/
theorem UniqueBy.find?_eq_some_iff {κ : Type} [DecidableEq κ] {key : α → κ} {rows : List α}
    (h : UniqueBy key rows) {k : κ} {a : α} :
    rows.find? (fun b => key b == k) = some a ↔ a ∈ rows ∧ key a = k := by
  constructor
  · intro hfind
    exact ⟨List.mem_of_find?_eq_some hfind, by simpa using List.find?_some hfind⟩
  · rintro ⟨ha, rfl⟩
    cases hfind : rows.find? (fun b => key b == key a) with
    | none => exact absurd (List.find?_eq_none.mp hfind a ha) (by simp)
    | some b =>
        have hb := List.mem_of_find?_eq_some hfind
        have hkey : key b = key a := by simpa using List.find?_some hfind
        rw [h b hb a ha hkey]

/-- An update that leaves the keys alone does not change what a lookup finds. -/
theorem find?_map_key {κ : Type} [DecidableEq κ] {key : α → κ} {f : α → α}
    (hkey : ∀ a, key (f a) = key a) (rows : List α) (k : κ) :
    (rows.map f).find? (fun b => key b == k) = (rows.find? fun b => key b == k).map f := by
  rw [List.find?_map]
  congr 2
  funext a
  rw [Function.comp_apply, hkey]

/-! ## Rows after a write -/

/-- Lists of the same elements are equal when a column without duplicates agrees. -/
theorem eq_of_map_eq {β : Type} {f : α → β} {xs ys : List α} (hunique : (ys.map f).Nodup)
    (hmem : ∀ x ∈ xs, x ∈ ys) (hmap : xs.map f = ys.map f) : xs = ys := by
  refine List.ext_getElem (by simpa using congrArg List.length hmap) fun i hi hi' => ?_
  refine List.inj_on_of_nodup_map hunique (hmem _ (List.getElem_mem hi)) (List.getElem_mem hi') ?_
  have hget := congrArg (fun zs => zs[i]?) hmap
  simpa [hi, hi'] using hget

/-- Tables that agree on some columns, row by row. -/
theorem exists_row_of_map_eq {β : Type} {g : α → β} {rows rows' : List α}
    (h : rows'.map g = rows.map g) {k : ℕ} {row' : α} (hrow : rows'[k]? = some row') :
    ∃ row, rows[k]? = some row ∧ g row' = g row := by
  have hget := congrArg (fun table => table[k]?) h
  simp only [List.getElem?_map, hrow, Option.map_some] at hget
  obtain ⟨row, hk, hsame⟩ := Option.map_eq_some_iff.mp hget.symm
  exact ⟨row, hk, hsame.symm⟩

/-- A list around one of its elements. -/
theorem split_of_getElem? {xs : List α} {k : ℕ} {a : α} (h : xs[k]? = some a) :
    ∃ before after, xs = before ++ a :: after ∧ before.length = k := by
  obtain ⟨hk, rfl⟩ := List.getElem?_eq_some_iff.mp h
  exact ⟨xs.take k, xs.drop (k + 1), by simp, by simp; omega⟩

/-- A row after an update: the one that was rewritten, or one of the others. -/
theorem getElem?_modify_cases {f : α → α} {xs : List α} {k j : ℕ} {b : α}
    (h : (xs.modify k f)[j]? = some b) :
    (k = j ∧ ∃ a, xs[k]? = some a ∧ f a = b) ∨ (k ≠ j ∧ xs[j]? = some b) := by
  by_cases hkj : k = j
  · subst hkj
    left
    simpa using h
  · rw [List.getElem?_modify_ne _ _ hkj] at h
    exact Or.inr ⟨hkj, h⟩

theorem getElem?_set_cases {xs : List α} {k j : ℕ} {a b : α} (h : (xs.set k a)[j]? = some b) :
    (k = j ∧ a = b) ∨ (k ≠ j ∧ xs[j]? = some b) := by
  by_cases hkj : k = j
  · subst hkj
    left
    obtain ⟨hlt, hget⟩ := List.getElem?_eq_some_iff.mp h
    rw [List.getElem_set_self] at hget
    exact ⟨rfl, hget⟩
  · rw [List.getElem?_set_ne hkj] at h
    exact Or.inr ⟨hkj, h⟩

/-- A row after an insert: an old one, or the new one under the next key. -/
theorem getElem?_concat_cases {xs : List α} {a b : α} {j : ℕ} (h : (xs ++ [a])[j]? = some b) :
    xs[j]? = some b ∨ (j = xs.length ∧ a = b) := by
  rcases Nat.lt_trichotomy j xs.length with hlt | rfl | hgt
  · rw [List.getElem?_append_left hlt] at h
    exact Or.inl h
  · right
    simpa using h
  · rw [List.getElem?_eq_none (by simp; omega)] at h
    cases h

/-! ## One row of a kind under each key -/

/-- At most one row under each key is of the kind `p`. -/
def OnePer {κ : Type} (p : α → Prop) (key : α → κ) (rows : List α) : Prop :=
  ∀ (i j : ℕ) (a b : α), rows[i]? = some a → rows[j]? = some b → p a → p b → key a = key b → i = j

section OnePer

variable {κ : Type} {p : α → Prop} {key : α → κ} {rows : List α}

theorem onePer_nil : OnePer p key ([] : List α) := by
  intro i j a b hi
  simp at hi

/-- An insert of the kind needs a key under which there is none. -/
theorem onePer_append {new : α} (hnew : p new) (h : OnePer p key rows) :
    OnePer p key (rows ++ [new]) ↔ ∀ a ∈ rows, p a → key a ≠ key new := by
  constructor
  · intro hone a ha hpa hkey
    obtain ⟨i, hi⟩ := List.getElem?_of_mem ha
    have hlt : i < rows.length := (List.getElem?_eq_some_iff.mp hi).1
    have hlast : (rows ++ [new])[rows.length]? = some new := by simp
    have heq := hone i rows.length a new (by rw [List.getElem?_append_left hlt, hi]) hlast hpa hnew
      hkey
    omega
  · intro hfree i j a b hi hj hpa hpb hkey
    rcases getElem?_concat_cases hi with hi | ⟨rfl, rfl⟩
    · rcases getElem?_concat_cases hj with hj | ⟨rfl, rfl⟩
      · exact h i j a b hi hj hpa hpb hkey
      · exact absurd hkey (hfree a (List.mem_of_getElem? hi) hpa)
    · rcases getElem?_concat_cases hj with hj | ⟨rfl, -⟩
      · exact absurd hkey.symm (hfree b (List.mem_of_getElem? hj) hpb)
      · rfl

/-- An insert of another kind. -/
theorem onePer_append_out {new : α} (hnew : ¬ p new) (h : OnePer p key rows) :
    OnePer p key (rows ++ [new]) := by
  intro i j a b hi hj hpa hpb hkey
  rcases getElem?_concat_cases hi with hi | ⟨-, rfl⟩
  · rcases getElem?_concat_cases hj with hj | ⟨-, rfl⟩
    · exact h i j a b hi hj hpa hpb hkey
    · exact absurd hpb hnew
  · exact absurd hpa hnew

/-- An update that keeps the key and makes no row one of the kind. -/
theorem onePer_modify {f : α → α} {k : ℕ} (hkey : ∀ a, key (f a) = key a)
    (hf : ∀ a, rows[k]? = some a → p (f a) → p a) (h : OnePer p key rows) :
    OnePer p key (rows.modify k f) := by
  have hback : ∀ {i : ℕ} {b : α}, (rows.modify k f)[i]? = some b → p b →
      ∃ a, rows[i]? = some a ∧ p a ∧ key a = key b := by
    intro i b hb hpb
    rcases getElem?_modify_cases hb with ⟨rfl, a, ha, rfl⟩ | ⟨-, hold⟩
    · exact ⟨a, ha, hf a ha hpb, (hkey a).symm⟩
    · exact ⟨b, hold, hpb, rfl⟩
  intro i j a b hi hj hpa hpb heq
  obtain ⟨a₀, ha₀, hpa₀, hkeya⟩ := hback hi hpa
  obtain ⟨b₀, hb₀, hpb₀, hkeyb⟩ := hback hj hpb
  exact h i j a₀ b₀ ha₀ hb₀ hpa₀ hpb₀ (by rw [hkeya, hkeyb, heq])

/-- An overwritten row of the kind needs a key under which there is no other. -/
theorem onePer_set {new : α} {i : ℕ} (h : OnePer p key rows)
    (hnew : p new → ∀ (j : ℕ) (a : α), rows[j]? = some a → p a → key a = key new → j = i) :
    OnePer p key (rows.set i new) := by
  have hcases : ∀ {j : ℕ} {a : α}, (rows.set i new)[j]? = some a →
      (i = j ∧ new = a) ∨ (i ≠ j ∧ rows[j]? = some a) := by
    intro j a hj
    rw [List.getElem?_set] at hj
    split_ifs at hj with hij hlt
    · exact Or.inl ⟨hij, Option.some.inj hj⟩
    · exact Or.inr ⟨hij, hj⟩
  intro j k a b hj hk hpa hpb hkey
  rcases hcases hj with ⟨rfl, rfl⟩ | ⟨-, hj⟩ <;> rcases hcases hk with ⟨rfl, rfl⟩ | ⟨-, hk⟩
  · rfl
  · exact (hnew hpa k b hk hpb hkey.symm).symm
  · exact hnew hpb j a hj hpa hkey
  · exact h j k a b hj hk hpa hpb hkey

end OnePer

/-! ## Rows that evolve

`Evolves R xs ys`: every row of `xs` is still there in `ys`, under the same key
and changed only along `R`. -/

def Evolves (R : α → α → Prop) (xs ys : List α) : Prop :=
  ∀ (k : ℕ) (a : α), xs[k]? = some a → ∃ b, ys[k]? = some b ∧ R a b

section Evolves

variable {R : α → α → Prop}

theorem evolves_refl (hR : ∀ a, R a a) (xs : List α) : Evolves R xs xs :=
  fun _ a h => ⟨a, h, hR a⟩

theorem evolves_append (hR : ∀ a, R a a) (xs : List α) (b : α) : Evolves R xs (xs ++ [b]) := by
  intro k a h
  have hk : k < xs.length := (List.getElem?_eq_some_iff.mp h).1
  exact ⟨a, by rw [List.getElem?_append_left hk, h], hR a⟩

theorem evolves_modify (hR : ∀ a, R a a) {f : α → α} {xs : List α} {k : ℕ}
    (hf : ∀ a, xs[k]? = some a → R a (f a)) : Evolves R xs (xs.modify k f) := by
  intro j a h
  by_cases hkj : k = j
  · subst hkj
    exact ⟨f a, by simp [h], hf a h⟩
  · exact ⟨a, by rw [List.getElem?_modify_ne _ _ hkj, h], hR a⟩

theorem Evolves.trans (hR : ∀ a b c, R a b → R b c → R a c) {xs ys zs : List α}
    (hxy : Evolves R xs ys) (hyz : Evolves R ys zs) : Evolves R xs zs := by
  intro k a ha
  obtain ⟨b, hb, hab⟩ := hxy k a ha
  obtain ⟨c, hc, hbc⟩ := hyz k b hb
  exact ⟨c, hc, hR a b c hab hbc⟩

end Evolves

/-- A column that an update does not write. -/
theorem map_modify_same {β : Type} {g : α → β} {f : α → α} (h : ∀ a, g (f a) = g a) :
    ∀ (xs : List α) (k : ℕ), (xs.modify k f).map g = xs.map g
  | [], k => by simp
  | a :: xs, 0 => by simp [h]
  | a :: xs, k + 1 => by simp [map_modify_same h xs k]

/-! ## Slots

A list whose entries own keys (`f`) and are overwritten one at a time. -/

/-- An entry that is overwritten gives its keys for the new ones; those of the others stay. -/
theorem flatMap_set_perm {β : Type} (f : α → List β) {xs : List α} {i : ℕ} {a : α}
    (h : xs[i]? = some a) :
    ∃ others, (xs.flatMap f).Perm (f a ++ others) ∧
      ∀ b, ((xs.set i b).flatMap f).Perm (f b ++ others) := by
  obtain ⟨before, after, rfl, rfl⟩ := split_of_getElem? h
  have hperm : ∀ b, ((before ++ b :: after).flatMap f).Perm
      (f b ++ (before.flatMap f ++ after.flatMap f)) := by
    intro b
    rw [List.flatMap_append, List.flatMap_cons, ← List.append_assoc, ← List.append_assoc]
    exact List.perm_append_comm.append_right _
  refine ⟨before.flatMap f ++ after.flatMap f, hperm a, fun b => ?_⟩
  rw [List.set_append_right _ _ (Nat.le_refl _), Nat.sub_self, List.set_cons_zero]
  exact hperm b

section Slots

variable {β : Type} {f : α → Option β}

/-- The new entry owns what the old one owned. -/
theorem filterMap_set_same {a b : α} :
    ∀ {xs : List α} {i : ℕ}, xs[i]? = some a → f b = f a →
      (xs.set i b).filterMap f = xs.filterMap f
  | [], i, h, _ => by simp at h
  | x :: xs, 0, h, hf => by
      obtain rfl : x = a := by simpa using h
      simp [List.filterMap_cons, hf]
  | x :: xs, i + 1, h, hf => by
      have hi : xs[i]? = some a := by simpa using h
      simp only [List.set_cons_succ, List.filterMap_cons, filterMap_set_same hi hf]

/-- The new entry gives up what the old one owned. -/
theorem filterMap_set_none {a b : α} {k : β} (ha : f a = some k) (hb : f b = none) :
    ∀ {xs : List α} {i : ℕ}, xs[i]? = some a → (xs.filterMap f).Nodup →
      ((xs.set i b).filterMap f).Nodup ∧
        ∀ j ∈ (xs.set i b).filterMap f, j ∈ xs.filterMap f ∧ j ≠ k
  | [], i, h, _ => by simp at h
  | x :: xs, 0, h, hnd => by
      obtain rfl : x = a := by simpa using h
      simp only [List.filterMap_cons, ha, List.nodup_cons] at hnd
      simp only [List.set_cons_zero, List.filterMap_cons, ha, hb]
      refine ⟨hnd.2, fun j hj => ⟨List.mem_cons_of_mem _ hj, ?_⟩⟩
      rintro rfl
      exact hnd.1 hj
  | x :: xs, i + 1, h, hnd => by
      have hi : xs[i]? = some a := by simpa using h
      have hk : k ∈ xs.filterMap f := List.mem_filterMap.mpr ⟨a, List.mem_of_getElem? hi, ha⟩
      cases hx : f x with
      | none =>
          simp only [List.filterMap_cons, hx] at hnd
          simp only [List.set_cons_succ, List.filterMap_cons, hx]
          exact filterMap_set_none ha hb hi hnd
      | some y =>
          simp only [List.filterMap_cons, hx, List.nodup_cons] at hnd
          obtain ⟨hnd', hsub⟩ := filterMap_set_none ha hb hi hnd.2
          simp only [List.set_cons_succ, List.filterMap_cons, hx, List.nodup_cons]
          refine ⟨⟨fun hy => hnd.1 (hsub y hy).1, hnd'⟩, ?_⟩
          intro j hj
          rcases List.mem_cons.mp hj with rfl | hj
          · refine ⟨List.mem_cons_self, ?_⟩
            rintro rfl
            exact hnd.1 hk
          · exact ⟨List.mem_cons_of_mem _ (hsub j hj).1, (hsub j hj).2⟩

end Slots

end SetadJang.Framework
