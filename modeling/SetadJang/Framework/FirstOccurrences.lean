import Mathlib.Data.List.Induction
import Mathlib.Data.List.Nodup

/-!
# First occurrences

A list without its repetitions, each element at the place where it came first: what
`dict.fromkeys` keeps, and what is left by inserting elements one after the other unless they are
there.
-/

namespace SetadJang.Framework

variable {α β : Type}

/-- All pairs, the first components outermost. -/
def pairs (xs : List α) (ys : List β) : List (α × β) := xs.flatMap fun x => ys.map (Prod.mk x)

@[simp] theorem mem_pairs {xs : List α} {ys : List β} {p : α × β} :
    p ∈ pairs xs ys ↔ p.1 ∈ xs ∧ p.2 ∈ ys := by
  simp only [pairs, List.mem_flatMap, List.mem_map]
  constructor
  · rintro ⟨x, hx, y, hy, rfl⟩
    exact ⟨hx, hy⟩
  · rintro ⟨hx, hy⟩
    exact ⟨p.1, hx, p.2, hy, rfl⟩

variable [DecidableEq α] [DecidableEq β]

/-- The element is added unless it is there. -/
def insertNew (xs : List α) (a : α) : List α := if a ∈ xs then xs else xs ++ [a]

/-- `list(dict.fromkeys(xs))`. -/
def distinct (xs : List α) : List α := xs.foldl insertNew []

theorem distinct_snoc (xs : List α) (a : α) : distinct (xs ++ [a]) = insertNew (distinct xs) a := by
  rw [distinct, List.foldl_append]
  rfl

@[simp] theorem mem_insertNew {xs : List α} {a b : α} : b ∈ insertNew xs a ↔ b ∈ xs ∨ b = a := by
  unfold insertNew
  split_ifs with ha
  · exact ⟨.inl, fun h => h.elim id fun hb => hb ▸ ha⟩
  · simp

@[simp] theorem mem_distinct {xs : List α} {a : α} : a ∈ distinct xs ↔ a ∈ xs := by
  induction xs using List.reverseRecOn with
  | nil => simp [distinct]
  | append_singleton xs b ih => simp [distinct_snoc, ih]

theorem nodup_distinct (xs : List α) : (distinct xs).Nodup := by
  induction xs using List.reverseRecOn with
  | nil => exact List.nodup_nil
  | append_singleton xs a ih =>
      rw [distinct_snoc, insertNew]
      split_ifs with ha
      · exact ih
      · refine List.nodup_append.mpr ⟨ih, List.nodup_singleton a, fun b hb c hc hbc => ha ?_⟩
        rw [← List.mem_singleton.mp hc, ← hbc]
        exact hb

theorem distinct_filter (p : α → Bool) (xs : List α) :
    distinct (xs.filter p) = (distinct xs).filter p := by
  induction xs using List.reverseRecOn with
  | nil => rfl
  | append_singleton xs a ih =>
      rw [List.filter_append, distinct_snoc]
      cases ha : p a with
      | false =>
          have hnone : [a].filter p = [] := by simp [ha]
          rw [hnone, List.append_nil, ih, insertNew]
          split_ifs
          · rfl
          · simp [ha]
      | true =>
          have hone : [a].filter p = [a] := by simp [ha]
          rw [hone, distinct_snoc, ih, insertNew, insertNew]
          by_cases hmem : a ∈ distinct xs
          · rw [if_pos hmem, if_pos (List.mem_filter.mpr ⟨hmem, ha⟩)]
          · rw [if_neg hmem, if_neg fun h => hmem (List.mem_filter.mp h).1]
            simp [ha]

theorem distinct_map {f : α → β} (hf : Function.Injective f) (xs : List α) :
    distinct (xs.map f) = (distinct xs).map f := by
  induction xs using List.reverseRecOn with
  | nil => rfl
  | append_singleton xs a ih =>
      rw [List.map_append, List.map_singleton, distinct_snoc, distinct_snoc, ih, insertNew, insertNew]
      by_cases hmem : a ∈ distinct xs
      · rw [if_pos hmem, if_pos (List.mem_map_of_mem hmem)]
      · rw [if_neg hmem, if_neg fun h => hmem ((List.mem_map_of_injective hf).mp h), List.map_append]
        rfl

/-- Elements that are all new come after what is there. -/
theorem foldl_insertNew_new {acc xs : List α} (h : ∀ x ∈ xs, x ∉ acc) :
    xs.foldl insertNew acc = acc ++ distinct xs := by
  induction xs using List.reverseRecOn with
  | nil => simp [distinct]
  | append_singleton xs a ih =>
      have ha : a ∉ acc := h a (by simp)
      rw [List.foldl_append, ih fun x hx => h x (by simp [hx]), distinct_snoc]
      show insertNew (acc ++ distinct xs) a = _
      by_cases hmem : a ∈ distinct xs
      · rw [insertNew, insertNew, if_pos hmem, if_pos (List.mem_append_right _ hmem)]
      · have hnew : a ∉ acc ++ distinct xs := by simpa [ha] using hmem
        rw [insertNew, insertNew, if_neg hmem, if_neg hnew, List.append_assoc]

theorem foldl_insertNew_old {acc xs : List α} (h : ∀ x ∈ xs, x ∈ acc) :
    xs.foldl insertNew acc = acc := by
  induction xs with
  | nil => rfl
  | cons x xs ih =>
      obtain ⟨hx, hxs⟩ := List.forall_mem_cons.mp h
      rw [List.foldl_cons, insertNew, if_pos hx, ih hxs]

/-- The pairs of two lists without repetitions are the pairs without repetitions. -/
theorem distinct_pairs (xs : List α) (ys : List β) :
    distinct (pairs xs ys) = pairs (distinct xs) (distinct ys) := by
  induction xs using List.reverseRecOn with
  | nil => rfl
  | append_singleton xs x ih =>
      have hsnoc : pairs (xs ++ [x]) ys = pairs xs ys ++ ys.map (Prod.mk x) := by simp [pairs]
      rw [hsnoc, distinct, List.foldl_append]
      show (ys.map (Prod.mk x)).foldl insertNew (distinct (pairs xs ys)) = _
      rw [distinct_snoc, insertNew]
      split_ifs with hmem
      · rw [foldl_insertNew_old, ih]
        intro p hp
        obtain ⟨y, hy, rfl⟩ := List.mem_map.mp hp
        exact mem_distinct.mpr (mem_pairs.mpr ⟨mem_distinct.mp hmem, hy⟩)
      · rw [foldl_insertNew_new, ih, distinct_map fun y z h => (Prod.mk.inj h).2]
        · simp [pairs]
        · intro p hp hold
          obtain ⟨y, hy, rfl⟩ := List.mem_map.mp hp
          exact hmem (mem_distinct.mpr (mem_pairs.mp (mem_distinct.mp hold)).1)

/-! ## The only one -/

/-- Where one element at most is looked for, every search of the same elements finds it. -/
theorem find_eq_of_unique {α : Type} {p : α → Bool} {xs ys : List α}
    (hsame : ∀ a, p a = true → (a ∈ xs ↔ a ∈ ys))
    (hone : ∀ a ∈ ys, ∀ b ∈ ys, p a = true → p b = true → a = b) : xs.find? p = ys.find? p := by
  cases hxs : xs.find? p with
  | none =>
      refine (List.find?_eq_none.mpr fun a ha hpa => ?_).symm
      exact List.find?_eq_none.mp hxs a ((hsame a hpa).mpr ha) hpa
  | some a =>
      have hpa := List.find?_some hxs
      have ha : a ∈ ys := (hsame a hpa).mp (List.mem_of_find?_eq_some hxs)
      cases hys : ys.find? p with
      | none => exact absurd hpa (List.find?_eq_none.mp hys a ha)
      | some b =>
          rw [hone a ha b (List.mem_of_find?_eq_some hys) hpa (List.find?_some hys)]

end SetadJang.Framework
