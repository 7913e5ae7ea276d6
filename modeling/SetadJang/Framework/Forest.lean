import Mathlib.Logic.Relation
import Mathlib.Data.List.Infix
import Mathlib.Data.List.Nodup

/-!
# Forests given by parent pointers

Nodes that each point to a parent or to none.  The pointers have no cycle when some rank goes
up along them.  Moving a node under one that does not descend from it keeps them so.
-/

namespace SetadJang.Framework

variable {α : Type} {parent : α → Option α}

/-- `a` lies above `k`: a chain of parents leads from `k` up to `a`. -/
def Ancestor (parent : α → Option α) (a k : α) : Prop :=
  Relation.TransGen (fun p c => parent c = some p) a k

def Acyclic (parent : α → Option α) : Prop := ∀ k, ¬ Ancestor parent k k

/-- `above` lists the ancestors of `k`, its root first. -/
inductive Lineage (parent : α → Option α) : List α → α → Prop
  | root {k : α} : parent k = none → Lineage parent [] k
  | child {above : List α} {p k : α} :
      parent k = some p → Lineage parent above p → Lineage parent (above ++ [p]) k

/-- The last step of a chain: the parent is the ancestor itself or lies below it. -/
theorem ancestor_iff {a k : α} :
    Ancestor parent a k ↔ ∃ p, parent k = some p ∧ (p = a ∨ Ancestor parent a p) := by
  constructor
  · intro h
    cases h with
    | single hk => exact ⟨a, hk, Or.inl rfl⟩
    | tail habove hk => exact ⟨_, hk, Or.inr habove⟩
  · rintro ⟨p, hk, rfl | habove⟩
    · exact .single hk
    · exact .tail habove hk

/-! ## Ranks -/

section Rank

variable {rank : α → ℕ}

/-- A rank goes up along every pointer, hence along every chain. -/
theorem Ancestor.rank_lt (hrank : ∀ k p, parent k = some p → rank p < rank k) {a k : α}
    (h : Ancestor parent a k) : rank a < rank k := by
  induction h with
  | single hk => exact hrank _ _ hk
  | tail _ hk ih => exact ih.trans (hrank _ _ hk)

theorem acyclic_of_rank (hrank : ∀ k p, parent k = some p → rank p < rank k) :
    Acyclic parent :=
  fun _ h => (h.rank_lt hrank).ne rfl

/-- Where a rank goes up, every node has a lineage. -/
theorem exists_lineage (hrank : ∀ k p, parent k = some p → rank p < rank k) (k : α) :
    ∃ above, Lineage parent above k := by
  induction hn : rank k using Nat.strong_induction_on generalizing k with
  | _ n ih =>
      cases hk : parent k with
      | none => exact ⟨[], .root hk⟩
      | some p =>
          obtain ⟨above, habove⟩ := ih (rank p) (hn ▸ hrank k p hk) p rfl
          exact ⟨above ++ [p], .child hk habove⟩

/-- Moving `k` under a node that is neither `k` nor below it: everything in the subtree of `k`
is lifted over all the ranks there were. -/
theorem exists_rank_of_move {parent' : α → Option α} {k : α} {bound : ℕ}
    (hrank : ∀ k p, parent k = some p → rank p < rank k) (hbound : ∀ j, rank j ≤ bound)
    (hsame : ∀ j, j ≠ k → parent' j = parent j)
    (hmove : ∀ p, parent' k = some p → p ≠ k ∧ ¬ Ancestor parent k p) :
    ∃ rank' : α → ℕ, (∀ j p, parent' j = some p → rank' p < rank' j) ∧
      ∀ j, rank' j ≤ 2 * bound + 1 := by
  classical
  refine ⟨fun j => if j = k ∨ Ancestor parent k j then rank j + bound + 1 else rank j, ?_, ?_⟩
  · intro j p hj
    by_cases hjk : j = k
    · subst hjk
      obtain ⟨hne, hnot⟩ := hmove p hj
      have hp := hbound p
      simp only [hne, hnot, or_self, if_false, true_or, if_true]
      omega
    · rw [hsame j hjk] at hj
      have hlt := hrank j p hj
      have hbelow : Ancestor parent k j ↔ p = k ∨ Ancestor parent k p := by
        rw [ancestor_iff]
        constructor
        · rintro ⟨q, hq, hqk⟩
          obtain rfl := Option.some.inj (hj.symm.trans hq)
          exact hqk
        · exact fun hpk => ⟨p, hj, hpk⟩
      simp only [hjk, false_or, hbelow]
      split <;> omega
  · intro j
    have hj := hbound j
    dsimp only
    split <;> omega

end Rank

/-! ## Lineages -/

theorem Lineage.unique {above above' : List α} {k : α} (h : Lineage parent above k)
    (h' : Lineage parent above' k) : above = above' := by
  induction h generalizing above' with
  | root hk =>
      cases h' with
      | root => rfl
      | child hk' => rw [hk] at hk'; cases hk'
  | child hk _ ih =>
      cases h' with
      | root hk' => rw [hk] at hk'; cases hk'
      | child hk' hup =>
          obtain rfl := Option.some.inj (hk.symm.trans hk')
          rw [ih hup]

/-- The list of a lineage holds the ancestors and nothing else. -/
theorem Lineage.mem_iff {above : List α} {k a : α} (h : Lineage parent above k) :
    a ∈ above ↔ Ancestor parent a k := by
  induction h with
  | root hk =>
      rw [ancestor_iff]
      simp [hk]
  | child hk _ ih =>
      rw [ancestor_iff]
      simp [hk, ih, eq_comm, or_comm]

/-- A node on the way up has the beginning of the lineage for its own. -/
theorem Lineage.prefix_of_mem {above : List α} {k a : α} (h : Lineage parent above k)
    (ha : a ∈ above ++ [k]) : ∃ up, Lineage parent up a ∧ up ++ [a] <+: above ++ [k] := by
  induction h with
  | root hk =>
      obtain rfl : a = _ := by simpa using ha
      exact ⟨[], .root hk, List.prefix_rfl⟩
  | child hk hup ih =>
      rcases List.mem_append.mp ha with ha | ha
      · obtain ⟨up, hline, hpre⟩ := ih ha
        exact ⟨up, hline, hpre.trans (List.prefix_append _ _)⟩
      · obtain rfl := List.mem_singleton.mp ha
        exact ⟨_, .child hk hup, List.prefix_rfl⟩

theorem Lineage.nodup (hacyclic : Acyclic parent) {above : List α} {k : α}
    (h : Lineage parent above k) : above.Nodup := by
  induction h with
  | root => exact List.nodup_nil
  | child _ hup ih =>
      refine List.nodup_append.mpr ⟨ih, List.nodup_singleton _, ?_⟩
      rintro a ha b hb rfl
      rw [List.mem_singleton.mp hb] at ha
      exact hacyclic _ (hup.mem_iff.mp ha)

end SetadJang.Framework
