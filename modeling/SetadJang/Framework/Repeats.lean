import Mathlib.Data.Finset.Card
import Mathlib.Data.Finset.Dedup
import Mathlib.Data.List.Nodup

/-!
# Repeated keys

One pass over rows that remembers the keys it has met and marks a row when its key was met
before.  A row may have no key; it is never marked.
-/

namespace SetadJang.Framework

/-- With distinct keys each row is alone under its own. -/
theorem filter_key_of_nodup {α κ : Type} [DecidableEq κ] {key : α → κ} {rows : List α}
    (hkeys : (rows.map key).Nodup) {a : α} (ha : a ∈ rows) :
    (rows.filter fun b => key b == key a) = [a] := by
  induction rows with
  | nil => cases ha
  | cons b rest ih =>
      rw [List.map_cons, List.nodup_cons] at hkeys
      rcases List.mem_cons.mp ha with rfl | ha
      · have hnone : (rest.filter fun b => key b == key a) = [] := by
          refine List.filter_eq_nil_iff.mpr fun b hb => ?_
          simp only [beq_iff_eq]
          intro heq
          exact hkeys.1 (heq ▸ List.mem_map_of_mem hb)
        rw [List.filter_cons, if_pos (beq_self_eq_true _), hnone]
      · have hne : ¬ (key b == key a) = true := by
          simp only [beq_iff_eq]
          intro heq
          exact hkeys.1 (heq ▸ List.mem_map_of_mem ha)
        rw [List.filter_cons, if_neg hne, ih hkeys.2 ha]

variable {α κ : Type} [DecidableEq κ] (key : α → Option κ)

/-- The marks of the rows, after the keys in `seen`. -/
def markRepeats : List κ → List α → List Bool
  | _, [] => []
  | seen, a :: rows =>
      match key a with
      | none => false :: markRepeats seen rows
      | some k => decide (k ∈ seen) :: markRepeats (k :: seen) rows

/-- The key of the row was met before the row. -/
def RepeatsEarlier (rows : List α) (i : ℕ) : Prop :=
  ∃ a ∈ rows[i]?, ∃ k ∈ key a, k ∈ (rows.take i).filterMap key

variable {key} in
theorem markRepeats_cons_none {seen : List κ} {a : α} {rows : List α} (h : key a = none) :
    markRepeats key seen (a :: rows) = false :: markRepeats key seen rows := by
  rw [markRepeats, h]

variable {key} in
theorem markRepeats_cons_some {seen : List κ} {a : α} {rows : List α} {k : κ} (h : key a = some k) :
    markRepeats key seen (a :: rows) = decide (k ∈ seen) :: markRepeats key (k :: seen) rows := by
  rw [markRepeats, h]

@[simp] theorem length_markRepeats (seen : List κ) (rows : List α) :
    (markRepeats key seen rows).length = rows.length := by
  induction rows generalizing seen with
  | nil => rfl
  | cons a rows ih =>
      cases hkey : key a with
      | none => simp [markRepeats_cons_none hkey, ih]
      | some k => simp [markRepeats_cons_some hkey, ih]

theorem getElem?_markRepeats (seen : List κ) (rows : List α) (i : ℕ) :
    (markRepeats key seen rows)[i]? = rows[i]?.map fun a =>
      decide (∃ k ∈ key a, k ∈ seen ∨ k ∈ (rows.take i).filterMap key) := by
  induction rows generalizing seen i with
  | nil => rfl
  | cons a rows ih =>
      cases hkey : key a with
      | none =>
          rw [markRepeats_cons_none hkey]
          cases i with
          | zero => simp [hkey]
          | succ i => simp [ih, hkey]
      | some k =>
          rw [markRepeats_cons_some hkey]
          cases i with
          | zero => simp [hkey]
          | succ i =>
              simp only [List.getElem?_cons_succ, ih, List.take_succ_cons, List.filterMap_cons, hkey,
                List.mem_cons]
              congr 1
              funext b
              apply Bool.decide_congr
              constructor
              · rintro ⟨k', hk', (rfl | hseen) | hrow⟩
                · exact ⟨_, hk', Or.inr (Or.inl rfl)⟩
                · exact ⟨k', hk', Or.inl hseen⟩
                · exact ⟨k', hk', Or.inr (Or.inr hrow)⟩
              · rintro ⟨k', hk', hseen | rfl | hrow⟩
                · exact ⟨k', hk', Or.inl (Or.inr hseen)⟩
                · exact ⟨_, hk', Or.inl (Or.inl rfl)⟩
                · exact ⟨k', hk', Or.inr hrow⟩

/-- The mark of a row, on a pass from the start. -/
theorem markRepeats_eq_true_iff (rows : List α) (i : ℕ) :
    (markRepeats key [] rows)[i]? = some true ↔ RepeatsEarlier key rows i := by
  rw [getElem?_markRepeats, Option.map_eq_some_iff]
  simp [RepeatsEarlier]

/-- **Count.** Every keyed row is marked or brings a new key. -/
theorem count_markRepeats (seen : List κ) (rows : List α) :
    (markRepeats key seen rows).count true +
        ((rows.filterMap key).toFinset \ seen.toFinset).card =
      (rows.filterMap key).length := by
  induction rows generalizing seen with
  | nil => simp [markRepeats]
  | cons a rows ih =>
      cases hkey : key a with
      | none => simpa [markRepeats_cons_none hkey, hkey] using ih seen
      | some k =>
          rw [markRepeats_cons_some hkey]
          have hrest := ih (k :: seen)
          have hset : ((a :: rows).filterMap key).toFinset =
              insert k (rows.filterMap key).toFinset := by simp [hkey]
          have hlength : ((a :: rows).filterMap key).length = (rows.filterMap key).length + 1 := by
            simp [hkey]
          rw [hset, hlength]
          by_cases hmem : k ∈ seen
          · -- a repeated key brings nothing new
            have hsame : (k :: seen).toFinset = seen.toFinset := by simp [hmem]
            rw [Finset.insert_sdiff_of_mem _ (by simpa using hmem), ← hsame]
            simp only [hmem, decide_true, List.count_cons_self]
            omega
          -- a new key counts once, here, and is known from now on
          · have hsplit : insert k (rows.filterMap key).toFinset \ seen.toFinset =
                insert k ((rows.filterMap key).toFinset \ (k :: seen).toFinset) := by
              ext x
              simp only [Finset.mem_sdiff, Finset.mem_insert, List.mem_toFinset, List.mem_cons]
              by_cases hx : x = k
              · simp [hx, hmem]
              · simp [hx]
            rw [hsplit, Finset.card_insert_of_notMem (by simp)]
            simp only [hmem, decide_false, List.count_cons_of_ne (by decide : false ≠ true)]
            omega

/-- The marked rows are those beyond one for each key. -/
theorem count_markRepeats_nil (rows : List α) :
    (markRepeats key [] rows).count true + (rows.filterMap key).dedup.length =
      (rows.filterMap key).length := by
  rw [← count_markRepeats key [] rows, ← List.card_toFinset]
  simp

end SetadJang.Framework
