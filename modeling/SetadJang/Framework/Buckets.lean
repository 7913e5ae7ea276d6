import Mathlib.Algebra.BigOperators.Group.List.Basic
import SetadJang.Framework.Txn

/-!
# Buckets

A dictionary of buckets and a loop that adds each row to the bucket under the key of the row.  The
keys are fixed before the loop: a row whose key has no bucket stops it.
-/

namespace SetadJang.Framework

variable {α β κ : Type} [DecidableEq κ]

/-- `change(buckets[key])`; without such a bucket a `KeyError`. -/
def changeBucket (key : κ) (change : β → β) (buckets : List (κ × β)) : Except κ (List (κ × β)) :=
  if key ∈ buckets.map Prod.fst then
    .ok (buckets.map fun b => if b.1 = key then (b.1, change b.2) else b)
  else .error key

/-- The loop over the rows. -/
def tally (keyOf : α → κ) (add : β → α → β) (rows : List α) (buckets : List (κ × β)) :
    Except κ (List (κ × β)) :=
  rows.foldlM (fun buckets a => changeBucket (keyOf a) (fun b => add b a) buckets) buckets

theorem changeBucket_ok_iff {key : κ} {change : β → β} {buckets out : List (κ × β)} :
    changeBucket key change buckets = .ok out ↔
      key ∈ buckets.map Prod.fst ∧
        out = buckets.map fun b => if b.1 = key then (b.1, change b.2) else b := by
  unfold changeBucket
  split_ifs with hkey
  · simp only [Except.ok.injEq, hkey, true_and]
    exact eq_comm
  · simp [hkey]

theorem keys_change (key : κ) (change : β → β) (buckets : List (κ × β)) :
    (buckets.map fun b => if b.1 = key then (b.1, change b.2) else b).map Prod.fst =
      buckets.map Prod.fst := by
  rw [List.map_map]
  apply List.map_congr_left
  intro b _
  show (if b.1 = key then (b.1, change b.2) else b).1 = b.1
  split <;> rfl

/-- **The loop.** It ends when every row has a bucket, and each bucket gets the rows of its key in
their order. -/
theorem tally_ok_iff {keyOf : α → κ} {add : β → α → β} {rows : List α}
    {buckets out : List (κ × β)} :
    tally keyOf add rows buckets = .ok out ↔
      (∀ a ∈ rows, keyOf a ∈ buckets.map Prod.fst) ∧
        out = buckets.map fun b => (b.1, (rows.filter fun a => keyOf a = b.1).foldl add b.2) := by
  induction rows generalizing buckets with
  | nil =>
      show Except.ok buckets = Except.ok out ↔ _
      simp [eq_comm]
  | cons a rows ih =>
      have hturn : tally keyOf add (a :: rows) buckets =
          changeBucket (keyOf a) (fun b => add b a) buckets >>= tally keyOf add rows :=
        List.foldlM_cons
      -- what one turn adds to a bucket is what the filtered fold adds first
      have hcontent : ∀ b : κ × β,
          (fun b : κ × β => (b.1, (rows.filter fun a => keyOf a = b.1).foldl add b.2))
              (if b.1 = keyOf a then (b.1, add b.2 a) else b) =
            (b.1, ((a :: rows).filter fun a => keyOf a = b.1).foldl add b.2) := by
        intro b
        by_cases hb : b.1 = keyOf a
        · simp [hb]
        · simp [hb, Ne.symm hb]
      rw [hturn, except_bind_ok_iff]
      simp only [changeBucket_ok_iff, ih, List.forall_mem_cons]
      constructor
      · rintro ⟨turned, ⟨hkey, rfl⟩, hrows, rfl⟩
        have hkeys := keys_change (keyOf a) (fun b => add b a) buckets
        rw [hkeys] at hrows
        refine ⟨⟨hkey, hrows⟩, ?_⟩
        rw [List.map_map]
        exact List.map_congr_left fun b _ => hcontent b
      · rintro ⟨⟨hkey, hrows⟩, rfl⟩
        refine ⟨_, ⟨hkey, rfl⟩, ?_, ?_⟩
        · rw [keys_change (keyOf a) (fun b => add b a)]
          exact hrows
        · rw [List.map_map]
          exact List.map_congr_left fun b _ => (hcontent b).symm

/-- The loop on a dictionary that is given by its keys. -/
theorem tally_keys_ok_iff {keyOf : α → κ} {add : β → α → β} {rows : List α} {keys : List κ}
    {content : κ → β} {out : List (κ × β)} :
    tally keyOf add rows (keys.map fun k => (k, content k)) = .ok out ↔
      (∀ a ∈ rows, keyOf a ∈ keys) ∧
        out = keys.map fun k => (k, (rows.filter fun a => keyOf a = k).foldl add (content k)) := by
  have hkeys : (keys.map fun k => (k, content k)).map Prod.fst = keys := by
    rw [List.map_map]
    exact List.map_id _
  rw [tally_ok_iff, hkeys, List.map_map]
  rfl

theorem lookup_keys {keys : List κ} (content : κ → β) {k : κ} (h : k ∈ keys) :
    (keys.map fun k => (k, content k)).lookup k = some (content k) := by
  induction keys with
  | nil => cases h
  | cons k' keys ih =>
      by_cases hk : k = k'
      · simp [hk]
      · have hne : (k == k') = false := beq_eq_false_iff_ne.mpr hk
        rw [List.map_cons, List.lookup_cons, hne]
        exact ih (List.mem_of_ne_of_mem hk h)

/-- Rows that are appended to a bucket stand in it as they came. -/
theorem foldl_append_rows (before rows : List α) :
    rows.foldl (fun held a => held ++ [a]) before = before ++ rows := by
  induction rows generalizing before with
  | nil => simp
  | cons a rows ih => simp [ih]

/-- The buckets share the rows out: what they hold adds up to what the rows hold. -/
theorem sum_shared {M : Type} [AddCommMonoid M] {keyOf : α → κ} {keys : List κ} (hkeys : keys.Nodup)
    {rows : List α} (hrows : ∀ a ∈ rows, keyOf a ∈ keys) (f : α → M) :
    (keys.map fun k => ((rows.filter fun a => keyOf a = k).map f).sum).sum = (rows.map f).sum := by
  induction rows with
  | nil => simp
  | cons a rows ih =>
      obtain ⟨hmem, hrest⟩ := List.forall_mem_cons.mp hrows
      have hsplit : ∀ k, (((a :: rows).filter fun a => keyOf a = k).map f).sum =
          (if k = keyOf a then f a else 0) + ((rows.filter fun a => keyOf a = k).map f).sum := by
        intro k
        by_cases hk : k = keyOf a
        · simp [hk]
        · simp [hk, Ne.symm hk]
      simp only [hsplit]
      rw [List.sum_map_add, ih hrest, List.map_cons, List.sum_cons]
      congr 1
      rw [List.sum_map_eq_nsmul_single (keyOf a) _ fun k hk _ => if_neg hk, if_pos rfl,
        hkeys.count, if_pos hmem, one_nsmul]

end SetadJang.Framework
