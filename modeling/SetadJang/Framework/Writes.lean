import Mathlib.Data.List.Induction
import Mathlib.Data.List.Nodup
import Mathlib.Logic.Function.Basic

/-!
# Batches of writes

Writes one after the other, on the values of keys and on the rows of a table.  The last write of
a key counts; a row that is written once is the row that was written.
-/

namespace SetadJang.Framework

section values

variable {K V : Type} [DecidableEq K]

/-- Values after writes in their order. -/
def writeAll (f : K → V) (writes : List (K × V)) : K → V :=
  writes.foldl (fun f write => Function.update f write.1 write.2) f

theorem writeAll_append (f : K → V) (writes : List (K × V)) (key : K) (value : V) :
    writeAll f (writes ++ [(key, value)]) = Function.update (writeAll f writes) key value := by
  simp [writeAll]

theorem writeAll_of_not_mem {f : K → V} {writes : List (K × V)} {key : K}
    (h : ∀ value, (key, value) ∉ writes) : writeAll f writes key = f key := by
  induction writes using List.reverseRecOn with
  | nil => rfl
  | append_singleton writes write ih =>
      obtain ⟨other, value⟩ := write
      have hne : key ≠ other := by
        rintro rfl
        exact h value (List.mem_append_right _ List.mem_cons_self)
      rw [writeAll_append, Function.update_of_ne hne]
      exact ih fun value hmem => h value (List.mem_append_left _ hmem)

/-- A key that is written has a value that was written. -/
theorem exists_writeAll {f : K → V} {writes : List (K × V)} {key : K} {value : V}
    (h : (key, value) ∈ writes) : ∃ last, (key, last) ∈ writes ∧ writeAll f writes key = last := by
  induction writes using List.reverseRecOn with
  | nil => exact absurd h List.not_mem_nil
  | append_singleton writes write ih =>
      obtain ⟨other, new⟩ := write
      rw [writeAll_append]
      by_cases hkey : key = other
      · subst hkey
        exact ⟨new, List.mem_append_right _ List.mem_cons_self, Function.update_self _ _ _⟩
      · have hmem : (key, value) ∈ writes := by
          rcases List.mem_append.mp h with h | h
          · exact h
          · exact absurd (Prod.mk.inj (List.mem_singleton.mp h)).1 hkey
        obtain ⟨last, hlast, hvalue⟩ := ih hmem
        rw [Function.update_of_ne hkey]
        exact ⟨last, List.mem_append_left _ hlast, hvalue⟩

/-- Writes of a key that agree leave the value they agree on. -/
theorem writeAll_of_agree {f : K → V} {writes : List (K × V)} {key : K} {value : V}
    (h : (key, value) ∈ writes) (hagree : ∀ other, (key, other) ∈ writes → other = value) :
    writeAll f writes key = value := by
  obtain ⟨last, hmem, hlast⟩ := exists_writeAll (f := f) h
  rw [hlast]
  exact hagree last hmem

end values

section rows

variable {α : Type}

/-- Rows after writes of some of them. -/
def setAll (rows : List α) (saved : List (α × ℕ)) : List α :=
  saved.foldl (fun rows row => rows.set row.2 row.1) rows

theorem setAll_cons (rows : List α) (row : α × ℕ) (saved : List (α × ℕ)) :
    setAll rows (row :: saved) = setAll (rows.set row.2 row.1) saved := rfl

theorem setAll_append (rows : List α) (saved saved' : List (α × ℕ)) :
    setAll rows (saved ++ saved') = setAll (setAll rows saved) saved' :=
  List.foldl_append

@[simp] theorem length_setAll (rows : List α) (saved : List (α × ℕ)) :
    (setAll rows saved).length = rows.length := by
  induction saved generalizing rows with
  | nil => rfl
  | cons row saved ih => rw [setAll_cons, ih, List.length_set]

theorem getElem?_setAll_of_not_mem {rows : List α} {saved : List (α × ℕ)} {k : ℕ}
    (h : ∀ row, (row, k) ∉ saved) : (setAll rows saved)[k]? = rows[k]? := by
  induction saved generalizing rows with
  | nil => rfl
  | cons row saved ih =>
      have hne : row.2 ≠ k := by
        rintro rfl
        exact h row.1 List.mem_cons_self
      rw [setAll_cons, ih fun row hmem => h row (List.mem_cons_of_mem _ hmem),
        List.getElem?_set_ne hne]

theorem getElem?_setAll_of_mem {rows : List α} {saved : List (α × ℕ)} {row : α} {k : ℕ}
    (hnodup : (saved.map Prod.snd).Nodup) (h : (row, k) ∈ saved) (hk : k < rows.length) :
    (setAll rows saved)[k]? = some row := by
  induction saved generalizing rows with
  | nil => exact absurd h List.not_mem_nil
  | cons first saved ih =>
      rw [List.map_cons, List.nodup_cons] at hnodup
      rw [setAll_cons]
      rcases List.mem_cons.mp h with rfl | h
      · rw [getElem?_setAll_of_not_mem fun other hmem =>
          hnodup.1 (List.mem_map.mpr ⟨_, hmem, rfl⟩)]
        exact List.getElem?_set_self hk
      · exact ih hnodup.2 h (by rw [List.length_set]; exact hk)

/-- Rows after writes of which there is one for a row at most. -/
theorem getElem?_setAll {rows : List α} {saved : List (α × ℕ)} {f : ℕ → Option α}
    (hnodup : (saved.map Prod.snd).Nodup) (hmem : ∀ row k, (row, k) ∈ saved ↔ f k = some row)
    (k : ℕ) : (setAll rows saved)[k]? = rows[k]?.map fun row => (f k).getD row := by
  cases hrow : rows[k]? with
  | none =>
      have hlength : rows.length ≤ k := List.getElem?_eq_none_iff.mp hrow
      exact List.getElem?_eq_none_iff.mpr (by rw [length_setAll]; exact hlength)
  | some row =>
      have hk : k < rows.length := (List.getElem?_eq_some_iff.mp hrow).1
      cases hf : f k with
      | none =>
          have hnot : ∀ other, (other, k) ∉ saved := by
            intro other hother
            rw [hmem, hf] at hother
            cases hother
          rw [getElem?_setAll_of_not_mem hnot, hrow]
          rfl
      | some new => exact getElem?_setAll_of_mem hnodup ((hmem new k).mpr hf) hk

/-- What is kept of numbered rows has their numbers. -/
theorem nodup_positions_filterMap {β : Type} {f : α × ℕ → Option (β × ℕ)}
    (hf : ∀ row new, f row = some new → new.2 = row.2) {rows : List (α × ℕ)}
    (h : (rows.map Prod.snd).Nodup) : ((rows.filterMap f).map Prod.snd).Nodup := by
  induction rows with
  | nil => exact List.nodup_nil
  | cons row rows ih =>
      rw [List.map_cons, List.nodup_cons] at h
      cases hrow : f row with
      | none =>
          rw [List.filterMap_cons_none hrow]
          exact ih h.2
      | some new =>
          rw [List.filterMap_cons_some hrow, List.map_cons, List.nodup_cons]
          refine ⟨?_, ih h.2⟩
          rw [hf row new hrow]
          intro hmem
          obtain ⟨other, hother, heq⟩ := List.mem_map.mp hmem
          obtain ⟨source, hsource, hnew⟩ := List.mem_filterMap.mp hother
          refine h.1 (List.mem_map.mpr ⟨source, hsource, ?_⟩)
          rw [← hf source other hnew, heq]

end rows

end SetadJang.Framework
