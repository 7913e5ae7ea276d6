import Mathlib.Data.Nat.Digits.Defs
import Mathlib.Data.Nat.Find
import Mathlib.Data.List.Nodup
import Mathlib.Data.List.Perm.Subperm
import Mathlib.Logic.Function.Iterate
import SetadJang.Framework.PyText

/-!
# Names that are not taken

A name is looked for by a loop: while the candidate is taken, the next one is a stem with a
hyphen and the next number.  The stem may change from number to number.  The number after the
last hyphen tells the candidates apart, so that finitely many names cannot take all of them.
-/

namespace SetadJang.Framework

/-! ## While loops -/

section Loops

variable {σ : Type} (guard : σ → Bool) (body : σ → σ)

/-- `while guard(s): s = body(s)`, with at most `steps` turns. -/
def whileLoop : ℕ → σ → Option σ
  | 0, s => if guard s then none else some s
  | steps + 1, s => if guard s then whileLoop steps (body s) else some s

variable {guard body}

/-- A loop that ends does so at the first iterate that its guard lets go. -/
theorem whileLoop_eq_some_iff {steps : ℕ} {s t : σ} :
    whileLoop guard body steps s = some t ↔
      ∃ k ≤ steps, t = body^[k] s ∧ guard t = false ∧ ∀ j < k, guard (body^[j] s) = true := by
  induction steps generalizing s with
  | zero =>
      rw [whileLoop]
      constructor
      · intro h
        split at h
        · cases h
        · rename_i hguard
          obtain rfl := Option.some.inj h
          exact ⟨0, le_rfl, rfl, Bool.eq_false_of_not_eq_true hguard, fun j hj => absurd hj (by omega)⟩
      · rintro ⟨k, hk, rfl, hguard, -⟩
        obtain rfl : k = 0 := by omega
        rw [Function.iterate_zero_apply] at hguard ⊢
        rw [hguard, if_neg Bool.false_ne_true]
  | succ steps ih =>
      rw [whileLoop]
      by_cases hguard : guard s = true
      · rw [if_pos hguard, ih]
        constructor
        · rintro ⟨k, hk, rfl, hfree, hbusy⟩
          refine ⟨k + 1, by omega, rfl, hfree, fun j hj => ?_⟩
          cases j with
          | zero => exact hguard
          | succ j => exact hbusy j (by omega)
        · rintro ⟨k, hk, rfl, hfree, hbusy⟩
          cases k with
          | zero =>
              rw [Function.iterate_zero_apply, hguard] at hfree
              cases hfree
          | succ k => exact ⟨k, by omega, rfl, hfree, fun j hj => hbusy (j + 1) (by omega)⟩
      · rw [if_neg hguard]
        constructor
        · intro h
          obtain rfl := Option.some.inj h
          exact ⟨0, by omega, rfl, Bool.eq_false_of_not_eq_true hguard, fun j hj => absurd hj (by omega)⟩
        · rintro ⟨k, hk, rfl, -, hbusy⟩
          cases k with
          | zero => rfl
          | succ k => exact absurd (hbusy 0 (by omega)) hguard

end Loops

/-! ## Numbered names -/

section Names

/-- The stem with a hyphen and the number. -/
def numbered (stem : ℕ → String) (n : ℕ) : String := stem n ++ "-" ++ toString n

/-- The names in turn: the base, then the numbered ones from two on. -/
def candidate (stem : ℕ → String) (base : String) : ℕ → String
  | 0 => base
  | k + 1 => numbered stem (k + 2)

/-- The first candidate that is not taken, if the loop finds it in time. -/
def freeName (taken : String → Bool) (stem : ℕ → String) (base : String) (steps : ℕ) :
    Option String :=
  (whileLoop (fun s : String × ℕ => taken s.1) (fun s => (numbered stem s.2, s.2 + 1)) steps
    (base, 2)).map Prod.fst

variable {taken : String → Bool} {stem : ℕ → String} {base : String}

/-- The number after the last hyphen tells numbered names apart. -/
theorem numbered_inj {m n : ℕ} (h : numbered stem m = numbered stem n) : m = n := by
  have htexts := congrArg (fun text : String => text.toList.reverse) h
  have hhyphen : ("-" : String).toList.reverse = ['-'] := rfl
  simp only [numbered, String.toList_append, List.reverse_append, hhyphen,
    List.singleton_append] at htexts
  have hdigits := (append_cons_inj (by simpa using not_mem_str (c := '-') rfl m)
    (by simpa using not_mem_str (c := '-') rfl n) htexts).1
  exact str_inj (List.reverse_injective hdigits)

theorem iterate_numbered (k : ℕ) :
    (fun s : String × ℕ => (numbered stem s.2, s.2 + 1))^[k] (base, 2) =
      (candidate stem base k, k + 2) := by
  induction k with
  | zero => rfl
  | succ k ih =>
      rw [Function.iterate_succ_apply', ih]
      rfl

theorem freeName_eq_some_iff {steps : ℕ} {name : String} :
    freeName taken stem base steps = some name ↔
      ∃ k ≤ steps, name = candidate stem base k ∧ taken name = false ∧
        ∀ j < k, taken (candidate stem base j) = true := by
  simp only [freeName, Option.map_eq_some_iff, whileLoop_eq_some_iff, iterate_numbered]
  constructor
  · rintro ⟨-, ⟨k, hk, rfl, hfree, hbusy⟩, rfl⟩
    exact ⟨k, hk, rfl, hfree, hbusy⟩
  · rintro ⟨k, hk, rfl, hfree, hbusy⟩
    exact ⟨(candidate stem base k, k + 2), ⟨k, hk, rfl, hfree, hbusy⟩, rfl⟩

/-- Among one numbered name more than there are stored ones, one is free. -/
theorem exists_numbered_free (stem : ℕ → String) (stored : List String) :
    ∃ n ≤ stored.length, numbered stem (n + 2) ∉ stored := by
  by_contra hnone
  push Not at hnone
  have htaken : (List.range (stored.length + 1)).map (fun n => numbered stem (n + 2)) ⊆ stored := by
    intro name hname
    obtain ⟨n, hn, rfl⟩ := List.mem_map.mp hname
    exact hnone n (Nat.le_of_lt_succ (List.mem_range.mp hn))
  have hnodup : ((List.range (stored.length + 1)).map fun n => numbered stem (n + 2)).Nodup :=
    List.nodup_range.map_on fun m _ n _ h => Nat.add_right_cancel (numbered_inj h)
  have hlength := (List.subperm_of_subset hnodup htaken).length_le
  rw [List.length_map, List.length_range] at hlength
  omega

/-- **The loop ends** after at most one turn more than there are stored names, with a candidate
that is free; more time does not change it. -/
theorem freeName_ends (stem : ℕ → String) (base : String) {stored : List String}
    (htaken : ∀ name, taken name = true → name ∈ stored) :
    ∃ k ≤ stored.length + 1, taken (candidate stem base k) = false ∧
      (∀ j < k, taken (candidate stem base j) = true) ∧
      ∀ steps ≥ stored.length + 1,
        freeName taken stem base steps = some (candidate stem base k) := by
  have hfree : ∃ k, k ≤ stored.length + 1 ∧ taken (candidate stem base k) = false := by
    obtain ⟨n, hn, hout⟩ := exists_numbered_free stem stored
    exact ⟨n + 1, by omega, Bool.eq_false_of_not_eq_true fun h => hout (htaken _ h)⟩
  obtain ⟨hle, hfound⟩ := Nat.find_spec hfree
  have hbusy : ∀ j < Nat.find hfree, taken (candidate stem base j) = true := by
    intro j hj
    by_contra hnot
    exact Nat.find_min hfree hj ⟨by omega, Bool.eq_false_of_not_eq_true hnot⟩
  refine ⟨Nat.find hfree, hle, hfound, hbusy, fun steps hsteps => ?_⟩
  exact freeName_eq_some_iff.mpr ⟨_, by omega, rfl, hfound, hbusy⟩

end Names

end SetadJang.Framework
