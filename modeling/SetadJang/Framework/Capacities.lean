import Mathlib.Algebra.BigOperators.Intervals
import Mathlib.Algebra.Order.BigOperators.Group.Finset
import Mathlib.Data.Finset.Basic

/-!
# Filling a demand

A demand is met from capacities one after the other, each used up before the next.  It ends in
the first place by which the capacities come to the demand; running sums decide which that is,
how two demands compare and what a demand after a demand comes to.
-/

namespace SetadJang.Framework

/-- The capacities before place `n`. -/
def total (cap : ℕ → ℕ) (n : ℕ) : ℕ := ∑ i ∈ Finset.range n, cap i

@[simp] theorem total_zero (cap : ℕ → ℕ) : total cap 0 = 0 := rfl

theorem total_succ (cap : ℕ → ℕ) (n : ℕ) : total cap (n + 1) = total cap n + cap n :=
  Finset.sum_range_succ cap n

theorem total_succ' (cap : ℕ → ℕ) (n : ℕ) :
    total cap (n + 1) = cap 0 + total (fun i => cap (i + 1)) n := by
  rw [total, Finset.sum_range_succ', Nat.add_comm]
  rfl

theorem total_add (cap : ℕ → ℕ) (m n : ℕ) :
    total cap (m + n) = total cap m + total (fun i => cap (m + i)) n :=
  Finset.sum_range_add cap m n

theorem total_mono (cap : ℕ → ℕ) {m n : ℕ} (h : m ≤ n) : total cap m ≤ total cap n := by
  obtain ⟨k, rfl⟩ := Nat.exists_eq_add_of_le h
  rw [total_add]
  exact Nat.le_add_right _ _

theorem total_le_total {cap cap' : ℕ → ℕ} {n : ℕ} (h : ∀ i < n, cap i ≤ cap' i) :
    total cap n ≤ total cap' n :=
  Finset.sum_le_sum fun i hi => h i (Finset.mem_range.mp hi)

/-- Capacities that keep coming meet every demand. -/
theorem total_unbounded {cap : ℕ → ℕ} (h : ∀ m, ∃ n, m ≤ n ∧ 0 < cap n) (demand : ℕ) :
    ∃ n, demand ≤ total cap n := by
  induction demand with
  | zero => exact ⟨0, Nat.zero_le _⟩
  | succ demand ih =>
      obtain ⟨m, hm⟩ := ih
      obtain ⟨n, hmn, hpos⟩ := h m
      refine ⟨n + 1, ?_⟩
      have hle := total_mono cap hmn
      rw [total_succ]
      omega

/-- The demand ends in place `n`, with `x` of its capacity. -/
structure Fills (cap : ℕ → ℕ) (demand n x : ℕ) : Prop where
  before : total cap n < demand
  within : demand ≤ total cap (n + 1)
  used : total cap n + x = demand

section Fills

variable {cap cap' : ℕ → ℕ} {demand demand' n n' x x' : ℕ}

theorem Fills.pos (h : Fills cap demand n x) : 0 < x := by
  have hbefore := h.before
  have hused := h.used
  omega

theorem Fills.le_cap (h : Fills cap demand n x) : x ≤ cap n := by
  have hwithin := h.within
  have hused := h.used
  rw [total_succ] at hwithin
  omega

theorem fills_of_used (hpos : 0 < x) (hle : x ≤ cap n) (hused : total cap n + x = demand) :
    Fills cap demand n x := by
  refine ⟨by omega, ?_, hused⟩
  rw [total_succ]
  omega

/-- A smaller demand from capacities that are ahead of others ends no later. -/
theorem Fills.place_le (h : Fills cap demand n x) (h' : Fills cap' demand' n' x')
    (htotal : total cap' (n' + 1) + demand ≤ total cap (n' + 1) + demand') : n ≤ n' := by
  by_contra hlt
  have hmono := total_mono cap (show n' + 1 ≤ n by omega)
  have hbefore := h.before
  have hwithin := h'.within
  omega

theorem Fills.unique (h : Fills cap demand n x) (h' : Fills cap demand n' x') :
    n = n' ∧ x = x' := by
  have hplace : n = n' := le_antisymm (h.place_le h' (le_refl _)) (h'.place_le h (le_refl _))
  subst hplace
  exact ⟨rfl, Nat.add_left_cancel (h.used.trans h'.used.symm)⟩

/-- A demand that the capacities come to ends somewhere. -/
theorem exists_fills (hpos : 0 < demand) {m : ℕ} (h : demand ≤ total cap m) :
    ∃ n x, n < m ∧ Fills cap demand n x := by
  induction m with
  | zero =>
      rw [total_zero] at h
      omega
  | succ m ih =>
      by_cases hm : demand ≤ total cap m
      · obtain ⟨n, x, hn, hfills⟩ := ih hm
        exact ⟨n, x, Nat.lt_succ_of_lt hn, hfills⟩
      · exact ⟨m, demand - total cap m, Nat.lt_succ_self m, by omega, h, by omega⟩

/-- A demand of which the first place meets nothing but its capacity. -/
theorem fills_succ_iff (hlt : cap 0 < demand) :
    Fills cap demand (n + 1) x ↔ Fills (fun i => cap (i + 1)) (demand - cap 0) n x := by
  constructor
  · rintro ⟨hbefore, hwithin, hused⟩
    rw [total_succ'] at hbefore hwithin hused
    exact ⟨by omega, by omega, by omega⟩
  · rintro ⟨hbefore, hwithin, hused⟩
    refine ⟨?_, ?_, ?_⟩ <;> rw [total_succ'] <;> omega

theorem fills_zero_iff : Fills cap demand 0 x ↔ 0 < demand ∧ demand ≤ cap 0 ∧ x = demand := by
  constructor
  · rintro ⟨hbefore, hwithin, hused⟩
    rw [total_succ, total_zero] at hwithin
    rw [total_zero] at hbefore hused
    omega
  · rintro ⟨hpos, hle, rfl⟩
    refine ⟨by rw [total_zero]; exact hpos, ?_, by rw [total_zero, Nat.zero_add]⟩
    rw [total_succ, total_zero, Nat.zero_add]
    exact hle

end Fills

/-- The search for the place, through `left` places behind the first. -/
def fill (cap : ℕ → ℕ) : ℕ → ℕ → Option (ℕ × ℕ)
  | 0, demand => if demand ≤ cap 0 then some (0, demand) else none
  | left + 1, demand =>
      if demand ≤ cap 0 then some (0, demand)
      else (fill (fun i => cap (i + 1)) left (demand - cap 0)).map fun found => (found.1 + 1, found.2)

theorem fill_eq_some_iff {cap : ℕ → ℕ} {left demand n x : ℕ} (hpos : 0 < demand) :
    fill cap left demand = some (n, x) ↔ n ≤ left ∧ Fills cap demand n x := by
  induction left generalizing cap demand n with
  | zero =>
      rw [fill]
      constructor
      · intro h
        split_ifs at h with hle
        obtain ⟨rfl, rfl⟩ := Prod.mk.inj (Option.some.inj h)
        exact ⟨le_refl _, fills_zero_iff.mpr ⟨hpos, hle, rfl⟩⟩
      · rintro ⟨hn, hfills⟩
        obtain rfl := Nat.le_zero.mp hn
        obtain ⟨-, hle, rfl⟩ := fills_zero_iff.mp hfills
        rw [if_pos hle]
  | succ left ih =>
      rw [fill]
      by_cases hle : demand ≤ cap 0
      · rw [if_pos hle]
        have hhere : Fills cap demand 0 demand := fills_zero_iff.mpr ⟨hpos, hle, rfl⟩
        constructor
        · intro h
          obtain ⟨rfl, rfl⟩ := Prod.mk.inj (Option.some.inj h)
          exact ⟨Nat.zero_le _, hhere⟩
        · rintro ⟨-, hfills⟩
          obtain ⟨rfl, rfl⟩ := hfills.unique hhere
          rfl
      · rw [if_neg hle, Option.map_eq_some_iff]
        have hlt : cap 0 < demand := Nat.lt_of_not_le hle
        constructor
        · rintro ⟨⟨k, y⟩, hfound, heq⟩
          obtain ⟨rfl, rfl⟩ := Prod.mk.inj heq
          obtain ⟨hk, hfills⟩ := (ih (Nat.sub_pos_of_lt hlt)).mp hfound
          exact ⟨Nat.succ_le_succ hk, (fills_succ_iff hlt).mpr hfills⟩
        · rintro ⟨hn, hfills⟩
          cases n with
          | zero => exact absurd (fills_zero_iff.mp hfills).2.1 hle
          | succ n =>
              refine ⟨(n, x), (ih (Nat.sub_pos_of_lt hlt)).mpr ⟨Nat.le_of_succ_le_succ hn, ?_⟩, rfl⟩
              exact (fills_succ_iff hlt).mp hfills

/-- **A demand after a demand.** What is left behind the place where the first one ends gives
the place of their sum. -/
theorem Fills.append {cap cap' : ℕ → ℕ} {demand demand' n x m y : ℕ} (h : Fills cap demand n x)
    (hfirst : cap' 0 + x = cap n) (hrest : ∀ i, cap' (i + 1) = cap (n + (i + 1)))
    (h' : Fills cap' demand' m y) :
    Fills cap (demand + demand') (n + m) (if m = 0 then x + y else y) := by
  have hused := h.used
  cases m with
  | zero =>
      obtain ⟨hpos, hle, rfl⟩ := fills_zero_iff.mp h'
      rw [if_pos rfl]
      exact fills_of_used (by omega) (by rw [Nat.add_zero]; omega) (by rw [Nat.add_zero]; omega)
  | succ m =>
      have htotal : ∀ k, total cap (n + (k + 1)) = demand + total cap' (k + 1) := by
        intro k
        rw [total_add, total_succ', total_succ' cap']
        simp only [hrest, Nat.add_zero]
        omega
      have hused' := h'.used
      have hle := h'.le_cap
      rw [hrest] at hle
      rw [if_neg (Nat.succ_ne_zero m)]
      refine fills_of_used h'.pos hle ?_
      rw [htotal]
      omega

/-- **A larger demand from a later place.** From capacities that are no more than those `k`
places on, it ends later, or in the same place with as much of its capacity. -/
theorem Fills.place_lt_or {cap cap' : ℕ → ℕ} {demand demand' n n' x x' k : ℕ}
    (h : Fills cap demand n x) (h' : Fills cap' demand' n' x') (hdemand : demand ≤ demand')
    (hcap : ∀ i, cap' i ≤ cap (k + i)) : n < k + n' ∨ n = k + n' ∧ x ≤ x' := by
  have hsum : ∀ j, total cap' j + total cap k ≤ total cap (k + j) := by
    intro j
    rw [total_add, Nat.add_comm]
    exact Nat.add_le_add_left (total_le_total fun i _ => hcap i) _
  have hle : n ≤ k + n' := by
    by_contra hlt
    have hmono := total_mono cap (show k + (n' + 1) ≤ n by omega)
    have hlast := hsum (n' + 1)
    have hbefore := h.before
    have hwithin := h'.within
    omega
  rcases hle.lt_or_eq with hlt | rfl
  · exact Or.inl hlt
  · have hlast := hsum n'
    have hused := h.used
    have hused' := h'.used
    exact Or.inr ⟨rfl, by omega⟩

end SetadJang.Framework
