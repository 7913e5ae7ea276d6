import Mathlib.Algebra.Order.Floor.Ring
import Mathlib.Data.Rat.Floor
import Mathlib.Tactic.Linarith

/-!
# Rounding

`round` of a number is the nearest integer, and of two nearest ones the even one.
-/

namespace SetadJang.Framework

/-- `round(q)`. -/
def pyRound (q : ℚ) : ℤ :=
  let low := ⌊q⌋
  if q - low < 1 / 2 then low
  else if 1 / 2 < q - low then low + 1
  else if low % 2 = 0 then low
  else low + 1

theorem pyRound_of_lt_half {q : ℚ} (h : q - ⌊q⌋ < 1 / 2) : pyRound q = ⌊q⌋ := by
  rw [pyRound, if_pos h]

theorem pyRound_of_half_lt {q : ℚ} (h : 1 / 2 < q - ⌊q⌋) : pyRound q = ⌊q⌋ + 1 := by
  rw [pyRound, if_neg (by linarith), if_pos h]

theorem pyRound_of_half {q : ℚ} (h : q - ⌊q⌋ = 1 / 2) :
    pyRound q = if ⌊q⌋ % 2 = 0 then ⌊q⌋ else ⌊q⌋ + 1 := by
  rw [pyRound, if_neg (by linarith), if_neg (by linarith)]

/-- Rounding stays below an integer until the half above it, and on that half if the integer is
even. -/
theorem pyRound_le_iff {q : ℚ} {n : ℤ} :
    pyRound q ≤ n ↔ q < n + 1 / 2 ∨ q = n + 1 / 2 ∧ n % 2 = 0 := by
  have hlow := Int.floor_le q
  have hhigh := Int.lt_floor_add_one q
  rcases lt_trichotomy ⌊q⌋ n with hlt | heq | hgt
  · -- the integer below is already smaller
    have hround : pyRound q ≤ n := by
      unfold pyRound
      dsimp only
      split_ifs <;> omega
    have hcast : (⌊q⌋ : ℚ) + 1 ≤ n := by exact_mod_cast hlt
    exact iff_of_true hround (Or.inl (by linarith))
  · subst heq
    rcases lt_trichotomy (q - ⌊q⌋) (1 / 2) with hsmall | hhalf | hlarge
    · rw [pyRound_of_lt_half hsmall]
      exact iff_of_true le_rfl (Or.inl (by linarith))
    · rw [pyRound_of_half hhalf]
      have hnot : ¬ q < ⌊q⌋ + 1 / 2 := by linarith
      have hval : q = ⌊q⌋ + 1 / 2 := by linarith
      split
      · next heven => exact iff_of_true le_rfl (Or.inr ⟨hval, heven⟩)
      · next hodd => exact iff_of_false (by omega) fun h => h.elim hnot fun h => hodd h.2
    · rw [pyRound_of_half_lt hlarge]
      refine iff_of_false (by omega) ?_
      rintro (h | ⟨h, -⟩) <;> linarith
  · -- the integer below is already larger
    have hround : n < pyRound q := by
      unfold pyRound
      dsimp only
      split_ifs <;> omega
    have hcast : (n : ℚ) + 1 ≤ ⌊q⌋ := by exact_mod_cast hgt
    refine iff_of_false (by omega) ?_
    rintro (h | ⟨h, -⟩) <;> linarith

theorem pyRound_nonneg {q : ℚ} (h : 0 ≤ q) : 0 ≤ pyRound q := by
  have hlow : ¬ pyRound q ≤ -1 := by
    rw [pyRound_le_iff]
    push_cast
    rintro (hlt | ⟨heq, -⟩) <;> linarith
  omega

/-- What rounds to nothing. -/
theorem pyRound_eq_zero_iff {q : ℚ} (h : 0 ≤ q) : pyRound q = 0 ↔ q ≤ 1 / 2 := by
  have hnonneg := pyRound_nonneg h
  calc pyRound q = 0 ↔ pyRound q ≤ 0 := by omega
    _ ↔ q < (0 : ℤ) + 1 / 2 ∨ q = (0 : ℤ) + 1 / 2 ∧ (0 : ℤ) % 2 = 0 := pyRound_le_iff
    _ ↔ q ≤ 1 / 2 := by simp [le_iff_lt_or_eq]

end SetadJang.Framework
