import Mathlib.Data.Int.Log
import Mathlib.Tactic.FieldSimp
import Mathlib.Tactic.Linarith
import Mathlib.Tactic.NormNum
import Mathlib.Tactic.Positivity
import Mathlib.Tactic.Ring
import SetadJang.Framework.PyRound

/-!
# Quotients in floating point

`/` of two integers is the double that is nearest to their quotient.  A double in `[2^e, 2^(e+1))`
is a multiple of `2^(e-52)`.  Overflow and gradual underflow are left out: the quotients of this
development stay far from both.
-/

namespace SetadJang.Framework

/-- The distance of the doubles around a positive number. -/
def ulp (q : ℚ) : ℚ := (2 : ℚ) ^ (Int.log 2 q - 52)

/-- The nearest double of a positive number, and zero. -/
def toDouble (q : ℚ) : ℚ := if q ≤ 0 then 0 else pyRound (q / ulp q) * ulp q

/-- `a / b`. -/
def doubleDiv (a b : ℕ) : ℚ := toDouble (a / b)

theorem ulp_pos (q : ℚ) : 0 < ulp q := zpow_pos two_pos _

theorem toDouble_of_pos {q : ℚ} (h : 0 < q) : toDouble q = pyRound (q / ulp q) * ulp q := by
  rw [toDouble, if_neg (not_le.mpr h)]

theorem pow_mul_ulp (q : ℚ) : (2 : ℚ) ^ 52 * ulp q = (2 : ℚ) ^ Int.log 2 q := by
  rw [ulp, zpow_sub₀ two_ne_zero]
  field_simp

theorem pow_mul_ulp_succ (q : ℚ) : (2 : ℚ) ^ 53 * ulp q = (2 : ℚ) ^ (Int.log 2 q + 1) := by
  rw [zpow_add_one₀ two_ne_zero, ← pow_mul_ulp]
  ring

theorem pyRound_intCast (n : ℤ) : pyRound n = n := by
  rw [pyRound_of_lt_half] <;> simp

/-- Rounding keeps a bound that is an integer, from above and from below. -/
theorem pyRound_le_of_le {q : ℚ} {n : ℤ} (h : q ≤ n) : pyRound q ≤ n :=
  pyRound_le_iff.mpr (Or.inl (by linarith))

theorem le_pyRound_of_le {q : ℚ} {n : ℤ} (h : (n : ℚ) ≤ q) : n ≤ pyRound q := by
  by_contra hlt
  have hle : pyRound q ≤ n - 1 := by omega
  rw [pyRound_le_iff] at hle
  push_cast at hle
  rcases hle with hle | ⟨hle, -⟩ <;> linarith

/-- A number keeps its binade, up to the next power of two. -/
theorem toDouble_binade {q : ℚ} (h : 0 < q) :
    (2 : ℚ) ^ Int.log 2 q ≤ toDouble q ∧ toDouble q ≤ (2 : ℚ) ^ (Int.log 2 q + 1) := by
  have hulp := ulp_pos q
  have hlow : (2 : ℚ) ^ Int.log 2 q ≤ q := by
    exact_mod_cast Int.zpow_log_le_self (b := 2) (by decide) h
  have hhigh : q < (2 : ℚ) ^ (Int.log 2 q + 1) := by
    exact_mod_cast Int.lt_zpow_succ_log_self (b := 2) (by decide) q
  rw [toDouble_of_pos h]
  rw [← pow_mul_ulp] at hlow ⊢
  rw [← pow_mul_ulp_succ] at hhigh ⊢
  constructor
  · have hround : ((2 : ℤ) ^ 52) ≤ pyRound (q / ulp q) :=
      le_pyRound_of_le (by push_cast; rwa [le_div_iff₀ hulp])
    have hcast : (2 : ℚ) ^ 52 ≤ pyRound (q / ulp q) := by exact_mod_cast hround
    exact mul_le_mul_of_nonneg_right hcast hulp.le
  · have hround : pyRound (q / ulp q) ≤ (2 : ℤ) ^ 53 :=
      pyRound_le_of_le (by push_cast; rw [div_le_iff₀ hulp]; exact hhigh.le)
    have hcast : (pyRound (q / ulp q) : ℚ) ≤ (2 : ℚ) ^ 53 := by exact_mod_cast hround
    exact mul_le_mul_of_nonneg_right hcast hulp.le

/-- Powers of two bound a double as they bound the number. -/
theorem toDouble_le_of_lt {q : ℚ} {e : ℤ} (h : q < (2 : ℚ) ^ e) : toDouble q ≤ (2 : ℚ) ^ e := by
  rcases le_or_gt q 0 with hq | hq
  · rw [toDouble, if_pos hq]
    exact (zpow_pos two_pos e).le
  · have hlog : Int.log 2 q < e := (Int.lt_zpow_iff_log_lt (by decide) hq).mp (by exact_mod_cast h)
    exact le_trans (toDouble_binade hq).2 (zpow_le_zpow_right₀ one_le_two (by omega))

theorem le_toDouble_of_le {q : ℚ} {e : ℤ} (h : (2 : ℚ) ^ e ≤ q) : (2 : ℚ) ^ e ≤ toDouble q := by
  have hq : 0 < q := lt_of_lt_of_le (zpow_pos two_pos e) h
  have hlog : e ≤ Int.log 2 q := (Int.zpow_le_iff_le_log (by decide) hq).mp (by exact_mod_cast h)
  exact le_trans (zpow_le_zpow_right₀ one_le_two hlog) (toDouble_binade hq).1

/-- A number with few enough binary digits is a double. -/
theorem toDouble_exact {n : ℕ} {k : ℤ} (hn : n < 2 ^ 53) :
    toDouble ((n : ℚ) * (2 : ℚ) ^ k) = (n : ℚ) * (2 : ℚ) ^ k := by
  rcases Nat.eq_zero_or_pos n with rfl | hpos
  · simp [toDouble]
  · have hq : (0 : ℚ) < (n : ℚ) * (2 : ℚ) ^ k :=
      mul_pos (by exact_mod_cast hpos) (zpow_pos two_pos k)
    have hlt : (n : ℚ) * (2 : ℚ) ^ k < (2 : ℚ) ^ (53 + k) := by
      rw [zpow_add₀ two_ne_zero]
      exact mul_lt_mul_of_pos_right (by exact_mod_cast hn) (zpow_pos two_pos k)
    have hlog : Int.log 2 ((n : ℚ) * (2 : ℚ) ^ k) < 53 + k :=
      (Int.lt_zpow_iff_log_lt (by decide) hq).mp (by exact_mod_cast hlt)
    obtain ⟨shift, hshift⟩ : ∃ shift : ℕ, k = (Int.log 2 ((n : ℚ) * (2 : ℚ) ^ k) - 52) + shift :=
      ⟨(k - (Int.log 2 ((n : ℚ) * (2 : ℚ) ^ k) - 52)).toNat, by omega⟩
    -- the number is an integer multiple of its ulp
    have hmultiple : (n : ℚ) * (2 : ℚ) ^ k / ulp ((n : ℚ) * (2 : ℚ) ^ k) =
        ((n * 2 ^ shift : ℕ) : ℤ) := by
      rw [div_eq_iff (ulp_pos _).ne', ulp]
      nth_rewrite 1 [hshift]
      rw [zpow_add₀ two_ne_zero, zpow_natCast]
      push_cast
      ring
    rw [toDouble_of_pos hq, hmultiple, pyRound_intCast, ← hmultiple,
      div_mul_cancel₀ _ (ulp_pos _).ne']

/-- The rounded double of a quotient stays below `2 ^ 31` up to a half, less half an ulp. -/
theorem pyRound_toDouble_le_iff (q : ℚ) :
    pyRound (toDouble q) ≤ 2147483647 ↔ q < 2147483647 + 1 / 2 - 1 / 2 ^ 23 := by
  have hodd : pyRound (toDouble q) ≤ 2147483647 ↔ toDouble q < 2147483647 + 1 / 2 := by
    rw [pyRound_le_iff]
    norm_num
  rw [hodd]
  rcases lt_or_ge q (2 ^ (30 : ℤ)) with hsmall | hlow
  · have hdouble := toDouble_le_of_lt hsmall
    norm_num at hsmall hdouble
    exact iff_of_true (by linarith) (by norm_num; linarith)
  · rcases lt_or_ge q (2 ^ (31 : ℤ)) with hhigh | hlarge
    · -- between the two powers the doubles are multiples of `2 ^ (-22)`
      have hq : 0 < q := lt_of_lt_of_le (zpow_pos two_pos _) hlow
      have hge : 30 ≤ Int.log 2 q :=
        (Int.zpow_le_iff_le_log (by decide) hq).mp (by exact_mod_cast hlow)
      have hlt : Int.log 2 q < 31 :=
        (Int.lt_zpow_iff_log_lt (by decide) hq).mp (by exact_mod_cast hhigh)
      have hulp : ulp q = 1 / 2 ^ 22 := by
        have hlog : Int.log 2 q - 52 = -22 := by omega
        rw [ulp, hlog]
        norm_num
      have hround : toDouble q < 2147483647 + 1 / 2 ↔
          pyRound (q / ulp q) ≤ 2147483647 * 2 ^ 22 + 2 ^ 21 - 1 := by
        rw [toDouble_of_pos hq, hulp]
        generalize pyRound (q / (1 / 2 ^ 22)) = n
        constructor
        · intro h
          have hcast : (n : ℚ) < ((2147483647 * 2 ^ 22 + 2 ^ 21 : ℤ) : ℚ) := by
            push_cast
            linarith
          have hint : n < 2147483647 * 2 ^ 22 + 2 ^ 21 := by exact_mod_cast hcast
          omega
        · intro h
          have hcast : (n : ℚ) ≤ ((2147483647 * 2 ^ 22 + 2 ^ 21 - 1 : ℤ) : ℚ) := by exact_mod_cast h
          push_cast at hcast
          linarith
      have hparity : ¬ ((2147483647 * 2 ^ 22 + 2 ^ 21 - 1 : ℤ) % 2 = 0) := by decide
      rw [hround, pyRound_le_iff, hulp, or_iff_left fun h => hparity h.2]
      push_cast
      constructor
      · intro h
        linarith
      · intro h
        linarith
    · have hdouble := le_toDouble_of_le hlarge
      norm_num at hlarge hdouble
      exact iff_of_false (by linarith) (by norm_num; linarith)

/-- `math.ceil(a / 1024)` against a bound. -/
theorem ceil_doubleDiv_le_iff (n : ℕ) :
    ⌈doubleDiv n 1024⌉ ≤ (2147483647 : ℤ) ↔ n ≤ 2147483647 * 1024 := by
  have hshift : (n : ℚ) / (1024 : ℕ) = (n : ℚ) * (2 : ℚ) ^ (-10 : ℤ) := by
    rw [div_eq_mul_inv]
    norm_num
  have hbound : n ≤ 2147483647 * 1024 ↔ (n : ℚ) ≤ 2199023254528 := by
    rw [← @Nat.cast_le ℚ]
    norm_num
  have htenth : (2 : ℚ) ^ (-10 : ℤ) = 1 / 1024 := by norm_num
  rw [Int.ceil_le, doubleDiv, hshift, hbound]
  rcases lt_or_ge n (2 ^ 53) with hsmall | hlarge
  · rw [toDouble_exact hsmall, htenth]
    push_cast
    constructor
    · intro h
      linarith
    · intro h
      linarith
  · have hcast : ((2 ^ 53 : ℕ) : ℚ) ≤ n := by exact_mod_cast hlarge
    push_cast at hcast
    have hpow : (2 : ℚ) ^ (43 : ℤ) ≤ (n : ℚ) * (2 : ℚ) ^ (-10 : ℤ) := by
      rw [htenth, zpow_ofNat]
      linarith
    have hdouble := le_toDouble_of_le hpow
    rw [zpow_ofNat] at hdouble
    push_cast
    refine iff_of_false ?_ (by linarith)
    linarith

end SetadJang.Framework
