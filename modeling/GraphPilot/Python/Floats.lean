/-
Floating-point numbers, by their values.

The result of an operation is the exact one rounded to 53 significant bits, a tie to the
even neighbour.  What is rounded here is neither so large nor so small that the exponent
runs out.

* `toFloat` — the float of an exact value;
* `toFloat_le_natCast` — rounding does not cross a whole number that is a float;
* `le_toFloat` — and takes away one part in `2 ^ 53` at most.
-/
import Mathlib.Data.Int.Log
import Mathlib.Algebra.Order.Round
import Mathlib.Data.Rat.Floor
import Mathlib.Tactic.Linarith
import Mathlib.Tactic.NormNum
import Mathlib.Tactic.Positivity
import Mathlib.Tactic.FieldSimp

namespace Python

/-- The nearest whole number, the even one of two. -/
def roundHalfEven (x : ℚ) : ℤ :=
  let below := ⌊x⌋
  if x - below < 1 / 2 then below
  else if 1 / 2 < x - below then below + 1
  else if below % 2 = 0 then below
  else below + 1

/-- The exponent of the last of 53 bits. -/
def lastBit (x : ℚ) : ℤ := Int.log 2 |x| - 52

/-- The float of an exact value. -/
def toFloat (x : ℚ) : ℚ := roundHalfEven (x / 2 ^ lastBit x) * 2 ^ lastBit x

/-- `round(x, 1)`. -/
def roundTenth (x : ℚ) : ℚ := toFloat (roundHalfEven (x * 10) / 10)

theorem roundHalfEven_le {x : ℚ} {n : ℤ} (h : x ≤ n) : roundHalfEven x ≤ n := by
  have hfloor : ⌊x⌋ ≤ n := Int.cast_le.mp ((Int.floor_le x).trans h)
  -- where the next whole number is taken, `x` is above the one below it
  have hnext : 1 / 2 ≤ x - ⌊x⌋ → ⌊x⌋ + 1 ≤ n := by
    intro hhalf
    have hlt : (⌊x⌋ : ℚ) < n := by linarith
    exact Int.cast_lt.mp hlt
  simp only [roundHalfEven]
  split
  · exact hfloor
  · rename_i hge
    split
    · exact hnext (by linarith)
    · split
      · exact hfloor
      · exact hnext (by linarith)

theorem sub_half_le_roundHalfEven (x : ℚ) : x - 1 / 2 ≤ roundHalfEven x := by
  have hfloor := Int.lt_floor_add_one x
  simp only [roundHalfEven]
  split
  · linarith
  · split
    · push_cast
      linarith
    · split
      · linarith
      · push_cast
        linarith

theorem unit_pos (x : ℚ) : (0 : ℚ) < 2 ^ lastBit x := zpow_pos two_pos _

theorem pow_log_le {x : ℚ} (h : 0 < x) : (2 : ℚ) ^ Int.log 2 |x| ≤ x := by
  have hself := Int.zpow_log_le_self (b := 2) one_lt_two (abs_pos.mpr h.ne')
  rw [abs_of_pos h] at hself ⊢
  exact_mod_cast hself

theorem toFloat_nonpos {x : ℚ} (h : x ≤ 0) : toFloat x ≤ 0 := by
  have hpow := unit_pos x
  have hdiv : x / 2 ^ lastBit x ≤ ((0 : ℤ) : ℚ) := by
    rw [Int.cast_zero]
    exact div_nonpos_of_nonpos_of_nonneg h hpow.le
  have hround : ((roundHalfEven (x / 2 ^ lastBit x) : ℤ) : ℚ) ≤ 0 :=
    Int.cast_nonpos.mpr (roundHalfEven_le hdiv)
  exact mul_nonpos_of_nonpos_of_nonneg hround hpow.le

/-- Rounding does not cross a whole number that is a float. -/
theorem toFloat_le_natCast {x : ℚ} {n : ℕ} (h : x ≤ n) (hn : n < 2 ^ 53) : toFloat x ≤ n := by
  rcases le_or_gt x 0 with hx | hx
  · exact (toFloat_nonpos hx).trans (Nat.cast_nonneg n)
  · -- the last bit of `x` is no more than a unit, so `n` is a multiple of it
    have hsmall : Int.log 2 |x| < 53 := by
      have hlt : (2 : ℚ) ^ Int.log 2 |x| < 2 ^ (53 : ℤ) := by
        refine ((pow_log_le hx).trans h).trans_lt ?_
        exact_mod_cast hn
      exact (zpow_lt_zpow_iff_right₀ one_lt_two).mp hlt
    obtain ⟨k, hk⟩ : ∃ k : ℕ, lastBit x = -(k : ℤ) := by
      refine ⟨(-lastBit x).toNat, ?_⟩
      unfold lastBit
      omega
    have hpow : (2 : ℚ) ^ lastBit x = 1 / 2 ^ k := by
      rw [hk, zpow_neg, zpow_natCast, one_div]
    have hdiv : x / 2 ^ lastBit x ≤ ((n * 2 ^ k : ℤ) : ℚ) := by
      rw [hpow, div_div_eq_mul_div, div_one]
      push_cast
      exact mul_le_mul_of_nonneg_right h (by positivity)
    have hround : ((roundHalfEven (x / 2 ^ lastBit x) : ℤ) : ℚ) ≤ n * 2 ^ k := by
      exact_mod_cast roundHalfEven_le hdiv
    calc toFloat x ≤ n * 2 ^ k * 2 ^ lastBit x :=
          mul_le_mul_of_nonneg_right hround (unit_pos x).le
      _ = n := by
          rw [hpow]
          field_simp

/-- Rounding takes away one part in `2 ^ 53` at most. -/
theorem le_toFloat {x : ℚ} (h : 0 < x) : x * (1 - 1 / 2 ^ 53) ≤ toFloat x := by
  have hpow := unit_pos x
  have hunit : (2 : ℚ) ^ lastBit x * 2 ^ 52 ≤ x := by
    have hsplit : (2 : ℚ) ^ Int.log 2 |x| = 2 ^ lastBit x * 2 ^ 52 := by
      rw [lastBit, ← zpow_natCast, ← zpow_add₀ (by norm_num)]
      congr 1
      omega
    rw [← hsplit]
    exact pow_log_le h
  have hround := mul_le_mul_of_nonneg_right
    (sub_half_le_roundHalfEven (x / 2 ^ lastBit x)) hpow.le
  rw [sub_mul, div_mul_cancel₀ _ hpow.ne'] at hround
  unfold toFloat
  linarith

end Python
