import Mathlib.Tactic
import Mathlib.Data.Int.Log

/-!
# Arithmetic of numbers

What the operators make of numbers: results are rounded to a double, and the bitwise ones take 32
bits.

- `double` — the double nearest to a number
- `double_intCast` — whole numbers below 2^53 are kept
-/

namespace EufySdk

/-- The whole number nearest to a number, the even one of two. -/
def roundEven (q : ℚ) : ℤ :=
  if q - ⌊q⌋ < 1 / 2 then ⌊q⌋
  else if 1 / 2 < q - ⌊q⌋ then ⌊q⌋ + 1
  else if ⌊q⌋ % 2 = 0 then ⌊q⌋
  else ⌊q⌋ + 1

/-- The double nearest to a number: 53 significant bits, whatever the exponent. -/
def double (q : ℚ) : ℚ :=
  if q = 0 then 0
  else
    let unit : ℚ := 2 ^ (Int.log 2 |q| - 52)
    roundEven (q / unit) * unit

/-- `ToInt32` of a whole number. -/
def toInt32 (n : ℤ) : ℤ := n.bmod (2 ^ 32)

@[simp]
theorem roundEven_intCast (n : ℤ) : roundEven n = n := by
  rw [roundEven, Int.floor_intCast, if_pos (by norm_num)]

/-- A whole number below 2^53 is a double. -/
theorem double_intCast {n : ℤ} (h : |n| < 2 ^ 53) : double n = n := by
  rw [double]
  split_ifs with hzero
  · exact hzero.symm
  · have habs : (1 : ℚ) ≤ |(n : ℚ)| := by
      have hne : n ≠ 0 := by simpa using hzero
      exact_mod_cast Int.one_le_abs hne
    have hlog : Int.log 2 |(n : ℚ)| ≤ 52 := by
      have hlt : |(n : ℚ)| < ((2 : ℕ) : ℚ) ^ (53 : ℤ) := by
        have : ((|n| : ℤ) : ℚ) < 2 ^ 53 := by exact_mod_cast h
        simpa using this
      have := (Int.lt_zpow_iff_log_lt (by norm_num) (by linarith)).mp hlt
      omega
    obtain ⟨k, hk⟩ : ∃ k : ℕ, (k : ℤ) = 52 - Int.log 2 |(n : ℚ)| :=
      ⟨_, Int.toNat_of_nonneg (by omega)⟩
    have hunit : (2 : ℚ) ^ (Int.log 2 |(n : ℚ)| - 52) = ((2 : ℚ) ^ k)⁻¹ := by
      rw [← zpow_natCast, ← zpow_neg]
      congr 1
      omega
    have hscaled : (n : ℚ) / ((2 : ℚ) ^ k)⁻¹ = ((n * 2 ^ k : ℤ) : ℚ) := by
      rw [div_inv_eq_mul]
      push_cast
      ring
    dsimp only
    rw [hunit, hscaled, roundEven_intCast]
    push_cast
    field_simp

theorem double_natCast {n : ℕ} (h : n < 2 ^ 53) : double n = n := by
  have habs : |(n : ℤ)| < 2 ^ 53 := by
    rw [Nat.abs_cast]
    exact_mod_cast h
  exact_mod_cast double_intCast habs

/-- A number below 2^31 keeps its value in 32 bits. -/
theorem toInt32_natCast {n : ℕ} (h : n < 2 ^ 31) : toInt32 n = n := by
  rw [toInt32, Int.bmod_eq_of_le (by omega) (by omega)]

end EufySdk
