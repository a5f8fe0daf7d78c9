import Mathlib.Tactic
import EufySdk.Lib.Bytes

/-!
# Bit strings

Bits in the order they are sent: the most significant bit of a byte or of a field comes first. The
exp-Golomb codes write a number without a fixed width, behind as many zeros as it has bits to come.

Main definitions:

- `value` — the number some bits denote
- `ofNat`, `ofBytes` — a number in a field, and the bits of a byte string
- `expGolomb`, `signedExpGolomb` — a number with its width in front
-/

namespace BitStrings

open Bytes

/-- The number some bits denote behind the digits of `high`. -/
def valueFrom (high : ℕ) (bits : List Bool) : ℕ := bits.foldl (fun n b => n * 2 + b.toNat) high

/-- The number some bits denote. -/
def value (bits : List Bool) : ℕ := valueFrom 0 bits

/-- A number in a field of `width` bits. -/
def ofNat : ℕ → ℕ → List Bool
  | 0, _ => []
  | width + 1, n => ofNat width (n / 2) ++ [decide (n % 2 = 1)]

/-- The bits of a byte string. -/
def ofBytes (b : Buffer) : List Bool := b.flatMap fun byte => ofNat 8 byte.toNat

/-- The unsigned exp-Golomb code: the bits of `n + 1`, behind a zero for each but the first. -/
def expGolomb (n : ℕ) : List Bool :=
  List.replicate (n + 1).log2 false ++
    true :: ofNat (n + 1).log2 (n + 1 - 2 ^ (n + 1).log2)

/-- The place of a number in the order `0, 1, -1, 2, -2, …`. -/
def codeNum (k : ℤ) : ℕ := if 0 < k then (2 * k - 1).toNat else (-2 * k).toNat

/-- The signed exp-Golomb code. -/
def signedExpGolomb (k : ℤ) : List Bool := expGolomb (codeNum k)

@[simp] theorem length_ofNat (width n : ℕ) : (ofNat width n).length = width := by
  induction width generalizing n with
  | zero => rfl
  | succ width ih => rw [ofNat, List.length_append, ih, List.length_singleton]

theorem value_ofNat {width n : ℕ} (h : n < 2 ^ width) : value (ofNat width n) = n := by
  induction width generalizing n with
  | zero =>
    rw [pow_zero, Nat.lt_one_iff] at h
    rw [h]
    rfl
  | succ width ih =>
    rw [pow_succ] at h
    have hhigh : value (ofNat width (n / 2)) = n / 2 := ih (by omega)
    rw [value, valueFrom] at hhigh ⊢
    rw [ofNat, List.foldl_append, hhigh]
    by_cases hodd : n % 2 = 1
    · simp only [hodd, decide_true, List.foldl_cons, List.foldl_nil, Bool.toNat_true]
      omega
    · simp only [hodd, decide_false, List.foldl_cons, List.foldl_nil, Bool.toNat_false]
      omega

/-- The bits of a field, counted from the most significant one. -/
theorem getElem?_ofNat {width i : ℕ} (n : ℕ) (h : i < width) :
    (ofNat width n)[i]? = some (decide (n / 2 ^ (width - 1 - i) % 2 = 1)) := by
  induction width generalizing n with
  | zero => omega
  | succ width ih =>
    rcases Nat.lt_succ_iff_lt_or_eq.mp h with hlt | rfl
    · have hpow : width + 1 - 1 - i = width - 1 - i + 1 := by omega
      rw [ofNat, List.getElem?_append_left (by rwa [length_ofNat]), ih (n / 2) hlt, hpow,
        Nat.div_div_eq_div_mul, pow_succ']
    · rw [ofNat, List.getElem?_append_right (by rw [length_ofNat]), length_ofNat]
      simp

/-- The bits of a byte string, counted from its start. -/
theorem getElem?_ofBytes (b : Buffer) (i : ℕ) :
    (ofBytes b)[i]? = b[i / 8]?.map fun byte => decide (byte.toNat / 2 ^ (7 - i % 8) % 2 = 1) := by
  induction b generalizing i with
  | nil => rfl
  | cons byte b ih =>
    rw [ofBytes, List.flatMap_cons]
    by_cases hfirst : i < 8
    · rw [List.getElem?_append_left (by rwa [length_ofNat]), getElem?_ofNat _ hfirst,
        Nat.div_eq_of_lt hfirst, Nat.mod_eq_of_lt hfirst]
      rfl
    · have hdiv : i / 8 = (i - 8) / 8 + 1 := by omega
      have hmod : i % 8 = (i - 8) % 8 := by omega
      rw [List.getElem?_append_right (by rw [length_ofNat]; omega), length_ofNat, hdiv, hmod,
        List.getElem?_cons_succ]
      exact ih (i - 8)

/-- What the zeros and the bits behind the one say. -/
theorem expGolomb_value (n : ℕ) :
    2 ^ (n + 1).log2 - 1 + value (ofNat (n + 1).log2 (n + 1 - 2 ^ (n + 1).log2)) = n := by
  have hlow : 2 ^ (n + 1).log2 ≤ n + 1 := Nat.log2_self_le (Nat.succ_ne_zero n)
  have hhigh : n + 1 < 2 ^ ((n + 1).log2 + 1) := Nat.lt_log2_self
  rw [pow_succ] at hhigh
  have hpos : 0 < 2 ^ (n + 1).log2 := by positivity
  rw [value_ofNat (by omega)]
  omega

/-- The number at a place of the order. -/
theorem signed_codeNum (k : ℤ) :
    (if codeNum k % 2 = 0 then -((codeNum k / 2 : ℕ) : ℤ) else ((codeNum k + 1) / 2 : ℕ)) = k := by
  rw [codeNum]
  split_ifs <;> omega

end BitStrings
