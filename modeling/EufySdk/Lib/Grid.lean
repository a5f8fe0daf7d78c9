import Mathlib.Tactic
import EufySdk.Lib.Bytes

/-!
# Grids in a run

A grid as a list, row behind row with nothing between, and two-bit digits packed four to the byte.

- `rowMajor`, `getElem?_rowMajor` — the cell at a column and a row
- `packFour`, `getElem?_packFour` — the digit at a place, out of its byte
-/

namespace EufySdk.Grid

open Bytes

section Rows

variable {α : Type}

/-- The cells of a grid, by row and then by column. -/
def rowMajor (width height : ℕ) (cell : ℕ → ℕ → α) : List α :=
  (List.range height).flatMap fun row => (List.range width).map fun col => cell col row

variable (width height : ℕ) (cell : ℕ → ℕ → α)

theorem rowMajor_succ : rowMajor width (height + 1) cell =
    rowMajor width height cell ++ (List.range width).map fun col => cell col height := by
  rw [rowMajor, List.range_succ, List.flatMap_append, List.flatMap_singleton, rowMajor]

@[simp]
theorem length_rowMajor : (rowMajor width height cell).length = width * height := by
  induction height with
  | zero => rfl
  | succ height ih =>
    rw [rowMajor_succ, List.length_append, ih, List.length_map, List.length_range, Nat.mul_succ]

variable {width height}

/-- A cell's place in a grid is within the run. -/
theorem place_lt {col row : ℕ} (hcol : col < width) (hrow : row < height) :
    row * width + col < width * height := by
  calc row * width + col < (row + 1) * width := by rw [Nat.succ_mul]; omega
    _ ≤ height * width := Nat.mul_le_mul_right width hrow
    _ = width * height := Nat.mul_comm height width

theorem getElem?_rowMajor {col row : ℕ} (hcol : col < width) (hrow : row < height) :
    (rowMajor width height cell)[row * width + col]? = some (cell col row) := by
  induction height with
  | zero => omega
  | succ height ih =>
    rw [rowMajor_succ]
    by_cases hlast : row = height
    · rw [hlast, List.getElem?_append_right (by simp [Nat.mul_comm])]
      simp [Nat.mul_comm, hcol]
    · have hbefore : row < height := by omega
      rw [List.getElem?_append_left (by simpa using place_lt hcol hbefore), ih hbefore]

end Rows

/-! ### Digits of two bits -/

/-- The number of digits to base four, the least first. -/
def digitSum : List (Fin 4) → ℕ
  | [] => 0
  | d :: rest => d + 4 * digitSum rest

/-- Digits packed four to the byte from the low bits up; the last byte may have room. -/
def packFour : List (Fin 4) → Buffer
  | a :: b :: c :: d :: rest => UInt8.ofNat (digitSum [a, b, c, d]) :: packFour rest
  | [] => []
  | rest => [UInt8.ofNat (digitSum rest)]

theorem digitSum_lt (digits : List (Fin 4)) : digitSum digits < 4 ^ digits.length := by
  induction digits with
  | nil => exact Nat.one_pos
  | cons d rest ih =>
    rw [digitSum, List.length_cons, Nat.pow_succ]
    omega

/-- A digit is two bits of the number. -/
theorem digitSum_shiftRight {digits : List (Fin 4)} {j : ℕ} {d : Fin 4} (h : digits[j]? = some d) :
    (digitSum digits >>> (j * 2)) &&& 3 = d := by
  rw [show (3 : ℕ) = 2 ^ 2 - 1 from rfl, Nat.and_two_pow_sub_one_eq_mod]
  induction digits generalizing j with
  | nil => cases h
  | cons e rest ih =>
    cases j with
    | zero =>
      obtain rfl := Option.some.inj h
      rw [digitSum, Nat.zero_mul, Nat.shiftRight_zero]
      omega
    | succ j =>
      have hdrop : (e + 4 * digitSum rest) >>> 2 = digitSum rest := by
        rw [Nat.shiftRight_eq_div_pow]
        omega
      rw [digitSum, show (j + 1) * 2 = 2 + j * 2 by omega, Nat.shiftRight_add, hdrop]
      exact ih h

theorem toNat_byte {digits : List (Fin 4)} (h : digits.length ≤ 4) :
    (UInt8.ofNat (digitSum digits)).toNat = digitSum digits := by
  have hlt := digitSum_lt digits
  have hpow : 4 ^ digits.length ≤ 4 ^ 4 := Nat.pow_le_pow_right (by norm_num) h
  rw [UInt8.toNat_ofNat', Nat.mod_eq_of_lt (by omega)]

/-- The list that is packed into one byte with room is short. -/
theorem length_lt_four {digits : List (Fin 4)}
    (h : ∀ a b c d rest, digits = a :: b :: c :: d :: rest → False) : digits.length < 4 := by
  match digits with
  | [] | [_] | [_, _] | [_, _, _] => simp
  | a :: b :: c :: d :: rest => exact (h a b c d rest rfl).elim

theorem length_packFour (digits : List (Fin 4)) :
    (packFour digits).length = (digits.length + 3) / 4 := by
  fun_induction packFour digits with
  | case1 a b c d rest ih =>
    simp only [List.length_cons, ih]
    omega
  | case2 => rfl
  | case3 rest hfour hnil =>
    have hlt := length_lt_four hfour
    have hpos : 0 < rest.length := List.length_pos_iff.mpr hnil
    rw [List.length_singleton]
    omega

/-- A digit is in its byte, at its place. -/
theorem getElem?_packFour {digits : List (Fin 4)} {i : ℕ} {d : Fin 4} (h : digits[i]? = some d) :
    ∃ byte, (packFour digits)[i / 4]? = some byte ∧ (byte.toNat >>> (i % 4 * 2)) &&& 3 = d := by
  fun_induction packFour digits generalizing i with
  | case1 a b c d' rest ih =>
    by_cases hfirst : i < 4
    · have hfour : [a, b, c, d'][i]? = some d := by
        interval_cases i <;> exact h
      refine ⟨_, by rw [Nat.div_eq_of_lt hfirst]; rfl, ?_⟩
      rw [toNat_byte (by simp), Nat.mod_eq_of_lt hfirst]
      exact digitSum_shiftRight hfour
    · obtain ⟨i, rfl⟩ := Nat.exists_eq_add_of_le' (not_lt.mp hfirst)
      obtain ⟨byte, hbyte, hd⟩ := ih h
      refine ⟨byte, ?_, ?_⟩
      · rw [Nat.add_div_right i (by norm_num)]
        exact hbyte
      · rw [Nat.add_mod_right]
        exact hd
  | case2 => cases h
  | case3 rest hfour hnil =>
    have hlt := length_lt_four hfour
    have hin : i < rest.length := (List.getElem?_eq_some_iff.mp h).1
    refine ⟨_, by rw [Nat.div_eq_of_lt (by omega)]; rfl, ?_⟩
    rw [toNat_byte (by omega), Nat.mod_eq_of_lt (by omega)]
    exact digitSum_shiftRight h

end EufySdk.Grid
