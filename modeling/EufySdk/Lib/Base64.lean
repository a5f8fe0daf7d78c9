import Mathlib.Tactic
import EufySdk.Lib.Bytes

/-!
# Base64

Three bytes as four characters of six bits each, with `=` where the last group is short, and the
lenient reading of such a text: characters outside the alphabet are dropped, the URL-safe ones
are read like those they stand for, and bits that come to no byte are forgotten.

Main definitions:

- `digit`, `value` — a number of six bits as a character, and back
- `encode`, `decode` — bytes as characters, and back
- `decode_encode` — the round trip
-/

namespace Base64

open Bytes

def digit (n : ℕ) : Char :=
  if n < 26 then Char.ofNat (65 + n)
  else if n < 52 then Char.ofNat (97 + (n - 26))
  else if n < 62 then Char.ofNat (48 + (n - 52))
  else if n = 62 then '+'
  else '/'

def value (c : Char) : Option ℕ :=
  if 65 ≤ c.toNat ∧ c.toNat ≤ 90 then some (c.toNat - 65)
  else if 97 ≤ c.toNat ∧ c.toNat ≤ 122 then some (c.toNat - 97 + 26)
  else if 48 ≤ c.toNat ∧ c.toNat ≤ 57 then some (c.toNat - 48 + 52)
  else if c = '+' ∨ c = '-' then some 62
  else if c = '/' ∨ c = '_' then some 63
  else none

/-- Bytes as groups of six bits, four for three bytes. -/
def sextets : Buffer → List ℕ
  | [] => []
  | [a] => [a.toNat / 4, a.toNat % 4 * 16]
  | [a, b] => [a.toNat / 4, a.toNat % 4 * 16 + b.toNat / 16, b.toNat % 16 * 4]
  | a :: b :: c :: rest =>
    a.toNat / 4 :: (a.toNat % 4 * 16 + b.toNat / 16) :: (b.toNat % 16 * 4 + c.toNat / 64) ::
      (c.toNat % 64) :: sextets rest

/-- The whole bytes among groups of six bits. -/
def ofSextets : List ℕ → Buffer
  | a :: b :: c :: d :: rest =>
    UInt8.ofNat (a * 4 + b / 16) :: UInt8.ofNat (b % 16 * 16 + c / 4) ::
      UInt8.ofNat (c % 4 * 64 + d) :: ofSextets rest
  | [a, b, c] => [UInt8.ofNat (a * 4 + b / 16), UInt8.ofNat (b % 16 * 16 + c / 4)]
  | [a, b] => [UInt8.ofNat (a * 4 + b / 16)]
  | _ => []

/-- What a text is filled up with to whole groups. -/
def padding (length : ℕ) : List Char :=
  if length % 3 = 1 then ['=', '='] else if length % 3 = 2 then ['='] else []

def encode (b : Buffer) : List Char := (sextets b).map digit ++ padding b.length

def decode (text : List Char) : Buffer := ofSextets (text.filterMap value)

/-! ## Round trip -/

theorem value_digit {n : ℕ} (h : n < 64) : value (digit n) = some n := by
  have hall : ∀ k : Fin 64, value (digit k) = some k.val := by decide
  exact hall ⟨n, h⟩

theorem sextets_lt (b : Buffer) : ∀ n ∈ sextets b, n < 64 := by
  fun_induction sextets b with
  | case1 => exact nofun
  | case2 a =>
    have ha := a.toNat_lt
    intro n hn
    simp only [List.mem_cons, List.not_mem_nil, or_false] at hn
    omega
  | case3 a b =>
    have ha := a.toNat_lt
    have hb := b.toNat_lt
    intro n hn
    simp only [List.mem_cons, List.not_mem_nil, or_false] at hn
    omega
  | case4 a b c rest ih =>
    have ha := a.toNat_lt
    have hb := b.toNat_lt
    have hc := c.toNat_lt
    intro n hn
    simp only [List.mem_cons] at hn
    rcases hn with rfl | rfl | rfl | rfl | hn
    · omega
    · omega
    · omega
    · omega
    · exact ih n hn

theorem ofNat_of_toNat {a : UInt8} {n : ℕ} (h : n = a.toNat) : UInt8.ofNat n = a := by
  rw [h, UInt8.ofNat_toNat]

theorem ofSextets_sextets (b : Buffer) : ofSextets (sextets b) = b := by
  fun_induction sextets b with
  | case1 => rfl
  | case2 a =>
    have ha : UInt8.ofNat (a.toNat / 4 * 4 + a.toNat % 4 * 16 / 16) = a :=
      ofNat_of_toNat (by omega)
    rw [ofSextets, ha]
  | case3 a b =>
    have hb := b.toNat_lt
    have hfirst : UInt8.ofNat (a.toNat / 4 * 4 + (a.toNat % 4 * 16 + b.toNat / 16) / 16) = a :=
      ofNat_of_toNat (by omega)
    have hsecond : UInt8.ofNat
        ((a.toNat % 4 * 16 + b.toNat / 16) % 16 * 16 + b.toNat % 16 * 4 / 4) = b :=
      ofNat_of_toNat (by omega)
    rw [ofSextets, hfirst, hsecond]
  | case4 a b c rest ih =>
    have hb := b.toNat_lt
    have hc := c.toNat_lt
    have hfirst : UInt8.ofNat (a.toNat / 4 * 4 + (a.toNat % 4 * 16 + b.toNat / 16) / 16) = a :=
      ofNat_of_toNat (by omega)
    have hsecond : UInt8.ofNat
        ((a.toNat % 4 * 16 + b.toNat / 16) % 16 * 16 + (b.toNat % 16 * 4 + c.toNat / 64) / 4) =
          b := ofNat_of_toNat (by omega)
    have hthird : UInt8.ofNat ((b.toNat % 16 * 4 + c.toNat / 64) % 4 * 64 + c.toNat % 64) = c :=
      ofNat_of_toNat (by omega)
    rw [ofSextets, hfirst, hsecond, hthird, ih]

/-- Digits come back as their values, and what fills the text up comes to nothing. -/
theorem filterMap_value {digits : List ℕ} (h : ∀ n ∈ digits, n < 64) (length : ℕ) :
    (digits.map digit ++ padding length).filterMap value = digits := by
  have hpadding : (padding length).filterMap value = [] := by
    rw [padding]
    split_ifs <;> decide
  rw [List.filterMap_append, hpadding, List.append_nil]
  induction digits with
  | nil => rfl
  | cons n digits ih =>
    rw [List.map_cons, List.filterMap_cons_some (value_digit (h n List.mem_cons_self)),
      ih fun m hm => h m (List.mem_cons_of_mem n hm)]

/-- **Round trip.** -/
theorem decode_encode (b : Buffer) : decode (encode b) = b := by
  rw [decode, encode, filterMap_value (sextets_lt b), ofSextets_sextets]

theorem length_sextets (b : Buffer) : b.length ≤ (sextets b).length := by
  fun_induction sextets b with
  | case1 => exact le_refl _
  | case2 a => exact Nat.le_succ _
  | case3 a b => exact Nat.le_succ _
  | case4 a b c rest ih =>
    simp only [List.length_cons]
    omega

/-- A text is not shorter than the bytes it stands for. -/
theorem length_le_encode (b : Buffer) : b.length ≤ (encode b).length := by
  have hsextets := length_sextets b
  rw [encode, List.length_append, List.length_map]
  omega

example : String.ofList (encode [77, 97]) = "TWE=" := by decide

end Base64
