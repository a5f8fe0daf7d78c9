import Mathlib.Tactic
import EufySdk.Lib.Bytes

/-!
# Hexadecimal text

Two digits a byte, in lower case when written and in either case when read. Reading stops at
the first pair that is no byte.

- `encode`, `decode` — bytes as text, and back
- `decode_encode` — the round trip
-/

namespace Hex

open Bytes

/-- The digit of a number below 16. -/
def digit (n : ℕ) : Char := Char.ofNat (if n < 10 then 48 + n else 87 + n)

def value? (c : Char) : Option ℕ :=
  let n := c.toNat
  if 48 ≤ n ∧ n ≤ 57 then some (n - 48)
  else if 97 ≤ n ∧ n ≤ 102 then some (n - 87)
  else if 65 ≤ n ∧ n ≤ 70 then some (n - 55)
  else none

def encode : Buffer → List Char
  | [] => []
  | b :: bytes => digit (b.toNat / 16) :: digit (b.toNat % 16) :: encode bytes

def decode : List Char → Buffer
  | high :: low :: rest =>
    match value? high, value? low with
    | some h, some l => UInt8.ofNat (16 * h + l) :: decode rest
    | _, _ => []
  | _ => []

theorem value?_digit {n : ℕ} (h : n < 16) : value? (digit n) = some n := by
  interval_cases n <;> decide

/-- **Text written is read back.** -/
theorem decode_encode (bytes : Buffer) : decode (encode bytes) = bytes := by
  induction bytes with
  | nil => rfl
  | cons b bytes ih =>
    have hb : b.toNat < 256 := b.toNat_lt
    rw [encode, decode, value?_digit (by omega), value?_digit (by omega)]
    dsimp only
    rw [ih, show 16 * (b.toNat / 16) + b.toNat % 16 = b.toNat by omega, UInt8.ofNat_toNat]

theorem length_encode (bytes : Buffer) : (encode bytes).length = 2 * bytes.length := by
  induction bytes with
  | nil => rfl
  | cons b bytes ih =>
    rw [encode, List.length_cons, List.length_cons, ih, List.length_cons]
    omega

/-- A digit that is read is the digit of its value, in lower case. -/
theorem digit_value? {c : Char} {n : ℕ} (h : value? c = some n) : n < 16 ∧ digit n = c.toLower := by
  have hc : c = Char.ofNat c.toNat := (Char.ofNat_toNat c).symm
  rw [value?] at h
  generalize c.toNat = k at h hc
  subst hc
  split_ifs at h with hdecimal hlower hupper
  · obtain ⟨hlow, hhigh⟩ := hdecimal
    obtain rfl := Option.some.inj h
    interval_cases k <;> decide
  · obtain ⟨hlow, hhigh⟩ := hlower
    obtain rfl := Option.some.inj h
    interval_cases k <;> decide
  · obtain ⟨hlow, hhigh⟩ := hupper
    obtain rfl := Option.some.inj h
    interval_cases k <;> decide

/-- **Clean text is read whole**: its bytes are written as the same digits, in lower case. -/
theorem encode_decode : ∀ {text : List Char}, text.length % 2 = 0 →
    (∀ c ∈ text, (value? c).isSome) → encode (decode text) = text.map Char.toLower
  | [], _, _ => rfl
  | [_], heven, _ => absurd heven (by simp)
  | high :: low :: rest, heven, hclean => by
    obtain ⟨h, hh⟩ := Option.isSome_iff_exists.mp (hclean high List.mem_cons_self)
    obtain ⟨l, hl⟩ := Option.isSome_iff_exists.mp
      (hclean low (List.mem_cons_of_mem _ List.mem_cons_self))
    obtain ⟨hhigh, hhighDigit⟩ := digit_value? hh
    obtain ⟨hlow, hlowDigit⟩ := digit_value? hl
    have hbyte : (UInt8.ofNat (16 * h + l)).toNat = 16 * h + l := by
      rw [UInt8.toNat_ofNat']
      omega
    have hrest : encode (decode rest) = rest.map Char.toLower :=
      encode_decode (by simp at heven; omega) fun c hc =>
        hclean c (List.mem_cons_of_mem _ (List.mem_cons_of_mem _ hc))
    rw [decode, hh, hl]
    dsimp only
    rw [encode, hbyte, hrest, show (16 * h + l) / 16 = h by omega,
      show (16 * h + l) % 16 = l by omega, hhighDigit, hlowDigit]
    rfl

end Hex
