import Mathlib.Tactic
import EufySdk.Lib.Bytes

/-!
# Base-128 varints

A number as groups of seven bits, lowest group first, where every byte but the last one has its
high bit set. The encoding of a number is recognisable from its start: no encoding is the start
of another one, and bytes that all have the high bit set are an encoding cut short.

Main definitions:

- `encode`, `decode` — a number as bytes, and the number at the start of a byte string
- `zigzag`, `unzigzag` — signed numbers as natural ones, small ones small
-/

namespace Varint

open Bytes

/-- The groups of a number, of which there are at most one more than the first argument. -/
def groups : ℕ → ℕ → Buffer
  | 0, n => [UInt8.ofNat n]
  | fuel + 1, n =>
    if n < 128 then [UInt8.ofNat n] else UInt8.ofNat (n % 128 + 128) :: groups fuel (n / 128)

/-- A number as a varint. -/
def encode (n : ℕ) : Buffer := groups n n

/-- The number at the start of a byte string, and the bytes behind it. -/
def decode : Buffer → Option (ℕ × Buffer)
  | [] => none
  | b :: rest =>
    if b < 128 then some (b.toNat, rest)
    else (decode rest).map fun r => (b.toNat - 128 + 128 * r.1, r.2)

/-- Groups beyond those of the number are never asked for. -/
theorem groups_fuel {fuel n : ℕ} (h : n ≤ fuel) : groups fuel n = groups n n := by
  induction fuel using Nat.strong_induction_on generalizing n with
  | _ fuel ih =>
    cases fuel with
    | zero =>
      obtain rfl := Nat.le_zero.mp h
      rfl
    | succ fuel =>
      cases n with
      | zero => rfl
      | succ n =>
        by_cases hsmall : n + 1 < 128
        · simp only [groups, if_pos hsmall]
        · have hleft : groups fuel ((n + 1) / 128) = groups ((n + 1) / 128) ((n + 1) / 128) :=
            ih fuel (by omega) (by omega)
          have hright : groups n ((n + 1) / 128) = groups ((n + 1) / 128) ((n + 1) / 128) :=
            ih n (by omega) (by omega)
          simp only [groups, if_neg hsmall, hleft, hright]

theorem encode_of_lt {n : ℕ} (h : n < 128) : encode n = [UInt8.ofNat n] := by
  cases n with
  | zero => rfl
  | succ n => exact if_pos h

theorem encode_of_ge {n : ℕ} (h : 128 ≤ n) :
    encode n = UInt8.ofNat (n % 128 + 128) :: encode (n / 128) := by
  cases n with
  | zero => omega
  | succ n =>
    have hfuel : groups n ((n + 1) / 128) = encode ((n + 1) / 128) := groups_fuel (by omega)
    rw [encode, groups, if_neg (by omega), hfuel]

/-- All bytes but the last one say that the number goes on. -/
theorem encode_eq (n : ℕ) :
    ∃ (front : Buffer) (last : UInt8), encode n = front ++ [last] ∧ (∀ b ∈ front, 128 ≤ b) ∧
      last < 128 := by
  induction n using Nat.strong_induction_on with
  | _ n ih =>
    by_cases h : n < 128
    · refine ⟨[], UInt8.ofNat n, encode_of_lt h, nofun, ?_⟩
      rw [UInt8.lt_iff_toNat_lt, UInt8.toNat_ofNat']
      exact lt_of_le_of_lt (Nat.mod_le _ _) h
    · obtain ⟨front, last, heq, hfront, hlast⟩ := ih (n / 128) (by omega)
      refine ⟨UInt8.ofNat (n % 128 + 128) :: front, last, ?_, ?_, hlast⟩
      · rw [encode_of_ge (by omega), heq]
        rfl
      · intro b hb
        rcases List.mem_cons.mp hb with rfl | hb
        · rw [UInt8.le_iff_toNat_le, UInt8.toNat_ofNat']
          change 128 ≤ (n % 128 + 128) % 256
          omega
        · exact hfront b hb

theorem encode_ne_nil (n : ℕ) : encode n ≠ [] := by
  obtain ⟨front, last, heq, -⟩ := encode_eq n
  simp [heq]

theorem length_encode_pos (n : ℕ) : 0 < (encode n).length :=
  List.length_pos_of_ne_nil (encode_ne_nil n)

/-- **Round trip.** An encoded number is read back, whatever comes behind it. -/
theorem decode_encode (n : ℕ) (rest : Buffer) : decode (encode n ++ rest) = some (n, rest) := by
  induction n using Nat.strong_induction_on with
  | _ n ih =>
    by_cases h : n < 128
    · have hbyte : (UInt8.ofNat n).toNat = n := by
        rw [UInt8.toNat_ofNat']
        omega
      have hlast : UInt8.ofNat n < 128 := by
        rw [UInt8.lt_iff_toNat_lt, hbyte]
        exact h
      rw [encode_of_lt h, List.singleton_append, decode, if_pos hlast, hbyte]
    · have hbyte : (UInt8.ofNat (n % 128 + 128)).toNat = n % 128 + 128 := by
        rw [UInt8.toNat_ofNat']
        omega
      have hmore : ¬UInt8.ofNat (n % 128 + 128) < 128 := by
        rw [UInt8.lt_iff_toNat_lt, hbyte]
        change ¬n % 128 + 128 < 128
        omega
      rw [encode_of_ge (by omega), List.cons_append, decode, if_neg hmore, ih (n / 128) (by omega),
        Option.map_some, hbyte]
      have hvalue : n % 128 + 128 - 128 + 128 * (n / 128) = n := by omega
      rw [hvalue]

/-- The number and what is behind it are settled by the bytes. -/
theorem encode_append_inj {m n : ℕ} {a b : Buffer} (h : encode m ++ a = encode n ++ b) :
    m = n ∧ a = b := by
  have hdecode := decode_encode m a
  rw [h, decode_encode, Option.some.injEq, Prod.mk.injEq] at hdecode
  exact ⟨hdecode.1.symm, hdecode.2.symm⟩

/-- Bytes that all say that the number goes on hold no number. -/
theorem decode_of_continues {bytes : Buffer} (h : ∀ b ∈ bytes, 128 ≤ b) : decode bytes = none := by
  induction bytes with
  | nil => rfl
  | cons b rest ih =>
    have hb : ¬b < 128 := UInt8.not_lt.mpr (h b List.mem_cons_self)
    rw [decode, if_neg hb, ih fun c hc => h c (List.mem_cons_of_mem b hc), Option.map_none]

/-- An encoding that is cut short says at each byte that the number goes on. -/
theorem continues_of_part {n : ℕ} {bytes : Buffer} (h : bytes <+: encode n)
    (hshort : bytes.length < (encode n).length) : ∀ b ∈ bytes, 128 ≤ b := by
  obtain ⟨front, last, heq, hfront, -⟩ := encode_eq n
  rw [heq] at h hshort
  rw [List.length_append, List.length_singleton] at hshort
  have hpart : bytes <+: front :=
    List.prefix_of_prefix_length_le h (List.prefix_append front [last]) (by omega)
  exact fun b hb => hfront b (hpart.subset hb)

/-- What a string that starts with an encoding begins with: a part of the encoding, or all
of it. -/
theorem split_encode {n : ℕ} {bytes rest more : Buffer} (h : bytes ++ rest = encode n ++ more) :
    (bytes <+: encode n ∧ bytes.length < (encode n).length) ∨
      ∃ tail, bytes = encode n ++ tail ∧ tail ++ rest = more := by
  rcases List.append_eq_append_iff.mp h with ⟨tail, hencode, hrest⟩ | ⟨tail, hbytes, hmore⟩
  · cases tail with
    | nil =>
      right
      exact ⟨[], by simpa using hencode.symm, by simpa using hrest⟩
    | cons b tail =>
      left
      refine ⟨⟨b :: tail, hencode.symm⟩, ?_⟩
      rw [hencode, List.length_append, List.length_cons]
      omega
  · exact .inr ⟨tail, hbytes, hmore.symm⟩

/-! ## Signed numbers -/

/-- The `n`-th number in `0, -1, 1, -2, 2, …` is found at `n`. -/
def zigzag (v : ℤ) : ℕ := if v < 0 then (-2 * v - 1).toNat else (2 * v).toNat

def unzigzag (n : ℕ) : ℤ := if n % 2 = 0 then n / 2 else -((n + 1) / 2)

theorem unzigzag_zigzag (v : ℤ) : unzigzag (zigzag v) = v := by
  rw [zigzag]
  split
  · rw [unzigzag, if_neg (by omega)]
    omega
  · rw [unzigzag, if_pos (by omega)]
    omega

example : encode 300 = [0xac, 0x02] := by decide

end Varint
