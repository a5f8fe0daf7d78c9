import Mathlib.Tactic
import EufySdk.Lib.Bytes

/-!
# LZ4 blocks

A block is a run of sequences, each some literal bytes and a match that repeats what was put out
before, possibly into itself; the last ends on its literals. A length is a nibble of the token, and
behind a full nibble as many bytes as it takes.

- `Block.bytes` — a block as it is sent
- `Block.output` — what it stands for
- `Block.WellFormed` — every match reaches back to something that was put out
-/

namespace EufySdk.Lz4

open Bytes

/-- The part of a length that is in the token. -/
def nibble (n : ℕ) : ℕ := min n 15

/-- The part of a length that a full nibble leaves: bytes of 255 and one below. -/
def extension (n : ℕ) : Buffer := List.replicate (n / 255) 255 ++ [UInt8.ofNat (n % 255)]

def lengthBytes (n : ℕ) : Buffer := if n < 15 then [] else extension (n - 15)

def token (literals matched : ℕ) : UInt8 := UInt8.ofNat (nibble literals * 16 + nibble matched)

/-- A match has four bytes more than its length says. -/
def MIN_MATCH : ℕ := 4

structure Sequence where
  literals : Buffer
  offset : ℕ
  matched : ℕ

namespace Sequence

variable (s : Sequence)

def matchLength : ℕ := s.matched + MIN_MATCH

def bytes : Buffer :=
  token s.literals.length s.matched ::
    (lengthBytes s.literals.length ++ s.literals ++ uint16LE s.offset ++ lengthBytes s.matched)

end Sequence

/-- As many bytes as the length says, each the one that the offset reaches back to. -/
def copyMatch (offset : ℕ) : ℕ → Buffer → Buffer
  | 0, out => out
  | length + 1, out => copyMatch offset length (out ++ [out.getD (out.length - offset) 0])

@[simp]
theorem length_copyMatch (offset length : ℕ) (out : Buffer) :
    (copyMatch offset length out).length = out.length + length := by
  induction length generalizing out with
  | zero => rfl
  | succ length ih =>
    rw [copyMatch, ih, List.length_append, List.length_singleton]
    omega

/-- The output after sequences, behind what there was. -/
def expand : List Sequence → Buffer → Buffer
  | [], out => out
  | s :: rest, out => expand rest (copyMatch s.offset s.matchLength (out ++ s.literals))

/-- The matches of sequences are of bytes that were put out, with so many before the first. -/
def ReachBack : List Sequence → ℕ → Prop
  | [], _ => True
  | s :: rest, written =>
    0 < s.offset ∧ s.offset < 2 ^ 16 ∧ s.offset ≤ written + s.literals.length ∧
      ReachBack rest (written + s.literals.length + s.matchLength)

theorem length_le_expand (sequences : List Sequence) (out : Buffer) :
    out.length ≤ (expand sequences out).length := by
  induction sequences generalizing out with
  | nil => exact le_rfl
  | cons s rest ih =>
    refine le_trans ?_ (ih _)
    rw [length_copyMatch, List.length_append]
    omega

/-- A sequence takes a byte at least. -/
theorem length_le_flatMap_bytes (sequences : List Sequence) :
    sequences.length ≤ (sequences.flatMap Sequence.bytes).length := by
  induction sequences with
  | nil => exact le_rfl
  | cons s rest ih =>
    rw [List.flatMap_cons, List.length_append, List.length_cons, Sequence.bytes, List.length_cons]
    omega

structure Block where
  sequences : List Sequence
  last : Buffer

namespace Block

variable (b : Block)

/-- The sequence that ends on its literals. -/
def lastBytes : Buffer := token b.last.length 0 :: (lengthBytes b.last.length ++ b.last)

def bytes : Buffer := (b.sequences.flatMap Sequence.bytes) ++ b.lastBytes

/-- The sequence that ends on its literals, with any low half in its token: no match is left that
it could say the length of. -/
def lastBytesWith (low : Fin 16) : Buffer :=
  UInt8.ofNat (nibble b.last.length * 16 + low) :: (lengthBytes b.last.length ++ b.last)

def bytesWith (low : Fin 16) : Buffer := (b.sequences.flatMap Sequence.bytes) ++ b.lastBytesWith low

def output : Buffer := expand b.sequences [] ++ b.last

def WellFormed : Prop := ReachBack b.sequences 0

end Block

/-! ### A token -/

theorem nibble_le (n : ℕ) : nibble n ≤ 15 := min_le_right n 15

theorem toNat_token (literals matched : ℕ) :
    (token literals matched).toNat = nibble literals * 16 + nibble matched := by
  have hliterals := nibble_le literals
  have hmatched := nibble_le matched
  rw [token, UInt8.toNat_ofNat', Nat.mod_eq_of_lt (by omega)]

/-- The high half of two in a byte. -/
theorem halves_shiftRight {high low : ℕ} (hhigh : high ≤ 15) (hlow : low ≤ 15) :
    (UInt8.ofNat (high * 16 + low)).toNat >>> 4 = high := by
  rw [UInt8.toNat_ofNat', Nat.shiftRight_eq_div_pow]
  omega

/-- The high half of a token is the literals' nibble. -/
theorem token_shiftRight (literals matched : ℕ) :
    (token literals matched).toNat >>> 4 = nibble literals :=
  halves_shiftRight (nibble_le literals) (nibble_le matched)

/-- The low half of a token is the match's. -/
theorem token_and (literals matched : ℕ) :
    (token literals matched).toNat &&& 0xf = nibble matched := by
  have hmatched := nibble_le matched
  rw [toNat_token, show (0xf : ℕ) = 2 ^ 4 - 1 from rfl, Nat.and_two_pow_sub_one_eq_mod]
  omega

end EufySdk.Lz4
