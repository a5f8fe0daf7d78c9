import Mathlib.Tactic
import EufySdk.Lib.Lz4

/-!
# Decompressing a plane

`lz4BlockDecompress` of `core/lz4-block.ts`: one loop over a block, which gives nothing on a block
that runs out, reaches back too far or does not come to the size that was asked for.

- `lz4BlockDecompress_bytes` — a well-formed block gives its output
-/

namespace EufySdk

open Bytes

/-- The most output that is put out. -/
def MAX_OUTPUT : ℕ := 64 * 1024 * 1024

/-- The bytes that extend a length, to the first below 255. -/
def extendLoop : ℕ → Buffer → Option (ℕ × Buffer)
  | _, [] => none
  | len, extra :: rest =>
    if extra ≠ 0xff then some (len + extra.toNat, rest) else extendLoop (len + extra.toNat) rest

/-- `extend`: a length that starts with a nibble, and the bytes behind it. -/
def extend (base : ℕ) (rest : Buffer) : Option (ℕ × Buffer) :=
  if base ≠ 15 then some (base, rest) else extendLoop base rest

/-- As many rounds of the loop as the first argument says, over what is left of the block. -/
def lz4Loop (size : ℕ) : ℕ → Buffer → Buffer → Option Buffer
  | _, [], out => some out
  | 0, _ :: _, _ => none
  | rounds + 1, token :: rest, out => do
    let (literals, rest) ← extend (token.toNat >>> 4) rest
    if literals > rest.length ∨ out.length + literals > size then none
    else
      let out := out ++ rest.take literals
      match rest.drop literals with
      -- a block ends on its literal run
      | [] => some out
      | [_] => none
      | low :: high :: rest =>
        let offset := low.toNat ||| high.toNat <<< 8
        if offset = 0 ∨ offset > out.length then none
        else do
          let (matched, rest) ← extend (token.toNat &&& 0xf) rest
          let length := matched + 4
          if out.length + length > size then none
          else lz4Loop size rounds rest (Lz4.copyMatch offset length out)

/-- The output of a block, if it comes to the size; a round takes a byte at least. -/
def lz4BlockDecompress (block : Buffer) (size : ℤ) : Option Buffer :=
  if size < 0 ∨ size > MAX_OUTPUT then none
  else do
    let out ← lz4Loop size.toNat block.length block []
    if out.length = size then some out else none

/-- What comes out is of the size that was asked for. -/
theorem length_lz4BlockDecompress {block out : Buffer} {size : ℤ}
    (h : lz4BlockDecompress block size = some out) : out.length = size := by
  rw [lz4BlockDecompress] at h
  split_ifs at h
  obtain ⟨out', -, hsize⟩ := Option.bind_eq_some_iff.mp h
  split_ifs at hsize with heq
  exact Option.some.inj hsize ▸ heq

/-! ### Well-formed blocks -/

open Lz4

theorem extendLoop_extension (len n : ℕ) (rest : Buffer) :
    extendLoop len (extension n ++ rest) = some (len + n, rest) := by
  have hchain (k len m : ℕ) (hm : m < 255) :
      extendLoop len (List.replicate k 255 ++ ([UInt8.ofNat m] ++ rest)) =
        some (len + (255 * k + m), rest) := by
    induction k generalizing len with
    | zero =>
      have hbyte : (UInt8.ofNat m).toNat = m := by
        rw [UInt8.toNat_ofNat']
        omega
      have hne : UInt8.ofNat m ≠ 0xff := by
        intro h
        have := congrArg UInt8.toNat h
        rw [hbyte] at this
        exact absurd this (by simp; omega)
      simp [extendLoop, hne, hbyte]
    | succ k ih =>
      rw [List.replicate_succ, List.cons_append, extendLoop, if_neg (by simp), ih]
      simp only [Option.some.injEq, Prod.mk.injEq, and_true, UInt8.reduceToNat]
      omega
  rw [extension, List.append_assoc, hchain _ _ _ (Nat.mod_lt n (by norm_num)), Nat.div_add_mod]

/-- A length is read back from its nibble and the bytes behind. -/
theorem extend_nibble (n : ℕ) (rest : Buffer) :
    extend (nibble n) (lengthBytes n ++ rest) = some (n, rest) := by
  rw [extend, lengthBytes]
  by_cases h : n < 15
  · have hnibble : nibble n = n := min_eq_left (by omega)
    rw [hnibble, if_pos (by omega), if_pos h]
    rfl
  · have hnibble : nibble n = 15 := min_eq_right (by omega)
    rw [hnibble, if_neg (by simp), if_neg h, extendLoop_extension]
    simp only [Option.some.injEq, Prod.mk.injEq, and_true]
    omega

theorem or_shiftLeft_uint16LE {offset : ℕ} (h : offset < 2 ^ 16) :
    (UInt8.ofNat offset).toNat ||| (UInt8.ofNat (offset / 256)).toNat <<< 8 = offset := by
  have hlow : (UInt8.ofNat offset).toNat < 2 ^ 8 := (UInt8.ofNat offset).toNat_lt
  rw [Nat.or_comm, Nat.shiftLeft_eq, Nat.mul_comm, ← Nat.two_pow_add_eq_or_of_lt hlow]
  simp only [UInt8.toNat_ofNat']
  omega

/-- One round takes one sequence. -/
theorem lz4Loop_sequence {size rounds : ℕ} (s : Sequence) {out rest : Buffer}
    (hoffset : 0 < s.offset) (hrange : s.offset < 2 ^ 16)
    (hreach : s.offset ≤ out.length + s.literals.length)
    (hsize : out.length + s.literals.length + s.matchLength ≤ size) :
    lz4Loop size (rounds + 1) (s.bytes ++ rest) out =
      lz4Loop size rounds rest (copyMatch s.offset s.matchLength (out ++ s.literals)) := by
  have hbytes : s.bytes ++ rest = token s.literals.length s.matched ::
      (lengthBytes s.literals.length ++ (s.literals ++ (UInt8.ofNat s.offset ::
        UInt8.ofNat (s.offset / 256) :: (lengthBytes s.matched ++ rest)))) := by
    simp [Sequence.bytes, uint16LE]
  rw [Sequence.matchLength, MIN_MATCH] at hsize
  rw [hbytes, lz4Loop, token_shiftRight, extend_nibble]
  simp only [Option.bind_eq_bind, Option.bind_some]
  rw [if_neg (by simp; omega)]
  simp only [List.take_left, List.drop_left, or_shiftLeft_uint16LE hrange]
  rw [if_neg (by simp; omega), token_and, extend_nibble]
  simp only [Option.bind_some]
  rw [if_neg (by simp; omega), Sequence.matchLength, MIN_MATCH]

/-- The round over the last sequence leaves the loop. -/
theorem lz4Loop_last {size rounds : ℕ} (b : Block) (low : Fin 16) {out : Buffer}
    (hsize : out.length + b.last.length ≤ size) :
    lz4Loop size (rounds + 1) (b.lastBytesWith low) out = some (out ++ b.last) := by
  have hend := extend_nibble b.last.length b.last
  have hlow : (low : ℕ) ≤ 15 := Nat.le_of_lt_succ low.isLt
  rw [Block.lastBytesWith, lz4Loop, halves_shiftRight (nibble_le _) hlow, hend]
  simp only [Option.bind_eq_bind, Option.bind_some]
  rw [if_neg (by simp; omega)]
  simp

theorem lz4Loop_sequences {size : ℕ} (b : Block) (low : Fin 16) : ∀ (sequences : List Sequence) (out : Buffer)
    (rounds : ℕ), ReachBack sequences out.length →
      (expand sequences out).length + b.last.length ≤ size → sequences.length < rounds →
        lz4Loop size rounds (sequences.flatMap Sequence.bytes ++ b.lastBytesWith low) out =
          some (expand sequences out ++ b.last) := by
  intro sequences
  induction sequences with
  | nil =>
    intro out rounds _ hsize hrounds
    obtain ⟨rounds, rfl⟩ := Nat.exists_eq_add_one.mpr hrounds
    exact lz4Loop_last b low hsize
  | cons s rest ih =>
    intro out rounds hreach hsize hrounds
    obtain ⟨rounds, rfl⟩ := Nat.exists_eq_add_one.mpr (Nat.zero_lt_of_lt hrounds)
    obtain ⟨hoffset, hrange, hback, hrest⟩ := hreach
    have hlength : (copyMatch s.offset s.matchLength (out ++ s.literals)).length =
        out.length + s.literals.length + s.matchLength := by simp
    have hgrows := length_le_expand rest (copyMatch s.offset s.matchLength (out ++ s.literals))
    rw [expand] at hsize
    rw [List.flatMap_cons, List.append_assoc, lz4Loop_sequence s hoffset hrange hback (by omega)]
    exact ih _ rounds (hlength ▸ hrest) hsize (by simp at hrounds; omega)

/-- **A well-formed block gives its output**, if it is asked for at its size. -/
theorem lz4BlockDecompress_bytesWith {b : Block} (low : Fin 16) (hb : b.WellFormed)
    (hsize : b.output.length ≤ MAX_OUTPUT) :
    lz4BlockDecompress (b.bytesWith low) b.output.length = some b.output := by
  have hrounds : b.sequences.length < (b.bytesWith low).length := by
    have hsequences := Lz4.length_le_flatMap_bytes b.sequences
    rw [Block.bytesWith, Block.lastBytesWith, List.length_append, List.length_cons]
    omega
  have hfits : (expand b.sequences []).length + b.last.length ≤ b.output.length := by
    simp [Block.output]
  have hloop := lz4Loop_sequences b low b.sequences [] (b.bytesWith low).length hb hfits hrounds
  rw [← Block.bytesWith, ← Block.output] at hloop
  rw [lz4BlockDecompress, if_neg (by omega), Int.toNat_natCast, hloop]
  simp

theorem lz4BlockDecompress_bytes {b : Block} (hb : b.WellFormed)
    (hsize : b.output.length ≤ MAX_OUTPUT) :
    lz4BlockDecompress b.bytes b.output.length = some b.output :=
  lz4BlockDecompress_bytesWith 0 hb hsize

end EufySdk
