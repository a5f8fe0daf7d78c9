import Mathlib.Tactic
import EufySdk.Lib.Checked
import EufySdk.Core.Lz4Block
import EufySdk.Core.Scalar

/-!
# Decompression over memory

`lz4BlockDecompress` of `core/lz4-block.ts` as it runs: one place in the block, one in a buffer of
the size that was asked for, every byte read and written by its index. No access is out of bounds
and no loop goes on for ever, whatever the block and the size are; what comes out is what comes out
of the blocks as strings of bytes.

- `Lz4State` — the variables of the function
- `lz4Decompress` — the function
- `Holds` — what the variables stand for
- `lz4Decompress_refines` — it does what `lz4BlockDecompress` does
-/

namespace EufySdk

open Bytes Checked

/-- `Number.isSafeInteger(n)`. -/
def JsNumber.isSafeInteger : JsNumber → Bool
  | .finite q => q.den = 1 ∧ |q| ≤ 2 ^ 53 - 1
  | _ => false

/-- The place in the block, the buffer, and how much of it is written. -/
structure Lz4State where
  pos : ℕ
  out : Buffer
  written : ℕ

namespace Lz4State

/-- `block[pos++]`. -/
def next (block : Buffer) (s : Lz4State) : Run (UInt8 × Lz4State) := do
  let byte ← read block s.pos
  pure (byte, { s with pos := s.pos + 1 })

/-- `out[written++] = byte`. -/
def put (s : Lz4State) (byte : UInt8) : Run Lz4State := do
  let out ← write s.out s.written byte
  pure { s with out, written := s.written + 1 }

/-- `out[source]`, of the bytes that are written. -/
def produced (s : Lz4State) (source : ℕ) : Run UInt8 := read (s.out.take s.written) source

/-- The loop of `extend`. -/
def extendLoop (block : Buffer) : ℕ → ℕ → Lz4State → Run (ℕ × Lz4State)
  | 0, _, _ => .error .outOfSteps
  | steps + 1, len, s =>
    if s.pos ≥ block.length then .error .rejected
    else do
      let (extra, s) ← s.next block
      if extra ≠ 0xff then pure (len + extra.toNat, s)
      else extendLoop block steps (len + extra.toNat) s

def extend (block : Buffer) (base : ℕ) (s : Lz4State) : Run (ℕ × Lz4State) :=
  if base ≠ 15 then pure (base, s) else extendLoop block (block.length + 1) base s

def copyLiterals (block : Buffer) : ℕ → Lz4State → Run Lz4State
  | 0, s => pure s
  | literals + 1, s => do
    let (byte, s) ← s.next block
    let s ← s.put byte
    copyLiterals block literals s

def copyMatch : ℕ → ℕ → Lz4State → Run Lz4State
  | 0, _, s => pure s
  | length + 1, source, s => do
    let byte ← s.produced source
    let s ← s.put byte
    copyMatch length (source + 1) s

/-- As many rounds of the loop as the first argument says. -/
def loop (block : Buffer) (size : ℕ) : ℕ → Lz4State → Run Lz4State
  | 0, _ => .error .outOfSteps
  | rounds + 1, s =>
    if s.pos ≥ block.length then pure s
    else do
      let (token, s) ← s.next block
      let (literals, s) ← s.extend block (token.toNat >>> 4)
      if s.pos + literals > block.length ∨ s.written + literals > size then .error .rejected
      else do
        let s ← copyLiterals block literals s
        if s.pos = block.length then pure s
        else if s.pos + 2 > block.length then .error .rejected
        else do
          let (low, s) ← s.next block
          let (high, s) ← s.next block
          let offset := low.toNat ||| high.toNat <<< 8
          if offset = 0 ∨ offset > s.written then .error .rejected
          else do
            let (matched, s) ← s.extend block (token.toNat &&& 0xf)
            let length := matched + 4
            if s.written + length > size then .error .rejected
            else do
              let s ← copyMatch length (s.written - offset) s
              loop block size rounds s

end Lz4State

/-- `undefined` is a computation that gives up. -/
def lz4Decompress (block : Buffer) (size : JsNumber) : Run Buffer :=
  if size.isSafeInteger = false ∨ size.lt (.finite 0) ∨ JsNumber.lt (.finite MAX_OUTPUT) size then
    .error .rejected
  else do
    let length := (size.finite?.getD 0).num.toNat
    let s ← Lz4State.loop block length (block.length + 1) ⟨0, List.replicate length 0, 0⟩
    if s.written = length then pure s.out else .error .rejected

/-! ### What the variables stand for -/

/-- The rest of the block and the output so far, as strings of bytes. -/
structure Holds (block : Buffer) (size : ℕ) (rest out : Buffer) (s : Lz4State) : Prop where
  pos_le : s.pos ≤ block.length
  rest_eq : block.drop s.pos = rest
  length_out : s.out.length = size
  written_le : s.written ≤ size
  out_eq : s.out.take s.written = out

namespace Holds

variable {block : Buffer} {size : ℕ} {rest out : Buffer} {s : Lz4State}

theorem length_rest (h : Holds block size rest out s) : rest.length = block.length - s.pos := by
  rw [← h.rest_eq, List.length_drop]

theorem written_eq (h : Holds block size rest out s) : s.written = out.length := by
  rw [← h.out_eq, List.length_take, h.length_out]
  exact (min_eq_left h.written_le).symm

/-- The place is at the end of the block where nothing is left. -/
theorem at_end_iff (h : Holds block size rest out s) : s.pos ≥ block.length ↔ rest = [] := by
  have hlength := h.length_rest
  have hle := h.pos_le
  rw [← List.length_eq_zero_iff]
  omega

theorem next {byte : UInt8} (h : Holds block size (byte :: rest) out s) :
    s.next block = .ok (byte, { s with pos := s.pos + 1 }) ∧
      Holds block size rest out { s with pos := s.pos + 1 } := by
  have hlength := h.length_rest
  rw [List.length_cons] at hlength
  have hbyte : block[s.pos]? = some byte := by
    have hhead := congrArg List.head? h.rest_eq
    rwa [List.head?_drop, List.head?_cons] at hhead
  refine ⟨?_, ?_⟩
  · rw [Lz4State.next, read_of_lt hbyte]
    rfl
  · refine ⟨?_, ?_, h.length_out, h.written_le, h.out_eq⟩
    · dsimp only
      omega
    · rw [← List.drop_drop, h.rest_eq, List.drop_succ_cons, List.drop_zero]

theorem put (h : Holds block size rest out s) (byte : UInt8) (hroom : out.length < size) :
    ∃ s', s.put byte = .ok s' ∧ Holds block size rest (out ++ [byte]) s' := by
  have hwritten := h.written_eq
  have hlength := h.length_out
  refine ⟨{ s with out := s.out.set s.written byte, written := s.written + 1 }, ?_, ?_⟩
  · rw [Lz4State.put, write_of_lt byte (by omega)]
    rfl
  · refine ⟨h.pos_le, h.rest_eq, ?_, ?_, ?_⟩
    · rw [List.length_set, hlength]
    · dsimp only
      omega
    · dsimp only
      rw [List.take_add_one, List.take_set_of_le le_rfl, h.out_eq,
        List.getElem?_set_self (by omega), Option.toList_some]

theorem produced (h : Holds block size rest out s) {i : ℕ} (hi : i < out.length) :
    s.produced i = .ok (out.getD i 0) := by
  rw [Lz4State.produced, h.out_eq]
  refine read_of_lt ?_
  rw [List.getD_eq_getElem?_getD, List.getElem?_eq_getElem hi]
  rfl

/-- The literals go from the block to the output. -/
theorem copyLiterals {literals : ℕ} (h : Holds block size rest out s)
    (hliterals : literals ≤ rest.length) (hroom : out.length + literals ≤ size) :
    ∃ s', s.copyLiterals block literals = .ok s' ∧
      Holds block size (rest.drop literals) (out ++ rest.take literals) s' := by
  induction literals generalizing rest out s with
  | zero =>
    refine ⟨s, rfl, ?_⟩
    rwa [List.drop_zero, List.take_zero, List.append_nil]
  | succ literals ih =>
    match rest, hliterals with
    | byte :: rest, hliterals =>
      rw [List.length_cons] at hliterals
      obtain ⟨hnext, hbehind⟩ := h.next
      obtain ⟨s', hput, hholds⟩ := hbehind.put byte (by omega)
      have hroom' : (out ++ [byte]).length + literals ≤ size := by
        rw [List.length_append, List.length_singleton]
        omega
      obtain ⟨last, hcopy, hlast⟩ := ih hholds (by omega) hroom'
      refine ⟨last, ?_, ?_⟩
      · rw [Lz4State.copyLiterals, hnext, ok_bind]
        dsimp only
        rw [hput, ok_bind, hcopy]
      · rw [List.append_assoc] at hlast
        exact hlast

/-- A match repeats what was put out, byte after byte. -/
theorem copyMatch {offset length : ℕ} (h : Holds block size rest out s) (hpos : 0 < offset)
    (hreach : offset ≤ out.length) (hroom : out.length + length ≤ size) :
    ∃ s', s.copyMatch length (out.length - offset) = .ok s' ∧
      Holds block size rest (Lz4.copyMatch offset length out) s' := by
  induction length generalizing out s with
  | zero => exact ⟨s, rfl, h⟩
  | succ length ih =>
    have hread := h.produced (show out.length - offset < out.length by omega)
    obtain ⟨s', hput, hholds⟩ := h.put (out.getD (out.length - offset) 0) (by omega)
    have hgrown : (out ++ [out.getD (out.length - offset) 0]).length = out.length + 1 :=
      List.length_append
    obtain ⟨last, hcopy, hlast⟩ := ih hholds (by omega) (by omega)
    rw [hgrown, Nat.sub_add_comm hreach] at hcopy
    refine ⟨last, ?_, hlast⟩
    rw [Lz4State.copyMatch, hread, ok_bind, hput, ok_bind, hcopy]

end Holds

/-! ### The function does what the one over strings does -/

variable {block : Buffer} {size : ℕ} {rest out : Buffer} {s : Lz4State}

/-- A length and the variables behind it stand for the length and what it leaves of the block. -/
structure Extended (block : Buffer) (size bound : ℕ) (out : Buffer) (a : ℕ × Lz4State)
    (b : ℕ × Buffer) : Prop where
  length_eq : a.1 = b.1
  left_le : b.2.length ≤ bound
  holds : Holds block size b.2 out a.2

theorem extendLoop_refines {steps len bound : ℕ} (h : Holds block size rest out s)
    (hsteps : rest.length < steps) (hbound : rest.length ≤ bound) :
    Refines (Extended block size bound out) (s.extendLoop block steps len)
      (extendLoop len rest) := by
  induction steps generalizing rest s len with
  | zero => omega
  | succ steps ih =>
    rw [Lz4State.extendLoop]
    match rest with
    | [] =>
      rw [if_pos (h.at_end_iff.mpr rfl), extendLoop]
      exact .rejected
    | extra :: rest =>
      obtain ⟨hnext, hbehind⟩ := h.next
      rw [List.length_cons] at hsteps hbound
      rw [if_neg (mt h.at_end_iff.mp (List.cons_ne_nil _ _)), hnext, extendLoop, ok_bind]
      dsimp only
      by_cases hlast : extra ≠ 0xff
      · rw [if_pos hlast, if_pos hlast]
        exact .value ⟨rfl, Nat.le_of_succ_le hbound, hbehind⟩
      · rw [if_neg hlast, if_neg hlast]
        exact ih hbehind (by omega) (by omega)

theorem extend_refines {base bound : ℕ} (h : Holds block size rest out s)
    (hbound : rest.length ≤ bound) :
    Refines (Extended block size bound out) (s.extend block base) (extend base rest) := by
  rw [Lz4State.extend, extend]
  split_ifs with hbase
  · exact .value ⟨rfl, hbound, h⟩
  · have hlength := h.length_rest
    exact extendLoop_refines h (by omega) hbound

/-- The loop ends with the output written, as far as it goes. -/
structure Written (size : ℕ) (s : Lz4State) (out : Buffer) : Prop where
  length_out : s.out.length = size
  written_le : s.written ≤ size
  out_eq : s.out.take s.written = out

theorem Holds.toWritten (h : Holds block size rest out s) : Written size s out :=
  ⟨h.length_out, h.written_le, h.out_eq⟩

theorem loop_refines {rounds : ℕ} (h : Holds block size rest out s)
    (hrounds : rest.length ≤ rounds) :
    Refines (Written size) (Lz4State.loop block size (rounds + 1) s)
      (lz4Loop size rounds rest out) := by
  induction rounds generalizing rest out s with
  | zero =>
    obtain rfl := List.length_eq_zero_iff.mp (Nat.le_zero.mp hrounds)
    rw [Lz4State.loop, if_pos (h.at_end_iff.mpr rfl), lz4Loop]
    exact .value h.toWritten
  | succ rounds ih =>
    rw [Lz4State.loop]
    cases rest with
    | nil =>
      rw [if_pos (h.at_end_iff.mpr rfl), lz4Loop]
      exact .value h.toWritten
    | cons token rest =>
      obtain ⟨hnext, hbehind⟩ := h.next
      rw [if_neg (mt h.at_end_iff.mp (List.cons_ne_nil _ _)), hnext, ok_bind, lz4Loop]
      dsimp only
      rw [List.length_cons] at hrounds
      refine (extend_refines hbehind (Nat.le_of_succ_le_succ hrounds)).bind ?_
      rintro ⟨literals, s⟩ ⟨_, rest⟩ ⟨rfl, hleft, h⟩
      dsimp only at hleft h ⊢
      have hwritten := h.written_eq
      have hlength := h.length_rest
      have hle := h.pos_le
      refine .check (by omega) fun hfits => ?_
      have hwithin : literals ≤ rest.length := by omega
      obtain ⟨s, hcopied, h⟩ := h.copyLiterals hwithin (by omega)
      rw [hcopied, ok_bind]
      have hle := h.pos_le
      have hdropped := List.length_drop (i := literals) (l := rest)
      generalize rest.drop literals = behind at h hdropped ⊢
      cases behind with
      | nil =>
        have hend := h.length_rest
        rw [List.length_nil] at hend
        rw [if_pos (by omega)]
        exact .value h.toWritten
      | cons low behind =>
        cases behind with
        | nil =>
          have hend := h.length_rest
          rw [List.length_singleton] at hend
          rw [if_neg (by omega), if_pos (by omega)]
          exact .rejected
        | cons high rest =>
          have hend := h.length_rest
          rw [List.length_cons, List.length_cons] at hend hdropped
          rw [if_neg (by omega), if_neg (by omega)]
          obtain ⟨hlow, h⟩ := h.next
          rw [hlow, ok_bind]
          dsimp only
          obtain ⟨hhigh, h⟩ := h.next
          dsimp only at hhigh h
          rw [hhigh, ok_bind]
          dsimp only
          have hwritten := h.written_eq
          dsimp only at hwritten
          refine .check (by rw [hwritten]) fun hreach => ?_
          have hbound : rest.length ≤ rounds := by omega
          refine (extend_refines h hbound).bind ?_
          rintro ⟨matched, s⟩ ⟨_, rest⟩ ⟨rfl, hleft, h⟩
          dsimp only at hleft h ⊢
          refine .check (by rw [h.written_eq]) fun hroom => ?_
          rw [not_or, not_lt] at hreach
          have hfrom := h.written_eq
          obtain ⟨s, hmatch, h⟩ :=
            h.copyMatch (Nat.pos_of_ne_zero hreach.1) hreach.2 (not_lt.mp hroom)
          rw [hfrom, hmatch, ok_bind]
          exact ih h hleft

/-- The sizes that are looked at: whole numbers up to the most that is put out. -/
theorem size_cases (size : JsNumber) :
    (size.isSafeInteger = false ∨ size.lt (.finite 0) ∨ JsNumber.lt (.finite MAX_OUTPUT) size) ∨
      ∃ length : ℕ, size = .finite length ∧ length ≤ MAX_OUTPUT := by
  match size with
  | .nan => exact .inl (.inl rfl)
  | .infinity _ => exact .inl (.inl rfl)
  | .finite q =>
    by_cases hsafe : (JsNumber.finite q).isSafeInteger = false
    · exact .inl (.inl hsafe)
    by_cases hneg : q < 0
    · exact .inl (.inr (.inl (decide_eq_true hneg)))
    by_cases hmost : (MAX_OUTPUT : ℚ) < q
    · exact .inl (.inr (.inr (decide_eq_true hmost)))
    · rw [JsNumber.isSafeInteger, decide_eq_false_iff_not, not_not] at hsafe
      have hnum : (q.num : ℚ) = q := Rat.coe_int_num_of_den_eq_one hsafe.1
      obtain ⟨length, hlength⟩ := Int.eq_ofNat_of_zero_le (Rat.num_nonneg.mpr (not_lt.mp hneg))
      rw [hlength] at hnum
      refine .inr ⟨length, congrArg _ hnum.symm, ?_⟩
      rw [← hnum] at hmost
      exact_mod_cast not_lt.mp hmost

theorem lz4Decompress_rejects (block : Buffer) {size : JsNumber}
    (h : size.isSafeInteger = false ∨ size.lt (.finite 0) ∨ JsNumber.lt (.finite MAX_OUTPUT) size) :
    lz4Decompress block size = .error .rejected := if_pos h

/-- **The function over memory does what the one over strings does**, at any size it looks at. -/
theorem lz4Decompress_refines (block : Buffer) {length : ℕ} (hmost : length ≤ MAX_OUTPUT) :
    Refines (· = ·) (lz4Decompress block (.finite length)) (lz4BlockDecompress block length) := by
  have hsafe : (JsNumber.finite length).isSafeInteger = true := by
    rw [JsNumber.isSafeInteger, decide_eq_true_eq]
    refine ⟨Rat.den_natCast length, ?_⟩
    rw [Nat.abs_cast]
    have hbound : (length : ℚ) ≤ (MAX_OUTPUT : ℚ) := by exact_mod_cast hmost
    exact hbound.trans (by norm_num [MAX_OUTPUT])
  have hlook : ¬((JsNumber.finite length).isSafeInteger = false ∨
      JsNumber.lt (.finite length) (.finite 0) ∨
        JsNumber.lt (.finite MAX_OUTPUT) (.finite length)) := by
    rintro (huncounted | hneg | hlarge)
    · exact absurd (huncounted.symm.trans hsafe) Bool.false_ne_true
    · exact absurd (of_decide_eq_true hneg) (not_lt.mpr (Nat.cast_nonneg length))
    · have hgt : (MAX_OUTPUT : ℚ) < (length : ℚ) := of_decide_eq_true hlarge
      exact absurd (by exact_mod_cast hgt) (not_lt.mpr hmost)
  have hnum : (((JsNumber.finite (length : ℚ)).finite?).getD 0).num.toNat = length := by
    change (length : ℚ).num.toNat = length
    rw [Rat.num_natCast, Int.toNat_natCast]
  have hstart : Holds block length block [] ⟨0, List.replicate length 0, 0⟩ :=
    ⟨Nat.zero_le _, List.drop_zero, List.length_replicate, Nat.zero_le _, List.take_zero⟩
  rw [lz4Decompress, if_neg hlook, lz4BlockDecompress, if_neg (by omega), Int.toNat_natCast]
  dsimp only
  rw [hnum]
  refine (loop_refines hstart le_rfl).bind ?_
  rintro s out ⟨hlength, hle, rfl⟩
  rw [List.length_take, hlength, min_eq_left hle]
  by_cases hall : s.written = length
  · rw [if_pos hall, if_pos (by exact_mod_cast hall), hall, List.take_of_length_le hlength.le]
    exact .value rfl
  · rw [if_neg hall, if_neg (by exact_mod_cast hall)]
    exact .rejected

/-- **Decompression is safe and right.** Whatever the block and the size are, no access is out of
bounds and no loop goes on for ever: the function gives up, or puts out as many bytes as the size
says. And it puts out what a well-formed block stands for, asked for at its size. -/
theorem lz4Decompress_spec :
    (∀ block size, lz4Decompress block size = .error .rejected ∨
      ∃ out : Buffer, lz4Decompress block size = .ok out ∧ size = .finite out.length) ∧
    ∀ (b : Lz4.Block) (low : Fin 16), b.WellFormed → b.output.length ≤ MAX_OUTPUT →
      lz4Decompress (b.bytesWith low) (.finite b.output.length) = .ok b.output := by
  refine ⟨fun block size => ?_, fun b low hb hmost => ?_⟩
  · rcases size_cases size with hrejected | ⟨length, rfl, hmost⟩
    · exact .inl (lz4Decompress_rejects block hrejected)
    · have hrefines := lz4Decompress_refines block hmost
      cases hspec : lz4BlockDecompress block length with
      | none =>
        rw [hspec] at hrefines
        generalize lz4Decompress block (.finite length) = run at hrefines ⊢
        cases hrefines
        exact .inl rfl
      | some out =>
        have hlength := length_lz4BlockDecompress hspec
        rw [hspec] at hrefines
        generalize lz4Decompress block (.finite length) = run at hrefines ⊢
        cases hrefines with
        | value heq =>
          subst heq
          exact .inr ⟨_, rfl, by rw [Nat.cast_inj.mp hlength]⟩
  · have hrefines := lz4Decompress_refines (b.bytesWith low) hmost
    rw [lz4BlockDecompress_bytesWith low hb hmost] at hrefines
    generalize lz4Decompress (b.bytesWith low) (.finite b.output.length) = run at hrefines ⊢
    cases hrefines with
    | value heq => rw [heq]

/-- A match into itself, and a last token with something in its low half. -/
theorem lz4Decompress_run :
    lz4Decompress [0x1a, 7, 1, 0, 0x15, 9] (.finite 16) = .ok (List.replicate 15 7 ++ [9]) := by
  let b : Lz4.Block := ⟨[⟨[7], 1, 10⟩], [9]⟩
  have hb : b.WellFormed := ⟨by decide, by decide, by decide, trivial⟩
  have hbytes : b.bytesWith 5 = [0x1a, 7, 1, 0, 0x15, 9] := by decide
  have houtput : b.output = List.replicate 15 7 ++ [9] := by decide
  have hdecompressed := lz4Decompress_spec.2 b 5 hb (by rw [houtput]; decide)
  rw [hbytes, houtput] at hdecompressed
  exact hdecompressed

end EufySdk
