import Mathlib.Tactic
import EufySdk.Lib.BitStrings
import EufySdk.Lib.Reading
import EufySdk.Transport.P2p.EmulationPrevention

/-!
# What the bit reader takes

`RbspReader` of `transport/p2p/annexb.ts` over the bits it has ahead: each of its methods takes
exactly the code of what it answers.

- `Ahead` — the bits a reader has ahead
- `Reads.u`, `Reads.flag`, `Reads.ue`, `Reads.se` — fields and exp-Golomb codes
-/

namespace EufySdk.RbspReader

open Bytes BitStrings Reading

/-- The bits a reader has ahead, which has not failed. -/
def Ahead (r : RbspReader) (bits : List Bool) : Prop :=
  r.failed = false ∧ (ofBytes r.bytes).drop r.bit = bits

theorem ahead_ofNal (header : Buffer) {payload : Buffer}
    (hfree : ¬EmulationPrevention.ESCAPED <:+: payload) :
    Ahead (ofNal (header ++ payload) header.length) (ofBytes payload) := by
  rw [EmulationPrevention.ofNal_of_free header hfree]
  exact ⟨rfl, rfl⟩

/-- The next bit of a reader. -/
theorem Ahead.next {r : RbspReader} {b : Bool} {bits : List Bool} (h : Ahead r (b :: bits)) :
    (∃ byte, r.bytes[r.bit / 8]? = some byte ∧ byte.toNat / 2 ^ (7 - r.bit % 8) % 2 = b.toNat) ∧
      Ahead { r with bit := r.bit + 1 } bits := by
  obtain ⟨hfailed, hdrop⟩ := h
  have hget : (ofBytes r.bytes)[r.bit]? = some b := by
    rw [← List.head?_drop, hdrop, List.head?_cons]
  rw [getElem?_ofBytes, Option.map_eq_some_iff] at hget
  obtain ⟨byte, hbyte, hbit⟩ := hget
  refine ⟨⟨byte, hbyte, ?_⟩, hfailed, ?_⟩
  · rw [← hbit]
    by_cases hone : byte.toNat / 2 ^ (7 - r.bit % 8) % 2 = 1
    · rw [hone]
      rfl
    · rw [decide_eq_false hone]
      change _ = 0
      omega
  · rw [← List.drop_drop, hdrop, List.drop_one, List.tail_cons]

theorem reads_bits (w : List Bool) (high : ℕ) :
    Reads Ahead (bits high w.length) w (valueFrom high w) := by
  induction w generalizing high with
  | nil => exact .answer high
  | cons b w ih =>
    intro r tail hahead
    obtain ⟨⟨byte, hbyte, hbit⟩, hnext⟩ := hahead.next
    have hrun : (bits high (b :: w).length).run r =
        (bits (high * 2 + b.toNat) w.length).run { r with bit := r.bit + 1 } := by
      rw [List.length_cons, bits, ← hbit]
      rw [StateT.run_bind, StateT.run_get, pure_bind]
      dsimp only
      rw [hbyte]
      rfl
    rw [hrun]
    exact ih _ _ tail hnext

/-- A field of fixed width. -/
theorem reads_u {w : List Bool} {count : ℕ} (h : w.length = count) :
    Reads Ahead (u count) w (value w) := by
  subst h
  exact reads_bits w 0

theorem reads_u_ofNat {count n : ℕ} (h : n < 2 ^ count) :
    Reads Ahead (u count) (ofNat count n) n := by
  have hread := reads_u (length_ofNat count n)
  rwa [value_ofNat h] at hread

theorem reads_bit (b : Bool) : Reads Ahead (u 1) [b] b.toNat := by
  have hread := reads_u (w := [b]) rfl
  cases b <;> exact hread

theorem reads_flag (b : Bool) : Reads Ahead flag [b] b := by
  refine (reads_bit b).bind_answer ?_
  cases b <;> exact .answer _

/-- A reader that has something ahead goes on where it would stop on failure. -/
theorem reads_unless_failed {α : Type} {e m : StateM RbspReader α} {w : List Bool} {a : α}
    (h : Reads Ahead m w a) :
    Reads Ahead (do if (← get).failed then e else m) w a := by
  refine h.look fun r tail hahead => ?_
  rw [if_neg (by rw [hahead.1]; exact Bool.false_ne_true)]

/-- A run of zeros up to the one that ends it. -/
theorem reads_zeros (run : ℕ) {count left : ℕ} (h : run ≤ left) :
    Reads Ahead (zeros count left) (List.replicate run false ++ [true]) (some (count + run)) := by
  induction run generalizing count left with
  | zero =>
    rw [zeros.eq_def]
    exact (reads_bit true).bind_answer (.answer _)
  | succ run ih =>
    obtain ⟨left, rfl⟩ : ∃ m, left = m + 1 := ⟨left - 1, by omega⟩
    rw [zeros, List.replicate_succ, List.cons_append, ← List.singleton_append]
    refine (reads_bit false).bind (reads_unless_failed ?_)
    have hrest : Reads Ahead (zeros (count + 1) left) _ (some (count + 1 + run)) := ih (by omega)
    rwa [Nat.add_assoc, Nat.add_comm 1] at hrest

/-- **An unsigned code is read as its number**, whose run of zeros the reader follows to the end. -/
theorem reads_ue {n : ℕ} (h : n + 1 < 2 ^ 33) : Reads Ahead ue (expGolomb n) n := by
  have hwidth : (n + 1).log2 < 33 := (Nat.log2_lt (Nat.succ_ne_zero n)).mpr h
  have hvalue := expGolomb_value n
  rw [expGolomb, List.append_cons]
  have hzeros : Reads Ahead (zeros 0 32) _ (some (0 + (n + 1).log2)) :=
    reads_zeros (n + 1).log2 (by omega)
  rw [Nat.zero_add] at hzeros
  refine hzeros.bind ?_
  generalize (n + 1).log2 = width at hvalue ⊢
  cases width with
  | zero =>
    obtain rfl : n = 0 := hvalue.symm
    exact .answer 0
  | succ width =>
    conv => rhs; rw [← hvalue]
    exact (reads_u (length_ofNat _ _)).bind_answer (.answer _)

/-- A signed code is read as its number. -/
theorem reads_se {k : ℤ} (h : codeNum k + 1 < 2 ^ 33) : Reads Ahead se (signedExpGolomb k) k := by
  conv => rhs; rw [← signed_codeNum k]
  exact (reads_ue h).bind_answer (.answer _)

end EufySdk.RbspReader
