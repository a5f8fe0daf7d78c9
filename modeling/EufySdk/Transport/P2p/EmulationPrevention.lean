import Mathlib.Tactic
import EufySdk.Transport.P2p.CodedGeometry

/-!
# Emulation prevention

`RbspReader` of `transport/p2p/annexb.ts` takes the escapes out of a NAL unit before it reads bits.
An encoder puts a `03` between two zeros and a byte that would make a start code of them. The
reader takes every `03` behind two zeros for such an escape, also one of the payload.

- `emulationPrevention` — the insertion of the standard
- `ofNal_eq_iff` — the payloads that are read back
-/

namespace EufySdk.EmulationPrevention

open Bytes RbspReader

/-- What an escape looks like to the reader. -/
def ESCAPED : Buffer := [0, 0, 3]

/-- The insertion for the bytes behind a run of zeros, which an escape ends. -/
def insertFrom (zeros : ℕ) : Buffer → Buffer
  | [] => []
  | byte :: payload =>
    if zeros = 2 ∧ byte ≤ 3 then
      3 :: byte :: insertFrom (if byte = 0 then 1 else 0) payload
    else
      byte :: insertFrom (if byte = 0 then zeros + 1 else 0) payload

/-- A `03` after every two zeros that a byte up to `03` follows. -/
def emulationPrevention (payload : Buffer) : Buffer := insertFrom 0 payload

/-- The last two bytes, as the reader looks at them. -/
theorem suffix_zeros_iff (done : Buffer) :
    [0, 0] <:+ done ↔ 2 ≤ done.length ∧ done[done.length - 1]? = some 0 ∧
      done[done.length - 2]? = some 0 := by
  constructor
  · rintro ⟨front, rfl⟩
    simp
  · rintro ⟨hlen, hlast, hprev⟩
    obtain ⟨hlt, hlast⟩ := List.getElem?_eq_some_iff.mp hlast
    obtain ⟨hlt', hprev⟩ := List.getElem?_eq_some_iff.mp hprev
    refine ⟨done.take (done.length - 2), ?_⟩
    have hdrop : done.drop (done.length - 2) = [0, 0] := by
      rw [List.drop_eq_getElem_cons hlt', hprev]
      simp only [show done.length - 2 + 1 = done.length - 1 by omega]
      rw [List.drop_eq_getElem_cons hlt, hlast, List.drop_of_length_le (by omega)]
    rw [← hdrop, List.take_append_drop]

/-- A byte is dropped where it is a `03` behind two zeros. -/
theorem unescape_eq (done : Buffer) (byte : UInt8) :
    unescape done byte = if byte = 3 ∧ [0, 0] <:+ done then done else done ++ [byte] := by
  rw [unescape]
  simp only [suffix_zeros_iff]

/-- Where the bytes up to one have no escape among them, it is kept. -/
theorem unescape_of_free {done payload : Buffer} {byte : UInt8}
    (hfree : ¬ESCAPED <:+: done ++ byte :: payload) : unescape done byte = done ++ [byte] := by
  rw [unescape_eq, if_neg]
  rintro ⟨rfl, front, rfl⟩
  exact hfree ⟨front, payload, by simp [ESCAPED]⟩

/-- The reader's bytes have no escape among them, whatever it was given. -/
theorem free_foldl (nal : Buffer) {done : Buffer} (hfree : ¬ESCAPED <:+: done) :
    ¬ESCAPED <:+: nal.foldl unescape done := by
  induction nal generalizing done with
  | nil => exact hfree
  | cons byte nal ih =>
    refine ih ?_
    rw [unescape_eq]
    split_ifs with hdrop
    · exact hfree
    · rintro hwithin
      rcases List.infix_concat_iff.mp hwithin with hend | hwithin
      · rcases List.suffix_concat_iff.mp hend with hnil | ⟨zeros, heq, hzeros⟩
        · exact List.cons_ne_nil _ _ hnil
        · have hsplit : [0, 0] ++ [3] = zeros ++ [byte] := heq
          obtain ⟨rfl, hbyte⟩ := List.append_inj' hsplit rfl
          exact hdrop ⟨(List.head_eq_of_cons_eq hbyte).symm, hzeros⟩
      · exact hfree hwithin

/-- What is read back of the bytes behind some that were, where no escape is among them all. -/
theorem foldl_insertFrom (payload : Buffer) {done : Buffer} {zeros : ℕ}
    (hone : zeros = 1 → [0] <:+ done) (htwo : zeros = 2 → [0, 0] <:+ done)
    (hfree : ¬ESCAPED <:+: done ++ payload) :
    (insertFrom zeros payload).foldl unescape done = done ++ payload := by
  induction payload generalizing done zeros with
  | nil => rw [insertFrom, List.foldl_nil, List.append_nil]
  | cons byte payload ih =>
    have hkept := unescape_of_free hfree
    rw [List.append_cons] at hfree ⊢
    rw [insertFrom]
    split_ifs with hescape hzero hzero
    · -- The escape is dropped: it stands behind two zeros.
      rw [List.foldl_cons, unescape_eq, if_pos ⟨rfl, htwo hescape.1⟩, List.foldl_cons, hkept]
      exact ih (fun _ => ⟨done, by rw [hzero]⟩) (fun h => absurd h (by decide)) hfree
    · rw [List.foldl_cons, unescape_eq, if_pos ⟨rfl, htwo hescape.1⟩, List.foldl_cons, hkept]
      exact ih (fun h => absurd h (by decide)) (fun h => absurd h (by decide)) hfree
    · rw [List.foldl_cons, hkept]
      refine ih (fun _ => ⟨done, by rw [hzero]⟩) (fun h => ?_) hfree
      obtain ⟨front, rfl⟩ := hone (by omega)
      exact ⟨front, by rw [hzero, List.append_assoc]; rfl⟩
    · rw [List.foldl_cons, hkept]
      exact ih (fun h => absurd h (by decide)) (fun h => absurd h (by decide)) hfree

theorem foldl_of_free (payload : Buffer) {done : Buffer} (hfree : ¬ESCAPED <:+: done ++ payload) :
    payload.foldl unescape done = done ++ payload := by
  induction payload generalizing done with
  | nil => exact (List.append_nil done).symm
  | cons byte payload ih =>
    rw [List.foldl_cons, unescape_of_free hfree, ih (List.append_cons done byte payload ▸ hfree),
      ← List.append_cons]

/-- A unit without escapes is read as it is. -/
theorem ofNal_of_free (header : Buffer) {payload : Buffer} (hfree : ¬ESCAPED <:+: payload) :
    ofNal (header ++ payload) header.length = ⟨payload, 0, false⟩ := by
  have hread : payload.foldl unescape [] = payload := foldl_of_free payload hfree
  rw [ofNal, List.drop_left, hread]

/-- **Which payloads come back.** Behind a header of any length a payload is read as it was before
the insertion exactly when it has no `00 00 03` itself. -/
theorem ofNal_eq_iff (header payload : Buffer) :
    (ofNal (header ++ emulationPrevention payload) header.length).bytes = payload ↔
      ¬ESCAPED <:+: payload := by
  rw [ofNal, List.drop_left]
  constructor
  · intro hback
    have hfree : ¬ESCAPED <:+: ([] : Buffer) := by decide
    rw [← hback]
    exact free_foldl _ hfree
  · intro hfree
    exact foldl_insertFrom payload (fun h => absurd h (by decide))
      (fun h => absurd h (by decide)) hfree

/-- A payload of `00 00 03` goes out as `00 00 03 03` and comes back as two zeros. -/
theorem payload_lost :
    ¬∀ header payload : Buffer,
      (ofNal (header ++ emulationPrevention payload) header.length).bytes = payload := by
  intro hclaim
  exact absurd (hclaim [0x67] [0, 0, 3]) (by decide)

end EufySdk.EmulationPrevention
