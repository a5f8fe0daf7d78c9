import Mathlib.Tactic
import EufySdk.Core.Thrown

/-!
# The container of a clean record

`unwrapCleanRecordBlob` of `model/clean-record-detail.ts`: a message between the magic bytes with
its length in front and a checksum behind. How wide the length is, is not known; three widths
are tried. No length fits under another width than the one it was written in.

- `unwrapCleanRecordBlob` — the message in a blob
- `wrap` — a message put into the container, under a width
- `declared_eq_iff` — under which widths a length agrees with what is behind it
-/

namespace EufySdk.CleanRecordDetail

open Bytes

def MAGIC : Buffer := [0xaa, 0x01]

def CHECKSUM_BYTES : ℕ := 2

/-- The sum of the bytes. -/
def checksum (b : Buffer) : ℕ := (b.map UInt8.toNat).sum

/-- The body behind a length of `width` bytes, if the length agrees with it. -/
def bodyAt (blob : Buffer) (stop width : ℕ) : Option Buffer :=
  let start := MAGIC.length + width
  if stop < start then none
  else if readUIntBE (Buf.subarray blob MAGIC.length start) = stop - start then
    some (Buf.subarray blob start stop)
  else none

def unwrapCleanRecordBlob (blob : Buffer) : Option Buffer :=
  if blob.length < MAGIC.length + 1 + CHECKSUM_BYTES then none
  else if blob[0]? ≠ MAGIC[0]? ∨ blob[1]? ≠ MAGIC[1]? then none
  else
    let stop := blob.length - CHECKSUM_BYTES
    if checksum (blob.take stop) % 65536 ≠ readUIntBE (blob.drop stop) then none
    else [2, 4, 1].findSome? (bodyAt blob stop)

/-- What the checksum is taken over. -/
def content (width : ℕ) (body : Buffer) : Buffer := MAGIC ++ (uintBE width body.length ++ body)

/-- A body in the container, its length in `width` bytes. -/
def wrap (width : ℕ) (body : Buffer) : Buffer :=
  content width body ++ uint16BE (checksum (content width body) % 65536)

/-! ### Widths -/

/-- **No length fits under another width**: read in fewer bytes it is no more than it is, where more
bytes are behind it; read in more it is 256-fold at least, where fewer are. -/
theorem declared_eq_iff {width other : ℕ} {body : Buffer} (hfits : body.length < 256 ^ width)
    (hother : other ≤ width + body.length) :
    readUIntBE ((uintBE width body.length ++ body).take other) = width + body.length - other ↔
      other = width := by
  have hread := readUIntBE_uintBE hfits
  constructor
  · intro hdeclared
    by_contra hne
    rcases lt_or_gt_of_ne hne with hshort | hlong
    · have hsplit : readUIntBE (uintBE width body.length) =
          readUIntBE ((uintBE width body.length).drop other) +
            256 ^ ((uintBE width body.length).drop other).length *
              readUIntBE ((uintBE width body.length).take other) := by
        rw [← readUIntBE_append, List.take_append_drop]
      have hpos : 0 < 256 ^ ((uintBE width body.length).drop other).length := by positivity
      rw [List.take_append_of_le_length (by rw [length_uintBE]; omega)] at hdeclared
      have hle := Nat.le_mul_of_pos_left
        (readUIntBE ((uintBE width body.length).take other)) hpos
      omega
    · have hextra : (body.take (other - width)).length = other - width := by
        rw [List.length_take]
        omega
      rw [List.take_append, List.take_of_length_le (by rw [length_uintBE]; omega), length_uintBE,
        readUIntBE_append, hread, hextra] at hdeclared
      have hpow : 256 ^ 1 ≤ 256 ^ (other - width) := Nat.pow_le_pow_right (by omega) (by omega)
      have hle := Nat.mul_le_mul_right body.length hpow
      omega
  · rintro rfl
    rw [List.take_append_of_le_length (by rw [length_uintBE]),
      List.take_of_length_le (by rw [length_uintBE]), hread]
    omega

theorem length_content (width : ℕ) (body : Buffer) :
    (content width body).length = 2 + (width + body.length) := by
  rw [content, List.length_append, List.length_append, length_uintBE]
  rfl

/-- The body is found under its own width and no other. -/
theorem bodyAt_eq {width other : ℕ} {body : Buffer} (hfits : body.length < 256 ^ width)
    (tail : Buffer) :
    bodyAt (content width body ++ tail) (content width body).length other =
      if other = width then some body else none := by
  have hlength := length_content width body
  have hmagic : MAGIC.length = 2 := rfl
  rw [bodyAt, hlength, hmagic]
  by_cases hlong : 2 + (width + body.length) < 2 + other
  · rw [if_pos hlong, if_neg (by omega)]
  · have hfield : Buf.subarray (content width body ++ tail) 2 (2 + other) =
        (uintBE width body.length ++ body).take other := by
      rw [Buf.subarray, List.take_append_of_le_length (by omega), content, ← hmagic,
        List.take_length_add_append, List.drop_left]
    rw [if_neg hlong, hfield,
      show 2 + (width + body.length) - (2 + other) = width + body.length - other by omega]
    by_cases heq : other = width
    · rw [if_pos ((declared_eq_iff hfits (by omega)).mpr heq), if_pos heq, heq, Buf.subarray,
        List.take_left' hlength, content, ← List.append_assoc]
      refine congrArg some (List.drop_left' ?_)
      rw [List.length_append, length_uintBE, hmagic]
    · rw [if_neg fun h => heq ((declared_eq_iff hfits (by omega)).mp h), if_neg heq]

/-! ### The checksum -/

theorem checksum_lt (b : Buffer) : checksum b % 65536 < 65536 := Nat.mod_lt _ (by decide)

/-- One byte altered alters the sum by less than its modulus. -/
theorem checksum_set {b : Buffer} {i : ℕ} {old new : UInt8} (hold : b[i]? = some old)
    (hne : old ≠ new) : checksum (b.set i new) % 65536 ≠ checksum b % 65536 := by
  obtain ⟨hlt, hget⟩ := List.getElem?_eq_some_iff.mp hold
  have hsum (x : UInt8) : checksum (b.set i x) =
      checksum (b.take i) + (x.toNat + checksum (b.drop (i + 1))) := by
    rw [List.set_eq_take_append_cons_drop, if_pos hlt, checksum, List.map_append, List.map_cons,
      List.sum_append, List.sum_cons]
    rfl
  have hsame : b.set i old = b := by rw [← hget, List.set_getElem_self]
  have hbefore := hsum old
  rw [hsame] at hbefore
  rw [hbefore, hsum new]
  have hdistinct : old.toNat ≠ new.toNat := fun h => hne (UInt8.toNat_inj.mp h)
  have hold' := old.toNat_lt
  have hnew' := new.toNat_lt
  omega

/-- A blob whose checksum is not the sum of what is before it is rejected. -/
theorem unwrap_rejects {front sum : Buffer} (hsum : sum.length = 2)
    (hne : checksum front % 65536 ≠ readUIntBE sum) :
    unwrapCleanRecordBlob (front ++ sum) = none := by
  have hstop : (front ++ sum).length - CHECKSUM_BYTES = front.length := by
    rw [List.length_append, hsum, CHECKSUM_BYTES, Nat.add_sub_cancel]
  rw [unwrapCleanRecordBlob]
  split_ifs with hshort hmagic
  · rfl
  · rfl
  · simp only [hstop, List.take_left, List.drop_left]
    exact if_pos hne

/-- A message that was wrapped comes out as it went in. -/
theorem unwrap_own {width : ℕ} (hwidth : width ∈ [1, 2, 4]) {body : Buffer}
    (hfits : body.length < 256 ^ width) : unwrapCleanRecordBlob (wrap width body) = some body := by
  have hpos : 1 ≤ width := by
    rcases List.mem_cons.mp hwidth with rfl | h
    · exact le_rfl
    · rcases List.mem_pair.mp h with rfl | rfl <;> decide
  have hstop : (wrap width body).length - CHECKSUM_BYTES = (content width body).length := by
    rw [wrap, List.length_append, length_uint16BE, CHECKSUM_BYTES, Nat.add_sub_cancel]
  have hsum : checksum ((wrap width body).take (content width body).length) % 65536 =
      readUIntBE ((wrap width body).drop (content width body).length) := by
    rw [wrap, List.take_left, List.drop_left, readUIntBE_uint16BE (checksum_lt _)]
  have hmagic : ¬((wrap width body)[0]? ≠ MAGIC[0]? ∨ (wrap width body)[1]? ≠ MAGIC[1]?) := by
    rintro (h | h) <;> exact h rfl
  have hlong : ¬(wrap width body).length < MAGIC.length + 1 + CHECKSUM_BYTES := by
    rw [wrap, List.length_append, length_content width body, length_uint16BE]
    change ¬2 + (width + body.length) + 2 < 2 + 1 + 2
    omega
  rw [unwrapCleanRecordBlob, if_neg hlong, if_neg hmagic]
  simp only [hstop, hsum, ne_eq, not_true_eq_false, if_false]
  have hbody (other : ℕ) : bodyAt (wrap width body) (content width body).length other =
      if other = width then some body else none := bodyAt_eq hfits _
  simp only [List.findSome?_cons, List.findSome?_nil, hbody]
  rcases List.mem_cons.mp hwidth with rfl | h
  · rfl
  · rcases List.mem_pair.mp h with rfl | rfl <;> rfl

/-- **The container is unambiguous.** A message that was wrapped under one of the widths comes out as
it went in, and nothing comes out once a byte before the checksum, or the checksum, is altered. -/
theorem unwrap_wrap {width : ℕ} (hwidth : width ∈ [1, 2, 4]) {body : Buffer}
    (hfits : body.length < 256 ^ width) :
    unwrapCleanRecordBlob (wrap width body) = some body ∧
      (∀ i old new, (content width body)[i]? = some old → old ≠ new →
        unwrapCleanRecordBlob ((wrap width body).set i new) = none) ∧
      ∀ sum : Buffer, sum.length = 2 →
        sum ≠ uint16BE (checksum (content width body) % 65536) →
          unwrapCleanRecordBlob (content width body ++ sum) = none := by
  refine ⟨unwrap_own hwidth hfits, ?_, ?_⟩
  · intro i old new hold hne
    have hlt := (List.getElem?_eq_some_iff.mp hold).1
    rw [wrap, List.set_append_left _ _ hlt]
    refine unwrap_rejects (length_uint16BE _) ?_
    rw [readUIntBE_uint16BE (checksum_lt _)]
    exact checksum_set hold hne
  · intro sum hsum hne
    refine unwrap_rejects hsum fun hagrees => hne ?_
    match sum, hsum with
    | [x, y], _ => rw [hagrees, uint16BE_readUIntBE]

theorem unwrap_wrap_one :
    (1 ∈ [1, 2, 4] ∧ [(7 : UInt8)].length < 256 ^ 1) ∧
      unwrapCleanRecordBlob (wrap 1 [7]) = some [7] :=
  ⟨by decide, (unwrap_wrap (by decide) (by decide)).1⟩

end EufySdk.CleanRecordDetail
