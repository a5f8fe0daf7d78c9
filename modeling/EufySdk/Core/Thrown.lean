import Mathlib.Tactic
import EufySdk.Lib.Bytes

/-!
# Exceptions and checked buffer access

The exceptions a Node.js buffer, socket or value conversion raises, and the
`Buffer` reads and writes that raise them. A read past the end of a buffer and a
write of a number that does not fit are `RangeError`s.
-/

namespace EufySdk

open Bytes

/-- The classes of exception the modelled code can raise. -/
inductive Thrown
  | rangeError
  | typeError
  deriving DecidableEq, Repr

@[simp] theorem ok_bind {ε α β : Type} (a : α) (f : α → Except ε β) :
    (Except.ok a >>= f) = f a := rfl

@[simp] theorem error_bind {ε α β : Type} (e : ε) (f : α → Except ε β) :
    ((Except.error e : Except ε α) >>= f) = .error e := rfl

theorem isOk_iff {α : Type} {x : Except Thrown α} : x.isOk = true ↔ ∃ a, x = .ok a := by
  cases x with
  | ok a => exact ⟨fun _ => ⟨a, rfl⟩, fun _ => rfl⟩
  | error e => exact ⟨fun h => (by cases h), fun ⟨a, h⟩ => (by cases h)⟩

theorem bind_eq_ok {ε α β : Type} {x : Except ε α} {f : α → Except ε β} {b : β} :
    (x >>= f) = .ok b ↔ ∃ a, x = .ok a ∧ f a = .ok b := by
  cases x with
  | error e => simp
  | ok a => simp

theorem isOk_bind {α β : Type} {x : Except Thrown α} {f : α → Except Thrown β} :
    (x >>= f).isOk = true ↔ ∃ a, x = .ok a ∧ (f a).isOk = true := by
  cases x with
  | ok a => exact ⟨fun h => ⟨a, rfl, h⟩, fun ⟨b, hb, h⟩ => (by cases hb; exact h)⟩
  | error e => exact ⟨fun h => (by cases h), fun ⟨a, h, _⟩ => (by cases h)⟩

/-- A step whose result is only passed on fails exactly when it fails itself. -/
theorem isOk_bind_of_forall {α β : Type} {x : Except Thrown α} {f : α → Except Thrown β}
    (h : ∀ a, (f a).isOk = true) : (x >>= f).isOk = x.isOk := by
  cases x with
  | ok a => exact h a
  | error e => rfl

namespace Buf

/-- `buf.subarray(from, to)`: both ends are clamped to the buffer. -/
def subarray (b : Buffer) (start stop : ℕ) : Buffer := (b.take stop).drop start

/-- `buf.readUIntLE(0, byteLength)`. -/
def readUIntLE (b : Buffer) (byteLength : ℕ) : Except Thrown ℕ :=
  if byteLength ≤ b.length then .ok (Bytes.readUIntLE (b.take byteLength))
  else .error .rangeError

/-- `buf.readUInt16LE(0)`. -/
def readUInt16LE (b : Buffer) : Except Thrown ℕ := readUIntLE b 2

/-- `buf.readUInt16BE(0)`. -/
def readUInt16BE (b : Buffer) : Except Thrown ℕ :=
  if 2 ≤ b.length then .ok (Bytes.readUIntBE (b.take 2)) else .error .rangeError

/-- `buf.readUInt8(offset)`. -/
def readUInt8 (b : Buffer) (offset : ℕ) : Except Thrown ℕ :=
  match b[offset]? with
  | some x => .ok x.toNat
  | none => .error .rangeError

/-- `buf.readUInt16BE(offset)`. -/
def readUInt16BEAt (b : Buffer) (offset : ℕ) : Except Thrown ℕ :=
  readUInt16BE (b.drop offset)

/-- `buf.readInt32LE(0)`. -/
def readInt32LE (b : Buffer) : Except Thrown ℤ := do
  let n ← readUIntLE b 4
  return if n < 2147483648 then n else (n : ℤ) - 4294967296

/-- The four bytes `writeUInt32BE(value)` writes; `NaN` passes the range check and is
written as zero. -/
def writeUInt32BE (value : Option ℤ) : Except Thrown Buffer :=
  match value with
  | none => .ok (uint32BE 0)
  | some v => if 0 ≤ v ∧ v < 4294967296 then .ok (uint32BE v.toNat) else .error .rangeError

/-- The two bytes `writeUInt16LE(value)` writes. -/
def writeUInt16LE (value : ℕ) : Except Thrown Buffer :=
  if value < 65536 then .ok (uint16LE value) else .error .rangeError

/-- The two bytes `writeUInt16BE(value)` writes. -/
def writeUInt16BE (value : ℕ) : Except Thrown Buffer :=
  if value < 65536 then .ok (uint16BE value) else .error .rangeError

/-- The byte an element of `Buffer.from([…])` becomes: the number modulo 256, which is
also what `value & 0xff` leaves. -/
def byte (value : ℤ) : UInt8 := UInt8.ofNat (value % 256).toNat

theorem toNat_byte (value : ℤ) : ((byte value).toNat : ℤ) = value % 256 := by
  have hnonneg := Int.emod_nonneg value (by decide : (256 : ℤ) ≠ 0)
  have hlt := Int.emod_lt_of_pos value (by decide : (0 : ℤ) < 256)
  rw [byte, UInt8.toNat_ofNat']
  omega

theorem length_subarray (b : Buffer) (start stop : ℕ) :
    (subarray b start stop).length = min stop b.length - start := by
  rw [subarray, List.length_drop, List.length_take]

theorem readUIntLE_ok {b : Buffer} {k : ℕ} (h : k ≤ b.length) :
    readUIntLE b k = .ok (Bytes.readUIntLE (b.take k)) := if_pos h

theorem readUInt16BE_ok {b : Buffer} (h : 2 ≤ b.length) :
    readUInt16BE b = .ok (Bytes.readUIntBE (b.take 2)) := if_pos h

theorem readUInt16BE_error {b : Buffer} (h : b.length < 2) :
    readUInt16BE b = .error .rangeError := if_neg (by omega)

theorem readUInt16BEAt_ok {b : Buffer} {i : ℕ} (h : i + 2 ≤ b.length) :
    readUInt16BEAt b i = .ok (Bytes.readUIntBE ((b.drop i).take 2)) :=
  readUInt16BE_ok (by rw [List.length_drop]; omega)

theorem writeUInt32BE_isOk (value : Option ℤ) :
    (writeUInt32BE value).isOk = decide (∀ v, value = some v → 0 ≤ v ∧ v < 4294967296) := by
  cases value with
  | none => rfl
  | some v =>
    rw [writeUInt32BE]
    by_cases h : 0 ≤ v ∧ v < 4294967296
    · rw [if_pos h]
      exact (decide_eq_true (fun w hw => (Option.some.inj hw) ▸ h)).symm
    · rw [if_neg h]
      exact (decide_eq_false (fun hall => h (hall v rfl))).symm

theorem readUInt8_ok {b : Buffer} {i : ℕ} (h : i < b.length) :
    readUInt8 b i = .ok (b[i]).toNat := by
  rw [readUInt8, List.getElem?_eq_getElem h]

end Buf

end EufySdk
