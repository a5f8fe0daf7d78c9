import Mathlib.Tactic
import EufySdk.Lib.Base64
import EufySdk.Lib.Varint

/-!
# Writing raw data points

`core/raw-dp-writer.ts`: a message is built field by field, each field with its number and its
shape given by the caller, and goes out as its length and its bytes in base64.

- `encodeVarint`, `zigzag` — numbers as the writer puts them
- `RawDpWriter` — the bytes of a message so far, and the fields it can be given
- `rawDp` — a value in one expression
-/

namespace EufySdk

open Bytes

/-- What the writer throws. -/
inductive WriteError
  /-- `varint: … is not a non-negative safe integer` -/
  | varint (value : ℤ)
  /-- `zigzag: … is not a safe integer` -/
  | zigzag (value : ℤ)
  /-- `field number: … is not a positive integer` -/
  | fieldNumber (field : ℤ)
  /-- The text would be longer than a string can be. -/
  | stringTooLong
  deriving DecidableEq, Repr

def isSafeInteger (value : ℤ) : Bool := -(2 ^ 53 - 1) ≤ value && value ≤ 2 ^ 53 - 1

/-- The longest string. -/
def MAX_STRING_LENGTH : ℕ := 2 ^ 29 - 24

namespace WIRE

def VARINT : ℤ := 0
def LENGTH_DELIMITED : ℤ := 2

end WIRE

def encodeVarint (value : ℤ) : Except WriteError Buffer :=
  if !isSafeInteger value || value < 0 then .error (.varint value)
  else .ok (Varint.encode value.toNat)

def zigzag (value : ℤ) : Except WriteError ℤ :=
  if !isSafeInteger value then .error (.zigzag value)
  else .ok (if value < 0 then -2 * value - 1 else 2 * value)

/-- The tag of a field. -/
def tag (field wire : ℤ) : Except WriteError ℤ :=
  if !isSafeInteger field || field < 1 then .error (.fieldNumber field)
  else .ok (field * 8 + wire)

structure RawDpWriter where
  body : Buffer := []

namespace RawDpWriter

def int (field value : ℤ) (w : RawDpWriter) : Except WriteError RawDpWriter := do
  let head ← encodeVarint (← tag field WIRE.VARINT)
  let bytes ← encodeVarint value
  return { body := w.body ++ head ++ bytes }

def sint (field value : ℤ) (w : RawDpWriter) : Except WriteError RawDpWriter := do
  w.int field (← zigzag value)

def bool (field : ℤ) (value : Bool) (w : RawDpWriter) : Except WriteError RawDpWriter :=
  w.int field (if value then 1 else 0)

def bytes (field : ℤ) (value : Buffer) (w : RawDpWriter) : Except WriteError RawDpWriter := do
  let head ← encodeVarint (← tag field WIRE.LENGTH_DELIMITED)
  let length ← encodeVarint value.length
  return { body := w.body ++ head ++ length ++ value }

def sub (field : ℤ) (build : RawDpWriter → Except WriteError RawDpWriter) (w : RawDpWriter) :
    Except WriteError RawDpWriter := do
  let inner ← build {}
  w.bytes field inner.body

/-- `toString("base64")` of bytes. -/
def toBase64 (b : Buffer) : Except WriteError String :=
  if MAX_STRING_LENGTH < (Base64.encode b).length then .error .stringTooLong
  else .ok (String.ofList (Base64.encode b))

def finish (w : RawDpWriter) : Except WriteError String := do
  let length ← encodeVarint w.body.length
  toBase64 (length ++ w.body)

end RawDpWriter

def rawDp (build : RawDpWriter → Except WriteError RawDpWriter) : Except WriteError String := do
  let w ← build {}
  w.finish

end EufySdk
