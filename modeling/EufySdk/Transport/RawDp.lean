import Mathlib.Tactic
import EufySdk.Lib.Base64

/-!
# Reading raw data points

`transport/raw-dp.ts`: a value is walked into the fields of its message, by number and wire type
and without a schema. The reader of single values is protobufjs, which the codec is given: each
of its readers takes what it reads off the bytes that are left, or throws.

- `WireReader` — what the codec asks of protobufjs
- `readFields` — the fields of a message
- `RawDpCodec` — what a capability is given to read values with
-/

namespace EufySdk

open Bytes

/-- The readers of single values, each with the bytes it leaves; nothing where it throws. -/
structure WireReader where
  uint32 : Buffer → Option (ℕ × Buffer)
  uint64 : Buffer → Option (ℕ × Buffer)
  fixed64 : Buffer → Option (ℕ × Buffer)
  fixed32 : Buffer → Option (ℕ × Buffer)
  bytes : Buffer → Option (Buffer × Buffer)

/-- A field as it is read: any integer is an `int`, and what has a length is `bytes`. -/
inductive RawDpField
  | int (field value : ℕ)
  | bytes (field : ℕ) (value : Buffer)
  deriving DecidableEq, Repr

def RawDpField.field : RawDpField → ℕ
  | int field _ => field
  | bytes field _ => field

structure RawDpCodec where
  decode : String → Option (List RawDpField)
  nested : Buffer → Option (List RawDpField)

variable (reader : WireReader)

/-- One field, and the bytes behind it. -/
def readField (body : Buffer) : Option (RawDpField × Buffer) := do
  let (tag, rest) ← reader.uint32 body
  let field := tag >>> 3
  match tag &&& 7 with
  | 0 =>
    let (value, rest) ← reader.uint64 rest
    return (.int field value, rest)
  | 1 =>
    let (value, rest) ← reader.fixed64 rest
    return (.int field value, rest)
  | 2 =>
    let (value, rest) ← reader.bytes rest
    return (.bytes field value, rest)
  | 5 =>
    let (value, rest) ← reader.fixed32 rest
    return (.int field value, rest)
  | _ => none

/-- As many rounds of the loop of `readFields` as the first argument says. -/
def readLoop : ℕ → Buffer → Option (List RawDpField)
  | _, [] => some []
  | 0, _ :: _ => none
  | rounds + 1, b :: body => do
    let (field, rest) ← readField reader (b :: body)
    let fields ← readLoop rounds rest
    return field :: fields

/-- The fields of a message; a round takes a byte at least. -/
def readFields (body : Buffer) : Option (List RawDpField) := readLoop reader body.length body

def rawDpCodec : RawDpCodec where
  decode value :=
    if value = "" then none
    else
      let buf := Base64.decode value.toList
      if buf = [] then none
      else
        match reader.uint32 buf with
        | none => none
        | some (length, body) => if length ≠ body.length then none else readFields reader body
  nested := readFields reader

end EufySdk
