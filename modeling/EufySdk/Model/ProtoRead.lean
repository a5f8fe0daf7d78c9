import Mathlib.Tactic
import EufySdk.Transport.RawDp

/-!
# Reading the fields of a message

`model/proto-read.ts`: the readers that make values of the fields a codec has found. An absent
field reads as its zero.
-/

namespace EufySdk.ProtoRead

open Bytes

/-- `Number(value)` of a natural number: the nearest of 53 significant bits, the even one of
two. -/
def toNumber (n : ℕ) : ℕ :=
  if n < 2 ^ 53 then n
  else
    let unit := 2 ^ (Nat.log2 n - 52)
    let up := unit < 2 * (n % unit) ∨ (2 * (n % unit) = unit ∧ n / unit % 2 = 1)
    if up then (n / unit + 1) * unit else n / unit * unit

variable (codec : RawDpCodec) (fields : Option (List RawDpField)) (field : ℕ)

/-- The first field under a number. -/
def find : Option RawDpField := fields.bind fun fs => fs.find? fun f => f.field = field

def int : ℤ :=
  match find fields field with
  | some (.int _ value) => toNumber value
  | _ => 0

def flag : Bool :=
  match find fields field with
  | some (.int _ value) => value ≠ 0
  | _ => false

def signed : ℤ :=
  let raw := int fields field
  if raw % 2 = 0 then raw / 2 else -(raw + 1) / 2

/-- The bytes under a number; none are as no field. -/
def bytes : Option Buffer :=
  match find fields field with
  | some (.bytes _ value) => if value = [] then none else some value
  | _ => none

/-- `bytes` as text, which `toText` makes of UTF-8. -/
def text (toText : Buffer → String) : Option String := (bytes fields field).map toText

def sub : Option (List RawDpField) :=
  match find fields field with
  | some (.bytes _ value) => codec.nested value
  | _ => none

def each : List (List RawDpField) :=
  (fields.getD []).filterMap fun f =>
    match f with
    | .bytes number value => if number ≠ field then none else codec.nested value
    | .int _ _ => none

end EufySdk.ProtoRead
