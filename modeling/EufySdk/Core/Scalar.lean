import Mathlib.Tactic
import EufySdk.Core.Json

/-!
# Scalars

The booleans, numbers and strings that go over the wire and that a caller writes. Numbers are what
a double can hold, but for the sign of zero; the platform's conversion of finite ones to text is a
parameter.

- `Scalar` — a boolean, a number or a string
- `WireValue` — types that hold raw wire values
-/

namespace EufySdk

inductive JsNumber
  | finite (q : ℚ)
  | infinity (negative : Bool)
  | nan
  deriving DecidableEq, Repr

namespace JsNumber

/-- The number, if it is finite. -/
def finite? : JsNumber → Option ℚ
  | finite q => some q
  | _ => none

/-- `a < b`: false where either is not a number. -/
def lt : JsNumber → JsNumber → Bool
  | finite a, finite b => a < b
  | finite _, infinity negative => !negative
  | infinity negative, finite _ => negative
  | infinity a, infinity b => a && !b
  | _, _ => false

/-- `Math.round(n)` of a finite number. -/
def round (q : ℚ) : ℤ := ⌊q + 1 / 2⌋

/-- `clamp` of `core/util.ts`: rounded and between the bounds; what is not a number is the least. -/
def clamp (n : JsNumber) (min max : ℤ) : ℤ :=
  match n with
  | nan => min
  | infinity true => min
  | infinity false => Max.max min max
  | finite q => Max.max min (Min.min max (round q))

/-- `String(n)`. -/
def text (numberToString : ℚ → String) : JsNumber → String
  | finite q => numberToString q
  | infinity false => "Infinity"
  | infinity true => "-Infinity"
  | nan => "NaN"

end JsNumber

inductive Scalar
  | bool (b : Bool)
  | num (n : JsNumber)
  | str (s : String)
  deriving DecidableEq, Repr

/-- `String(value)`. -/
def Scalar.text (numberToString : ℚ → String) : Scalar → String
  | .bool b => if b then "true" else "false"
  | .num n => n.text numberToString
  | .str s => s

/-- `asBool` of `core/util.ts`: only an explicit `true` or `1`, as it is or as text, enables. -/
def asBool : Scalar → Bool
  | .bool b => b
  | .num n => n = .finite 1
  | .str s => s = "1" || s.toLower = "true"

/-! ### Text -/

/-- White space as the language counts it, line ends included. -/
def isSpace (c : Char) : Bool :=
  let n := c.toNat
  (9 ≤ n && n ≤ 13) || (0x2000 ≤ n && n ≤ 0x200A) ||
    n ∈ [32, 0xA0, 0x1680, 0x2028, 0x2029, 0x202F, 0x205F, 0x3000, 0xFEFF]

/-- `s.trim()`. -/
def trim (s : String) : String :=
  String.ofList ((s.toList.dropWhile isSpace).reverse.dropWhile isSpace).reverse

/-- `/^\d+$/.test(s)`. -/
def allDigits (s : String) : Bool := s ≠ "" && s.toList.all Char.isDigit

/-- `a.toLowerCase() === b.trim().toLowerCase()`, for an `a` of unaccented letters. -/
def sameLabel (a b : String) : Bool := a.toLower = (trim b).toLower

/-- The types raw wire values come in: cloud records carry strings. -/
class WireValue (ρ : Type) where
  scalar : ρ → Scalar

instance : WireValue Scalar := ⟨id⟩

instance : WireValue String := ⟨.str⟩

end EufySdk
