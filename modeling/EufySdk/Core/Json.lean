import Mathlib.Tactic
import EufySdk.Core.Thrown

/-!
# Values `JSON.parse` returns

JSON values as the code sees them after parsing, the property reads it makes on
them, and the conversion `String(value)`, which can throw: an object that has an
own key `toString` has no callable conversion left.
-/

namespace EufySdk

/-- A parsed JSON value. Numbers are the rationals a double can hold. -/
inductive Json
  | null
  | bool (b : Bool)
  | num (n : ℚ)
  | str (s : String)
  | arr (elems : List Json)
  | obj (fields : List (String × Json))

namespace Json

/-- `value?.key`, which is `undefined` for anything but an object that has the key. -/
def get? (key : String) : Json → Option Json
  | obj fields => (fields.find? fun f => f.1 = key).map Prod.snd
  | _ => none

def isNull : Json → Bool
  | null => true
  | _ => false

section Display

variable (numberToString : ℚ → String)

mutual

/-- `String(value)`. -/
def display : Json → Except Thrown String
  | null => .ok "null"
  | bool b => .ok (if b then "true" else "false")
  | num n => .ok (numberToString n)
  | str s => .ok s
  | arr elems => do
    let parts ← displayElems elems
    return ",".intercalate parts
  | obj fields =>
    if fields.any fun f => f.1 = "toString" then .error .typeError else .ok "[object Object]"

/-- The parts `Array.prototype.join` puts together: a `null` element is empty. -/
def displayElems : List Json → Except Thrown (List String)
  | [] => .ok []
  | elem :: rest => do
    let part ← (if elem.isNull then .ok "" else display elem : Except Thrown String)
    let parts ← displayElems rest
    return part :: parts

end

end Display

mutual

/-- Converting the value calls no key of its own: it is no object with a key `toString`, nor
an array in which one is nested. -/
def printable : Json → Bool
  | arr elems => allPrintable elems
  | obj fields => !fields.any fun f => f.1 = "toString"
  | _ => true

def allPrintable : List Json → Bool
  | [] => true
  | elem :: rest => elem.printable && allPrintable rest

end

section Display

variable (numberToString : ℚ → String)

mutual

/-- The conversion returns exactly for printable values. -/
theorem display_isOk : ∀ j : Json, (j.display numberToString).isOk = j.printable
  | null | bool _ | num _ | str _ => rfl
  | arr elems => by
    have h := displayElems_isOk elems
    rw [display, printable, ← h]
    cases displayElems numberToString elems <;> rfl
  | obj fields => by
    rw [display, printable]
    by_cases hkey : (fields.any fun f => f.1 = "toString") = true
    · rw [if_pos hkey, hkey]
      rfl
    · rw [if_neg hkey, Bool.eq_false_iff.mpr hkey]
      rfl

theorem displayElems_isOk : ∀ elems : List Json,
    (displayElems numberToString elems).isOk = allPrintable elems
  | [] => rfl
  | elem :: rest => by
    have hrest := displayElems_isOk rest
    have helem : (if elem.isNull then Except.ok "" else elem.display numberToString).isOk =
        elem.printable := by
      by_cases hnull : elem.isNull
      · cases elem with
        | null => rfl
        | _ => cases hnull
      · rw [if_neg hnull]
        exact display_isOk elem
    rw [displayElems, allPrintable, ← hrest, ← helem]
    cases (if elem.isNull then Except.ok "" else elem.display numberToString) with
    | error e => rfl
    | ok part => cases displayElems numberToString rest <;> rfl

end

end Display

end Json
end EufySdk
