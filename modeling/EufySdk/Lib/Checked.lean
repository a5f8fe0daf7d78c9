import Mathlib.Tactic

/-!
# Computations over checked memory

A computation that reads and writes memory by index comes to a value, gives its input up, makes an
access that is out of bounds, or is not over within the steps it is given. It refines a function
that knows neither indices nor steps where it comes to a value of the function's, and gives up
where that has none.

- `Run` — such a computation
- `Refines` — what it has to do with a function that knows no memory
- `Refines.bind` — computations in sequence
-/

namespace Checked

/-- Why a computation ends without a value. -/
inductive Stop
  | rejected
  | outOfBounds
  | outOfSteps
  deriving DecidableEq, Repr

abbrev Run (α : Type) := Except Stop α

variable {α β γ δ : Type}

/-- The entry at an index. -/
def read (memory : List α) (i : ℕ) : Run α :=
  match memory[i]? with
  | some a => .ok a
  | none => .error .outOfBounds

/-- The memory with another entry at an index. -/
def write (memory : List α) (i : ℕ) (a : α) : Run (List α) :=
  if i < memory.length then .ok (memory.set i a) else .error .outOfBounds

theorem read_of_lt {memory : List α} {i : ℕ} {a : α} (h : memory[i]? = some a) :
    read memory i = .ok a := by
  rw [read, h]

theorem write_of_lt {memory : List α} {i : ℕ} (a : α) (h : i < memory.length) :
    write memory i a = .ok (memory.set i a) := if_pos h

@[simp]
theorem ok_bind (a : α) (f : α → Run β) : (Except.ok a >>= f : Run β) = f a := rfl

/-- Both come to values that are related, or neither comes to one and the computation has given
its input up. -/
inductive Refines (R : α → β → Prop) : Run α → Option β → Prop
  | value {a b} (h : R a b) : Refines R (.ok a) (some b)
  | rejected : Refines R (.error .rejected) none

theorem Refines.bind {R : α → β → Prop} {S : γ → δ → Prop} {run : Run α} {o : Option β}
    {f : α → Run γ} {g : β → Option δ} (h : Refines R run o)
    (hnext : ∀ a b, R a b → Refines S (f a) (g b)) : Refines S (run >>= f) (o >>= g) := by
  cases h with
  | value h => exact hnext _ _ h
  | rejected => exact .rejected

/-- A check that both make. -/
theorem Refines.check {R : α → β → Prop} {run : Run α} {o : Option β} {p q : Prop} [Decidable p]
    [Decidable q] (hpq : p ↔ q) (h : ¬q → Refines R run o) :
    Refines R (if p then .error .rejected else run) (if q then none else o) := by
  by_cases hq : q
  · rw [if_pos (hpq.mpr hq), if_pos hq]
    exact .rejected
  · rw [if_neg (mt hpq.mp hq), if_neg hq]
    exact h hq

theorem Refines.mono {R S : α → β → Prop} {run : Run α} {o : Option β} (h : Refines R run o)
    (hRS : ∀ a b, R a b → S a b) : Refines S run o := by
  cases h with
  | value h => exact .value (hRS _ _ h)
  | rejected => exact .rejected

end Checked
