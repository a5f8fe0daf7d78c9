import Mathlib.Tactic

/-!
# Questions to a log

A log is kept newest first, and a question to it is answered by the newest entry that bears
on it: each entry says yes, says no, or passes.

- `newest` — the answer
- `since` — what a longer log holds beyond a shorter one
-/

namespace History

variable {α : Type*}

/-- The answer of the newest entry that bears on the question; no, where none does. -/
def newest (question : α → Option Bool) (log : List α) : Bool :=
  (log.findSome? question).getD false

/-- The entries of `new` beyond those of `old`. -/
def since (old new : List α) : List α := new.take (new.length - old.length)

variable {question : α → Option Bool} {log : List α}

@[simp] theorem newest_nil : newest question [] = false := rfl

@[simp] theorem newest_cons (a : α) :
    newest question (a :: log) = (question a).getD (newest question log) := by
  unfold newest
  cases h : question a with
  | none => rw [List.findSome?_cons_of_isNone (by simp [h])]; rfl
  | some b => rw [List.findSome?_cons_of_isSome (by simp [h]), h]; rfl

/-- Entries that pass change no answer. -/
theorem newest_append {as : List α} (h : ∀ a ∈ as, question a = none) :
    newest question (as ++ log) = newest question log := by
  induction as with
  | nil => rfl
  | cons a as ih =>
    rw [List.cons_append, newest_cons, h a List.mem_cons_self,
      ih fun b hb => h b (List.mem_cons_of_mem a hb)]
    rfl

@[simp] theorem since_append (as : List α) : since log (as ++ log) = as := by
  unfold since
  rw [List.length_append, Nat.add_sub_cancel, List.take_left]

@[simp] theorem since_cons (a : α) : since log (a :: log) = [a] := since_append [a]

@[simp] theorem since_self : since log log = [] := since_append []

end History
