import Mathlib.Tactic
import EufySdk.Lib.OrderedMap

/-!
# Iterating over a map that changes

A loop over the entries of a map in the order they came in, whose body deletes and sets entries of
the same map. An entry that is deleted ahead of the loop is not come to; one that is set under a key
that is not there goes behind all others, and is come to.

- `Cursor` — a map while a loop goes over it
- `iterate` — the loop
- `iterate_isSome` — it ends, where every turn takes from a measure of what is ahead
- `iterate_invariant` — what every turn keeps holds behind the loop
-/

namespace LiveMap

open OrderedMap

variable {κ ν σ : Type*}

/-- The entries a loop has passed that are still there, and those ahead of it. -/
structure Cursor (κ ν : Type*) where
  passed : List (κ × ν)
  ahead : List (κ × ν)

namespace Cursor

def entries (c : Cursor κ ν) : List (κ × ν) := c.passed ++ c.ahead

def delete [DecidableEq κ] (c : Cursor κ ν) (key : κ) : Cursor κ ν where
  passed := OrderedMap.delete c.passed key
  ahead := OrderedMap.delete c.ahead key

def set [DecidableEq κ] (c : Cursor κ ν) (key : κ) (value : ν) : Cursor κ ν :=
  if key ∈ c.passed.map Prod.fst then { c with passed := OrderedMap.set c.passed key value }
  else { c with ahead := OrderedMap.set c.ahead key value }

/-- The loop goes past an entry. -/
def pass (c : Cursor κ ν) (e : κ × ν) (rest : List (κ × ν)) : Cursor κ ν where
  passed := c.passed ++ [e]
  ahead := rest

theorem entries_pass {c : Cursor κ ν} {e : κ × ν} {rest : List (κ × ν)} (h : c.ahead = e :: rest) :
    (c.pass e rest).entries = c.entries := by
  rw [entries, entries, pass, h, List.append_assoc]
  rfl

@[simp]
theorem entries_delete [DecidableEq κ] (c : Cursor κ ν) (key : κ) :
    (c.delete key).entries = OrderedMap.delete c.entries key :=
  (List.filter_append c.passed c.ahead).symm

/-- What is set behind its deletion is ahead of the loop. -/
theorem delete_set [DecidableEq κ] (c : Cursor κ ν) (key : κ) (value : ν) :
    (c.delete key).set key value =
      ⟨OrderedMap.delete c.passed key, OrderedMap.delete c.ahead key ++ [(key, value)]⟩ := by
  have hgone : key ∉ (c.delete key).passed.map Prod.fst := by
    rw [delete, keys_delete]
    exact fun hmem => of_decide_eq_true (List.mem_filter.mp hmem).2 rfl
  rw [set, if_neg hgone]
  exact congrArg _ set_delete_self

end Cursor

/-- How a turn of a loop ends. -/
structure Turned (σ κ ν : Type*) where
  state : σ
  cursor : Cursor κ ν
  /-- An exception leaves the loop. -/
  threw : Bool := false

/-- The loop, with a state besides the map; nothing where it takes more turns than the first
argument says. -/
def iterate (body : σ → κ × ν → Cursor κ ν → Turned σ κ ν) :
    ℕ → σ → Cursor κ ν → Option (Turned σ κ ν)
  | 0, _, _ => none
  | turns + 1, s, c =>
    match c.ahead with
    | [] => some ⟨s, c, false⟩
    | e :: rest =>
      let r := body s e (c.pass e rest)
      if r.threw then some r else iterate body turns r.state r.cursor

variable {body : σ → κ × ν → Cursor κ ν → Turned σ κ ν}

/-- **A loop ends** where every turn leaves less ahead of it. -/
theorem iterate_isSome (measure : List (κ × ν) → ℕ)
    (hless : ∀ s e (c : Cursor κ ν) rest, c.ahead = e :: rest →
      measure (body s e (c.pass e rest)).cursor.ahead < measure c.ahead)
    {turns : ℕ} {s : σ} {c : Cursor κ ν} (hturns : measure c.ahead < turns) :
    (iterate body turns s c).isSome := by
  induction turns generalizing s c with
  | zero => omega
  | succ turns ih =>
    rw [iterate]
    cases hahead : c.ahead with
    | nil => rfl
    | cons e rest =>
      have hstep := hless s e c rest hahead
      dsimp only
      split_ifs
      · rfl
      · exact ih (by omega)

/-- **Invariant rule.** What every turn keeps holds behind the loop. -/
theorem iterate_invariant (P : σ → Cursor κ ν → Prop)
    (hkeep : ∀ s e (c : Cursor κ ν) rest, c.ahead = e :: rest → P s c →
      P (body s e (c.pass e rest)).state (body s e (c.pass e rest)).cursor)
    {turns : ℕ} {s : σ} {c : Cursor κ ν} {r : Turned σ κ ν} (hstart : P s c)
    (h : iterate body turns s c = some r) : P r.state r.cursor := by
  induction turns generalizing s c with
  | zero => cases h
  | succ turns ih =>
    rw [iterate] at h
    cases hahead : c.ahead with
    | nil =>
      rw [hahead] at h
      obtain rfl := Option.some.inj h
      exact hstart
    | cons e rest =>
      rw [hahead] at h
      have hnext := hkeep s e c rest hahead hstart
      dsimp only at h
      split_ifs at h
      · obtain rfl := Option.some.inj h
        exact hnext
      · exact ih hnext h

end LiveMap
