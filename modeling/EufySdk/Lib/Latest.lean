import Mathlib.Tactic

/-!
# Keeping the latest

A place for one value takes what is offered unless it is older, by its key, than what is held.
Of values with different keys it ends up with the greatest, in whatever order they are offered.

Main definitions:

- `keep` — one value offered
- `kept` — some values offered one after the other
-/

namespace Latest

variable {α κ : Type*} [LinearOrder κ]

/-- Take `x`, unless it is older than what is held. -/
def keep (key : α → κ) (held : Option α) (x : α) : Option α :=
  match held with
  | none => some x
  | some h => if key x < key h then some h else some x

/-- What is held behind some values. -/
def kept (key : α → κ) (held : Option α) (xs : List α) : Option α := xs.foldl (keep key) held

variable {key : α → κ} {held : Option α} {x y : α} {xs ys : List α}

@[simp] theorem keep_none : keep key none x = some x := rfl

theorem keep_some {h : α} : keep key (some h) x = if key x < key h then some h else some x := rfl

@[simp] theorem kept_nil : kept key held [] = held := rfl

@[simp] theorem kept_cons : kept key held (x :: xs) = kept key (keep key held x) xs := rfl

theorem kept_append : kept key held (xs ++ ys) = kept key (kept key held xs) ys :=
  List.foldl_append

/-- What is held is one of the two. -/
theorem keep_cases : keep key held x = held ∨ keep key held x = some x := by
  cases held with
  | none => exact .inr rfl
  | some h =>
    rw [keep_some]
    split
    · exact .inl rfl
    · exact .inr rfl

/-- What is held is at least as late as both. -/
theorem le_keep {z : α} (hz : keep key held x = some z) :
    key x ≤ key z ∧ ∀ h, held = some h → key h ≤ key z := by
  cases held with
  | none =>
    obtain rfl := Option.some.inj hz
    exact ⟨le_rfl, nofun⟩
  | some h =>
    rw [keep_some] at hz
    split at hz
    · next hlt =>
      obtain rfl := Option.some.inj hz
      exact ⟨hlt.le, fun g hg => Option.some.inj hg ▸ le_rfl⟩
    · next hnot =>
      obtain rfl := Option.some.inj hz
      exact ⟨le_rfl, fun g hg => Option.some.inj hg ▸ not_lt.mp hnot⟩

theorem keep_ne_none : keep key held x ≠ none := by
  cases held with
  | none => exact nofun
  | some h =>
    rw [keep_some]
    split <;> exact nofun

/-- What is held in the end was offered, or is held from the start. -/
theorem mem_of_kept {z : α} (hz : kept key held xs = some z) : z ∈ xs ∨ held = some z := by
  induction xs generalizing held with
  | nil => exact .inr hz
  | cons x xs ih =>
    obtain hmem | hhere := ih hz
    · exact .inl (List.mem_cons_of_mem x hmem)
    · have hkeep : keep key held x = held ∨ keep key held x = some x := keep_cases
      obtain heq | heq := hkeep
      · exact .inr (heq.symm.trans hhere)
      · obtain rfl := Option.some.inj (heq.symm.trans hhere)
        exact .inl List.mem_cons_self

/-- What is held in the end is as late as anything. -/
theorem le_kept {z : α} (hz : kept key held xs = some z) :
    (∀ x ∈ xs, key x ≤ key z) ∧ ∀ h, held = some h → key h ≤ key z := by
  induction xs generalizing held with
  | nil => exact ⟨nofun, fun h hh => by rw [Option.some.inj (hh.symm.trans hz)]⟩
  | cons x xs ih =>
    obtain ⟨hlater, hheld⟩ := ih hz
    have hsome : keep key held x ≠ none := keep_ne_none
    obtain ⟨w, hw⟩ := Option.ne_none_iff_exists'.mp hsome
    obtain ⟨hx, hbefore⟩ := le_keep hw
    have hwz := hheld w hw
    refine ⟨fun y hy => ?_, fun h hh => (hbefore h hh).trans hwz⟩
    cases List.mem_cons.mp hy with
    | inl heq => exact heq ▸ hx.trans hwz
    | inr hmem => exact hlater y hmem

theorem kept_eq_none : kept key held xs = none ↔ held = none ∧ xs = [] := by
  induction xs generalizing held with
  | nil => simp
  | cons x xs ih => simp [ih, keep_ne_none]

/-- Two values with different keys may come in either order. -/
theorem keep_comm (hne : key x ≠ key y) :
    keep key (keep key held x) y = keep key (keep key held y) x := by
  cases held with
  | none =>
    rw [keep_none, keep_none, keep_some, keep_some]
    obtain hlt | hlt := lt_or_gt_of_ne hne
    · rw [if_neg hlt.not_gt, if_pos hlt]
    · rw [if_pos hlt, if_neg hlt.not_gt]
  | some h =>
    rw [keep_some, keep_some]
    by_cases hx : key x < key h <;> by_cases hy : key y < key h
    · rw [if_pos hx, if_pos hy, keep_some, keep_some, if_pos hx, if_pos hy]
    · have hxy : key x < key y := hx.trans_le (not_lt.mp hy)
      rw [if_pos hx, if_neg hy, keep_some, keep_some, if_neg hy, if_pos hxy]
    · have hyx : key y < key x := hy.trans_le (not_lt.mp hx)
      rw [if_neg hx, if_pos hy, keep_some, keep_some, if_pos hyx, if_neg hx]
    · rw [if_neg hx, if_neg hy, keep_some, keep_some]
      obtain hlt | hlt := lt_or_gt_of_ne hne
      · rw [if_neg hlt.not_gt, if_pos hlt]
      · rw [if_pos hlt, if_neg hlt.not_gt]

/-- **Order does not matter** among values with different keys. -/
theorem kept_perm (hperm : xs.Perm ys) (hdistinct : xs.Pairwise fun x y => key x ≠ key y) :
    kept key held xs = kept key held ys := by
  apply hperm.foldl_eq'
  intro x hx y hy z
  have : Std.Symm fun x y => key x ≠ key y := ⟨fun _ _ h => h.symm⟩
  by_cases hxy : x = y
  · rw [hxy]
  · exact keep_comm (hdistinct.forall hx hy hxy)

end Latest
