import Mathlib.Tactic
import Mathlib.Data.List.SplitBy

/-!
# Grouping a list as its elements come

`List.splitBy` cuts a list where an element does not continue the one before it. The cuts behind
one more element, and the groups of a list that is known to be made of them.

- `splitBy_concat_of_continues`, `splitBy_concat_of_parted` — the groups behind one more element
-/

namespace Groups

variable {α : Type*} {r : α → α → Bool} {l : List α} {gs : List (List α)} {g : List α}

theorem getLast?_of_splitBy_eq (h : l.splitBy r = gs ++ [g]) : l.getLast? = g.getLast? := by
  have hg : g ≠ [] := List.ne_nil_of_mem_splitBy (h ▸ List.mem_append_right gs List.mem_cons_self)
  have hl : l = gs.flatten ++ g := by
    rw [← List.flatten_splitBy r l, h, List.flatten_append, List.flatten_singleton]
  rw [hl, List.getLast?_append_of_ne_nil _ hg]

/-- An element that continues the last one joins its group. -/
theorem splitBy_concat_of_continues {a b : α} (h : l.splitBy r = gs ++ [g])
    (ha : l.getLast? = some a) (hab : r a b = true) :
    (l ++ [b]).splitBy r = gs ++ [g ++ [b]] := by
  obtain ⟨hflat, hne, hchain, hparted⟩ := List.splitBy_eq_iff.mp h
  rw [getLast?_of_splitBy_eq h] at ha
  rw [List.splitBy_eq_iff]
  refine ⟨?_, ?_, ?_, ?_⟩
  · rw [hflat]
    simp
  · simp only [List.mem_append, List.mem_singleton, not_or] at hne ⊢
    exact ⟨hne.1, fun hnil => List.append_ne_nil_of_right_ne_nil g (List.cons_ne_nil b []) hnil.symm⟩
  · intro m hm
    rcases List.mem_append.mp hm with hold | hnew
    · exact hchain m (List.mem_append_left _ hold)
    · obtain rfl := List.mem_singleton.mp hnew
      refine List.isChain_append.mpr ⟨hchain g (by simp), List.isChain_singleton b, ?_⟩
      intro x hx y hy
      obtain rfl := Option.some.inj (ha.symm.trans hx)
      obtain rfl := Option.some.inj hy
      exact hab
  · have hg : g ≠ [] := by
      rintro rfl
      simp at ha
    rw [List.isChain_append] at hparted ⊢
    refine ⟨hparted.1, List.isChain_singleton _, fun x hx y hy => ?_⟩
    obtain rfl := Option.some.inj hy
    obtain ⟨hx', _, hcut⟩ := hparted.2.2 x hx g rfl
    refine ⟨hx', List.append_ne_nil_of_left_ne_nil hg [b], ?_⟩
    rw [List.head_append_of_ne_nil hg]
    exact hcut

/-- An element that does not continue the last one begins a group. -/
theorem splitBy_concat_of_parted {b : α} (hab : ∀ a ∈ l.getLast?, r a b = false) :
    (l ++ [b]).splitBy r = l.splitBy r ++ [[b]] := by
  rw [List.splitBy_append_cons [] hab]
  rfl

end Groups
