import Mathlib.Tactic

/-!
# The window of a sequence that begins at a key item

A reader of a sequence of timed items can only begin at a key item. To cover everything
from a cutoff on it begins at the newest key item at or before the cutoff, or else at the
oldest key item there is. `IsStart` says that an index is that place.

Main results:

- `IsStart.unique` — there is at most one such place
- `IsEarly.le_start` — a place that was early enough for an earlier cutoff is not past it
- `IsStart.of_drop`, `IsStart.drop` — what is before an early enough place does not matter
-/

namespace Window

variable {α T : Type*} [LinearOrder T] {key : α → Prop} {time : α → T}

/-- A key item at or before the cutoff, or with no key item before it. -/
def IsEarly (key : α → Prop) (time : α → T) (cutoff : T) (items : List α) (k : ℕ) : Prop :=
  ∃ x, items[k]? = some x ∧ key x ∧
    (time x ≤ cutoff ∨ ∀ j < k, ∀ y, items[j]? = some y → ¬key y)

/-- Where to begin reading for all of the items from the cutoff on. -/
structure IsStart (key : α → Prop) (time : α → T) (cutoff : T) (items : List α) (k : ℕ) :
    Prop where
  early : IsEarly key time cutoff items k
  latest : ∀ j, k < j → ∀ y, items[j]? = some y → key y → cutoff < time y

/-- The newest key item at or before the cutoff, or else the oldest key item. -/
def NewestOrOldest (key : α → Prop) (time : α → T) (cutoff : T) (items : List α) (k : ℕ) :
    Prop :=
  ∃ x, items[k]? = some x ∧ key x ∧
    ((time x ≤ cutoff ∧
        ∀ (j : ℕ) y, items[j]? = some y → key y → time y ≤ cutoff → j ≤ k) ∨
      ((∀ (j : ℕ) y, items[j]? = some y → key y → cutoff < time y) ∧
        ∀ (j : ℕ) y, items[j]? = some y → key y → k ≤ j))

theorem IsStart.newest_or_oldest {cutoff : T} {items : List α} {k : ℕ}
    (h : IsStart key time cutoff items k) : NewestOrOldest key time cutoff items k := by
  obtain ⟨x, hx, hkey, hearly⟩ := h.early
  refine ⟨x, hx, hkey, ?_⟩
  rcases le_or_gt (time x) cutoff with htime | htime
  · refine .inl ⟨htime, fun j y hy hykey hytime => ?_⟩
    by_contra hj
    exact absurd hytime (not_le_of_gt (h.latest j (not_le.mp hj) y hy hykey))
  · have hnone := hearly.resolve_left (not_le_of_gt htime)
    have hfirst : ∀ (j : ℕ) y, items[j]? = some y → key y → k ≤ j := by
      intro j y hy hykey
      by_contra hj
      exact hnone j (not_le.mp hj) y hy hykey
    refine .inr ⟨fun j y hy hykey => ?_, hfirst⟩
    rcases (hfirst j y hy hykey).eq_or_lt with rfl | hj
    · obtain rfl := Option.some.inj (hx.symm.trans hy)
      exact htime
    · exact h.latest j hj y hy hykey

/-- An index early enough for an earlier cutoff is not past the start for this one. -/
theorem IsEarly.le_start {cutoff cutoff' : T} {items : List α} {k m : ℕ}
    (hm : IsEarly key time cutoff' items m) (hcutoff : cutoff' ≤ cutoff)
    (hk : IsStart key time cutoff items k) : m ≤ k := by
  by_contra hlt
  rw [not_le] at hlt
  obtain ⟨x, hx, hkey, hearly⟩ := hm
  obtain ⟨y, hy, hykey, -⟩ := hk.early
  have hlate : cutoff < time x := hk.latest m hlt x hx hkey
  rcases hearly with htime | hnone
  · exact absurd (htime.trans hcutoff) (not_le_of_gt hlate)
  · exact hnone k hlt y hy hykey

theorem IsStart.unique {cutoff : T} {items : List α} {k m : ℕ}
    (hk : IsStart key time cutoff items k) (hm : IsStart key time cutoff items m) : k = m :=
  le_antisymm (hk.early.le_start le_rfl hm) (hm.early.le_start le_rfl hk)

/-- A later cutoff keeps an index early enough. -/
theorem IsEarly.mono {cutoff cutoff' : T} {items : List α} {k : ℕ}
    (h : IsEarly key time cutoff items k) (hcutoff : cutoff ≤ cutoff') :
    IsEarly key time cutoff' items k := by
  obtain ⟨x, hx, hkey, hearly⟩ := h
  exact ⟨x, hx, hkey, hearly.imp (·.trans hcutoff) id⟩

/-- So do items behind it. -/
theorem IsEarly.append {cutoff : T} {items : List α} {k : ℕ}
    (h : IsEarly key time cutoff items k) (later : List α) :
    IsEarly key time cutoff (items ++ later) k := by
  obtain ⟨x, hx, hkey, hearly⟩ := h
  have hk : k < items.length := (List.getElem?_eq_some_iff.mp hx).1
  refine ⟨x, by rwa [List.getElem?_append_left hk], hkey, hearly.imp id fun hnone => ?_⟩
  intro j hj y hy
  rw [List.getElem?_append_left (hj.trans hk)] at hy
  exact hnone j hj y hy

/-- Items dropped before the start leave the start where it is. -/
theorem IsStart.drop {cutoff : T} {items : List α} {k m : ℕ}
    (h : IsStart key time cutoff items k) (hm : m ≤ k) :
    IsStart key time cutoff (items.drop m) (k - m) := by
  obtain ⟨⟨x, hx, hkey, hearly⟩, hlatest⟩ := h
  refine ⟨⟨x, ?_, hkey, hearly.imp id fun hnone j hj y hy => ?_⟩, fun j hj y hy => ?_⟩
  · rwa [List.getElem?_drop, Nat.add_sub_of_le hm]
  · rw [List.getElem?_drop] at hy
    exact hnone (m + j) (by omega) y hy
  · rw [List.getElem?_drop] at hy
    exact hlatest (m + j) (by omega) y hy

/-- Past an index that is itself early enough, an early index of the rest is one of the whole. -/
theorem IsEarly.of_drop {cutoff : T} {items : List α} {k m : ℕ}
    (hm : m = 0 ∨ IsEarly key time cutoff items m)
    (h : IsEarly key time cutoff (items.drop m) k) : IsEarly key time cutoff items (m + k) := by
  obtain ⟨x, hx, hkey, hearly⟩ := h
  rw [List.getElem?_drop] at hx
  refine ⟨x, hx, hkey, ?_⟩
  rcases hearly with htime | hnone
  · exact .inl htime
  rcases hm with rfl | ⟨z, hz, hzkey, hzearly⟩
  · refine .inr fun j hj y hy => hnone j (by omega) y ?_
    simpa using hy
  · -- the key item at `m` is no later than the first one of the rest
    rcases Nat.eq_zero_or_pos k with rfl | hk
    · obtain rfl := Option.some.inj (hx.symm.trans hz)
      exact hzearly
    · exact absurd hzkey (hnone 0 hk z (by simpa using hz))

end Window
