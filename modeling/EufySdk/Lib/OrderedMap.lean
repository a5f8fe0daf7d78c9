import Mathlib.Tactic

/-!
# Maps in insertion order

A map as the list of its entries, oldest first. A key that is there keeps its place when its
value is set.

Main definitions:

- `get`, `set`, `delete` — the operations
- `get_set`, `get_delete` — what a lookup finds behind each of them
- `sortKeys` — the entries in key order, the same for every order they came in
-/

namespace OrderedMap

variable {κ ν : Type*} [DecidableEq κ]

def get : List (κ × ν) → κ → Option ν
  | [], _ => none
  | (k, v) :: m, key => if k = key then some v else get m key

def set : List (κ × ν) → κ → ν → List (κ × ν)
  | [], key, value => [(key, value)]
  | (k, v) :: m, key, value =>
    if k = key then (key, value) :: m else (k, v) :: set m key value

def delete (m : List (κ × ν)) (key : κ) : List (κ × ν) := m.filter fun e => e.1 ≠ key

variable {m : List (κ × ν)} {k key : κ} {v value : ν}

@[simp]
theorem get_nil : get ([] : List (κ × ν)) key = none := rfl

theorem get_set : get (set m key value) k = if key = k then some value else get m k := by
  induction m with
  | nil => rfl
  | cons e m ih =>
    obtain ⟨k', v'⟩ := e
    rw [set]
    by_cases hhead : k' = key
    · rw [if_pos hhead, get, get, hhead]
      split
      · rfl
      · rfl
    · rw [if_neg hhead, get, get, ih]
      by_cases hk : k' = k
      · rw [if_pos hk, if_pos hk, if_neg (fun h => hhead (hk.trans h.symm))]
      · rw [if_neg hk, if_neg hk]

theorem get_delete : get (delete m key) k = if key = k then none else get m k := by
  induction m with
  | nil => split <;> rfl
  | cons e m ih =>
    obtain ⟨k', v'⟩ := e
    by_cases hhead : k' = key
    · have hgone : delete ((k', v') :: m) key = delete m key :=
        List.filter_cons_of_neg (by simp [hhead])
      rw [hgone, ih, get, hhead]
      split
      · rfl
      · rfl
    · have hkept : delete ((k', v') :: m) key = (k', v') :: delete m key :=
        List.filter_cons_of_pos (by simp [hhead])
      rw [hkept, get, get, ih]
      by_cases hk : k' = k
      · rw [if_pos hk, if_pos hk, if_neg (fun h => hhead (hk.trans h.symm))]
      · rw [if_neg hk, if_neg hk]

theorem get_of_get_delete (h : get (delete m key) k = some v) : get m k = some v := by
  rw [get_delete] at h
  split at h
  · cases h
  · exact h

/-- What a lookup finds is an entry. -/
theorem mem_of_get (h : get m k = some v) : (k, v) ∈ m := by
  induction m with
  | nil => cases h
  | cons e m ih =>
    obtain ⟨k', v'⟩ := e
    rw [get] at h
    split at h
    · rename_i hk
      obtain rfl := Option.some.inj h
      rw [hk]
      exact List.mem_cons_self
    · exact List.mem_cons_of_mem _ (ih h)

theorem mem_keys_of_set (h : k ∈ (set m key value).map Prod.fst) :
    k = key ∨ k ∈ m.map Prod.fst := by
  induction m with
  | nil => simpa [set] using h
  | cons e m ih =>
    obtain ⟨k', v'⟩ := e
    rw [set] at h
    by_cases hhead : k' = key
    · rw [if_pos hhead, List.map_cons, List.mem_cons] at h
      exact h.imp_right (List.mem_cons_of_mem _)
    · rw [if_neg hhead, List.map_cons, List.mem_cons] at h
      obtain rfl | hrest := h
      · exact .inr List.mem_cons_self
      · exact (ih hrest).imp_right (List.mem_cons_of_mem _)

theorem nodup_set (h : (m.map Prod.fst).Nodup) : ((set m key value).map Prod.fst).Nodup := by
  induction m with
  | nil => exact List.nodup_singleton key
  | cons e m ih =>
    obtain ⟨k', v'⟩ := e
    obtain ⟨hfirst, hrest⟩ := List.nodup_cons.mp h
    rw [set]
    by_cases hhead : k' = key
    · rw [if_pos hhead]
      exact List.nodup_cons.mpr ⟨hhead ▸ hfirst, hrest⟩
    · rw [if_neg hhead]
      refine List.nodup_cons.mpr ⟨fun hmem => ?_, ih hrest⟩
      exact (mem_keys_of_set hmem).elim hhead hfirst

/-- An entry behind a write is the one written, or was there. -/
theorem mem_set {e : κ × ν} (h : e ∈ set m key value) : e = (key, value) ∨ e ∈ m := by
  induction m with
  | nil => exact .inl (List.mem_singleton.mp h)
  | cons e' m ih =>
    obtain ⟨k', v'⟩ := e'
    rw [set] at h
    split at h
    · obtain rfl | hmem := List.mem_cons.mp h
      · exact .inl rfl
      · exact .inr (List.mem_cons_of_mem _ hmem)
    · obtain rfl | hmem := List.mem_cons.mp h
      · exact .inr List.mem_cons_self
      · exact (ih hmem).imp_right (List.mem_cons_of_mem _)

/-- An entry is what a lookup of its key finds, where no key is there twice. -/
theorem get_of_mem (hnodup : (m.map Prod.fst).Nodup) (h : (k, v) ∈ m) : get m k = some v := by
  induction m with
  | nil => cases h
  | cons e m ih =>
    obtain ⟨k', v'⟩ := e
    obtain ⟨hfirst, hrest⟩ := List.nodup_cons.mp hnodup
    rw [get]
    cases h with
    | head => rw [if_pos rfl]
    | tail _ hmem =>
      have hkey : k ∈ m.map Prod.fst := List.mem_map.mpr ⟨(k, v), hmem, rfl⟩
      have hne : k' ≠ k := by
        rintro rfl
        exact hfirst hkey
      rw [if_neg hne]
      exact ih hrest hmem

theorem keys_delete : (delete m key).map Prod.fst = (m.map Prod.fst).filter (· ≠ key) :=
  (List.filter_map (p := (· ≠ key)) (f := Prod.fst) (l := m)).symm

/-- A key that is not there comes in behind the others. -/
theorem set_of_not_mem (h : key ∉ m.map Prod.fst) : set m key value = m ++ [(key, value)] := by
  induction m with
  | nil => rfl
  | cons e m ih =>
    obtain ⟨k', v'⟩ := e
    rw [List.map_cons, List.mem_cons, not_or] at h
    rw [set, if_neg fun heq => h.1 heq.symm, ih h.2]
    rfl

theorem set_delete_self : set (delete m key) key value = delete m key ++ [(key, value)] := by
  refine set_of_not_mem ?_
  rw [keys_delete]
  exact fun hmem => of_decide_eq_true (List.mem_filter.mp hmem).2 rfl

/-- An entry and the others are the map. -/
theorem cons_delete_perm (hnodup : (m.map Prod.fst).Nodup) (h : (k, v) ∈ m) :
    ((k, v) :: delete m k).Perm m := by
  induction m with
  | nil => cases h
  | cons e m ih =>
    obtain ⟨hfirst, hrest⟩ := List.nodup_cons.mp hnodup
    rcases List.mem_cons.mp h with rfl | hmem
    · have hgone : delete ((k, v) :: m) k = m := by
        rw [delete, List.filter_cons_of_neg (by simp), List.filter_eq_self]
        intro e he
        refine decide_eq_true fun heq => hfirst ?_
        exact List.mem_map.mpr ⟨e, he, heq⟩
      rw [hgone]
    · have hne : e.1 ≠ k := fun heq => hfirst (List.mem_map.mpr ⟨(k, v), hmem, heq.symm⟩)
      have hkept : delete (e :: m) k = e :: delete m k :=
        List.filter_cons_of_pos (decide_eq_true hne)
      rw [hkept]
      exact (List.Perm.swap e (k, v) _).trans ((ih hrest hmem).cons e)

/-- A write is an entry and the others. -/
theorem set_perm (key : κ) (value : ν) (hnodup : (m.map Prod.fst).Nodup) :
    (set m key value).Perm ((key, value) :: delete m key) := by
  induction m with
  | nil => exact .refl _
  | cons e m ih =>
    obtain ⟨k', v'⟩ := e
    obtain ⟨hfirst, hrest⟩ := List.nodup_cons.mp hnodup
    rw [set]
    by_cases hhead : k' = key
    · have hgone : delete ((k', v') :: m) key = m := by
        rw [delete, List.filter_cons_of_neg (by simp [hhead]), List.filter_eq_self]
        intro e he
        refine decide_eq_true fun heq => hfirst ?_
        exact List.mem_map.mpr ⟨e, he, heq.trans hhead.symm⟩
      rw [if_pos hhead, hgone]
    · have hkept : delete ((k', v') :: m) key = (k', v') :: delete m key :=
        List.filter_cons_of_pos (decide_eq_true hhead)
      rw [if_neg hhead, hkept]
      exact ((ih hrest).cons _).trans (List.Perm.swap _ _ _)

theorem get_map_snd {ν' : Type*} (f : ν → ν') (m : List (κ × ν)) (key : κ) :
    get (m.map fun e => (e.1, f e.2)) key = (get m key).map f := by
  induction m with
  | nil => rfl
  | cons e m ih =>
    rw [List.map_cons, get, get]
    split
    · rfl
    · exact ih

/-- A map holds the entries of another as large if every one of them is looked up in it. -/
theorem perm_iff_get {m n : List (κ × ν)} (hm : (m.map Prod.fst).Nodup)
    (hn : (n.map Prod.fst).Nodup) :
    m.Perm n ↔ m.length = n.length ∧ ∀ e ∈ m, get n e.1 = some e.2 := by
  constructor
  · intro hperm
    exact ⟨hperm.length_eq, fun e he => get_of_mem hn (hperm.subset he)⟩
  · rintro ⟨hlen, hget⟩
    have hsub : m ⊆ n := fun e he => mem_of_get (hget e he)
    exact (List.subperm_of_subset hm.of_map hsub).perm_of_length_le hlen.ge

section SortKeys

variable {κ ν : Type*} [LinearOrder κ]

def sortKeys (m : List (κ × ν)) : List (κ × ν) := m.mergeSort fun e f => e.1 ≤ f.1

theorem sortKeys_perm (m : List (κ × ν)) : (sortKeys m).Perm m := List.mergeSort_perm m _

theorem sortKeys_pairwise (m : List (κ × ν)) : (sortKeys m).Pairwise fun e f => e.1 ≤ f.1 := by
  have htrans (a b c : κ × ν) (hab : decide (a.1 ≤ b.1) = true) (hbc : decide (b.1 ≤ c.1) = true) :
      decide (a.1 ≤ c.1) = true :=
    decide_eq_true ((of_decide_eq_true hab).trans (of_decide_eq_true hbc))
  have htotal (a b : κ × ν) : (decide (a.1 ≤ b.1) || decide (b.1 ≤ a.1)) = true := by
    rw [Bool.or_eq_true, decide_eq_true_eq, decide_eq_true_eq]
    exact le_total a.1 b.1
  exact (List.pairwise_mergeSort htrans htotal m).imp of_decide_eq_true

/-- **The sorted entries** of two maps are the same if and only if the maps hold the same
entries. -/
theorem sortKeys_eq_iff {m n : List (κ × ν)} (hm : (m.map Prod.fst).Nodup) :
    sortKeys m = sortKeys n ↔ m.Perm n := by
  constructor
  · intro h
    exact (sortKeys_perm m).symm.trans (h ▸ sortKeys_perm n)
  · intro hperm
    refine List.Perm.eq_of_pairwise ?_ (sortKeys_pairwise m) (sortKeys_pairwise n)
      ((sortKeys_perm m).trans (hperm.trans (sortKeys_perm n).symm))
    intro a b ha hb hab hba
    have ha' : a ∈ m := (sortKeys_perm m).subset ha
    have hb' : b ∈ m := hperm.symm.subset ((sortKeys_perm n).subset hb)
    exact List.inj_on_of_nodup_map hm ha' hb' (le_antisymm hab hba)

end SortKeys

end OrderedMap
