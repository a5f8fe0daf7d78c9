import Mathlib.Tactic

/-!
# Finite maps in key order

A finite map as the list of its entries in ascending key order, each key once. Going
through the entries in that order is part of what such a map means: whoever folds over
one sees the greater key later.

Main definitions:

- `SortedMap` — the entries, with their order
- `SortedMap.insert`, `SortedMap.erase`, `SortedMap.filter` — one entry written, entries
  dropped
- `SortedMap.join` — the entries of both, where the second map wins
-/

/-- A finite map from `κ` to `β`, in ascending key order. -/
structure SortedMap (κ β : Type*) [LinearOrder κ] where
  entries : List (κ × β)
  sorted : entries.Pairwise fun x y => x.1 < y.1

namespace SortedMap

variable {κ β : Type*} [LinearOrder κ]

def empty : SortedMap κ β := ⟨[], .nil⟩

/-- A map with one entry. -/
def single (k : κ) (v : β) : SortedMap κ β := ⟨[(k, v)], List.pairwise_singleton _ _⟩

def find? (m : SortedMap κ β) (k : κ) : Option β :=
  (m.entries.find? fun e => e.1 = k).map Prod.snd

@[simp] theorem find?_empty (k : κ) : (empty : SortedMap κ β).find? k = none := rfl

/-- Whether the key has an entry. -/
def contains (m : SortedMap κ β) (k : κ) : Bool := m.entries.any fun e => e.1 = k

def isEmpty (m : SortedMap κ β) : Bool := m.entries.isEmpty

/-- Write one entry at its place in the order. -/
def insertEntry (k : κ) (v : β) : List (κ × β) → List (κ × β)
  | [] => [(k, v)]
  | e :: rest =>
    if k < e.1 then (k, v) :: e :: rest
    else if k = e.1 then (k, v) :: rest
    else e :: insertEntry k v rest

theorem mem_insertEntry {k : κ} {v : β} {l : List (κ × β)} {x : κ × β}
    (h : x ∈ insertEntry k v l) : x.1 = k ∨ x ∈ l := by
  induction l with
  | nil =>
    left
    rw [List.mem_singleton.mp h]
  | cons e rest ih =>
    rw [insertEntry] at h
    split_ifs at h with hlt heq
    · rcases List.mem_cons.mp h with rfl | h
      · exact .inl rfl
      · exact .inr h
    · rcases List.mem_cons.mp h with rfl | h
      · exact .inl rfl
      · exact .inr (List.mem_cons_of_mem _ h)
    · rcases List.mem_cons.mp h with rfl | h
      · exact .inr List.mem_cons_self
      · exact (ih h).imp id (List.mem_cons_of_mem _)

theorem insertEntry_sorted {k : κ} {v : β} {l : List (κ × β)}
    (h : l.Pairwise fun x y => x.1 < y.1) :
    (insertEntry k v l).Pairwise fun x y => x.1 < y.1 := by
  induction l with
  | nil => exact List.pairwise_singleton _ _
  | cons e rest ih =>
    obtain ⟨hhead, htail⟩ := List.pairwise_cons.mp h
    rw [insertEntry]
    split_ifs with hlt heq
    · refine List.pairwise_cons.mpr ⟨fun x hx => ?_, h⟩
      rcases List.mem_cons.mp hx with rfl | hx
      · exact hlt
      · exact hlt.trans (hhead x hx)
    · exact List.pairwise_cons.mpr ⟨fun x hx => heq ▸ hhead x hx, htail⟩
    · refine List.pairwise_cons.mpr ⟨fun x hx => ?_, ih htail⟩
      rcases mem_insertEntry hx with hk | hx
      · rw [hk]
        exact lt_of_le_of_ne (not_lt.mp hlt) (Ne.symm heq)
      · exact hhead x hx

def insert (m : SortedMap κ β) (k : κ) (v : β) : SortedMap κ β :=
  ⟨insertEntry k v m.entries, insertEntry_sorted m.sorted⟩

/-- The entries of both maps; where both have a key, the second one's. -/
def join (m n : SortedMap κ β) : SortedMap κ β :=
  n.entries.foldl (fun acc e => acc.insert e.1 e.2) m

/-- The entries that meet a test. -/
def filter (keep : κ → β → Bool) (m : SortedMap κ β) : SortedMap κ β :=
  ⟨m.entries.filter fun e => keep e.1 e.2, m.sorted.filter _⟩

/-- The map without the keys that meet a test. -/
def erase (m : SortedMap κ β) (drop : κ → Bool) : SortedMap κ β :=
  m.filter fun k _ => !drop k

/-! ### Lookups -/

variable {m : SortedMap κ β} {k : κ} {v : β}

theorem nodup_keys (m : SortedMap κ β) : (m.entries.map Prod.fst).Nodup :=
  List.pairwise_map.mpr (m.sorted.imp fun h => h.ne)

theorem find?_eq_some_iff : m.find? k = some v ↔ (k, v) ∈ m.entries := by
  rw [find?, Option.map_eq_some_iff]
  constructor
  · rintro ⟨e, hfind, rfl⟩
    have hkey := List.find?_some hfind
    rw [decide_eq_true_eq] at hkey
    exact hkey ▸ List.mem_of_find?_eq_some hfind
  · intro hmem
    have hsome : (m.entries.find? fun e => e.1 = k).isSome :=
      List.find?_isSome.mpr ⟨(k, v), hmem, decide_eq_true rfl⟩
    obtain ⟨e, hfind⟩ := Option.isSome_iff_exists.mp hsome
    have hkey := List.find?_some hfind
    rw [decide_eq_true_eq] at hkey
    -- keys occur once
    have heq : e = (k, v) :=
      List.inj_on_of_nodup_map m.nodup_keys (List.mem_of_find?_eq_some hfind) hmem hkey
    exact ⟨e, hfind, congrArg Prod.snd heq⟩

/-- The last of the entries that pass, given one of them: one of a greater key, else that one. -/
theorem getLast?_filter {f : κ × β → Bool} (hmem : (k, v) ∈ m.entries) (hf : f (k, v) = true) :
    (m.entries.filter f).getLast? =
      some (((m.entries.filter fun e => k < e.1 && f e).getLast?).getD (k, v)) := by
  obtain ⟨front, back, hsplit⟩ := List.append_of_mem hmem
  have hsorted := m.sorted
  rw [hsplit] at hsorted ⊢
  obtain ⟨-, hback, hcross⟩ := List.pairwise_append.mp hsorted
  have hfront : (front.filter fun e => k < e.1 && f e) = [] := by
    refine List.filter_eq_nil_iff.mpr fun e he => ?_
    simp [not_lt.mpr (hcross e he (k, v) List.mem_cons_self).le]
  have hbehind : (back.filter fun e => k < e.1 && f e) = back.filter f :=
    List.filter_congr fun e he => by simp [(List.pairwise_cons.mp hback).1 e he]
  rw [List.filter_append, List.filter_append, hfront, List.filter_cons_of_pos hf,
    List.filter_cons_of_neg (by simp), hbehind, List.nil_append, List.getLast?_append,
    List.getLast?_cons, Option.some_or]

/-- Maps that find the same under a key, by what they find. -/
theorem find?_ext {o : Option β} (h : ∀ v, m.find? k = some v ↔ o = some v) : m.find? k = o :=
  Option.ext h

theorem contains_eq (m : SortedMap κ β) (k : κ) : m.contains k = (m.find? k).isSome := by
  rw [contains, find?, Option.isSome_map, Bool.eq_iff_iff, List.any_eq_true, List.find?_isSome]

theorem find?_filter (keep : κ → β → Bool) (m : SortedMap κ β) (k : κ) :
    (m.filter keep).find? k = (m.find? k).filter (keep k) := by
  apply find?_ext
  intro v
  rw [find?_eq_some_iff, Option.filter_eq_some_iff, find?_eq_some_iff]
  exact List.mem_filter

theorem find?_erase (drop : κ → Bool) (m : SortedMap κ β) (k : κ) :
    (m.erase drop).find? k = if drop k then none else m.find? k := by
  rw [erase, find?_filter]
  cases drop k <;> cases m.find? k <;> rfl

theorem mem_insertEntry_iff {l : List (κ × β)} (h : l.Pairwise fun x y => x.1 < y.1) {x : κ × β} :
    x ∈ insertEntry k v l ↔ x = (k, v) ∨ x.1 ≠ k ∧ x ∈ l := by
  induction l with
  | nil => simp [insertEntry]
  | cons e rest ih =>
    obtain ⟨hhead, htail⟩ := List.pairwise_cons.mp h
    rw [insertEntry]
    split_ifs with hlt heq
    · have hne : ∀ y ∈ e :: rest, y.1 ≠ k := by
        intro y hy
        obtain rfl | hy := List.mem_cons.mp hy
        · exact hlt.ne'
        · exact (hlt.trans (hhead y hy)).ne'
      rw [List.mem_cons]
      exact or_congr_right ⟨fun hx => ⟨hne x hx, hx⟩, And.right⟩
    · subst heq
      have hne : ∀ y ∈ rest, y.1 ≠ e.1 := fun y hy => (hhead y hy).ne'
      rw [List.mem_cons, List.mem_cons]
      refine or_congr_right ⟨fun hx => ⟨hne x hx, .inr hx⟩, ?_⟩
      rintro ⟨hx, rfl | hmem⟩
      · exact absurd rfl hx
      · exact hmem
    · rw [List.mem_cons, ih htail, List.mem_cons]
      constructor
      · rintro (rfl | rfl | ⟨hx, hmem⟩)
        · exact .inr ⟨Ne.symm heq, .inl rfl⟩
        · exact .inl rfl
        · exact .inr ⟨hx, .inr hmem⟩
      · rintro (rfl | ⟨hx, rfl | hmem⟩)
        · exact .inr (.inl rfl)
        · exact .inl rfl
        · exact .inr (.inr ⟨hx, hmem⟩)

theorem find?_insert (m : SortedMap κ β) (k : κ) (v : β) (j : κ) :
    (m.insert k v).find? j = if j = k then some v else m.find? j := by
  apply find?_ext
  intro w
  rw [find?_eq_some_iff, insert, mem_insertEntry_iff m.sorted]
  split
  · rename_i hjk
    subst hjk
    simp [eq_comm]
  · rename_i hjk
    rw [find?_eq_some_iff]
    simp [hjk]

/-- Entries written one after the other, in order. -/
theorem find?_foldl_insert {l : List (κ × β)} (h : l.Pairwise fun x y => x.1 < y.1)
    (m : SortedMap κ β) (k : κ) :
    (l.foldl (fun acc e => acc.insert e.1 e.2) m).find? k =
      ((l.find? fun e => e.1 = k).map Prod.snd).or (m.find? k) := by
  induction l generalizing m with
  | nil => rfl
  | cons e rest ih =>
    obtain ⟨hhead, htail⟩ := List.pairwise_cons.mp h
    rw [List.foldl_cons, ih htail, find?_insert]
    by_cases hk : e.1 = k
    · have hnone : rest.find? (fun e => e.1 = k) = none := by
        rw [List.find?_eq_none]
        intro y hy hyk
        exact (hhead y hy).ne (hk.trans (of_decide_eq_true hyk).symm)
      rw [hnone, if_pos hk.symm, List.find?_cons_of_pos (by simpa using hk)]
      rfl
    · rw [if_neg (Ne.symm hk), List.find?_cons_of_neg (by simpa using hk)]

/-- Where both maps have a key, the second one answers. -/
theorem find?_join (m n : SortedMap κ β) (k : κ) :
    (m.join n).find? k = (n.find? k).or (m.find? k) :=
  find?_foldl_insert n.sorted m k

end SortedMap
