import Mathlib.Tactic

/-!
# Entries of a changed list

Where an entry of a list that had one entry modified, or one appended, comes from, and what
a list is left with when the entry under a key goes.
-/

namespace Lists

variable {α : Type*} {l : List α}

/-- An entry behind a modification is the modified one, or was there before. -/
theorem getElem?_modify_cases {f : α → α} {i j : ℕ} {x : α}
    (h : (l.modify i f)[j]? = some x) :
    (j = i ∧ ∃ a, l[i]? = some a ∧ x = f a) ∨ (j ≠ i ∧ l[j]? = some x) := by
  by_cases hij : j = i
  · subst hij
    rw [List.getElem?_modify_eq] at h
    obtain ⟨a, ha, rfl⟩ := Option.map_eq_some_iff.mp h
    exact .inl ⟨rfl, a, ha, rfl⟩
  · rw [List.getElem?_modify_ne f l (Ne.symm hij)] at h
    exact .inr ⟨hij, h⟩

/-- The same, where the entry that is modified is at hand. -/
theorem getElem?_modify_known {f : α → α} {i j : ℕ} {a x : α} (ha : l[i]? = some a)
    (h : (l.modify i f)[j]? = some x) : (j = i ∧ x = f a) ∨ (j ≠ i ∧ l[j]? = some x) := by
  obtain ⟨rfl, b, hb, rfl⟩ | hold := getElem?_modify_cases h
  · obtain rfl := Option.some.inj (ha.symm.trans hb)
    exact .inl ⟨rfl, rfl⟩
  · exact .inr hold

/-- An entry that is there stays there, modified or not. -/
theorem getElem?_modify_of_some {f : α → α} (i : ℕ) {j : ℕ} {a : α} (h : l[j]? = some a) :
    (l.modify i f)[j]? = some (if i = j then f a else a) := by
  rw [List.getElem?_modify, h]
  rfl

/-- Only what a function makes of the entry at hand matters for a modification. -/
theorem modify_congr {f g : α → α} {i : ℕ} {a : α} (h : l[i]? = some a) (hfg : f a = g a) :
    l.modify i f = l.modify i g := by
  apply List.ext_getElem?
  intro j
  rw [List.getElem?_modify, List.getElem?_modify]
  split
  · rename_i hij
    rw [← hij, h]
    exact congrArg some hfg
  · rfl

/-- An entry behind an append is the new one, or was there before. -/
theorem getElem?_append_cases {a x : α} {j : ℕ} (h : (l ++ [a])[j]? = some x) :
    (j = l.length ∧ x = a) ∨ l[j]? = some x := by
  by_cases hj : j < l.length
  · rw [List.getElem?_append_left hj] at h
    exact .inr h
  · rw [List.getElem?_append_right (by omega)] at h
    have hzero : j - l.length = 0 := by
      by_contra hne
      rw [List.getElem?_eq_none (by rw [List.length_singleton]; omega)] at h
      cases h
    rw [hzero] at h
    exact .inl ⟨by omega, (Option.some.inj h).symm⟩

/-- An entry that is there stays there behind an append. -/
theorem getElem?_append_of_some {a x : α} {j : ℕ} (h : l[j]? = some x) :
    (l ++ [a])[j]? = some x := by
  obtain ⟨hj, -⟩ := List.getElem?_eq_some_iff.mp h
  rw [List.getElem?_append_left hj, h]

/-- A number above all that were given out occurs once behind them. -/
theorem nodup_snoc_fresh {is : List ℕ} {next : ℕ} (hnodup : is.Nodup)
    (hfresh : ∀ i ∈ is, i < next) : (is ++ [next]).Nodup := by
  rw [List.nodup_append]
  refine ⟨hnodup, List.nodup_singleton _, fun a ha b hb => ?_⟩
  obtain rfl := List.mem_singleton.mp hb
  exact (hfresh a ha).ne

/-- The next number is above all that are given out then. -/
theorem forall_snoc_lt_succ {is : List ℕ} {next : ℕ} (hfresh : ∀ i ∈ is, i < next) :
    ∀ i ∈ is ++ [next], i < next + 1 := by
  intro i hi
  rcases List.mem_append.mp hi with hi | hi
  · exact (hfresh i hi).trans next.lt_succ_self
  · obtain rfl := List.mem_singleton.mp hi
    exact Nat.lt_succ_self _

/-- Where keys occur once, one entry goes with its key. -/
theorem length_filter_key_ne {β : Type*} [DecidableEq β] {f : α → β} {c : β}
    (hnodup : (l.map f).Nodup) (hc : c ∈ l.map f) :
    (l.filter fun a => f a ≠ c).length = l.length - 1 := by
  induction l with
  | nil => cases hc
  | cons a l ih =>
    rw [List.map_cons, List.nodup_cons] at hnodup
    obtain ⟨ha, hrest⟩ := hnodup
    by_cases hac : f a = c
    · have hall : ∀ b ∈ l, decide (f b ≠ c) = true := by
        intro b hb
        rw [decide_eq_true_eq]
        rintro rfl
        exact ha (hac ▸ List.mem_map_of_mem hb)
      rw [List.filter_cons_of_neg (by simp [hac]), List.filter_eq_self.mpr hall,
        List.length_cons, Nat.add_sub_cancel]
    · have hmem : c ∈ l.map f := (List.mem_cons.mp hc).resolve_left (Ne.symm hac)
      have hpos : 0 < l.length := by
        rw [← List.length_map (f := f)]
        exact List.length_pos_of_mem hmem
      rw [List.filter_cons_of_pos (by simp [hac]), List.length_cons, ih hrest hmem,
        List.length_cons]
      omega

/-- Without an entry that is there once, the others are left. -/
theorem mem_eraseIdx_of_nodup {a x : α} {i : ℕ} (hnodup : l.Nodup) (h : l[i]? = some a) :
    x ∈ l.eraseIdx i ↔ x ∈ l ∧ x ≠ a := by
  have hi : i < l.length := (List.getElem?_eq_some_iff.mp h).1
  rw [List.mem_eraseIdx_iff_getElem?]
  constructor
  · rintro ⟨j, hji, hx⟩
    refine ⟨List.mem_of_getElem? hx, ?_⟩
    rintro rfl
    exact hji ((List.getElem?_inj hi hnodup).mp (h.trans hx.symm)).symm
  · rintro ⟨hmem, hne⟩
    obtain ⟨j, hx⟩ := List.mem_iff_getElem?.mp hmem
    refine ⟨j, ?_, hx⟩
    rintro rfl
    exact hne (Option.some.inj (hx.symm.trans h))

section Set

variable {α : Type*} {l : List α} {i : ℕ} {a b : α}

/-- Setting an entry to what it is changes nothing. -/
theorem set_known (h : l[i]? = some a) : l.set i a = l := by
  obtain ⟨hi, rfl⟩ := List.getElem?_eq_some_iff.mp h
  exact List.set_getElem_self hi

/-- A set entry moves a count from what it was to what it is. -/
theorem countP_set_known (p : α → Bool) (h : l[i]? = some a) :
    (l.set i b).countP p + (if p a then 1 else 0) = l.countP p + if p b then 1 else 0 := by
  obtain ⟨hi, rfl⟩ := List.getElem?_eq_some_iff.mp h
  have hpos : p l[i] → 0 < l.countP p := fun hp =>
    List.countP_pos_iff.mpr ⟨l[i], List.getElem_mem hi, hp⟩
  rw [List.countP_set hi]
  split
  · rename_i hp
    have := hpos hp
    omega
  · omega

end Set

theorem findSome?_filterMap {α β γ : Type*} (f : α → Option β) (g : β → Option γ) (l : List α) :
    (l.filterMap f).findSome? g = l.findSome? fun a => (f a).bind g := by
  induction l with
  | nil => rfl
  | cons a rest ih =>
    rw [List.findSome?_cons, ← ih, List.filterMap_cons]
    cases f a with
    | none => rfl
    | some b => exact List.findSome?_cons

/-- Where all that is found is one value, that is the first one found. -/
theorem findSome?_eq_of_unique {α β : Type*} {l : List α} {f : α → Option β} {b : β}
    (hunique : ∀ a ∈ l, ∀ x, f a = some x → x = b) {a : α} (ha : a ∈ l) (hfa : f a = some b) :
    l.findSome? f = some b := by
  have hsome : (l.findSome? f).isSome :=
    List.findSome?_isSome_iff.mpr ⟨a, ha, Option.isSome_iff_exists.mpr ⟨b, hfa⟩⟩
  obtain ⟨x, hx⟩ := Option.isSome_iff_exists.mp hsome
  obtain ⟨a', ha', hfa'⟩ := List.exists_of_findSome?_eq_some hx
  rw [hx, hunique a' ha' x hfa']

/-- A list splits in one way at an element that meets `p`, with a given number of such elements
ahead of it. -/
theorem split_unique_of_countP {p : α → Bool} {l l' r r' : List α} {a a' : α}
    (ha : p a = true) (ha' : p a' = true) (hcount : l.countP p = l'.countP p)
    (h : l ++ a :: r = l' ++ a' :: r') : l = l' ∧ a = a' ∧ r = r' := by
  rcases List.append_eq_append_iff.mp h with ⟨m, rfl, hm⟩ | ⟨m, rfl, hm⟩
  · cases m with
    | nil =>
      obtain ⟨rfl, rfl⟩ := List.cons_eq_cons.mp hm
      exact ⟨(List.append_nil l).symm, rfl, rfl⟩
    | cons b m =>
      obtain ⟨rfl, -⟩ := List.cons_eq_cons.mp hm
      rw [List.countP_append, List.countP_cons_of_pos ha] at hcount
      omega
  · cases m with
    | nil =>
      obtain ⟨rfl, rfl⟩ := List.cons_eq_cons.mp hm
      exact ⟨List.append_nil l', rfl, rfl⟩
    | cons b m =>
      obtain ⟨rfl, -⟩ := List.cons_eq_cons.mp hm
      rw [List.countP_append, List.countP_cons_of_pos ha'] at hcount
      omega

/-- Where nothing is found behind an entry that has nothing, the search may end at the first such
entry. -/
theorem filterMap_takeWhile_isSome {β : Type*} {f : α → Option β}
    (h : l.Pairwise fun a b => (f b).isSome = true → (f a).isSome = true) :
    (l.takeWhile fun a => (f a).isSome).filterMap f = l.filterMap f := by
  induction l with
  | nil => rfl
  | cons a l ih =>
    obtain ⟨hbehind, hrest⟩ := List.pairwise_cons.mp h
    cases hfa : f a with
    | none =>
      have hnone : l.filterMap f = [] := by
        refine List.filterMap_eq_nil_iff.mpr fun b hb => ?_
        have himp := hbehind b hb
        rw [hfa] at himp
        exact Option.not_isSome_iff_eq_none.mp fun hsome => Bool.false_ne_true (himp hsome)
      rw [List.takeWhile_cons_of_neg (by simp [hfa]), List.filterMap_cons_none hfa, hnone]
      rfl
    | some b =>
      rw [List.takeWhile_cons_of_pos (by simp [hfa]), List.filterMap_cons_some hfa,
        List.filterMap_cons_some hfa, ih hrest]

end Lists
