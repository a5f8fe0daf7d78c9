import Mathlib.Tactic

/-!
# Lossy delivery that resumes at key items

A receiver of a sequence of items may miss runs of them, as long as what it gets
after a gap begins with a key item. `Resyncs` states this of the items offered and
the items received; `Tracks` is the version a receiver maintains item by item, with a
flag that says whether it is in a gap.

Main results:

- `Tracks.keep`, `Tracks.resume`, `Tracks.skip`, `Tracks.drop` — what one item, or the
  loss of items kept but not passed on, does to the flag
- `Resyncs.sublist` — what is received is a subsequence of what was offered
-/

namespace Resync

variable {α : Type*} {key : α → Prop}

/-- A marking of the offered items as received or missing in which an item received
right behind a missing one is a key item. -/
structure Marking (key : α → Prop) (offered received : List α) (marks : List (α × Bool)) :
    Prop where
  offered_eq : marks.map Prod.fst = offered
  received_eq : (marks.filter Prod.snd).map Prod.fst = received
  chain : marks.IsChain fun a b => b.2 = true → a.2 = true ∨ key b.1

/-- What is missing from `received` is made of contiguous runs of `offered`, and the first
item received after each of them is a key item. -/
def Resyncs (key : α → Prop) (offered received : List α) : Prop :=
  ∃ marks, Marking key offered received marks

/-- `Resyncs`, and unless the receiver is in a gap the last offered item is received. -/
def Tracks (key : α → Prop) (inGap : Bool) (offered received : List α) : Prop :=
  ∃ marks, Marking key offered received marks ∧
    (inGap = false → ∀ m ∈ marks.getLast?, m.2 = true)

theorem Tracks.resyncs {inGap : Bool} {offered received : List α}
    (h : Tracks key inGap offered received) : Resyncs key offered received := by
  obtain ⟨marks, hmarks, -⟩ := h
  exact ⟨marks, hmarks⟩

theorem Resyncs.sublist {offered received : List α} (h : Resyncs key offered received) :
    received.Sublist offered := by
  obtain ⟨marks, hmarks⟩ := h
  rw [← hmarks.offered_eq, ← hmarks.received_eq]
  exact List.filter_sublist.map Prod.fst

theorem Tracks.nil : Tracks key false [] [] :=
  ⟨[], ⟨rfl, rfl, .nil⟩, fun _ m hm => by cases hm⟩

theorem Marking.snoc {offered received : List α} {marks : List (α × Bool)}
    (h : Marking key offered received marks) {x : α} {b : Bool}
    (hx : b = true → ∀ m ∈ marks.getLast?, m.2 = true ∨ key x) :
    Marking key (offered ++ [x]) (received ++ if b then [x] else []) (marks ++ [(x, b)]) where
  offered_eq := by rw [List.map_append, h.offered_eq]; rfl
  received_eq := by
    rw [List.filter_append, List.map_append, h.received_eq]
    cases b <;> rfl
  chain := by
    refine h.chain.append (.singleton _) ?_
    intro m hm y hy hb
    obtain rfl := Option.mem_some_iff.mp hy
    exact hx hb m hm

/-- The last item of a marking extended by one item. -/
theorem getLast?_snoc {marks : List (α × Bool)} {x : α} :
    ∀ m ∈ (marks ++ [(x, true)]).getLast?, m.2 = true := by
  intro m hm
  rw [List.getLast?_concat] at hm
  obtain rfl := Option.mem_some_iff.mp hm
  rfl

/-- Outside a gap any item may be received. -/
theorem Tracks.keep {offered received : List α} (h : Tracks key false offered received)
    (x : α) : Tracks key false (offered ++ [x]) (received ++ [x]) := by
  obtain ⟨marks, hmarks, hlast⟩ := h
  refine ⟨_, hmarks.snoc (b := true) fun _ m hm => .inl (hlast rfl m hm), fun _ => ?_⟩
  exact getLast?_snoc

/-- A key item ends a gap. -/
theorem Tracks.resume {inGap : Bool} {offered received : List α}
    (h : Tracks key inGap offered received) {x : α} (hx : key x) :
    Tracks key false (offered ++ [x]) (received ++ [x]) := by
  obtain ⟨marks, hmarks, -⟩ := h
  refine ⟨_, hmarks.snoc (b := true) fun _ m _ => .inr hx, fun _ => ?_⟩
  exact getLast?_snoc

/-- A missed item is in a gap. -/
theorem Tracks.skip {inGap : Bool} {offered received : List α}
    (h : Tracks key inGap offered received) (x : α) :
    Tracks key true (offered ++ [x]) received := by
  obtain ⟨marks, hmarks, -⟩ := h
  have hsnoc := hmarks.snoc (x := x) (b := false) fun hb => by cases hb
  rw [if_neg Bool.false_ne_true, List.append_nil] at hsnoc
  exact ⟨_, hsnoc, fun hgap => by cases hgap⟩

/-- Items offered later may all be missed. -/
theorem Resyncs.of_prefix {offered received items : List α} (h : Resyncs key offered received)
    (hpre : offered <+: items) : Resyncs key items received := by
  obtain ⟨rest, rfl⟩ := hpre
  induction rest using List.reverseRecOn with
  | nil => rwa [List.append_nil]
  | append_singleton rest x ih =>
    obtain ⟨marks, hmarks⟩ := ih
    have htracks : Tracks key true (offered ++ rest) received :=
      ⟨marks, hmarks, fun hgap => by cases hgap⟩
    rw [← List.append_assoc]
    exact (htracks.skip x).resyncs

theorem Tracks.gap {inGap : Bool} {offered received : List α}
    (h : Tracks key inGap offered received) : Tracks key true offered received := by
  obtain ⟨marks, hmarks, -⟩ := h
  exact ⟨marks, hmarks, fun hgap => by cases hgap⟩

/-- The last item received is lost after all. -/
theorem Tracks.drop_last {inGap : Bool} {offered received : List α} {x : α}
    (h : Tracks key inGap offered (received ++ [x])) : Tracks key true offered received := by
  obtain ⟨marks, hmarks, -⟩ := h
  obtain ⟨kept, lost, hfilter, hkept, hlost⟩ := List.map_eq_append_iff.mp hmarks.received_eq
  obtain ⟨before, after, rfl, hbefore, hafter⟩ := List.filter_eq_append_iff.mp hfilter
  obtain ⟨⟨y, b⟩, rest, hcons, rfl, hrest⟩ := List.map_eq_cons_iff.mp hlost
  rw [List.map_eq_nil_iff] at hrest
  rw [hcons, hrest] at hafter
  obtain ⟨skipped, tail, rfl, hskipped, hb, htail⟩ := List.filter_eq_cons_iff.mp hafter
  -- `(y, true)` is the last received item: nothing behind it is received
  have hunreceived : ∀ m ∈ tail, m.2 ≠ true := List.filter_eq_nil_iff.mp htail
  have hchain := hmarks.chain
  rw [← List.append_assoc] at hchain
  obtain ⟨hfront, hback, hjoin⟩ := List.isChain_append.mp hchain
  refine ⟨before ++ skipped ++ (y, false) :: tail, ⟨?_, ?_, ?_⟩, fun hgap => by cases hgap⟩
  · rw [← hmarks.offered_eq]
    simp
  · rw [List.filter_append, List.filter_append, hbefore]
    have hnone : skipped.filter Prod.snd = [] := List.filter_eq_nil_iff.mpr hskipped
    rw [hnone, List.append_nil, List.map_append, hkept]
    simp [htail]
  · refine hfront.append ?_ ?_
    · rw [List.isChain_cons] at hback ⊢
      refine ⟨fun m hm hmtrue => ?_, hback.2⟩
      exact absurd hmtrue (hunreceived m (List.mem_of_mem_head? hm))
    · intro m _ z hz hztrue
      obtain rfl := Option.mem_some_iff.mp hz
      cases hztrue

/-- Items received last are lost after all, which opens a gap. -/
theorem Tracks.drop {inGap : Bool} {offered received lost : List α}
    (h : Tracks key inGap offered (received ++ lost)) : Tracks key true offered received := by
  induction lost using List.reverseRecOn generalizing inGap with
  | nil =>
    rw [List.append_nil] at h
    exact h.gap
  | append_singleton lost x ih =>
    rw [← List.append_assoc] at h
    exact ih h.drop_last

end Resync
