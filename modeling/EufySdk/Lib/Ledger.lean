import Mathlib.Tactic

/-!
# Ledgers of what comes in and leaves

Items are numbered as they come in, each is kept under a key, and leaves for some cause. A ledger
that follows a map of keys shows what the map alone does not: that every item is still there, or has
left once.

- `Ledger.enter`, `Ledger.leave` — an item comes in; those under some keys leave
- `Kept` — the ledger follows a map, and no item is lost or counted twice
- `Kept.length_eq` — as many items are there as have come in and not left
-/

/-- The items that are there, each with its key, and those that have left, with the cause. -/
structure Ledger (κ γ : Type*) where
  held : List (κ × ℕ) := []
  left : List (ℕ × γ) := []
  count : ℕ := 0
  deriving DecidableEq, Repr

namespace Ledger

variable {κ γ : Type*}

def enter (l : Ledger κ γ) (key : κ) : Ledger κ γ :=
  { l with held := (key, l.count) :: l.held, count := l.count + 1 }

/-- The items under some keys leave for one cause. -/
def leave (l : Ledger κ γ) (cause : γ) (p : κ → Bool) : Ledger κ γ :=
  { l with
    held := l.held.filter fun e => !p e.1
    left := (l.held.filter fun e => p e.1).map (fun e => (e.2, cause)) ++ l.left }

@[simp] theorem count_leave (l : Ledger κ γ) (cause : γ) (p : κ → Bool) :
    (l.leave cause p).count = l.count := rfl

/-- The ledger has the keys of a map, and every item it has counted is there or has left, once. -/
structure Kept (l : Ledger κ γ) (keys : List κ) : Prop where
  keys : (l.held.map Prod.fst).Perm keys
  once : (l.held.map Prod.snd ++ l.left.map Prod.fst).Perm (List.range l.count)

variable {l : Ledger κ γ} {keys keys' : List κ}

theorem kept_empty : Kept ({} : Ledger κ γ) [] := ⟨.refl _, .refl _⟩

theorem Kept.perm (h : Kept l keys) (hperm : keys.Perm keys') : Kept l keys' :=
  ⟨h.keys.trans hperm, h.once⟩

theorem Kept.enter (h : Kept l keys) (key : κ) : Kept (l.enter key) (key :: keys) where
  keys := h.keys.cons key
  once := by
    have hcons : ((l.enter key).held.map Prod.snd ++ (l.enter key).left.map Prod.fst).Perm
        (l.count :: List.range l.count) := h.once.cons l.count
    refine hcons.trans ?_
    rw [Ledger.enter, List.range_succ]
    exact (List.perm_append_singleton l.count (List.range l.count)).symm

theorem Kept.leave (h : Kept l keys) (cause : γ) (p : κ → Bool) :
    Kept (l.leave cause p) (keys.filter fun k => !p k) where
  keys := by
    have hfilter := h.keys.filter fun k => !p k
    rw [List.filter_map] at hfilter
    exact hfilter
  once := by
    have hsplit : (l.held.filter (fun e => !p e.1) ++ l.held.filter fun e => p e.1).Perm l.held :=
      List.perm_append_comm.trans (List.filter_append_perm (fun e => p e.1) l.held)
    have hnumbers := (hsplit.map Prod.snd).append_right (l.left.map Prod.fst)
    refine List.Perm.trans ?_ (hnumbers.trans h.once)
    rw [Ledger.leave, List.map_append, List.map_append, List.append_assoc, List.map_map]
    exact .refl _

/-- As many are there as have come in and not left. -/
theorem Kept.length_eq (h : Kept l keys) : keys.length + l.left.length = l.count := by
  have hlength := h.once.length_eq
  rw [List.length_append, List.length_map, List.length_map, List.length_range] at hlength
  rw [← h.keys.length_eq, List.length_map, hlength]

end Ledger
