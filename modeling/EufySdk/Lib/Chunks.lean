import Mathlib.Tactic

/-!
# Scanning a stream in chunks

A scanner stands in front of what it has of a stream and takes turns: it waits for more, or it
passes over a part, which it hands over or not. Where no turn depends on what lies behind the part
it passes over, the chunks a stream comes in make no difference.

Main results:

- `Scans.append` — a scan goes on where the one before it waits
- `Scans.unique` — a string has one scan
- `Cut.scans` — the scan of a stream of items that is cut anywhere
-/

namespace Chunks

variable {α : Type*}

/-- What a scanner does in front of a string: nothing while it waits, or the length of the part that
it passes over next, and whether it hands this over. -/
structure Scanner (α : Type*) where
  turn : List α → Option (ℕ × Bool)
  pos : ∀ {l n out}, turn l = some (n, out) → 0 < n
  le_length : ∀ {l n out}, turn l = some (n, out) → n ≤ l.length
  append : ∀ {l t} (more), turn l = some t → turn (l ++ more) = some t

/-- The parts a scanner hands over of a string, and the rest it waits in front of. -/
inductive Scans (S : Scanner α) : List α → List (List α) → List α → Prop
  | wait {l} (h : S.turn l = none) : Scans S l [] l
  | skip {l n items rest} (h : S.turn l = some (n, false)) (more : Scans S (l.drop n) items rest) :
    Scans S l items rest
  | take {l n items rest} (h : S.turn l = some (n, true)) (more : Scans S (l.drop n) items rest) :
    Scans S l (l.take n :: items) rest

variable {S : Scanner α} {l more rest rest' : List α} {items items' : List (List α)}

/-- A scanner waits in front of the rest. -/
theorem Scans.waits (h : Scans S l items rest) : S.turn rest = none := by
  induction h with
  | wait h => exact h
  | skip _ _ ih => exact ih
  | take _ _ ih => exact ih

theorem Scans.unique (h : Scans S l items rest) (h' : Scans S l items' rest') :
    items = items' ∧ rest = rest' := by
  induction h generalizing items' with
  | wait hwait =>
    cases h' with
    | wait _ => exact ⟨rfl, rfl⟩
    | skip hturn _ => cases hwait.symm.trans hturn
    | take hturn _ => cases hwait.symm.trans hturn
  | skip hskip _ ih =>
    cases h' with
    | wait hturn => cases hturn.symm.trans hskip
    | skip hturn more =>
      cases hskip.symm.trans hturn
      exact ih more
    | take hturn _ => cases hskip.symm.trans hturn
  | take htake _ ih =>
    cases h' with
    | wait hturn => cases hturn.symm.trans htake
    | skip hturn _ => cases htake.symm.trans hturn
    | take hturn more =>
      cases htake.symm.trans hturn
      obtain ⟨rfl, rfl⟩ := ih more
      exact ⟨rfl, rfl⟩

/-- **A scan goes on where the one before it waits.** -/
theorem Scans.append (h : Scans S l items rest) (h' : Scans S (rest ++ more) items' rest') :
    Scans S (l ++ more) (items ++ items') rest' := by
  induction h with
  | wait => exact h'
  | skip hturn _ ih =>
    refine .skip (S.append more hturn) ?_
    rw [List.drop_append_of_le_length (S.le_length hturn)]
    exact ih h'
  | @take l n _ _ hturn _ ih =>
    have hle := S.le_length hturn
    have htake : (l ++ more).take n = l.take n := List.take_append_of_le_length hle
    rw [List.cons_append, ← htake]
    refine .take (S.append more hturn) ?_
    rw [List.drop_append_of_le_length hle]
    exact ih h'

/-! ### Streams of items -/

/-- A part that the scanner hands over as soon as all of it is there. -/
def Scanner.Item (S : Scanner α) (x : List α) : Prop := S.turn x = some (x.length, true)

theorem Scans.item {x : List α} (hx : S.Item x) (h : Scans S more items rest) :
    Scans S (x ++ more) (x :: items) rest := by
  have hscan : Scans S (x ++ more) ((x ++ more).take x.length :: items) rest := by
    refine .take (S.append more hx) ?_
    rwa [List.drop_left]
  rwa [List.take_left] at hscan

/-- In front of a part of an item the scanner waits. -/
theorem Scanner.Item.waits {x tail : List α} (hx : S.Item x) (hfront : tail <+: x)
    (hshort : tail.length < x.length) : S.turn tail = none := by
  cases hturn : S.turn tail with
  | none => rfl
  | some turn =>
    obtain ⟨behind, rfl⟩ := hfront
    have hwhole := S.append behind hturn
    rw [hx] at hwhole
    obtain rfl := Option.some.inj hwhole
    have hle := S.le_length hturn
    omega

/-- A stream of items cut anywhere: the items before the cut, and what of the next one is before
it. -/
inductive Cut : List (List α) → List α → List (List α) → List α → Prop
  | finish : Cut [] [] [] []
  | within {x items tail} (hfront : tail <+: x) (hshort : tail.length < x.length) :
    Cut (x :: items) tail [] tail
  | behind {x items s before tail} (more : Cut items s before tail) :
    Cut (x :: items) (x ++ s) (x :: before) tail

theorem exists_cut {s : List α} (hs : s <+: items.flatten) :
    ∃ before tail, Cut items s before tail := by
  induction items generalizing s with
  | nil =>
    obtain rfl := List.prefix_nil.mp hs
    exact ⟨[], [], .finish⟩
  | cons x items ih =>
    rw [List.flatten_cons] at hs
    by_cases hshort : s.length < x.length
    · have hx := List.prefix_of_prefix_length_le hs (List.prefix_append x _) hshort.le
      exact ⟨[], s, .within hx hshort⟩
    · obtain ⟨s, rfl⟩ :=
        List.prefix_of_prefix_length_le (List.prefix_append x _) hs (not_lt.mp hshort)
      have hrest := (List.prefix_append_right_inj x).mp hs
      obtain ⟨before, tail, hcut⟩ := ih hrest
      exact ⟨x :: before, tail, .behind hcut⟩

/-- **The items before a cut are handed over**, and what there is of the next one is the rest. -/
theorem Cut.scans {s tail : List α} {before : List (List α)} (hcut : Cut items s before tail)
    (hitems : ∀ x ∈ items, S.Item x) : Scans S s before tail := by
  induction hcut with
  | finish =>
    refine .wait ?_
    cases hturn : S.turn [] with
    | none => rfl
    | some turn => exact absurd (S.le_length hturn) (not_le.mpr (S.pos hturn))
  | within hfront hshort =>
    exact .wait ((hitems _ List.mem_cons_self).waits hfront hshort)
  | behind _ ih =>
    exact .item (hitems _ List.mem_cons_self) (ih fun y hy => hitems y (List.mem_cons_of_mem _ hy))

/-- Behind the last item nothing is left. -/
theorem cut_flatten (items : List (List α)) : Cut items items.flatten items [] := by
  induction items with
  | nil => exact .finish
  | cons x items ih => exact .behind ih

end Chunks
