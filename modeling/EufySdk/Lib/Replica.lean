import Mathlib.Tactic

/-!
# A replica fed by differences

A replica of a set that is told what joined and what left, relative to a baseline. Where the
baseline lost elements that were never reported gone, the replica still has them.

- `follow` — the replica behind one report
- `follow_lost` — what a report leaves of the elements lost before it
-/

namespace Replica

variable {α : Type*} [DecidableEq α] {base lost now gone : Finset α}

/-- The replica behind a report of what was added and what was removed. -/
def follow (r added removed : Finset α) : Finset α := (r \ removed) ∪ added

/-- **A report against a baseline that lost elements.** The replica has the source, and beyond it
what was lost before and what of the baseline is neither in the source nor reported gone. -/
theorem follow_lost (hlost : Disjoint base lost) (hgone : gone ⊆ base \ now) :
    follow (base ∪ lost) (now \ base) gone = now ∪ ((lost ∪ base \ gone) \ now) := by
  ext x
  have hx : x ∈ base → x ∉ lost := fun hbase => Finset.disjoint_left.mp hlost hbase
  have hg : x ∈ gone → x ∈ base ∧ x ∉ now := fun h => Finset.mem_sdiff.mp (hgone h)
  simp only [follow, Finset.mem_union, Finset.mem_sdiff]
  tauto

end Replica
