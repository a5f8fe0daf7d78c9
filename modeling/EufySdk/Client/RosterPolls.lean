import Mathlib.Tactic
import EufySdk.Lib.Machine
import EufySdk.Lib.Replica
import EufySdk.Client.DeviceRegistry

/-!
# The account's roster across poll passes

A registry whose passes are diffed one against the next, while any caller refreshes the device
list between them. A pass diffs against the list of the pass before; a partial one keeps what it
was not answered from the cache, which is no such list.

- `Polled` — the cache, the baseline, and a roster fed by the reports
- `Polled.Rebuilds` — the roster follows the account
- `followed_roster` — the roster, with what the passes against an incomplete baseline enumerated
-/

namespace EufySdk.DeviceRegistry

/-- A registry behind its first pass. -/
structure Polled where
  devices : List EufyDevice
  pollSnapshot : Snapshot
  /-- The serials of the first pass, behind the joins and leaves reported since. -/
  roster : Finset String
  /-- The same, with what each pass listed beyond a baseline that was incomplete. -/
  known : Finset String
  /-- The serials of a baseline that the next pass neither listed nor reported removed, until one
  lists them. -/
  dropped : Finset String

/-- What happens at the registry. -/
inductive Call where
  /-- `getDevices` of any caller, or of `refreshedList`. -/
  | getDevices (r : Reply)
  | pollChanges (r : Reply)

namespace Polled

/-- The registry behind a first pass. -/
def first (previous : List EufyDevice) (r : Reply) : Polled :=
  let devices := getDevices previous r
  { devices, pollSnapshot := ⟨devices, !r.fetch.isPartial⟩, roster := serials devices,
    known := serials devices, dropped := ∅ }

variable (s : Polled) (r : Reply)

/-- What a pass reports. -/
def diff : PollDiff :=
  DeviceRegistry.pollChanges (some s.pollSnapshot) (getDevices s.devices r) r.fetch.isPartial

/-- What a pass lists beyond a baseline that was incomplete: it is not reported added. -/
def enumerated : Finset String :=
  if s.pollSnapshot.complete then ∅
  else serials (getDevices s.devices r) \ serials s.pollSnapshot.devices

/-- The registry behind a pass. -/
def poll : Polled :=
  let devices := getDevices s.devices r
  let joined := serials (s.diff r).added
  let left := serials (s.diff r).removed
  { devices, pollSnapshot := ⟨devices, !r.fetch.isPartial⟩
    roster := Replica.follow s.roster joined left
    known := Replica.follow s.known (joined ∪ s.enumerated r) left
    dropped := (s.dropped ∪ serials s.pollSnapshot.devices \ left) \ serials devices }

def step (s : Polled) : Call → Option Polled
  | .getDevices r => some { s with devices := getDevices s.devices r }
  | .pollChanges r => some (s.poll r)

/-- The reports of a pass fit the roster, and behind a complete one it is the account's list. -/
def Rebuilds (s : Polled) : Call → Prop
  | .getDevices _ => True
  | .pollChanges r =>
    Disjoint (serials (s.diff r).added) s.roster ∧ serials (s.diff r).removed ⊆ s.roster ∧
      (r.complete → (s.poll r).roster = r.answered)

/-- The same of the serials known, those aside that a baseline dropped. -/
def Follows (s : Polled) : Call → Prop
  | .getDevices _ => True
  | .pollChanges r =>
    serials (s.diff r).added ∩ s.known ⊆ s.dropped ∧ serials (s.diff r).removed ⊆ s.known ∧
      (r.complete → ∀ sn, sn ∉ s.dropped → (sn ∈ (s.poll r).known ↔ sn ∈ r.answered))

variable {s r}

/-- The serials known are those of the baseline, and those dropped. -/
structure Tracks (s : Polled) : Prop where
  known : s.known = serials s.pollSnapshot.devices ∪ s.dropped
  apart : Disjoint (serials s.pollSnapshot.devices) s.dropped

theorem tracks_first (previous : List EufyDevice) (r : Reply) : (first previous r).Tracks :=
  ⟨(Finset.union_empty _).symm, Finset.disjoint_empty_right _⟩

/-- What a pass reports added or enumerates is what its list has beyond the baseline. -/
theorem added_union_enumerated :
    serials (s.diff r).added ∪ s.enumerated r =
      serials (getDevices s.devices r) \ serials s.pollSnapshot.devices := by
  rw [diff, serials_added, enumerated]
  cases s.pollSnapshot.complete with
  | true => simp
  | false => simp

theorem removed_subset :
    serials (s.diff r).removed ⊆
      serials s.pollSnapshot.devices \ serials (getDevices s.devices r) := by
  rw [diff, serials_removed]
  split
  · exact Finset.empty_subset _
  · exact subset_rfl

/-- **What the serials known are behind a pass**: those it lists, and those dropped. -/
theorem Tracks.known_poll (h : s.Tracks) :
    (s.poll r).known = serials (getDevices s.devices r) ∪ (s.poll r).dropped := by
  have hfollow := Replica.follow_lost h.apart (removed_subset (s := s) (r := r))
  -- the pass reports against the baseline, the serials known are that and what it dropped
  rw [poll, h.known]
  dsimp only
  rw [added_union_enumerated]
  exact hfollow

theorem Tracks.step {t : Polled} {c : Call} (h : s.Tracks) (hstep : step s c = some t) :
    t.Tracks := by
  cases c with
  | getDevices r =>
    obtain rfl := Option.some.inj hstep
    exact ⟨h.known, h.apart⟩
  | pollChanges r =>
    obtain rfl := Option.some.inj hstep
    exact ⟨h.known_poll, Finset.disjoint_sdiff⟩

/-- A complete pass drops nothing more. -/
theorem dropped_poll (hcomplete : r.complete) (hsn : sn ∉ s.dropped) : sn ∉ (s.poll r).dropped := by
  intro hdropped
  obtain ⟨hkept, hunlisted⟩ := Finset.mem_sdiff.mp hdropped
  obtain ⟨hbase, hunreported⟩ := Finset.mem_sdiff.mp ((Finset.mem_union.mp hkept).resolve_left hsn)
  -- a complete pass reports what it no longer lists
  apply hunreported
  rw [diff, serials_removed, r.isPartial_fetch, hcomplete]
  exact Finset.mem_sdiff.mpr ⟨hbase, hunlisted⟩

theorem Tracks.follows (h : s.Tracks) (c : Call) : s.Follows c := by
  cases c with
  | getDevices r => trivial
  | pollChanges r =>
    refine ⟨fun sn hsn => ?_, fun sn hsn => ?_, fun hcomplete sn hsn => ?_⟩
    · obtain ⟨hadded, hknown⟩ := Finset.mem_inter.mp hsn
      have hnew : sn ∈ serials (getDevices s.devices r) \ serials s.pollSnapshot.devices := by
        rw [← added_union_enumerated]
        exact Finset.mem_union_left _ hadded
      rw [h.known, Finset.mem_union] at hknown
      exact hknown.resolve_left (Finset.mem_sdiff.mp hnew).2
    · rw [h.known]
      exact Finset.mem_union_left _ (Finset.mem_sdiff.mp (removed_subset hsn)).1
    · rw [h.known_poll, serials_getDevices, if_pos hcomplete, Finset.mem_union]
      exact or_iff_left (dropped_poll hcomplete hsn)

/-- **The serials known follow the account.** In every run, each report of a pass fits them, and
behind a complete pass they are what the account listed, those aside that the cache had lost when
a partial pass made it the baseline. -/
theorem followed_roster (previous : List EufyDevice) (r : Reply) (calls : List Call) :
    Machine.StepsMeet step Follows (first previous r) calls :=
  Machine.stepsMeet_of_invariant (tracks_first previous r) (fun _ c h => h.follows c)
    (fun _ _ _ h hstep => h.step hstep) calls

/-- A pass that every query fails, and one that finds a device joined since the pass before it. -/
def joinBehindOutage : List Call :=
  [.pollChanges ⟨false, [none]⟩, .pollChanges ⟨true, [some [{ sn := "A" }, { sn := "B" }]]⟩]

/-- The join is not reported: the roster lacks what the complete pass lists. -/
theorem joinBehindOutage_not_rebuilt :
    ¬ Machine.StepsMeet step Rebuilds (first [] ⟨true, [some [{ sn := "A" }]]⟩)
      joinBehindOutage := by
  intro hmeet
  have hlast := (hmeet.2 _ rfl).1.2.2 rfl
  revert hlast
  decide

end Polled

end EufySdk.DeviceRegistry
