import Mathlib.Tactic

/-!
# The session manager's entry for one station

The refcount of `transport/p2p/session-manager.ts`. An entry is an object with an
identity: an open that was begun on one finds it again after it has been discarded, so
the entries a station ever had stay in a list and the map holds the index of the present
one.

- `SessionEntry` — an entry's fields
- `SessionManager` — the entries of one station
- `retain`, `release`, `hold`, `discard` — the operations on the present entry
-/

namespace EufySdk.P2PCommandRouter

/-- `holdTimers` is the size of the set; `reset` says whether a deferred reset is pending and
`connecting` whether an open is in flight. -/
structure SessionEntry where
  session : Option ℕ := none
  retained : ℕ := 0
  holdTimers : ℕ := 0
  reset : Bool := false
  idle : Bool := false
  connecting : Bool := false
  deriving DecidableEq, Repr

structure SessionManager where
  objects : List SessionEntry := []
  /-- The station's entry in the map. -/
  entries : Option ℕ := none
  deriving DecidableEq, Repr

namespace SessionManager

def present (m : SessionManager) : Option SessionEntry := m.entries.bind (m.objects[·]?)

/-- `get`: the station's registered session. -/
def get (m : SessionManager) : Option ℕ := m.present.bind SessionEntry.session

def modify (m : SessionManager) (k : ℕ) (f : SessionEntry → SessionEntry) : SessionManager :=
  { m with objects := m.objects.modify k f }

/-- Change the present entry, if there is one. -/
def modifyPresent (m : SessionManager) (f : SessionEntry → SessionEntry) : SessionManager :=
  match m.entries with
  | some k => m.modify k f
  | none => m

/-- `entry`: get or create. -/
def entry (m : SessionManager) : SessionManager :=
  match m.entries with
  | some _ => m
  | none => { objects := m.objects ++ [{}], entries := some m.objects.length }

def retain (m : SessionManager) : SessionManager :=
  m.entry.modifyPresent fun e => { e with retained := e.retained + 1, idle := false }

def hold (m : SessionManager) : SessionManager :=
  m.retain.modifyPresent fun e => { e with holdTimers := e.holdTimers + 1 }

/-- A release completes a deferred reset. -/
def resetFallsDue (m : SessionManager) : Bool :=
  m.present.any fun e => e.retained ≠ 0 && e.reset && e.retained - 1 ≤ e.holdTimers

/-- `release` without the reset that falls due with it. A release with nothing retained is
refused. -/
def release (battery : Bool) (m : SessionManager) : SessionManager :=
  m.modifyPresent fun e =>
    if e.retained = 0 then e
    else if e.reset && e.retained - 1 ≤ e.holdTimers then { e with retained := e.retained - 1 }
    else if e.retained - 1 = 0 then { e with retained := 0, idle := battery }
    else { e with retained := e.retained - 1 }

/-- Every timer of the entry dies with it. -/
def discard (m : SessionManager) : SessionManager :=
  { m.modifyPresent fun e => { e with idle := false, holdTimers := 0 } with entries := none }

/-! ## The present entry behind each operation -/

/-- The map holds an existing entry. -/
def Valid (m : SessionManager) : Prop := ∀ k, m.entries = some k → k < m.objects.length

theorem Valid.present_eq_none {m : SessionManager} (h : m.Valid) :
    m.present = none ↔ m.entries = none := by
  unfold present
  cases hentries : m.entries with
  | none => simp
  | some k => simpa using h k hentries

theorem Valid.modify {m : SessionManager} (h : m.Valid) (k : ℕ)
    (f : SessionEntry → SessionEntry) : (m.modify k f).Valid := by
  intro j hj
  rw [SessionManager.modify, List.length_modify]
  exact h j hj

theorem Valid.modifyPresent {m : SessionManager} (h : m.Valid)
    (f : SessionEntry → SessionEntry) : (m.modifyPresent f).Valid := by
  unfold SessionManager.modifyPresent
  split
  · exact h.modify _ f
  · exact h

theorem Valid.entry {m : SessionManager} (h : m.Valid) : m.entry.Valid := by
  unfold SessionManager.entry
  split
  · exact h
  · intro k hk
    obtain rfl := Option.some.inj hk
    simp

theorem valid_discard (m : SessionManager) : m.discard.Valid := by
  intro k hk
  cases hk

theorem present_modifyPresent (m : SessionManager) (f : SessionEntry → SessionEntry) :
    (m.modifyPresent f).present = m.present.map f := by
  unfold modifyPresent present
  cases hentries : m.entries with
  | none => simp [hentries]
  | some k => simp [modify, hentries]

/-- A change of another entry, or of fields that `f` reads as they were. -/
theorem present_modify (m : SessionManager) (k : ℕ) (f : SessionEntry → SessionEntry) :
    (m.modify k f).present = if m.entries = some k then m.present.map f else m.present := by
  unfold modify present
  cases hentries : m.entries with
  | none => simp
  | some j =>
    by_cases hkj : j = k
    · simp [hkj]
    · simp [hkj, List.getElem?_modify_ne _ _ (Ne.symm hkj)]

theorem present_entry {m : SessionManager} (h : m.Valid) :
    m.entry.present = some (m.present.getD {}) := by
  unfold entry
  cases hentries : m.entries with
  | none => simp [present, hentries]
  | some k =>
    obtain ⟨e, he⟩ := Option.ne_none_iff_exists'.mp (mt h.present_eq_none.mp (by simp [hentries]))
    simp [he]

theorem present_retain {m : SessionManager} (h : m.Valid) :
    m.retain.present =
      (some (m.present.getD {})).map fun e =>
        { e with retained := e.retained + 1, idle := false } := by
  rw [retain, present_modifyPresent, present_entry h]

theorem present_hold {m : SessionManager} (h : m.Valid) :
    m.hold.present =
      (some (m.present.getD {})).map fun e =>
        { e with
          retained := e.retained + 1
          idle := false
          holdTimers := e.holdTimers + 1 } := by
  rw [hold, present_modifyPresent, present_retain h]
  rfl

@[simp] theorem present_discard (m : SessionManager) : m.discard.present = none := rfl

@[simp] theorem get_discard (m : SessionManager) : m.discard.get = none := rfl

end SessionManager

end EufySdk.P2PCommandRouter
