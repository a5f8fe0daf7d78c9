import Mathlib.Tactic
import EufySdk.Transport.P2p.RefCount

/-!
# The session under a live source that is handed out

A live source keeps the session it was built over. The router drops a station's sources
when the session dies or the manager closes it, but not when a caller closes it, so a
source is handed out over the session just resolved exactly when no caller has closed
the one it holds.

- `Rides` — the invariant: a session that a cached source or a suspended call holds is
  registered, or how it went is known
- `Follows` — what every step but a hand-over does to it
- `handsOver_iff` — the runs in which every hand-over is over the resolved session
-/

namespace EufySdk.P2PCommandRouter

open Machine SharedLiveSource

/-- The session a call has resolved or is waiting for. -/
def Task.Holds (task : Task) (i : ℕ) : Prop :=
  task.stage = .waiting i ∨ task.stage = .resolved i

/-- A stage that holds no session. -/
def Stage.Free (stage : Stage) : Prop := ∀ i, ¬(stage = .waiting i ∨ stage = .resolved i)

theorem free_opening (k : ℕ) (opener : Bool) : Stage.Free (.opening k opener) := by
  rintro i (h | h) <;> cases h

theorem free_opened : Stage.Free .opened := by
  rintro i (h | h) <;> cases h

theorem free_closing : Stage.Free .closing := by
  rintro i (h | h) <;> cases h

theorem free_done : Stage.Free .done := by
  rintro i (h | h) <;> cases h

/-- Session `i` is registered; or it is closed, and a caller closed it or it took all of the
cached sources with it. -/
def Placed (w : Station) (i : ℕ) : Prop :=
  w.manager.get = some i ∨
    (w.closed i = true ∧ (i ∈ w.abandoned ∨ ∀ s ∈ w.sources, s.cached = false))

/-- The map holds an existing entry, whose session exists. -/
structure Sound (w : Station) : Prop where
  valid : w.manager.Valid
  ranged : ∀ i, w.manager.get = some i → i < w.sessions.length

structure Rides (w : Station) : Prop where
  sound : Sound w
  gone : ∀ i ∈ w.abandoned, w.closed i = true
  unique : ∀ (j k : ℕ) s r, w.sources[j]? = some s → w.sources[k]? = some r →
    s.cached = true → r.cached = true → s.device.channel = r.device.channel → j = k
  cached : ∀ (j : ℕ) s, w.sources[j]? = some s → s.cached = true →
    s.held ∈ w.abandoned ∨ w.manager.get = some s.held
  tasks : ∀ task ∈ w.tasks, ∀ i, task.Holds i → w.closed i = true ∨ w.manager.get = some i
  replacing : ∀ task ∈ w.tasks, ∀ j, task.purpose = .replace j → j < w.sources.length ∧
    ∀ i s, task.Holds i → w.sources[j]? = some s → s.cached = true →
      i ∈ w.abandoned ∨ w.manager.get = some i

theorem rides_start : Rides {} where
  sound := ⟨fun k hk => (by cases hk), fun i hi => (by cases hi)⟩
  gone i hi := by cases hi
  unique j k s r hs := by simp at hs
  cached j s hs := by simp at hs
  tasks task htask := by cases htask
  replacing task htask := by cases htask

/-- What a step may do that hands over no source: sessions stay placed, sources are at most
forgotten, and a call holds what it held or a placed session. -/
structure Follows (w v : Station) : Prop where
  sound : Sound w → Sound v
  placed : ∀ i, Placed w i → Placed v i
  closed : ∀ i, w.closed i = true → v.closed i = true
  abandoned : ∀ i ∈ w.abandoned, i ∈ v.abandoned
  gone : ∀ i ∈ v.abandoned, i ∈ w.abandoned ∨ v.closed i = true
  length : w.sources.length ≤ v.sources.length
  cached : ∀ (j : ℕ) s', v.sources[j]? = some s' → s'.cached = true →
    ∃ s, w.sources[j]? = some s ∧ s.cached = true ∧ s.held = s'.held ∧ s.device = s'.device
  tasks : ∀ task' ∈ v.tasks,
    (∃ task ∈ w.tasks, task'.purpose = task.purpose ∧
      ∀ i, task'.Holds i → task.Holds i ∨ Placed v i) ∨
    ((∀ i, task'.Holds i → Placed v i) ∧
      ∀ j, task'.purpose = .replace j → j < v.sources.length)

namespace Follows

variable {w v u : Station}

theorem trans (h : Follows w v) (k : Follows v u) : Follows w u where
  sound hw := k.sound (h.sound hw)
  placed i hi := k.placed i (h.placed i hi)
  closed i hi := k.closed i (h.closed i hi)
  abandoned i hi := k.abandoned i (h.abandoned i hi)
  gone i hi := by
    rcases k.gone i hi with hv | hu
    · exact (h.gone i hv).imp id (k.closed i)
    · exact .inr hu
  length := h.length.trans k.length
  cached j s' hs' hcached := by
    obtain ⟨s, hs, hscached, hheld, hdevice⟩ := k.cached j s' hs' hcached
    obtain ⟨r, hr, hrcached, hrheld, hrdevice⟩ := h.cached j s hs hscached
    exact ⟨r, hr, hrcached, hrheld.trans hheld, hrdevice.trans hdevice⟩
  tasks task'' htask'' := by
    rcases k.tasks task'' htask'' with ⟨task', htask', hpurpose, hholds⟩ | hnew
    · rcases h.tasks task' htask' with ⟨task, htask, hpurpose', hholds'⟩ | ⟨hplaced, hrange⟩
      · refine .inl ⟨task, htask, hpurpose.trans hpurpose', fun i hi => ?_⟩
        rcases hholds i hi with hi' | hi'
        · exact (hholds' i hi').imp id (k.placed i)
        · exact .inr hi'
      · refine .inr ⟨fun i hi => ?_, fun j hj => ?_⟩
        · exact (hholds i hi).elim (fun hi' => k.placed i (hplaced i hi')) id
        · exact (hrange j (hpurpose ▸ hj)).trans_le k.length
    · exact .inr hnew

theorem rides (h : Follows w v) (hw : Rides w) : Rides v where
  sound := h.sound hw.sound
  gone i hi := (h.gone i hi).elim (fun hi' => h.closed i (hw.gone i hi')) id
  unique j k s r hs hr hscached hrcached hchannel := by
    obtain ⟨s', hs', hs'cached, -, hsdevice⟩ := h.cached j s hs hscached
    obtain ⟨r', hr', hr'cached, -, hrdevice⟩ := h.cached k r hr hrcached
    refine hw.unique j k s' r' hs' hr' hs'cached hr'cached ?_
    rw [hsdevice, hrdevice]
    exact hchannel
  cached j s hs hcached := by
    obtain ⟨s', hs', hs'cached, hheld, -⟩ := h.cached j s hs hcached
    rw [← hheld]
    rcases hw.cached j s' hs' hs'cached with hgone | hget
    · exact .inl (h.abandoned _ hgone)
    · rcases h.placed _ (.inl hget) with hget' | ⟨-, hgone | hnone⟩
      · exact .inr hget'
      · exact .inl hgone
      · rw [hnone s (List.mem_of_getElem? hs)] at hcached
        cases hcached
  tasks task' htask' i hi := by
    have hplaced : Placed v i → v.closed i = true ∨ v.manager.get = some i :=
      fun hp => hp.elim .inr fun hp => .inl hp.1
    rcases h.tasks task' htask' with ⟨task, htask, -, hholds⟩ | ⟨hnew, -⟩
    · rcases hholds i hi with hi' | hi'
      · rcases hw.tasks task htask i hi' with hclosed | hget
        · exact .inl (h.closed i hclosed)
        · exact hplaced (h.placed i (.inl hget))
      · exact hplaced hi'
    · exact hplaced (hnew i hi)
  replacing task' htask' j hj := by
    have hplaced : ∀ i s, Placed v i → v.sources[j]? = some s → s.cached = true →
        i ∈ v.abandoned ∨ v.manager.get = some i := by
      intro i s hp hs hcached
      rcases hp with hget | ⟨-, hgone | hnone⟩
      · exact .inr hget
      · exact .inl hgone
      · rw [hnone s (List.mem_of_getElem? hs)] at hcached
        cases hcached
    rcases h.tasks task' htask' with ⟨task, htask, hpurpose, hholds⟩ | ⟨hnew, hrange⟩
    · obtain ⟨hlt, hheld⟩ := hw.replacing task htask j (hpurpose ▸ hj)
      refine ⟨hlt.trans_le h.length, fun i s hi hs hcached => ?_⟩
      rcases hholds i hi with hi' | hi'
      · obtain ⟨s', hs', hs'cached, -, -⟩ := h.cached j s hs hcached
        rcases hheld i s' hi' hs' hs'cached with hgone | hget
        · exact .inl (h.abandoned i hgone)
        · exact hplaced i s (h.placed i (.inl hget)) hs hcached
      · exact hplaced i s hi' hs hcached
    · exact ⟨hrange j hj, fun i s hi => hplaced i s (hnew i hi)⟩

/-! ### The parts of a step -/

theorem same_task (v : Station) {task : Task} {tasks : List Task} (htask : task ∈ tasks) :
    ∃ task' ∈ tasks, task.purpose = task'.purpose ∧
      ∀ i, task.Holds i → task'.Holds i ∨ Placed v i :=
  ⟨task, htask, rfl, fun _ hi => .inl hi⟩

/-- A change of the manager that registers the same session. -/
theorem manager {m : SessionManager} (hvalid : w.manager.Valid → m.Valid)
    (hget : m.get = w.manager.get) : Follows w { w with manager := m } where
  sound hw := ⟨hvalid hw.valid, fun i hi => hw.ranged i (hget.symm.trans hi)⟩
  placed _ hi := hi.imp (hget.trans ·) id
  closed _ hi := hi
  abandoned _ hi := hi
  gone _ hi := .inl hi
  length := le_rfl
  cached _ s hs hcached := ⟨s, hs, hcached, rfl, rfl⟩
  tasks _ htask := .inl (same_task _ htask)

theorem refl (w : Station) : Follows w w := manager id rfl

/-- Sources may be forgotten, and change in what the router does not look at here. -/
theorem sources {l : List LiveSource} (hlength : w.sources.length ≤ l.length)
    (hcached : ∀ (j : ℕ) s', l[j]? = some s' → s'.cached = true →
      ∃ s, w.sources[j]? = some s ∧ s.cached = true ∧ s.held = s'.held ∧ s.device = s'.device) :
    Follows w { w with sources := l } where
  sound hw := ⟨hw.valid, hw.ranged⟩
  placed i hi := by
    refine hi.imp id fun ⟨hclosed, hgone⟩ => ⟨hclosed, hgone.imp id fun hnone s hs => ?_⟩
    obtain ⟨j, hj⟩ := List.mem_iff_getElem?.mp hs
    by_contra htrue
    rw [Bool.not_eq_false] at htrue
    obtain ⟨s', hs', hs'cached, -⟩ := hcached j s hj htrue
    rw [hnone s' (List.mem_of_getElem? hs')] at hs'cached
    cases hs'cached
  closed _ hi := hi
  abandoned _ hi := hi
  gone _ hi := .inl hi
  length := hlength
  cached := hcached
  tasks _ htask := .inl (same_task _ htask)

/-- A source that is at most forgotten. -/
def Keeps (f : LiveSource → LiveSource) : Prop :=
  ∀ s, (f s).held = s.held ∧ (f s).device = s.device ∧ ((f s).cached = true → s.cached = true)

theorem keeps_drop : Keeps LiveSource.drop := fun _ => ⟨rfl, rfl, fun h => by cases h⟩

theorem keeps_source (f : Source → Source) :
    Keeps fun s => { s with source := f s.source } := fun _ => ⟨rfl, rfl, id⟩

theorem modify {f : LiveSource → LiveSource} (hf : Keeps f) (i : ℕ) :
    Follows w { w with sources := w.sources.modify i f } := by
  refine sources (by rw [List.length_modify]) fun j s' hs' hcached => ?_
  rw [List.getElem?_modify] at hs'
  obtain ⟨s, hs, rfl⟩ := Option.map_eq_some_iff.mp hs'
  by_cases hij : i = j
  · simp only [hij, if_true] at hcached ⊢
    obtain ⟨hheld, hdevice, hkeep⟩ := hf s
    exact ⟨s, hs, hkeep hcached, hheld.symm, hdevice.symm⟩
  · simp only [hij, if_false] at hcached ⊢
    exact ⟨s, hs, hcached, rfl, rfl⟩

theorem modifySource (i : ℕ) (f : Source → Source) : Follows w (w.modifySource i f) :=
  modify (keeps_source f) i

theorem map {f : LiveSource → LiveSource} (hf : Keeps f) :
    Follows w { w with sources := w.sources.map f } := by
  refine sources (by rw [List.length_map]) fun j s' hs' hcached => ?_
  rw [List.getElem?_map] at hs'
  obtain ⟨s, hs, rfl⟩ := Option.map_eq_some_iff.mp hs'
  obtain ⟨hheld, hdevice, hkeep⟩ := hf s
  exact ⟨s, hs, hkeep hcached, hheld.symm, hdevice.symm⟩

theorem keeps_ite {f : LiveSource → LiveSource} (hf : Keeps f) (p : LiveSource → Bool) :
    Keeps fun s => if p s then f s else s := by
  intro s
  dsimp only
  split
  · exact hf s
  · exact ⟨rfl, rfl, id⟩

/-- Calls that go on holding what they held, or a placed session. -/
theorem tasks_map {f : Task → Task}
    (hf : ∀ task ∈ w.tasks, (f task).purpose = task.purpose ∧
      ∀ i, (f task).Holds i → task.Holds i ∨ Placed w i) :
    Follows w { w with tasks := w.tasks.map f } where
  sound hw := ⟨hw.valid, hw.ranged⟩
  placed _ hi := hi
  closed _ hi := hi
  abandoned _ hi := hi
  gone _ hi := .inl hi
  length := le_rfl
  cached _ s hs hcached := ⟨s, hs, hcached, rfl, rfl⟩
  tasks task' htask' := by
    obtain ⟨task, htask, rfl⟩ := List.mem_map.mp htask'
    obtain ⟨hpurpose, hholds⟩ := hf task htask
    exact .inl ⟨task, htask, hpurpose, hholds⟩

theorem tasks_modify {f : Task → Task} {t : ℕ}
    (hf : ∀ task, w.tasks[t]? = some task → (f task).purpose = task.purpose ∧
      ∀ i, (f task).Holds i → task.Holds i ∨ Placed w i) :
    Follows w { w with tasks := w.tasks.modify t f } where
  sound hw := ⟨hw.valid, hw.ranged⟩
  placed _ hi := hi
  closed _ hi := hi
  abandoned _ hi := hi
  gone _ hi := .inl hi
  length := le_rfl
  cached _ s hs hcached := ⟨s, hs, hcached, rfl, rfl⟩
  tasks task' htask' := by
    obtain ⟨j, hj⟩ := List.mem_iff_getElem?.mp htask'
    rw [List.getElem?_modify] at hj
    obtain ⟨task, htask, rfl⟩ := Option.map_eq_some_iff.mp hj
    have hmem : task ∈ w.tasks := List.mem_of_getElem? htask
    by_cases htj : t = j
    · simp only [htj, if_true]
      obtain ⟨hpurpose, hholds⟩ := hf task (htj ▸ htask)
      exact .inl ⟨task, hmem, hpurpose, hholds⟩
    · simp only [htj, if_false]
      exact .inl (same_task _ hmem)

theorem setStage {t : ℕ} {stage : Stage}
    (hstage : ∀ task, w.tasks[t]? = some task → ∀ i, stage = .waiting i ∨ stage = .resolved i →
      task.Holds i ∨ Placed w i) : Follows w (w.setStage t stage) :=
  tasks_modify fun task htask => ⟨rfl, hstage task htask⟩

theorem setStage_free {t : ℕ} {stage : Stage} (hfree : stage.Free) :
    Follows w (w.setStage t stage) :=
  setStage fun _ _ i hi => (hfree i hi).elim

theorem rebuild (t : ℕ) : Follows w (w.rebuild t) :=
  tasks_modify fun _ _ => ⟨rfl, fun i hi => (free_closing i hi).elim⟩

theorem spawn {purpose : Purpose} {stage : Stage} (hfree : stage.Free)
    (hrange : ∀ j, purpose = .replace j → j < w.sources.length) :
    Follows w (w.spawn purpose stage) where
  sound hw := ⟨hw.valid, hw.ranged⟩
  placed _ hi := hi
  closed _ hi := hi
  abandoned _ hi := hi
  gone _ hi := .inl hi
  length := le_rfl
  cached _ s hs hcached := ⟨s, hs, hcached, rfl, rfl⟩
  tasks task htask := by
    rcases List.mem_append.mp htask with hold | hnew
    · exact .inl (same_task _ hold)
    · obtain rfl := List.mem_singleton.mp hnew
      exact .inr ⟨fun i hi => (hfree i hi).elim, hrange⟩

/-- Sessions that may close, and do not reopen. -/
theorem sessions {l : List Session} (hlength : w.sessions.length ≤ l.length)
    (hclosed : ∀ i, w.closed i = true → (l[i]?).any Session.closed = true) :
    Follows w { w with sessions := l } where
  sound hw := ⟨hw.valid, fun i hi => (hw.ranged i hi).trans_le hlength⟩
  placed i hi := hi.imp id fun ⟨hc, hgone⟩ => ⟨hclosed i hc, hgone⟩
  closed := hclosed
  abandoned _ hi := hi
  gone _ hi := .inl hi
  length := le_rfl
  cached _ s hs hcached := ⟨s, hs, hcached, rfl, rfl⟩
  tasks _ htask := .inl (same_task _ htask)

theorem modifySession {f : Session → Session} (hf : ∀ s, s.closed = true → (f s).closed = true)
    (i : ℕ) : Follows w (w.modifySession i f) := by
  refine sessions (by rw [List.length_modify]) fun j hj => ?_
  unfold Station.closed at hj
  rw [List.getElem?_modify]
  cases hs : w.sessions[j]? with
  | none =>
    rw [hs] at hj
    cases hj
  | some s =>
    rw [hs] at hj
    show (if i = j then f s else s).closed = true
    split
    · exact hf s hj
    · exact hj

theorem closeSession (i : ℕ) : Follows w (w.closeSession i) := modifySession (fun _ _ => rfl) i

/-- The station is torn down over a session that is closed, or over none. -/
theorem tearDownStation (hclosed : ∀ i, w.manager.get = some i → w.closed i = true) :
    Follows w w.tearDownStation := by
  have hmap : Follows w { w with
      sources := w.sources.map fun s => if s.cached then s.drop else s } :=
    map (keeps_ite keeps_drop LiveSource.cached)
  have hnone : ∀ s ∈ w.tearDownStation.sources, s.cached = false := by
    intro s hs
    obtain ⟨r, -, rfl⟩ := List.mem_map.mp hs
    split
    · rfl
    · rename_i hcached
      exact Bool.not_eq_true _ ▸ hcached
  exact {
    sound := fun _ => ⟨w.manager.valid_discard, fun i hi => (by cases hi)⟩
    placed := fun i hi => hi.elim (fun hget => .inr ⟨hclosed i hget, .inr hnone⟩) fun hgone =>
      .inr ⟨hgone.1, .inr hnone⟩
    closed := fun _ hi => hi
    abandoned := fun _ hi => hi
    gone := fun _ hi => .inl hi
    length := hmap.length
    cached := hmap.cached
    tasks := fun _ htask => .inl (same_task _ htask) }

end Follows

/-- The session just closed is closed. -/
theorem closed_closeSession {w : Station} {i : ℕ} (hi : i < w.sessions.length) :
    (w.closeSession i).closed i = true := by
  show ((w.sessions.modify i _)[i]?).any Session.closed = true
  rw [List.getElem?_modify_eq, List.getElem?_eq_getElem hi]
  rfl

/-! ### What each operation does -/

theorem get_modifyPresent (m : SessionManager) {f : SessionEntry → SessionEntry}
    (hf : ∀ e, (f e).session = e.session) : (m.modifyPresent f).get = m.get := by
  rw [SessionManager.get, m.present_modifyPresent, SessionManager.get]
  cases m.present with
  | none => rfl
  | some e => exact hf e

theorem get_modify (m : SessionManager) (k : ℕ) {f : SessionEntry → SessionEntry}
    (hf : ∀ e, (f e).session = e.session) : (m.modify k f).get = m.get := by
  rw [SessionManager.get, m.present_modify, SessionManager.get]
  split
  · cases m.present with
    | none => rfl
    | some e => exact hf e
  · rfl

theorem get_entry {m : SessionManager} (hvalid : m.Valid) : m.entry.get = m.get := by
  rw [SessionManager.get, SessionManager.present_entry hvalid, SessionManager.get]
  cases m.present <;> rfl

theorem get_retain {m : SessionManager} (hvalid : m.Valid) : m.retain.get = m.get := by
  refine (get_modifyPresent m.entry ?_).trans (get_entry hvalid)
  exact fun _ => rfl

theorem get_hold {m : SessionManager} (hvalid : m.Valid) : m.hold.get = m.get := by
  refine (get_modifyPresent m.retain ?_).trans (get_retain hvalid)
  exact fun _ => rfl

theorem get_release (battery : Bool) (m : SessionManager) : (m.release battery).get = m.get := by
  refine get_modifyPresent m fun e => ?_
  split
  · rfl
  · split
    · rfl
    · split <;> rfl

namespace Follows

variable {w : Station}

theorem retain (hw : Sound w) : Follows w { w with manager := w.manager.retain } :=
  manager (fun hvalid => hvalid.entry.modifyPresent _) (get_retain hw.valid)

theorem hold (hw : Sound w) : Follows w { w with manager := w.manager.hold } :=
  manager (fun hvalid => (hvalid.entry.modifyPresent _).modifyPresent _) (get_hold hw.valid)

theorem modifyPresent {f : SessionEntry → SessionEntry} (hf : ∀ e, (f e).session = e.session) :
    Follows w { w with manager := w.manager.modifyPresent f } :=
  manager (fun hvalid => hvalid.modifyPresent f) (get_modifyPresent _ hf)

theorem modifyEntry (k : ℕ) {f : SessionEntry → SessionEntry}
    (hf : ∀ e, (f e).session = e.session) :
    Follows w { w with manager := w.manager.modify k f } :=
  manager (fun hvalid => hvalid.modify k f) (get_modify _ k hf)

theorem autoClose (hw : Sound w) : Follows w w.autoClose := by
  unfold Station.autoClose
  split
  · rename_i i hget
    -- the same as closing the session first
    have hclose := closeSession (w := w) i
    refine hclose.trans (tearDownStation (w := w.closeSession i) fun j hj => ?_)
    obtain rfl := Option.some.inj (hget.symm.trans hj)
    exact closed_closeSession (hw.ranged i hget)
  · rename_i hget
    exact manager (fun _ => w.manager.valid_discard) (hget.symm ▸ rfl)

/-- A caller's close abandons the session. -/
theorem close (hw : Sound w) : Follows w w.close := by
  unfold Station.close
  cases hget : w.manager.get with
  | none =>
    have hdiscard : Follows w { w with manager := w.manager.discard } :=
      manager (fun _ => w.manager.valid_discard) (by rw [hget]; rfl)
    simpa [Station.closeSession?] using hdiscard
  | some i =>
    have hclosed := closed_closeSession (hw.ranged i hget)
    have hclose := closeSession (w := w) i
    exact {
      sound := fun _ => ⟨w.manager.valid_discard, fun j hj => (by cases hj)⟩
      placed := fun j hj => by
        rcases hj with hj | ⟨hj, hgone⟩
        · obtain rfl := Option.some.inj (hget.symm.trans hj)
          exact .inr ⟨hclosed, .inl (List.mem_append_right _ List.mem_cons_self)⟩
        · exact .inr ⟨hclose.closed j hj, hgone.imp (List.mem_append_left _) id⟩
      closed := hclose.closed
      abandoned := fun _ hj => List.mem_append_left _ hj
      gone := fun j hj => by
        rcases List.mem_append.mp hj with hold | hnew
        · exact .inl hold
        · obtain rfl := List.mem_singleton.mp hnew
          exact .inr hclosed
      length := le_rfl
      cached := fun _ s hs hcached => ⟨s, hs, hcached, rfl, rfl⟩
      tasks := fun _ htask => .inl (same_task _ htask) }

theorem release (hw : Sound w) : Follows w w.release := by
  have hreleased : Follows w { w with manager := w.manager.release w.battery } :=
    manager (fun hvalid => hvalid.modifyPresent _) (get_release _ _)
  unfold Station.release
  dsimp only
  split
  · exact hreleased.trans (autoClose (hreleased.sound hw))
  · exact hreleased

theorem disposeSource (hw : Sound w) (i : ℕ) : Follows w (w.disposeSource i) := by
  have hdrop : Follows w { w with sources := w.sources.modify i LiveSource.drop } :=
    modify keeps_drop i
  unfold Station.disposeSource
  dsimp only
  split
  · exact hdrop.trans (release (hdrop.sound hw))
  · exact hdrop

theorem dropLiveSource (hw : Sound w) (channel : ℕ) :
    Follows w (w.dropLiveSource channel) := by
  unfold Station.dropLiveSource
  split
  · exact disposeSource hw _
  · exact refl w

theorem dropStopped (hw : Sound w) (channel : ℕ) : Follows w (w.dropStopped channel) := by
  unfold Station.dropStopped
  split
  · exact dropLiveSource hw channel
  · exact refl w

theorem releaseLingeringSiblings (channel : ℕ) :
    Follows w (w.releaseLingeringSiblings channel) :=
  map (keeps_ite keeps_drop _)

theorem onLiveStartFailed (hw : Sound w) (device : Device) :
    Follows w (w.onLiveStartFailed device) := by
  unfold Station.onLiveStartFailed
  split
  · refine (close hw).trans (spawn free_closing ?_)
    intro j hj
    cases hj
  · exact dropLiveSource hw _

theorem teardownSource (hw : Sound w) (i : ℕ) : Follows w (w.teardownSource i) := by
  unfold Station.teardownSource
  split
  · have hdown := modifySource (w := w) i Source.teardown
    dsimp only
    split
    · exact hdown.trans (onLiveStartFailed (hdown.sound hw) _)
    · exact hdown
  · exact refl w

theorem acquire (hw : Sound w) (t : ℕ) : Follows w (w.acquire t) := by
  have hentry : Follows w { w with manager := w.manager.entry } :=
    manager (fun hvalid => hvalid.entry) (get_entry hw.valid)
  unfold Station.acquire
  dsimp only
  split
  · split
    · exact hentry.trans (setStage_free (free_opening _ _))
    · split
      · exact hentry.trans (setStage_free free_opened)
      · refine hentry.trans (Follows.trans (modifyEntry _ ?_) (setStage_free (free_opening _ _)))
        exact fun _ => rfl
  · exact hentry

theorem begin (hw : Sound w) (purpose : Purpose) (hpurpose : ∀ j, purpose ≠ .replace j) :
    Follows w (w.begin purpose) := by
  have hspawn : Follows w (w.spawn purpose .opened) :=
    spawn free_opened fun j hj => (hpurpose j hj).elim
  exact hspawn.trans (acquire (hspawn.sound hw) _)

theorem settleOpening (k : ℕ) {openers joiners : Stage} (hopeners : openers.Free)
    (hjoiners : joiners.Free) :
    Follows w (w.settleOpening k openers joiners) := by
  refine tasks_map fun task _ => ?_
  split
  · exact ⟨rfl, fun i hi => (hopeners i hi).elim⟩
  · split
    · exact ⟨rfl, fun i hi => (hjoiners i hi).elim⟩
    · exact ⟨rfl, fun _ hi => .inl hi⟩

theorem resume (hw : Sound w) (t : ℕ) (task : Task) : Follows w (w.resume t task) := by
  unfold Station.resume
  split
  · exact setStage_free free_done
  · split
    · exact setStage_free free_done
    · rename_i i hget
      split
      · exact (close hw).trans (rebuild t)
      · have hheld := hold hw
        refine hheld.trans (setStage fun _ _ j hj => .inr (.inl ?_))
        rcases hj with hj | hj <;> cases hj
        exact (get_hold hw.valid).trans hget

theorem afterClose (hw : Sound w) (t : ℕ) (task : Task) : Follows w (w.afterClose t task) := by
  unfold Station.afterClose
  split
  · exact (dropLiveSource hw _).trans
      (setStage_free free_done)
  · exact acquire hw t

theorem attach (hw : Sound w) (i : ℕ) (s : Source) : Follows w (w.attach i s) := by
  have hjoin := modifySource (w := w) i Source.join
  unfold Station.attach
  dsimp only
  split
  · have hretain := retain (hjoin.sound hw)
    exact (hjoin.trans hretain).trans (modifySource i _)
  · exact hjoin.trans (modifySource i _)

theorem detach (hw : Sound w) (i : ℕ) (s : Source) : Follows w (w.detach i s) := by
  have hleave := modifySource (w := w) i Source.leave
  unfold Station.detach
  dsimp only
  split
  · exact (hleave.trans (release (hleave.sound hw))).trans (modifySource i _)
  · exact hleave

theorem unacknowledged (hw : Sound w) {i : ℕ} {s : LiveSource} (hs : w.sources[i]? = some s) :
    Follows w (w.unacknowledged i s) := by
  have hask := modifySource (w := w) i Source.askSession
  unfold Station.unacknowledged
  dsimp only
  split
  · split
    · have hclose := hask.trans (close (hask.sound hw))
      refine hclose.trans (spawn free_closing ?_)
      intro j hj
      cases hj
      exact (List.getElem?_eq_some_iff.mp hs).1.trans_le hclose.length
    · exact hask
  · exact refl w

/-- The factory of an entry registers its session. -/
theorem register {k : ℕ} {e : SessionEntry} (he : w.manager.objects[k]? = some e)
    (hnone : e.session = none) :
    Follows w { w with
      sessions := w.sessions ++ [{}]
      manager := w.manager.modify k fun e => { e with session := some w.sessions.length } } := by
  have hclosed : ∀ i, w.closed i = true →
      ((w.sessions ++ [({} : Session)])[i]?).any Session.closed = true := by
    intro i hi
    unfold Station.closed at hi
    cases hs : w.sessions[i]? with
    | none =>
      rw [hs] at hi
      cases hi
    | some s =>
      rw [List.getElem?_append_left (List.getElem?_eq_some_iff.mp hs).1]
      exact hi
  have hget : ∀ i, w.manager.get = some i →
      (w.manager.modify k fun e => { e with session := some w.sessions.length }).get = some i := by
    intro i hi
    rw [SessionManager.get, SessionManager.present_modify]
    split
    · rename_i hk
      rw [SessionManager.get, SessionManager.present, hk, Option.bind_some, he,
        Option.bind_some, hnone] at hi
      cases hi
    · exact hi
  exact {
    sound := fun hw => by
      refine ⟨hw.valid.modify k _, fun i hi => ?_⟩
      rw [List.length_append]
      show i < w.sessions.length + 1
      rw [SessionManager.get, SessionManager.present_modify] at hi
      split at hi
      · cases hpresent : w.manager.present with
        | none =>
          rw [hpresent] at hi
          cases hi
        | some e =>
          rw [hpresent] at hi
          obtain rfl := Option.some.inj hi
          exact Nat.lt_succ_self _
      · exact Nat.lt_succ_of_lt (hw.ranged i hi)
    placed := fun i hi => hi.imp (hget i) (And.imp_left (hclosed i))
    closed := hclosed
    abandoned := fun _ hi => hi
    gone := fun _ hi => .inl hi
    length := le_rfl
    cached := fun _ s hs hcached => ⟨s, hs, hcached, rfl, rfl⟩
    tasks := fun _ htask => .inl (same_task _ htask) }

end Follows

/-! ## The steps that hand nothing over -/

/-- Every step but the one behind a resolved session. -/
theorem Follows.step {w v : Station} {label : Label} (hw : Sound w)
    (hlabel : ∀ t, label ≠ .proceed t) (hstep : P2PCommandRouter.step w label = some v) :
    Follows w v := by
  have hsettled (k : ℕ) := modifyEntry (w := w) k
    (f := fun e => { e with connecting := false }) fun _ => rfl
  cases transition_of_step hstep with
  | live | command | ensureStation => exact begin hw _ fun _ h => by cases h
  | prewarm =>
    have hhold := hold hw
    exact hhold.trans (begin (hhold.sound hw) _ fun _ h => by cases h)
  | register he hconnecting hsession => exact register he hsession
  | @bound k => exact (hsettled k).trans (settleOpening k free_opened free_opened)
  | @boundLate k =>
    exact ((hsettled k).trans (closeSession _)).trans (settleOpening k free_done free_opened)
  | @openFails k => exact (hsettled k).trans (settleOpening k free_done free_done)
  | resume => exact resume hw _ _
  | ready htask =>
    refine setStage fun task htask' j hj => .inl ?_
    obtain rfl := Option.some.inj (htask.symm.trans htask')
    rcases hj with hj | hj <;> cases hj
    exact .inl rfl
  | gaveUp => exact setStage_free free_done
  | afterClose => exact afterClose hw _ _
  | @proceed t => exact absurd rfl (hlabel t)
  | attach => exact attach hw _ _
  | detach => exact detach hw _ _
  | video | audio => exact modifySource _ _
  | teardown => exact teardownSource hw _
  | unacknowledged hs => exact unacknowledged hw hs
  | holdExpires =>
    have hexpired := modifyPresent (w := w)
      (f := fun e => { e with holdTimers := e.holdTimers - 1 }) fun _ => rfl
    exact hexpired.trans (release (hexpired.sound hw))
  | idleRetained | resetLater => exact modifyPresent fun _ => rfl
  | idleCloses =>
    have helapsed := modifyPresent (w := w) (f := fun e => { e with idle := false }) fun _ => rfl
    exact helapsed.trans (autoClose (helapsed.sound hw))
  | resetNow => exact autoClose hw
  | resetNothing | closeEventStale => exact refl w
  | powered =>
    exact {
      sound := fun hw => ⟨hw.valid, hw.ranged⟩
      placed := fun _ hi => hi
      closed := fun _ hi => hi
      abandoned := fun _ hi => hi
      gone := fun _ hi => .inl hi
      length := le_rfl
      cached := fun _ s hs hcached => ⟨s, hs, hcached, rfl, rfl⟩
      tasks := fun _ htask => .inl (same_task _ htask) }
  | @connects s => exact modifySession (f := fun s => { s with connected := true }) (fun _ h => h) s
  | @pathAnswers s answers =>
    exact modifySession (f := fun s => { s with silent := !answers }) (fun _ h => h) s
  | @closes s => exact closeSession s
  | closeEvent hclosed hcached =>
    refine tearDownStation fun i hi => ?_
    obtain rfl := Option.some.inj (hcached.symm.trans hi)
    exact hclosed

/-! ## Handing over -/

theorem liveSource?_eq_some {w : Station} {channel j : ℕ} (h : w.liveSource? channel = some j) :
    ∃ s, w.sources[j]? = some s ∧ s.cached = true ∧ s.device.channel = channel := by
  obtain ⟨hj, hs, -⟩ := List.findIdx?_eq_some_iff_getElem.mp h
  simp only [Bool.and_eq_true, decide_eq_true_eq] at hs
  exact ⟨_, List.getElem?_eq_getElem hj, hs.1, hs.2⟩

theorem liveSource?_eq_none {w : Station} {channel : ℕ} :
    w.liveSource? channel = none ↔
      ∀ s ∈ w.sources, s.cached = true → s.device.channel ≠ channel := by
  unfold Station.liveSource?
  rw [List.findIdx?_eq_none_iff]
  refine forall₂_congr fun s _ => ?_
  cases s.cached <;> simp

theorem Rides.liveSource?_eq {w : Station} (h : Rides w) {channel j : ℕ} {s : LiveSource}
    (hs : w.sources[j]? = some s) (hcached : s.cached = true)
    (hchannel : s.device.channel = channel) : w.liveSource? channel = some j := by
  cases hlive : w.liveSource? channel with
  | none =>
    exact absurd hchannel (liveSource?_eq_none.mp hlive s (List.mem_of_getElem? hs) hcached)
  | some k =>
    obtain ⟨r, hr, hrcached, hrchannel⟩ := liveSource?_eq_some hlive
    rw [h.unique k j r s hr hs hrcached hcached (hrchannel.trans hchannel.symm)]

/-- A fresh source is cached over a registered session. -/
theorem Rides.fresh {w : Station} (h : Rides w) {device : Device} {i : ℕ}
    (hget : w.manager.get = some i) (hnone : w.liveSource? device.channel = none) :
    Rides { w with sources := w.sources ++ [⟨device, i, true, {}⟩] } := by
  have hcases : ∀ (j : ℕ) s, (w.sources ++ [⟨device, i, true, {}⟩])[j]? = some s →
      w.sources[j]? = some s ∨ (j = w.sources.length ∧ s = ⟨device, i, true, {}⟩) := by
    intro j s hs
    rcases Nat.lt_or_ge j w.sources.length with hj | hj
    · rw [List.getElem?_append_left hj] at hs
      exact .inl hs
    · rw [List.getElem?_append_right hj] at hs
      have hzero : j - w.sources.length = 0 := by
        have hlt := (List.getElem?_eq_some_iff.mp hs).1
        simpa using hlt
      rw [hzero] at hs
      exact .inr ⟨by omega, (Option.some.inj hs).symm⟩
  have hother := liveSource?_eq_none.mp hnone
  refine ⟨⟨h.sound.valid, h.sound.ranged⟩, h.gone, ?_, ?_, h.tasks, ?_⟩
  · intro j k s r hs hr hscached hrcached hchannel
    rcases hcases j s hs with hs' | ⟨rfl, rfl⟩
    · rcases hcases k r hr with hr' | ⟨rfl, rfl⟩
      · exact h.unique j k s r hs' hr' hscached hrcached hchannel
      · exact absurd hchannel (hother s (List.mem_of_getElem? hs') hscached)
    · rcases hcases k r hr with hr' | ⟨rfl, rfl⟩
      · exact absurd hchannel.symm (hother r (List.mem_of_getElem? hr') hrcached)
      · rfl
  · intro j s hs hscached
    rcases hcases j s hs with hs' | ⟨rfl, rfl⟩
    · exact h.cached j s hs' hscached
    · exact .inr hget
  · intro task htask j hj
    obtain ⟨hlt, hheld⟩ := h.replacing task htask j hj
    refine ⟨?_, fun k s hk hs hscached => ?_⟩
    · rw [List.length_append]
      exact Nat.lt_add_right _ hlt
    · rcases hcases j s hs with hs' | ⟨rfl, -⟩
      · exact hheld k s hk hs' hscached
      · exact absurd hlt (lt_irrefl _)

/-- A source that asked for another session is given one. -/
theorem Rides.replaced {w : Station} (h : Rides w) {task : Task} (htask : task ∈ w.tasks)
    {source i : ℕ} (hpurpose : task.purpose = .replace source) (hholds : task.Holds i) :
    Rides (w.replaced source i) := by
  have hheld := (h.replacing task htask source hpurpose).2 i
  have hcases : ∀ (j : ℕ) s', (w.sources.modify source fun s => { s with held := i })[j]? = some s' →
      ∃ s, w.sources[j]? = some s ∧ s.cached = s'.cached ∧ s.device = s'.device ∧
        (s'.held = s.held ∨ (j = source ∧ s'.held = i)) := by
    intro j s' hs'
    rw [List.getElem?_modify] at hs'
    obtain ⟨s, hs, rfl⟩ := Option.map_eq_some_iff.mp hs'
    refine ⟨s, hs, ?_⟩
    split
    · rename_i hj
      exact ⟨rfl, rfl, .inr ⟨hj.symm, rfl⟩⟩
    · exact ⟨rfl, rfl, .inl rfl⟩
  unfold Station.replaced
  split
  · split
    · refine (Follows.modifySource _ _).rides ?_
      refine ⟨⟨h.sound.valid, h.sound.ranged⟩, h.gone, ?_, ?_, h.tasks, ?_⟩
      · intro j k s r hs hr hscached hrcached hchannel
        obtain ⟨s', hs', hsc, hsd, -⟩ := hcases j s hs
        obtain ⟨r', hr', hrc, hrd, -⟩ := hcases k r hr
        refine h.unique j k s' r' hs' hr' (hsc.trans hscached) (hrc.trans hrcached) ?_
        rw [hsd, hrd]
        exact hchannel
      · intro j s hs hscached
        obtain ⟨s', hs', hsc, -, hsheld | ⟨rfl, hsheld⟩⟩ := hcases j s hs
        · rw [hsheld]
          exact h.cached j s' hs' (hsc.trans hscached)
        · rw [hsheld]
          exact hheld s' hholds hs' (hsc.trans hscached)
      · intro task' htask' j hj
        obtain ⟨hlt, hheld'⟩ := h.replacing task' htask' j hj
        refine ⟨by rw [List.length_modify]; exact hlt, fun k s hk hs hscached => ?_⟩
        obtain ⟨s', hs', hsc, -, -⟩ := hcases j s hs
        exact hheld' k s' hk hs' (hsc.trans hscached)
    · exact h
  · exact h

/-- The source that is reused for a device. -/
def Reuses (w : Station) (device : Device) (s : LiveSource) : Prop :=
  ∃ j, w.liveSource? device.channel = some j ∧ w.sources[j]? = some s ∧
    s.source.state ≠ .stopped

/-- The hand-over drops a stopped source with consumers, and its release completes a deferred
reset. -/
def ResetFallsDue (w : Station) (device : Device) : Prop :=
  ∃ j s, w.liveSource? device.channel = some j ∧ w.sources[j]? = some s ∧
    s.source.state = .stopped ∧ s.source.active = true ∧ w.manager.resetFallsDue = true

/-- Nothing has come between a hand-over and the session it resolved: it has not closed since,
no deferred reset closes it in passing, and no caller has closed the session of the source that
is reused. -/
structure Undisturbed (w : Station) (device : Device) (i : ℕ) : Prop where
  still : w.closed i = false
  reset : ¬ResetFallsDue w device
  reused : ∀ s, Reuses w device s → s.held ∉ w.abandoned

/-- The source that is handed out is over the resolved session, which is registered and open. -/
structure HandedOver (w : Station) (i src : ℕ) : Prop where
  held : ∃ s, w.sources[src]? = some s ∧ s.held = i
  registered : w.manager.get = some i
  still : w.closed i = false

/-- What dropping a stopped source does to the session. -/
theorem dropStopped_cases (w : Station) (device : Device) :
    (ResetFallsDue w device ∧ (w.dropStopped device.channel).manager.get = none) ∨
      (¬ResetFallsDue w device ∧
        (w.dropStopped device.channel).manager.get = w.manager.get ∧
        (w.dropStopped device.channel).sessions = w.sessions) := by
  unfold Station.dropStopped
  split
  · rename_i hstopped
    unfold Station.dropLiveSource
    cases hlive : w.liveSource? device.channel with
    | none =>
      rw [hlive] at hstopped
      cases hstopped
    | some j =>
      obtain ⟨s, hs, -, -⟩ := liveSource?_eq_some hlive
      have hstate : s.source.state = .stopped := by
        rw [hlive, Option.bind_some, hs] at hstopped
        exact of_decide_eq_true hstopped
      dsimp only
      unfold Station.disposeSource
      rw [hs, Option.any_some]
      dsimp only
      split
      · rename_i hactive
        unfold Station.release
        dsimp only
        split
        · rename_i hdue
          refine .inl ⟨⟨j, s, hlive, hs, hstate, hactive, hdue⟩, ?_⟩
          unfold Station.autoClose
          split <;> rfl
        · rename_i hdue
          refine .inr ⟨?_, get_release _ _, rfl⟩
          rintro ⟨-, -, -, -, -, -, hdue'⟩
          exact hdue hdue'
      · rename_i hactive
        refine .inr ⟨?_, rfl, rfl⟩
        rintro ⟨k, r, hk, hr, -, hractive, -⟩
        obtain rfl := Option.some.inj (hlive.symm.trans hk)
        obtain rfl := Option.some.inj (hs.symm.trans hr)
        exact hactive hractive
  · rename_i hstopped
    refine .inr ⟨?_, rfl, rfl⟩
    rintro ⟨j, s, hj, hs, hstate, -⟩
    rw [hj, Option.bind_some, hs] at hstopped
    exact hstopped (decide_eq_true hstate)

/-- Nothing is cached for the channel once a stopped source is dropped. -/
theorem liveSource?_dropStopped {w : Station} (hw : Rides w) (channel : ℕ)
    (hreuse : ∀ j s, w.liveSource? channel = some j → w.sources[j]? = some s →
      s.source.state = .stopped) : (w.dropStopped channel).liveSource? channel = none := by
  rw [liveSource?_eq_none]
  intro s' hs' hcached' hchannel'
  obtain ⟨k, hk⟩ := List.mem_iff_getElem?.mp hs'
  obtain ⟨s, hs, hcached, -, hdevice⟩ := (Follows.dropStopped hw.sound channel).cached k s' hk hcached'
  have hlive := hw.liveSource?_eq hs hcached (hdevice ▸ hchannel')
  have hstate := hreuse k s hlive hs
  -- it is the source that was dropped
  have hdropped : Follows { w with sources := w.sources.modify k LiveSource.drop }
      (w.dropStopped channel) := by
    have hdrop := Follows.modify (w := w) Follows.keeps_drop k
    unfold Station.dropStopped
    rw [if_pos (by rw [hlive, Option.bind_some, hs]; exact decide_eq_true hstate)]
    unfold Station.dropLiveSource
    rw [hlive]
    dsimp only
    unfold Station.disposeSource
    dsimp only
    split
    · exact Follows.release (hdrop.sound hw.sound)
    · exact Follows.refl _
  obtain ⟨r, hr, hrcached, -⟩ := hdropped.cached k s' hk hcached'
  rw [List.getElem?_modify_eq, hs] at hr
  obtain rfl := Option.some.inj hr
  cases hrcached

theorem dropStopped_of_reuses {w : Station} {device : Device} {s : LiveSource}
    (h : Reuses w device s) : w.dropStopped device.channel = w := by
  obtain ⟨j, hj, hs, hstate⟩ := h
  unfold Station.dropStopped
  rw [if_neg]
  rw [hj, Option.bind_some, hs]
  simpa using hstate

theorem liveSource?_releaseLingeringSiblings {w : Station} {channel : ℕ}
    (h : w.liveSource? channel = none) :
    (w.releaseLingeringSiblings channel).liveSource? channel = none := by
  rw [liveSource?_eq_none] at h ⊢
  intro s' hs' hcached'
  obtain ⟨k, hk⟩ := List.mem_iff_getElem?.mp hs'
  obtain ⟨s, hs, hcached, -, hdevice⟩ :=
    (Follows.releaseLingeringSiblings channel).cached k s' hk hcached'
  rw [← hdevice]
  exact h s (List.mem_of_getElem? hs) hcached

/-- The source that is reused comes back as it is. -/
theorem handOver_reused {w : Station} (hw : Rides w) {device : Device} {i src : ℕ}
    {s : LiveSource} (hreuse : Reuses w device s) (hsrc : (w.handOver device i).2 = some src) :
    (w.handOver device i).1 = w.releaseLingeringSiblings device.channel ∧
      (w.handOver device i).1.sources[src]? = some s := by
  have hsame := dropStopped_of_reuses hreuse
  obtain ⟨j, hj, hs, -⟩ := hreuse
  obtain ⟨r, hr, hcached, hchannel⟩ := liveSource?_eq_some hj
  obtain rfl := Option.some.inj (hs.symm.trans hr)
  have hkept : (w.releaseLingeringSiblings device.channel).sources[j]? = some s := by
    show (w.sources.map _)[j]? = some s
    rw [List.getElem?_map, hs]
    simp [hchannel]
  have hlive := ((Follows.releaseLingeringSiblings device.channel).rides hw).liveSource?_eq
    hkept hcached hchannel
  unfold Station.handOver at hsrc ⊢
  dsimp only at hsrc ⊢
  rw [hsame, hlive] at hsrc ⊢
  split at hsrc
  · cases hsrc
  · rename_i hfree
    rw [if_neg hfree]
    obtain rfl := Option.some.inj hsrc
    exact ⟨rfl, hkept⟩

/-- Where none is reused a fresh source comes back. -/
theorem handOver_fresh {w : Station} (hw : Rides w) {device : Device} {i src : ℕ}
    (hreuse : ∀ s, ¬Reuses w device s) (hsrc : (w.handOver device i).2 = some src) :
    let u := (w.dropStopped device.channel).releaseLingeringSiblings device.channel
    u.liveSource? device.channel = none ∧
      (w.handOver device i).1 = { u with sources := u.sources ++ [⟨device, i, true, {}⟩] } ∧
      src = u.sources.length := by
  have hnone := liveSource?_releaseLingeringSiblings
    (liveSource?_dropStopped hw device.channel fun j s hj hs => by
      by_contra hstate
      exact hreuse s ⟨j, hj, hs, hstate⟩)
  refine ⟨hnone, ?_⟩
  unfold Station.handOver at hsrc ⊢
  dsimp only at hsrc ⊢
  rw [hnone] at hsrc ⊢
  split at hsrc
  · cases hsrc
  · rename_i hfree
    rw [if_neg hfree]
    exact ⟨rfl, (Option.some.inj hsrc).symm⟩

/-- **A hand-over is over the session it resolved exactly when nothing has come between.** -/
theorem handedOver_iff {w : Station} (hw : Rides w) {task : Task} (htask : task ∈ w.tasks)
    {device : Device} {i src : ℕ} (hholds : task.Holds i)
    (hsrc : (w.handOver device i).2 = some src) :
    HandedOver (w.handOver device i).1 i src ↔ Undisturbed w device i := by
  have hplaced := hw.tasks task htask i hholds
  by_cases hreuse : ∃ s, Reuses w device s
  · obtain ⟨s, hreuse⟩ := hreuse
    obtain ⟨heq, hs⟩ := handOver_reused hw hreuse hsrc
    obtain ⟨j, hj, hsj, hstate⟩ := hreuse
    obtain ⟨r, hr, hcached, -⟩ := liveSource?_eq_some hj
    obtain rfl := Option.some.inj (hsj.symm.trans hr)
    have honly : ∀ r, Reuses w device r → r = s := by
      rintro r ⟨k, hk, hr, -⟩
      obtain rfl := Option.some.inj (hj.symm.trans hk)
      exact Option.some.inj (hr.symm.trans hsj)
    constructor
    · rintro ⟨⟨r, hr, rfl⟩, -, hstill⟩
      obtain rfl := Option.some.inj (hs.symm.trans hr)
      rw [heq] at hstill
      refine ⟨hstill, ?_, fun r hr hgone => ?_⟩
      · rintro ⟨k, r, hk, hr, hstopped, -⟩
        obtain rfl := Option.some.inj (hj.symm.trans hk)
        obtain rfl := Option.some.inj (hsj.symm.trans hr)
        exact hstate hstopped
      · obtain rfl := honly r hr
        have hclosed := hw.gone r.held hgone
        rw [show w.closed r.held = false from hstill] at hclosed
        cases hclosed
    · rintro ⟨hstill, -, hreused⟩
      have hget := hplaced.resolve_left (by rw [hstill]; exact Bool.false_ne_true)
      have hheld := (hw.cached j s hsj hcached).resolve_left (hreused s ⟨j, hj, hsj, hstate⟩)
      refine ⟨⟨s, hs, ?_⟩, ?_, ?_⟩
      · exact Option.some.inj (hheld.symm.trans hget)
      · rw [heq]
        exact hget
      · rw [heq]
        exact hstill
  · have hnone : ∀ s, ¬Reuses w device s := fun s hs => hreuse ⟨s, hs⟩
    obtain ⟨-, heq, rfl⟩ := handOver_fresh hw hnone hsrc
    constructor
    · rintro ⟨-, hget, hstill⟩
      rw [heq] at hget hstill
      refine ⟨?_, fun hdue => ?_, fun s hs => absurd hs (hnone s)⟩
      · by_contra hclosed
        rw [Bool.not_eq_false] at hclosed
        have hclosed' := (Follows.dropStopped hw.sound device.channel).closed i hclosed
        rw [show (w.dropStopped device.channel).closed i = false from hstill] at hclosed'
        cases hclosed'
      · rcases dropStopped_cases w device with ⟨-, hgone⟩ | ⟨hsafe, -⟩
        · rw [show (w.dropStopped device.channel).manager.get = some i from hget] at hgone
          cases hgone
        · exact hsafe hdue
    · rintro ⟨hstill, hreset, -⟩
      have hget := hplaced.resolve_left (by rw [hstill]; exact Bool.false_ne_true)
      obtain ⟨-, hsame, hsessions⟩ := (dropStopped_cases w device).resolve_left
        fun hdue => hreset hdue.1
      rw [heq]
      refine ⟨⟨⟨device, i, true, {}⟩, List.getElem?_concat_length, rfl⟩, ?_, ?_⟩
      · exact hsame.trans hget
      · show ((w.dropStopped device.channel).sessions[i]?).any Session.closed = false
        rw [hsessions]
        exact hstill

/-- What holds behind a hand-over that nothing has come between, or that was refused. -/
theorem Rides.handOver {w : Station} (hw : Rides w) {task : Task} (htask : task ∈ w.tasks)
    {device : Device} {i : ℕ} (hholds : task.Holds i)
    (hundisturbed : ∀ src, (w.handOver device i).2 = some src → Undisturbed w device i) :
    Rides (w.handOver device i).1 := by
  have hfollows := (Follows.dropStopped hw.sound device.channel).trans
    (Follows.releaseLingeringSiblings device.channel)
  cases hsrc : (w.handOver device i).2 with
  | none =>
    have heq : (w.handOver device i).1 =
        (w.dropStopped device.channel).releaseLingeringSiblings device.channel := by
      unfold Station.handOver at hsrc ⊢
      dsimp only at hsrc ⊢
      split
      · rfl
      · rename_i hfree
        rw [if_neg hfree] at hsrc
        split at hsrc <;> cases hsrc
    rw [heq]
    exact hfollows.rides hw
  | some src =>
    by_cases hreuse : ∃ s, Reuses w device s
    · obtain ⟨s, hreuse⟩ := hreuse
      rw [(handOver_reused hw hreuse hsrc).1]
      exact (Follows.releaseLingeringSiblings device.channel).rides hw
    · have hnone : ∀ s, ¬Reuses w device s := fun s hs => hreuse ⟨s, hs⟩
      have hgood := (handedOver_iff hw htask hholds hsrc).mpr (hundisturbed src hsrc)
      obtain ⟨hlive, heq, -⟩ := handOver_fresh hw hnone hsrc
      have hget := hgood.registered
      rw [heq] at hget ⊢
      exact (hfollows.rides hw).fresh hget hlive

/-! ## The runs in which every hand-over is over the resolved session -/

/-- What has to hold of a step: a source that `sharedLiveSourceFor` returns is over the session
resolved in that call, which is registered and open. -/
def HandsOver (w : Station) (label : Label) : Prop :=
  ∀ t device rebuilt i src, label = .proceed t →
    w.tasks[t]? = some ⟨.live device, rebuilt, .resolved i⟩ →
    (w.handOver device i).2 = some src → HandedOver (w.handOver device i).1 i src

/-- The hand-overs that return a source are undisturbed. -/
def KeepsPath (w : Station) (label : Label) : Prop :=
  ∀ t device rebuilt i src, label = .proceed t →
    w.tasks[t]? = some ⟨.live device, rebuilt, .resolved i⟩ →
    (w.handOver device i).2 = some src → Undisturbed w device i

theorem Rides.step {w v : Station} {label : Label} (hw : Rides w) (hpath : KeepsPath w label)
    (hstep : P2PCommandRouter.step w label = some v) : Rides v := by
  by_cases hlabel : ∃ t, label = .proceed t
  · obtain ⟨t, rfl⟩ := hlabel
    cases transition_of_step hstep with
    | @proceed t i purpose rebuilt htask =>
      have hmem := List.mem_of_getElem? htask
      unfold Station.proceed
      split
      · rename_i device
        refine (Follows.setStage_free free_done).rides ?_
        exact hw.handOver hmem (.inr rfl) fun src hsrc => hpath t _ _ i src rfl htask hsrc
      · refine (Follows.setStage_free free_done).rides ?_
        exact hw.replaced hmem rfl (.inr rfl)
      · exact (Follows.setStage_free free_done).rides hw
  · exact (Follows.step hw.sound (fun t ht => hlabel ⟨t, ht⟩) hstep).rides hw

/-- **The runs in which every live source is handed out over the session just resolved are
those in which nothing comes between a hand-over and that session.** -/
theorem handsOver_iff (labels : List Label) :
    StepsMeet step HandsOver {} labels ↔ StepsMeet step KeepsPath {} labels := by
  refine stepsMeet_congr rides_start (fun w label hw => ?_) fun w label v hw hpath hstep =>
    hw.step hpath hstep
  refine forall₅_congr fun t device rebuilt i src => ?_
  refine forall₃_congr fun _ htask hsrc => ?_
  exact handedOver_iff hw (List.mem_of_getElem? htask) (.inr rfl) hsrc

/-- A viewer's call on a path that went silent under a live source. -/
def reuseOverRebuilt : List Label :=
  [.live sampleCamera, .register 0, .bound 0, .resume 0, .connects 0, .ready 0, .proceed 0,
    .attach 0, .video 0 true, .pathAnswers 0 false, .live sampleCamera, .resume 1,
    .afterClose 1, .register 1, .bound 1, .resume 1, .connects 1, .ready 1]

/-- The second viewer is handed the first one's source, over the session that was closed. -/
theorem handOver_over_closed_session :
    ∃ w, exec step {} reuseOverRebuilt = some w ∧
      w.tasks[1]? = some ⟨.live sampleCamera, true, .resolved 1⟩ ∧
      (w.handOver sampleCamera 1).2 = some 0 ∧
      ((w.handOver sampleCamera 1).1.sources[0]?).map LiveSource.held = some 0 ∧
      (w.handOver sampleCamera 1).1.closed 0 = true ∧ ¬HandsOver w (.proceed 1) := by
  refine ⟨_, rfl, rfl, rfl, rfl, rfl, fun h => ?_⟩
  obtain ⟨⟨s, hs, hheld⟩, -, -⟩ := h 1 _ _ _ _ rfl rfl rfl
  cases hs
  cases hheld

end EufySdk.P2PCommandRouter
