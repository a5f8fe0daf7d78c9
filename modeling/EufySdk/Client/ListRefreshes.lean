import Mathlib.Tactic
import EufySdk.Lib.Machine
import EufySdk.Client.DeviceRegistry

/-!
# Overlapping list refreshes

The registry of `client/device-registry.ts` while several `getDevices` are under way, started by
callers of its own, by `refreshedList` or by a poll pass. A step ends where the source awaits:
each query's answer is a step, and so is what a caller does behind its fetch.

- `Refreshing` — the cache, what the callers share, and every call
- `Refreshing.step` — a call, an answer, a rejection or a continuation
- `refreshes_current_iff` — when the cache never shows an older record, and each pass reads its
  own completeness
-/

namespace EufySdk.DeviceRegistry

/-- Who awaits a fetch; a pass holds the baseline it read before. -/
inductive Caller where
  | getDevices
  | refreshedList
  | pollChanges (base : Option Snapshot)

/-- Where a fetch stands. -/
inductive Stage where
  /-- Behind `get_house_list`. -/
  | houses
  /-- Behind one of the `get_devs_list` queries, with this many more to send. -/
  | lists (more : ℕ)
  /-- It set the cache to these devices; the caller has not gone on. -/
  | settled (devices : List EufyDevice)
  /-- The session was rejected. -/
  | rejected
  | over

structure Refresh where
  caller : Caller
  fetch : Fetch := {}
  stage : Stage := .houses
  /-- When the pending query was sent. -/
  askedAt : ℕ

structure Refreshing where
  now : ℕ
  devices : List EufyDevice := []
  lastRefreshPartial : Bool := false
  pollSnapshot : Option Snapshot := none
  listInFlight : Bool := false
  listFetchedAtMs : ℕ := 0
  /-- Every `getDevices`, by the order they were called in. -/
  refreshes : List Refresh := []
  /-- What the passes answered with. -/
  polls : List PollDiff := []
  /-- The fetches that settled, the last one first. -/
  settled : List Fetch := []
  /-- Every record that the cache has shown. -/
  shown : List EufyDevice := []

def LIST_REUSE_MS : ℕ := 5000

inductive RefreshLabel where
  | tick
  | getDevices
  | refreshedList
  | pollChanges
  /-- `get_house_list` answered with this many houses, or failed. -/
  | houses (i : ℕ) (count : Option ℕ)
  /-- A device query answered at a time, with rows or by a failure. -/
  | list (i : ℕ) (servedAt : ℕ) (rows : Option (List EufyDevice))
  | expired (i : ℕ)
  /-- What the caller does behind its fetch. -/
  | resume (i : ℕ)

namespace Refreshing

variable (s : Refreshing)

def start (caller : Caller) : Refreshing :=
  { s with refreshes := s.refreshes ++ [{ caller, askedAt := s.now }] }

def setRefresh (i : ℕ) (c : Refresh) : Refreshing :=
  { s with refreshes := s.refreshes.set i c }

/-- The house list is known: the query without a house is sent, with one a house behind it. -/
def answerHouses (i : ℕ) (c : Refresh) : Option ℕ → Refreshing
  | some count => s.setRefresh i { c with stage := .lists count, askedAt := s.now }
  | none =>
    s.setRefresh i { c with
      fetch := { c.fetch with isPartial := true }, stage := .lists 0, askedAt := s.now }

/-- The rows of an answer, with the time they were served at. -/
def stamped (servedAt : ℕ) (rows : Option (List EufyDevice)) : Option (List EufyDevice) :=
  rows.map fun devices => devices.map fun d => { d with servedAt }

/-- The call whose query is answered, with the queries it has left and its fetch behind it. -/
def answering (i servedAt : ℕ) (rows : Option (List EufyDevice)) : Option (Refresh × ℕ × Fetch) :=
  s.refreshes[i]?.bind fun c =>
    match c.stage with
    | .lists more =>
      if c.askedAt ≤ servedAt ∧ servedAt ≤ s.now then
        some (c, more, c.fetch.answer (stamped servedAt rows))
      else none
    | _ => none

/-- The last query was answered: the fetch sets the cache and the flag. -/
def settle (i : ℕ) (c : Refresh) (f : Fetch) : Refreshing :=
  let devices := f.settle s.devices
  { s with
    devices, lastRefreshPartial := f.isPartial
    refreshes := s.refreshes.set i { c with fetch := f, stage := .settled devices }
    settled := f :: s.settled, shown := s.shown ++ devices }

def answerList (i : ℕ) (c : Refresh) (f : Fetch) : ℕ → Refreshing
  | 0 => s.settle i c f
  | more + 1 => s.setRefresh i { c with fetch := f, stage := .lists more, askedAt := s.now }

/-- A pass goes on with the devices of its fetch. -/
def poll (base : Option Snapshot) (devices : List EufyDevice) : Refreshing :=
  { s with
    polls := s.polls ++ [DeviceRegistry.pollChanges base devices s.lastRefreshPartial]
    pollSnapshot := some ⟨devices, !s.lastRefreshPartial⟩ }

/-- A caller goes on behind its fetch. -/
def resume (caller : Caller) (devices : List EufyDevice) : Refreshing :=
  match caller with
  | .getDevices => s
  | .refreshedList => { s with listFetchedAtMs := s.now, listInFlight := false }
  | .pollChanges base => s.poll base devices

/-- A rejection reaches the caller. -/
def reject (caller : Caller) : Refreshing :=
  match caller with
  | .refreshedList => { s with listInFlight := false }
  | _ => s

def step (s : Refreshing) : RefreshLabel → Option Refreshing
  | .tick => some { s with now := s.now + 1 }
  | .getDevices => some (s.start .getDevices)
  | .refreshedList =>
    -- it answers from the cache, or awaits the fetch that is in flight
    if s.now - s.listFetchedAtMs < LIST_REUSE_MS ∨ s.listInFlight then some s
    else some { s.start .refreshedList with listInFlight := true }
  | .pollChanges => some (s.start (.pollChanges s.pollSnapshot))
  | .houses i count =>
    s.refreshes[i]?.bind fun c =>
      match c.stage with
      | .houses => some (s.answerHouses i c count)
      | _ => none
  | .list i servedAt rows =>
    (s.answering i servedAt rows).map fun (c, more, f) => s.answerList i c f more
  | .expired i =>
    s.refreshes[i]?.bind fun c =>
      match c.stage with
      | .houses | .lists _ => some (s.setRefresh i { c with stage := .rejected })
      | _ => none
  | .resume i =>
    s.refreshes[i]?.bind fun c =>
      match c.stage with
      | .settled devices => some ((s.resume c.caller devices).setRefresh i { c with stage := .over })
      | .rejected => some ((s.reject c.caller).setRefresh i { c with stage := .over })
      | _ => none

/-- The fetch that settles with a label. -/
def settling : RefreshLabel → Option Fetch
  | .list i servedAt rows =>
    (s.answering i servedAt rows).bind fun (_, more, f) => if more = 0 then some f else none
  | _ => none

/-- The fetch of the pass that goes on with a label. -/
def passing : RefreshLabel → Option Fetch
  | .resume i =>
    s.refreshes[i]?.bind fun c =>
      match c.stage, c.caller with
      | .settled _, .pollChanges _ => some c.fetch
      | _, _ => none
  | _ => none

/-- The cache shows no record older than one of its serial that it has shown, and a pass reads the
flag of its own fetch. -/
def Current (s : Refreshing) (a : RefreshLabel) : Prop :=
  (∀ t, step s a = some t →
    ∀ d ∈ t.devices, ∀ e ∈ s.shown, e.sn = d.sn → e.servedAt ≤ d.servedAt) ∧
  ∀ f, s.passing a = some f → s.lastRefreshPartial = f.isPartial

/-- A fetch that settles was answered no serial by an older record than one that settled before
it, and the last that settled before a pass goes on is as complete as the pass's own. -/
def InOrder (s : Refreshing) (a : RefreshLabel) : Prop :=
  (∀ f, s.settling a = some f → ∀ g ∈ s.settled, ∀ d ∈ f.answers, ∀ e ∈ g.answers,
    e.sn = d.sn → e.servedAt ≤ d.servedAt) ∧
  ∀ f, s.passing a = some f → ∀ g, s.settled.head? = some g → g.isPartial = f.isPartial

variable {s} {t : Refreshing} {a : RefreshLabel}

structure Sound (s : Refreshing) : Prop where
  keyed : ∀ c ∈ s.refreshes, Keyed c.fetch.seen
  /-- A fetch that settled shows what it was answered. -/
  shown : ∀ e, e ∈ s.shown ↔ ∃ g ∈ s.settled, e ∈ g.answers
  cached : ∀ d ∈ s.devices, d ∈ s.shown
  latest : ∀ d ∈ s.devices, ∀ e ∈ s.shown, e.sn = d.sn → e.servedAt ≤ d.servedAt
  flag : ∀ g, s.settled.head? = some g → s.lastRefreshPartial = g.isPartial
  settled : ∀ c ∈ s.refreshes, ∀ devices, c.stage = .settled devices → s.settled ≠ []

/-- What a step that settles nothing keeps. -/
structure Keeps (s t : Refreshing) : Prop where
  devices : t.devices = s.devices
  flag : t.lastRefreshPartial = s.lastRefreshPartial
  settled : t.settled = s.settled
  shown : t.shown = s.shown
  refreshes : ∀ c ∈ t.refreshes, c ∈ s.refreshes ∨
    (∀ devices, c.stage ≠ .settled devices) ∧
      ((∀ c ∈ s.refreshes, Keyed c.fetch.seen) → Keyed c.fetch.seen)

theorem Sound.keeps (h : s.Sound) (hkeeps : Keeps s t) : t.Sound where
  keyed := fun c hc => (hkeeps.refreshes c hc).elim (h.keyed c) fun hnew => hnew.2 h.keyed
  shown := by rw [hkeeps.shown, hkeeps.settled]; exact h.shown
  cached := by rw [hkeeps.devices, hkeeps.shown]; exact h.cached
  latest := by rw [hkeeps.devices, hkeeps.shown]; exact h.latest
  flag := by rw [hkeeps.settled, hkeeps.flag]; exact h.flag
  settled := fun c hc devices hstage => by
    rw [hkeeps.settled]
    obtain hold | hnew := hkeeps.refreshes c hc
    · exact h.settled c hold devices hstage
    · exact absurd hstage (hnew.1 devices)

theorem Keeps.refl (s : Refreshing) : Keeps s s :=
  ⟨rfl, rfl, rfl, rfl, fun _ hc => .inl hc⟩

/-- A call set to another stage than a settled one. -/
theorem Keeps.setRefresh {u : Refreshing} (h : Keeps s u) (i : ℕ) {c : Refresh}
    (hstage : ∀ devices, c.stage ≠ .settled devices)
    (hkeyed : (∀ c ∈ s.refreshes, Keyed c.fetch.seen) → Keyed c.fetch.seen) :
    Keeps s (u.setRefresh i c) where
  devices := h.devices
  flag := h.flag
  settled := h.settled
  shown := h.shown
  refreshes := fun c' hc' => by
    -- the call is the one set, or one of those before
    obtain hold | rfl := List.mem_or_eq_of_mem_set hc'
    · exact h.refreshes c' hold
    · exact .inr ⟨hstage, hkeyed⟩

theorem keeps_start (caller : Caller) : Keeps s (s.start caller) where
  devices := rfl
  flag := rfl
  settled := rfl
  shown := rfl
  refreshes := fun c hc => by
    obtain hold | hnew := List.mem_append.mp hc
    · exact .inl hold
    · obtain rfl := List.mem_singleton.mp hnew
      exact .inr ⟨nofun, fun _ => .nil⟩

theorem keeps_resume (caller : Caller) (devices : List EufyDevice) :
    Keeps s (s.resume caller devices) := by
  cases caller with
  | getDevices => exact .refl s
  | refreshedList => exact ⟨rfl, rfl, rfl, rfl, fun _ hc => .inl hc⟩
  | pollChanges base => exact ⟨rfl, rfl, rfl, rfl, fun _ hc => .inl hc⟩

theorem keeps_reject (caller : Caller) : Keeps s (s.reject caller) := by
  cases caller with
  | refreshedList => exact ⟨rfl, rfl, rfl, rfl, fun _ hc => .inl hc⟩
  | getDevices => exact .refl s
  | pollChanges base => exact .refl s

/-- The call answered has a fetch behind the answer. -/
theorem answering_eq_some {i servedAt more : ℕ} {rows : Option (List EufyDevice)} {c : Refresh}
    {f : Fetch} (h : s.answering i servedAt rows = some (c, more, f)) :
    c ∈ s.refreshes ∧ f = c.fetch.answer (stamped servedAt rows) := by
  obtain ⟨c', hc', hanswer⟩ := Option.bind_eq_some_iff.mp h
  split at hanswer
  · split at hanswer
    · cases hanswer
      exact ⟨List.mem_of_getElem? hc', rfl⟩
    · cases hanswer
  · cases hanswer

/-- **What a step can do**: it settles a fetch, or keeps what the cache shows. -/
theorem step_cases (hstep : step s a = some t) :
    (∃ i c f, c ∈ s.refreshes ∧ (Keyed c.fetch.seen → Keyed f.seen) ∧ s.settling a = some f ∧
      t = s.settle i c f) ∨
    s.settling a = none ∧ Keeps s t := by
  cases a with
  | tick =>
    obtain rfl := Option.some.inj hstep
    exact .inr ⟨rfl, rfl, rfl, rfl, rfl, fun _ hc => .inl hc⟩
  | getDevices =>
    obtain rfl := Option.some.inj hstep
    exact .inr ⟨rfl, keeps_start _⟩
  | refreshedList =>
    rw [step] at hstep
    split at hstep
    · obtain rfl := Option.some.inj hstep
      exact .inr ⟨rfl, .refl s⟩
    · obtain rfl := Option.some.inj hstep
      have hstart := keeps_start (s := s) .refreshedList
      exact .inr ⟨rfl, hstart.devices, hstart.flag, hstart.settled, hstart.shown,
        hstart.refreshes⟩
  | pollChanges =>
    obtain rfl := Option.some.inj hstep
    exact .inr ⟨rfl, keeps_start _⟩
  | houses i count =>
    obtain ⟨c, hc, hstep⟩ := Option.bind_eq_some_iff.mp hstep
    split at hstep
    · obtain rfl := Option.some.inj hstep
      refine .inr ⟨rfl, ?_⟩
      have hmem := List.mem_of_getElem? hc
      cases count with
      | some count => exact (Keeps.refl s).setRefresh i nofun fun h => h c hmem
      | none => exact (Keeps.refl s).setRefresh i nofun fun h => h c hmem
    · cases hstep
  | list i servedAt rows =>
    obtain ⟨⟨c, more, f⟩, hanswer, rfl⟩ := Option.map_eq_some_iff.mp hstep
    obtain ⟨hmem, hf⟩ := answering_eq_some hanswer
    have hkeyed : Keyed c.fetch.seen → Keyed f.seen := fun h => hf ▸ h.answer _
    have hsettling : s.settling (.list i servedAt rows) = if more = 0 then some f else none := by
      rw [settling, hanswer, Option.bind_some]
    cases more with
    | zero => exact .inl ⟨i, c, f, hmem, hkeyed, hsettling, rfl⟩
    | succ more =>
      exact .inr ⟨hsettling, (Keeps.refl s).setRefresh i nofun fun h => hkeyed (h c hmem)⟩
  | expired i =>
    obtain ⟨c, hc, hstep⟩ := Option.bind_eq_some_iff.mp hstep
    have hmem := List.mem_of_getElem? hc
    split at hstep
    · obtain rfl := Option.some.inj hstep
      exact .inr ⟨rfl, (Keeps.refl s).setRefresh i nofun fun h => h c hmem⟩
    · obtain rfl := Option.some.inj hstep
      exact .inr ⟨rfl, (Keeps.refl s).setRefresh i nofun fun h => h c hmem⟩
    · cases hstep
  | resume i =>
    obtain ⟨c, hc, hstep⟩ := Option.bind_eq_some_iff.mp hstep
    have hmem := List.mem_of_getElem? hc
    split at hstep
    · obtain rfl := Option.some.inj hstep
      exact .inr ⟨rfl, (keeps_resume _ _).setRefresh i nofun fun h => h c hmem⟩
    · obtain rfl := Option.some.inj hstep
      exact .inr ⟨rfl, (keeps_reject _).setRefresh i nofun fun h => h c hmem⟩
    · cases hstep

/-- A fetch that settles in order shows no record older than one shown. -/
theorem Sound.settle_latest (h : s.Sound) {f : Fetch} (hkeyed : Keyed f.seen)
    (horder : ∀ g ∈ s.settled, ∀ d ∈ f.answers, ∀ e ∈ g.answers,
      e.sn = d.sn → e.servedAt ≤ d.servedAt) :
    ∀ d ∈ f.settle s.devices, ∀ e ∈ s.shown, e.sn = d.sn → e.servedAt ≤ d.servedAt := by
  intro d hd e he hsn
  obtain hanswer | hkept := answers_or_previous hkeyed hd
  · -- `e` was shown by a fetch that was answered it
    obtain ⟨g, hg, hmem⟩ := (h.shown e).mp he
    exact horder g hg d hanswer e hmem hsn
  · exact h.latest d hkept e he hsn

theorem Sound.settle (h : s.Sound) (i : ℕ) {c : Refresh} {f : Fetch} (hkeyed : Keyed f.seen)
    (hlatest : ∀ d ∈ f.settle s.devices, ∀ e ∈ s.shown, e.sn = d.sn → e.servedAt ≤ d.servedAt) :
    (s.settle i c f).Sound where
  keyed := fun c' hc' => by
    obtain hold | rfl := List.mem_or_eq_of_mem_set hc'
    · exact h.keyed c' hold
    · exact hkeyed
  shown := fun e => by
    constructor
    · intro he
      obtain hold | hnew := List.mem_append.mp he
      · obtain ⟨g, hg, hmem⟩ := (h.shown e).mp hold
        exact ⟨g, List.mem_cons_of_mem _ hg, hmem⟩
      · obtain hanswer | hkept := answers_or_previous hkeyed hnew
        · exact ⟨f, List.mem_cons_self, hanswer⟩
        · obtain ⟨g, hg, hmem⟩ := (h.shown e).mp (h.cached e hkept)
          exact ⟨g, List.mem_cons_of_mem _ hg, hmem⟩
    · rintro ⟨g, hg, hmem⟩
      obtain rfl | hold := List.mem_cons.mp hg
      · exact List.mem_append_right _ (mem_settle_of_answers hkeyed _ hmem)
      · exact List.mem_append_left _ ((h.shown e).mpr ⟨g, hold, hmem⟩)
  cached := fun d hd => List.mem_append_right _ hd
  latest := fun d hd e he hsn => by
    obtain hold | hnew := List.mem_append.mp he
    · exact hlatest d hd e hold hsn
    -- one list shows a serial once
    · rw [eq_of_mem_settle hkeyed hd hnew hsn]
  flag := fun g hg => by
    obtain rfl := Option.some.inj hg
    rfl
  settled := fun _ _ _ _ => List.cons_ne_nil _ _

/-- The pass that goes on has settled. -/
theorem Sound.settled_of_passing (h : s.Sound) {f : Fetch} (hpass : s.passing a = some f) :
    ∃ g, s.settled.head? = some g := by
  cases a with
  | resume i =>
    obtain ⟨c, hc, hpass⟩ := Option.bind_eq_some_iff.mp hpass
    split at hpass
    · rename_i devices base hstage hcaller
      exact ⟨_, List.head?_eq_some_head (h.settled c (List.mem_of_getElem? hc) devices hstage)⟩
    · cases hpass
  | _ => cases hpass

/-- A label that settles a fetch happens. -/
theorem step_of_settling {f : Fetch} (hsettling : s.settling a = some f) :
    ∃ i c, (Keyed c.fetch.seen → Keyed f.seen) ∧ c ∈ s.refreshes ∧
      step s a = some (s.settle i c f) := by
  cases a with
  | list i servedAt rows =>
    obtain ⟨⟨c, more, f'⟩, hanswer, hmore⟩ := Option.bind_eq_some_iff.mp hsettling
    obtain ⟨hmem, hf⟩ := answering_eq_some hanswer
    dsimp only at hmore
    split at hmore
    · rename_i hzero
      obtain rfl := Option.some.inj hmore
      obtain rfl : more = 0 := hzero
      refine ⟨i, c, fun h => hf ▸ h.answer _, hmem, ?_⟩
      rw [step, hanswer]
      rfl
    · cases hmore
  | _ => cases hsettling

/-- The records shown stay in order exactly if the answers do. -/
theorem Sound.latest_iff (h : s.Sound) :
    (∀ t, step s a = some t →
      ∀ d ∈ t.devices, ∀ e ∈ s.shown, e.sn = d.sn → e.servedAt ≤ d.servedAt) ↔
    ∀ f, s.settling a = some f → ∀ g ∈ s.settled, ∀ d ∈ f.answers, ∀ e ∈ g.answers,
      e.sn = d.sn → e.servedAt ≤ d.servedAt := by
  constructor
  · intro hshow f hsettling g hg d hd e he hsn
    obtain ⟨i, c, hkeyed, hmem, hstep⟩ := step_of_settling hsettling
    have hlisted : d ∈ f.settle s.devices :=
      mem_settle_of_answers (hkeyed (h.keyed c hmem)) _ hd
    exact hshow _ hstep d hlisted e ((h.shown e).mpr ⟨g, hg, he⟩) hsn
  · intro horder t hstep
    obtain ⟨i, c, f, hmem, hkeyed, hsettling, rfl⟩ | ⟨hnone, hkeeps⟩ := step_cases hstep
    · exact h.settle_latest (hkeyed (h.keyed c hmem)) (horder f hsettling)
    · rw [hkeeps.devices]
      exact h.latest

/-- A pass reads its own flag exactly if the fetch that settled last has the same. -/
theorem Sound.flag_iff (h : s.Sound) :
    (∀ f, s.passing a = some f → s.lastRefreshPartial = f.isPartial) ↔
    ∀ f, s.passing a = some f → ∀ g, s.settled.head? = some g → g.isPartial = f.isPartial := by
  constructor
  · intro hown f hpass g hlast
    exact (h.flag g hlast).symm.trans (hown f hpass)
  · intro hlast f hpass
    obtain ⟨g, hg⟩ := h.settled_of_passing hpass
    exact (h.flag g hg).trans (hlast f hpass g hg)

theorem Sound.current_iff (h : s.Sound) : s.Current a ↔ s.InOrder a :=
  and_congr h.latest_iff h.flag_iff

theorem Sound.step (h : s.Sound) (horder : s.InOrder a) (hstep : step s a = some t) :
    t.Sound := by
  obtain ⟨i, c, f, hmem, hkeyed, hsettling, rfl⟩ | ⟨-, hkeeps⟩ := step_cases hstep
  · have hseen := hkeyed (h.keyed c hmem)
    exact h.settle i hseen (h.settle_latest hseen (horder.1 f hsettling))
  · exact h.keeps hkeeps

theorem sound_start (now : ℕ) : Sound { now } where
  keyed := nofun
  shown := fun _ => ⟨nofun, nofun⟩
  cached := nofun
  latest := nofun
  flag := nofun
  settled := nofun

/-- **Overlapping refreshes never regress the cache exactly in order.** In a run of calls, answers
and continuations, every list shown is as recent as what was shown before it, serial by serial,
and every pass reads the flag of its own fetch, if and only if the fetches settle in the order
their answers were served in, and none of another completeness settles between a pass's fetch and
the pass. -/
theorem refreshes_current_iff (now : ℕ) (labels : List RefreshLabel) :
    Machine.StepsMeet step Current { now } labels ↔
      Machine.StepsMeet step InOrder { now } labels :=
  Machine.stepsMeet_congr (sound_start now) (fun _ _ h => h.current_iff)
    (fun _ _ _ h horder hstep => h.step horder hstep)

/-- Two callers refresh; the first one's list is served before the second one's, and arrives
after it. -/
def slowFetch : List RefreshLabel :=
  [.getDevices, .houses 0 (some 0), .getDevices, .houses 1 (some 0), .tick, .tick,
    .list 1 2 (some [{ sn := "A" }]), .list 0 1 (some [{ sn := "A" }])]

/-- The cache goes back to the older record. -/
theorem slowFetch_regresses : ¬ Machine.StepsMeet step Current { now := 0 } slowFetch := by
  intro hmeet
  have hlast := ((hmeet.2 _ rfl).2 _ rfl).2 _ rfl
  have hlist := (((hlast.2 _ rfl).2 _ rfl).2 _ rfl).2 _ rfl
  have hold := hlist.1.1 _ rfl _ List.mem_cons_self _ List.mem_cons_self rfl
  revert hold
  decide

end Refreshing

end EufySdk.DeviceRegistry
