import EufySdk.Lib.Machine
import EufySdk.Client.Realtime

/-!
# The poll loop

The loop of `schedulePoll`, `setPollInterval` and `pollOnce` of `client/eufy-mega.ts` over
the realtime channels: which passes run, which stored list each of them diffs against, and
whether a login stands. Passes run for as long as they like.

- `PollLoop.step` — a step of the channels, or a `pollChanges` that settles
- `PollLoop.SingleFlight` — one `pollChanges` at a time, each list diffed once, no stray pass
- `PollLoop.ArmsIdle` — the timer is armed from outside only while no pass is running
- `PollLoop.Inv` — the timer is armed only while idle, between a login and a disconnect
-/

namespace EufySdk.Realtime

open Machine

/-- A running `pollOnce`: the list it diffs against, and whether its `pollChanges` is through. -/
structure Pass where
  /-- How many lists were stored when it started. -/
  base : ℕ
  settled : Bool := false
  deriving DecidableEq, Repr

structure PollLoop where
  channels : Channels
  autoRealtime : Bool
  /-- The running passes, in the order of `channels.polls`. -/
  passes : List Pass := []
  /-- How many lists passes have stored in `pollSnapshot`. -/
  snapshots : ℕ := 0
  /-- The diffs reported: of which stored list with which. -/
  reports : List (ℕ × ℕ) := []
  /-- A login since the last disconnect. -/
  loggedIn : Bool := false

inductive PollLabel
  | channel (l : Label)
  /-- The pass's `pollChanges` resolves, or rejects. -/
  | settles (p : ℕ) (ok : Bool)
  deriving DecidableEq, Repr

namespace PollLoop

/-- A client that has not logged in yet. -/
def start (autoRealtime : Bool) (pollMs : ℕ) : PollLoop where
  channels := { pollMs }
  autoRealtime

/-- The passes whose `pollChanges` is in flight. -/
def inFlight (s : PollLoop) : ℕ :=
  s.passes.countP fun pass => !pass.settled

def settle (s : PollLoop) (p : ℕ) (pass : Pass) (ok : Bool) : PollLoop :=
  let s := { s with passes := s.passes.set p { pass with settled := true } }
  if ok then
    { s with snapshots := s.snapshots + 1, reports := s.reports ++ [(pass.base, s.snapshots + 1)] }
  else s

def step (s : PollLoop) : PollLabel → Option PollLoop
  | .settles p ok =>
    match s.passes[p]? with
    | some pass => if pass.settled then none else some (s.settle p pass ok)
    | none => none
  -- a login brings nothing up when the host opted out
  | .channel .login =>
    if s.autoRealtime then
      (s.channels.step .login).map fun channels => { s with channels, loggedIn := true }
    else some { s with loggedIn := true }
  | .channel .disconnect =>
    (s.channels.step .disconnect).map fun channels => { s with channels, loggedIn := false }
  | .channel .pollFires =>
    (s.channels.step .pollFires).map fun channels =>
      { s with channels, passes := s.passes ++ [⟨s.snapshots, false⟩] }
  | .channel (.pollEnds p) =>
    -- `pollOnce` awaits its `pollChanges` before the loop goes on
    if (s.passes[p]?).any Pass.settled then
      (s.channels.step (.pollEnds p)).map fun channels =>
        { s with channels, passes := s.passes.eraseIdx p }
    else none
  | .channel l => (s.channels.step l).map fun channels => { s with channels }

/-- One `pollChanges` is in flight at most, every stored list has been diffed with the one stored
before it and with no other, and a pass starts only for a client with a login behind its last
disconnect that did not opt out. -/
def SingleFlight (s : PollLoop) (l : PollLabel) : Prop :=
  ∀ t, s.step l = some t →
    t.inFlight ≤ 1 ∧ t.reports = (List.range t.snapshots).map (fun k => (k, k + 1)) ∧
      (l = .channel .pollFires → s.autoRealtime = true ∧ s.loggedIn = true)

/-- The step arms the timer, other than at the end of a pass. -/
def armsOutside (s : PollLoop) : PollLabel → Bool
  | .channel (.setPollInterval ms) => ms ≠ 0
  | .channel (.finish k) =>
    (s.channels.generations[k]?).any fun g =>
      g.started && g.epoch = s.channels.realtimeEpoch && s.channels.pollMs ≠ 0
  | _ => false

def setsInterval : PollLabel → Bool
  | .channel (.setPollInterval _) => true
  | _ => false

/-- A step that arms the timer from outside does so with no pass running, and an interval is set
only between a login and a disconnect of a client that did not opt out. -/
def ArmsIdle (s : PollLoop) (l : PollLabel) : Prop :=
  s.armsOutside l = true → s.passes = [] ∧
    (setsInterval l = true → s.autoRealtime = true ∧ s.loggedIn = true)

instance (s : PollLoop) (l : PollLabel) : Decidable (s.ArmsIdle l) :=
  inferInstanceAs (Decidable (_ → _ ∧ _))

end PollLoop

/-! ### What the other steps leave alone -/

namespace Channels

/-- The poll's own data and the epochs of the generations. -/
structure SamePoll (c t : Channels) : Prop where
  epoch : t.realtimeEpoch = c.realtimeEpoch
  timer : t.pollTimer = c.pollTimer
  polls : t.polls = c.polls
  epochs : t.generations.map Generation.epoch = c.generations.map Generation.epoch

theorem SamePoll.refl (c : Channels) : SamePoll c c := ⟨rfl, rfl, rfl, rfl⟩

theorem SamePoll.trans {c t u : Channels} (h : SamePoll c t) (h' : SamePoll t u) :
    SamePoll c u :=
  ⟨h'.epoch.trans h.epoch, h'.timer.trans h.timer, h'.polls.trans h.polls,
    h'.epochs.trans h.epochs⟩

/-- A change of one generation that keeps its epoch. -/
theorem samePoll_modifyGeneration (c : Channels) (k : ℕ) {f : Generation → Generation}
    (hf : ∀ g, (f g).epoch = g.epoch) : SamePoll c (c.modifyGeneration k f) := by
  refine ⟨rfl, rfl, rfl, ?_⟩
  apply List.ext_getElem?
  intro j
  rw [List.getElem?_map, List.getElem?_map, modifyGeneration, List.getElem?_modify]
  cases c.generations[j]? with
  | none => rfl
  | some g =>
    split
    · exact congrArg some (hf g)
    · rfl

theorem samePoll_ensure (c : Channels) (scope : MqttScope) : SamePoll c (c.ensure scope).1 := by
  rw [ensure]
  split <;> exact ⟨rfl, rfl, rfl, rfl⟩

theorem samePoll_ensureAll (c : Channels) (scopes : List MqttScope) :
    SamePoll c (c.ensureAll scopes).1 := by
  induction scopes generalizing c with
  | nil => exact SamePoll.refl c
  | cons scope rest ih => exact (samePoll_ensure c scope).trans (ih _)

theorem samePoll_launch (c : Channels) (k : ℕ) (scopes : List MqttScope) :
    SamePoll c (c.launch k scopes) :=
  (samePoll_ensureAll c scopes.dedup).trans (samePoll_modifyGeneration _ k fun _ => rfl)

theorem samePoll_closePush (c : Channels) : SamePoll c c.closePush := by
  rw [closePush]
  split
  · exact SamePoll.refl c
  · next k _ =>
    have hepochs := (samePoll_modifyGeneration c k
      (f := fun g => { g with pushOpen := false }) fun _ => rfl).epochs
    exact ⟨rfl, rfl, rfl, hepochs⟩

end Channels

/-- A step of the poll's own, of a login or of a disconnect. -/
def Label.touchesPoll : Label → Bool
  | .login | .finish _ | .disconnect | .pollFires | .pollEnds _ | .setPollInterval _ => true
  | _ => false

/-- **What any other step does to the poll**: nothing. -/
theorem Channels.samePoll_step {c t : Channels} {l : Label} (hl : l.touchesPoll = false)
    (h : c.step l = some t) : Channels.SamePoll c t := by
  cases transition_of_step h with
  | rejoins | login | finish | disconnect | pollFires | pollEnds | setPollInterval => cases hl
  | superseded | listingFails => exact samePoll_modifyGeneration c _ fun g => by simp
  | launch => exact samePoll_launch c _ _
  | ensureMqttStarted => exact samePoll_ensure c _
  | mqttConnectsLate | mqttConnects | mqttFails | mqttCloses | mqttCloseFails | mqttSubscribed =>
    exact ⟨rfl, rfl, rfl, rfl⟩
  | mqttSettles | pushConnects | pushFails | pushSuperseded | wiredSettles =>
    exact samePoll_modifyGeneration c _ fun _ => rfl
  | transportCloses | clears | teardownFails => exact ⟨rfl, rfl, rfl, rfl⟩
  | closesPush => exact (samePoll_closePush c).trans ⟨rfl, rfl, rfl, rfl⟩

namespace PollLoop

/-- The timer is armed only while no pass is running, for a client that is logged in and did not
opt out; a running pass that has not stored its list diffs against the last one stored. -/
structure Inv (s : PollLoop) : Prop where
  paired : s.passes.length = s.channels.polls.length
  single : s.passes.length ≤ 1
  idle : s.channels.pollTimer.isSome → s.passes = []
  armed : s.channels.pollTimer.isSome → s.autoRealtime = true ∧ s.loggedIn = true
  timer : ∀ e ∈ s.channels.pollTimer, e ≤ s.channels.realtimeEpoch
  past : ∀ e ∈ s.channels.polls, e ≤ s.channels.realtimeEpoch
  own : s.channels.realtimeEpoch ∈ s.channels.polls → s.autoRealtime = true ∧ s.loggedIn = true
  generations : ∀ e ∈ s.channels.generations.map Generation.epoch, e ≤ s.channels.realtimeEpoch
  broughtUp : s.channels.realtimeEpoch ∈ s.channels.generations.map Generation.epoch →
    s.autoRealtime = true ∧ s.loggedIn = true
  reports : s.reports = (List.range s.snapshots).map fun k => (k, k + 1)
  base : ∀ pass ∈ s.passes, pass.settled = false → pass.base = s.snapshots

namespace Inv

variable {s t : PollLoop} {l : PollLabel}

theorem start (autoRealtime : Bool) (pollMs : ℕ) : Inv (start autoRealtime pollMs) where
  paired := rfl
  single := Nat.zero_le 1
  idle := nofun
  armed := nofun
  timer := nofun
  past := nofun
  own := nofun
  generations := nofun
  broughtUp := nofun
  reports := rfl
  base := nofun

/-- Channels with the same poll and the same generations. -/
theorem samePoll (h : Inv s) {channels : Channels} (hsame : s.channels.SamePoll channels) :
    Inv { s with channels } where
  paired := h.paired.trans (congrArg _ hsame.polls.symm)
  single := h.single
  idle := fun htimer => h.idle (hsame.timer ▸ htimer)
  armed := fun htimer => h.armed (hsame.timer ▸ htimer)
  timer := by
    change ∀ e ∈ channels.pollTimer, e ≤ channels.realtimeEpoch
    rw [hsame.timer, hsame.epoch]
    exact h.timer
  past := by
    change ∀ e ∈ channels.polls, e ≤ channels.realtimeEpoch
    rw [hsame.polls, hsame.epoch]
    exact h.past
  own := by
    change channels.realtimeEpoch ∈ channels.polls → _
    rw [hsame.polls, hsame.epoch]
    exact h.own
  generations := by
    change ∀ e ∈ channels.generations.map Generation.epoch, e ≤ channels.realtimeEpoch
    rw [hsame.epochs, hsame.epoch]
    exact h.generations
  broughtUp := by
    change channels.realtimeEpoch ∈ channels.generations.map Generation.epoch → _
    rw [hsame.epochs, hsame.epoch]
    exact h.broughtUp
  reports := h.reports
  base := h.base

/-- Arming the timer, or not: of a loop that is idle and logged in where it is armed. -/
theorem schedulePoll (h : Inv s) (epoch : ℕ)
    (harms : s.channels.pollMs ≠ 0 → epoch = s.channels.realtimeEpoch →
      s.passes = [] ∧ s.autoRealtime = true ∧ s.loggedIn = true) :
    Inv { s with channels := s.channels.schedulePoll epoch } := by
  rw [Channels.schedulePoll]
  split
  · exact h
  · rename_i hnot
    rw [Bool.or_eq_true, not_or, decide_eq_true_eq, decide_eq_true_eq, not_not] at hnot
    obtain ⟨hidle, hlogged⟩ := harms hnot.1 hnot.2
    exact
      { paired := h.paired
        single := h.single
        idle := fun _ => hidle
        armed := fun _ => hlogged
        timer := fun e he => (Option.some.inj he ▸ hnot.2).le
        past := h.past
        own := h.own
        generations := h.generations
        broughtUp := h.broughtUp
        reports := h.reports
        base := h.base }

theorem login (h : Inv s) (hauto : s.autoRealtime = true) {channels : Channels}
    (hchannels : s.channels.step .login = some channels) :
    Inv { s with channels, loggedIn := true } := by
  have hlogged : Inv { s with loggedIn := true } :=
    { h with
      armed := fun htimer => ⟨(h.armed htimer).1, rfl⟩
      own := fun hown => ⟨(h.own hown).1, rfl⟩
      broughtUp := fun hup => ⟨(h.broughtUp hup).1, rfl⟩ }
  have hcreate : Inv { s with channels := s.channels.createGeneration, loggedIn := true } := by
    have hepochs : s.channels.createGeneration.generations.map Generation.epoch =
        s.channels.generations.map Generation.epoch ++ [s.channels.realtimeEpoch] := by
      rw [Channels.createGeneration, List.map_append, List.map_singleton]
    refine { hlogged with generations := ?_, broughtUp := fun _ => ⟨hauto, rfl⟩ }
    change ∀ e ∈ s.channels.createGeneration.generations.map Generation.epoch, _
    intro e he
    rw [hepochs] at he
    obtain he | he := List.mem_append.mp he
    · exact h.generations e he
    · exact (List.mem_singleton.mp he).le
  cases Channels.transition_of_step hchannels with
  | rejoins => exact hlogged
  | login => exact hcreate

theorem disconnect (h : Inv s) : Inv { s with channels := s.channels.disconnect, loggedIn := false } := by
  have hepochs : s.channels.disconnect.generations.map Generation.epoch =
      s.channels.generations.map Generation.epoch :=
    (Channels.samePoll_modifyGeneration s.channels (s.channels.generations.length - 1)
      (f := fun g => Generation.settle { g with aborted := true } .superseded) fun g => by
        simp).epochs
  have hnext : ∀ {e : ℕ}, e ≤ s.channels.realtimeEpoch →
      e ≤ s.channels.realtimeEpoch + 1 ∧ e ≠ s.channels.realtimeEpoch + 1 := by omega
  constructor
  · exact h.paired
  · exact h.single
  · nofun
  · nofun
  · nofun
  -- what runs on is of an epoch before the new one
  · exact fun e he => (hnext (h.past e he)).1
  · exact fun hown => absurd rfl (hnext (h.past _ hown)).2
  · change ∀ e ∈ s.channels.disconnect.generations.map Generation.epoch, _
    rw [hepochs]
    exact fun e he => (hnext (h.generations e he)).1
  · change s.channels.realtimeEpoch + 1 ∈ s.channels.disconnect.generations.map Generation.epoch → _
    rw [hepochs]
    exact fun hup => absurd rfl (hnext (h.generations _ hup)).2
  · exact h.reports
  · exact h.base

theorem pollFires (h : Inv s) {channels : Channels}
    (hchannels : s.channels.step .pollFires = some channels) :
    Inv { s with channels, passes := s.passes ++ [⟨s.snapshots, false⟩] } := by
  obtain ⟨epoch, htimer, rfl⟩ := Option.map_eq_some_iff.mp hchannels
  have harmed : s.channels.pollTimer.isSome := by
    rw [htimer]
    rfl
  -- the timer was armed, so the pass that starts is the only one
  have hnil := h.idle harmed
  have hpolls : s.channels.polls = [] := by
    rw [← List.length_eq_zero_iff, ← h.paired, hnil]
    rfl
  have hrunning : ∀ e ∈ s.channels.polls ++ [epoch], e = epoch := by
    intro e he
    rw [hpolls] at he
    exact List.mem_singleton.mp he
  constructor
  · change (s.passes ++ [_]).length = (s.channels.polls ++ [epoch]).length
    rw [hnil, hpolls]
    rfl
  · change (s.passes ++ [_]).length ≤ 1
    rw [hnil]
    exact le_rfl
  · nofun
  · nofun
  · nofun
  · intro e he
    rw [hrunning e he]
    exact h.timer epoch htimer
  · exact fun _ => h.armed harmed
  · exact h.generations
  · exact h.broughtUp
  · exact h.reports
  · intro pass hpass _
    change pass ∈ s.passes ++ [_] at hpass
    rw [hnil] at hpass
    rw [List.mem_singleton.mp hpass]

/-- The end of a pass arms the timer for the next one. -/
theorem pollEnds (h : Inv s) {p : ℕ} {channels : Channels}
    (hchannels : s.channels.step (.pollEnds p) = some channels) :
    Inv { s with channels, passes := s.passes.eraseIdx p } := by
  cases Channels.transition_of_step hchannels with
  | @pollEnds p epoch hepoch =>
    have hp : p < s.passes.length := by
      rw [h.paired]
      exact (List.getElem?_eq_some_iff.mp hepoch).1
    have hnil : s.passes.eraseIdx p = [] := by
      rw [← List.length_eq_zero_iff, List.length_eraseIdx_of_lt hp]
      have := h.single
      omega
    have hended : Inv { s with
        channels := { s.channels with polls := s.channels.polls.eraseIdx p }
        passes := s.passes.eraseIdx p } := by
      constructor
      · change (s.passes.eraseIdx p).length = (s.channels.polls.eraseIdx p).length
        rw [List.length_eraseIdx, List.length_eraseIdx, h.paired]
      · change (s.passes.eraseIdx p).length ≤ 1
        rw [hnil]
        exact Nat.zero_le 1
      · exact fun _ => hnil
      · exact h.armed
      · exact h.timer
      · exact fun e he => h.past e (List.mem_of_mem_eraseIdx he)
      · exact fun hown => h.own (List.mem_of_mem_eraseIdx hown)
      · exact h.generations
      · exact h.broughtUp
      · exact h.reports
      · exact fun pass hpass => h.base pass (List.mem_of_mem_eraseIdx hpass)
    -- the loop is armed again only by a pass of the epoch that stands
    refine hended.schedulePoll epoch fun _ hcurrent => ⟨hnil, h.own ?_⟩
    change epoch = s.channels.realtimeEpoch at hcurrent
    rw [← hcurrent]
    exact List.mem_of_getElem? hepoch

theorem setPollInterval (h : Inv s) (ms : ℕ)
    (hidle : ms ≠ 0 → s.passes = [] ∧ s.autoRealtime = true ∧ s.loggedIn = true) :
    Inv { s with
      channels := { s.channels with pollMs := ms, pollTimer := none }.schedulePoll
        s.channels.realtimeEpoch } := by
  have hcancelled : Inv { s with
      channels := { s.channels with pollMs := ms, pollTimer := none } } :=
    { h with
      idle := nofun
      armed := nofun
      timer := nofun }
  exact hcancelled.schedulePoll _ fun hms _ => hidle hms

theorem finish (h : Inv s) {k : ℕ} {g : Generation} (hg : s.channels.generations[k]? = some g)
    (hidle : g.epoch = s.channels.realtimeEpoch → s.channels.pollMs ≠ 0 → s.passes = []) :
    Inv { s with channels := s.channels.finish k g } := by
  rw [Channels.finish]
  split
  · exact h.samePoll (Channels.samePoll_modifyGeneration _ k fun g => by simp)
  · rename_i hepoch
    rw [not_not] at hepoch
    -- a generation of this epoch was brought up by its login
    have hup : s.autoRealtime = true ∧ s.loggedIn = true := by
      refine h.broughtUp ?_
      rw [← hepoch]
      exact List.mem_map_of_mem (List.mem_of_getElem? hg)
    have hsame : s.channels.SamePoll
        { s.channels.modifyGeneration k fun g =>
            Generation.settle { g with stage := .done } g.outcome with
          pushClient := if g.pushStart = PushStart.connected then some k else none } := by
      have hmodified := Channels.samePoll_modifyGeneration s.channels k
        (f := fun g => Generation.settle { g with stage := .done } g.outcome) fun g => by simp
      exact ⟨rfl, rfl, rfl, hmodified.epochs⟩
    exact (h.samePoll hsame).schedulePoll _ fun hms _ => ⟨hidle hepoch hms, hup⟩

/-- A pass in flight is the only one. -/
theorem only (h : Inv s) {p : ℕ} {pass : Pass} (hp : s.passes[p]? = some pass) :
    p = 0 ∧ s.passes = [pass] := by
  have hsingle := h.single
  have hlt := (List.getElem?_eq_some_iff.mp hp).1
  obtain ⟨only, honly⟩ := List.length_eq_one_iff.mp (show s.passes.length = 1 by omega)
  rw [honly, List.length_singleton] at hlt
  obtain rfl : p = 0 := by omega
  rw [honly] at hp ⊢
  exact ⟨rfl, congrArg ([·]) (Option.some.inj hp)⟩

/-- A pass whose `pollChanges` settles diffs against the last list stored. -/
theorem settle (h : Inv s) {p : ℕ} {pass : Pass} (hp : s.passes[p]? = some pass)
    (hpass : pass.settled = false) (ok : Bool) : Inv (s.settle p pass ok) := by
  have hbase := h.base pass (List.mem_of_getElem? hp) hpass
  -- alone in flight, it finds the list that it started from still the last one stored
  obtain ⟨rfl, hone⟩ := h.only hp
  have hsettled : ∀ x ∈ s.passes.set 0 { pass with settled := true }, x.settled = true := by
    intro x hx
    rw [hone] at hx
    rw [List.mem_singleton.mp hx]
  have hset : Inv { s with passes := s.passes.set 0 { pass with settled := true } } :=
    { h with
      paired := by
        change (s.passes.set 0 _).length = _
        rw [List.length_set, h.paired]
      single := by
        change (s.passes.set 0 _).length ≤ 1
        rw [List.length_set]
        exact h.single
      idle := fun htimer => by
        change s.passes.set 0 _ = []
        rw [h.idle htimer]
        rfl
      base := fun x hx hnot => by
        rw [hsettled x hx] at hnot
        cases hnot }
  rw [PollLoop.settle]
  split
  · refine { hset with reports := ?_, base := ?_ }
    · change s.reports ++ [(pass.base, s.snapshots + 1)] = _
      rw [h.reports, hbase, List.range_succ, List.map_append, List.map_singleton]
    · intro x hx hnot
      rw [hsettled x hx] at hnot
      cases hnot
  · exact hset

theorem step (h : Inv s) (hidle : s.ArmsIdle l) (ht : s.step l = some t) : Inv t := by
  cases l with
  | settles p ok =>
    rw [PollLoop.step] at ht
    split at ht
    · next pass hpass =>
      split_ifs at ht with hsettled
      cases ht
      exact h.settle hpass (Bool.not_eq_true _ ▸ hsettled) ok
    · cases ht
  | channel l =>
    cases l with
    | login =>
      rw [PollLoop.step] at ht
      split_ifs at ht with hauto
      · obtain ⟨channels, hchannels, rfl⟩ := Option.map_eq_some_iff.mp ht
        exact h.login hauto hchannels
      · cases ht
        exact
          { h with
            armed := fun htimer => ⟨(h.armed htimer).1, rfl⟩
            own := fun hown => ⟨(h.own hown).1, rfl⟩
            broughtUp := fun hup => ⟨(h.broughtUp hup).1, rfl⟩ }
    | disconnect =>
      cases ht
      exact h.disconnect
    | pollFires =>
      obtain ⟨channels, hchannels, rfl⟩ := Option.map_eq_some_iff.mp ht
      exact h.pollFires hchannels
    | pollEnds p =>
      rw [PollLoop.step] at ht
      split_ifs at ht
      obtain ⟨channels, hchannels, rfl⟩ := Option.map_eq_some_iff.mp ht
      exact h.pollEnds hchannels
    | setPollInterval ms =>
      cases ht
      refine h.setPollInterval ms fun hms => ?_
      obtain ⟨hnil, hlogged⟩ := hidle (decide_eq_true hms)
      exact ⟨hnil, hlogged rfl⟩
    | finish k =>
      obtain ⟨channels, hchannels, rfl⟩ := Option.map_eq_some_iff.mp ht
      cases Channels.transition_of_step hchannels with
      | finish hg hstarted =>
        refine h.finish hg fun hepoch hms => (hidle ?_).1
        simp [armsOutside, hg, hstarted, hepoch, hms]
    | _ =>
      simp only [PollLoop.step, Option.map_eq_some_iff] at ht
      obtain ⟨channels, hchannels, rfl⟩ := ht
      exact h.samePoll (Channels.samePoll_step rfl hchannels)

/-- While the invariant is kept, a pass starts only where it may, and diffs its own. -/
theorem singleFlight (h : Inv s) (hidle : s.ArmsIdle l) : s.SingleFlight l := by
  intro t ht
  have hinv := h.step hidle ht
  refine ⟨(List.countP_le_length).trans hinv.single, hinv.reports, ?_⟩
  rintro rfl
  obtain ⟨channels, hchannels, rfl⟩ := Option.map_eq_some_iff.mp ht
  obtain ⟨epoch, htimer, -⟩ := Option.map_eq_some_iff.mp hchannels
  exact h.armed (by rw [htimer]; rfl)

end Inv

/-- **The loop is single-flight while it is armed from outside only when idle.** In every run from
a fresh client whose steps all arm so, every step keeps one `pollChanges` in flight at most, diffs
each list once, and starts passes only for a client that is logged in and did not opt out. -/
theorem pollLoop_singleFlight (autoRealtime : Bool) (pollMs : ℕ) {labels : List PollLabel}
    (h : StepsMeet step ArmsIdle (start autoRealtime pollMs) labels) :
    StepsMeet step SingleFlight (start autoRealtime pollMs) labels := by
  apply h.strengthen (J := Inv) (Inv.start autoRealtime pollMs)
  · exact fun s l hs hidle => hs.singleFlight hidle
  · exact fun s l t hs hidle ht => hs.step hidle ht

/-- A login, brought up to the point where its poll timer is armed. -/
def armedRun : List PollLabel :=
  [.channel .login, .channel (.launch 0 []), .channel (.pushConnects 0),
    .channel (.wiredSettles 0 {} false), .channel (.finish 0)]

/-- A pass, a shorter interval between two passes, a second pass, and a disconnect. -/
theorem pollLoop_singleFlight_sample :
    StepsMeet step SingleFlight (start true 30000)
      (armedRun ++ [.channel .pollFires, .settles 0 true, .channel (.pollEnds 0),
        .channel (.setPollInterval 1000), .channel .pollFires, .channel .disconnect,
        .settles 0 true, .channel (.pollEnds 0)]) := by
  apply pollLoop_singleFlight true 30000
  decide

/-- An interval set while a pass is running, and a timer that fires before that pass is done. -/
def overlappingRun : List PollLabel :=
  armedRun ++ [.channel .pollFires, .channel (.setPollInterval 1000), .channel .pollFires,
    .settles 0 true, .settles 1 true]

/-- Both passes diff against the same list, and report what moved since then twice; and a client
that opted out polls, without a login. -/
theorem overlappingRun_reports_twice :
    ((exec step (start true 30000) overlappingRun).map (·.reports) = some [(0, 1), (0, 2)] ∧
      ¬StepsMeet step SingleFlight (start true 30000) overlappingRun) ∧
    ¬StepsMeet step SingleFlight (start false 30000)
      [.channel (.setPollInterval 1000), .channel .pollFires] := by
  refine ⟨⟨by decide, fun hmeet => ?_⟩, fun hmeet => ?_⟩
  · have hlast : overlappingRun = (armedRun ++ [.channel .pollFires,
        .channel (.setPollInterval 1000), .channel .pollFires, .settles 0 true]) ++
          .settles 1 true :: [] := rfl
    rw [hlast] at hmeet
    obtain ⟨-, hreports, -⟩ := hmeet.meets rfl _ rfl
    exact absurd hreports (by decide)
  · have hstarts := (hmeet.2 _ rfl).1 _ rfl
    exact absurd (hstarts.2.2 rfl).1 (by decide)

end PollLoop
end EufySdk.Realtime
