import Mathlib.Tactic

/-!
# The realtime channels

The bring-up and teardown of `client/eufy-mega.ts`: generations of logins, the secure-MQTT
transports installed per credential scope, the push client, the poll timer, and the teardown
that closes them. Each await of the source ends a step, so logins, disconnects and bring-ups
interleave. P2P sessions are not among the channels here; a teardown awaits their close.

- `Attempt` — one `ensureMqttStarted` bring-up and the transport it connects
- `Generation` — one login's `startRealtimeGeneration`
- `Teardown` — one disconnect's `teardownRealtime`
- `Channels.step` — one step of any of them
- `Channels.Transition` — the same as a relation, with what each branch was guarded by
-/

namespace EufySdk.Realtime

inductive MqttScope
  | default
  | eufyLife
  deriving DecidableEq, Repr

inductive AttemptStage
  /-- Awaiting `startMqtt`. -/
  | starting
  /-- Superseded: awaiting the disconnect of its own transport. -/
  | closing
  | subscribing
  | resolved
  | rejected
  deriving DecidableEq, Repr

/-- A bring-up of `ensureMqttStarted`. Its transport goes by the attempt's index. -/
structure Attempt where
  scope : MqttScope
  epoch : ℕ
  stage : AttemptStage := .starting
  connected : Bool := false
  deriving DecidableEq, Repr

/-- `MutableRealtimePlaneReadiness`. -/
structure Plane where
  required : ℕ := 0
  ready : ℕ := 0
  failed : ℕ := 0
  pending : ℕ := required
  deriving DecidableEq, Repr

namespace Plane

def countReady (p : Plane) : Plane := { p with ready := p.ready + 1, pending := p.pending - 1 }

def countFailed (p : Plane) : Plane := { p with failed := p.failed + 1, pending := p.pending - 1 }

end Plane

inductive ReadinessState
  | ready
  /-- The source's partial readiness. -/
  | incomplete
  | superseded
  deriving DecidableEq, Repr

structure Readiness where
  push : Plane := { required := 1 }
  mqtt : Plane := {}
  wiredP2p : Plane := {}
  deriving DecidableEq, Repr

inductive PushStart
  | pending
  | connected
  | failed
  | superseded
  deriving DecidableEq, Repr

inductive GenerationStage
  /-- Awaiting the device list. -/
  | listing
  /-- Awaiting its channels. -/
  | starting
  | done
  deriving DecidableEq, Repr

/-- A `RealtimeGeneration` and the progress of its bring-up. Its push client goes by the
generation's index. -/
structure Generation where
  epoch : ℕ
  readiness : Readiness := {}
  aborted : Bool := false
  result : Option (ReadinessState × Readiness) := none
  stage : GenerationStage := .listing
  pushStart : PushStart := .pending
  /-- The push client is connected. -/
  pushOpen : Bool := false
  /-- Attempts whose outcome it awaits. -/
  awaiting : List ℕ := []
  /-- Attempts it has counted as ready. -/
  counted : List ℕ := []
  wiredSettled : Bool := false
  startupFailed : Bool := false
  deriving DecidableEq, Repr

inductive TeardownStage
  /-- Awaiting the transports it found installed. -/
  | mqtt
  /-- Awaiting the P2P sessions. -/
  | p2p
  | done
  | failed
  deriving DecidableEq, Repr

/-- A `teardownRealtime`, with the epoch its disconnect began. -/
structure Teardown where
  epoch : ℕ
  closing : List ℕ
  stage : TeardownStage := .mqtt
  deriving DecidableEq, Repr

/-- It has not passed the close of the push client. -/
def Teardown.running (d : Teardown) : Bool := d.stage = .mqtt || d.stage = .p2p

structure Channels where
  realtimeEpoch : ℕ := 0
  attempts : List Attempt := []
  /-- Every generation there has been; the last is the current one. -/
  generations : List Generation := []
  teardowns : List Teardown := []
  mqttReady : MqttScope → Option ℕ := fun _ => none
  transports : MqttScope → Option ℕ := fun _ => none
  pushClient : Option ℕ := none
  pollMs : ℕ
  /-- The epoch whose poll is armed. -/
  pollTimer : Option ℕ := none
  /-- The epochs whose poll passes are running. -/
  polls : List ℕ := []

inductive Label
  | login
  | launch (k : ℕ) (scopes : List MqttScope)
  | listingFails (k : ℕ)
  /-- A call outside a bring-up: a publish, or a wait for a device's first report. -/
  | ensureMqttStarted (scope : MqttScope)
  | mqttConnects (i : ℕ)
  | mqttFails (i : ℕ)
  | mqttCloses (i : ℕ)
  | mqttCloseFails (i : ℕ)
  | mqttSubscribed (i : ℕ)
  | mqttSettles (k i : ℕ)
  | pushConnects (k : ℕ)
  | pushFails (k : ℕ)
  | pushSuperseded (k : ℕ)
  | wiredSettles (k : ℕ) (plane : Plane) (failed : Bool)
  | finish (k : ℕ)
  | disconnect
  | transportCloses (d i : ℕ)
  | clears (d : ℕ)
  | closesPush (d : ℕ)
  | teardownFails (d : ℕ)
  | pollFires
  | pollEnds (p : ℕ)
  | setPollInterval (ms : ℕ)
  deriving DecidableEq, Repr

namespace Generation

/-- `settleRealtimeGeneration`: the first settlement stands. -/
def settle (g : Generation) (state : ReadinessState) : Generation :=
  if g.result.isSome then g else { g with result := some (state, g.readiness) }

section Settle

variable (g : Generation) (state : ReadinessState)

@[simp]
theorem settle_epoch : (g.settle state).epoch = g.epoch := by
  rw [settle]
  split <;> rfl

@[simp]
theorem settle_stage : (g.settle state).stage = g.stage := by
  rw [settle]
  split <;> rfl

@[simp]
theorem settle_pushStart : (g.settle state).pushStart = g.pushStart := by
  rw [settle]
  split <;> rfl

@[simp]
theorem settle_pushOpen : (g.settle state).pushOpen = g.pushOpen := by
  rw [settle]
  split <;> rfl

@[simp]
theorem settle_awaiting : (g.settle state).awaiting = g.awaiting := by
  rw [settle]
  split <;> rfl

@[simp]
theorem settle_counted : (g.settle state).counted = g.counted := by
  rw [settle]
  split <;> rfl

end Settle

/-- An outcome of an awaited attempt. -/
def count (g : Generation) (i : ℕ) (ready : Bool) : Generation :=
  { g with
    awaiting := g.awaiting.erase i
    counted := if ready then g.counted ++ [i] else g.counted
    readiness.mqtt :=
      if ready then g.readiness.mqtt.countReady else g.readiness.mqtt.countFailed }

/-- Every channel's start has settled. -/
def started (g : Generation) : Bool :=
  g.stage = .starting && g.pushStart ≠ .pending && g.awaiting.isEmpty && g.wiredSettled

/-- The outcome of a bring-up that is still current. -/
def outcome (g : Generation) : ReadinessState :=
  if g.startupFailed || 0 < g.readiness.push.failed + g.readiness.mqtt.failed +
      g.readiness.wiredP2p.failed
  then .incomplete else .ready

end Generation

namespace Channels

def modifyAttempt (c : Channels) (i : ℕ) (f : Attempt → Attempt) : Channels :=
  { c with attempts := c.attempts.modify i f }

def modifyGeneration (c : Channels) (k : ℕ) (f : Generation → Generation) : Channels :=
  { c with generations := c.generations.modify k f }

def modifyTeardown (c : Channels) (d : ℕ) (f : Teardown → Teardown) : Channels :=
  { c with teardowns := c.teardowns.modify d f }

/-- `ensureMqttStarted`: the memo of the scope, or a new attempt under the current epoch. -/
def ensure (c : Channels) (scope : MqttScope) : Channels × ℕ :=
  match c.mqttReady scope with
  | some i => (c, i)
  | none =>
    ({ c with
        attempts := c.attempts ++ [⟨scope, c.realtimeEpoch, .starting, false⟩]
        mqttReady := Function.update c.mqttReady scope (some c.attempts.length) },
      c.attempts.length)

def ensureAll (c : Channels) : List MqttScope → Channels × List ℕ
  | [] => (c, [])
  | scope :: rest =>
    let r := c.ensure scope
    let s := r.1.ensureAll rest
    (s.1, r.2 :: s.2)

/-- A rejected attempt clears its memo, if it is still its own. -/
def reject (c : Channels) (i : ℕ) (a : Attempt) : Channels :=
  { c.modifyAttempt i fun a => { a with stage := .rejected } with
    mqttReady :=
      if c.mqttReady a.scope = some i then Function.update c.mqttReady a.scope none
      else c.mqttReady }

def schedulePoll (c : Channels) (epoch : ℕ) : Channels :=
  if c.pollMs = 0 || epoch ≠ c.realtimeEpoch then c else { c with pollTimer := some epoch }

/-- The transports in the map. -/
def installed (c : Channels) : List ℕ :=
  [MqttScope.default, .eufyLife].filterMap c.transports

def createGeneration (c : Channels) : Channels :=
  { c with generations := c.generations ++ [{ epoch := c.realtimeEpoch }] }

/-- The synchronous start of the channels. -/
def launch (c : Channels) (k : ℕ) (scopes : List MqttScope) : Channels :=
  let r := c.ensureAll scopes.dedup
  r.1.modifyGeneration k fun g =>
    { g with
      stage := .starting
      readiness.mqtt := { required := scopes.dedup.length }
      awaiting := r.2 }

/-- The end of a bring-up: a superseded one closes its own push client, a current one installs
it and arms the poll. -/
def finish (c : Channels) (k : ℕ) (g : Generation) : Channels :=
  if g.epoch ≠ c.realtimeEpoch then
    c.modifyGeneration k fun g =>
      { g with stage := .done, pushOpen := false }.settle .superseded
  else
    { (c.modifyGeneration k fun g => { g with stage := .done }.settle g.outcome) with
      pushClient := if g.pushStart = PushStart.connected then some k else none }.schedulePoll c.realtimeEpoch

/-- `disconnect` up to its first await. -/
def disconnect (c : Channels) : Channels :=
  { c with
    realtimeEpoch := c.realtimeEpoch + 1
    generations :=
      c.generations.modify (c.generations.length - 1) fun g =>
        { g with aborted := true }.settle .superseded
    pollTimer := none
    teardowns := c.teardowns ++ [⟨c.realtimeEpoch + 1, c.installed, .mqtt⟩] }

def closePush (c : Channels) : Channels :=
  match c.pushClient with
  | none => c
  | some k => { c.modifyGeneration k fun g => { g with pushOpen := false } with pushClient := none }

def step (c : Channels) : Label → Option Channels
  | .login =>
    match c.generations.getLast? with
    | some g => if g.epoch = c.realtimeEpoch then some c else some c.createGeneration
    | none => some c.createGeneration
  | .launch k scopes =>
    match c.generations[k]? with
    | some g =>
      if g.stage ≠ .listing then none
      else if g.epoch ≠ c.realtimeEpoch then
        some (c.modifyGeneration k fun g => { g with stage := .done }.settle .superseded)
      else some (c.launch k scopes)
    | none => none
  | .listingFails k =>
    match c.generations[k]? with
    | some g =>
      if g.stage ≠ .listing then none
      else some (c.modifyGeneration k fun g =>
        { g with
          stage := .done
          readiness.push :=
            { g.readiness.push with
              failed := g.readiness.push.failed + g.readiness.push.pending
              pending := 0 } }.settle
          (if g.epoch = c.realtimeEpoch then .incomplete else .superseded))
    | none => none
  | .ensureMqttStarted scope => some (c.ensure scope).1
  | .mqttConnects i =>
    match c.attempts[i]? with
    | some a =>
      if a.stage ≠ .starting then none
      else if a.epoch ≠ c.realtimeEpoch then
        some (c.modifyAttempt i fun a => { a with connected := true, stage := .closing })
      else some
        { c.modifyAttempt i fun a => { a with connected := true, stage := .subscribing } with
          transports := Function.update c.transports a.scope (some i) }
    | none => none
  | .mqttFails i =>
    match c.attempts[i]? with
    | some a => if a.stage = .starting then some (c.reject i a) else none
    | none => none
  | .mqttCloses i =>
    match c.attempts[i]? with
    | some a =>
      if a.stage = .closing then
        some (c.modifyAttempt i fun a => { a with connected := false, stage := .resolved })
      else none
    | none => none
  | .mqttCloseFails i =>
    match c.attempts[i]? with
    | some a => if a.stage = .closing then some (c.reject i a) else none
    | none => none
  | .mqttSubscribed i =>
    match c.attempts[i]? with
    | some a =>
      if a.stage = .subscribing then
        some (c.modifyAttempt i fun a => { a with stage := .resolved })
      else none
    | none => none
  | .mqttSettles k i =>
    match c.generations[k]?, c.attempts[i]? with
    | some g, some a =>
      if i ∉ g.awaiting then none
      else if a.stage = .resolved then some (c.modifyGeneration k fun g => g.count i true)
      else if a.stage = .rejected then some (c.modifyGeneration k fun g => g.count i false)
      else none
    | _, _ => none
  | .pushConnects k =>
    match c.generations[k]? with
    | some g =>
      if g.stage = .starting && g.pushStart = .pending && !g.aborted then
        some (c.modifyGeneration k fun g =>
          { g with
            pushStart := .connected, pushOpen := true
            readiness.push := g.readiness.push.countReady })
      else none
    | none => none
  | .pushFails k =>
    match c.generations[k]? with
    | some g =>
      if g.stage = .starting && g.pushStart = .pending then
        some (c.modifyGeneration k fun g =>
          { g with pushStart := .failed, readiness.push := g.readiness.push.countFailed })
      else none
    | none => none
  | .pushSuperseded k =>
    match c.generations[k]? with
    | some g =>
      if g.stage = .starting && g.pushStart = .pending && g.aborted then
        some (c.modifyGeneration k fun g => { g with pushStart := .superseded })
      else none
    | none => none
  | .wiredSettles k plane failed =>
    match c.generations[k]? with
    | some g =>
      if g.stage = .starting && !g.wiredSettled then
        some (c.modifyGeneration k fun g =>
          { g with wiredSettled := true, readiness.wiredP2p := plane, startupFailed := failed })
      else none
    | none => none
  | .finish k =>
    match c.generations[k]? with
    | some g => if g.started then some (c.finish k g) else none
    | none => none
  | .disconnect => some c.disconnect
  | .transportCloses d i =>
    match c.teardowns[d]? with
    | some t =>
      if i ∈ t.closing then
        some ((c.modifyTeardown d fun t => { t with closing := t.closing.erase i }).modifyAttempt i
          fun a => { a with connected := false })
      else none
    | none => none
  | .clears d =>
    match c.teardowns[d]? with
    | some t =>
      if t.stage = .mqtt && t.closing.isEmpty then
        some { c.modifyTeardown d fun t => { t with stage := .p2p } with
          transports := fun _ => none
          mqttReady := fun _ => none }
      else none
    | none => none
  | .closesPush d =>
    match c.teardowns[d]? with
    | some t =>
      if t.stage = .p2p then some (c.closePush.modifyTeardown d fun t => { t with stage := .done })
      else none
    | none => none
  -- a transport or a session fails to close: the rest of the teardown does not run
  | .teardownFails d =>
    match c.teardowns[d]? with
    | some t =>
      if t.running then some (c.modifyTeardown d fun t => { t with stage := .failed }) else none
    | none => none
  | .pollFires => c.pollTimer.map fun epoch => { c with pollTimer := none, polls := c.polls ++ [epoch] }
  | .pollEnds p =>
    match c.polls[p]? with
    | some epoch => some ({ c with polls := c.polls.eraseIdx p }.schedulePoll epoch)
    | none => none
  | .setPollInterval ms =>
    some ({ c with pollMs := ms, pollTimer := none }.schedulePoll c.realtimeEpoch)

/-- What a step can do: one case for each branch of `step` that answers. -/
inductive Transition (c : Channels) : Label → Channels → Prop
  | rejoins {g : Generation} (hg : c.generations.getLast? = some g)
      (hepoch : g.epoch = c.realtimeEpoch) : Transition c .login c
  | login (hlast : ∀ g, c.generations.getLast? = some g → g.epoch ≠ c.realtimeEpoch) :
      Transition c .login c.createGeneration
  | superseded {k : ℕ} {scopes : List MqttScope} {g : Generation} (hg : c.generations[k]? = some g)
      (hstage : g.stage = .listing) (hepoch : g.epoch ≠ c.realtimeEpoch) :
      Transition c (.launch k scopes)
        (c.modifyGeneration k fun g => { g with stage := .done }.settle .superseded)
  | launch {k : ℕ} {scopes : List MqttScope} {g : Generation} (hg : c.generations[k]? = some g)
      (hstage : g.stage = .listing) (hepoch : g.epoch = c.realtimeEpoch) :
      Transition c (.launch k scopes) (c.launch k scopes)
  | listingFails {k : ℕ} {g : Generation} (hg : c.generations[k]? = some g)
      (hstage : g.stage = .listing) :
      Transition c (.listingFails k) (c.modifyGeneration k fun g =>
        { g with
          stage := .done
          readiness.push :=
            { g.readiness.push with
              failed := g.readiness.push.failed + g.readiness.push.pending
              pending := 0 } }.settle
          (if g.epoch = c.realtimeEpoch then .incomplete else .superseded))
  | ensureMqttStarted {scope : MqttScope} :
      Transition c (.ensureMqttStarted scope) (c.ensure scope).1
  | mqttConnectsLate {i : ℕ} {a : Attempt} (ha : c.attempts[i]? = some a)
      (hstage : a.stage = .starting) (hepoch : a.epoch ≠ c.realtimeEpoch) :
      Transition c (.mqttConnects i)
        (c.modifyAttempt i fun a => { a with connected := true, stage := .closing })
  | mqttConnects {i : ℕ} {a : Attempt} (ha : c.attempts[i]? = some a)
      (hstage : a.stage = .starting) (hepoch : a.epoch = c.realtimeEpoch) :
      Transition c (.mqttConnects i)
        { c.modifyAttempt i fun a => { a with connected := true, stage := .subscribing } with
          transports := Function.update c.transports a.scope (some i) }
  | mqttFails {i : ℕ} {a : Attempt} (ha : c.attempts[i]? = some a)
      (hstage : a.stage = .starting) : Transition c (.mqttFails i) (c.reject i a)
  | mqttCloses {i : ℕ} {a : Attempt} (ha : c.attempts[i]? = some a)
      (hstage : a.stage = .closing) :
      Transition c (.mqttCloses i)
        (c.modifyAttempt i fun a => { a with connected := false, stage := .resolved })
  | mqttCloseFails {i : ℕ} {a : Attempt} (ha : c.attempts[i]? = some a)
      (hstage : a.stage = .closing) : Transition c (.mqttCloseFails i) (c.reject i a)
  | mqttSubscribed {i : ℕ} {a : Attempt} (ha : c.attempts[i]? = some a)
      (hstage : a.stage = .subscribing) :
      Transition c (.mqttSubscribed i) (c.modifyAttempt i fun a => { a with stage := .resolved })
  | mqttSettles {k i : ℕ} {g : Generation} {a : Attempt} {ready : Bool}
      (hg : c.generations[k]? = some g) (ha : c.attempts[i]? = some a) (hi : i ∈ g.awaiting)
      (hstage : a.stage = if ready then .resolved else .rejected) :
      Transition c (.mqttSettles k i) (c.modifyGeneration k fun g => g.count i ready)
  | pushConnects {k : ℕ} {g : Generation} (hg : c.generations[k]? = some g)
      (hstage : g.stage = .starting) (hpending : g.pushStart = .pending)
      (haborted : g.aborted = false) :
      Transition c (.pushConnects k) (c.modifyGeneration k fun g =>
        { g with
          pushStart := .connected, pushOpen := true
          readiness.push := g.readiness.push.countReady })
  | pushFails {k : ℕ} {g : Generation} (hg : c.generations[k]? = some g)
      (hstage : g.stage = .starting) (hpending : g.pushStart = .pending) :
      Transition c (.pushFails k) (c.modifyGeneration k fun g =>
        { g with pushStart := .failed, readiness.push := g.readiness.push.countFailed })
  | pushSuperseded {k : ℕ} {g : Generation} (hg : c.generations[k]? = some g)
      (hstage : g.stage = .starting) (hpending : g.pushStart = .pending)
      (haborted : g.aborted = true) :
      Transition c (.pushSuperseded k)
        (c.modifyGeneration k fun g => { g with pushStart := .superseded })
  | wiredSettles {k : ℕ} {plane : Plane} {failed : Bool} {g : Generation}
      (hg : c.generations[k]? = some g) (hstage : g.stage = .starting)
      (hwired : g.wiredSettled = false) :
      Transition c (.wiredSettles k plane failed) (c.modifyGeneration k fun g =>
        { g with wiredSettled := true, readiness.wiredP2p := plane, startupFailed := failed })
  | finish {k : ℕ} {g : Generation} (hg : c.generations[k]? = some g)
      (hstarted : g.started = true) : Transition c (.finish k) (c.finish k g)
  | disconnect : Transition c .disconnect c.disconnect
  | transportCloses {d i : ℕ} {t : Teardown} (ht : c.teardowns[d]? = some t) (hi : i ∈ t.closing) :
      Transition c (.transportCloses d i)
        ((c.modifyTeardown d fun t => { t with closing := t.closing.erase i }).modifyAttempt i
          fun a => { a with connected := false })
  | clears {d : ℕ} {t : Teardown} (ht : c.teardowns[d]? = some t) (hstage : t.stage = .mqtt)
      (hclosed : t.closing = []) :
      Transition c (.clears d)
        { c.modifyTeardown d fun t => { t with stage := .p2p } with
          transports := fun _ => none
          mqttReady := fun _ => none }
  | closesPush {d : ℕ} {t : Teardown} (ht : c.teardowns[d]? = some t) (hstage : t.stage = .p2p) :
      Transition c (.closesPush d)
        (c.closePush.modifyTeardown d fun t => { t with stage := .done })
  | teardownFails {d : ℕ} {t : Teardown} (ht : c.teardowns[d]? = some t)
      (hrunning : t.running = true) :
      Transition c (.teardownFails d) (c.modifyTeardown d fun t => { t with stage := .failed })
  | pollFires {epoch : ℕ} (htimer : c.pollTimer = some epoch) :
      Transition c .pollFires { c with pollTimer := none, polls := c.polls ++ [epoch] }
  | pollEnds {p epoch : ℕ} (hepoch : c.polls[p]? = some epoch) :
      Transition c (.pollEnds p)
        (Channels.schedulePoll { c with polls := c.polls.eraseIdx p } epoch)
  | setPollInterval {ms : ℕ} :
      Transition c (.setPollInterval ms)
        (Channels.schedulePoll { c with pollMs := ms, pollTimer := none } c.realtimeEpoch)

theorem transition_of_step {c d : Channels} {l : Label} (hstep : c.step l = some d) :
    c.Transition l d := by
  cases l with
  | ensureMqttStarted | disconnect | setPollInterval =>
    obtain rfl := Option.some.inj hstep
    constructor
  | mqttFails | mqttCloses | mqttCloseFails | mqttSubscribed | finish | transportCloses | closesPush
  | teardownFails =>
    rw [step] at hstep
    split at hstep
    · split_ifs at hstep
      obtain rfl := Option.some.inj hstep
      constructor <;> assumption
    · cases hstep
  | login =>
    rw [step] at hstep
    split at hstep
    · next g hg =>
      split_ifs at hstep with hepoch
      · obtain rfl := Option.some.inj hstep
        exact .rejoins hg hepoch
      · obtain rfl := Option.some.inj hstep
        refine .login fun g' hg' => ?_
        obtain rfl := Option.some.inj (hg.symm.trans hg')
        exact hepoch
    · next hnone =>
      obtain rfl := Option.some.inj hstep
      refine .login fun g hg => ?_
      cases hnone.symm.trans hg
  | launch k scopes =>
    rw [step] at hstep
    split at hstep
    · next g hg =>
      split_ifs at hstep with hstage hepoch
      · obtain rfl := Option.some.inj hstep
        exact .superseded hg (not_not.mp hstage) hepoch
      · obtain rfl := Option.some.inj hstep
        exact .launch hg (not_not.mp hstage) (not_not.mp hepoch)
    · cases hstep
  | listingFails k =>
    rw [step] at hstep
    split at hstep
    · next g hg =>
      split_ifs at hstep with hstage
      obtain rfl := Option.some.inj hstep
      exact .listingFails hg (not_not.mp hstage)
    · cases hstep
  | mqttConnects i =>
    rw [step] at hstep
    split at hstep
    · next a ha =>
      split_ifs at hstep with hstage hepoch
      · obtain rfl := Option.some.inj hstep
        exact .mqttConnectsLate ha (not_not.mp hstage) hepoch
      · obtain rfl := Option.some.inj hstep
        exact .mqttConnects ha (not_not.mp hstage) (not_not.mp hepoch)
    · cases hstep
  | mqttSettles k i =>
    rw [step] at hstep
    split at hstep
    · next g a hg ha =>
      split_ifs at hstep with hi hresolved hrejected
      · obtain rfl := Option.some.inj hstep
        exact .mqttSettles hg ha hi hresolved
      · obtain rfl := Option.some.inj hstep
        exact .mqttSettles hg ha hi hrejected
    · cases hstep
  | pushConnects k =>
    rw [step] at hstep
    split at hstep
    · next g hg =>
      split_ifs at hstep with hstart
      obtain rfl := Option.some.inj hstep
      simp only [Bool.and_eq_true, decide_eq_true_eq, Bool.not_eq_true'] at hstart
      exact .pushConnects hg hstart.1.1 hstart.1.2 hstart.2
    · cases hstep
  | pushFails k =>
    rw [step] at hstep
    split at hstep
    · next g hg =>
      split_ifs at hstep with hstart
      obtain rfl := Option.some.inj hstep
      simp only [Bool.and_eq_true, decide_eq_true_eq] at hstart
      exact .pushFails hg hstart.1 hstart.2
    · cases hstep
  | pushSuperseded k =>
    rw [step] at hstep
    split at hstep
    · next g hg =>
      split_ifs at hstep with hstart
      obtain rfl := Option.some.inj hstep
      simp only [Bool.and_eq_true, decide_eq_true_eq] at hstart
      exact .pushSuperseded hg hstart.1.1 hstart.1.2 hstart.2
    · cases hstep
  | wiredSettles k plane failed =>
    rw [step] at hstep
    split at hstep
    · next g hg =>
      split_ifs at hstep with hstart
      obtain rfl := Option.some.inj hstep
      simp only [Bool.and_eq_true, decide_eq_true_eq, Bool.not_eq_true'] at hstart
      exact .wiredSettles hg hstart.1 hstart.2
    · cases hstep
  | clears d =>
    rw [step] at hstep
    split at hstep
    · next t ht =>
      split_ifs at hstep with hready
      obtain rfl := Option.some.inj hstep
      simp only [Bool.and_eq_true, decide_eq_true_eq, List.isEmpty_iff] at hready
      exact .clears ht hready.1 hready.2
    · cases hstep
  | pollFires =>
    obtain ⟨epoch, htimer, rfl⟩ := Option.map_eq_some_iff.mp hstep
    exact .pollFires htimer
  | pollEnds p =>
    rw [step] at hstep
    split at hstep
    · next epoch hepoch =>
      obtain rfl := Option.some.inj hstep
      exact .pollEnds hepoch
    · cases hstep

/-- The disconnect a step belongs to, by the epoch it began. -/
def teardownOf (c : Channels) : Label → Option ℕ
  | .disconnect => some (c.realtimeEpoch + 1)
  | .transportCloses d _ | .clears d | .closesPush d | .teardownFails d =>
    c.teardowns[d]?.map Teardown.epoch
  | _ => none

end Channels
end EufySdk.Realtime
