import Mathlib.Tactic
import EufySdk.Lib.Machine
import EufySdk.Transport.P2p.LiveSource
import EufySdk.Transport.P2p.SessionManager

/-!
# The command router over one station

`transport/p2p/command-router.ts` as a step function: the station's entry in the session
manager, its sessions, its live sources, and the calls that are suspended. A step is what
runs between two awaits, or an event of the outside: a timer, a session, a stream, a
consumer. Host listeners return without calling back, except that one may detach its own
consumer when its stream ends: that is a `detach` right before the `teardown`.

- `Station` — the state
- `Label`, `step` — what can happen
- `Transition` — the same as a relation, with what each branch was guarded by
- `Station.handOver` — the part of `sharedLiveSourceFor` behind `resolveSession`
-/

namespace EufySdk.P2PCommandRouter

open SharedLiveSource

/-- A `P2PSession`. `silent` is `pathAnswering === false`. -/
structure Session where
  connected : Bool := false
  closed : Bool := false
  silent : Bool := false
  deriving DecidableEq, Repr

/-- A device of the station; `standalone` when its serial is the station's. -/
structure Device where
  channel : ℕ
  homeBaseAttached : Bool
  standalone : Bool
  deriving DecidableEq, Repr

/-- A live source of the router. -/
structure LiveSource where
  device : Device
  /-- The session in its `HeldSession` cell. -/
  held : ℕ
  /-- Whether it is in `liveSources`. -/
  cached : Bool
  source : Source
  deriving DecidableEq, Repr

/-- A source is disposed, unless it is already, and forgotten. -/
def LiveSource.drop (s : LiveSource) : LiveSource :=
  { s with cached := false, source := if s.source.disposed then s.source else s.source.dispose }

/-- What a suspended call is for. -/
inductive Purpose
  /-- `sharedLiveSourceFor` for a device. -/
  | live (device : Device)
  /-- A command: `resolveSession` alone. -/
  | command
  /-- `prewarm` and `ensureStation`: `openStation` alone. -/
  | open
  /-- `replaceUnreachableSession` of a source. -/
  | replace (source : ℕ)
  /-- The `finally` of `onLiveStartFailed`. -/
  | drop (channel : ℕ)
  deriving DecidableEq, Repr

/-- Where a call is suspended. -/
inductive Stage
  /-- In `acquire` of an entry, as the caller that opens or as one that joins. -/
  | opening (entry : ℕ) (opener : Bool)
  | opened
  /-- In `close` of the session manager. -/
  | closing
  /-- In `resolveSession` for its session to connect. -/
  | waiting (session : ℕ)
  /-- `resolveSession` has returned. -/
  | resolved (session : ℕ)
  | done
  deriving DecidableEq, Repr

structure Task where
  purpose : Purpose
  rebuilt : Bool := false
  stage : Stage
  deriving DecidableEq, Repr

structure Station where
  battery : Bool := true
  manager : SessionManager := {}
  sessions : List Session := []
  sources : List LiveSource := []
  tasks : List Task := []
  /-- The sessions closed by a caller's `SessionManager.close`. -/
  abandoned : List ℕ := []
  deriving DecidableEq, Repr

namespace Station

def modifySession (w : Station) (i : ℕ) (f : Session → Session) : Station :=
  { w with sessions := w.sessions.modify i f }

def modifySource (w : Station) (i : ℕ) (f : Source → Source) : Station :=
  { w with sources := w.sources.modify i fun s => { s with source := f s.source } }

def setStage (w : Station) (t : ℕ) (stage : Stage) : Station :=
  { w with tasks := w.tasks.modify t fun task => { task with stage := stage } }

/-- The call resolves again, and not a third time. -/
def rebuild (w : Station) (t : ℕ) : Station :=
  { w with
    tasks := w.tasks.modify t fun task => { task with rebuilt := true, stage := .closing } }

def spawn (w : Station) (purpose : Purpose) (stage : Stage) : Station :=
  { w with tasks := w.tasks ++ [{ purpose := purpose, stage := stage }] }

/-- `P2PSession.close` up to its await. -/
def closeSession (w : Station) (i : ℕ) : Station :=
  w.modifySession i fun s => { s with closed := true, connected := false }

def closeSession? (w : Station) : Option ℕ → Station
  | some i => w.closeSession i
  | none => w

def closed (w : Station) (i : ℕ) : Bool := (w.sessions[i]?).any Session.closed

/-! ## Closing -/

/-- `tearDownStation`: the entry goes, and every cached source is disposed and forgotten. The
releases of the disposed sources find no entry. -/
def tearDownStation (w : Station) : Station :=
  { w with
    manager := w.manager.discard
    sources := w.sources.map fun s => if s.cached then s.drop else s }

def autoClose (w : Station) : Station :=
  match w.manager.get with
  | some i => w.tearDownStation.closeSession i
  | none => { w with manager := w.manager.discard }

/-- A caller's `SessionManager.close`. -/
def close (w : Station) : Station :=
  { w with
    manager := w.manager.discard
    abandoned := w.abandoned ++ w.manager.get.toList }.closeSession? w.manager.get

/-- `release`, with the reset that falls due. -/
def release (w : Station) : Station :=
  let released := { w with manager := w.manager.release w.battery }
  if w.manager.resetFallsDue then released.autoClose else released

/-! ## Live sources -/

/-- `liveSources.get`. -/
def liveSource? (w : Station) (channel : ℕ) : Option ℕ :=
  w.sources.findIdx? fun s => s.cached && s.device.channel = channel

def disposeSource (w : Station) (i : ℕ) : Station :=
  let held := (w.sources[i]?).any fun s => s.source.active
  let disposed := { w with sources := w.sources.modify i LiveSource.drop }
  if held then disposed.release else disposed

def dropLiveSource (w : Station) (channel : ℕ) : Station :=
  match w.liveSource? channel with
  | some i => w.disposeSource i
  | none => w

/-- A stopped source is not reused, whatever is attached to it. -/
def dropStopped (w : Station) (channel : ℕ) : Station :=
  if ((w.liveSource? channel).bind (w.sources[·]?)).any fun s => s.source.state = .stopped then
    w.dropLiveSource channel
  else w

/-- Cached sources of other channels that nothing is attached to. They hold no retain. -/
def releaseLingeringSiblings (w : Station) (channel : ℕ) : Station :=
  { w with
    sources := w.sources.map fun s =>
      if s.cached && s.device.channel ≠ channel && s.source.consumers = 0 then s.drop else s }

/-- The channel of another cached source that is still delivering to a consumer. -/
def occupiedSiblingChannel (w : Station) (channel : ℕ) : Option ℕ :=
  (w.sources.find? fun s =>
    s.cached && s.device.channel ≠ channel && s.source.state ≠ .stopped &&
      s.source.consumers ≠ 0).map fun s => s.device.channel

/-- `onLiveStartFailed`. -/
def onLiveStartFailed (w : Station) (device : Device) : Station :=
  if device.standalone then w.close.spawn (.drop device.channel) .closing
  else w.dropLiveSource device.channel

/-- `teardown` of source `i`, with its report of a failed start. -/
def teardownSource (w : Station) (i : ℕ) : Station :=
  match w.sources[i]? with
  | some s =>
    let w := w.modifySource i Source.teardown
    if s.source.startFailed then w.onLiveStartFailed s.device else w
  | none => w

/-! ## Calls -/

/-- `deviceFor` up to its await: `acquire` of the station's entry, created if there is none. -/
def acquire (w : Station) (t : ℕ) : Station :=
  let w := { w with manager := w.manager.entry }
  match w.manager.entries, w.manager.present with
  | some k, some e =>
    if e.connecting then w.setStage t (.opening k false)
    else if e.session.isSome then w.setStage t .opened
    else
      { w with manager := w.manager.modify k fun e => { e with connecting := true } }.setStage t
        (.opening k true)
  | _, _ => w

/-- A call begins. -/
def begin (w : Station) (purpose : Purpose) : Station :=
  (w.spawn purpose .opened).acquire w.tasks.length

/-- The calls that wait for entry `k` go on: to `opened`, or they throw. -/
def settleOpening (w : Station) (k : ℕ) (openers joiners : Stage) : Station :=
  { w with
    tasks := w.tasks.map fun task =>
      if task.stage = .opening k true then { task with stage := openers }
      else if task.stage = .opening k false then { task with stage := joiners }
      else task }

/-- `resolveSession` behind `deviceFor`: a silent path is closed and resolved again, once. -/
def resume (w : Station) (t : ℕ) (task : Task) : Station :=
  if task.purpose = .open then w.setStage t .done
  else
    match w.manager.get with
    | none => w.setStage t .done
    | some i =>
      if (w.sessions[i]?).any Session.silent && !task.rebuilt then w.close.rebuild t
      else { w with manager := w.manager.hold }.setStage t (.waiting i)

/-- A call goes on behind its `SessionManager.close`. -/
def afterClose (w : Station) (t : ℕ) (task : Task) : Station :=
  match task.purpose with
  | .drop channel => (w.dropLiveSource channel).setStage t .done
  | _ => w.acquire t

/-- `sharedLiveSourceFor` behind `resolveSession`, and the source it returns; it throws when
another camera has the station. -/
def handOver (w : Station) (device : Device) (session : ℕ) : Station × Option ℕ :=
  let w := (w.dropStopped device.channel).releaseLingeringSiblings device.channel
  if device.homeBaseAttached && (w.occupiedSiblingChannel device.channel).isSome then (w, none)
  else
    match w.liveSource? device.channel with
    | some i => (w, some i)
    | none =>
      ({ w with sources := w.sources ++ [⟨device, session, true, {}⟩] }, some w.sources.length)

/-- `replaceUnreachableSession` behind `resolveSession`. The cell is the one of the source that
asked; what warms again is the source that is cached. -/
def replaced (w : Station) (source : ℕ) (session : ℕ) : Station :=
  match w.sources[source]? with
  | some s =>
    match w.liveSource? s.device.channel with
    | some i =>
      { w with
        sources := w.sources.modify source fun s => { s with held := session } }.modifySource i
          Source.rewarm
    | none => w
  | none => w

/-- A call whose session is resolved goes on. -/
def proceed (w : Station) (t : ℕ) (purpose : Purpose) (session : ℕ) : Station :=
  match purpose with
  | .live device => (w.handOver device session).1.setStage t .done
  | .replace source => (w.replaced source session).setStage t .done
  | _ => w.setStage t .done

def attach (w : Station) (i : ℕ) (s : Source) : Station :=
  let w := w.modifySource i Source.join
  let w := if s.consumers = 0 then { w with manager := w.manager.retain } else w
  w.modifySource i Source.joined

def detach (w : Station) (i : ℕ) (s : Source) : Station :=
  let w := w.modifySource i Source.leave
  if s.consumers = 1 && !s.disposed then w.release.modifySource i Source.arm else w

/-- `replaceUnreachableSession` up to its await. -/
def unacknowledged (w : Station) (i : ℕ) (s : LiveSource) : Station :=
  if s.source.wantsSession then
    let w := w.modifySource i Source.askSession
    if s.device.standalone then w.close.spawn (.replace i) .closing else w
  else w

end Station

/-! ## Steps -/

inductive Label
  /-- `sharedLiveSourceFor`. -/
  | live (device : Device)
  | command
  | prewarm
  | ensureStation
  /-- The factory of entry `k` has its DSK key and registers a session. -/
  | register (k : ℕ)
  /-- The session of entry `k` is bound. -/
  | bound (k : ℕ)
  | openFails (k : ℕ)
  | resume (t : ℕ)
  | ready (t : ℕ)
  | gaveUp (t : ℕ)
  | afterClose (t : ℕ)
  | proceed (t : ℕ)
  | attach (i : ℕ)
  | detach (i : ℕ)
  | video (i : ℕ) (keyframe : Bool)
  | audio (i : ℕ)
  /-- The linger elapses, or the stream ends, fails, times out or runs out of budget. -/
  | teardown (i : ℕ)
  | unacknowledged (i : ℕ)
  | holdExpires
  | idleElapses
  | resetWhenUnused
  | powered (battery : Bool)
  | connects (s : ℕ)
  | pathAnswers (s : ℕ) (answers : Bool)
  /-- A session closes on its own. -/
  | closes (s : ℕ)
  /-- A closed session's `close` event. -/
  | closeEvent (s : ℕ)
  deriving DecidableEq, Repr

open Station in
def step (w : Station) : Label → Option Station
  | .live device => some (w.begin (.live device))
  | .command => some (w.begin .command)
  | .prewarm => some ({ w with manager := w.manager.hold }.begin .open)
  | .ensureStation => some (w.begin .open)
  | .register k =>
    match w.manager.objects[k]? with
    | some e =>
      if e.connecting && e.session.isNone then
        some { w with
          sessions := w.sessions ++ [{}]
          manager := w.manager.modify k fun e => { e with session := some w.sessions.length } }
      else none
    | none => none
  | .bound k =>
    match w.manager.objects[k]? with
    | some ⟨some i, _, _, _, _, true⟩ =>
      let settled :=
        { w with manager := w.manager.modify k fun e => { e with connecting := false } }
      if w.manager.entries = some k then some (settled.settleOpening k .opened .opened)
      else some ((settled.closeSession i).settleOpening k .done .opened)
    | _ => none
  | .openFails k =>
    match w.manager.objects[k]? with
    | some e =>
      if e.connecting then
        some ({ w with
          manager := w.manager.modify k fun e => { e with connecting := false } }.settleOpening k
            .done .done)
      else none
    | none => none
  | .resume t =>
    match w.tasks[t]? with
    | some task => if task.stage = .opened then some (w.resume t task) else none
    | none => none
  | .ready t =>
    match w.tasks[t]? with
    | some ⟨_, _, .waiting i⟩ =>
      if (w.sessions[i]?).any Session.connected then some (w.setStage t (.resolved i)) else none
    | _ => none
  | .gaveUp t =>
    match w.tasks[t]? with
    | some ⟨_, _, .waiting _⟩ => some (w.setStage t .done)
    | _ => none
  | .afterClose t =>
    match w.tasks[t]? with
    | some task => if task.stage = .closing then some (w.afterClose t task) else none
    | none => none
  | .proceed t =>
    match w.tasks[t]? with
    | some ⟨purpose, _, .resolved i⟩ => some (w.proceed t purpose i)
    | _ => none
  | .attach i =>
    match w.sources[i]? with
    | some s => if s.source.disposed then none else some (w.attach i s.source)
    | none => none
  | .detach i =>
    match w.sources[i]? with
    | some s => if 0 < s.source.consumers then some (w.detach i s.source) else none
    | none => none
  | .video i keyframe =>
    match w.sources[i]? with
    | some s => if s.source.stream then some (w.modifySource i (Source.onVideo · keyframe)) else none
    | none => none
  | .audio i =>
    match w.sources[i]? with
    | some s => if s.source.stream then some (w.modifySource i Source.onAudio) else none
    | none => none
  | .teardown i =>
    match w.sources[i]? with
    | some s =>
      if s.source.lingerTimer || (!s.source.disposed && s.source.stream) then
        some (w.teardownSource i)
      else none
    | none => none
  | .unacknowledged i =>
    match w.sources[i]? with
    | some s => if s.source.stream then some (w.unacknowledged i s) else none
    | none => none
  | .holdExpires =>
    match w.manager.present with
    | some e =>
      if 0 < e.holdTimers then
        some { w with
          manager := w.manager.modifyPresent fun e =>
            { e with holdTimers := e.holdTimers - 1 } }.release
      else none
    | none => none
  | .idleElapses =>
    match w.manager.present with
    | some e =>
      if e.idle then
        let elapsed :=
          { w with manager := w.manager.modifyPresent fun e => { e with idle := false } }
        some (if 0 < e.retained then elapsed else elapsed.autoClose)
      else none
    | none => none
  | .resetWhenUnused =>
    match w.manager.present with
    | some e =>
      some (if e.retained ≤ e.holdTimers then w.autoClose
        else { w with manager := w.manager.modifyPresent fun e => { e with reset := true } })
    | none => some w
  | .powered battery => some { w with battery := battery }
  | .connects s =>
    if w.closed s then none else some (w.modifySession s fun s => { s with connected := true })
  | .pathAnswers s answers => some (w.modifySession s fun s => { s with silent := !answers })
  | .closes s => some (w.closeSession s)
  | .closeEvent s =>
    if w.closed s then some (if w.manager.get = some s then w.tearDownStation else w) else none

/-- What a step can do: one case for each branch of `step` that answers. -/
inductive Transition (w : Station) : Label → Station → Prop
  | live {device : Device} : Transition w (.live device) (w.begin (.live device))
  | command : Transition w .command (w.begin .command)
  | prewarm : Transition w .prewarm (Station.begin { w with manager := w.manager.hold } .open)
  | ensureStation : Transition w .ensureStation (w.begin .open)
  | register {k : ℕ} {e : SessionEntry} (he : w.manager.objects[k]? = some e)
      (hconnecting : e.connecting = true) (hsession : e.session = none) :
      Transition w (.register k) { w with
        sessions := w.sessions ++ [{}]
        manager := w.manager.modify k fun e => { e with session := some w.sessions.length } }
  | bound {k i : ℕ} {e : SessionEntry} (he : w.manager.objects[k]? = some e)
      (hsession : e.session = some i) (hconnecting : e.connecting = true)
      (hcached : w.manager.entries = some k) :
      Transition w (.bound k) (Station.settleOpening { w with
        manager := w.manager.modify k fun e => { e with connecting := false } } k .opened .opened)
  | boundLate {k i : ℕ} {e : SessionEntry} (he : w.manager.objects[k]? = some e)
      (hsession : e.session = some i) (hconnecting : e.connecting = true)
      (hcached : w.manager.entries ≠ some k) :
      Transition w (.bound k) ((Station.closeSession { w with
        manager := w.manager.modify k fun e => { e with connecting := false } } i).settleOpening k
          .done .opened)
  | openFails {k : ℕ} {e : SessionEntry} (he : w.manager.objects[k]? = some e)
      (hconnecting : e.connecting = true) :
      Transition w (.openFails k) (Station.settleOpening { w with
        manager := w.manager.modify k fun e => { e with connecting := false } } k .done .done)
  | resume {t : ℕ} {task : Task} (htask : w.tasks[t]? = some task) (hopened : task.stage = .opened) :
      Transition w (.resume t) (w.resume t task)
  | ready {t i : ℕ} {purpose : Purpose} {rebuilt : Bool}
      (htask : w.tasks[t]? = some ⟨purpose, rebuilt, .waiting i⟩)
      (hconnected : (w.sessions[i]?).any Session.connected = true) :
      Transition w (.ready t) (w.setStage t (.resolved i))
  | gaveUp {t i : ℕ} {purpose : Purpose} {rebuilt : Bool}
      (htask : w.tasks[t]? = some ⟨purpose, rebuilt, .waiting i⟩) :
      Transition w (.gaveUp t) (w.setStage t .done)
  | afterClose {t : ℕ} {task : Task} (htask : w.tasks[t]? = some task)
      (hclosing : task.stage = .closing) : Transition w (.afterClose t) (w.afterClose t task)
  | proceed {t i : ℕ} {purpose : Purpose} {rebuilt : Bool}
      (htask : w.tasks[t]? = some ⟨purpose, rebuilt, .resolved i⟩) :
      Transition w (.proceed t) (w.proceed t purpose i)
  | attach {i : ℕ} {s : LiveSource} (hs : w.sources[i]? = some s)
      (hopen : s.source.disposed = false) : Transition w (.attach i) (w.attach i s.source)
  | detach {i : ℕ} {s : LiveSource} (hs : w.sources[i]? = some s)
      (hpos : 0 < s.source.consumers) : Transition w (.detach i) (w.detach i s.source)
  | video {i : ℕ} {keyframe : Bool} {s : LiveSource} (hs : w.sources[i]? = some s)
      (hstream : s.source.stream = true) :
      Transition w (.video i keyframe) (w.modifySource i (Source.onVideo · keyframe))
  | audio {i : ℕ} {s : LiveSource} (hs : w.sources[i]? = some s) (hstream : s.source.stream = true) :
      Transition w (.audio i) (w.modifySource i Source.onAudio)
  | teardown {i : ℕ} {s : LiveSource} (hs : w.sources[i]? = some s)
      (hends : s.source.lingerTimer = true ∨ s.source.disposed = false ∧ s.source.stream = true) :
      Transition w (.teardown i) (w.teardownSource i)
  | unacknowledged {i : ℕ} {s : LiveSource} (hs : w.sources[i]? = some s)
      (hstream : s.source.stream = true) : Transition w (.unacknowledged i) (w.unacknowledged i s)
  | holdExpires {e : SessionEntry} (he : w.manager.present = some e) (hholds : 0 < e.holdTimers) :
      Transition w .holdExpires (Station.release { w with
        manager := w.manager.modifyPresent fun e => { e with holdTimers := e.holdTimers - 1 } })
  | idleRetained {e : SessionEntry} (he : w.manager.present = some e) (hidle : e.idle = true)
      (hretained : 0 < e.retained) :
      Transition w .idleElapses
        { w with manager := w.manager.modifyPresent fun e => { e with idle := false } }
  | idleCloses {e : SessionEntry} (he : w.manager.present = some e) (hidle : e.idle = true)
      (hretained : e.retained = 0) :
      Transition w .idleElapses (Station.autoClose
        { w with manager := w.manager.modifyPresent fun e => { e with idle := false } })
  | resetNow {e : SessionEntry} (he : w.manager.present = some e)
      (hunused : e.retained ≤ e.holdTimers) : Transition w .resetWhenUnused w.autoClose
  | resetLater {e : SessionEntry} (he : w.manager.present = some e)
      (hused : e.holdTimers < e.retained) :
      Transition w .resetWhenUnused
        { w with manager := w.manager.modifyPresent fun e => { e with reset := true } }
  | resetNothing (habsent : w.manager.present = none) : Transition w .resetWhenUnused w
  | powered {battery : Bool} : Transition w (.powered battery) { w with battery := battery }
  | connects {s : ℕ} (hopen : w.closed s = false) :
      Transition w (.connects s) (w.modifySession s fun s => { s with connected := true })
  | pathAnswers {s : ℕ} {answers : Bool} :
      Transition w (.pathAnswers s answers) (w.modifySession s fun s => { s with silent := !answers })
  | closes {s : ℕ} : Transition w (.closes s) (w.closeSession s)
  | closeEvent {s : ℕ} (hclosed : w.closed s = true) (hcached : w.manager.get = some s) :
      Transition w (.closeEvent s) w.tearDownStation
  | closeEventStale {s : ℕ} (hclosed : w.closed s = true) (hcached : w.manager.get ≠ some s) :
      Transition w (.closeEvent s) w

theorem transition_of_step {w v : Station} {label : Label} (hstep : step w label = some v) :
    Transition w label v := by
  cases label with
  | live | command | prewarm | ensureStation | powered | pathAnswers | closes =>
    obtain rfl := Option.some.inj hstep
    constructor
  | openFails | resume | ready | afterClose | detach | video | audio | unacknowledged
  | holdExpires =>
    simp only [step] at hstep
    split at hstep
    · split_ifs at hstep
      obtain rfl := Option.some.inj hstep
      constructor <;> assumption
    · cases hstep
  | gaveUp | proceed =>
    simp only [step] at hstep
    split at hstep
    · obtain rfl := Option.some.inj hstep
      constructor
      assumption
    · cases hstep
  | register k =>
    simp only [step] at hstep
    split at hstep
    · next e he =>
      split_ifs at hstep with hopen
      obtain rfl := Option.some.inj hstep
      simp only [Bool.and_eq_true, Option.isNone_iff_eq_none] at hopen
      exact .register he hopen.1 hopen.2
    · cases hstep
  | bound k =>
    simp only [step] at hstep
    split at hstep
    · next he =>
      split_ifs at hstep with hcached
      · obtain rfl := Option.some.inj hstep
        exact .bound he rfl rfl hcached
      · obtain rfl := Option.some.inj hstep
        exact .boundLate he rfl rfl hcached
    · cases hstep
  | attach i =>
    simp only [step] at hstep
    split at hstep
    · next s hs =>
      split_ifs at hstep with hdisposed
      obtain rfl := Option.some.inj hstep
      exact .attach hs (Bool.eq_false_iff.mpr hdisposed)
    · cases hstep
  | teardown i =>
    simp only [step] at hstep
    split at hstep
    · next s hs =>
      split_ifs at hstep with hends
      obtain rfl := Option.some.inj hstep
      exact .teardown hs (by simpa using hends)
    · cases hstep
  | idleElapses =>
    simp only [step] at hstep
    split at hstep
    · next e he =>
      split_ifs at hstep with hidle hretained
      · obtain rfl := Option.some.inj hstep
        exact .idleRetained he hidle hretained
      · obtain rfl := Option.some.inj hstep
        exact .idleCloses he hidle (Nat.eq_zero_of_not_pos hretained)
    · cases hstep
  | resetWhenUnused =>
    simp only [step] at hstep
    split at hstep
    · next e he =>
      split_ifs at hstep with hunused
      · obtain rfl := Option.some.inj hstep
        exact .resetNow he hunused
      · obtain rfl := Option.some.inj hstep
        exact .resetLater he (Nat.lt_of_not_le hunused)
    · next habsent =>
      obtain rfl := Option.some.inj hstep
      exact .resetNothing habsent
  | connects s =>
    simp only [step] at hstep
    split_ifs at hstep with hclosed
    obtain rfl := Option.some.inj hstep
    exact .connects (Bool.eq_false_iff.mpr hclosed)
  | closeEvent s =>
    simp only [step] at hstep
    split_ifs at hstep with hclosed hcached
    · obtain rfl := Option.some.inj hstep
      exact .closeEvent hclosed hcached
    · obtain rfl := Option.some.inj hstep
      exact .closeEventStale hclosed hcached

end EufySdk.P2PCommandRouter
