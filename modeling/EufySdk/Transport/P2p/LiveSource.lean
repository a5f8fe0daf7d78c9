import Mathlib.Tactic

/-!
# The lifecycle of a shared live source

`SharedLiveSource` of `transport/p2p/shared-live-source.ts` without the media it fans out:
its stream, its consumers, its timers and its state. The callbacks `onActive`, `onIdle`,
`onStartFailed` and `onSessionUnreachable` belong to the owner, so each operation here is
the part of its method on one side of the callback.

- `Source` — the fields of a source
- `Source.join`, `Source.leave`, `Source.arm`, `Source.teardown`, `Source.dispose` — what
  attaching, detaching and ending do
-/

namespace EufySdk.SharedLiveSource

inductive SharedLiveState
  | idle
  | warming
  | live
  | lingering
  | stopped
  deriving DecidableEq, Repr

/-- What the current stream has delivered. -/
structure Delivered where
  keyframe : Bool := false
  video : Bool := false
  audio : Bool := false
  deriving DecidableEq, Repr

structure Source where
  state : SharedLiveState := .idle
  disposed : Bool := false
  consumers : ℕ := 0
  /-- Whether there is an underlying stream. -/
  stream : Bool := false
  delivered : Delivered := {}
  lastKeyframe : Bool := false
  lingerTimer : Bool := false
  warmRetryTimer : Bool := false
  warmDeadlineTimer : Bool := false
  reuseWatch : Bool := false
  sessionReplacementAsked : Bool := false
  deriving DecidableEq, Repr

namespace Source

def armWarmWatch (s : Source) : Source :=
  { s with warmDeadlineTimer := true, warmRetryTimer := true }

def clearWarmWatch (s : Source) : Source :=
  { s with warmDeadlineTimer := false, warmRetryTimer := false }

def openStream (s : Source) : Source := { s with stream := true }

def warm (s : Source) : Source :=
  { s with
    state := .warming
    sessionReplacementAsked := false
    reuseWatch := false
    delivered := {} }.openStream.armWarmWatch

def watchReusedStream (s : Source) : Source :=
  if s.warmDeadlineTimer || s.warmRetryTimer then s
  else { s with delivered := {}, reuseWatch := true }.armWarmWatch

def cancelLinger (s : Source) : Source :=
  if s.lingerTimer then
    { s with
      lingerTimer := false
      state :=
        if s.state = .lingering then (if s.lastKeyframe then .live else .warming) else s.state }
  else s

/-- `attachConsumer` up to its `onActive`, which is called when this is the first consumer. -/
def join (s : Source) : Source := { s with consumers := s.consumers + 1 }

/-- `attachConsumer` behind `onActive`. -/
def joined (s : Source) : Source :=
  let s := s.cancelLinger
  if s.stream then s.watchReusedStream else s.warm

/-- `onDetach` up to its `onIdle`, which is called when this was the last consumer. -/
def leave (s : Source) : Source := { s with consumers := s.consumers - 1 }

/-- `onDetach` behind `onIdle`. -/
def arm (s : Source) : Source := { s with state := .lingering, lingerTimer := true }

def settleReuseWatch (s : Source) : Source :=
  if s.reuseWatch then
    { s with
      reuseWatch := false
      state := if s.state = SharedLiveState.warming then SharedLiveState.live else s.state }.clearWarmWatch
  else s

def onAudio (s : Source) : Source :=
  { s with delivered := { s.delivered with audio := true } }.settleReuseWatch

def onVideo (s : Source) (keyframe : Bool) : Source :=
  let s := { s with delivered := { s.delivered with video := true } }.settleReuseWatch
  if keyframe then
    { s with
      lastKeyframe := true
      delivered := { s.delivered with keyframe := true }
      state := if s.state = SharedLiveState.warming then SharedLiveState.live else s.state }.clearWarmWatch
  else s

/-- A teardown reports a failed start when the stream it ends had delivered no keyframe. -/
def startFailed (s : Source) : Bool := s.stream && !s.delivered.keyframe

def teardown (s : Source) : Source :=
  { s with
    stream := false
    lingerTimer := false
    lastKeyframe := false
    state := .stopped }.clearWarmWatch

/-- `dispose` up to its `onIdle`, which is called when consumers were still attached. -/
def dispose (s : Source) : Source := { s with disposed := true, consumers := 0 }.teardown

/-- Whether an unacknowledged start asks the owner for another session. -/
def wantsSession (s : Source) : Bool :=
  !s.disposed && !s.sessionReplacementAsked &&
    !(s.delivered.video || s.delivered.audio || s.delivered.keyframe)

def askSession (s : Source) : Source :=
  { s with sessionReplacementAsked := true, warmRetryTimer := false }

def rewarm (s : Source) : Source :=
  if s.disposed || !s.sessionReplacementAsked || s.state ≠ .warming then s
  else { s.openStream with warmRetryTimer := true }

/-- A source that counts as a user of its station. -/
def active (s : Source) : Bool := !s.disposed && 0 < s.consumers

end Source

end EufySdk.SharedLiveSource
