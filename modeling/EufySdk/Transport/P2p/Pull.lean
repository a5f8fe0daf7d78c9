import Mathlib.Tactic
import EufySdk.Lib.Machine
import EufySdk.Transport.P2p.LiveSource

/-!
# Runs of one shared live source

`SharedLiveSource` with its consumers, its timers, its callbacks and its underlying stream,
as a step function: a step is a call of the owner or of a consumer, an event of the current
stream, or a timer. What a source receives and what it does is kept in a log, newest first,
so that a property of a run is a property of its log. A stream that was stopped is silent,
and host listeners return without calling back, except that one may detach its own consumer
when its stream ends: that is a `detach` right before the end.

- `Pull`, `Label`, `Pull.step` — the machine
- `Pull.can`, `Pull.act` — when a label can happen, and what it does
-/

namespace EufySdk.SharedLiveSource

/-! ## Failed starts -/

inductive StartFailureReason
  | warmTimeout
  | sourceError
  | sourceEnded
  deriving DecidableEq, Repr

inductive StartStage
  | awaitingFirstFrame
  | audioOnly
  | awaitingKeyframe
  deriving DecidableEq, Repr

/-- A `LiveStreamStartError`. -/
structure StartFailure where
  reason : StartFailureReason
  stage : StartStage
  timeoutMs : ℕ
  attempts : ℕ
  cause : Option String := none
  deriving DecidableEq, Repr

def StartFailureReason.text : StartFailureReason → String
  | .warmTimeout => "warm-timeout"
  | .sourceError => "source-error"
  | .sourceEnded => "source-ended"

def StartStage.text : StartStage → String
  | .awaitingFirstFrame => "awaiting-first-frame"
  | .audioOnly => "audio-only"
  | .awaitingKeyframe => "awaiting-keyframe"

def StartFailure.message (f : StartFailure) : String :=
  "live stream failed to start (" ++ f.reason.text ++ " at " ++ f.stage.text ++ " after " ++
    toString f.attempts ++ " attempts; " ++ toString f.timeoutMs ++ "ms deadline)"

/-- An `error` event of a consumer. -/
inductive StreamError
  | start (failure : StartFailure)
  | upstream (err : String)
  deriving DecidableEq, Repr

/-! ## State -/

inductive Event
  /-- Consumer `c` is attached. -/
  | joined (c : ℕ)
  | left (c : ℕ)
  | active
  | idle
  /-- `makeStream` and `start`. -/
  | opened
  /-- `stop` of the underlying stream. -/
  | discarded
  /-- A watch is armed on a stream that a consumer joined. -/
  | watching
  | nudged (force : Bool)
  | video (keyframe : Bool)
  | audio
  /-- `onSessionUnreachable`. -/
  | asked
  | error (c : ℕ) (err : StreamError)
  | stopped (c : ℕ)
  | budget (c : ℕ)
  /-- `teardown`. -/
  | closed
  /-- `onStartFailed`. -/
  | startFailed
  deriving DecidableEq, Repr

/-- What says nothing about the stream and ends it for no consumer. -/
def Event.note : Event → Bool
  | .joined _ | .left _ | .active | .idle | .nudged _ | .asked | .budget _ => true
  | _ => false

structure Options where
  battery : Bool := false
  warmTimeoutMs : ℕ := 20000
  /-- Whether the streams of `makeStream` have a `nudge`. -/
  nudges : Bool := true
  /-- Whether there is an `onSessionUnreachable`. -/
  replaces : Bool := true
  deriving DecidableEq, Repr

/-- An attached consumer; `listens` when it has an `error` listener. -/
structure View where
  id : ℕ
  listens : Bool := false
  deriving DecidableEq, Repr

structure Pull extends Source where
  views : List View := []
  /-- The consumers there ever were. -/
  ids : ℕ := 0
  fruitlessReissues : ℕ := 0
  warmAttempts : ℕ := 0
  /-- Retry tickers that run on although another has taken their place. -/
  strays : ℕ := 0
  budgetTimer : Bool := false
  budgetGraceTimer : Bool := false
  log : List Event := []
  deriving DecidableEq, Repr

namespace Pull

/-! ## Operations -/

/-- `fail` of every consumer: skipped where nothing listens. -/
def fail (s : Pull) (err : StreamError) : Pull :=
  { s with log := ((s.views.filter View.listens).reverse.map fun v => .error v.id err) ++ s.log }

/-- `end` of every consumer. -/
def endAll (s : Pull) : Pull :=
  { s with log := (s.views.reverse.map fun v => .stopped v.id) ++ s.log }

def warm (s : Pull) : Pull :=
  { s with
    toSource := s.toSource.warm
    fruitlessReissues := 0
    warmAttempts := 1
    log := .opened :: s.log }

def watchReusedStream (o : Options) (s : Pull) : Pull :=
  if s.warmDeadlineTimer || s.warmRetryTimer then s
  else
    let s := { s with
      toSource := s.toSource.watchReusedStream
      fruitlessReissues := 0
      warmAttempts := 0
      log := .watching :: s.log }
    if o.nudges then { s with warmAttempts := 1, log := .nudged false :: s.log } else s

def joinedLog (s : Pull) : List Event :=
  if s.consumers = 0 then [.active, .joined s.ids] else [.joined s.ids]

/-- `attachConsumer` up to the stream. -/
def join (s : Pull) : Pull :=
  { s with
    toSource := s.toSource.join.cancelLinger
    views := s.views ++ [View.mk s.ids false]
    ids := s.ids + 1
    log := s.joinedLog ++ s.log }

/-- `attachConsumer`. -/
def attach (o : Options) (s : Pull) : Pull :=
  if s.join.stream then s.join.watchReusedStream o else s.join.warm

def clearBudget (s : Pull) : Pull := { s with budgetTimer := false, budgetGraceTimer := false }

def armBudget (s : Pull) : Pull := { s with budgetTimer := true, budgetGraceTimer := false }

def teardown (s : Pull) (report : Bool) : Pull :=
  let failed := s.startFailed && report
  let log := Event.closed :: (if s.stream then .discarded :: s.log else s.log)
  { s.clearBudget with
    toSource := s.toSource.teardown
    log := if failed then .startFailed :: log else log }

def dispose (s : Pull) : Pull :=
  if s.disposed then s
  else
    let closed := { s.endAll with toSource := s.toSource.dispose, views := [] }
    let log := Event.closed :: (if s.stream then .discarded :: s.endAll.log else s.endAll.log)
    { closed.clearBudget with log := if s.consumers = 0 then log else .idle :: log }

/-- `onDetach`. The owner may dispose of the source from within `onIdle`: a release completes
a deferred reset of the session. -/
def detach (s : Pull) (c : ℕ) (recycled : Bool) : Pull :=
  let s := { s with
    toSource := s.toSource.leave
    views := s.views.filter fun v => v.id ≠ c
    log := .left c :: s.log }
  if s.consumers = 0 && !s.disposed then
    let s := { s with log := .idle :: s.log }
    let s := if recycled then s.dispose else s
    { s with toSource := s.toSource.arm }
  else s

def listen (s : Pull) (c : ℕ) (listens : Bool) : Pull :=
  { s with views := s.views.map fun v => if v.id = c then { v with listens := listens } else v }

def startFailure (o : Options) (s : Pull) (reason : StartFailureReason) (cause : Option String) :
    StreamError :=
  .start {
    reason := reason
    stage := if s.delivered.video then .awaitingKeyframe
      else if s.delivered.audio then .audioOnly else .awaitingFirstFrame
    timeoutMs := o.warmTimeoutMs
    attempts := s.warmAttempts
    cause := cause }

def onWarmTimeout (o : Options) (s : Pull) : Pull :=
  if s.disposed || !s.stream then s
  else (s.fail (s.startFailure o .warmTimeout none)).teardown true

def onUpstreamEnd (o : Options) (s : Pull) : Pull :=
  if s.disposed || !s.stream then s
  else
    let s := if s.delivered.keyframe then s else s.fail (s.startFailure o .sourceEnded none)
    s.endAll.teardown true

def onUpstreamError (o : Options) (s : Pull) (err : String) : Pull :=
  if s.disposed then s
  else
    let failure :=
      if s.delivered.keyframe then .upstream err else s.startFailure o .sourceError (some err)
    (s.fail failure).teardown true

def onVideo (o : Options) (s : Pull) (keyframe : Bool) : Pull :=
  let settled := s.toSource.settleReuseWatch
  let wasWarming := settled.warmRetryTimer || settled.warmDeadlineTimer
  let s := { s with
    toSource := s.toSource.onVideo keyframe
    fruitlessReissues := 0
    log := .video keyframe :: s.log }
  if keyframe && wasWarming && o.battery then s.armBudget else s

def onAudio (s : Pull) : Pull :=
  { s with toSource := s.toSource.onAudio, fruitlessReissues := 0, log := .audio :: s.log }

def onStartUnacknowledged (o : Options) (s : Pull) : Pull :=
  if s.wantsSession && o.replaces then
    { s with toSource := s.toSource.askSession, log := .asked :: s.log }
  else s

def rewarm (s : Pull) : Pull :=
  if s.disposed || !s.sessionReplacementAsked || s.state ≠ .warming then s
  else
    { s with
      toSource := s.toSource.rewarm
      fruitlessReissues := 0
      warmAttempts := s.warmAttempts + 1
      strays := if s.warmRetryTimer then s.strays + 1 else s.strays
      log := .opened :: (if s.stream then .discarded :: s.log else s.log) }

def reissueStart (o : Options) (s : Pull) : Pull :=
  if s.stream && o.nudges then
    let arrived := s.delivered.video || s.delivered.audio
    let fruitless := if arrived then 0 else s.fruitlessReissues + 1
    { s with
      warmAttempts := s.warmAttempts + 1
      fruitlessReissues := fruitless
      log := .nudged (!arrived && 1 < fruitless) :: s.log }
  else s

def onBudgetExpire (s : Pull) : Pull :=
  if s.disposed || !s.stream then s
  else
    { s with
      budgetGraceTimer := true
      log := (s.views.reverse.map fun v => .budget v.id) ++ s.log }

def extendBudget (s : Pull) : Pull :=
  if s.disposed || !s.stream then s else s.armBudget

/-! ## Steps -/

inductive Label
  | attach
  | detach (c : ℕ) (recycled : Bool)
  /-- A consumer's host adds or removes its `error` listener. -/
  | listen (c : ℕ) (listens : Bool)
  | video (keyframe : Bool)
  | audio
  | unacknowledged
  | upstreamEnd
  | upstreamError (err : String)
  | reissue
  | deadline
  | lingerElapses
  | budgetElapses
  | extend
  | graceElapses
  | rewarm
  | dispose
  deriving DecidableEq, Repr

/-- The labels that leave the stream and the number of its consumers as they are. -/
def Label.coasts : Label → Bool
  | .listen _ _ | .unacknowledged | .reissue | .budgetElapses | .extend => true
  | _ => false

/-- What can happen: `attach` throws on a disposed source, a consumer detaches once, only the
current stream is heard, and a timer fires while it is pending. -/
def can (s : Pull) : Label → Bool
  | .attach => !s.disposed
  | .detach c _ => s.views.any fun v => v.id = c
  | .video _ | .audio | .unacknowledged | .upstreamEnd | .upstreamError _ => s.stream
  | .reissue => s.warmRetryTimer || 0 < s.strays
  | .deadline => s.warmDeadlineTimer
  | .lingerElapses => s.lingerTimer
  | .budgetElapses => s.budgetTimer
  | .extend => s.log.any fun | .budget _ => true | _ => false
  | .graceElapses => s.budgetGraceTimer
  | .listen _ _ | .rewarm | .dispose => true

def act (o : Options) (s : Pull) : Label → Pull
  | .attach => s.attach o
  | .detach c recycled => s.detach c recycled
  | .listen c listens => s.listen c listens
  | .video keyframe => s.onVideo o keyframe
  | .audio => s.onAudio
  | .unacknowledged => s.onStartUnacknowledged o
  | .upstreamEnd => s.onUpstreamEnd o
  | .upstreamError err => s.onUpstreamError o err
  | .reissue => s.reissueStart o
  | .deadline => { s with warmDeadlineTimer := false }.onWarmTimeout o
  | .lingerElapses => s.teardown true
  | .budgetElapses => { s with budgetTimer := false }.onBudgetExpire
  | .extend => s.extendBudget
  | .graceElapses => s.endAll.teardown true
  | .rewarm => s.rewarm
  | .dispose => s.dispose

def step (o : Options) (s : Pull) (label : Label) : Option Pull :=
  if s.can label then some (s.act o label) else none

theorem step_eq_some {o : Options} {s t : Pull} {label : Label} :
    step o s label = some t ↔ s.can label = true ∧ s.act o label = t := by
  simp [step]

end Pull

end EufySdk.SharedLiveSource
